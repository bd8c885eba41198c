/-! Universally unique identifiers: sixteen bytes, their hyphenated text, and the reading of the
accepted texts with the cause of every refusal.

Four spellings are accepted: 32 hexadecimal digits; the groups of 8, 4, 4, 4 and 12 digits with
hyphens between them; that in braces; and that after urn:uuid: in any case. -/
namespace EntityQuery

structure Uuid where
  bytes : List UInt8
  size : bytes.length = 16
deriving DecidableEq

namespace Uuid

/-- Why a text or a run of bytes is no identifier. Lengths and places count bytes. -/
inductive Fault where
  | byteCount (found : Nat)
  | length (found : Nat)
  | character (found : Char) (place : Nat)
  | groupCount (found : Nat)
  | groupLength (group expected found : Nat)
deriving DecidableEq, Repr

def Fault.message : Fault → String
  | .byteCount n => s!"invalid length: expected 16 bytes, found {n}"
  | .length n => s!"invalid length: found {n}"
  | .character c place => s!"invalid character: found `{c}` at {place}"
  | .groupCount n => s!"invalid group count: expected 5, found {n}"
  | .groupLength group expected found =>
    s!"invalid group length in group {group}: expected {expected}, found {found}"

def ofBytes (bytes : List UInt8) : Except Fault Uuid :=
  if h : bytes.length = 16 then .ok ⟨bytes, h⟩ else .error (.byteCount bytes.length)

/-! ### Hexadecimal -/

def hexDigits : List Char := "0123456789abcdef".toList

def hexChar (n : Nat) : Char := hexDigits.getD n '0'

/-- The value of a hexadecimal digit in either case. -/
def hexValue? (c : Char) : Option Nat := hexDigits.idxOf? c.toLower

def byteText (b : UInt8) : List Char := [hexChar (b.toNat / 16), hexChar (b.toNat % 16)]

/-- The bytes that an even run of hexadecimal digits writes. -/
def readBytes : List Char → Option (List UInt8)
  | [] => some []
  | [_] => none
  | a :: b :: rest => do
    let high ← hexValue? a
    let low ← hexValue? b
    let bytes ← readBytes rest
    return UInt8.ofNat (16 * high + low) :: bytes

/-! ### Text -/

/-- The proper places of the four hyphens. -/
def hyphens : List Nat := [8, 13, 18, 23]

/-- The lower-case text with hyphens. -/
def text (id : Uuid) : String :=
  let digits := id.bytes.flatMap byteText
  let group (start size : Nat) : List Char := (digits.drop start).take size
  String.ofList (['-'].intercalate
    [group 0 8, group 8 4, group 12 4, group 16 4, group 20 12])

def urn : List Char := "urn:uuid:".toList

/-- The text without the braces around it or the name in front of it, and how many bytes were
dropped in front. -/
def unwrap (cs : List Char) : List Char × Nat :=
  match cs with
  | '\x7b' :: rest =>
    if rest.getLast? = some '\x7d' then (rest.dropLast, 1) else (cs, 0)
  | _ => if (cs.take 9).map Char.toLower = urn then (cs.drop 9, 9) else (cs, 0)

/-- The part of a text that holds the groups, when the text with what is around it takes as many
bytes as a spelling with hyphens. -/
def grouped? (s : String) : Option (List Char) :=
  let (inner, dropped) := unwrap s.toList
  match s.utf8ByteSize, dropped with
  | 36, _ => some s.toList
  | 38, 1 | 45, 9 => some inner
  | _, _ => none

/-- The digits of a text with every hyphen in its place. -/
def ungroup (cs : List Char) : Option (List Char) :=
  if cs.length = 36 && hyphens.all fun place => cs[place]? == some '-' then
    some (cs.filter (· != '-'))
  else none

/-- The digits of an accepted spelling. -/
def digits? (s : String) : Option (List Char) :=
  if s.utf8ByteSize = 32 then some s.toList else (grouped? s).bind ungroup

/-- The first character that is neither a digit nor a hyphen, with its place. -/
def strange? (place : Nat) : List Char → Option (Char × Nat)
  | [] => none
  | c :: rest =>
    if (hexValue? c).isSome || c = '-' then strange? (place + c.utf8Size) rest else some (c, place)

/-- The places of the hyphens. -/
def hyphenPlaces (cs : List Char) : List Nat :=
  (List.range cs.length).filter fun place => cs[place]? == some '-'

/-- The first of the four groups whose closing hyphen is out of place. -/
def shortGroup? (places : List Nat) : Option Fault :=
  let proper := [(0, 0, 8), (1, 9, 4), (2, 14, 4), (3, 19, 4)]
  (proper.zip places).findSome? fun ((group, start, size), place) =>
    if place = start + size then none else some (.groupLength group size (place - start))

/-- What is wrong with the groups of a text of `size` bytes of which `dropped` stand in front of
them. A text without hyphens is one group, or, if `plain`, digits of the wrong number. -/
def diagnoseGroups (groups : List Char) (dropped size : Nat) (plain : Bool) : Fault :=
  match strange? dropped groups with
  | some (c, place) => .character c place
  | none =>
    let places := hyphenPlaces groups
    if places.isEmpty && plain then .length size
    else if places.length ≠ 4 then .groupCount (places.length + 1)
    else (shortGroup? places).getD (.groupLength 4 12 (size - 24))

/-- What is wrong with a text that is no accepted spelling. A text as long as one with hyphens is
held against that one, and places count from where its digits begin; any other text is taken out
of what is around it, and places count from its own first byte. -/
def diagnose (s : String) : Fault :=
  let size := s.utf8ByteSize
  if size = 0 || 45 < size then .length size
  else
    match grouped? s with
    | some groups => diagnoseGroups groups 0 size false
    | none =>
      let (inner, dropped) := unwrap s.toList
      diagnoseGroups inner dropped size (dropped = 0)

def read (s : String) : Except Fault Uuid :=
  match (digits? s).bind readBytes with
  | some bytes => if h : bytes.length = 16 then .ok ⟨bytes, h⟩ else .error (diagnose s)
  | none => .error (diagnose s)

end Uuid
end EntityQuery
