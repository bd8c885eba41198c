import EntityQuery.Mapping.Fault

/-! Reading JSON from left to right.

A reader takes characters off the front of the text or fails with the first problem it meets.
There are three ways to go over a value: by the type that is wanted (`textValue`, `listOf`),
keeping whatever comes (`Buffered`), and skipping it (`skipValue`). They agree on good JSON and
differ in what they report of bad: a skipped value is checked for syntax only, at any depth and
with numbers of any size. -/
namespace EntityQuery.Mapping

abbrev Reader := StateT (List Char) (Except Fault)

variable {α : Type}

def fail (fault : JsonFault) : Reader α := throw (.json fault)

/-! ### Characters -/

def isSpace (c : Char) : Bool := c = ' ' || c = '\t' || c = '\n' || c = '\r'

/-- The next character that is no white space, which stays. -/
def peek? : Reader (Option Char) := do
  modify (·.dropWhile isSpace)
  return (← get).head?

/-- The next character, white space included, which stays. -/
def glance? : Reader (Option Char) := return (← get).head?

def advance : Reader Unit := modify List.tail

/-- The letters of a word, one by one. -/
def word : List Char → Reader Unit
  | [] => pure ()
  | c :: rest => do
    match ← glance? with
    | none => fail .endInValue
    | some d => if d = c then advance; word rest else fail .expectedWord

/-! ### Texts -/

def hexDigit? (c : Char) : Option Nat := "0123456789abcdef".toList.idxOf? c.toLower

/-- Four hexadecimal digits. A text with fewer than four bytes left ends first. -/
def fourHex : Reader Nat := do
  match ← get with
  | a :: b :: c :: d :: rest =>
    match [a, b, c, d].mapM hexDigit? with
    | some digits =>
      set rest
      return digits.foldl (fun n digit => 16 * n + digit) 0
    | none => fail .badEscape
  | short =>
    if (String.ofList short).utf8ByteSize < 4 then fail .endInString else fail .badEscape

def isHighSurrogate (n : Nat) : Bool := 0xD800 ≤ n && n ≤ 0xDBFF

def isLowSurrogate (n : Nat) : Bool := 0xDC00 ≤ n && n ≤ 0xDFFF

/-- Takes this character, which must come next in a pair of escapes. -/
def pairChar (c : Char) : Reader Unit := do
  match ← glance? with
  | none => fail .endInString
  | some d => if d = c then advance else fail .openSurrogate

/-- The character of a numeric escape; surrogates come in pairs. -/
def numericEscape : Reader Char := do
  let n ← fourHex
  if isLowSurrogate n then fail .loneSurrogate
  else if isHighSurrogate n then
    pairChar '\\'
    pairChar 'u'
    let low ← fourHex
    if isLowSurrogate low then
      return Char.ofNat ((n - 0xD800) * 0x400 + (low - 0xDC00) + 0x10000)
    else fail .loneSurrogate
  else return Char.ofNat n

/-- The character that an escape letter stands for. -/
def shortEscape? (c : Char) : Option Char :=
  match c with
  | '"' => some '"'
  | '\\' => some '\\'
  | '/' => some '/'
  | 'b' => some '\x08'
  | 'f' => some '\x0c'
  | 'n' => some '\n'
  | 'r' => some '\r'
  | 't' => some '\t'
  | _ => none

/-- What follows a backslash. -/
def escape : Reader Char := do
  match ← glance? with
  | none => fail .endInString
  | some c =>
    advance
    match shortEscape? c with
    | some d => return d
    | none => if c = 'u' then numericEscape else fail .badEscape

/-- The rest of a text behind its opening quote; `escaped` reads what follows a backslash. -/
def textLoop (escaped : Reader Char) : Nat → Reader (List Char)
  | 0 => fail .endInString
  | fuel + 1 => do
    match ← glance? with
    | none => fail .endInString
    | some c =>
      advance
      if c = '"' then return []
      else if c = '\\' then
        let d ← escaped
        return d :: (← textLoop escaped fuel)
      else if c.toNat < 0x20 then fail .control
      else return c :: (← textLoop escaped fuel)

def textBody : Reader String := do
  let size := (← get).length
  return String.ofList (← textLoop escape (size + 1))

/-- An escape whose character does not matter, so that surrogates need no partner. -/
def anyEscape : Reader Char := do
  match ← glance? with
  | none => fail .endInString
  | some c =>
    advance
    if (shortEscape? c).isSome then return c
    else if c = 'u' then
      let _ ← fourHex
      return c
    else fail .badEscape

def skipText : Reader Unit := do
  let size := (← get).length
  let _ ← textLoop anyEscape (size + 1)

/-! ### Numbers -/

def digitsNext : Reader (List Char) := do
  let digits := (← get).takeWhile Char.isDigit
  modify (·.dropWhile Char.isDigit)
  return digits

/-- Appends digits to a number while it fits in 64 bits. Returns it with the count of the digits
taken and the digits left over. -/
def gather (n taken : Nat) : List Char → Nat × Nat × List Char
  | [] => (n, taken, [])
  | c :: rest =>
    let next := 10 * n + (c.toNat - '0'.toNat)
    if next < UInt64.size then gather next (taken + 1) rest else (n, taken, c :: rest)

/-- A number times a power of ten, one rounding for the number, one for the power and one for
the product; nothing when it is past the largest value. -/
def scaled (x : Binary64) (exponent : Int) : Nat → Option Binary64
  | 0 => some x
  | fuel + 1 =>
    let power (k : Nat) := Binary64.ofRatio false (Binary64.tenTo k) 1
    if exponent.natAbs ≤ 308 then
      if 0 ≤ exponent then
        let y := x.mul (power exponent.natAbs)
        if y.isInfinite then none else some y
      else some (x.div (power exponent.natAbs))
    else if x.isZero then some x
    else if 0 ≤ exponent then none
    else scaled (x.div (power 308)) (exponent + 308) fuel

def floating (negative : Bool) (significand : Nat) (exponent : Int) : Reader Found := do
  match scaled (Binary64.ofRatio false significand 1) exponent 8 with
  | none => fail .numberRange
  | some x => return .float (if negative then x.neg else x)

/-- The exponent of a number behind its letter. -/
def exponentPart (negative : Bool) (significand : Nat) (start : Int) : Reader Found := do
  advance
  let sign ← glance?
  let down := sign == some '-'
  if down || sign == some '+' then advance
  match ← glance? with
  | none => fail .endInValue
  | some c =>
    if !c.isDigit then fail .badNumber
    else
      let digits ← digitsNext
      let size := digits.foldl (fun n d => 10 * n + (d.toNat - '0'.toNat)) 0
      if Int32.maxValue.toInt < size then
        if significand != 0 && !down then fail .numberRange
        else return .float (Binary64.ofRatio negative 0 1)
      else floating negative significand (if down then start - size else start + size)

/-- What follows the whole part of a number. -/
def fractionPart (negative : Bool) (significand : Nat) (start : Int) : Reader Found := do
  advance
  let digits ← digitsNext
  if digits.isEmpty then
    match ← glance? with
    | none => fail .endInValue
    | some _ => fail .badNumber
  else
    let (n, taken, _) := gather significand 0 digits
    let exponent := start - taken
    match ← glance? with
    | some 'e' | some 'E' => exponentPart negative n exponent
    | _ => floating negative n exponent

/-- A number behind its sign. -/
def number (negative : Bool) : Reader Found := do
  match ← glance? with
  | none => fail .endInValue
  | some c =>
    if !c.isDigit then
      fail .badNumber
    else
      let digits ← digitsNext
      if c = '0' && digits.length ≠ 1 then fail .badNumber
      else
        let (n, _, excess) := gather 0 0 digits
        match ← glance? with
        | some '.' => fractionPart negative n excess.length
        | some 'e' | some 'E' => exponentPart negative n excess.length
        | _ =>
          if !excess.isEmpty then floating negative n excess.length
          else if !negative then return .integer n
          else if n = 0 || -(n : Int) < Int64.minValue.toInt then
            return .float (Binary64.ofRatio true n 1)
          else return .integer (-n)

/-- A number behind its sign, of any size. -/
def skipNumber : Reader Unit := do
  match ← glance? with
  | none => fail .badNumber
  | some c =>
    if !c.isDigit then fail .badNumber
    else
      let digits ← digitsNext
      if c = '0' && digits.length ≠ 1 then fail .badNumber
      if (← glance?) == some '.' then
        advance
        if (← digitsNext).isEmpty then fail .badNumber
      match ← glance? with
      | some 'e' | some 'E' =>
        advance
        let sign ← glance?
        if sign == some '-' || sign == some '+' then advance
        if (← digitsNext).isEmpty then fail .badNumber
      | _ => pure ()

/-! ### Values by type -/

/-- Reads what stands here and reports it as the wrong thing. -/
def wrongType (want : String) : Reader α := do
  match ← glance? with
  | some 'n' => advance; word ['u', 'l', 'l']; throw (.wrongType .null want)
  | some 't' => advance; word ['r', 'u', 'e']; throw (.wrongType (.bool true) want)
  | some 'f' => advance; word ['a', 'l', 's', 'e']; throw (.wrongType (.bool false) want)
  | some '-' => advance; throw (.wrongType (← number true) want)
  | some '"' => advance; throw (.wrongType (.text (← textBody)) want)
  | some '[' => throw (.wrongType .sequence want)
  | some '\x7b' => throw (.wrongType .map want)
  | some c =>
    if c.isDigit then throw (.wrongType (← number false) want) else fail .expectedValue
  | none => fail .expectedValue

def textValue (want : String) : Reader String := do
  match ← peek? with
  | none => fail .endInValue
  | some '"' => advance; textBody
  | some _ => wrongType want

/-- Null, or what the reader reads. -/
def orNull (reader : Reader α) : Reader (Option α) := do
  match ← peek? with
  | some 'n' => advance; word ['u', 'l', 'l']; return none
  | _ => return some (← reader)

/-- Whether a further element follows in an open list; `first` says that none came yet. -/
def hasElement (first : Bool) : Reader Bool := do
  match ← peek? with
  | none => fail .endInList
  | some ']' => return false
  | some c =>
    if first then return true
    else if c = ',' then
      advance
      match ← peek? with
      | some ']' => fail .trailingComma
      | some _ => return true
      | none => fail .endInValue
    else fail .expectedListEnd

/-- Whether a further key follows in an open object. -/
def hasKey (first : Bool) : Reader Bool := do
  match ← peek? with
  | none => fail .endInObject
  | some '\x7d' => return false
  | some c =>
    if first then
      if c = '"' then return true else fail .keyNotText
    else if c = ',' then
      advance
      match ← peek? with
      | some '"' => return true
      | some '\x7d' => fail .trailingComma
      | some _ => fail .keyNotText
      | none => fail .endInValue
    else fail .expectedObjectEnd

def colon : Reader Unit := do
  match ← peek? with
  | some ':' => advance
  | some _ => fail .expectedColon
  | none => fail .endInObject

/-- The end of a list whose wanted elements have been read. -/
def closeList : Reader Unit := do
  match ← peek? with
  | some ']' => advance
  | some ',' =>
    advance
    match ← peek? with
    | some ']' => fail .trailingComma
    | _ => fail .trailingText
  | some _ => fail .trailingText
  | none => fail .endInList

def elements (element : Reader α) (first : Bool) : Nat → Reader (List α)
  | 0 => fail .endInList
  | fuel + 1 => do
    if ← hasElement first then
      let a ← element
      return a :: (← elements element false fuel)
    else return []

/-- The rest of a list behind its opening bracket. -/
def listBody (element : Reader α) : Reader (List α) := do
  let size := (← get).length
  let as ← elements element true (size + 1)
  closeList
  return as

def listOf (element : Reader α) : Reader (List α) := do
  match ← peek? with
  | none => fail .endInValue
  | some '[' => advance; listBody element
  | some _ => wrongType "a sequence"

/-! ### Values kept as they come -/

/-- A value of which only texts, flags, nulls and objects are told apart. -/
inductive Buffered where
  | null
  | bool (b : Bool)
  | text (s : String)
  | object (fields : List (String × Buffered))
  | other

def fields (value : Reader Buffered) (first : Bool) : Nat → Reader (List (String × Buffered))
  | 0 => fail .endInObject
  | fuel + 1 => do
    if ← hasKey first then
      advance
      let key ← textBody
      colon
      let v ← value
      return (key, v) :: (← fields value false fuel)
    else return []

/-- Reads a value that may hold `room - 1` lists and objects one inside the other. -/
def buffered : Nat → Reader Buffered
  | 0 => fail .tooDeep
  | room + 1 => do
    match ← peek? with
    | none => fail .endInValue
    | some 'n' => advance; word ['u', 'l', 'l']; return .null
    | some 't' => advance; word ['r', 'u', 'e']; return .bool true
    | some 'f' => advance; word ['a', 'l', 's', 'e']; return .bool false
    | some '-' => advance; let _ ← number true; return .other
    | some '"' => advance; return .text (← textBody)
    | some '[' =>
      if room = 0 then fail .tooDeep
      advance
      let _ ← listBody (buffered room)
      return .other
    | some '\x7b' =>
      if room = 0 then fail .tooDeep
      advance
      let size := (← get).length
      let entries ← fields (buffered room) true (size + 1)
      advance
      return .object entries
    | some c =>
      if c.isDigit then
        let _ ← number false
        return .other
      else fail .expectedValue

/-! ### Values that are skipped -/

/-- A list or an object that is open around a skipped value. -/
inductive Frame where
  | list | object
deriving DecidableEq

/-- Where the skipping stands: before a value, or behind one in the innermost frame. Right
behind an opening bracket no comma is accepted. -/
inductive Phase where
  | value
  | behind (comma : Bool)

def Frame.endFault : Frame → JsonFault
  | .list => .endInList
  | .object => .endInObject

def Frame.separatorFault : Frame → JsonFault
  | .list => .expectedListEnd
  | .object => .expectedObjectEnd

/-- The key of the next field, when the frame is an object. -/
def skipKey : Frame → Reader Unit
  | .list => pure ()
  | .object => do
    match ← peek? with
    | some '"' => advance; skipText
    | some _ => fail .keyNotText
    | none => fail .endInObject
    colon

/-- Takes a value that is no list and no object, or opens a frame. -/
def skipStart : Reader (Option Frame) := do
  match ← peek? with
  | none => fail .endInValue
  | some 'n' => advance; word ['u', 'l', 'l']; return none
  | some 't' => advance; word ['r', 'u', 'e']; return none
  | some 'f' => advance; word ['a', 'l', 's', 'e']; return none
  | some '-' => advance; skipNumber; return none
  | some '"' => advance; skipText; return none
  | some '[' => advance; return some .list
  | some '\x7b' => advance; return some .object
  | some c => if c.isDigit then skipNumber; return none else fail .expectedValue

def skipping : Nat → Phase → List Frame → Reader Unit
  | 0, _, _ => fail .endInValue
  | fuel + 1, .value, frames => do
    match ← skipStart with
    | some frame => skipping fuel (.behind false) (frame :: frames)
    | none => skipping fuel (.behind true) frames
  | _ + 1, .behind _, [] => pure ()
  | fuel + 1, .behind comma, frame :: frames => do
    let next ← peek?
    if next == some ',' && comma then
      advance
      skipKey frame
      skipping fuel .value (frame :: frames)
    else if next == some ']' && frame == .list || next == some '\x7d' && frame == .object then
      advance
      skipping fuel (.behind true) frames
    else if next.isNone then fail frame.endFault
    else if comma then fail frame.separatorFault
    else
      skipKey frame
      skipping fuel .value (frame :: frames)

def skipValue : Reader Unit := do
  let size := (← get).length
  skipping (2 * size + 2) .value []

end EntityQuery.Mapping
