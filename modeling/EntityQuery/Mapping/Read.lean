import EntityQuery.Mapping.Document
import EntityQuery.Mapping.Json

/-! Mapping documents from their JSON text.

A record may be written as an object or as the list of its fields in their order. In an object
unknown fields are skipped and a known field comes at most once; fields that may be missing have
the defaults of the definitions. A property is a bare name or an object. -/
namespace EntityQuery.Mapping

/-- One field of a record that is being read. -/
structure Field (σ : Type) where
  name : String
  required : Bool
  read : σ → Reader σ

variable {σ : Type}

/-- The fields of a record written as a list, from position `place` on. -/
def listFields (want : String) (place : Nat) (first : Bool) (s : σ) : List (Field σ) → Reader σ
  | [] => pure s
  | field :: rest => do
    if ← hasElement first then
      let s ← field.read s
      listFields want (place + 1) false s rest
    else if field.required then throw (.tooShort place want)
    else listFields want (place + 1) first s rest

/-- The fields of a record written as an object. -/
def objectFields (known : List (Field σ)) (seen : List String) (first : Bool) (s : σ) :
    Nat → Reader σ
  | 0 => fail .endInObject
  | fuel + 1 => do
    if ← hasKey first then
      advance
      let key ← textBody
      match known.find? (·.name == key) with
      | some field =>
        if seen.contains key then throw (.duplicateField key)
        colon
        let s ← field.read s
        objectFields known (key :: seen) false s fuel
      | none =>
        colon
        skipValue
        objectFields known seen false s fuel
    else
      match known.find? fun field => field.required && !seen.contains field.name with
      | some field => throw (.missingField field.name)
      | none => return s

/-- A record called `name` in errors, read into the defaults `start`. -/
def recordOf (name : String) (known : List (Field σ)) (start : σ) : Reader σ := do
  let noun := if known.length = 1 then "element" else "elements"
  match ← peek? with
  | none => fail .endInValue
  | some '[' =>
    advance
    let s ← listFields s!"struct {name} with {known.length} {noun}" 0 true start known
    closeList
    return s
  | some '\x7b' =>
    advance
    let size := (← get).length
    let s ← objectFields known [] true start (size + 1)
    advance
    return s
  | some _ => wrongType s!"struct {name}"

/-! ### Properties -/

/-- The value of a field that is a text. -/
def Buffered.text? : Buffered → Option String
  | .text s => some s
  | _ => none

/-- The value of a field that is a text or null. -/
def Buffered.optionalText? : Buffered → Option (Option String)
  | .null => some none
  | .text s => some (some s)
  | _ => none

def Buffered.bool? : Buffered → Option Bool
  | .bool b => some b
  | _ => none

def propertyFields : List String := ["name", "column", "ignored", "constructor", "sequence"]

/-- The value of a field, where one that is missing has a default. -/
def fieldOr {β : Type} (entries : List (String × Buffered)) (key : String)
    (read : Buffered → Option β) (default : β) : Option β :=
  match entries.find? (·.1 == key) with
  | none => some default
  | some (_, v) => read v

/-- A property written as an object with each known field at most once. -/
def PropertyDef.ofEntries? (entries : List (String × Buffered)) : Option PropertyDef := do
  let known := (entries.map Prod.fst).filter propertyFields.contains
  guard (known.eraseDups.length = known.length)
  let name ← (entries.find? (·.1 == "name")).bind (·.2.text?)
  let column ← fieldOr entries "column" Buffered.optionalText? none
  let ignored ← fieldOr entries "ignored" Buffered.bool? false
  let constructor ← fieldOr entries "constructor" Buffered.optionalText? none
  let sequence ← fieldOr entries "sequence" Buffered.bool? false
  return {name, column, ignored, constructor, sequence}

def PropertyDef.ofBuffered? : Buffered → Option PropertyDef
  | .text name => some {name}
  | .object entries => PropertyDef.ofEntries? entries
  | _ => none

/-- The lists and objects that a property may still open: all in all 127, of which the document,
its entities, the entity and the list around the property take four. -/
def propertyRoom : Nat := 124

def propertyDef : Reader PropertyDef := do
  match PropertyDef.ofBuffered? (← buffered propertyRoom) with
  | some p => return p
  | none => throw .noPropertyForm

/-! ### Navigations -/

def JoinKind.ofName? : String → Option JoinKind
  | "inner" => some .inner
  | "left" => some .left
  | _ => none

/-- The mode that a text names, from its opening quote on. -/
def modeName : Reader JoinKind := do
  advance
  let name ← textBody
  match JoinKind.ofName? name with
  | some mode => return mode
  | none => throw (.unknownMode name)

/-- A join mode: its name, or an object with the name as the key of a null. -/
def modeValue : Reader JoinKind := do
  match ← peek? with
  | none => fail .endInValue
  | some '"' => modeName
  | some '\x7b' =>
    advance
    if !(← hasKey true) then fail .expectedValue
    let mode ← modeName
    colon
    match ← peek? with
    | none => fail .endInValue
    | some 'n' => advance; word ['u', 'l', 'l']
    | some _ => wrongType "unit"
    match ← peek? with
    | some '\x7d' => advance; return mode
    | some _ => fail .expectedValue
    | none => fail .endInObject
  | some _ => fail .expectedValue

def keyPairDef : Reader KeyPairDef :=
  recordOf "KeyPairDef"
    [⟨"from", true, fun s => return {s with source := ← textValue "a string"}⟩,
     ⟨"to", true, fun s => return {s with target := ← textValue "a string"}⟩] {}

def navigationDef : Reader NavigationDef :=
  recordOf "NavigationDef"
    [⟨"name", true, fun s => return {s with name := ← textValue "a string"}⟩,
     ⟨"target", true, fun s => return {s with target := ← textValue "a string"}⟩,
     ⟨"mode", false, fun s => return {s with mode := ← modeValue}⟩,
     ⟨"keys", false, fun s => return {s with keys := ← listOf keyPairDef}⟩] {}

/-! ### Entities and documents -/

def entityDef : Reader EntityDef :=
  recordOf "EntityDef"
    [⟨"name", true, fun s => return {s with name := ← textValue "a string"}⟩,
     ⟨"table", false, fun s => return {s with table := ← orNull (textValue "a string")}⟩,
     ⟨"schema", false, fun s => return {s with schema := ← orNull (textValue "a string")}⟩,
     ⟨"inherit", false, fun s => return {s with base := ← orNull (textValue "a string")}⟩,
     ⟨"keys", false, fun s => return {s with keys := ← listOf propertyDef}⟩,
     ⟨"properties", false, fun s => return {s with properties := ← listOf propertyDef}⟩,
     ⟨"navigations", false, fun s => return {s with navigations := ← listOf navigationDef}⟩] {}

def document : Reader Document :=
  recordOf "Document"
    [⟨"entities", false, fun s => return {s with entities := ← listOf entityDef}⟩] {}

/-- The document that a text writes, with nothing but white space behind it. -/
def Document.parse (text : String) : Except Fault Document := do
  let (d, rest) ← document.run text.toList
  match rest.dropWhile isSpace with
  | [] => return d
  | _ => throw (.json .trailingText)

end EntityQuery.Mapping
