import EntityQuery.Error
import EntityQuery.Mapping.Read
import EntityQuery.Schema.Basic

/-! Building a schema from mapping documents.

The definitions of all documents are put in one row first. Then come, in this order, the checks
of names, of bases and of cycles, and then the entities one after another, so that the first
fault in that order is the one reported. -/
namespace EntityQuery.Schema

open Mapping (EntityDef NavigationDef PropertyDef KeyPairDef Document)

/-- The definitions in their order with the source of each, and the base of each once known. -/
structure Draft where
  defs : List (String × EntityDef)
  bases : List (Option Nat) := []

namespace Draft

def definition (d : Draft) (id : Nat) : EntityDef := (d.defs.getD id ("", {})).2

def base? (d : Draft) (id : Nat) : Option Nat := (d.bases[id]?).join

/-- The position of an entity's name, up to case. -/
def find? (d : Draft) (name : String) : Option Nat :=
  d.defs.findIdx? fun entry => Text.sameLower entry.2.name name

/-! ### Names, bases and cycles -/

/-- Adds a definition unless its name is taken. -/
def add (d : Draft) (entry : String × EntityDef) : Except Fault Draft :=
  match d.defs.find? fun earlier => Text.sameLower earlier.2.name entry.2.name with
  | some earlier => .error (.entityTwice entry.2.name earlier.1 entry.1)
  | none => .ok {d with defs := d.defs ++ [entry]}

def ofSources (sources : List (String × Document)) : Except Fault Draft :=
  (sources.flatMap fun (name, document) => document.entities.map (name, ·)).foldlM add ⟨[], []⟩

def baseOf (d : Draft) (e : EntityDef) : Except Fault (Option Nat) :=
  match e.base with
  | none => .ok none
  | some name =>
    match d.find? name with
    | some id => .ok (some id)
    | none => .error (.unknownBase e.name name)

def withBases (d : Draft) : Except Fault Draft := do
  return {d with bases := ← d.defs.mapM fun entry => d.baseOf entry.2}

/-- Whether the chain of bases ends within so many steps. -/
def ends (d : Draft) (id : Nat) : Nat → Bool
  | 0 => (d.base? id).isNone
  | fuel + 1 =>
    match d.base? id with
    | none => true
    | some base => d.ends base fuel

/-- A chain that does not end within as many steps as there are definitions never does. -/
def checkCycles (d : Draft) : Except Fault Unit :=
  match (List.range d.defs.length).find? fun id => !d.ends id d.defs.length with
  | some id => .error (.cyclicBase (d.definition id).name)
  | none => .ok ()

/-! ### Properties -/

def propertyOf (p : PropertyDef) : Property :=
  { name := p.name, column := p.column.getD p.name, ignored := p.ignored,
    constructor := p.constructor, sequence := p.sequence }

def keyOf (p : PropertyDef) : Property := {propertyOf p with key := true}

/-- The key of an entity: its own, or without one that of its base, which generates no values
here. -/
def keysWithin (d : Draft) (id : Nat) : Nat → List Property
  | 0 => (d.definition id).keys.map keyOf
  | fuel + 1 =>
    match (d.definition id).keys, d.base? id with
    | [], some base => (d.keysWithin base fuel).map fun p => {p with sequence := false}
    | keys, _ => keys.map keyOf

def keys (d : Draft) (id : Nat) : List Property := d.keysWithin id d.defs.length

/-- Appends a property unless its name is taken, up to case. -/
def addProperty (entity : String) (properties : List Property) (p : Property) :
    Except Fault (List Property) :=
  if properties.any fun q => Text.sameLower q.name p.name then
    .error (.propertyTwice p.name entity)
  else .ok (properties ++ [p])

def properties (d : Draft) (id : Nat) : Except Fault (List Property) :=
  let e := d.definition id
  (d.keys id ++ e.properties.map propertyOf).foldlM (addProperty e.name) []

/-! ### Navigations -/

/-- The nearest ancestor, at most `fuel` steps away, that declares a property of the name. -/
def inheritedFrom? (d : Draft) (id : Nat) (name : String) : Nat → Option String
  | 0 => none
  | fuel + 1 =>
    match d.base? id with
    | none => none
    | some base =>
      let e := d.definition base
      if (e.keys ++ e.properties).any fun p => Text.sameName p.name name then some e.name
      else d.inheritedFrom? base name fuel

/-- The names of an entity's properties, its keys first. -/
def propertyNames (d : Draft) (id : Nat) : List String :=
  (d.keys id).map (·.name) ++ (d.definition id).properties.map (·.name)

/-- A key pair with the names as the two entities declare them. -/
def keyPair (d : Draft) (id : Nat) (properties : List Property) (navigation : String)
    (target : Nat) (pair : KeyPairDef) : Except Fault KeyPair :=
  let e := d.definition id
  match properties.find? fun p => Text.sameLower p.name pair.source with
  | none =>
    match d.inheritedFrom? id pair.source d.defs.length with
    | some owner => .error (.inheritedSource e.name navigation pair.source owner)
    | none => .error (.unknownSource e.name navigation pair.source)
  | some source =>
    match (d.propertyNames target).find? fun name => Text.sameName name pair.target with
    | none =>
      .error (.unknownTargetProperty e.name navigation (d.definition target).name pair.target)
    | some name => .ok ⟨source.name, name⟩

def navigation (d : Draft) (id : Nat) (properties : List Property) (n : NavigationDef) :
    Except Fault Navigation := do
  let e := d.definition id
  match d.find? n.target with
  | none => throw (.unknownTarget e.name n.name n.target)
  | some target =>
    if n.keys.isEmpty then throw (.noKeyPairs e.name n.name)
    let keys ← n.keys.mapM (d.keyPair id properties n.name target)
    return {name := n.name, target, kind := n.mode, keys, inheritance := false}

/-- Appends a navigation unless a property has its name, up to case, or an earlier navigation is
named like its lower-case name, up to ASCII case. -/
def addNavigation (entity : String) (properties : List Property) (navigations : List Navigation)
    (n : Navigation) : Except Fault (List Navigation) :=
  let small := String.ofList (Text.lower n.name)
  if properties.any (fun p => Text.sameLower p.name n.name)
      || navigations.any (fun m => Text.sameName m.name small) then
    .error (.memberTwice n.name entity)
  else .ok (navigations ++ [n])

/-- The navigation to the base: the keys of the two entities, pair by pair. -/
def baseNavigation (d : Draft) (id base : Nat) (properties : List Property) :
    Except Fault Navigation :=
  let own := properties.filter (·.key)
  let keys := d.keys base
  let baseName := (d.definition base).name
  if own.length ≠ keys.length || own.isEmpty then
    .error (.keyCount (d.definition id).name own.length baseName keys.length)
  else
    .ok {
      name := baseName
      target := base
      kind := .inner
      keys := (own.zip keys).map fun (source, target) => ⟨source.name, target.name⟩
      inheritance := true }

def navigations (d : Draft) (id : Nat) (properties : List Property) :
    Except Fault (List Navigation) := do
  let e := d.definition id
  let declared ← e.navigations.foldlM (fun done n => do
    addNavigation e.name properties done (← d.navigation id properties n)) []
  match d.base? id with
  | none => return declared
  | some base =>
    addNavigation e.name properties declared (← d.baseNavigation id base properties)

/-! ### Entities -/

def entity (d : Draft) (id : Nat) : Except Fault Entity := do
  let e := d.definition id
  let properties ← d.properties id
  let navigations ← d.navigations id properties
  return {
    id, name := e.name, table := e.table.getD e.name, schema := e.schema, properties,
    navigations, base := d.base? id }

end Draft

/-- The schema of the documents, each given with the name of its source. -/
def build (sources : List (String × Document)) : Except Fault Schema := do
  let named ← Draft.ofSources sources
  let draft ← named.withBases
  draft.checkCycles
  return ⟨← (List.range draft.defs.length).mapM draft.entity⟩

/-! ### From text -/

/-- A document read from text. -/
def readDocument (text : String) : Except Error Document :=
  (Document.parse text).mapError fun fault => Cause.mapping (.unreadable fault)

/-- A document read from text under the name of its source, which an error then names. -/
def readSource (source text : String) : Except Error (String × Document) :=
  inContext (.mapping (.unparsed source)) ((readDocument text).map (source, ·))

/-- The schema of documents given as text, read one after another before any is checked. -/
def ofTexts (sources : List (String × String)) : Except Error Schema := do
  let documents ← sources.mapM fun (source, text) => readSource source text
  (build documents).mapError fun fault => Cause.mapping fault

def inlineSource : String := "<inline>"

/-- The schema of a single document. -/
def ofText (text : String) : Except Error Schema := ofTexts [(inlineSource, text)]

end EntityQuery.Schema
