import EntityQuery.Session.Basic

/-! Selections: queries that are fetched when they are first read and kept from then on. -/
namespace EntityQuery

structure Selection (μ : Type) where
  query : Query
  /-- The models and the page as fetched, once a read succeeded. -/
  loaded : Option (List μ × Option Paging) := none

namespace Selection
variable {μ : Type}

def isLoaded (sel : Selection μ) : Bool := sel.loaded.isSome

/-- The page as fetched. There is none before the first read and without paging. -/
def paging (sel : Selection μ) : Option Paging := sel.loaded.bind Prod.snd

/-- Fetches on a session of its own, unless that was done. -/
def load (db : Database) (loader : Loader μ) (sel : Selection μ) :
    Run (Selection μ × List μ) := do
  match sel.loaded with
  | some (models, _) => return (sel, models)
  | none =>
    let _ ← Session.connect
    let (models, paging) ← Session.fetch db loader sel.query
    return ({sel with loaded := some (models, paging)}, models)

/-- Gives the selection up for its models. -/
def intoModels (db : Database) (loader : Loader μ) (sel : Selection μ) : Run (List μ) :=
  Prod.snd <$> sel.load db loader

/-- How many rows there are in all, read from the page where it says so. -/
def total (db : Database) (loader : Loader μ) (sel : Selection μ) :
    Run (Selection μ × UInt64) := do
  match sel.paging.bind (·.total), sel.query.paging with
  | some total, _ => return (sel, total)
  | none, some p =>
    match p.total with
    | some total => return (sel, total)
    | none =>
      let (sel, _) ← sel.load db loader
      return (sel, (sel.paging.bind (·.total)).getD 0)
  | none, none =>
    let (sel, models) ← sel.load db loader
    return (sel, UInt64.ofNat models.length)

end Selection
end EntityQuery
