import EntityQuery.Proofs.Session.Fetched
import EntityQuery.Session.Selection

/-! Loading a selection.

A selection that is not loaded connects and fetches (`Attempt`), and it is loaded when that
succeeds. The page that it then has fits its query (`Fits`). So its total, whether it is known, or
counted, or the number of models, is the same once the models are there (`total_of_loaded`). -/
namespace EntityQuery

open Database (State)

namespace Selection
variable {μ : Type} {db : Database} {loader : Loader μ} {q : Query} {sel : Selection μ}
  {st st' : State} {models : List μ} {page : Option Paging}

/-! ### One attempt -/

/-- The models are fetched on a connection of their own, which may be refused. -/
inductive Attempt (db : Database) (loader : Loader μ) (q : Query) (st st' : State) :
    Except Error (List μ × Option Paging) → Prop where
  | refused {error : Error} {rest : List (Except Error Unit)} :
    st.script.openings = .error error :: rest →
    st' = {st with script := {st.script with openings := rest}} →
    Attempt db loader q st st' (.error error)
  | opened {xs : List Exchange} {result : Except Error (List μ × Option Paging)} :
    st.script.Opens → st'.script.connections = st.script.connections + 1 →
    st.script.opened.Exchanged xs st'.script →
    Session.Fetches db loader q st xs result → Attempt db loader q st st' result

theorem load_of_loaded (h : sel.loaded = some (models, page)) :
    (sel.load db loader).run.run st = (.ok (sel, models), st) := by
  rw [load, h]
  rfl

/-- A selection that is not loaded connects, fetches, and keeps what it read. -/
theorem load_run (h : sel.loaded = none) (st : State) : (sel.load db loader).run.run st =
    match st.script.connect with
    | (.error error, script) => (.error error, {st with script})
    | (.ok _, script) =>
      let ran := (Session.fetch db loader sel.query).run.run {st with script}
      (ran.1.map fun read => ({sel with loaded := some read}, read.1), ran.2) := by
  have hload : sel.load db loader = Run.connect >>= fun _ =>
      (fun read => ({sel with loaded := some read}, read.1)) <$>
        Session.fetch db loader sel.query := by
    simp only [load, h, Session.connect, bind_assoc, pure_bind, map_eq_pure_bind]
  have hconnect : Run.connect.run.run st =
      (st.script.connect.1, {st with script := st.script.connect.2}) := rfl
  rw [hload, ExceptT.run_bind, StateT.run_bind, hconnect]
  match st.script.connect with
  | (.error error, script) => rfl
  | (.ok _, script) => exact Run.run_map ..

/-- That is an attempt, and the selection is loaded when it succeeds. -/
theorem load_attempts (db : Database) (loader : Loader μ) (h : sel.loaded = none) (st : State) :
    ∃ result st', Attempt db loader sel.query st st' result ∧ (sel.load db loader).run.run st =
      (result.map fun read => ({sel with loaded := some read}, read.1), st') := by
  rw [load_run h]
  rcases st.script.connect_cases with ⟨error, rest, hopenings, hconnect⟩ | ⟨hopens, hconnect⟩
  · rw [hconnect]
    exact ⟨.error error, _, .refused hopenings rfl, rfl⟩
  · obtain ⟨xs, hxs, hfetches⟩ := Session.fetches db loader sel.query
      {st with script := st.script.opened}
    rw [hconnect]
    exact ⟨_, _, .opened hopens hxs.connections hxs ⟨hfetches.refused, hfetches.compiled⟩, rfl⟩

/-! ### What was read -/

/-- A page fits a query when it is the one that the query asks for, brought to a total. That is the
known one if there is one. -/
def Fits (q : Query) (page : Option Paging) : Prop :=
  ∃ total, page = q.paging.map (·.resolve total) ∧
    ∀ p ∈ q.paging, ∀ known, p.total = some known → total = known

theorem fits_of_resolved {p : Paging} {total : UInt64} (hq : q.paging = some p)
    (htotal : ∀ known, p.total = some known → total = known) : Fits q (some (p.resolve total)) := by
  refine ⟨total, by rw [hq]; rfl, ?_⟩
  rw [hq]
  rintro _ ⟨⟩
  exact htotal

theorem fits_of_fetching {s : Schema} {plan : Plan.CompiledQuery} {xs : List Exchange}
    {result : Except Error (List μ × Option Paging)}
    (h : Session.Fetching db loader s q plan xs result) (hok : result = .ok (models, page)) :
    Fits q page := by
  cases h with
  | whole hq =>
    rw [Session.page_of_models hok]
    refine ⟨0, by rw [hq]; rfl, ?_⟩
    rw [hq]
    exact fun _ hp => nomatch hp
  | known hq htotal =>
    rw [Session.page_of_models hok]
    exact fits_of_resolved hq fun known hknown => Option.some.inj (htotal.symm.trans hknown)
  | uncounted => cases hok
  | counted hq hnone =>
    rw [Session.page_of_models hok]
    exact fits_of_resolved hq fun known hknown => nomatch hnone.symm.trans hknown

theorem Attempt.fits (h : Attempt db loader q st st' (.ok (models, page))) : Fits q page := by
  cases h with
  | opened _ _ _ hfetches =>
    cases hcompiled : Session.compiledIn db q st with
    | error error => exact nomatch (hfetches.refused error hcompiled).2
    | ok compiled => exact fits_of_fetching (hfetches.compiled _ _ hcompiled) rfl

/-- A selection of a query, where what it keeps fits. -/
structure Keeps (q : Query) (sel : Selection μ) : Prop where
  query : sel.query = q
  fits : ∀ read, sel.loaded = some read → Fits q read.2

/-! ### Totals -/

/-- How many rows there are in all, by the page or else by the models. -/
def totalOf (models : List μ) (page : Option Paging) : UInt64 :=
  (page.bind (·.total)).getD (UInt64.ofNat models.length)

theorem Fits.totalOf_eq {total : UInt64} (h : Fits q page)
    (hknown : q.paging.bind (·.total) = some total) : totalOf models page = total := by
  obtain ⟨p, hq, htotal⟩ := Option.bind_eq_some_iff.1 hknown
  obtain ⟨_, rfl, heq⟩ := h
  rw [heq p hq total htotal, hq]
  rfl

theorem total_unpaged (hpaging : sel.paging = none) (hq : sel.query.paging = none) :
    sel.total db loader =
      (fun read => (read.1, UInt64.ofNat read.2.length)) <$> sel.load db loader := by
  rw [total, hpaging, hq]
  rfl

theorem total_of_loaded (hsel : sel.Keeps q) (h : sel.loaded = some (models, page)) (st : State) :
    (sel.total db loader).run.run st = (.ok (sel, totalOf models page), st) := by
  obtain ⟨total, hpage, -⟩ : Fits q page := hsel.fits _ h
  have hpaging : sel.paging = page := congrArg (Option.bind · Prod.snd) h
  cases hq : q.paging with
  | none =>
    obtain rfl : page = none := by rw [hpage, hq]; rfl
    rw [total_unpaged hpaging (hsel.query ▸ hq), Run.run_map, load_of_loaded h]
    rfl
  | some p =>
    obtain rfl : page = some (p.resolve total) := by rw [hpage, hq]; rfl
    rw [Selection.total, hpaging]
    rfl

theorem total_of_known {total : UInt64} (h : sel.loaded = none)
    (hknown : sel.query.paging.bind (·.total) = some total) (st : State) :
    (sel.total db loader).run.run st = (.ok (sel, total), st) := by
  obtain ⟨p, hq, htotal⟩ := Option.bind_eq_some_iff.1 hknown
  have hpaging : sel.paging = none := congrArg (Option.bind · Prod.snd) h
  simp only [Selection.total, hpaging, hq, htotal, Option.bind_none]
  rfl

/-- A total that is not known is that of what is read for it. -/
theorem total_attempts (db : Database) (loader : Loader μ) (h : sel.loaded = none)
    (hunknown : sel.query.paging.bind (·.total) = none) (st : State) : ∃ result st',
    Attempt db loader sel.query st st' result ∧ (sel.total db loader).run.run st =
      (result.map fun read => ({sel with loaded := some read}, totalOf read.1 read.2), st') := by
  obtain ⟨result, st', hattempt, hload⟩ := load_attempts db loader h st
  refine ⟨result, st', hattempt, ?_⟩
  have hpaging : sel.paging = none := congrArg (Option.bind · Prod.snd) h
  cases hq : sel.query.paging with
  | none =>
    rw [total_unpaged hpaging hq, Run.run_map, hload]
    match result with
    | .error error => rfl
    | .ok (models, page) =>
      obtain ⟨_, hpage, -⟩ := hattempt.fits
      obtain rfl : page = none := by rw [hpage, hq]; rfl
      rfl
  | some p =>
    have htotal : sel.total db loader =
        (fun read => (read.1, (read.1.paging.bind (·.total)).getD 0)) <$> sel.load db loader := by
      have hnone : p.total = none := by rwa [hq] at hunknown
      simp only [Selection.total, hpaging, hq, hnone, Option.bind_none, bind_pure_comp]
    rw [htotal, Run.run_map, hload]
    match result with
    | .error error => rfl
    | .ok (models, page) =>
      obtain ⟨_, hpage, -⟩ := hattempt.fits
      obtain rfl : page = some (p.resolve _) := by rw [hpage, hq]; rfl
      rfl

end Selection
end EntityQuery
