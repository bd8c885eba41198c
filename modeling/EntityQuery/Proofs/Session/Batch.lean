import Mathlib.Algebra.GroupWithZero.Nat
import EntityQuery.Proofs.Chain
import EntityQuery.Proofs.Session.Exchange
import EntityQuery.Session.Basic

/-! Batches.

A batch handles its rows one after another, and each has its own exchanges and its own result
(`Handled`). Outside a transaction all rows are handled, whatever becomes of them
(`batch_outside`); inside one the first that fails is the last, and what comes behind it makes no
difference (`batch_inside`). -/
namespace EntityQuery

open Database (State)

/-- A row of a batch, what was exchanged for it and what came of it. -/
structure Handled (ρ : Type) where
  row : ρ
  exchanges : List Exchange
  result : Except Error (UInt64 × ρ)

namespace Handled
variable {ρ : Type}

/-- The row afterwards. -/
def after (h : Handled ρ) : ρ :=
  match h.result with
  | .ok (_, row) => row
  | .error _ => h.row

def touched (h : Handled ρ) : Nat :=
  match h.result with
  | .ok (touched, _) => touched.toNat
  | .error _ => 0

def failure? (h : Handled ρ) : Option Error :=
  match h.result with
  | .ok _ => none
  | .error error => some error

end Handled

/-- A report with these rows added. What they touched is summed up modulo 2 ^ 64. -/
def BatchReport.with {ρ : Type} (report : BatchReport) (handled : List (Handled ρ)) :
    BatchReport :=
  ⟨report.count + .ofNat (handled.map (·.touched)).sum,
    report.failures ++ handled.filterMap (·.failure?)⟩

/-- Of two rows that touched half of what a word can count nothing is left. -/
example : (BatchReport.with {} [Handled.mk () [] (.ok (2 ^ 63, ())),
    ⟨(), [], .ok (2 ^ 63, ())⟩]).count = 0 := by decide +kernel

namespace Session
variable {ρ : Type} {session : Session} {step : ρ → Run (UInt64 × ρ)} {Handles : Handled ρ → Prop}
  {report : BatchReport} {row row' : ρ} {rows left : List ρ} {touched : UInt64} {error : Error}
  {st st₁ st' : State} {xs : List Exchange} {handled : List (Handled ρ)}
  {result : Except Error BatchReport}

/-- A call that got so far with its rows. Those handled become what their results say and have
their exchanges in their order; those left over stay as they are, and there are no other
exchanges. -/
structure Batched (call : List ρ → StateM State (List ρ × Except Error BatchReport))
    (Handles : Handled ρ → Prop) (st : State) (handled : List (Handled ρ)) (left : List ρ)
    (result : Except Error BatchReport) (st' : State) : Prop where
  ran : (call (handled.map (·.row) ++ left)).run st = ((handled.map (·.after) ++ left, result), st')
  exchanged : st.script.Exchanged (handled.flatMap (·.exchanges)) st'.script
  each : ∀ h ∈ handled, Handles h

/-! ### One row -/

theorem batch_cons (report : BatchReport) (row : ρ) (rest : List ρ) (st : State) :
    (batch session step report (row :: rest)).run st =
      match (step row).run.run st with
      | (.ok (touched, row'), st₁) =>
        let ran := (batch session step {report with count := report.count + touched}
          rest).run st₁
        ((row' :: ran.1.1, ran.1.2), ran.2)
      | (.error error, st₁) =>
        if session.inTransaction then ((row :: rest, .error error), st₁)
        else
          let ran := (batch session step {report with failures := report.failures ++ [error]}
            rest).run {st₁ with log := st₁.log ++ [.continuing error]}
          ((row :: ran.1.1, ran.1.2), ran.2) := by
  rw [batch, attempt, StateT.run_bind]
  match (step row).run.run st with
  | (.ok (touched, row'), st₁) => rfl
  | (.error error, st₁) =>
    cases session.inTransaction with
    | false => rfl
    | true => rfl

namespace Batched

theorem nil : Batched (batch session step report) Handles st [] [] (.ok report) st where
  ran := rfl
  exchanged := .nil _
  each := List.forall_mem_nil _

theorem succeeded (hrow : (step row).run.run st = (.ok (touched, row'), st₁))
    (hxs : st.script.Exchanged xs st₁.script) (hHandles : Handles ⟨row, xs, .ok (touched, row')⟩)
    (h : Batched (batch session step {report with count := report.count + touched}) Handles
      st₁ handled left result st') :
    Batched (batch session step report) Handles st (⟨row, xs, .ok (touched, row')⟩ :: handled) left
      result st' where
  ran := by
    rw [List.map_cons, List.cons_append, batch_cons, hrow]
    simp only [h.ran]
    rfl
  exchanged := hxs.append h.exchanged
  each := List.forall_mem_cons.2 ⟨hHandles, h.each⟩

/-- Outside a transaction a failure is noted, and the batch goes on. -/
theorem noted (hout : session.inTransaction = false)
    (hrow : (step row).run.run st = (.error error, st₁))
    (hxs : st.script.Exchanged xs st₁.script) (hHandles : Handles ⟨row, xs, .error error⟩)
    (h : Batched (batch session step {report with failures := report.failures ++ [error]}) Handles
      {st₁ with log := st₁.log ++ [.continuing error]} handled left result st') :
    Batched (batch session step report) Handles st (⟨row, xs, .error error⟩ :: handled) left result
      st' where
  ran := by
    rw [List.map_cons, List.cons_append, batch_cons, hrow]
    simp only [hout, h.ran]
    rfl
  exchanged := hxs.append h.exchanged
  each := List.forall_mem_cons.2 ⟨hHandles, h.each⟩

/-- Inside a transaction a failure ends the batch, with the rows behind it left over. -/
theorem aborted (hin : session.inTransaction = true)
    (hrow : (step row).run.run st = (.error error, st₁))
    (hxs : st.script.Exchanged xs st₁.script) (hHandles : Handles ⟨row, xs, .error error⟩)
    (left : List ρ) : Batched (batch session step report) Handles st [⟨row, xs, .error error⟩] left
      (.error error) st₁ where
  ran := by
    rw [List.map_cons, List.cons_append, batch_cons, hrow]
    simp only [hin]
    rfl
  exchanged := by simpa using hxs
  each := List.forall_mem_singleton.2 hHandles

end Batched

/-! ### All rows -/

theorem with_ok (report : BatchReport) (row : ρ) (xs : List Exchange) (touched : UInt64) (row' : ρ)
    (handled : List (Handled ρ)) : report.with (⟨row, xs, .ok (touched, row')⟩ :: handled) =
      {report with count := report.count + touched}.with handled := by
  simp [BatchReport.with, Handled.touched, Handled.failure?, UInt64.add_assoc]

theorem with_error (report : BatchReport) (row : ρ) (xs : List Exchange) (error : Error)
    (handled : List (Handled ρ)) : report.with (⟨row, xs, .error error⟩ :: handled) =
      {report with failures := report.failures ++ [error]}.with handled := by
  simp [BatchReport.with, Handled.touched, Handled.failure?]

section
variable (hstep : ∀ row, Does (step row).run fun xs r => Handles ⟨row, xs, r⟩)
include hstep

/-- Outside a transaction every row is handled, and the batch reports on all of them. -/
theorem batch_outside (hout : session.inTransaction = false) (rows : List ρ) (report : BatchReport)
    (st : State) : ∃ handled st', rows = handled.map (·.row) ∧ Batched (batch session step report)
      Handles st handled [] (.ok (report.with handled)) st' := by
  induction rows generalizing report st with
  | nil => exact ⟨[], st, rfl, by simpa [BatchReport.with] using Batched.nil⟩
  | cons row rest ih =>
    obtain ⟨xs, hxs, hHandles⟩ := hstep row st
    match hrow : (step row).run.run st with
    | (.ok (touched, row'), st₁) =>
      rw [hrow] at hxs hHandles
      obtain ⟨handled, st', rfl, h⟩ := ih {report with count := report.count + touched} st₁
      exact ⟨_, st', rfl, with_ok report row .. ▸ h.succeeded hrow hxs hHandles⟩
    | (.error error, st₁) =>
      rw [hrow] at hxs hHandles
      obtain ⟨handled, st', rfl, h⟩ := ih {report with failures := report.failures ++ [error]} _
      exact ⟨_, st', rfl, with_error report row .. ▸ h.noted hout hrow hxs hHandles⟩

/-- Inside a transaction every row is handled and succeeds, or the first that fails ends the batch
with its error, whatever comes behind it. -/
theorem batch_inside (hin : session.inTransaction = true) (rows : List ρ) (report : BatchReport)
    (st : State) :
    (∃ handled st', rows = handled.map (·.row) ∧ (∀ h ∈ handled, h.failure? = none) ∧
      Batched (batch session step report) Handles st handled [] (.ok (report.with handled)) st') ∨
    ∃ before last error left st', rows = (before ++ [last]).map (·.row) ++ left ∧
      (∀ h ∈ before, h.failure? = none) ∧ last.failure? = some error ∧
      ∀ left, Batched (batch session step report) Handles st (before ++ [last]) left (.error error)
        st' := by
  induction rows generalizing report st with
  | nil =>
    exact .inl ⟨[], st, rfl, List.forall_mem_nil _, by simpa [BatchReport.with] using Batched.nil⟩
  | cons row rest ih =>
    obtain ⟨xs, hxs, hHandles⟩ := hstep row st
    -- A row that succeeds goes in front of those behind it; one that fails leaves them over.
    match hrow : (step row).run.run st with
    | (.ok (touched, row'), st₁) =>
      rw [hrow] at hxs hHandles
      obtain ⟨handled, st', rfl, hall, h⟩ | ⟨before, last, error, left, st', rfl, hall, hlast, h⟩ :=
        ih {report with count := report.count + touched} st₁
      · exact .inl ⟨_, st', rfl, List.forall_mem_cons.2 ⟨rfl, hall⟩,
          with_ok report row .. ▸ h.succeeded hrow hxs hHandles⟩
      · exact .inr ⟨⟨row, xs, .ok (touched, row')⟩ :: before, last, error, left, st', rfl,
          List.forall_mem_cons.2 ⟨rfl, hall⟩, hlast,
          fun left => (h left).succeeded hrow hxs hHandles⟩
    | (.error error, st₁) =>
      rw [hrow] at hxs hHandles
      exact .inr ⟨[], _, error, rest, st₁, rfl, List.forall_mem_nil _, rfl,
        Batched.aborted hin hrow hxs hHandles⟩

end

/-! ### Calls -/

/-- What a call with a batch of rows keeps to, however the executor answers. -/
structure BatchProtocol (session : Session)
    (call : List ρ → StateM State (List ρ × Except Error BatchReport)) (Handles : Handled ρ → Prop)
    (rows : List ρ) (st : State) : Prop where
  /-- Every row is handled, and is reported as a success or with its failure. -/
  outside : session.inTransaction = false → ∃ handled st', rows = handled.map (·.row) ∧
    Batched call Handles st handled [] (.ok (BatchReport.with {} handled)) st' ∧
    handled.countP (·.failure?.isNone) + (BatchReport.with {} handled).failures.length = rows.length
  /-- Every row is handled and succeeds, or the first that fails ends the call with its error,
  which is the same whatever comes behind it. -/
  inside : session.inTransaction = true →
    (∃ handled st', rows = handled.map (·.row) ∧ (∀ h ∈ handled, h.failure? = none) ∧
      Batched call Handles st handled [] (.ok (BatchReport.with {} handled)) st') ∨
    ∃ before last error left st', rows = (before ++ [last]).map (·.row) ++ left ∧
      (∀ h ∈ before, h.failure? = none) ∧ last.failure? = some error ∧
      ∀ left, Batched call Handles st (before ++ [last]) left (.error error) st'

theorem countP_add_failures (handled : List (Handled ρ)) :
    handled.countP (·.failure?.isNone) + (handled.filterMap (·.failure?)).length =
      handled.length := by
  induction handled with
  | nil => rfl
  | cons h rest ih => cases hfail : h.failure? <;> simp [hfail] <;> omega

/-- A call that goes on as a batch once it is under way keeps to it. -/
theorem BatchProtocol.of_batch
    {call : List ρ → StateM State (List ρ × Except Error BatchReport)}
    (hstep : ∀ row, Does (step row).run fun xs r => Handles ⟨row, xs, r⟩)
    (hscript : st₁.script = st.script)
    (hcall : ∀ rows, (call rows).run st = (batch session step {} rows).run st₁) (rows : List ρ) :
    BatchProtocol session call Handles rows st := by
  have hbatched : ∀ {handled left result st'},
      Batched (batch session step {}) Handles st₁ handled left result st' →
        Batched call Handles st handled left result st' := fun h =>
    ⟨(hcall _).trans h.ran, hscript ▸ h.exchanged, h.each⟩
  constructor
  · intro hout
    obtain ⟨handled, st', rfl, h⟩ := batch_outside hstep hout rows {} st₁
    refine ⟨handled, st', rfl, hbatched h, ?_⟩
    simpa [BatchReport.with] using countP_add_failures handled
  · intro hin
    obtain ⟨handled, st', rfl, hall, h⟩ | ⟨before, last, error, left, st', rfl, hall, hlast, h⟩ :=
      batch_inside hstep hin rows {} st₁
    · exact .inl ⟨handled, st', rfl, hall, hbatched h⟩
    · exact .inr ⟨before, last, error, left, st', rfl, hall, hlast, fun left => hbatched (h left)⟩

end Session
end EntityQuery
