import EntityQuery.Proofs.Session.Writing

/-! What a batch of inserts accounts for.

A batch counts what its rows touched and notes their failures, and a row for whose statement the
executor reported a count may still fail: the key that it generated is asked for afterwards. Such a
row (`Handled.unkeyed`) is booked as a failure, and what its statement touched is left out of the
count. All other rows are booked as they went, so that the report is right exactly when there is
no such row and the count does not wrap (`insertRows_accounts`). -/
namespace EntityQuery

open Database (State)

/-- How many rows a statement touched that was executed. -/
def Exchange.touched? (x : Exchange) : Option UInt64 :=
  match x.op, x.answer with
  | .execute .., .ok (.count n) => some n
  | _, _ => none

/-- How many rows were touched in all by the statements that were executed. -/
def touchedIn (xs : List Exchange) : Nat := (xs.filterMap fun x => x.touched?.map (·.toNat)).sum

theorem touchedIn_append (xs ys : List Exchange) :
    touchedIn (xs ++ ys) = touchedIn xs + touchedIn ys := by
  simp [touchedIn]

namespace Handled

/-- The statement of the row was executed, and the executor said how many rows it touched. -/
def executed (h : Handled Row) : Bool := h.exchanges.any (·.touched?.isSome)

/-- The statement was executed, and the row failed all the same. -/
def unkeyed (h : Handled Row) : Bool := h.executed && h.failure?.isSome

end Handled

namespace Session

/-- What a report says of rows that were inserted. -/
structure InsertAccount (handled : List (Handled Row)) (report : BatchReport) : Prop where
  /-- All that was touched is counted, but for rows without their key, in a word of 64 bits. -/
  count : report.count.toNat =
    touchedIn ((handled.filter (!·.unkeyed)).flatMap (·.exchanges)) % 2 ^ 64
  /-- There is an error for each row whose statement was not executed and for each without its
  key, in their order. -/
  failures : report.failures.map some =
    (handled.filter fun h => !h.executed || h.unkeyed).map (·.failure?)
  countExact : report.count.toNat = touchedIn (handled.flatMap (·.exchanges)) ↔
    (∀ h ∈ handled, h.unkeyed = false) ∧ touchedIn (handled.flatMap (·.exchanges)) < 2 ^ 64
  failuresExact : report.failures.map some = (handled.filter (!·.executed)).map (·.failure?) ↔
    ∀ h ∈ handled, h.unkeyed = false

variable {db : Database} {e : Entity} {includes : List String} {handled : List (Handled Row)}

/-! ### One row -/

/-- How one row enters the report. -/
structure Booked (h : Handled Row) : Prop where
  count : h.touched = if h.unkeyed then 0 else touchedIn h.exchanges
  lost : h.unkeyed = true → 0 < touchedIn h.exchanges
  failed : h.failure?.isSome = (!h.executed || h.unkeyed)

theorem touched?_executing (db : Database) (plan : Plan.CompiledWrite)
    (answer : Except Error Response) :
    (db.executing plan answer).touched? = (answer >>= Response.toCount).toOption := by
  match answer with
  | .error _ => rfl
  | .ok (.count _) => rfl
  | .ok (.rows _) => rfl
  | .ok (.scalar _) => rfl

theorem Inserting.booked {h : Handled Row} (hh : Inserting db e includes h) : Booked h := by
  have hcounted : ∀ plan n, (db.executing plan (.ok (.count n))).touched? = some n :=
    fun _ _ => rfl
  have hasked : ∀ answer, (Exchange.mk .lastInsertId answer).touched? = none := fun _ => rfl
  cases hh with
  | refused => exact ⟨rfl, (fun h => nomatch h), rfl⟩
  | @failed row plan answer error _ hfailed =>
    have hnone : (db.executing plan answer).touched? = none := by
      rw [touched?_executing, hfailed]
      rfl
    constructor <;> simp [Handled.touched, Handled.unkeyed, Handled.executed, Handled.failure?,
      touchedIn, hnone]
  | plain =>
    constructor <;> simp [Handled.touched, Handled.unkeyed, Handled.executed, Handled.failure?,
      touchedIn, hcounted]
  | keyed =>
    constructor <;> simp [Handled.touched, Handled.unkeyed, Handled.executed, Handled.failure?,
      touchedIn, hcounted, hasked]
  | @unkeyed row plan touched p answer error _ htouched =>
    have hpos : 0 < touched.toNat :=
      Nat.pos_of_ne_zero fun hzero => htouched (UInt64.toNat_inj.1 hzero)
    constructor <;> simp [Handled.touched, Handled.unkeyed, Handled.executed, Handled.failure?,
      touchedIn, hcounted, hasked, hpos]

/-! ### All rows -/

theorem sum_touched (hall : ∀ h ∈ handled, Booked h) : (handled.map (·.touched)).sum =
    touchedIn ((handled.filter (!·.unkeyed)).flatMap (·.exchanges)) := by
  induction handled with
  | nil => rfl
  | cons h rest ih =>
    obtain ⟨hh, hrest⟩ := List.forall_mem_cons.1 hall
    have hhead := hh.count
    rw [List.map_cons, List.sum_cons, ih hrest]
    cases hlost : h.unkeyed with
    | true =>
      rw [hlost, if_pos rfl] at hhead
      rw [List.filter_cons_of_neg (by simp [hlost]), hhead, Nat.zero_add]
    | false =>
      rw [hlost, if_neg Bool.false_ne_true] at hhead
      rw [List.filter_cons_of_pos (by simp [hlost]), List.flatMap_cons, touchedIn_append, hhead]

/-- What was touched in all, row by row of a kind and row by row of the others. -/
theorem touchedIn_split (p : Handled Row → Bool) (handled : List (Handled Row)) :
    touchedIn ((handled.filter (!p ·)).flatMap (·.exchanges)) +
      touchedIn ((handled.filter p).flatMap (·.exchanges)) =
        touchedIn (handled.flatMap (·.exchanges)) := by
  induction handled with
  | nil => rfl
  | cons h rest ih =>
    cases hp : p h <;> simp [hp, touchedIn_append] <;> omega

/-- Nothing is left out exactly when no row is without its key. -/
theorem touchedIn_unkeyed_eq_zero (hall : ∀ h ∈ handled, Booked h) :
    touchedIn ((handled.filter (·.unkeyed)).flatMap (·.exchanges)) = 0 ↔
      ∀ h ∈ handled, h.unkeyed = false := by
  constructor
  · intro hzero h hh
    by_contra hlost
    rw [Bool.not_eq_false] at hlost
    obtain ⟨before, behind, hsplit⟩ := List.append_of_mem (List.mem_filter.2 ⟨hh, hlost⟩)
    have hpos := (hall h hh).lost hlost
    rw [hsplit, List.flatMap_append, List.flatMap_cons, touchedIn_append, touchedIn_append] at hzero
    omega
  · intro hnone
    rw [List.filter_eq_nil_iff.2 fun h hh => Bool.eq_false_iff.1 (hnone h hh)]
    rfl

theorem map_some_filterMap {α β : Type} (f : α → Option β) (xs : List α) :
    (xs.filterMap f).map some = (xs.filter fun x => (f x).isSome).map f := by
  induction xs with
  | nil => rfl
  | cons x rest ih => cases hx : f x <;> simp [hx, ih]

theorem insertAccount (hall : ∀ h ∈ handled, Booked h) :
    InsertAccount handled (BatchReport.with {} handled) := by
  have hcount : (BatchReport.with {} handled).count.toNat =
      touchedIn ((handled.filter (!·.unkeyed)).flatMap (·.exchanges)) % 2 ^ 64 := by
    rw [← sum_touched hall]
    simp [BatchReport.with]
  have hfailures : (BatchReport.with {} handled).failures.map some =
      (handled.filter fun h => !h.executed || h.unkeyed).map (·.failure?) := by
    simp only [BatchReport.with, List.nil_append, map_some_filterMap]
    rw [List.filter_congr fun h hh => (hall h hh).failed]
  refine ⟨hcount, hfailures, ?_, ?_⟩
  · have hsplit := touchedIn_split (·.unkeyed) handled
    rw [← touchedIn_unkeyed_eq_zero hall, hcount]
    omega
  · rw [hfailures]
    constructor
    · intro heq h hh
      -- Fewer rows were not executed than failed, unless they are the same.
      have hsub : (handled.filter (!·.executed)).Sublist
          (handled.filter fun h => !h.executed || h.unkeyed) :=
        List.monotone_filter_right _ fun h hh => by simp [hh]
      have hsame := hsub.eq_of_length (by simpa using (congrArg List.length heq).symm)
      by_contra hlost
      rw [Bool.not_eq_false] at hlost
      have hmem : h ∈ handled.filter fun h => !h.executed || h.unkeyed :=
        List.mem_filter.2 ⟨hh, by simp [hlost]⟩
      rw [← hsame] at hmem
      have hexecuted := (List.mem_filter.1 hmem).2
      simp only [Handled.unkeyed, Bool.and_eq_true] at hlost
      simp [hlost.1] at hexecuted
    · intro hnone
      rw [List.filter_congr fun h hh => by rw [hnone h hh, Bool.or_false]]

/-- **What inserting rows accounts for.** Outside a transaction every row is handled, what comes
of it is reported, and the report is right but for the rows whose key was not to be had. -/
theorem insertRows_accounts (db : Database) (session : Session) (entity : String)
    (includes : List String) (rows : List Row) (st : State)
    (hout : session.inTransaction = false) :
    match entityIn db entity st with
    | .error error => Refuses (insertRows db session entity · includes) error st
    | .ok (_, e) => ∃ handled report st', rows = handled.map (·.row) ∧
        Batched (insertRows db session entity · includes) (Inserting db e includes) st handled []
          (.ok report) st' ∧ InsertAccount handled report := by
  have hinserts := inserts db session entity includes st
  unfold Inserts at hinserts
  cases hfound : entityIn db entity st with
  | error error =>
    rw [hfound] at hinserts
    exact hinserts
  | ok found =>
    rw [hfound] at hinserts
    obtain ⟨handled, st', hrows, h, -⟩ := (hinserts rows).outside hout
    exact ⟨handled, _, st', hrows, ⟨h.ran, h.exchanged, fun h' hh => (h.each h' hh).1⟩,
      insertAccount fun h' hh => (h.each h' hh).1.booked⟩

/-! ### A key that is lost -/

/-- Orders whose keys the database generates. -/
def numberedOrders : Mapping.Document := ⟨[
  { name := "Order", table := some "orders", keys := [{name := "Id", sequence := true}]
    properties := [{name := "CustomerId"}] }]⟩

def gone : Error := Cause.driver ["gone"]

/-- A handle on orders with an executor that gives these answers. -/
def answering (answers : List (Except Error Response)) : State where
  script := {answers}
  schema := (Schema.build [("orders", numberedOrders)]).toOption

/-- The orders of four customers, one of them without anything to insert. -/
def newOrders : List Row :=
  [[("CustomerId", .int64 1)], [("CustomerId", .int64 2)], [], [("CustomerId", .int64 3)]]

/-- The first order gets its key, the second is not inserted, the third makes no statement, and the
key of the last is lost. -/
theorem insertRows_accounts_newOrders : ({} : Session).inTransaction = false ∧
    ∃ e handled report st', newOrders = handled.map (·.row) ∧
      Batched (insertRows {} {} "Order" · []) (Inserting {} e [])
        (answering [.ok (.count 1), .ok (.scalar (.int64 7)), .error gone, .ok (.count 1),
          .error gone]) handled [] (.ok report) st' ∧ InsertAccount handled report ∧
      report.count = 1 ∧
      report.failures = [gone, Cause.usage (.nothingToInsert "Order"), gone] := by
  refine ⟨rfl, ?_⟩
  generalize hst : answering [.ok (.count 1), .ok (.scalar (.int64 7)), .error gone,
    .ok (.count 1), .error gone] = st
  obtain ⟨found, hfound, -⟩ := Except.exists_ok (x := entityIn {} "Order" st) (fun _ => true)
    (by subst hst; decide +kernel)
  have h := insertRows_accounts {} {} "Order" [] newOrders st rfl
  rw [hfound] at h
  obtain ⟨handled, report, st', hrows, hbatched, haccount⟩ := h
  have hran := hbatched.ran
  rw [List.append_nil, ← hrows] at hran
  obtain ⟨reported, hreported, hreport⟩ := Except.exists_ok
    (x := ((insertRows {} {} "Order" newOrders []).run st).1.2)
    (fun report => decide (report.count = 1 ∧
      report.failures = [gone, Cause.usage (.nothingToInsert "Order"), gone]))
    (by subst hst; decide +kernel)
  rw [hran] at hreported
  obtain rfl := Except.ok.inj hreported
  exact ⟨found.2, handled, report, st', hrows, hbatched, haccount, of_decide_eq_true hreport⟩

/-- An order is inserted, which the executor confirms, and then its key is lost. The report counts
no row, and has a failure although the statement that inserts did not fail. -/
theorem lostKey_uncounted :
    let st := answering [.ok (.count 1), .error gone]
    let ran := (insertRows {} {} "Order" [[("CustomerId", .int64 1)]] []).run st
    let xs : List Exchange := [
      ⟨.execute "INSERT INTO `orders` (`CustomerId`) VALUES (\x7b0\x7d)" [.int64 1],
        .ok (.count 1)⟩,
      ⟨.lastInsertId, .error gone⟩]
    st.script.Exchanged xs ran.2.script ∧ touchedIn xs = 1 ∧
      ∃ report, ran.1.2 = .ok report ∧ report.count = 0 ∧ report.failures = [gone] := by
  intro st ran xs
  have hanswers : ran.2.script.answers = [] := List.isEmpty_iff.1 (by decide +kernel)
  have hopenings : ran.2.script.openings = [] := List.isEmpty_iff.1 (by decide +kernel)
  have hrest : ran.2.script.connections = 0 ∧ ran.2.script.received = xs.map (·.op) := by
    decide +kernel
  have hscript : ran.2.script = ⟨[], [], 0, xs.map (·.op)⟩ := by
    rw [← hanswers, ← hopenings, ← hrest.1, ← hrest.2]
  obtain ⟨report, hreport, hcounts⟩ := Except.exists_ok (x := ran.1.2)
    (fun report => decide (report.count = 0 ∧ report.failures = [gone])) (by decide +kernel)
  refine ⟨?_, rfl, report, hreport, of_decide_eq_true hcounts⟩
  rw [hscript]
  exact .cons rfl (.cons rfl (.nil _))

end Session
end EntityQuery
