import EntityQuery.Proofs.Plan.Run
import EntityQuery.Proofs.Query.Paging
import EntityQuery.Proofs.Session.Writing

/-! What a fetch sends.

A query that is read in pages needs its total, and where that is not known it is asked for first.
Every way in which a fetch of a compiled query can go is one of four (`Fetching`). So the rows are
asked for exactly when the total is there or not needed, on the page to which the total brings the
one that was asked for (`fetch_counted`). -/
namespace EntityQuery

open Database (State)

def Operation.isScalar : Operation → Bool
  | .scalar .. => true
  | _ => false

def Operation.isQuery : Operation → Bool
  | .query .. => true
  | _ => false

/-! ### Counts -/

/-- A value says a number of rows: an integer that is not negative, or a text that writes one of 63
bits. -/
inductive Value.Counts : Value → UInt64 → Prop where
  | int32 {n : Int32} {total : UInt64} : n.toInt = total.toNat → Counts (.int32 n) total
  | int64 {n : Int64} {total : UInt64} : n.toInt = total.toNat → Counts (.int64 n) total
  | text {s : String} {total : UInt64} : Text.readInt s.toList = some (total.toNat : Int) →
    total.toNat < 2 ^ 63 → Counts (.text s) total

namespace Value

theorem inInt64_eq_some {i : Int} {n : Int64} : inInt64 i = some n ↔ n.toInt = i := by
  have hrange : (Int64.minValue.toInt ≤ i && i ≤ Int64.maxValue.toInt) = true ↔
      -2 ^ 63 ≤ i ∧ i < 2 ^ 63 := by
    rw [Bool.and_eq_true, decide_eq_true_iff, decide_eq_true_iff, Int64.toInt_minValue,
      Int64.toInt_maxValue, Int.le_sub_one_iff]
  unfold inInt64
  by_cases hi : (Int64.minValue.toInt ≤ i && i ≤ Int64.maxValue.toInt) = true
  · obtain ⟨hlow, hhigh⟩ := hrange.1 hi
    rw [if_pos hi, Option.some.injEq]
    constructor
    · rintro rfl
      exact Int64.toInt_ofInt_of_le hlow hhigh
    · rintro rfl
      exact Int64.ofInt_toInt n
  · rw [if_neg hi]
    refine iff_of_false (fun h => nomatch h) ?_
    rintro rfl
    exact hi (hrange.2 ⟨n.le_toInt, n.toInt_lt⟩)

theorem counts_iff {v : Value} {total : UInt64} :
    v.Counts total ↔ ∃ n, v.integer? = some n ∧ n.toInt = total.toNat := by
  constructor
  · rintro (h | h | ⟨hread, hlt⟩)
    · exact ⟨_, rfl, (Int32.toInt_toInt64 _).trans h⟩
    · exact ⟨_, rfl, h⟩
    · have hint : (Int64.ofInt total.toNat).toInt = total.toNat :=
        Int64.toInt_ofInt_of_le (by omega) (by omega)
      exact ⟨_, (congrArg (·.bind inInt64) hread).trans (inInt64_eq_some.2 hint), hint⟩
  · rintro ⟨n, hn, htotal⟩
    cases v with
    | int32 m =>
      obtain rfl := Option.some.inj hn
      exact .int32 ((Int32.toInt_toInt64 m).symm.trans htotal)
    | int64 m =>
      obtain rfl := Option.some.inj hn
      exact .int64 htotal
    | text s =>
      obtain ⟨i, hread, hi⟩ := Option.bind_eq_some_iff.1 hn
      rw [← inInt64_eq_some.1 hi, htotal] at hread
      have hlt := n.toInt_lt
      exact .text hread (by omega)
    | _ => cases hn

end Value

namespace Session
variable {μ : Type} {db : Database} {load : Loader μ} {s : Schema} {q : Query}
  {plan : Plan.CompiledQuery} {xs : List Exchange}

theorem countOf_eq_ok {v : Value} {total : UInt64} : countOf v = .ok total ↔ v.Counts total := by
  rw [Value.counts_iff, countOf]
  cases v.integer? with
  | none => simp [Error.raise]
  | some n =>
    simp only [Option.some.injEq, exists_eq_left']
    by_cases hn : 0 ≤ n.toInt
    · have hlt : n.toInt.toNat < UInt64.size := by
        have hn := n.toInt_lt
        show _ < 2 ^ 64
        omega
      rw [if_pos hn, Except.ok.injEq, ← UInt64.toNat_inj, UInt64.toNat_ofNat_of_lt' hlt]
      omega
    · rw [if_neg hn]
      constructor
      · intro h
        cases h
      · intro h
        omega

/-! ### One fetch -/

/-- What a query compiles to on a handle in a state, with the schema, or why it does not. -/
def compiledIn (db : Database) (q : Query) (st : State) :
    Except Error (Schema × Plan.CompiledQuery) :=
  (db.schemaIn st).bind fun s => (Plan.select s q).map (s, ·)

/-- The models of the rows in an answer. -/
def modelsOf (load : Loader μ) (s : Schema) (plan : Plan.CompiledQuery) (response : Response) :
    Except Error (List μ) := do
  let rows ← response.toRows >>= RowStream.collect
  (plan.layout.graph.records s plan.layout.names rows).mapM (load s)

/-- The exchange in which the rows of a query are counted. -/
def counting (db : Database) (plan : Plan.CompiledQuery) (answer : Except Error Response) :
    Exchange :=
  ⟨.scalar (db.text (.select plan.count)) plan.params, answer⟩

/-- The exchange in which they are fetched. -/
def querying (db : Database) (plan : Plan.CompiledQuery) (answer : Except Error Response) :
    Exchange :=
  ⟨.query (db.text (.select plan.select)) plan.params, answer⟩

/-- How a compiled query is fetched. -/
inductive Fetching (db : Database) (load : Loader μ) (s : Schema) (q : Query)
    (plan : Plan.CompiledQuery) : List Exchange → Except Error (List μ × Option Paging) → Prop where
  /-- There is no page. -/
  | whole {answer : Except Error Response} : q.paging = none →
    Fetching db load s q plan [querying db plan answer]
      ((answer >>= modelsOf load s plan).map (·, none))
  /-- The total is known. -/
  | known {p : Paging} {total : UInt64} {answer : Except Error Response} :
    q.paging = some p → p.total = some total →
    Fetching db load s q plan [querying db (plan.page (p.resolve total)) answer]
      ((answer >>= modelsOf load s plan).map (·, some (p.resolve total)))
  /-- The total is not known, and not to be had. -/
  | uncounted {p : Paging} {answer : Except Error Response} {error : Error} :
    q.paging = some p → p.total = none →
    (∀ v total, answer = .ok (.scalar v) → ¬ v.Counts total) →
    Fetching db load s q plan [counting db plan answer] (.error error)
  /-- The total is counted. -/
  | counted {p : Paging} {v : Value} {total : UInt64} {answer : Except Error Response} :
    q.paging = some p → p.total = none → v.Counts total →
    Fetching db load s q plan
      [counting db plan (.ok (.scalar v)), querying db (plan.page (p.resolve total)) answer]
      ((answer >>= modelsOf load s plan).map (·, some (p.resolve total)))

/-- Fetches the rows of a page. -/
def fetchRows (db : Database) (load : Loader μ) (s : Schema) (plan : Plan.CompiledQuery)
    (paging : Option Paging) : Run (List μ × Option Paging) := do
  let plan := (paging.map plan.page).getD plan
  let response ← Run.send (.query (db.text (.select plan.select)) plan.params)
  let rows ← Run.pureStep (response.toRows >>= RowStream.collect)
  let records := plan.layout.graph.records s plan.layout.names rows
  let models ← Run.pureStep (records.mapM (load s))
  return (models, paging)

theorem fetch_eq (db : Database) (load : Loader μ) (q : Query) : fetch db load q = (do
    let s ← db.schema
    let plan ← Run.pureStep (Plan.select s q)
    let paging ← q.paging.mapM (resolvePage db plan)
    fetchRows db load s plan paging) := rfl

theorem fetchRows_does (db : Database) (load : Loader μ) (s : Schema) (plan : Plan.CompiledQuery)
    (paging : Option Paging) : Does (fetchRows db load s plan paging).run fun xs r =>
      ∃ answer, xs = [querying db ((paging.map plan.page).getD plan) answer] ∧
        r = (answer >>= modelsOf load s plan).map (·, paging) := by
  have hlayout : ((paging.map plan.page).getD plan).layout = plan.layout := by cases paging <;> rfl
  unfold fetchRows
  simp only [hlayout, Run.pureStep_map, Run.pureStep_bind]
  refine (Does.ask _ _).mono ?_
  rintro _ _ ⟨answer, rfl, rfl⟩
  refine ⟨answer, rfl, ?_⟩
  simp only [modelsOf, Except.map_bind]

theorem resolvePage_does (db : Database) (plan : Plan.CompiledQuery) (p : Paging) :
    Does (resolvePage db plan p).run fun xs r =>
      (∃ total, p.total = some total ∧ xs = [] ∧ r = .ok (p.resolve total)) ∨
        p.total = none ∧ ∃ answer, xs = [counting db plan answer] ∧
          r = (answer >>= Response.toScalar >>= countOf).map p.resolve := by
  unfold resolvePage
  cases p.total with
  | some total =>
    refine (Does.done (p.resolve total)).mono ?_
    rintro _ _ ⟨rfl, rfl⟩
    exact .inl ⟨total, rfl, rfl, rfl⟩
  | none =>
    simp only [scalar, bind_assoc, Run.pureStep_map, Run.pureStep_bind]
    refine (Does.ask _ _).mono ?_
    rintro _ _ ⟨answer, rfl, rfl⟩
    refine .inr ⟨trivial, answer, rfl, ?_⟩
    simp only [Except.map_bind]

theorem count_eq_ok {answer : Except Error Response} {total : UInt64} :
    answer >>= Response.toScalar >>= countOf = .ok total ↔
      ∃ v, answer = .ok (.scalar v) ∧ v.Counts total := by
  rw [Except.bind_eq_ok]
  exact exists_congr fun v => and_congr Response.toScalar_eq_ok countOf_eq_ok

theorem fetching_does (db : Database) (load : Loader μ) (s : Schema) (q : Query)
    (plan : Plan.CompiledQuery) :
    Does (q.paging.mapM (resolvePage db plan) >>= fetchRows db load s plan).run
      (Fetching db load s q plan) := by
  cases hpaging : q.paging with
  | none =>
    refine ((Does.done none).bindRun (fetchRows_does db load s plan)).mono ?_
    rintro _ _ (⟨error, ⟨-, hnone⟩, -⟩ | ⟨_, _, _, rfl, ⟨rfl, hnone⟩, answer, rfl, rfl⟩)
    · cases hnone
    · obtain rfl := Except.ok.inj hnone
      exact .whole hpaging
  | some p =>
    have hpage : (some p).mapM (resolvePage db plan) >>= fetchRows db load s plan =
        resolvePage db plan p >>= fun page => fetchRows db load s plan (some page) :=
      bind_map_left ..
    rw [hpage]
    refine ((resolvePage_does db plan p).bindRun fun page =>
      fetchRows_does db load s plan (some page)).mono ?_
    rintro _ _ (⟨error, ⟨_, _, _, hpage⟩ | ⟨hnone, answer, rfl, hpage⟩, rfl⟩ |
      ⟨page, _, _, rfl, ⟨total, htotal, rfl, hpage⟩ | ⟨hnone, answer, rfl, hpage⟩, _, rfl, rfl⟩)
    · cases hpage
    · refine .uncounted hpaging hnone fun v total hanswer hcounts => ?_
      rw [count_eq_ok.2 ⟨v, hanswer, hcounts⟩] at hpage
      cases hpage
    · obtain rfl := Except.ok.inj hpage
      exact .known hpaging htotal
    · obtain ⟨total, hcount, rfl⟩ := Except.map_eq_ok.1 hpage.symm
      obtain ⟨v, rfl, hcounts⟩ := count_eq_ok.1 hcount
      exact .counted hpaging hnone hcounts

/-- With the schema at hand, a fetch goes as the query compiles. -/
theorem fetchWith_does (db : Database) (load : Loader μ) (s : Schema) (q : Query) :
    Does (do
      let plan ← Run.pureStep (Plan.select s q)
      let paging ← q.paging.mapM (resolvePage db plan)
      fetchRows db load s plan paging : Run _).run fun xs result =>
        (∀ error, Plan.select s q = .error error → xs = [] ∧ result = .error error) ∧
          ∀ plan, Plan.select s q = .ok plan → Fetching db load s q plan xs result := by
  cases Plan.select s q with
  | error error =>
    refine (Does.pureStep (.error error)).mono ?_
    rintro _ _ ⟨rfl, rfl⟩
    exact ⟨fun _ h => ⟨rfl, congrArg Except.error (Except.error.inj h)⟩, fun _ h => nomatch h⟩
  | ok plan =>
    refine (fetching_does db load s q plan).mono fun xs result h => ?_
    exact ⟨fun _ herror => (nomatch herror), fun _ hplan => Except.ok.inj hplan ▸ h⟩

/-- What a fetch exchanges and what comes of it. -/
structure Fetches (db : Database) (load : Loader μ) (q : Query) (st : State) (xs : List Exchange)
    (result : Except Error (List μ × Option Paging)) : Prop where
  /-- What does not compile is not sent. -/
  refused : ∀ error, compiledIn db q st = .error error → xs = [] ∧ result = .error error
  compiled : ∀ s plan, compiledIn db q st = .ok (s, plan) → Fetching db load s q plan xs result

theorem fetches (db : Database) (load : Loader μ) (q : Query) (st : State) :
    ∃ xs, st.script.Exchanged xs ((fetch db load q).run.run st).2.script ∧
      Fetches db load q st xs ((fetch db load q).run.run st).1 := by
  obtain ⟨st₁, hscript, hrun⟩ := db.bind_schema (fun s => do
    let plan ← Run.pureStep (Plan.select s q)
    let paging ← q.paging.mapM (resolvePage db plan)
    fetchRows db load s plan paging) st
  rw [fetch_eq, hrun, ← hscript]
  cases hs : db.schemaIn st with
  | error error =>
    have hcompiled : compiledIn db q st = .error error := congrArg (Except.bind · _) hs
    refine ⟨[], .nil _, fun _ h => ⟨rfl, ?_⟩, fun _ _ h => nomatch hcompiled.symm.trans h⟩
    exact congrArg Except.error (Except.error.inj (hcompiled.symm.trans h))
  | ok s =>
    have hcompiled : compiledIn db q st = (Plan.select s q).map (s, ·) :=
      congrArg (Except.bind · _) hs
    obtain ⟨xs, hxs, hrefused, hplan⟩ := fetchWith_does db load s q st₁
    refine ⟨xs, hxs, fun error h => hrefused error ?_, fun s' plan h => ?_⟩
    · exact Except.map_eq_error.1 (hcompiled.symm.trans h)
    · obtain ⟨_, hselect, hpair⟩ := Except.map_eq_ok.1 (hcompiled.symm.trans h)
      obtain ⟨rfl, rfl⟩ := Prod.mk.inj hpair
      exact hplan _ hselect

/-! ### Count, then fetch -/

/-- The total of a page is known, or it is what was answered when the rows were counted. -/
def Totals (p : Paging) (xs : List Exchange) (total : UInt64) : Prop :=
  p.total = some total ∨ p.total = none ∧
    ∃ x ∈ xs, x.op.isScalar = true ∧ ∃ v, x.answer = .ok (.scalar v) ∧ v.Counts total

/-- The limit that brings the rows of a page, of a number of rows in all. -/
structure Limits (page : Paging) (total : UInt64) (limit : Option Sql.Limit) : Prop where
  unlimited : limit = none ↔ page.size = 0
  index : 1 ≤ page.index.toNat
  count : ∀ l ∈ limit, l.count = page.size
  offset : ∀ l ∈ limit, l.offset.toNat = page.size.toNat * (page.index.toNat - 1)
  within : ∀ l ∈ limit, if total = 0 then l.offset = 0 else l.offset < total

/-- The page that is fetched for the one that is asked for, with the limit of its rows. -/
inductive Paged (xs : List Exchange) : Option Paging → Option Paging → Option Sql.Limit → Prop where
  | whole : Paged xs none none none
  | page {p : Paging} {total : UInt64} {limit : Option Sql.Limit} : Totals p xs total →
    Limits (p.resolve total) total limit → Paged xs (some p) (some (p.resolve total)) limit

/-- What a fetch of a compiled query sends. -/
structure CountThenFetch (db : Database) (q : Query) (plan : Plan.CompiledQuery)
    (xs : List Exchange) (result : Except Error (List μ × Option Paging)) : Prop where
  counts : (∃ x ∈ xs, x.op.isScalar = true) ↔ ∃ p ∈ q.paging, p.total = none
  count : ∀ x ∈ xs, x.op.isScalar = true →
    xs.head? = some x ∧ x.op = .scalar (db.text (.select plan.count)) plan.params
  fetches : (∃ x ∈ xs, x.op.isQuery = true) ↔ ∀ p ∈ q.paging, ∃ total, Totals p xs total
  fetch : ∀ x ∈ xs, x.op.isQuery = true → ∃ page limit,
    x.op = .query (db.text (.select {plan.select with limit})) plan.params ∧
      Paged xs q.paging page limit ∧
        ∀ models page', result = .ok (models, page') → page' = page
  /-- Nothing else is sent, and neither of the two twice. -/
  once : xs.Pairwise fun x y => x.op.isScalar = true ∧ y.op.isQuery = true
  only : ∀ x ∈ xs, x.op.isScalar = true ∨ x.op.isQuery = true
  fails : (∀ x ∈ xs, x.op.isQuery = false) → ∃ error, result = .error error

theorem limits_resolve (p : Paging) (total : UInt64) :
    Limits (p.resolve total) total (Plan.limit? (p.resolve total)) := by
  by_cases hsize : (p.resolve total).size = 0
  · have hnone : Plan.limit? (p.resolve total) = none := if_pos hsize
    rw [hnone]
    exact ⟨iff_of_true rfl hsize, p.one_le_index_resolve total, fun _ h => (nomatch h),
      fun _ h => (nomatch h), fun _ h => nomatch h⟩
  · have hsome : Plan.limit? (p.resolve total) =
        some ⟨(p.resolve total).offset, (p.resolve total).size⟩ := if_neg hsize
    rw [hsome]
    refine ⟨iff_of_false (fun h => nomatch h) hsize, p.one_le_index_resolve total, ?_, ?_, ?_⟩
    · rintro _ ⟨⟩
      rfl
    · rintro _ ⟨⟩
      exact p.toNat_offset_resolve total
    · rintro _ ⟨⟩
      by_cases htotal : total = 0
      · rw [if_pos htotal, htotal]
        exact p.offset_resolve_zero
      · rw [if_neg htotal, UInt64.lt_iff_toNat_lt]
        exact p.offset_resolve_lt hsize htotal

/-- A page that comes with the models is the one that was fetched. -/
theorem page_of_models {models : Except Error (List μ)} {page page' : Option Paging}
    {fetched : List μ} (h : models.map (·, page) = .ok (fetched, page')) : page' = page := by
  obtain ⟨_, -, hpair⟩ := Except.map_eq_ok.1 h
  exact (Prod.mk.inj hpair).2.symm

/-- Where no total is missing, there is nothing but the fetch. -/
theorem CountThenFetch.of_known {x : Exchange} {page : Option Paging} {limit : Option Sql.Limit}
    {models : Except Error (List μ)} (hknown : ∀ p ∈ q.paging, p.total ≠ none)
    (hop : x.op = .query (db.text (.select {plan.select with limit})) plan.params)
    (hpaged : Paged [x] q.paging page limit) :
    CountThenFetch db q plan [x] (models.map (·, page)) where
  counts := by
    refine iff_of_false ?_ fun ⟨p, hp, hnone⟩ => hknown p hp hnone
    simp [hop, Operation.isScalar]
  count := List.forall_mem_singleton.2 fun hscalar => by simp [hop, Operation.isScalar] at hscalar
  fetches := by
    refine iff_of_true ⟨x, List.mem_singleton_self x, by rw [hop]; rfl⟩ fun p hp => ?_
    obtain ⟨total, htotal⟩ := Option.ne_none_iff_exists'.1 (hknown p hp)
    exact ⟨total, .inl htotal⟩
  fetch := List.forall_mem_singleton.2 fun _ =>
    ⟨page, limit, hop, hpaged, fun _ _ h => page_of_models h⟩
  once := List.pairwise_singleton ..
  only := List.forall_mem_singleton.2 (.inr (by rw [hop]; rfl))
  fails := fun hnone => by simp [hop, Operation.isQuery] at hnone

theorem Fetching.countThenFetch {result : Except Error (List μ × Option Paging)}
    (hlimit : plan.select.limit = none) (h : Fetching db load s q plan xs result) :
    CountThenFetch db q plan xs result := by
  cases h with
  | @whole answer hq =>
    have hselect : plan.select = {plan.select with limit := none} := by
      generalize plan.select = select at hlimit ⊢
      cases select
      cases hlimit
      rfl
    refine .of_known (fun p hp => ?_) (congrArg (fun select =>
      Operation.query (db.text (.select select)) plan.params) hselect) ?_
    · rw [hq] at hp
      cases hp
    · rw [hq]
      exact .whole
  | @known p total answer hq htotal =>
    refine .of_known (fun p' hp => ?_) rfl ?_
    · obtain rfl := Option.some.inj (hq.symm.trans hp)
      rw [htotal]
      exact Option.some_ne_none total
    · rw [hq]
      exact .page (.inl htotal) (limits_resolve p total)
  | @uncounted p answer error hq hnone hcount =>
    constructor
    · exact iff_of_true ⟨_, List.mem_singleton_self _, rfl⟩ ⟨p, hq, hnone⟩
    · exact List.forall_mem_singleton.2 fun _ => ⟨rfl, rfl⟩
    · refine iff_of_false ?_ fun htotals => ?_
      · simp [counting, Operation.isQuery]
      · obtain ⟨total, htotal | ⟨-, x, hx, -, v, hanswer, hcounts⟩⟩ := htotals p hq
        · exact nomatch hnone.symm.trans htotal
        · obtain rfl := List.mem_singleton.1 hx
          exact hcount v total hanswer hcounts
    · exact List.forall_mem_singleton.2 fun hquery => nomatch hquery
    · exact List.pairwise_singleton ..
    · exact List.forall_mem_singleton.2 (.inl rfl)
    · exact fun _ => ⟨error, rfl⟩
  | @counted p v total answer hq hnone hcounts =>
    have htotals : Totals p [counting db plan (.ok (.scalar v)),
        querying db (plan.page (p.resolve total)) answer] total :=
      .inr ⟨hnone, _, List.mem_cons_self .., rfl, v, rfl, hcounts⟩
    constructor
    · exact iff_of_true ⟨_, List.mem_cons_self .., rfl⟩ ⟨p, hq, hnone⟩
    · exact List.forall_mem_cons.2 ⟨fun _ => ⟨rfl, rfl⟩,
        List.forall_mem_singleton.2 fun hscalar => nomatch hscalar⟩
    · refine iff_of_true ⟨_, List.mem_cons_of_mem _ (List.mem_singleton_self _), rfl⟩ ?_
      intro p' hp
      obtain rfl := Option.some.inj (hq.symm.trans hp)
      exact ⟨total, htotals⟩
    · refine List.forall_mem_cons.2 ⟨fun hquery => (nomatch hquery),
        List.forall_mem_singleton.2 fun _ => ⟨some (p.resolve total), _, rfl, ?_,
          fun _ _ h => page_of_models h⟩⟩
      rw [hq]
      exact .page htotals (limits_resolve p total)
    · exact List.pairwise_pair.2 ⟨rfl, rfl⟩
    · exact List.forall_mem_cons.2 ⟨.inl rfl, List.forall_mem_singleton.2 (.inr rfl)⟩
    · exact fun hquery => nomatch hquery _ (List.mem_cons_of_mem _ (List.mem_singleton_self _))

/-- **Count, then fetch.** Whatever the executor answers, a fetch sends nothing for a query that
does not compile, and otherwise at most two operations with the same parameters. The first counts,
exactly when there is a page without a total. The other fetches the rows, exactly when the total is
known, or not needed, or was answered, and has the limit of the page that is returned. -/
theorem fetch_counted (db : Database) (load : Loader μ) (q : Query) (st : State) :
    ∃ xs, (∀ ys, st.script.Exchanged ys ((fetch db load q).run.run st).2.script ↔ ys = xs) ∧
      match compiledIn db q st with
      | .error error => xs = [] ∧ ((fetch db load q).run.run st).1 = .error error
      | .ok (_, plan) => CountThenFetch db q plan xs ((fetch db load q).run.run st).1 := by
  obtain ⟨xs, hxs, hfetches⟩ := fetches db load q st
  refine ⟨xs, fun ys => ⟨fun hys => (hys.unique hxs rfl).1, fun h => h ▸ hxs⟩, ?_⟩
  cases hcompiled : compiledIn db q st with
  | error error => exact hfetches.refused error hcompiled
  | ok compiled =>
    obtain ⟨s, plan⟩ := compiled
    obtain ⟨s', -, hplan⟩ := Except.bind_eq_ok.1 hcompiled
    obtain ⟨_, hselect, hpair⟩ := Except.map_eq_ok.1 hplan
    obtain ⟨rfl, rfl⟩ := Prod.mk.inj hpair
    exact (hfetches.compiled _ _ hcompiled).countThenFetch (Plan.select_unlimited hselect)

end Session
end EntityQuery
