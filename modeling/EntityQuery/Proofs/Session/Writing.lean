import EntityQuery.Proofs.Session.Batch

/-! Rows that are written.

What is exchanged for a row and what comes of it is said case by case, for a row that is inserted
(`Inserting`) and for one that is updated (`Updating`): every way in which a step can go is one
of the cases. The two calls are batches of such rows (`inserts`, `updates`). -/
namespace EntityQuery

open Database (State)

theorem Response.toCount_eq_ok {answer : Except Error Response} {n : UInt64} :
    answer >>= Response.toCount = .ok n ↔ answer = .ok (.count n) := by
  rw [Except.bind_eq_ok]
  constructor
  · rintro ⟨response, rfl, h⟩
    cases response with
    | count m => rw [Except.ok.inj h]
    | _ => cases h
  · rintro rfl
    exact ⟨_, rfl, rfl⟩

theorem Response.toScalar_eq_ok {answer : Except Error Response} {v : Value} :
    answer >>= Response.toScalar = .ok v ↔ answer = .ok (.scalar v) := by
  rw [Except.bind_eq_ok]
  constructor
  · rintro ⟨response, rfl, h⟩
    cases response with
    | scalar w => rw [Except.ok.inj h]
    | _ => cases h
  · rintro rfl
    exact ⟨_, rfl, rfl⟩

def Operation.isExecute : Operation → Bool
  | .execute .. => true
  | _ => false

/-- The exchange in which a statement that writes is executed. -/
def Database.executing (db : Database) (plan : Plan.CompiledWrite)
    (answer : Except Error Response) : Exchange :=
  ⟨.execute (db.text plan.statement) plan.params, answer⟩

namespace Session
variable {db : Database} {e : Entity} {includes : List String}

theorem write_does (db : Database) (plan : Plan.CompiledWrite) :
    Does (write db plan).run fun xs r =>
      ∃ answer, xs = [db.executing plan answer] ∧ r = answer >>= Response.toCount :=
  Does.ask _ _

/-! ### Inserting -/

/-- How a row is inserted. -/
inductive Inserting (db : Database) (e : Entity) (includes : List String) :
    Handled Row → Prop where
  /-- The row makes no statement. -/
  | refused {row : Row} {error : Error} : Plan.insert e row includes = .error error →
      Inserting db e includes ⟨row, [], .error error⟩
  /-- The statement fails, or what it answers is no count. -/
  | failed {row : Row} {plan : Plan.CompiledWrite} {answer : Except Error Response}
      {error : Error} : Plan.insert e row includes = .ok plan →
      answer >>= Response.toCount = .error error →
      Inserting db e includes ⟨row, [db.executing plan answer], .error error⟩
  /-- The statement is executed, and there is no key to ask for. -/
  | plain {row : Row} {plan : Plan.CompiledWrite} {touched : UInt64} :
      Plan.insert e row includes = .ok plan → (e.sequence? = none ∨ touched = 0) →
      Inserting db e includes ⟨row, [db.executing plan (.ok (.count touched))], .ok (touched, row)⟩
  /-- The statement is executed, and the key it generated is put into the row. -/
  | keyed {row : Row} {plan : Plan.CompiledWrite} {touched : UInt64} {p : Property} {id : Value} :
      Plan.insert e row includes = .ok plan → touched ≠ 0 → e.sequence? = some p →
      Inserting db e includes ⟨row,
        [db.executing plan (.ok (.count touched)), ⟨.lastInsertId, .ok (.scalar id)⟩],
        .ok (touched, OrderedMap.put row p.name id)⟩
  /-- The statement is executed, but the key it generated is not to be had. -/
  | unkeyed {row : Row} {plan : Plan.CompiledWrite} {touched : UInt64} {p : Property}
      {answer : Except Error Response} {error : Error} :
      Plan.insert e row includes = .ok plan → touched ≠ 0 → e.sequence? = some p →
      answer >>= Response.toScalar = .error error →
      Inserting db e includes ⟨row,
        [db.executing plan (.ok (.count touched)), ⟨.lastInsertId, answer⟩], .error error⟩

theorem insertRow_does (db : Database) (e : Entity) (includes : List String) (row : Row) :
    Does (insertRow db e includes row).run fun xs r => Inserting db e includes ⟨row, xs, r⟩ := by
  refine ((Does.pureStep _).bindRun fun plan => (write_does db plan).bindRun
    (Q := fun touched ys r => ∀ plan, Plan.insert e row includes = .ok plan →
      Inserting db e includes ⟨row, db.executing plan (.ok (.count touched)) :: ys, r⟩)
    fun touched => ?_).mono ?_
  · cases hseq : e.sequence? with
    | none =>
      refine (Does.done (touched, row)).mono ?_
      rintro _ _ ⟨rfl, rfl⟩ plan hplan
      exact .plain hplan (.inl hseq)
    | some p =>
      by_cases hzero : touched = 0
      · simp only [hzero, if_true]
        refine (Does.done (0, row)).mono ?_
        rintro _ _ ⟨rfl, rfl⟩ plan hplan
        exact .plain hplan (.inr rfl)
      · simp only [hzero, if_false]
        rw [← bind_assoc]
        refine ((Does.ask .lastInsertId Response.toScalar).bindRun fun id =>
          Does.done (touched, OrderedMap.put row p.name id)).mono ?_
        rintro _ _ (⟨error, ⟨answer, rfl, herror⟩, rfl⟩ |
          ⟨id, _, _, rfl, ⟨answer, rfl, hid⟩, rfl, rfl⟩) plan hplan
        · exact .unkeyed hplan hzero hseq herror.symm
        · rw [Response.toScalar_eq_ok.1 hid.symm]
          exact .keyed hplan hzero hseq
  · rintro _ _ (⟨error, ⟨rfl, herror⟩, rfl⟩ | ⟨plan, _, _, rfl, ⟨rfl, hplan⟩, hrest⟩)
    · exact .refused herror.symm
    · rcases hrest with ⟨error, ⟨answer, rfl, herror⟩, rfl⟩ |
        ⟨touched, _, ys, rfl, ⟨answer, rfl, htouched⟩, hrest⟩
      · exact .failed hplan.symm herror.symm
      · rw [Response.toCount_eq_ok.1 htouched.symm]
        exact hrest plan hplan.symm

/-- What is sent for a row that is inserted, and what of the row is changed. -/
structure InsertSteps (e : Entity) (h : Handled Row) : Prop where
  executes : h.exchanges.countP (·.op.isExecute) ≤ 1
  others : ∀ x ∈ h.exchanges, x.op.isExecute = true ∨ x.op = .lastInsertId
  /-- The key is asked for right behind a statement that touched rows, of an entity with a
  sequence. -/
  asks : ∀ x ∈ h.exchanges, x.op = .lastInsertId → ∃ first n, first.op.isExecute = true ∧
    first.answer = .ok (.count n) ∧ n ≠ 0 ∧ e.sequence?.isSome = true ∧ h.exchanges = [first, x]
  /-- A row is changed only where both its steps succeeded, and there it gets its key. -/
  changes : h.after ≠ h.row → ∃ first n p id, first.op.isExecute = true ∧
    first.answer = .ok (.count n) ∧ e.sequence? = some p ∧
    h.exchanges = [first, ⟨.lastInsertId, .ok (.scalar id)⟩] ∧
    h.result = .ok (n, h.after) ∧ h.after = OrderedMap.put h.row p.name id
  /-- Nothing but the entry of the sequence is changed. -/
  keeps : ∀ p ∈ e.sequence?, ∀ name, name ≠ p.name →
    OrderedMap.get? h.after name = OrderedMap.get? h.row name

theorem InsertSteps.executed {row : Row} {plan : Plan.CompiledWrite}
    {answer : Except Error Response} {result : Except Error (UInt64 × Row)}
    (hrow : (Handled.mk row [db.executing plan answer] result).after = row) :
    InsertSteps e ⟨row, [db.executing plan answer], result⟩ where
  executes := Nat.le_refl 1
  others := List.forall_mem_singleton.2 (.inl rfl)
  asks := List.forall_mem_singleton.2 fun hop => nomatch hop
  changes := fun hne => absurd hrow hne
  keeps := fun _ _ _ _ => by rw [hrow]

theorem Inserting.steps {h : Handled Row} (hh : Inserting db e includes h) : InsertSteps e h := by
  have hothers : ∀ plan touched answer,
      ∀ x ∈ [db.executing plan touched, ⟨.lastInsertId, answer⟩],
        x.op.isExecute = true ∨ x.op = .lastInsertId := fun plan touched answer =>
    List.forall_mem_cons.2 ⟨.inl rfl, List.forall_mem_singleton.2 (.inr rfl)⟩
  have hasks : ∀ plan touched answer, touched ≠ 0 → e.sequence?.isSome = true →
      ∀ x ∈ [db.executing plan (.ok (.count touched)), ⟨.lastInsertId, answer⟩],
        x.op = .lastInsertId → ∃ first n, first.op.isExecute = true ∧
          first.answer = .ok (.count n) ∧ n ≠ 0 ∧ e.sequence?.isSome = true ∧
          [db.executing plan (.ok (.count touched)), ⟨.lastInsertId, answer⟩] = [first, x] := by
    intro plan touched answer htouched hseq x hx hop
    rcases List.mem_cons.1 hx with rfl | hx
    · cases hop
    · obtain rfl := List.mem_singleton.1 hx
      exact ⟨_, touched, rfl, rfl, htouched, hseq, rfl⟩
  cases hh with
  | refused =>
    exact ⟨Nat.zero_le _, List.forall_mem_nil _, List.forall_mem_nil _, fun hne => absurd rfl hne,
      fun _ _ _ _ => rfl⟩
  | failed => exact .executed rfl
  | plain => exact .executed rfl
  | @keyed row plan touched p id _ htouched hseq =>
    refine ⟨Nat.le_refl 1, hothers _ _ _, hasks _ _ _ htouched (Option.isSome_of_eq_some hseq),
      fun _ => ?_, fun p' hp' name hname => ?_⟩
    · exact ⟨_, touched, p, id, rfl, rfl, hseq, rfl, rfl, rfl⟩
    · obtain rfl := Option.some.inj (hseq.symm.trans hp')
      exact (OrderedMap.get?_put row p.name name id).trans (if_neg hname.symm)
  | unkeyed _ htouched hseq =>
    exact ⟨Nat.le_refl 1, hothers _ _ _, hasks _ _ _ htouched (Option.isSome_of_eq_some hseq),
      fun hne => absurd rfl hne, fun _ _ _ _ => rfl⟩

/-! ### Updating -/

/-- How a row is updated. -/
inductive Updating (db : Database) (s : Schema) (e : Entity) (f : Filter) (members : List String) :
    Handled (OrderedMap Write) → Prop where
  /-- The row makes no statement. -/
  | refused {row : OrderedMap Write} {error : Error} :
      Plan.update s e row f members = .error error →
      Updating db s e f members ⟨row, [], .error error⟩
  /-- The row assigns nothing. -/
  | skipped {row : OrderedMap Write} : Plan.update s e row f members = .ok none →
      Updating db s e f members ⟨row, [], .ok (0, row)⟩
  /-- The statement fails, or what it answers is no count. -/
  | failed {row : OrderedMap Write} {plan : Plan.CompiledWrite}
      {answer : Except Error Response} {error : Error} :
      Plan.update s e row f members = .ok (some plan) →
      answer >>= Response.toCount = .error error →
      Updating db s e f members ⟨row, [db.executing plan answer], .error error⟩
  | updated {row : OrderedMap Write} {plan : Plan.CompiledWrite} {touched : UInt64} :
      Plan.update s e row f members = .ok (some plan) →
      Updating db s e f members
        ⟨row, [db.executing plan (.ok (.count touched))], .ok (touched, row)⟩

theorem updateRow_does (db : Database) (s : Schema) (e : Entity) (f : Filter)
    (members : List String) (row : OrderedMap Write) :
    Does (updateRow db s e f members row).run fun xs r =>
      Updating db s e f members ⟨row, xs, r⟩ := by
  refine ((Does.pureStep _).bindRun
    (Q := fun found ys r => Plan.update s e row f members = .ok found →
      Updating db s e f members ⟨row, ys, r⟩) fun found => ?_).mono ?_
  · cases found with
    | some plan =>
      refine ((write_does db plan).bindRun fun touched => Does.done (touched, row)).mono ?_
      rintro _ _ (⟨error, ⟨answer, rfl, herror⟩, rfl⟩ |
        ⟨touched, _, _, rfl, ⟨answer, rfl, htouched⟩, rfl, rfl⟩) hplan
      · exact .failed hplan herror.symm
      · rw [Response.toCount_eq_ok.1 htouched.symm]
        exact .updated hplan
    | none =>
      refine ((Does.log .rowSkipped).bindRun fun _ => Does.done (0, row)).mono ?_
      rintro _ _ (⟨error, ⟨rfl, herror⟩, rfl⟩ | ⟨_, _, _, rfl, ⟨rfl, -⟩, rfl, rfl⟩) hplan
      · cases herror
      · exact .skipped hplan
  · rintro _ _ (⟨error, ⟨rfl, herror⟩, rfl⟩ | ⟨found, _, _, rfl, ⟨rfl, hfound⟩, hrest⟩)
    · exact .refused herror.symm
    · exact hrest hfound.symm

/-- A row that was updated sent one statement at most, and is as it was. -/
structure UpdateSteps (h : Handled (OrderedMap Write)) : Prop where
  executes : h.exchanges.length ≤ 1
  others : ∀ x ∈ h.exchanges, x.op.isExecute = true
  after : h.after = h.row

theorem Updating.steps {s : Schema} {f : Filter} {members : List String}
    {h : Handled (OrderedMap Write)} (hh : Updating db s e f members h) : UpdateSteps h := by
  cases hh with
  | refused => exact ⟨Nat.zero_le _, List.forall_mem_nil _, rfl⟩
  | skipped => exact ⟨Nat.zero_le _, List.forall_mem_nil _, rfl⟩
  | failed => exact ⟨Nat.le_refl _, List.forall_mem_singleton.2 rfl, rfl⟩
  | updated => exact ⟨Nat.le_refl _, List.forall_mem_singleton.2 rfl, rfl⟩

/-! ### The entity of a batch -/

/-- The schema of a handle in a state and the entity of a name, or why there is none. -/
def entityIn (db : Database) (entity : String) (st : State) : Except Error (Schema × Entity) := do
  let s ← db.schemaIn st
  let e ← Plan.entityNamed s entity
  return (s, e)

/-- Looking up the entity sends nothing. -/
theorem batchEntity_run (db : Database) (entity : String) (st : State) : ∃ st₁,
    (batchEntity db entity).run.run st = (entityIn db entity st, st₁) ∧ st₁.script = st.script := by
  obtain ⟨hschema, hscript⟩ := db.schema_run st
  refine ⟨_, ?_, hscript⟩
  rw [batchEntity, ExceptT.run_bind, StateT.run_bind, entityIn, ← hschema]
  match db.schema.run.run st with
  | (.error error, st₁) => rfl
  | (.ok s, st₁) =>
    show (Run.pureStep (Plan.entityNamed s entity) >>= fun e => pure (s, e)).run.run st₁ =
      (Plan.entityNamed s entity >>= fun e => pure (s, e), st₁)
    cases Plan.entityNamed s entity with
    | error error => rfl
    | ok e => rfl

/-! ### Calls -/

/-- A call that fails before it looks at a row. It sends nothing. -/
def Refuses {ρ : Type} (call : List ρ → StateM State (List ρ × Except Error BatchReport))
    (error : Error) (st : State) : Prop :=
  ∀ rows, ∃ st', (call rows).run st = ((rows, .error error), st') ∧ st'.script = st.script

/-- What a call that inserts rows keeps to. -/
def Inserts (db : Database) (session : Session) (entity : String) (includes : List String)
    (st : State) : Prop :=
  match entityIn db entity st with
  | .error error => Refuses (insertRows db session entity · includes) error st
  | .ok (_, e) => ∀ rows, BatchProtocol session (insertRows db session entity · includes)
      (fun h => Inserting db e includes h ∧ InsertSteps e h) rows st

theorem inserts (db : Database) (session : Session) (entity : String) (includes : List String)
    (st : State) : Inserts db session entity includes st := by
  obtain ⟨st₁, hrun, hscript⟩ := batchEntity_run db entity st
  unfold Inserts
  cases hfound : entityIn db entity st with
  | error error =>
    refine fun rows => ⟨st₁, ?_, hscript⟩
    dsimp only
    rw [insertRows, attempt, StateT.run_bind, hrun, hfound]
    rfl
  | ok found =>
    obtain ⟨s, e⟩ := found
    refine BatchProtocol.of_batch (fun row => (insertRow_does db e includes row).mono
      fun _ _ h => ⟨h, h.steps⟩) hscript fun rows => ?_
    rw [insertRows, attempt, StateT.run_bind, hrun, hfound]
    rfl

/-- A call that updates rows, which it leaves as they are. -/
def updating (db : Database) (session : Session) (entity : String) (f : Filter)
    (members : List String) (rows : List (OrderedMap Write)) :
    StateM State (List (OrderedMap Write) × Except Error BatchReport) := do
  return (rows, ← attempt (updateRows db session entity rows f members))

/-- What a call that updates rows keeps to. -/
def Updates (db : Database) (session : Session) (entity : String) (f : Filter)
    (members : List String) (st : State) : Prop :=
  match entityIn db entity st with
  | .error error => Refuses (updating db session entity f members) error st
  | .ok (s, e) =>
    if members.isEmpty then
      Refuses (updating db session entity f members) (Cause.usage (.noMembers e.name)) st
    else ∀ rows, BatchProtocol session (updating db session entity f members)
      (fun h => Updating db s e f members h ∧ UpdateSteps h) rows st

/-- A batch that changes no row leaves all rows as they were. -/
theorem batch_rows_same {ρ : Type} (session : Session) {step : ρ → Run (UInt64 × ρ)}
    (hstep : ∀ row, Does (step row).run fun xs r => (Handled.mk row xs r).after = row)
    (rows : List ρ) (report : BatchReport) (st : State) :
    ((batch session step report rows).run st).1.1 = rows := by
  induction rows generalizing report st with
  | nil => rfl
  | cons row rest ih =>
    obtain ⟨xs, -, hsame⟩ := hstep row st
    rw [batch_cons]
    match hrow : (step row).run.run st with
    | (.ok (touched, row'), st₁) =>
      rw [hrow] at hsame
      have hrow' : row' = row := hsame
      simp only [ih, hrow']
    | (.error error, st₁) =>
      cases session.inTransaction with
      | false => exact congrArg (row :: ·) (ih ..)
      | true => rfl

theorem updates (db : Database) (session : Session) (entity : String) (f : Filter)
    (members : List String) (st : State) : Updates db session entity f members st := by
  obtain ⟨st₁, hrun, hscript⟩ := batchEntity_run db entity st
  unfold Updates
  cases hfound : entityIn db entity st with
  | error error =>
    refine fun rows => ⟨st₁, ?_, hscript⟩
    rw [updating, attempt, StateT.run_bind, updateRows, ExceptT.run_bind, StateT.run_bind, hrun,
      hfound]
    rfl
  | ok found =>
    obtain ⟨s, e⟩ := found
    cases hmembers : members.isEmpty with
    | true =>
      refine fun rows => ⟨st₁, ?_, hscript⟩
      rw [updating, attempt, StateT.run_bind, updateRows]
      simp only [hmembers, if_true]
      rw [ExceptT.run_bind, StateT.run_bind, hrun, hfound]
      rfl
    | false =>
      refine BatchProtocol.of_batch (fun row => (updateRow_does db s e f members row).mono
        fun _ _ h => ⟨h, h.steps⟩) hscript fun rows => ?_
      have hsame := batch_rows_same session (fun row =>
        (updateRow_does db s e f members row).mono fun _ _ h => h.steps.after) rows {} st₁
      have hcall : (updateRows db session entity rows f members).run.run st =
          Prod.map Prod.snd id ((batch session (updateRow db s e f members) {} rows).run st₁) := by
        rw [updateRows]
        simp only [hmembers, Bool.false_eq_true, if_false]
        rw [ExceptT.run_bind, StateT.run_bind, hrun, hfound]
        rfl
      rw [updating, attempt, StateT.run_bind, hcall]
      exact Prod.ext (Prod.ext hsame.symm rfl) rfl

end Session
end EntityQuery
