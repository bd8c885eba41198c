import EntityQuery.Proofs.Session.Writing

/-! What a session keeps to.

Any calls may follow each other on a session, and the executor may answer as it likes. Only the
three calls that start and end transactions send transaction steps; all others are quiet about
them (`Quiet`). So the session is in a transaction exactly when the last step that was accepted is
a start (`Call.runAll_does`), and this is what decides how a batch goes on after a row
that fails (`session_protocol`). -/
namespace EntityQuery

open Database (State)

/-- The transaction step that was accepted in an exchange. -/
def Exchange.accepted? (x : Exchange) : Option Transaction :=
  match x.op, x.answer with
  | .transaction t, .ok _ => some t
  | _, _ => none

/-- A run that sends no transaction step. -/
def Quiet {α : Type} (run : StateM State α) : Prop :=
  Does run fun xs _ => ∀ x ∈ xs, ∀ t, x.op ≠ .transaction t

namespace Quiet
variable {α β : Type}

theorem of_nil {run : StateM State α} {P : α → Prop} (h : Does run fun xs a => xs = [] ∧ P a) :
    Quiet run :=
  h.mono fun _ _ ⟨hxs, _⟩ => hxs ▸ List.forall_mem_nil _

protected theorem bind {run : StateM State α} {next : α → StateM State β} (h : Quiet run)
    (hnext : ∀ a, Quiet (next a)) : Quiet (run >>= next) := by
  refine (Does.bind h hnext).mono ?_
  rintro _ _ ⟨_, xs, ys, rfl, hxs, hys⟩
  exact List.forall_mem_append.2 ⟨hxs, hys⟩

theorem bindRun {step : Run α} {next : α → Run β} (h : Quiet step.run)
    (hnext : ∀ a, Quiet (next a).run) : Quiet (step >>= next).run := by
  refine (Does.bindRun h hnext).mono ?_
  rintro _ _ (⟨_, hxs, rfl⟩ | ⟨_, xs, ys, rfl, hxs, hys⟩)
  · exact hxs
  · exact List.forall_mem_append.2 ⟨hxs, hys⟩

protected theorem pure (a : α) : Quiet (pure a) := of_nil (Does.pure a)

theorem done (a : α) : Quiet (pure a : Run α).run := of_nil (Does.done a)

theorem pureStep (step : Except Error α) : Quiet (Run.pureStep step).run :=
  of_nil (Does.pureStep step)

theorem log (event : Event) : Quiet (Run.log event).run := of_nil (Does.log event)

theorem send {op : Operation} (hop : ∀ t, op ≠ .transaction t) : Quiet (Run.send op).run :=
  (Does.send op).mono fun _ _ ⟨_, hxs, _⟩ => hxs ▸ List.forall_mem_singleton.2 hop

/-- Statements that write and questions for their keys are no transaction steps. -/
theorem of_sent {run : StateM State α} (h : Does run fun xs _ =>
    ∀ x ∈ xs, x.op.isExecute = true ∨ x.op = .lastInsertId) : Quiet run := by
  refine h.mono fun xs _ hsent x hx t hop => ?_
  rcases hsent x hx with hexecute | hasks
  · rw [hop] at hexecute
    cases hexecute
  · rw [hop] at hasks
    cases hasks

theorem lift {run : StateM State α} (h : Quiet run) : Quiet (liftM run : Run α).run :=
  h.bind fun a => Quiet.pure (Except.ok a)

theorem schema (db : Database) : Quiet db.schema.run := fun st =>
  ⟨[], (db.schema_run st).2 ▸ .nil _, List.forall_mem_nil _⟩

end Quiet

namespace Session
variable {μ : Type}

/-! ### Quiet calls -/

theorem quiet_scalar (sql : String) (params : List Value) : Quiet (scalar sql params).run :=
  (Quiet.send (by simp)).bindRun fun _ => Quiet.pureStep _

theorem quiet_resolvePage (db : Database) (plan : Plan.CompiledQuery) (p : Paging) :
    Quiet (resolvePage db plan p).run := by
  unfold resolvePage
  cases p.total with
  | some total => exact Quiet.done _
  | none =>
    exact (quiet_scalar _ _).bindRun fun _ => (Quiet.pureStep _).bindRun fun _ => Quiet.done _

theorem quiet_fetch (db : Database) (load : Loader μ) (q : Query) :
    Quiet (fetch db load q).run := by
  refine (Quiet.schema db).bindRun fun s => (Quiet.pureStep _).bindRun fun plan => ?_
  refine Quiet.bindRun ?_ fun paging => (Quiet.send (by simp)).bindRun fun _ =>
    (Quiet.pureStep _).bindRun fun _ => (Quiet.pureStep _).bindRun fun _ => Quiet.done _
  cases q.paging with
  | none => exact Quiet.done none
  | some p => exact (quiet_resolvePage db plan p).bindRun fun _ => Quiet.done _

theorem quiet_all (db : Database) (load : Loader μ) (q : Query) : Quiet (all db load q).run := by
  rw [all, ← bind_pure_comp]
  exact (quiet_fetch db load q).bindRun fun _ => Quiet.done _

theorem quiet_count (db : Database) (entity : String) (f : Filter) (includes : List String) :
    Quiet (count db entity f includes).run :=
  (Quiet.schema db).bindRun fun _ => (Quiet.pureStep _).bindRun fun _ =>
    (quiet_scalar _ _).bindRun fun _ => Quiet.pureStep _

theorem quiet_existsRow (db : Database) (entity : String) (f : Filter) :
    Quiet (existsRow db entity f).run :=
  (Quiet.schema db).bindRun fun _ => (Quiet.pureStep _).bindRun fun _ =>
    (quiet_scalar _ _).bindRun fun _ => Quiet.done _

theorem quiet_batchEntity (db : Database) (entity : String) :
    Quiet (batchEntity db entity).run :=
  (Quiet.schema db).bindRun fun _ => (Quiet.pureStep _).bindRun fun _ => Quiet.done _

theorem quiet_write (db : Database) (plan : Plan.CompiledWrite) : Quiet (write db plan).run :=
  .of_sent <| (write_does db plan).mono fun _ _ ⟨_, hxs, _⟩ =>
    hxs ▸ List.forall_mem_singleton.2 (.inl rfl)

theorem quiet_delete (db : Database) (entity : String) (f : Filter) :
    Quiet (delete db entity f).run :=
  (quiet_batchEntity db entity).bindRun fun _ => (Quiet.pureStep _).bindRun fun _ =>
    quiet_write db _

/-- A batch is quiet when its steps are. -/
theorem quiet_batch {ρ : Type} (session : Session) {step : ρ → Run (UInt64 × ρ)}
    (hstep : ∀ row, Quiet (step row).run) (rows : List ρ) (report : BatchReport) :
    Quiet (batch session step report rows) := by
  induction rows generalizing report with
  | nil => exact Quiet.pure _
  | cons row rest ih =>
    rw [batch]
    refine (hstep row).bind fun result => ?_
    cases result with
    | ok done => exact (ih _).bind fun _ => Quiet.pure _
    | error error =>
      cases session.inTransaction with
      | true => exact Quiet.pure _
      | false => exact (Quiet.log _).bind fun _ => (ih _).bind fun _ => Quiet.pure _

theorem quiet_insertRows (db : Database) (session : Session) (entity : String) (rows : List Row)
    (includes : List String) : Quiet (insertRows db session entity rows includes) := by
  refine (quiet_batchEntity db entity).bind fun result => ?_
  cases result with
  | error error => exact Quiet.pure _
  | ok found =>
    exact quiet_batch session (fun row => .of_sent <|
      (insertRow_does db found.2 includes row).mono fun _ _ h => h.steps.others) rows {}

theorem quiet_updateRows (db : Database) (session : Session) (entity : String)
    (rows : List (OrderedMap Write)) (f : Filter) (members : List String) :
    Quiet (updateRows db session entity rows f members).run := by
  refine (quiet_batchEntity db entity).bindRun fun found => ?_
  dsimp only
  cases members.isEmpty with
  | true => exact Quiet.pureStep _
  | false =>
    have hbatch := quiet_batch session (fun row => .of_sent <|
      (updateRow_does db found.1 found.2 f members row).mono
        fun _ _ h x hx => .inl (h.steps.others x hx)) rows {}
    exact (Quiet.lift hbatch).bindRun fun result => Quiet.pureStep result.2

/-! ### Calls on a session -/

/-- What can be asked of a session. -/
inductive Call : Type 1 where
  | start
  | commit
  | rollback
  | all {μ : Type} (load : Loader μ) (q : Query)
  | count (entity : String) (f : Filter) (includes : List String)
  | existsRow (entity : String) (f : Filter)
  | insertRows (entity : String) (rows : List Row) (includes : List String)
  | updateRows (entity : String) (rows : List (OrderedMap Write)) (f : Filter)
      (members : List String)
  | delete (entity : String) (f : Filter)

/-- The session after a call, whatever the call brought. -/
def Call.run (db : Database) (session : Session) : Call → StateM State Session
  | .start => Prod.snd <$> Session.start.run.run session
  | .commit => Prod.snd <$> Session.commit.run.run session
  | .rollback => Prod.snd <$> Session.rollback.run.run session
  | .all load q => do
    let _ ← attempt (Session.all db load q)
    return session
  | .count entity f includes => do
    let _ ← attempt (Session.count db entity f includes)
    return session
  | .existsRow entity f => do
    let _ ← attempt (Session.existsRow db entity f)
    return session
  | .insertRows entity rows includes => do
    let _ ← Session.insertRows db session entity rows includes
    return session
  | .updateRows entity rows f members => do
    let _ ← attempt (Session.updateRows db session entity rows f members)
    return session
  | .delete entity f => do
    let _ ← attempt (Session.delete db entity f)
    return session

/-- The session after calls one after another. -/
def Call.runAll (db : Database) (session : Session) (calls : List Call) : StateM State Session :=
  calls.foldlM (Call.run db) session

/-! ### Whether a transaction is open -/

/-- The transaction steps that were accepted, in order. -/
def accepted (xs : List Exchange) : List Transaction := xs.filterMap (·.accepted?)

/-- Whether a transaction is open after these exchanges, when it is known whether one was before:
the last step accepted decides. -/
def openAfter (before : Bool) (xs : List Exchange) : Bool :=
  ((accepted xs).getLast?.map (· == .start)).getD before

theorem openAfter_append (before : Bool) (xs ys : List Exchange) :
    openAfter before (xs ++ ys) = openAfter (openAfter before xs) ys := by
  unfold openAfter accepted
  rw [List.filterMap_append, List.getLast?_append]
  cases (ys.filterMap (·.accepted?)).getLast? <;> rfl

theorem openAfter_quiet (before : Bool) {xs : List Exchange}
    (h : ∀ x ∈ xs, ∀ t, x.op ≠ .transaction t) : openAfter before xs = before := by
  have hnone : accepted xs = [] := by
    refine List.filterMap_eq_nil_iff.2 fun x hx => ?_
    unfold Exchange.accepted?
    split
    · next t _ hop _ => exact absurd hop (h x hx t)
    · rfl
  rw [openAfter, hnone]
  rfl

/-- A quiet call leaves the session as it was. -/
theorem kept_of_quiet {α : Type} {run : StateM State α} (h : Quiet run) (session : Session) :
    Does (do let _ ← run; return session) fun xs session' =>
      session'.inTransaction = openAfter session.inTransaction xs := by
  refine (Does.bind h fun _ => Does.pure session).mono ?_
  rintro _ _ ⟨_, xs, _, rfl, hxs, rfl, rfl⟩
  rw [List.append_nil, openAfter_quiet _ hxs]

/-- What a transaction step is answered decides what becomes of the session. -/
def answered (session : Session) (flag : Bool) :
    Except Error Response → Except Error Unit × Session
  | .error error => (.error error, session)
  | .ok _ => (.ok (), {session with inTransaction := flag})

theorem transact_does (session : Session) (t : Transaction) (flag : Bool) :
    Does ((transact t flag).run.run session) fun xs ran =>
      ∃ answer, xs = [⟨.transaction t, answer⟩] ∧ ran = session.answered flag answer := by
  have hrun : (transact t flag).run.run session =
      (Run.send (.transaction t)).run >>= fun answer => pure (session.answered flag answer) := by
    rw [transact, ExceptT.run_bind, StateT.run_bind]
    show (Run.send (.transaction t)).run >>= _ >>= _ = _
    rw [bind_assoc]
    refine congrArg _ (funext fun answer => ?_)
    cases answer <;> rfl
  rw [hrun]
  refine ((Does.send _).bind fun answer => Does.pure (session.answered flag answer)).mono ?_
  rintro _ _ ⟨_, _, _, rfl, ⟨answer, rfl, rfl⟩, rfl, rfl⟩
  exact ⟨_, rfl, rfl⟩

/-- The step opens or closes the transaction when it is accepted, and nothing else does. -/
theorem transact_openAfter (session : Session) (t : Transaction) :
    Does (Prod.snd <$> (transact t (t == .start)).run.run session) fun xs session' =>
      session'.inTransaction = openAfter session.inTransaction xs := by
  rw [map_eq_pure_bind]
  refine ((transact_does session t _).bind fun ran => Does.pure ran.2).mono ?_
  rintro _ _ ⟨_, _, _, rfl, ⟨answer, rfl, rfl⟩, rfl, rfl⟩
  cases answer with
  | error error => rfl
  | ok response => rfl

namespace Call

/-- What one call does to whether a transaction is open. -/
theorem run_does (db : Database) (session : Session) (c : Call) :
    Does (c.run db session) fun xs session' =>
      session'.inTransaction = openAfter session.inTransaction xs := by
  cases c with
  | start => exact transact_openAfter session .start
  | commit => exact transact_openAfter session .commit
  | rollback => exact transact_openAfter session .rollback
  | all load q => exact kept_of_quiet (quiet_all db load q) session
  | count entity f includes => exact kept_of_quiet (quiet_count db entity f includes) session
  | existsRow entity f => exact kept_of_quiet (quiet_existsRow db entity f) session
  | insertRows entity rows includes =>
    exact kept_of_quiet (quiet_insertRows db session entity rows includes) session
  | updateRows entity rows f members =>
    exact kept_of_quiet (quiet_updateRows db session entity rows f members) session
  | delete entity f => exact kept_of_quiet (quiet_delete db entity f) session

/-- What calls one after another do to it. -/
theorem runAll_does (db : Database) (session : Session) (calls : List Call) :
    Does (runAll db session calls) fun xs session' =>
      session'.inTransaction = openAfter session.inTransaction xs := by
  induction calls generalizing session with
  | nil =>
    refine (Does.pure session).mono ?_
    rintro _ _ ⟨rfl, rfl⟩
    rfl
  | cons c rest ih =>
    rw [runAll, List.foldlM_cons]
    refine (Does.bind (run_does db session c) ih).mono ?_
    rintro _ last ⟨next, xs, ys, rfl, hnext, hlast⟩
    rw [hlast, hnext, openAfter_append]

end Call

/-- A commit that fails leaves the transaction open. -/
example : ((Call.runAll {} {} [.start, .commit]).run
    {script := {answers := [.ok (.count 0), .error (Cause.driver ["gone"])]}}).1.inTransaction =
      true := rfl

/-- **What a session keeps to.** After any calls on a fresh connection a transaction is open exactly
when the last transaction step accepted is a start, and inserting and updating rows goes on by
the rules. -/
theorem session_protocol (db : Database) (calls : List Call) (st : State) :
    let (session, now) := (Call.runAll db {} calls).run st
    (∃! xs, st.script.Exchanged xs now.script) ∧
    (∀ xs, st.script.Exchanged xs now.script →
      (session.inTransaction = true ↔ (accepted xs).getLast? = some .start)) ∧
    (∀ entity includes, Inserts db session entity includes now) ∧
    ∀ entity f members, Updates db session entity f members now := by
  obtain ⟨xs, hxs, hopen⟩ := Call.runAll_does db {} calls st
  have hunique : ∀ ys, st.script.Exchanged ys ((Call.runAll db {} calls).run st).2.script →
      ys = xs := fun ys hys => (hys.unique hxs rfl).1
  refine ⟨⟨xs, hxs, hunique⟩, fun ys hys => ?_,
    fun entity includes => inserts db _ entity includes _,
    fun entity f members => updates db _ entity f members _⟩
  obtain rfl := hunique ys hys
  refine (Bool.eq_iff_iff.1 hopen).trans ?_
  rw [openAfter]
  cases (accepted ys).getLast? with
  | none => simp
  | some t => simp

end Session
end EntityQuery
