import EntityQuery.Session.Database

/-! What a run exchanges with the executor.

A run sends operations one after another and goes on with the answers. The exchanges between two
states of a handle are determined by the first and by the operations received
(`Script.Exchanged.unique`), and those of a run are put together from those of its steps
(`Does.bind`, `Does.bindRun`). -/
namespace EntityQuery

open Database (State)

/-- An operation, and what the executor answered. -/
structure Exchange where
  op : Operation
  answer : Except Error Response

/-- The executor answers operations one after another. -/
inductive Script.Exchanged : Script → List Exchange → Script → Prop where
  | nil (script : Script) : Exchanged script [] script
  | cons {script next last : Script} {op : Operation} {answer : Except Error Response}
      {xs : List Exchange} : script.answer op = (answer, next) → Exchanged next xs last →
      Exchanged script (⟨op, answer⟩ :: xs) last

/-- What is asked is recorded. -/
theorem Script.received_answer (script : Script) (op : Operation) :
    (script.answer op).2.received = script.received ++ [op] := by
  unfold Script.answer
  cases script.answers <;> rfl

/-- An operation opens no connection. -/
theorem Script.connections_answer (script : Script) (op : Operation) :
    (script.answer op).2.connections = script.connections := by
  unfold Script.answer
  cases script.answers <;> rfl

/-- The next connection is not refused. -/
def Script.Opens (script : Script) : Prop :=
  ∀ error, script.openings.head? ≠ some (.error error)

/-- The script once the next connection is opened. -/
def Script.opened (script : Script) : Script :=
  {script with openings := script.openings.tail, connections := script.connections + 1}

/-- A connection is refused and not counted, or opened and counted. -/
theorem Script.connect_cases (script : Script) :
    (∃ error rest, script.openings = .error error :: rest ∧
        script.connect = (.error error, {script with openings := rest})) ∨
      script.Opens ∧ script.connect = (.ok (), script.opened) := by
  unfold Opens opened connect
  match hopenings : script.openings with
  | .error error :: rest => exact .inl ⟨error, rest, rfl, rfl⟩
  | .ok () :: rest => exact .inr ⟨by simp, rfl⟩
  | [] => exact .inr ⟨by simp, rfl⟩

namespace Script.Exchanged
variable {script next last last' : Script} {xs ys : List Exchange}

theorem append (hxs : script.Exchanged xs next) (hys : next.Exchanged ys last) :
    script.Exchanged (xs ++ ys) last := by
  induction hxs with
  | nil => exact hys
  | cons hanswer _ ih => exact .cons hanswer (ih hys)

/-- The operations exchanged are those that the executor received. -/
theorem received (h : script.Exchanged xs last) :
    last.received = script.received ++ xs.map (·.op) := by
  induction h with
  | nil => simp
  | @cons script _ _ op _ _ hanswer _ ih =>
    have hnext := script.received_answer op
    rw [hanswer] at hnext
    rw [ih, hnext, List.map_cons, List.append_assoc, List.singleton_append]

theorem connections (h : script.Exchanged xs last) : last.connections = script.connections := by
  induction h with
  | nil => rfl
  | @cons script _ _ op _ _ hanswer _ ih =>
    have hnext := script.connections_answer op
    rw [hanswer] at hnext
    rw [ih, hnext]

/-- Where the same operations were received, the answers were the same. -/
theorem unique (hxs : script.Exchanged xs last) (hys : script.Exchanged ys last')
    (h : last.received = last'.received) : xs = ys ∧ last = last' := by
  have hops : xs.map (·.op) = ys.map (·.op) := by
    rw [hxs.received, hys.received] at h
    exact List.append_cancel_left h
  clear h
  induction hxs generalizing ys with
  | nil =>
    cases hys with
    | nil => exact ⟨rfl, rfl⟩
    | cons => simp at hops
  | cons hanswer _ ih =>
    cases hys with
    | nil => simp at hops
    | cons hanswer' hys =>
      simp only [List.map_cons, List.cons.injEq] at hops
      obtain ⟨rfl, hops⟩ := hops
      obtain ⟨rfl, rfl⟩ := Prod.mk.inj (hanswer.symm.trans hanswer')
      obtain ⟨rfl, rfl⟩ := ih hys hops
      exact ⟨rfl, rfl⟩

end Script.Exchanged

/-! ### Runs -/

theorem Run.run_map {α β : Type} (f : α → β) (step : Run α) (st : State) :
    (f <$> step).run.run st = ((step.run.run st).1.map f, (step.run.run st).2) := by
  rw [← bind_pure_comp, ExceptT.run_bind, StateT.run_bind]
  match step.run.run st with
  | (.error error, st₁) => rfl
  | (.ok a, st₁) => rfl

theorem Run.pureStep_map {α β : Type} (step : Except Error α) (f : α → β) :
    (do let a ← Run.pureStep step; return f a) = Run.pureStep (step.map f) := by
  cases step <;> rfl

theorem Run.pureStep_bind {α β : Type} (step : Except Error α) (next : α → Except Error β) :
    (do let a ← Run.pureStep step; Run.pureStep (next a)) = Run.pureStep (step >>= next) := by
  cases step <;> rfl

/-- From every state, what a run exchanges and its result are as said. -/
def Does {α : Type} (run : StateM State α) (P : List Exchange → α → Prop) : Prop :=
  ∀ st, ∃ xs, st.script.Exchanged xs (run.run st).2.script ∧ P xs (run.run st).1

namespace Does
variable {α β : Type}

theorem mono {run : StateM State α} {P Q : List Exchange → α → Prop} (h : Does run P)
    (hPQ : ∀ xs a, P xs a → Q xs a) : Does run Q := fun st =>
  (h st).imp fun _ ⟨hxs, hP⟩ => ⟨hxs, hPQ _ _ hP⟩

protected theorem pure (a : α) : Does (pure a) fun xs b => xs = [] ∧ b = a := fun _ =>
  ⟨[], .nil _, rfl, rfl⟩

protected theorem bind {run : StateM State α} {next : α → StateM State β}
    {P : List Exchange → α → Prop} {Q : α → List Exchange → β → Prop} (h : Does run P)
    (hnext : ∀ a, Does (next a) (Q a)) :
    Does (run >>= next) fun zs b => ∃ a xs ys, zs = xs ++ ys ∧ P xs a ∧ Q a ys b := by
  intro st
  obtain ⟨xs, hxs, hP⟩ := h st
  obtain ⟨ys, hys, hQ⟩ := hnext (run.run st).1 (run.run st).2
  exact ⟨xs ++ ys, hxs.append hys, _, xs, ys, rfl, hP, hQ⟩

/-- A run goes on after a step that ended well, and fails as a step does. -/
theorem bindRun {step : Run α} {next : α → Run β} {P : List Exchange → Except Error α → Prop}
    {Q : α → List Exchange → Except Error β → Prop} (h : Does step.run P)
    (hnext : ∀ a, Does (next a).run (Q a)) :
    Does (step >>= next).run fun zs r =>
      (∃ error, P zs (.error error) ∧ r = .error error) ∨
        ∃ a xs ys, zs = xs ++ ys ∧ P xs (.ok a) ∧ Q a ys r := by
  rw [ExceptT.run_bind]
  refine (h.bind (Q := fun r ys r' => (∃ error, r = .error error ∧ ys = [] ∧ r' = .error error) ∨
    ∃ a, r = .ok a ∧ Q a ys r') fun r => ?_).mono ?_
  · cases r with
    | error error => exact (Does.pure _).mono fun _ _ hdone => .inl ⟨error, rfl, hdone⟩
    | ok a => exact (hnext a).mono fun _ _ hQ => .inr ⟨a, rfl, hQ⟩
  · rintro _ r ⟨_, xs, ys, rfl, hP, ⟨error, rfl, rfl, rfl⟩ | ⟨a, rfl, hQ⟩⟩
    · exact .inl ⟨error, by rwa [List.append_nil], rfl⟩
    · exact .inr ⟨a, xs, ys, rfl, hP, hQ⟩

/-! ### Steps -/

theorem done (a : α) : Does (pure a : Run α).run fun xs r => xs = [] ∧ r = .ok a :=
  Does.pure (Except.ok a)

theorem pureStep (step : Except Error α) :
    Does (Run.pureStep step).run fun xs r => xs = [] ∧ r = step :=
  Does.pure step

theorem log (event : Event) : Does (Run.log event).run fun xs r => xs = [] ∧ r = .ok () :=
  fun _ => ⟨[], .nil _, rfl, rfl⟩

/-- What is sent is answered. -/
theorem send (op : Operation) : Does (Run.send op).run fun xs r =>
    ∃ answer, xs = [⟨op, answer⟩] ∧ r = answer :=
  fun st => ⟨[⟨op, (st.script.answer op).1⟩], .cons rfl (.nil _), _, rfl, rfl⟩

/-- What is sent is answered, and the answer is read. -/
theorem ask (op : Operation) (read : Response → Except Error α) :
    Does (do Run.pureStep (read (← Run.send op)) : Run α).run fun xs r =>
      ∃ answer, xs = [⟨op, answer⟩] ∧ r = answer >>= read := by
  refine ((send op).bindRun fun response => pureStep (read response)).mono ?_
  rintro _ _ (⟨_, ⟨answer, rfl, rfl⟩, rfl⟩ | ⟨_, _, _, rfl, ⟨answer, rfl, rfl⟩, rfl, rfl⟩)
  · exact ⟨_, rfl, rfl⟩
  · exact ⟨_, rfl, rfl⟩

end Does

/-! ### The schema of a handle -/

namespace Database

/-- The schema that a handle has in a state, or why there is none. -/
def schemaIn (db : Database) (st : State) : Except Error Schema :=
  match st.schema with
  | some s => .ok s
  | none => Schema.ofTexts db.sources

/-- Asking for the schema sends nothing. -/
theorem schema_run (db : Database) (st : State) :
    (db.schema.run.run st).1 = db.schemaIn st ∧ (db.schema.run.run st).2.script = st.script := by
  obtain ⟨script, schema, log⟩ := st
  cases schema with
  | some s => exact ⟨rfl, rfl⟩
  | none =>
    unfold schemaIn schema
    cases Schema.ofTexts db.sources with
    | error error => exact ⟨rfl, rfl⟩
    | ok s => exact ⟨rfl, rfl⟩

/-- What needs the schema goes on with it, from a state in which nothing more was sent. -/
theorem bind_schema {α : Type} (db : Database) (next : Schema → Run α) (st : State) :
    ∃ st₁, st₁.script = st.script ∧ (db.schema >>= next).run.run st =
      match db.schemaIn st with
      | .error error => (.error error, st₁)
      | .ok s => (next s).run.run st₁ := by
  obtain ⟨hschema, hscript⟩ := db.schema_run st
  refine ⟨(db.schema.run.run st).2, hscript, ?_⟩
  rw [ExceptT.run_bind, StateT.run_bind, ← hschema]
  match db.schema.run.run st with
  | (.error error, st₁) => rfl
  | (.ok s, st₁) => rfl

end Database
end EntityQuery
