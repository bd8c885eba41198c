import EntityQuery.Proofs.Session.Loading

/-! Selections are read once.

A selection may be asked in any order for its models, its page and its total, and what it asks of
the database may fail. Until that succeeds there is nothing to show, and each call that needs the
models tries again on a connection of its own. From then on all calls are answered from what was
read (`read_once`). -/
namespace EntityQuery

open Database (State)

namespace Selection
variable {μ : Type} {db : Database} {loader : Loader μ} {q : Query} {sel : Selection μ}
  {st st' : State} {models : List μ} {page : Option Paging}

/-! ### Calls -/

/-- What a selection is asked. -/
inductive Ask where
  | load | total | paging | isLoaded

inductive Reply (μ : Type) where
  | models (result : Except Error (List μ))
  | total (result : Except Error UInt64)
  | paging (page : Option Paging)
  | isLoaded (loaded : Bool)

/-- A call that fails leaves the selection as it was. -/
def keep {α : Type} (sel : Selection μ) (reply : Except Error α → Reply μ) :
    Except Error (Selection μ × α) → Selection μ × Reply μ
  | .ok (sel, a) => (sel, reply (.ok a))
  | .error error => (sel, reply (.error error))

def answer (db : Database) (loader : Loader μ) (sel : Selection μ) :
    Ask → StateM State (Selection μ × Reply μ)
  | .load => sel.keep .models <$> Session.attempt (sel.load db loader)
  | .total => sel.keep .total <$> Session.attempt (sel.total db loader)
  | .paging => pure (sel, .paging sel.paging)
  | .isLoaded => pure (sel, .isLoaded sel.isLoaded)

/-- A call on a selection, with the states of the handle before and after it. -/
structure Call (μ : Type) where
  ask : Ask
  start : State
  reply : Reply μ
  stop : State

/-- Calls one after another. -/
def calls (db : Database) (loader : Loader μ) : Selection μ → State → List Ask → List (Call μ)
  | _, _, [] => []
  | sel, st, ask :: asks =>
    let ran := (sel.answer db loader ask).run st
    ⟨ask, st, ran.1.2, ran.2⟩ :: calls db loader ran.1.1 ran.2 asks

/-- The selection and the state after calls. -/
def reached (db : Database) (loader : Loader μ) :
    Selection μ → State → List Ask → Selection μ × State
  | sel, st, [] => (sel, st)
  | sel, st, ask :: asks =>
    let ran := (sel.answer db loader ask).run st
    reached db loader ran.1.1 ran.2 asks

/-- The reply to a call by what was read. -/
def Ask.replyTo : Ask → Except Error (List μ × Option Paging) → Reply μ
  | .load, result => .models (result.map Prod.fst)
  | .total, result => .total (result.map fun (models, page) => totalOf models page)
  | .paging, result => .paging (result.toOption.bind Prod.snd)
  | .isLoaded, result => .isLoaded result.toOption.isSome

/-- The reply of a selection that is not loaded, unless the models are needed for it. A total that
the query says in advance needs none. -/
def Ask.foretold (q : Query) : Ask → Option (Reply μ)
  | .load => none
  | .total => (q.paging.bind (·.total)).map fun total => .total (.ok total)
  | .paging => some (.paging none)
  | .isLoaded => some (.isLoaded false)

/-! ### Calls on a selection -/

theorem answer_load (sel : Selection μ) (st : State) : (sel.answer db loader .load).run st =
    (sel.keep .models ((sel.load db loader).run.run st).1,
      ((sel.load db loader).run.run st).2) := rfl

theorem answer_total (sel : Selection μ) (st : State) : (sel.answer db loader .total).run st =
    (sel.keep .total ((sel.total db loader).run.run st).1,
      ((sel.total db loader).run.run st).2) := rfl

theorem answer_paging (sel : Selection μ) (st : State) : (sel.answer db loader .paging).run st =
    ((sel, .paging (sel.loaded.bind Prod.snd)), st) := rfl

theorem answer_isLoaded (sel : Selection μ) (st : State) :
    (sel.answer db loader .isLoaded).run st = ((sel, .isLoaded sel.loaded.isSome), st) := rfl

theorem answer_of_loaded (db : Database) (loader : Loader μ) {read : List μ × Option Paging}
    (hsel : sel.Keeps q) (h : sel.loaded = some read) (ask : Ask) (st : State) :
    (sel.answer db loader ask).run st = ((sel, ask.replyTo (.ok read)), st) := by
  obtain ⟨models, page⟩ := read
  cases ask with
  | load => rw [answer_load, load_of_loaded h]; rfl
  | total => rw [answer_total, total_of_loaded hsel h]; rfl
  | paging => rw [answer_paging, h]; rfl
  | isLoaded => rw [answer_isLoaded, h]; rfl

theorem answer_foretold (db : Database) (loader : Loader μ) {reply : Reply μ} {ask : Ask}
    (h : sel.loaded = none) (hreply : ask.foretold sel.query = some reply) (st : State) :
    (sel.answer db loader ask).run st = ((sel, reply), st) := by
  cases ask with
  | load => cases hreply
  | total =>
    obtain ⟨total, hknown, rfl⟩ := Option.map_eq_some_iff.1 hreply
    rw [answer_total, total_of_known h hknown]
    rfl
  | paging =>
    cases hreply
    rw [answer_paging, h]
    rfl
  | isLoaded =>
    cases hreply
    rw [answer_isLoaded, h]
    rfl

/-- A selection keeps what an attempt read, and stays without models when it failed. -/
theorem keep_attempt {α : Type} (h : sel.loaded = none) (reply : Except Error α → Reply μ)
    (result : Except Error (List μ × Option Paging)) (value : List μ × Option Paging → α) :
    sel.keep reply (result.map fun read => ({sel with loaded := some read}, value read)) =
      ({sel with loaded := result.toOption}, reply (result.map value)) := by
  cases result with
  | error error =>
    have hsel : sel = {sel with loaded := none} := by rw [← h]
    exact congrArg (·, reply (.error error)) hsel
  | ok read => rfl

theorem answer_attempts (db : Database) (loader : Loader μ) {ask : Ask}
    (h : sel.loaded = none) (hask : ask.foretold (μ := μ) sel.query = none) (st : State) :
    ∃ result st', Attempt db loader sel.query st st' result ∧ (sel.answer db loader ask).run st =
      (({sel with loaded := result.toOption}, ask.replyTo result), st') := by
  cases ask with
  | load =>
    obtain ⟨result, st', hattempt, hload⟩ := load_attempts db loader h st
    refine ⟨result, st', hattempt, ?_⟩
    rw [answer_load, hload, keep_attempt h]
    rfl
  | total =>
    obtain ⟨result, st', hattempt, htotal⟩ := total_attempts db loader h
      (Option.map_eq_none_iff.1 hask) st
    refine ⟨result, st', hattempt, ?_⟩
    rw [answer_total, htotal, keep_attempt h]
    rfl
  | paging => cases hask
  | isLoaded => cases hask

theorem calls_cons {sel' : Selection μ} {reply : Reply μ} {ask : Ask}
    (h : (sel.answer db loader ask).run st = ((sel', reply), st')) (asks : List Ask) :
    calls db loader sel st (ask :: asks) = ⟨ask, st, reply, st'⟩ :: calls db loader sel' st' asks ∧
      reached db loader sel st (ask :: asks) = reached db loader sel' st' asks := by
  rw [calls, reached, h]
  exact ⟨rfl, rfl⟩

/-! ### Reading once -/

/-- A call that leaves a selection without models. -/
inductive Call.Misses (db : Database) (loader : Loader μ) (q : Query) (c : Call μ) : Prop where
  /-- It needs none, and does nothing. -/
  | foretold : c.ask.foretold q = some c.reply → c.stop = c.start → Misses db loader q c
  /-- It fails to fetch them. -/
  | failed {error : Error} : c.ask.foretold (μ := μ) q = none →
    Attempt db loader q c.start c.stop (.error error) → c.reply = c.ask.replyTo (.error error) →
    Misses db loader q c

/-- A call that fetches the models. -/
structure Call.Reads (db : Database) (loader : Loader μ) (q : Query)
    (read : List μ × Option Paging) (c : Call μ) : Prop where
  needed : c.ask.foretold (μ := μ) q = none
  attempt : Attempt db loader q c.start c.stop (.ok read)
  reply : c.reply = c.ask.replyTo (.ok read)

/-- A call that is answered from what was read, and does nothing. -/
structure Call.Rereads (read : List μ × Option Paging) (c : Call μ) : Prop where
  reply : c.reply = c.ask.replyTo (.ok read)
  stop : c.stop = c.start

/-- Calls on a selection that starts without models. One of them fetches them, if any does. -/
inductive History (db : Database) (loader : Loader μ) (q : Query) :
    List (Call μ) → Option (List μ × Option Paging) → Prop where
  | unread {cs : List (Call μ)} : (∀ c ∈ cs, c.Misses db loader q) → History db loader q cs none
  | read {misses rereads : List (Call μ)} {c : Call μ} {read : List μ × Option Paging} :
    (∀ c ∈ misses, c.Misses db loader q) → c.Reads db loader q read →
    (∀ c ∈ rereads, c.Rereads read) →
    History db loader q (misses ++ c :: rereads) (some read)

theorem History.first {c : Call μ} {cs : List (Call μ)} {read : List μ × Option Paging}
    (hc : c.Reads db loader q read) (h : ∀ c ∈ cs, c.Rereads read) :
    History db loader q (c :: cs) (some read) :=
  List.nil_append (c :: cs) ▸ .read (fun _ hmiss => nomatch hmiss) hc h

theorem History.cons {c : Call μ} {cs : List (Call μ)} {read : Option (List μ × Option Paging)}
    (hc : c.Misses db loader q) (h : History db loader q cs read) :
    History db loader q (c :: cs) read := by
  cases h with
  | unread hmisses => exact .unread (List.forall_mem_cons.2 ⟨hc, hmisses⟩)
  | read hmisses hread hrereads =>
    exact .read (List.forall_mem_cons.2 ⟨hc, hmisses⟩) hread hrereads

theorem calls_of_loaded (db : Database) (loader : Loader μ) {read : List μ × Option Paging}
    (hsel : sel.Keeps q) (h : sel.loaded = some read) (st : State) (asks : List Ask) :
    (∀ c ∈ calls db loader sel st asks, c.Rereads read) ∧
      reached db loader sel st asks = (sel, st) := by
  induction asks with
  | nil => exact ⟨fun _ hc => (nomatch hc), rfl⟩
  | cons ask asks ih =>
    obtain ⟨hcalls, hreached⟩ := calls_cons (answer_of_loaded db loader hsel h ask st) asks
    rw [hcalls, hreached]
    exact ⟨List.forall_mem_cons.2 ⟨⟨rfl, rfl⟩, ih.1⟩, ih.2⟩

/-- The first attempt that succeeds divides the calls. -/
theorem calls_history (db : Database) (loader : Loader μ) (sel : Selection μ)
    (h : sel.loaded = none) (st : State) (asks : List Ask) :
    History db loader sel.query (calls db loader sel st asks)
        (reached db loader sel st asks).1.loaded ∧
      (reached db loader sel st asks).1.query = sel.query := by
  induction asks generalizing sel st with
  | nil =>
    rw [calls, reached, h]
    exact ⟨.unread fun _ hc => (nomatch hc), rfl⟩
  | cons ask asks ih =>
    cases hask : ask.foretold (μ := μ) sel.query with
    | some reply =>
      obtain ⟨hcalls, hreached⟩ := calls_cons (answer_foretold db loader h hask st) asks
      obtain ⟨hhistory, hquery⟩ := ih sel h st
      rw [hcalls, hreached]
      exact ⟨hhistory.cons (.foretold hask rfl), hquery⟩
    | none =>
      obtain ⟨result, st', hattempt, hanswer⟩ := answer_attempts db loader h hask st
      cases result with
      | error error =>
        obtain ⟨hcalls, hreached⟩ := calls_cons hanswer asks
        obtain ⟨hhistory, hquery⟩ := ih {sel with loaded := none} rfl st'
        rw [hcalls, hreached]
        exact ⟨hhistory.cons (.failed hask hattempt rfl), hquery⟩
      | ok read =>
        have hanswer : (sel.answer db loader ask).run st =
          (({sel with loaded := some read}, ask.replyTo (.ok read)), st') := hanswer
        have hkeeps : Keeps sel.query {sel with loaded := some read} :=
          ⟨rfl, fun _ hread => Option.some.inj hread ▸ hattempt.fits⟩
        obtain ⟨hcalls, hreached⟩ := calls_cons hanswer asks
        obtain ⟨hrereads, hlast⟩ := calls_of_loaded db loader hkeeps rfl st' asks
        rw [hcalls, hreached, hlast]
        exact ⟨.first ⟨hask, hattempt, rfl⟩ hrereads, rfl⟩

/-! ### Totals of a history -/

theorem History.fits {cs : List (Call μ)} {read : List μ × Option Paging}
    (h : History db loader q cs (some read)) : Fits q read.2 := by
  cases h with
  | read _ hread _ => exact hread.attempt.fits

/-- The total that calls agree on. -/
def agreed (q : Query) : Option (List μ × Option Paging) → UInt64
  | some (models, page) => totalOf models page
  | none => (q.paging.bind (·.total)).getD 0

theorem History.agreed_of_known {cs : List (Call μ)} {read : Option (List μ × Option Paging)}
    (h : History db loader q cs read) {total : UInt64}
    (hknown : q.paging.bind (·.total) = some total) : agreed q read = total := by
  cases read with
  | none => rw [agreed, hknown]; rfl
  | some read => exact h.fits.totalOf_eq hknown

theorem Call.Misses.total_eq {c : Call μ} {total : UInt64} (h : c.Misses db loader q)
    (hreply : c.reply = .total (.ok total)) : q.paging.bind (·.total) = some total := by
  obtain ⟨ask, start, reply, stop⟩ := c
  obtain rfl : reply = .total (.ok total) := hreply
  cases h with
  | foretold hforetold =>
    cases ask with
    | total =>
      obtain ⟨known, hknown, heq⟩ := Option.map_eq_some_iff.1 hforetold
      cases heq
      exact hknown
    | _ => cases hforetold
  | failed _ _ hreply => cases ask <;> cases hreply

theorem Ask.replyTo_total {ask : Ask} {read : List μ × Option Paging} {total : UInt64}
    (h : ask.replyTo (.ok read) = .total (.ok total)) : total = totalOf read.1 read.2 := by
  cases ask with
  | total => exact (Except.ok.inj (Reply.total.inj h)).symm
  | _ => cases h

theorem History.of_mem {cs : List (Call μ)} {read : Option (List μ × Option Paging)}
    (h : History db loader q cs read) {c : Call μ} (hc : c ∈ cs) :
    c.Misses db loader q ∨ ∃ r, read = some r ∧ (c.Reads db loader q r ∨ c.Rereads r) := by
  cases h with
  | unread hmisses => exact .inl (hmisses c hc)
  | read hmisses hread hrereads =>
    obtain hc | hc := List.mem_append.1 hc
    · exact .inl (hmisses c hc)
    · obtain rfl | hc := List.mem_cons.1 hc
      · exact .inr ⟨_, rfl, .inl hread⟩
      · exact .inr ⟨_, rfl, .inr (hrereads c hc)⟩

theorem History.total_eq {cs : List (Call μ)} {read : Option (List μ × Option Paging)}
    (h : History db loader q cs read) {c : Call μ} (hc : c ∈ cs) {total : UInt64}
    (hreply : c.reply = .total (.ok total)) : total = agreed q read := by
  obtain hmiss | ⟨r, rfl, hc⟩ := h.of_mem hc
  · exact (h.agreed_of_known (hmiss.total_eq hreply)).symm
  · have hread : c.reply = c.ask.replyTo (.ok r) := hc.elim (·.reply) (·.reply)
    exact Ask.replyTo_total (hread.symm.trans hreply)

/-- A total that the query says in advance is told without doing anything. -/
theorem History.known {cs : List (Call μ)} {read : Option (List μ × Option Paging)}
    (h : History db loader q cs read) {total : UInt64}
    (hknown : q.paging.bind (·.total) = some total) {c : Call μ} (hc : c ∈ cs)
    (hask : c.ask = .total) : c.reply = .total (.ok total) ∧ c.stop = c.start := by
  have hforetold : c.ask.foretold (μ := μ) q = some (.total (.ok total)) := by
    rw [hask, Ask.foretold, hknown]
    rfl
  obtain (⟨hreply, hstop⟩ | ⟨hnone, -, -⟩) | ⟨r, rfl, hread | ⟨hreply, hstop⟩⟩ := h.of_mem hc
  · exact ⟨Option.some.inj (hreply.symm.trans hforetold), hstop⟩
  · exact nomatch hforetold.symm.trans hnone
  · exact nomatch hforetold.symm.trans hread.needed
  · refine ⟨?_, hstop⟩
    rw [hreply, hask, ← h.fits.totalOf_eq hknown]
    rfl

/-! ### Giving the selection up -/

/-- What comes of giving a selection up for its models. -/
structure GivenUp (db : Database) (loader : Loader μ) (sel : Selection μ) (st : State) : Prop where
  loaded : ∀ read, sel.loaded = some read →
    (sel.intoModels db loader).run.run st = (.ok read.1, st)
  unread : sel.loaded = none → ∃ result st', Attempt db loader sel.query st st' result ∧
    (sel.intoModels db loader).run.run st = (result.map Prod.fst, st')

theorem intoModels_givenUp (sel : Selection μ) (st : State) : GivenUp db loader sel st where
  loaded := fun (models, page) h => by
    rw [intoModels, Run.run_map, load_of_loaded h]
    rfl
  unread := fun h => by
    obtain ⟨result, st', hattempt, hload⟩ := load_attempts db loader h st
    refine ⟨result, st', hattempt, ?_⟩
    rw [intoModels, Run.run_map, hload]
    cases result <;> rfl

/-- What calls on a selection of a query show. -/
structure ReadOnce (db : Database) (loader : Loader μ) (q : Query) (cs : List (Call μ))
    (sel : Selection μ) (st : State) : Prop where
  query : sel.query = q
  history : History db loader q cs sel.loaded
  /-- All totals are the same. -/
  total : ∃ n, ∀ c ∈ cs, ∀ total, c.reply = .total (.ok total) → total = n
  /-- One that the query says in advance is told without doing anything. -/
  known : ∀ total, q.paging.bind (·.total) = some total → ∀ c ∈ cs, c.ask = .total →
    c.reply = .total (.ok total) ∧ c.stop = c.start
  givenUp : GivenUp db loader sel st

/-- **Selections are read once.** In whatever order a selection is asked, and whatever the executor
answers, the models are fetched again until that succeeds, each time on a connection of its own,
and after that all replies are by what was read. -/
theorem read_once (db : Database) (loader : Loader μ) (q : Query) (st : State) (asks : List Ask) :
    ReadOnce db loader q (calls db loader {query := q} st asks)
      (reached db loader {query := q} st asks).1 (reached db loader {query := q} st asks).2 := by
  obtain ⟨hhistory, hquery⟩ := calls_history db loader {query := q} rfl st asks
  exact ⟨hquery, hhistory, ⟨_, fun _ hc _ hreply => hhistory.total_eq hc hreply⟩,
    fun _ hknown _ hc hask => hhistory.known hknown hc hask, intoModels_givenUp ..⟩

end Selection
end EntityQuery
