import RegisterMap.Proofs.Operations

/-!
# Calls of a Bus

What a bus gets to see of a script are requests, and what the script gets to see of the bus are the
answers. A request and its answer are a **call**. Nothing is assumed about the answers here: a bus
may return any word, fail, or never answer at all.

The acts of a list take their turns, so the calls of the list are those of the acts in a row. An
**episode** is the part of one act.

## Conventions

A script that was left after some calls has issued the requests of those calls, and the request that
it waits for, if it is not done. A call is completed if its answer is a word.

## Main results

* `Script.run_recording` — the calls of a run are what its bus has seen.
* `Script.After.of_bind` — the calls of one script after another.
* `Model.exists_episodes` — the calls of acts are divided into episodes.
-/

namespace RegisterMap

/-! ### Calls -/

/-- A request and its **answer**. -/
structure Call where
  request : Request
  answer : Answer

/-- Whether a request reads or writes. -/
def Request.direction : Request → Direction
  | read _ => .read
  | write _ _ => .write

namespace Call

/-- The call of a completed request. -/
def ofTransaction (t : Transaction) : Call :=
  ⟨t.request, .ok (ClockedBus.movedWord t)⟩

/-- The call of a request that was dropped. -/
def dropped (request : Request) : Call :=
  ⟨request, .error (.disconnected request.address)⟩

/-- The transaction of a completed call. -/
def transaction? (call : Call) : Option Transaction :=
  match call.request, call.answer with
  | .read address, .ok word => some (.read address word)
  | .write address word, .ok _ => some (.write address word)
  | _, .error _ => none

/-- The transactions of those calls that were **completed**. -/
def completed (calls : List Call) : List Transaction := calls.filterMap transaction?

/-- The completed calls of two lists are those of the one, then those of the other. -/
@[simp] theorem completed_append (calls others : List Call) :
    completed (calls ++ others) = completed calls ++ completed others :=
  List.filterMap_append

/-- A call in front comes first if it is completed. -/
theorem completed_cons (call : Call) (calls : List Call) :
    completed (call :: calls) = call.transaction?.toList ++ completed calls := by
  rw [completed, List.filterMap_cons]
  cases call.transaction? <;> rfl

/-- The **directions** of the completed calls. -/
def made (calls : List Call) : List Direction :=
  (completed calls).map (·.request.direction)

/-- Where there are no calls, none is completed. -/
@[simp] theorem made_nil : made [] = [] := rfl

/-- A call that was answered by a word counts **in its direction**. -/
@[simp] theorem made_cons_ok (request : Request) (word : Word) (calls : List Call) :
    made (⟨request, .ok word⟩ :: calls) = request.direction :: made calls := by
  cases request <;> rfl

/-- A call that failed does not count. -/
@[simp] theorem made_cons_error (request : Request) (e : BusError) (calls : List Call) :
    made (⟨request, .error e⟩ :: calls) = made calls := by
  cases request <;> rfl

/-- A completed request is completed as **the transaction it is**. -/
@[simp] theorem transaction?_ofTransaction (t : Transaction) :
    (ofTransaction t).transaction? = some t := by
  cases t <;> rfl

/-- A dropped request is no transaction. -/
@[simp] theorem transaction?_dropped (request : Request) :
    (dropped request).transaction? = none := by
  cases request <;> rfl

end Call

/-! ### What is left after calls -/

namespace Script

variable {α β : Type}

/-- **After** these calls, `rest` is left of a script. -/
inductive After : Script α → List Call → Script α → Prop where
  | start (s : Script α) : After s [] s
  | call {request : Request} {next : Answer → Script α} {answer : Answer} {calls : List Call}
    {rest : Script α} (h : After (next answer) calls rest) :
    After (.call request next) (⟨request, answer⟩ :: calls) rest

namespace After

variable {s rest : Script α} {calls : List Call} {f : α → Script β}

/-- The request that is waited for is answered. -/
theorem snoc {request : Request} {next : Answer → Script α}
    (h : s.After calls (.call request next)) (answer : Answer) :
    s.After (calls ++ [⟨request, answer⟩]) (next answer) := by
  generalize hrest : Script.call request next = rest at h
  induction h with
  | start s =>
      subst hrest
      exact .call (.start _)
  | call _ ih => exact .call (ih hrest)

/-- A script that is done makes no calls. -/
theorem of_done {a : α} (h : (Script.done a).After calls rest) : calls = [] ∧ rest = .done a := by
  cases h
  exact ⟨rfl, rfl⟩

/-- The calls of one script after another are those of the first one, and then of the second one
**once the first one is done**. -/
theorem of_bind {rest : Script β} (h : (s.bind f).After calls rest) :
    (∃ request next, s.After calls (.call request next) ∧
        rest = (Script.call request next).bind f) ∨
      ∃ a front back, calls = front ++ back ∧ s.After front (.done a) ∧ (f a).After back rest := by
  induction s generalizing calls with
  | done a => exact .inr ⟨a, [], calls, rfl, .start _, h⟩
  | call request next ih =>
      cases h with
      | start => exact .inl ⟨request, next, .start _, rfl⟩
      | @call _ _ answer calls _ h =>
          obtain ⟨r, n, hs, hrest⟩ | ⟨a, front, back, rfl, hs, hf⟩ := ih answer h
          · exact .inl ⟨r, n, .call hs, hrest⟩
          · exact .inr ⟨a, ⟨request, answer⟩ :: front, back, rfl, .call hs, hf⟩

/-- A changed result makes no difference to the calls. -/
theorem of_map {g : α → β} {rest : Script β} (h : (s.map g).After calls rest) :
    ∃ before, s.After calls before ∧ rest = before.map g := by
  obtain ⟨request, next, hs, rfl⟩ | ⟨a, front, back, rfl, hs, hdone⟩ := h.of_bind
  · exact ⟨_, hs, rfl⟩
  · obtain ⟨rfl, rfl⟩ := hdone.of_done
    exact ⟨.done a, (List.append_nil front).symm ▸ hs, rfl⟩

end After

/-! ### Calls of a run -/

section Run

variable {Bus : Type} (answer : Bus → Request → Answer × Bus)

/-- The **calls of a run**. -/
def calls : Script α → Bus → List Call
  | .done _, _ => []
  | .call request next, bus =>
    ⟨request, (answer bus request).1⟩ ::
      (next (answer bus request).1).calls (answer bus request).2

/-- A bus that **keeps a record** of what it sees. -/
def recording (bus : Bus × List Call) (request : Request) : Answer × (Bus × List Call) :=
  ((answer bus.1 request).1,
    (answer bus.1 request).2, bus.2 ++ [⟨request, (answer bus.1 request).1⟩])

/-- The calls of a run are **what its bus has seen**. -/
theorem run_recording (s : Script α) (bus : Bus) (before : List Call) :
    s.run (recording answer) (bus, before) =
      ((s.run answer bus).1, (s.run answer bus).2, before ++ s.calls answer bus) := by
  induction s generalizing bus before with
  | done a => simp [run, calls]
  | call request next ih =>
      rw [run]
      refine (ih _ _ _).trans ?_
      simp [run, calls]

/-- A run makes its calls, and then it is done. -/
theorem after_calls (s : Script α) (bus : Bus) :
    s.After (s.calls answer bus) (.done (s.run answer bus).1) := by
  induction s generalizing bus with
  | done a => exact .start _
  | call request next ih => exact .call (ih _ _)

end Run

end Script

/-! ### Episodes -/

/-- The part of one **act**: the calls that it made, and what is left of it. -/
structure Episode where
  act : Act
  calls : List Call
  rest : Script Outcome

namespace Script

variable {α β : Type}

/-- The requests that a script **issued** if it made these calls and `rest` is left. -/
def issued (calls : List Call) (rest : Script α) : List Request :=
  calls.map (·.request) ++ rest.request?.toList

/-- A script that is done waits for nothing. -/
@[simp] theorem request?_done (a : α) : (done a).request? = none := rfl

/-- A script in a call waits for **this request**. -/
@[simp] theorem request?_call (request : Request) (next : Answer → Script α) :
    (call request next).request? = some request := rfl

/-- A script waits for a request exactly if **it stands at a call of it**. -/
theorem request?_eq_some_iff {s : Script α} {request : Request} :
    s.request? = some request ↔ ∃ next, s = .call request next := by
  cases s <;> simp

/-- Changing the result does not change what a script waits for. -/
@[simp] theorem request?_map (s : Script α) (g : α → β) : (s.map g).request? = s.request? := by
  cases s <;> rfl

end Script

/-- The requests of an episode. -/
def Episode.issued (e : Episode) : List Request := Script.issued e.calls e.rest

namespace Model

/-- **Episodes of acts** of which `rest` is left after these calls. -/
structure Episodes (m : Model) (acts : List Act) (calls : List Call) (rest : Script (List Outcome))
    (episodes : List Episode) : Prop where
  /-- Every episode consists of calls of its act. -/
  after : ∀ e ∈ episodes, (m.perform e.act).After e.calls e.rest
  /-- The acts take their turns in order. -/
  order : episodes.map (·.act) <+: acts
  /-- An act begins when those before it are done. -/
  turns : episodes.Pairwise fun e _ => ∃ outcome, e.rest = .done outcome
  /-- No call belongs to no episode. -/
  calls_eq : episodes.flatMap (·.calls) = calls
  issued_eq : episodes.flatMap (·.issued) = Script.issued calls rest
  /-- In the end there is an outcome for every act. -/
  done : ∀ outcomes, rest = .done outcomes →
    episodes.map (·.act) = acts ∧ episodes.map (·.rest) = outcomes.map .done

/-- The calls of acts are **divided into episodes**. -/
theorem exists_episodes (m : Model) {acts : List Act} {calls : List Call}
    {rest : Script (List Outcome)} (h : (m.performAll acts).After calls rest) :
    ∃ episodes, m.Episodes acts calls rest episodes := by
  induction acts generalizing calls rest with
  | nil =>
      obtain ⟨rfl, rfl⟩ := h.of_done
      refine ⟨[], by simp, List.nil_prefix, .nil, rfl, rfl, ?_⟩
      rintro _ ⟨⟩
      exact ⟨rfl, rfl⟩
  | cons act acts ih =>
      obtain ⟨request, next, hact, rfl⟩ | ⟨outcome, front, back, rfl, hact, hacts⟩ := h.of_bind
      · -- The first act waits.
        refine ⟨[⟨act, calls, .call request next⟩], by simpa using hact, by simp, by simp, by simp,
          by simp [Episode.issued, Script.issued, Script.bind], ?_⟩
        rintro _ ⟨⟩
      · -- The first act is done.
        obtain ⟨before, hbefore, rfl⟩ := hacts.of_map
        obtain ⟨episodes, he⟩ := ih hbefore
        refine ⟨⟨act, front, .done outcome⟩ :: episodes, ?_, ?_, ?_, ?_, ?_, ?_⟩
        · exact List.forall_mem_cons.mpr ⟨hact, he.after⟩
        · simpa using he.order
        · exact List.pairwise_cons.mpr ⟨fun _ _ => ⟨outcome, rfl⟩, he.turns⟩
        · rw [List.flatMap_cons, he.calls_eq]
        · rw [List.flatMap_cons, he.issued_eq]
          simp [Episode.issued, Script.issued]
        · intro outcomes hdone
          cases before with
          | call request next => nomatch hdone
          | done others =>
              obtain rfl := Script.done.inj hdone
              obtain ⟨hacts, hrests⟩ := he.done others rfl
              exact ⟨by simp [hacts], by simp [hrests]⟩

end Model

end RegisterMap
