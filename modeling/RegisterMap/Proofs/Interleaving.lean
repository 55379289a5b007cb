import Mathlib.Data.List.Nodup
import RegisterMap.Engine.Clocked
import RegisterMap.Proofs.Operations

/-!
# Independent Tasks on a Clocked Bus

Tasks that use different addresses do not notice each other, however the clock and the starts of the
tasks are interleaved: every one of them does what it would do alone, on a bus that completes its
requests at once.

The proof gives every task a **shadow**, a plain memory bus of its own on which the task's acts run
alone. While the task waits, its shadow has come just as far: it holds the same words at the
addresses of the task, it has logged the same transactions there, and what is left of the task runs
on it to the end of the whole run.

## Conventions

An edge completes the queue first and wakes the tasks afterwards. Since completing needs no task,
and waking a task neither reads nor writes a word, the requests may as well be served one by one,
each task being woken before the next request is completed (`edge_eq_serveAll`). The invariant is
stated between any two of these servings.

## Main results

* `edge_eq_serveAll` — an edge serves the queue one request at a time.
* `Shadowed.serve`, `Shadowed.spawn` — the invariant is kept by serving a request and by a new task.
* `Shadowed.steps` — the invariant is kept by every sequence of steps.
* `finished_agrees` — what a finished task has done.
-/

namespace RegisterMap

/-- One **step** of a clocked system. -/
inductive ClockStep where
  /-- Start a task that performs these acts. -/
  | spawn (acts : List Act)
  | edge

namespace ClockStep

/-- The acts of the tasks that are started, in order. -/
def spawned (steps : List ClockStep) : List (List Act) :=
  steps.filterMap fun
    | spawn acts => some acts
    | edge => none

end ClockStep

namespace ClockedSystem

/-- The tasks that finish in a step, and the system after it. -/
def step (m : Model) (s : ClockedSystem) : ClockStep → List FinishedTask × ClockedSystem
  | .spawn acts => (s.spawn (m.performAll acts)).2
  | .edge => s.edge.2

/-- The tasks that finish in a **sequence of steps**, and the system after it. -/
def steps (m : Model) (s : ClockedSystem) :
    List ClockStep → List FinishedTask × ClockedSystem
  | [] => ([], s)
  | first :: rest =>
    let (finished, s) := s.step m first
    let (others, s) := s.steps m rest
    (finished ++ others, s)

/-! ### Serving requests one by one -/

/-- The same system with other words and another log on its bus. -/
def withStore (s : ClockedSystem) (words : Words) (log : List Transaction) : ClockedSystem :=
  { s with bus := { s.bus with words, log } }

/-- **Serve** a request: complete it and wake its task. -/
def serve (s : ClockedSystem) (number : Nat) (request : Request) :
    Option FinishedTask × ClockedSystem :=
  let (transaction, words) := ClockedBus.transact s.bus.words request
  (s.withStore words (s.bus.log ++ [transaction])).wake number
    (.ok (ClockedBus.movedWord transaction))

/-- Serve requests one after the other. -/
def serveAll (s : ClockedSystem) : List (Nat × Request) → List FinishedTask × ClockedSystem
  | [] => ([], s)
  | (number, request) :: rest =>
    let (finished, s) := s.serve number request
    let (others, s) := s.serveAll rest
    (finished.toList ++ others, s)

/-- The system in which the request of task `number` is completed and the task has its answer. -/
def woken (s : ClockedSystem) (number : Nat) (request : Request) (next : Answer → Task) :
    ClockedSystem :=
  let (transaction, words) := ClockedBus.transact s.bus.words request
  { s.withStore words (s.bus.log ++ [transaction]) with
    tasks := s.tasks.set number (next (.ok (ClockedBus.movedWord transaction))) }

/-- A task that is served settles as the answer lets it go on. -/
theorem serve_eq_settle {s : ClockedSystem} {number : Nat} {request : Request}
    {next : Answer → Task} (htask : s.tasks[number]? = some (.call request next)) :
    s.serve number request = (s.woken number request next).settle number
      (next (.ok (ClockedBus.movedWord (ClockedBus.transact s.bus.words request).1))) := by
  simp only [serve, wake, withStore, htask]
  rfl

/-- Waking a task does not read the store. -/
theorem wake_withStore (s : ClockedSystem) (words : Words) (log : List Transaction) (number : Nat)
    (answer : Answer) :
    (s.withStore words log).wake number answer =
      ((s.wake number answer).1, (s.wake number answer).2.withStore words log) := by
  unfold wake
  cases h : s.tasks[number]? with
  | none => simp [withStore, h]
  | some task =>
      simp only [withStore, h]
      cases task.resume answer <;> rfl

/-- Waking a task does not change the store. -/
theorem wake_store (s : ClockedSystem) (number : Nat) (answer : Answer) :
    (s.wake number answer).2.bus.words = s.bus.words ∧
      (s.wake number answer).2.bus.log = s.bus.log := by
  rw [wake]
  cases s.tasks[number]? with
  | none => exact ⟨rfl, rfl⟩
  | some task =>
      dsimp only
      cases task.resume answer <;> exact ⟨rfl, rfl⟩

/-- Completing all requests and then waking their tasks is serving them. -/
theorem wakeAll_completeAll (queue : List (Nat × Request)) (s : ClockedSystem) :
    (s.withStore (ClockedBus.completeAll s.bus.words queue).2
        (s.bus.log ++ (ClockedBus.completeAll s.bus.words queue).1.map (·.2))).wakeAll
      ((ClockedBus.completeAll s.bus.words queue).1.map fun (caller, transaction) =>
        (caller, .ok (ClockedBus.movedWord transaction))) =
      s.serveAll queue := by
  induction queue generalizing s with
  | nil => simp [ClockedBus.completeAll, wakeAll, serveAll, withStore]
  | cons entry rest ih =>
      obtain ⟨number, request⟩ := entry
      let transaction := (ClockedBus.transact s.bus.words request).1
      let words := (ClockedBus.transact s.bus.words request).2
      let served := s.serve number request
      obtain ⟨hwords, hlog⟩ : served.2.bus.words = words ∧
          served.2.bus.log = s.bus.log ++ [transaction] := wake_store _ _ _
      have hwake (finalWords : Words) (finalLog : List Transaction) :
          (s.withStore finalWords finalLog).wake number
              (.ok (ClockedBus.movedWord transaction)) =
            (served.1, served.2.withStore finalWords finalLog) :=
        wake_withStore (s.withStore words (s.bus.log ++ [transaction])) finalWords finalLog _ _
      have hrest := ih served.2
      rw [hwords, hlog, List.append_assoc] at hrest
      simp only [ClockedBus.completeAll, List.map_cons, wakeAll, serveAll]
      rw [hwake]
      exact congrArg (fun p => (served.1.toList ++ p.1, p.2)) hrest

/-- An edge **serves the queue**. -/
theorem edge_eq_serveAll (s : ClockedSystem) :
    s.edge.2 =
      ({ s with bus := { s.bus with queue := [], cycles := s.bus.cycles + 1 } } :
        ClockedSystem).serveAll s.bus.queue :=
  wakeAll_completeAll s.bus.queue
    { s with bus := { s.bus with queue := [], cycles := s.bus.cycles + 1 } }

end ClockedSystem

/-! ### Shadows -/

/-- A **shadow** of a task: a plain memory bus that agrees with these words and this log at the
addresses of the task, and on which the rest of the task ends as all of its acts do on the words
from the start. -/
structure Shadow (m : Model) (start words : Words) (log : List Transaction) (acts : List Act)
    (task : Task) (alone : MemoryBus) : Prop where
  plain : alone.Plain
  within : task.Within {x | x ∈ m.addresses acts}
  words_eq : ∀ x ∈ m.addresses acts, alone.words x = words x
  log_eq : alone.log = log.filter (·.address ∈ m.addresses acts)
  rest_eq : task.runOnMemory alone = (m.performAll acts).runOnMemory { words := start }

namespace Shadow

variable {m : Model} {start words : Words} {log : List Transaction} {acts : List Act} {task : Task}
  {alone : MemoryBus}

/-- A task that has not begun is shadowed by a bus with the words from the start. -/
theorem initial (hwords : ∀ x ∈ m.addresses acts, words x = start x)
    (hlog : ∀ t ∈ log, t.address ∉ m.addresses acts) :
    Shadow m start words log acts (m.performAll acts) { words := start } where
  plain := ⟨rfl, rfl⟩
  within := m.within_performAll acts
  words_eq := fun x hx => (hwords x hx).symm
  log_eq := (List.filter_eq_nil_iff.mpr fun t ht => by simpa using hlog t ht).symm
  rest_eq := rfl

/-- What is completed elsewhere does not show in the shadow. -/
theorem of_other (h : Shadow m start words log acts task alone) {request : Request}
    (hother : request.address ∉ m.addresses acts) :
    Shadow m start (ClockedBus.transact words request).2
      (log ++ [(ClockedBus.transact words request).1]) acts task alone where
  plain := h.plain
  within := h.within
  words_eq := by
    intro x hx
    rw [h.words_eq x hx]
    have hne : x ≠ request.address := fun heq => hother (heq ▸ hx)
    exact (ClockedBus.words_transact_of_ne words hne).symm
  log_eq := by
    rw [List.filter_append, h.log_eq]
    simp [ClockedBus.address_transact, hother]
  rest_eq := h.rest_eq

/-- A request of the task is completed on its shadow too. -/
theorem advance {request : Request} {next : Answer → Task}
    (h : Shadow m start words log acts (.call request next) alone) :
    Shadow m start (ClockedBus.transact words request).2
      (log ++ [(ClockedBus.transact words request).1]) acts
      (next (.ok (ClockedBus.movedWord (ClockedBus.transact words request).1)))
      (alone.recorded (ClockedBus.transact alone.words request).1
        (ClockedBus.transact alone.words request).2) := by
  have haddress : request.address ∈ m.addresses acts := h.within.1
  have htransaction : (ClockedBus.transact alone.words request).1 =
      (ClockedBus.transact words request).1 := by
    cases request with
    | read address => exact congrArg (Transaction.read address) (h.words_eq address haddress)
    | write address word => rfl
  refine ⟨h.plain.recorded _ _, h.within.2 _, fun x hx => ?_, ?_, ?_⟩
  · cases request with
    | read address => exact h.words_eq x hx
    | write address word =>
        change (alone.words.set address word) x = (words.set address word) x
        unfold Words.set
        split
        · rfl
        · exact h.words_eq x hx
  · have hkept : (ClockedBus.transact words request).1.address ∈ m.addresses acts :=
      (ClockedBus.address_transact _ _).symm ▸ haddress
    rw [List.filter_append, ← h.log_eq, MemoryBus.recorded, htransaction]
    simp [hkept]
  · rw [← h.rest_eq, h.plain.run_call, htransaction]

end Shadow

/-! ### The invariant -/

/-- **Every task has a shadow.** Besides the requests in the queue there are `waiting` ones, which
an edge has taken out of the queue and not served yet. The tasks in `finished` are done, and nothing
has happened at addresses that no task uses. -/
structure Shadowed (m : Model) (start : Words) (spawned : List (List Act))
    (waiting : List (Nat × Request)) (finished : List FinishedTask) (s : ClockedSystem) : Prop where
  apart : spawned.Pairwise fun a b => List.Disjoint (m.addresses a) (m.addresses b)
  count : s.tasks.length = spawned.length
  shadow : ∀ (n : ℕ) acts task, spawned[n]? = some acts → s.tasks[n]? = some task →
    ∃ alone, Shadow m start s.bus.words s.bus.log acts task alone
  callers : ((waiting ++ s.bus.queue).map Prod.fst).Nodup
  requests : ∀ (n : ℕ) r, (n, r) ∈ waiting ++ s.bus.queue →
    ∃ task, s.tasks[n]? = some task ∧ task.request? = some r
  untouched : ∀ x, (∀ acts ∈ spawned, x ∉ m.addresses acts) → s.bus.words x = start x
  logged : ∀ t ∈ s.bus.log, ∃ acts ∈ spawned, t.address ∈ m.addresses acts
  finished_done : ∀ f ∈ finished, s.tasks[f.number]? = some (.done f.outcomes)

namespace Shadowed

variable {m : Model} {start : Words} {spawned : List (List Act)}
  {waiting : List (Nat × Request)} {finished : List FinishedTask} {s : ClockedSystem} {n : ℕ}

/-- At first there are no tasks. -/
theorem initial (m : Model) (start : Words) :
    Shadowed m start [] [] [] { bus := { words := start } } where
  apart := .nil
  count := rfl
  shadow := by simp
  callers := .nil
  requests := by simp
  untouched := fun _ _ => rfl
  logged := by simp
  finished_done := by simp

/-- A task that does not wait yet may settle: it finishes, or its request is queued. -/
theorem settle (h : Shadowed m start spawned waiting finished s) {task : Task}
    (htask : s.tasks[n]? = some task) (hidle : n ∉ (waiting ++ s.bus.queue).map Prod.fst) :
    Shadowed m start spawned waiting (finished ++ (s.settle n task).1.toList)
      (s.settle n task).2 := by
  cases task with
  | done outcomes =>
      refine { h with finished_done := fun f hf => ?_ }
      rcases List.mem_append.mp hf with hf | hf
      · exact h.finished_done f hf
      · obtain rfl := List.mem_singleton.mp hf
        exact htask
  | call request next =>
      refine { h with callers := ?_, requests := fun k r hk => ?_, finished_done := ?_ }
      · change ((waiting ++ (s.bus.queue ++ [(n, request)])).map Prod.fst).Nodup
        rw [← List.append_assoc, List.map_append]
        exact List.nodup_append.mpr ⟨h.callers, List.nodup_singleton n, by
          rintro k hk _ (⟨⟩ | ⟨_, ⟨⟩⟩) rfl
          exact hidle hk⟩
      · change (k, r) ∈ waiting ++ (s.bus.queue ++ [(n, request)]) at hk
        rw [← List.append_assoc] at hk
        rcases List.mem_append.mp hk with hk | hk
        · exact h.requests k r hk
        · obtain ⟨rfl, rfl⟩ := Prod.mk.inj (List.mem_singleton.mp hk)
          exact ⟨_, htask, rfl⟩
      · simpa [ClockedSystem.settle] using h.finished_done

/-- The acts of a task. -/
theorem exists_acts (h : Shadowed m start spawned waiting finished s) {task : Task}
    (htask : s.tasks[n]? = some task) : ∃ acts, spawned[n]? = some acts := by
  obtain ⟨hn, -⟩ := List.getElem?_eq_some_iff.mp htask
  exact ⟨_, List.getElem?_eq_getElem (h.count ▸ hn)⟩

/-- An address of one task is not one of another task. -/
theorem not_mem_addresses (h : Shadowed m start spawned waiting finished s) {k : ℕ}
    {acts others : List Act} (hacts : spawned[n]? = some acts) (hothers : spawned[k]? = some others)
    (hne : n ≠ k) {x : Address} (hx : x ∈ m.addresses acts) : x ∉ m.addresses others := by
  obtain ⟨hn, rfl⟩ := List.getElem?_eq_some_iff.mp hacts
  obtain ⟨hk, rfl⟩ := List.getElem?_eq_some_iff.mp hothers
  have hapart := List.pairwise_iff_getElem.mp h.apart
  rcases Nat.lt_or_gt_of_ne hne with hlt | hgt
  · exact hapart n k hn hk hlt hx
  · exact fun hx' => hapart k n hk hn hgt hx' hx

/-- **Completing** a request that waits keeps the invariant; its task does not wait any more. -/
theorem woken {request : Request} {next : Answer → Task}
    (h : Shadowed m start spawned ((n, request) :: waiting) finished s)
    (htask : s.tasks[n]? = some (.call request next))
    (hidle : n ∉ (waiting ++ s.bus.queue).map Prod.fst) :
    Shadowed m start spawned waiting finished (s.woken n request next) := by
  obtain ⟨acts, hacts⟩ := h.exists_acts htask
  obtain ⟨alone, halone⟩ := h.shadow n acts _ hacts htask
  have haddress : request.address ∈ m.addresses acts := halone.within.1
  have hasleep {k : ℕ} (hne : n ≠ k) : (s.woken n request next).tasks[k]? = s.tasks[k]? :=
    List.getElem?_set_ne hne
  refine ⟨h.apart, (List.length_set ..).trans h.count, ?_, ?_, ?_, ?_, ?_, ?_⟩
  · intro k others task hothers hk
    by_cases hne : n = k
    · subst hne
      obtain rfl : acts = others := Option.some.inj (hacts.symm.trans hothers)
      obtain ⟨hn, -⟩ := List.getElem?_eq_some_iff.mp htask
      obtain rfl := Option.some.inj ((List.getElem?_set_self hn).symm.trans hk)
      exact ⟨_, halone.advance⟩
    · obtain ⟨alone', halone'⟩ := h.shadow k others task hothers (hasleep hne ▸ hk)
      exact ⟨alone', halone'.of_other (h.not_mem_addresses hacts hothers hne haddress)⟩
  · have hcallers := h.callers
    rw [List.cons_append, List.map_cons, List.nodup_cons] at hcallers
    exact hcallers.2
  · intro k r hk
    have hne : n ≠ k := fun heq => hidle (List.mem_map.mpr ⟨(k, r), hk, heq.symm⟩)
    rw [hasleep hne]
    exact h.requests k r (List.mem_cons_of_mem _ hk)
  · intro x hx
    rw [← h.untouched x hx]
    have hne : x ≠ request.address :=
      fun heq => hx acts (List.mem_of_getElem? hacts) (heq ▸ haddress)
    exact ClockedBus.words_transact_of_ne _ hne
  · intro t ht
    rcases List.mem_append.mp ht with ht | ht
    · exact h.logged t ht
    · obtain rfl := List.mem_singleton.mp ht
      exact ⟨acts, List.mem_of_getElem? hacts,
        (ClockedBus.address_transact _ _).symm ▸ haddress⟩
  · intro f hf
    have hdone := h.finished_done f hf
    have hne : n ≠ f.number := by
      rintro rfl
      rw [htask] at hdone
      nomatch hdone
    rw [hasleep hne, hdone]

/-- **Serving** a request keeps the invariant. -/
theorem serve {request : Request}
    (h : Shadowed m start spawned ((n, request) :: waiting) finished s) :
    Shadowed m start spawned waiting (finished ++ (s.serve n request).1.toList)
      (s.serve n request).2 := by
  obtain ⟨task, htask, hrequest⟩ := h.requests n request List.mem_cons_self
  cases task with
  | done outcomes => nomatch hrequest
  | call request next =>
      obtain rfl := Option.some.inj hrequest
      have hcallers := h.callers
      rw [List.cons_append, List.map_cons, List.nodup_cons] at hcallers
      obtain ⟨hn, -⟩ := List.getElem?_eq_some_iff.mp htask
      rw [ClockedSystem.serve_eq_settle htask]
      exact (h.woken htask hcallers.1).settle (List.getElem?_set_self hn) hcallers.1

/-- Serving requests one after the other keeps it. -/
theorem serveAll (h : Shadowed m start spawned waiting finished s) :
    Shadowed m start spawned [] (finished ++ (s.serveAll waiting).1) (s.serveAll waiting).2 := by
  induction waiting generalizing finished s with
  | nil => simpa [ClockedSystem.serveAll] using h
  | cons entry waiting ih =>
      have hrest := ih h.serve
      rw [List.append_assoc] at hrest
      exact hrest

/-- An **edge** keeps it. -/
theorem edge (h : Shadowed m start spawned [] finished s) :
    Shadowed m start spawned [] (finished ++ s.edge.2.1) s.edge.2.2 := by
  rw [s.edge_eq_serveAll]
  refine serveAll { h with callers := ?_, requests := ?_ }
  · simpa using h.callers
  · simpa using h.requests

/-- A task that joins and has not begun keeps the invariant, if it shares no address with others. -/
theorem join (h : Shadowed m start spawned [] finished s) {acts : List Act}
    (hapart : ∀ others ∈ spawned, List.Disjoint (m.addresses others) (m.addresses acts)) :
    Shadowed m start (spawned ++ [acts]) [] finished
      { s with tasks := s.tasks ++ [m.performAll acts] } := by
  have hold {k : ℕ} {task : Task} (hk : s.tasks[k]? = some task) :
      (s.tasks ++ [m.performAll acts])[k]? = some task := by
    obtain ⟨hlt, -⟩ := List.getElem?_eq_some_iff.mp hk
    rw [List.getElem?_append_left hlt, hk]
  refine ⟨?_, by simp [h.count], ?_, h.callers, ?_, ?_, ?_, fun f hf => hold (h.finished_done f hf)⟩
  · refine List.pairwise_append.mpr ⟨h.apart, List.pairwise_singleton _ _, ?_⟩
    simpa using hapart
  · intro k others task hothers hk
    rcases Nat.lt_or_ge k s.tasks.length with hlt | hge
    · rw [List.getElem?_append_left (h.count ▸ hlt)] at hothers
      rw [List.getElem?_append_left hlt] at hk
      exact h.shadow k others task hothers hk
    · rw [List.getElem?_append_right (h.count ▸ hge), ← h.count] at hothers
      rw [List.getElem?_append_right hge] at hk
      obtain rfl := List.mem_singleton.mp (List.mem_of_getElem? hothers)
      obtain rfl := List.mem_singleton.mp (List.mem_of_getElem? hk)
      refine ⟨_, .initial (fun x hx => ?_) fun t ht hx => ?_⟩
      · exact h.untouched x fun others hothers hx' => hapart others hothers hx' hx
      · obtain ⟨others, hothers, hx'⟩ := h.logged t ht
        exact hapart others hothers hx' hx
  · intro k r hk
    obtain ⟨task, htask, hrequest⟩ := h.requests k r hk
    exact ⟨task, hold htask, hrequest⟩
  · intro x hx
    exact h.untouched x fun others hothers => hx others (List.mem_append_left _ hothers)
  · intro t ht
    obtain ⟨others, hothers, hx⟩ := h.logged t ht
    exact ⟨others, List.mem_append_left _ hothers, hx⟩

/-- A **new task** keeps the invariant, if it uses no address of another task. -/
theorem spawn (h : Shadowed m start spawned [] finished s) {acts : List Act}
    (hapart : ∀ others ∈ spawned, List.Disjoint (m.addresses others) (m.addresses acts)) :
    Shadowed m start (spawned ++ [acts]) [] (finished ++ (s.spawn (m.performAll acts)).2.1)
      (s.spawn (m.performAll acts)).2.2 := by
  refine (h.join hapart).settle (by simp) fun hwaits => ?_
  obtain ⟨⟨k, r⟩, hk, heq⟩ := List.mem_map.mp hwaits
  obtain ⟨task, htask, -⟩ := h.requests k r hk
  obtain ⟨hlt, -⟩ := List.getElem?_eq_some_iff.mp htask
  exact absurd heq (Nat.ne_of_lt hlt)

/-- A sequence of **steps** keeps it, if all their tasks use different addresses. -/
theorem steps (h : Shadowed m start spawned [] finished s) (steps : List ClockStep)
    (hapart : (spawned ++ ClockStep.spawned steps).Pairwise
      fun a b => List.Disjoint (m.addresses a) (m.addresses b)) :
    Shadowed m start (spawned ++ ClockStep.spawned steps) [] (finished ++ (s.steps m steps).1)
      (s.steps m steps).2 := by
  induction steps generalizing spawned finished s with
  | nil => simpa [ClockStep.spawned, ClockedSystem.steps] using h
  | cons step steps ih =>
      cases step with
      | spawn acts =>
          have hsplit : spawned ++ ClockStep.spawned (.spawn acts :: steps) =
              spawned ++ [acts] ++ ClockStep.spawned steps := by
            simp [ClockStep.spawned]
          rw [hsplit] at hapart ⊢
          have hnew := (List.pairwise_append.mp (List.pairwise_append.mp hapart).1).2.2
          have hnext := h.spawn fun others ho => hnew others ho acts (List.mem_singleton_self _)
          have hrest := ih hnext hapart
          rw [List.append_assoc finished] at hrest
          exact hrest
      | edge =>
          have hrest := ih h.edge hapart
          rw [List.append_assoc] at hrest
          exact hrest

end Shadowed

/-- **Independent tasks do not notice each other.** Whatever the steps, a finished task has the
outcomes that its acts have alone, and the transactions at its addresses are those of its acts
alone, on a plain bus with the same words. -/
theorem ClockedSystem.finished_agrees (m : Model) (words : Words) (steps : List ClockStep)
    (hapart : (ClockStep.spawned steps).Pairwise
      fun a b => List.Disjoint (m.addresses a) (m.addresses b)) :
    ∀ f ∈ (({ bus := { words } } : ClockedSystem).steps m steps).1,
      ∃ acts, (ClockStep.spawned steps)[f.number]? = some acts ∧
        f.outcomes = ((m.performAll acts).runOnMemory { words }).1 ∧
        (({ bus := { words } } : ClockedSystem).steps m steps).2.bus.log.filter
            (·.address ∈ m.addresses acts) =
          ((m.performAll acts).runOnMemory { words }).2.log := by
  intro f hf
  have hall := (Shadowed.initial m words).steps steps hapart
  rw [List.nil_append, List.nil_append] at hall
  have hdone := hall.finished_done f hf
  obtain ⟨acts, hacts⟩ := hall.exists_acts hdone
  obtain ⟨alone, halone⟩ := hall.shadow _ acts _ hacts hdone
  refine ⟨acts, hacts, ?_, ?_⟩
  · rw [← halone.rest_eq]
    rfl
  · rw [← halone.rest_eq, ← halone.log_eq]
    rfl

/-! ### Two tasks -/

namespace TwoTasks

/-- A register with one field. -/
def control : Register :=
  { name := "control", offset := 0, width := 32, access := .readWrite,
    fields := [{ name := "mode", bitOffset := 4, bitWidth := 4, access := .readWrite }] }

/-- A register without fields. -/
def status : Register := { name := "status", offset := 4, width := 32, access := .readOnly }

/-- A model of both registers. -/
def model : Model :=
  { memoryMaps := [{ name := "soc", blocks := [
      { name := "unit", baseOffset := 0, size := 8, registers := [control, status] }] }] }

/-- The acts of the first task. -/
def setMode : List Act := [⟨.path "unit.control", .writeField "mode" 5⟩]

/-- The acts of the second task. -/
def readTwice : List Act := [⟨.path "unit.status", .read⟩, ⟨.path "unit.status", .read⟩]

/-- The second task is started while the first one is between its read and its write. -/
def schedule : List ClockStep := [.spawn setMode, .edge, .spawn readTwice, .edge, .edge]

/-- The write of the first task and the first read of the second one are completed at the same edge,
and both tasks do what they would do alone. -/
theorem finished_agrees_schedule :
    (({ bus := {} } : ClockedSystem).steps model schedule).1 =
        [⟨0, [.ok none]⟩, ⟨1, [.ok (some 0), .ok (some 0)]⟩] ∧
      (({ bus := {} } : ClockedSystem).steps model schedule).2.bus.log =
        [.read 0 0, .write 0 0x50, .read 4 0, .read 4 0] ∧
      ∀ f ∈ (({ bus := {} } : ClockedSystem).steps model schedule).1,
        ∃ acts, (ClockStep.spawned schedule)[f.number]? = some acts ∧
          f.outcomes = ((model.performAll acts).runOnMemory {}).1 ∧
          (({ bus := {} } : ClockedSystem).steps model schedule).2.bus.log.filter
              (·.address ∈ model.addresses acts) =
            ((model.performAll acts).runOnMemory {}).2.log := by
  have hcontrol : model.addresses setMode = [0] := by decide
  have hstatus : model.addresses readTwice = [4, 4] := by decide
  have hapart : (ClockStep.spawned schedule).Pairwise
      fun a b => List.Disjoint (model.addresses a) (model.addresses b) := by
    simp [schedule, ClockStep.spawned, hcontrol, hstatus]
  exact ⟨rfl, rfl, ClockedSystem.finished_agrees model Words.zero schedule hapart⟩

end TwoTasks

end RegisterMap
