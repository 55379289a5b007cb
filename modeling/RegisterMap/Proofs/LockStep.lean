import Mathlib.Data.List.Sort
import RegisterMap.Proofs.Guarantees

/-!
# Lock Step

The tasks of a clocked system go in lock step. Whatever has happened, every task that is not done
has exactly one request in the queue, and the queue is in the order of the tasks. So an edge
completes one transaction of each of them, in that order, and none of them has to wait for another.

A task therefore takes as many edges as there are accesses in its acts. These are known beforehand:
no completed transaction returns an error, and without an error an act makes all of its accesses,
whatever words are read.

## Conventions

As in a history, tasks are woken one after the other, and the order is stated between any two of
these wakings: those that were woken already have queued their requests, and those that still wait
to be woken come behind them.

## Main results

* `History.InOrder.answer` — a task that is woken keeps its place.
* `History.InOrder.callers_eq` — the callers in the queue are the unfinished tasks.
* `Model.completes_performAll` — the accesses of acts.
* `lock_step` — the queue after any events, and the pace of a task.
-/

namespace RegisterMap

/-! ### Unfinished tasks -/

namespace ClockedSystem

/-- The tasks that have **no result yet**, by number. -/
def unfinished (s : ClockedSystem) : List ℕ :=
  (List.range s.tasks.length).filter fun n => s.tasks[n]?.any (·.result?.isNone)

variable {s : ClockedSystem} {n : ℕ}

/-- Unfinished tasks are listed in the order of their numbers. -/
theorem pairwise_unfinished (s : ClockedSystem) : s.unfinished.Pairwise (· < ·) :=
  List.pairwise_lt_range.filter _

/-- A task is unfinished if it **waits for a request**. -/
theorem mem_unfinished :
    n ∈ s.unfinished ↔ ∃ request next, s.tasks[n]? = some (.call request next) := by
  rw [unfinished, List.mem_filter, List.mem_range]
  constructor
  · rintro ⟨hlt, hresult⟩
    rw [List.getElem?_eq_getElem hlt] at hresult ⊢
    cases htask : s.tasks[n] with
    | done outcomes =>
        rw [htask] at hresult
        nomatch hresult
    | call request next => exact ⟨request, next, rfl⟩
  · rintro ⟨request, next, htask⟩
    obtain ⟨hlt, -⟩ := List.getElem?_eq_some_iff.mp htask
    exact ⟨hlt, by simp [htask, Script.result?]⟩

/-- A task that is woken queues a request **at most once**. -/
theorem exists_wake_queue (s : ClockedSystem) (n : ℕ) (answer : Answer) :
    ∃ callers, callers.Sublist [n] ∧
      (s.wake n answer).2.bus.queue.map Prod.fst = s.bus.queue.map Prod.fst ++ callers := by
  cases htask : s.tasks[n]? with
  | none => exact ⟨[], List.nil_sublist _, by simp [wake, htask]⟩
  | some task =>
      refine ⟨(task.resume answer).request?.toList.map fun _ => n, ?_, ?_⟩
      · cases (task.resume answer).request? with
        | none => exact List.nil_sublist _
        | some request => exact .refl _
      · rw [s.wake_eq_settle n task htask, settle_queue]
        simp

end ClockedSystem

/-! ### The order of the queue -/

namespace History

/-- **In order.** The callers in the queue, and then these tasks, which wait to be woken, come in
the order of their numbers. -/
def InOrder (waiting : List ℕ) (h : History) : Prop :=
  (h.system.bus.queue.map Prod.fst ++ waiting).Pairwise (· < ·)

/-- A request is in the queue if and only if **its task waits for it**. -/
theorem Consistent.mem_queue {m : Model} {h : History} (hc : Consistent m [] h) {n : ℕ}
    {request : Request} :
    (n, request) ∈ h.system.bus.queue ↔ ∃ next, h.system.tasks[n]? = some (.call request next) := by
  have hwaits := hc.waits n
  rw [List.nil_append] at hwaits
  rw [← mem_entriesOf, hwaits, Option.mem_toList, Option.bind_eq_some_iff]
  simp only [Script.request?_eq_some_iff]
  constructor
  · rintro ⟨task, htask, next, rfl⟩
    exact ⟨next, htask⟩
  · rintro ⟨next, htask⟩
    exact ⟨_, htask, next, rfl⟩

namespace InOrder

variable {m : Model} {h : History} {n : ℕ} {waiting : List ℕ}

/-- At first the queue is empty. -/
theorem initial (words : Words) : InOrder [] { system := { bus := { words } } } := List.Pairwise.nil

/-- A task that is **woken** keeps its place, or leaves it. -/
theorem answer (ho : InOrder (n :: waiting) h) (call : Call) :
    InOrder waiting (h.answer (n, call)) := by
  obtain ⟨callers, hcallers, hqueue⟩ := h.system.exists_wake_queue n call.answer
  -- Its next request goes behind those of the tasks before it, which were woken before it.
  have hsublist : (h.system.bus.queue.map Prod.fst ++ (callers ++ waiting)).Sublist
      (h.system.bus.queue.map Prod.fst ++ ([n] ++ waiting)) :=
    (List.Sublist.refl _).append (hcallers.append (.refl waiting))
  have hpairwise := List.Pairwise.sublist hsublist ho
  rwa [← List.append_assoc, ← hqueue] at hpairwise

/-- So do tasks that are woken one after the other. -/
theorem answerAll {calls : List (ℕ × Call)} (ho : InOrder (calls.map Prod.fst) h) :
    InOrder [] (h.answerAll calls) := by
  induction calls generalizing h with
  | nil => exact ho
  | cons entry calls ih => exact ih (ho.answer entry.2)

/-- Answering the **whole queue** keeps the order. -/
theorem release (ho : InOrder [] h) {bus : ClockedBus ℕ} (hempty : bus.queue = [])
    {calls : List (ℕ × Call)}
    (hcalls : calls.map (fun (n, call) => (n, call.request)) = h.system.bus.queue) :
    InOrder [] ((h.withBus bus).answerAll calls) := by
  refine answerAll ?_
  have hcallers : calls.map Prod.fst = h.system.bus.queue.map Prod.fst := by
    rw [← hcalls, List.map_map]
    rfl
  rw [InOrder, List.append_nil, ← hcallers] at ho
  rw [InOrder, withBus, hempty]
  exact ho

/-- A task that **joins** has the largest number. -/
theorem spawn (ho : InOrder [] h) (hc : Consistent m [] h) (acts : List Act) :
    InOrder [] (h.next m (.spawn acts)) := by
  have hlt : ∀ entry ∈ h.system.bus.queue, entry.1 < h.system.tasks.length := by
    intro entry hentry
    obtain ⟨next, htask⟩ := hc.mem_queue.mp hentry
    exact (List.getElem?_eq_some_iff.mp htask).1
  have hqueue : (h.next m (.spawn acts)).system.bus.queue = h.system.bus.queue ++
      (m.performAll acts).request?.toList.map (h.system.tasks.length, ·) :=
    ClockedSystem.settle_queue _ _ _
  rw [InOrder, List.append_nil] at ho ⊢
  rw [hqueue, List.map_append, List.pairwise_append]
  refine ⟨ho, ?_, ?_⟩
  · cases (m.performAll acts).request? with
    | none => exact .nil
    | some request => exact List.pairwise_singleton _ _
  · intro caller hcaller number hnumber
    obtain ⟨entry, hentry, rfl⟩ := List.mem_map.mp hcaller
    simp only [List.map_map, List.mem_map] at hnumber
    obtain ⟨request, -, rfl⟩ := hnumber
    exact hlt entry hentry

/-- An **event** keeps the order. -/
theorem next (ho : InOrder [] h) (hc : Consistent m [] h) (event : ClockEvent) :
    InOrder [] (h.next m event) := by
  cases event with
  | spawn acts => exact ho.spawn hc acts
  | edge =>
      rw [next_edge]
      exact ho.release rfl h.system.bus.requests_edgeCalls
  | halt =>
      rw [next_halt]
      exact ho.release rfl h.system.bus.requests_haltCalls
  | poke address word => exact ho

/-- The callers in the queue are **the unfinished tasks**. -/
theorem callers_eq (ho : InOrder [] h) (hc : Consistent m [] h) :
    h.system.bus.queue.map Prod.fst = h.system.unfinished := by
  rw [InOrder, List.append_nil] at ho
  refine ho.eq_of_mem_iff h.system.pairwise_unfinished fun n => ?_
  rw [ClockedSystem.mem_unfinished, List.mem_map]
  constructor
  · rintro ⟨⟨n, request⟩, hentry, rfl⟩
    exact ⟨request, hc.mem_queue.mp hentry⟩
  · rintro ⟨request, htask⟩
    exact ⟨(n, request), hc.mem_queue.mpr htask, rfl⟩

end InOrder

/-- The order is kept by **all events**. -/
theorem in_order (m : Model) (words : Words) (events : List ClockEvent) :
    InOrder [] (ofEvents m words events) :=
  (events.foldlRecOn (motive := fun h => InOrder [] h ∧ Consistent m [] h) (next m)
    ⟨.initial words, .initial m words⟩
    fun _ ⟨ho, hc⟩ event _ => ⟨ho.next hc event, hc.next event⟩).1

/-! ### Finished tasks -/

/-- **Reported.** Every task that is done has been reported with its outcomes. -/
def Reported (h : History) : Prop :=
  ∀ (n : ℕ) outcomes, h.system.tasks[n]? = some (.done outcomes) → ⟨n, outcomes⟩ ∈ h.finished

namespace Reported

variable {h : History} {n : ℕ}

/-- A task that **settles** is reported if it is done. -/
theorem settle {task : Task} (htask : h.system.tasks[n]? = some task)
    (hothers : ∀ k, n ≠ k → ∀ outcomes, h.system.tasks[k]? = some (.done outcomes) →
      ⟨k, outcomes⟩ ∈ h.finished) :
    Reported { h with
      system := (h.system.settle n task).2
      finished := h.finished ++ (h.system.settle n task).1.toList } := by
  intro k outcomes hk
  have htasks : (h.system.settle n task).2.tasks = h.system.tasks := h.system.settle_tasks n task
  simp only [htasks] at hk
  by_cases hne : n = k
  · subst hne
    obtain rfl := Option.some.inj (htask.symm.trans hk)
    exact List.mem_append_right _ (List.mem_singleton.mpr rfl)
  · exact List.mem_append_left _ (hothers k hne outcomes hk)

/-- A task that is **woken** is reported if it is done then. -/
theorem answer (hr : h.Reported) (entry : ℕ × Call) : (h.answer entry).Reported := by
  obtain ⟨n, call⟩ := entry
  cases htask : h.system.tasks[n]? with
  | none =>
      simp only [History.answer, ClockedSystem.wake, htask, Option.toList_none, List.append_nil]
      exact hr
  | some task =>
      obtain ⟨hn, -⟩ := List.getElem?_eq_some_iff.mp htask
      simp only [History.answer, h.system.wake_eq_settle n _ htask]
      refine settle (h := { h with
        system := { h.system with tasks := h.system.tasks.set n (task.resume call.answer) }
        calls := h.calls ++ [(n, call)] }) (List.getElem?_set_self hn)
        fun k hne outcomes hk => ?_
      exact hr k outcomes ((List.getElem?_set_ne hne).symm.trans hk)

/-- Reports are about tasks, whatever the bus is. -/
theorem withBus (hr : h.Reported) {bus : ClockedBus ℕ} : (h.withBus bus).Reported := hr

/-- Answering calls keeps reports. -/
theorem answerAll (hr : h.Reported) (calls : List (ℕ × Call)) : (h.answerAll calls).Reported :=
  calls.foldlRecOn History.answer hr fun _ hr entry _ => hr.answer entry

/-- An **event** keeps the reports complete. -/
theorem next (hr : h.Reported) (m : Model) (event : ClockEvent) : (h.next m event).Reported := by
  cases event with
  | spawn acts =>
      refine settle (h := { h with
        system := { h.system with tasks := h.system.tasks ++ [m.performAll acts] }
        spawned := h.spawned ++ [acts] }) List.getElem?_concat_length
        fun k hne outcomes hk => hr k outcomes ?_
      exact (getElem?_concat_of_ne hne _).symm.trans hk
  | edge =>
      rw [next_edge]
      exact hr.withBus.answerAll _
  | halt =>
      rw [next_halt]
      exact hr.withBus.answerAll _
  | poke address word => exact hr

end Reported

/-- **All events** keep the reports complete. -/
theorem reported (m : Model) (words : Words) (events : List ClockEvent) :
    (ofEvents m words events).Reported :=
  events.foldlRecOn (History.next m) (by simp [Reported]) fun _ hr event _ => hr.next m event

/-! ### The queue -/

/-- **In lock step.** What is true of the queue, and of the edge that comes next. -/
structure LockStep (m : Model) (h : History) : Prop where
  /-- There is exactly one request of every unfinished task, in the order of the tasks. -/
  callers : h.system.bus.queue.map Prod.fst = h.system.unfinished
  /-- It is the request that the task waits for. -/
  waited_for : ∀ n request, (n, request) ∈ h.system.bus.queue →
    ∃ next, h.system.tasks[n]? = some (.call request next)
  pending : h.system.bus.pending = h.system.unfinished.length
  /-- The other tasks have been reported with their outcomes. -/
  finished : ∀ n outcomes, ⟨n, outcomes⟩ ∈ h.finished ↔ h.system.tasks[n]? = some (.done outcomes)
  /-- An edge completes the request of every unfinished task, in the order of the tasks. -/
  edge : ∃ completed : List (ℕ × Transaction),
    completed.map (fun (n, t) => (n, t.request)) = h.system.bus.queue ∧
      h.system.edge.1 = completed.length ∧
      (h.next m .edge).system.bus.log = h.system.bus.log ++ completed.map (·.2) ∧
      (h.next m .edge).calls = h.calls ++ completed.map fun (n, t) => (n, .ofTransaction t)

/-- Tasks whose requests are in order go in lock step. -/
theorem InOrder.lockStep {m : Model} {h : History} (ho : InOrder [] h) (hc : Consistent m [] h)
    (hr : h.Reported) : h.LockStep m where
  callers := ho.callers_eq hc
  waited_for _ _ := hc.mem_queue.mp
  pending := by rw [← ho.callers_eq hc, List.length_map, ClockedBus.pending]
  finished n outcomes := ⟨fun hf => hc.finished_done _ hf, hr n outcomes⟩
  edge := by
    refine ⟨(ClockedBus.completeAll h.system.bus.words h.system.bus.queue).1,
      ClockedBus.requests_completeAll _ _, ?_, ClockedSystem.wakeAll_log _ _, rfl⟩
    exact List.length_map _

end History

/-! ### Accesses of acts -/

namespace Script

variable {α β : Type}

/-- **Completes.** As long as its requests are completed, a script makes these accesses, and then it
is done. -/
inductive Completes : List Direction → Script α → Prop where
  | done (result : α) : Completes [] (.done result)
  | call {request : Request} {next : Answer → Script α} {later : List Direction}
    (goes_on : ∀ word, Completes later (next (.ok word))) :
    Completes (request.direction :: later) (.call request next)

namespace Completes

variable {accesses later : List Direction} {s rest : Script α}

/-- One script **after another** makes the accesses of both. -/
theorem bind {f : α → Script β} (hs : Completes accesses s) (hf : ∀ a, Completes later (f a)) :
    Completes (accesses ++ later) (s.bind f) := by
  induction hs with
  | done a => exact hf a
  | call goes_on ih => exact .call ih

/-- Changing the result changes no access. -/
theorem map (hs : Completes accesses s) (f : α → β) : Completes accesses (s.map f) := by
  have hbind := hs.bind fun a => .done (f a)
  rwa [List.append_nil] at hbind

/-- A script is done when **no accesses are left**. -/
theorem done_iff (hs : Completes accesses s) : (∃ a, s = .done a) ↔ accesses.length = 0 := by
  cases hs <;> simp

/-- Until then it waits for one request. -/
theorem length_request? (hs : Completes accesses s) :
    s.request?.toList.length = min 1 accesses.length := by
  cases hs <;> simp

/-- After completed calls, the accesses of these **are behind** and the others are left. -/
theorem after {calls : List Call} (hs : Completes accesses s) (hafter : s.After calls rest)
    (hcompleted : ∀ call ∈ calls, ∃ word, call.answer = .ok word) :
    ∃ later, accesses = calls.map (·.request.direction) ++ later ∧ Completes later rest := by
  induction hafter generalizing accesses with
  | start s => exact ⟨accesses, rfl, hs⟩
  | call hafter ih =>
      obtain ⟨⟨word, rfl⟩, hcalls⟩ := List.forall_mem_cons.mp hcompleted
      cases hs with
      | call goes_on =>
          obtain ⟨later, rfl, hlater⟩ := ih (goes_on word) hcalls
          exact ⟨later, rfl, hlater⟩

end Completes

end Script

/-- A script that follows its accesses completes them. -/
theorem RegisterHandle.Follows.completes {h : RegisterHandle} {accesses : List Direction}
    {s : Script Outcome} (hf : h.Follows accesses s) : s.Completes accesses := by
  induction hf with
  | done result => exact .done _
  | call admitted ends goes_on ih => exact .call ih

namespace Model

/-- The **accesses of an act**, which are those of its operation. There are none if the target is
not found or the operation is refused. -/
def accesses (m : Model) (act : Act) : List Direction :=
  match m.handle act.target, m.perform act with
  | .ok h, .call _ _ => h.accesses act.operation
  | _, _ => []

/-- The accesses of acts, **one act after the other**. -/
def accessesOf (m : Model) (acts : List Act) : List Direction := acts.flatMap m.accesses

/-- An act **completes its accesses**, if its requests are completed. -/
theorem completes_perform (m : Model) (act : Act) : (m.perform act).Completes (m.accesses act) := by
  obtain ⟨e, hperform⟩ | ⟨h, hhandle, hperform⟩ := m.perform_cases act
  · rw [accesses, hperform]
    cases m.handle act.target <;> exact .done _
  · obtain ⟨e, hrefuses⟩ | hfollows := h.perform_follows act.operation
    · rw [accesses, hperform, hrefuses.perform_eq, hhandle]
      exact .done _
    · have hcompletes := hfollows.completes
      rw [accesses, hperform, hhandle]
      generalize h.perform act.operation = script at hcompletes ⊢
      cases script with
      | done outcome => exact .done _
      | call request next => exact hcompletes

/-- **Acts complete their accesses**, if their requests are completed. -/
theorem completes_performAll (m : Model) (acts : List Act) :
    (m.performAll acts).Completes (m.accessesOf acts) := by
  induction acts with
  | nil => exact .done []
  | cons act acts ih =>
      rw [accessesOf, List.flatMap_cons]
      exact (m.completes_perform act).bind fun outcome => ih.map _

end Model

/-! ### The pace of a task -/

/-- Whether an event is an edge of the clock. -/
def ClockEvent.isEdge : ClockEvent → Bool
  | edge => true
  | spawn _ | halt | poke _ _ => false

namespace History

/-- **Paced.** What is true of a task that performs these acts, so many edges after it was started,
if there was no halt. -/
structure Paced (m : Model) (acts : List Act) (n edges : ℕ) (h : History) : Prop where
  consistent : Consistent m [] h
  spawned : h.spawned[n]? = some acts
  completed : ∀ call ∈ entriesOf n h.calls, ∃ word, call.answer = .ok word
  /-- There was one call at each edge, until all accesses were made. -/
  made : (entriesOf n h.calls).length = min edges (m.accessesOf acts).length

namespace Paced

variable {m : Model} {acts : List Act} {n edges : ℕ} {h : History}

/-- A task that was **just started** has made no calls. -/
theorem start (hc : Consistent m [] h) (acts : List Act) :
    Paced m acts h.system.tasks.length 0 (h.next m (.spawn acts)) := by
  have hsilent : entriesOf h.system.tasks.length (h.next m (.spawn acts)).calls = [] :=
    hc.silent _ le_rfl
  refine ⟨hc.next _, ?_, by simp [hsilent], by simp [hsilent]⟩
  rw [hc.count]
  exact List.getElem?_concat_length

/-- The accesses of the task are **those of its calls**, and those that are left. -/
theorem exists_later (hp : Paced m acts n edges h) :
    ∃ task later, h.system.tasks[n]? = some task ∧ task.Completes later ∧
      m.accessesOf acts = (entriesOf n h.calls).map (·.request.direction) ++ later := by
  obtain ⟨hn, -⟩ := List.getElem?_eq_some_iff.mp hp.spawned
  have htask := List.getElem?_eq_getElem (hp.consistent.count ▸ hn)
  obtain ⟨later, haccesses, hlater⟩ := (m.completes_performAll acts).after
    (hp.consistent.after n acts _ hp.spawned htask) hp.completed
  exact ⟨_, later, htask, hlater, haccesses⟩

/-- So many accesses are left. -/
theorem exists_left (hp : Paced m acts n edges h) :
    ∃ task left, h.system.tasks[n]? = some task ∧ task.Completes left ∧
      (m.accessesOf acts).length = (entriesOf n h.calls).length + left.length := by
  obtain ⟨task, left, htask, hleft, haccesses⟩ := hp.exists_later
  refine ⟨task, left, htask, hleft, ?_⟩
  rw [haccesses, List.length_append, List.length_map]

/-- An edge answers **the request that the task waits for**. -/
theorem requests_edgeCalls (hc : Consistent m [] h) (n : ℕ) :
    (entriesOf n h.system.bus.edgeCalls).map (·.request) =
      (h.system.tasks[n]?.bind (·.request?)).toList := by
  rw [← entriesOf_map_snd, h.system.bus.requests_edgeCalls]
  exact hc.waits n

/-- An **edge** makes one more access, if one is left. -/
theorem edge (hp : Paced m acts n edges h) : Paced m acts n (edges + 1) (h.next m .edge) := by
  have hcalls : entriesOf n (h.next m .edge).calls =
      entriesOf n h.calls ++ entriesOf n h.system.bus.edgeCalls :=
    entriesOf_append _ _
  refine ⟨hp.consistent.next _, hp.spawned, ?_, ?_⟩
  · rw [hcalls]
    refine List.forall_mem_append.mpr ⟨hp.completed, fun call hcall => ?_⟩
    obtain ⟨⟨caller, t⟩, -, heq⟩ := List.mem_map.mp (mem_entriesOf.mp hcall)
    obtain ⟨-, rfl⟩ := Prod.mk.inj heq
    exact ⟨_, rfl⟩
  · obtain ⟨task, left, htask, hleft, hlength⟩ := hp.exists_left
    have hedge := congrArg List.length (requests_edgeCalls hp.consistent n)
    rw [htask, Option.bind_some, hleft.length_request?, List.length_map] at hedge
    have hmade := hp.made
    rw [hcalls, List.length_append, hedge]
    omega

/-- **Anything but a halt** keeps the pace. -/
theorem next (hp : Paced m acts n edges h) {event : ClockEvent} (hevent : event ≠ .halt) :
    Paced m acts n (edges + [event].countP ClockEvent.isEdge) (h.next m event) := by
  cases event with
  | spawn others =>
      refine ⟨hp.consistent.next _, ?_, hp.completed, hp.made⟩
      obtain ⟨hn, -⟩ := List.getElem?_eq_some_iff.mp hp.spawned
      exact (List.getElem?_append_left hn).trans hp.spawned
  | edge => exact hp.edge
  | halt => exact absurd rfl hevent
  | poke address word => exact ⟨hp.consistent.next _, hp.spawned, hp.completed, hp.made⟩

/-- So the pace is kept by **all events** without a halt. -/
theorem events (hp : Paced m acts n edges h) {later : List ClockEvent} (hlater : .halt ∉ later) :
    Paced m acts n (edges + later.countP ClockEvent.isEdge) (later.foldl (History.next m) h) := by
  induction later generalizing h edges with
  | nil => exact hp
  | cons event later ih =>
      -- Every event but an edge leaves the number of edges alone.
      have hevent : event ≠ .halt := fun heq => hlater (heq ▸ List.mem_cons_self)
      rw [← List.singleton_append, List.countP_append, ← Nat.add_assoc]
      exact ih (hp.next hevent) fun hmem => hlater (List.mem_cons_of_mem _ hmem)

/-- The calls of the task are its **first accesses**. -/
theorem directions (hp : Paced m acts n edges h) :
    (entriesOf n h.calls).map (·.request.direction) = (m.accessesOf acts).take edges := by
  obtain ⟨task, later, -, -, haccesses⟩ := hp.exists_later
  rw [List.take_eq_take_min, ← hp.made, haccesses]
  exact (List.take_left' (List.length_map _)).symm

/-- The task is done when **all its accesses** were made. -/
theorem done_iff (hp : Paced m acts n edges h) :
    (∃ outcomes, h.system.tasks[n]? = some (.done outcomes)) ↔
      (m.accessesOf acts).length ≤ edges := by
  obtain ⟨task, left, htask, hleft, hlength⟩ := hp.exists_left
  have hmade := hp.made
  simp only [htask, Option.some.injEq, hleft.done_iff]
  omega

end Paced

end History

/-- **Tasks go in lock step.** After any events, the queue has exactly one request of every
unfinished task, in the order of the tasks, and the next edge completes them all. A task that is
started then has made as many of its accesses as there were edges since, if there was no halt, and
is finished as soon as it has made them all, whatever other tasks there are. -/
theorem lock_step (m : Model) (words : Words) (events : List ClockEvent) :
    (History.ofEvents m words events).LockStep m ∧
      ∀ (acts : List Act) (later : List ClockEvent), .halt ∉ later →
        let n := (History.ofEvents m words events).system.tasks.length
        let history := History.ofEvents m words (events ++ .spawn acts :: later)
        let edges := later.countP ClockEvent.isEdge
        (entriesOf n history.calls).map (·.request.direction) = (m.accessesOf acts).take edges ∧
          ((∃ outcomes, ⟨n, outcomes⟩ ∈ history.finished) ↔
            (m.accessesOf acts).length ≤ edges) := by
  have hlock (events : List ClockEvent) : (History.ofEvents m words events).LockStep m :=
    (History.in_order m words events).lockStep (History.consistent m words events)
      (History.reported m words events)
  refine ⟨hlock events, fun acts later hlater => ?_⟩
  have hpaced := (History.Paced.start (History.consistent m words events) acts).events hlater
  have hrun : History.ofEvents m words (events ++ .spawn acts :: later) =
      later.foldl (History.next m) ((History.ofEvents m words events).next m (.spawn acts)) :=
    List.foldl_append
  rw [← hrun, Nat.zero_add] at hpaced
  exact ⟨hpaced.directions, (exists_congr ((hlock _).finished _)).trans hpaced.done_iff⟩

namespace Mailbox

/-- The first task has made one of its two accesses. -/
def underWay : List ClockEvent := [.spawn [setMode], .edge]

/-- A third task is started between the edges of the second one. -/
def joined : List ClockEvent := [.edge, .spawn [setMode], .edge]

/-- Three accesses take three edges, beside two other tasks. -/
theorem lock_step_joined :
    (History.ofEvents model Words.zero underWay).system.bus.queue = [(0, .write 0 80)] ∧
      (History.ofEvents model Words.zero underWay).LockStep model ∧
      (¬∃ outcomes, ⟨1, outcomes⟩ ∈
        (History.ofEvents model Words.zero (underWay ++ .spawn sendAndRead :: joined)).finished) ∧
      ∃ outcomes, ⟨1, outcomes⟩ ∈ (History.ofEvents model Words.zero
        (underWay ++ .spawn sendAndRead :: (joined ++ [.edge]))).finished := by
  obtain ⟨hlock, hpace⟩ := lock_step model Words.zero underWay
  have htwo := (hpace sendAndRead joined (by simp [joined])).2
  have hthree := (hpace sendAndRead (joined ++ [.edge]) (by simp [joined])).2
  exact ⟨rfl, hlock, mt htwo.mp (by decide), hthree.mpr (by decide)⟩

end Mailbox

end RegisterMap
