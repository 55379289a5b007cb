import RegisterMap.Proofs.Calls
import RegisterMap.Proofs.Interleaving

/-!
# Histories of a Clocked System

Tasks may start, the clock may tick, the bus may halt and words may be stored from outside, in any
order. A **history** keeps, beside the system, the acts of every task and the calls that were
answered, each with the number of its task.

The history of the whole system is a history of every task in it: its calls are calls of the script
of its acts, what is left of it is what is left of the script after them, and the request that it
waits for, if there is one, is its only request in the queue.

## Conventions

An edge or a halt answers the whole queue, and the tasks are woken one after the other. A task that
is woken may queue another request. The invariant is stated between any two of these wakings, where
some answered requests still wait for their task to be woken.

## Main results

* `History.consistent` — the invariant, for every sequence of events.
* `History.logged` — the log of the bus consists of the completed calls.
* `History.exists_episodes` — the calls of a task are divided into episodes of its acts, and so are
  its requests.
-/

namespace RegisterMap

/-! ### Entries of a task -/

/-- The entries of task `n` in a list with the numbers of tasks. -/
def entriesOf {β : Type} (n : ℕ) (entries : List (ℕ × β)) : List β :=
  entries.filterMap fun (number, entry) => if number = n then some entry else none

section EntriesOf

variable {β : Type} {n k : ℕ}

@[simp] theorem entriesOf_nil : entriesOf n ([] : List (ℕ × β)) = [] := rfl

/-- The entries of a task in two lists are those in the one, then those in the other. -/
@[simp] theorem entriesOf_append (entries others : List (ℕ × β)) :
    entriesOf n (entries ++ others) = entriesOf n entries ++ entriesOf n others :=
  List.filterMap_append

/-- An entry of the task comes first. -/
@[simp] theorem entriesOf_cons_self (entry : β) (entries : List (ℕ × β)) :
    entriesOf n ((n, entry) :: entries) = entry :: entriesOf n entries := by
  simp [entriesOf]

/-- An entry of **another task** does not count. -/
theorem entriesOf_cons_of_ne (h : n ≠ k) (entry : β) (entries : List (ℕ × β)) :
    entriesOf k ((n, entry) :: entries) = entriesOf k entries := by
  simp [entriesOf, h]

/-- Entries that are all of one task are all of its entries. -/
@[simp] theorem entriesOf_map_self (entries : List β) :
    entriesOf n (entries.map (n, ·)) = entries := by
  induction entries with
  | nil => rfl
  | cons entry entries ih => rw [List.map_cons, entriesOf_cons_self, ih]

/-- No other task has any of them. -/
theorem entriesOf_map_of_ne (h : n ≠ k) (entries : List β) :
    entriesOf k (entries.map (n, ·)) = [] := by
  induction entries with
  | nil => rfl
  | cons entry entries ih => rw [List.map_cons, entriesOf_cons_of_ne h, ih]

/-- An entry is one of a task if it has **its number**. -/
theorem mem_entriesOf {entry : β} {entries : List (ℕ × β)} :
    entry ∈ entriesOf n entries ↔ (n, entry) ∈ entries := by
  simp [entriesOf]

/-- Changing entries leaves them with their tasks. -/
theorem entriesOf_map_snd {γ : Type} (f : β → γ) (entries : List (ℕ × β)) :
    entriesOf n (entries.map fun (number, entry) => (number, f entry)) =
      (entriesOf n entries).map f := by
  induction entries with
  | nil => rfl
  | cons entry entries ih =>
      obtain ⟨number, entry⟩ := entry
      by_cases h : number = n
      · subst h
        simp [ih]
      · simp [entriesOf_cons_of_ne h, ih]

end EntriesOf

/-! ### Answered calls -/

namespace ClockedBus

variable {Caller : Type} (b : ClockedBus Caller)

/-- The calls that an edge answers. -/
def edgeCalls : List (Caller × Call) :=
  (completeAll b.words b.queue).1.map fun (caller, t) => (caller, .ofTransaction t)

/-- The calls that a halt answers. -/
def haltCalls : List (Caller × Call) :=
  b.queue.map fun (caller, request) => (caller, .dropped request)

/-- A completed request is logged **as it is**. -/
theorem request_transact (words : Words) (request : Request) :
    (transact words request).1.request = request := by
  cases request <;> rfl

/-- What is completed is **what was queued**. -/
theorem requests_completeAll (words : Words) (queue : List (Caller × Request)) :
    (completeAll words queue).1.map (fun (caller, t) => (caller, t.request)) = queue := by
  induction queue generalizing words with
  | nil => rfl
  | cons entry queue ih => simp [completeAll, request_transact, ih]

/-- An edge answers what was queued. -/
theorem requests_edgeCalls :
    b.edgeCalls.map (fun (caller, call) => (caller, call.request)) = b.queue := by
  rw [edgeCalls, List.map_map]
  exact requests_completeAll b.words b.queue

/-- The calls of an edge are answered **as the bus answers them**. -/
theorem answers_edgeCalls :
    b.edgeCalls.map (fun (caller, call) => (caller, call.answer)) = b.edge.1 := by
  simp [edgeCalls, edge, Call.ofTransaction]

/-- What an edge answers is **logged**. -/
theorem log_edge : b.edge.2.log = b.log ++ Call.completed (b.edgeCalls.map (·.2)) := by
  simp [edge, edgeCalls, Call.completed, List.filterMap_map, Function.comp_def]

/-- A halt answers what was queued. -/
theorem requests_haltCalls :
    b.haltCalls.map (fun (caller, call) => (caller, call.request)) = b.queue := by
  rw [haltCalls, List.map_map]
  exact List.map_id b.queue

/-- So are the calls that a halt drops. -/
theorem answers_haltCalls :
    b.haltCalls.map (fun (caller, call) => (caller, call.answer)) = b.halt.1 := by
  simp [haltCalls, halt, Call.dropped]

/-- What a halt answers was **not completed**. -/
theorem completed_haltCalls : Call.completed (b.haltCalls.map (·.2)) = [] := by
  rw [haltCalls, List.map_map, Call.completed, List.filterMap_map]
  exact List.filterMap_eq_nil_iff.mpr fun entry _ => Call.transaction?_dropped entry.2

end ClockedBus

/-! ### Settling -/

/-- A new entry behind a list does not change the other positions. -/
theorem getElem?_concat_of_ne {β : Type} {entries : List β} {k : ℕ} (hne : entries.length ≠ k)
    (entry : β) : (entries ++ [entry])[k]? = entries[k]? := by
  rcases Nat.lt_or_gt_of_ne hne with hlt | hgt
  · rw [List.getElem?_eq_none hlt.le, List.getElem?_eq_none]
    simpa [Nat.succ_le_iff] using hlt
  · exact List.getElem?_append_left hgt

namespace ClockedSystem

variable (s : ClockedSystem) (n : ℕ) (task : Task)

/-- Settling a task leaves the tasks as they are. -/
theorem settle_tasks : (s.settle n task).2.tasks = s.tasks := by cases task <;> rfl

/-- A task that settles **queues the request** that it waits for. -/
theorem settle_queue :
    (s.settle n task).2.bus.queue = s.bus.queue ++ task.request?.toList.map (n, ·) := by
  cases task with
  | done outcomes => exact (List.append_nil _).symm
  | call request next => rfl

/-- It leaves the log as it is. -/
theorem settle_log : (s.settle n task).2.bus.log = s.bus.log := by cases task <;> rfl

/-- A task that finishes is done. -/
theorem of_mem_settle {f : FinishedTask} (hf : f ∈ (s.settle n task).1.toList) :
    f.number = n ∧ task = .done f.outcomes := by
  cases task with
  | done outcomes =>
      obtain rfl := List.mem_singleton.mp hf
      exact ⟨rfl, rfl⟩
  | call request next => nomatch hf

/-- Waking a task is **resuming and settling** it. -/
theorem wake_eq_settle {answer : Answer} (htask : s.tasks[n]? = some task) :
    s.wake n answer =
      ({ s with tasks := s.tasks.set n (task.resume answer) } : ClockedSystem).settle n
        (task.resume answer) := by
  rw [wake, htask]

/-- Waking tasks does not show in the log. -/
theorem wakeAll_log (answers : List (ℕ × Answer)) : (s.wakeAll answers).2.bus.log = s.bus.log := by
  induction answers generalizing s with
  | nil => rfl
  | cons entry answers ih => exact (ih _).trans (s.wake_store entry.1 entry.2).2

end ClockedSystem

/-! ### Histories -/

/-- What can **happen to a clocked system**. -/
inductive ClockEvent where
  /-- A task is started that performs these acts. -/
  | spawn (acts : List Act)
  | edge
  | halt
  /-- A word is stored without a request. -/
  | poke (address : Address) (word : Word)

/-- A clocked system, and **what has happened** to it. -/
structure History where
  system : ClockedSystem := {}
  /-- The acts of the tasks, by number. -/
  spawned : List (List Act) := []
  /-- The calls that were answered, in order, with the numbers of the tasks. -/
  calls : List (ℕ × Call) := []
  finished : List FinishedTask := []

namespace History

/-- The history after an **event**. -/
def next (m : Model) (h : History) : ClockEvent → History
  | .spawn acts =>
    let (_, finished, system) := h.system.spawn (m.performAll acts)
    { h with system, spawned := h.spawned ++ [acts], finished := h.finished ++ finished }
  | .edge =>
    let (_, finished, system) := h.system.edge
    { h with
      system
      calls := h.calls ++ h.system.bus.edgeCalls
      finished := h.finished ++ finished }
  | .halt =>
    let (finished, system) := h.system.halt
    { h with
      system
      calls := h.calls ++ h.system.bus.haltCalls
      finished := h.finished ++ finished }
  | .poke address word => { h with system := h.system.poke address word }

/-- The history of **these events**, from a bus that stores these words. -/
def ofEvents (m : Model) (words : Words) (events : List ClockEvent) : History :=
  events.foldl (next m) { system := { bus := { words } } }

/-- The requests of task `n`: those that were answered, and the one in the queue. -/
def requestsOf (h : History) (n : ℕ) : List Request :=
  (entriesOf n h.calls).map (·.request) ++ entriesOf n h.system.bus.queue

/-! ### Waking tasks -/

/-- The history after task `n` was woken by the answer to its call. -/
def answer (h : History) (entry : ℕ × Call) : History :=
  let (finished, system) := h.system.wake entry.1 entry.2.answer
  { h with system, calls := h.calls ++ [entry], finished := h.finished ++ finished.toList }

/-- The history after tasks were woken one after the other. -/
def answerAll (h : History) (calls : List (ℕ × Call)) : History := calls.foldl answer h

/-- Answering calls wakes their tasks, **in the order of the calls**, and notes the calls. -/
theorem answerAll_eq (h : History) (calls : List (ℕ × Call)) :
    h.answerAll calls =
      let (finished, system) := h.system.wakeAll (calls.map fun (n, call) => (n, call.answer))
      { h with system, calls := h.calls ++ calls, finished := h.finished ++ finished } := by
  induction calls generalizing h with
  | nil => simp [answerAll, ClockedSystem.wakeAll]
  | cons entry calls ih =>
      rw [answerAll, List.foldl_cons, ← answerAll, ih]
      simp [answer, ClockedSystem.wakeAll]

/-- The same history with another bus. -/
def withBus (h : History) (bus : ClockedBus ℕ) : History :=
  { h with system := { h.system with bus } }

/-- After an edge, the calls of the queue are answered by the bus. -/
theorem next_edge (m : Model) (h : History) :
    h.next m .edge = (h.withBus h.system.bus.edge.2).answerAll h.system.bus.edgeCalls := by
  rw [answerAll_eq, h.system.bus.answers_edgeCalls]
  rfl

/-- After a halt, the calls of the queue are **dropped**, and their callers learn of it. -/
theorem next_halt (m : Model) (h : History) :
    h.next m .halt = (h.withBus h.system.bus.halt.2).answerAll h.system.bus.haltCalls := by
  rw [answerAll_eq, h.system.bus.answers_haltCalls]
  rfl

/-! ### The invariant -/

/-- **What is true of a history** in which these answered requests still wait for their task to be
woken. -/
structure Consistent (m : Model) (waiting : List (ℕ × Request)) (h : History) : Prop where
  count : h.system.tasks.length = h.spawned.length
  /-- Every task is what its calls have left of its acts. -/
  after : ∀ (n : ℕ) acts task, h.spawned[n]? = some acts → h.system.tasks[n]? = some task →
    (m.performAll acts).After (entriesOf n h.calls) task
  /-- A task waits for its only request. -/
  waits : ∀ n : ℕ, entriesOf n (waiting ++ h.system.bus.queue) =
    (h.system.tasks[n]?.bind (·.request?)).toList
  /-- No calls are made but by tasks. -/
  silent : ∀ n, h.system.tasks.length ≤ n → entriesOf n h.calls = []
  finished_done : ∀ f ∈ h.finished, h.system.tasks[f.number]? = some (.done f.outcomes)

namespace Consistent

variable {m : Model} {waiting : List (ℕ × Request)} {h : History} {n : ℕ}

/-- At first there are no tasks. -/
theorem initial (m : Model) (words : Words) :
    Consistent m [] { system := { bus := { words } } } where
  count := rfl
  after := by simp
  waits := by simp
  silent := by simp
  finished_done := by simp

/-- A task whose request waits **settles**: it finishes, or its request is queued. -/
theorem settle {task : Task}
    (hc : Consistent m (task.request?.toList.map (n, ·) ++ waiting) h)
    (htask : h.system.tasks[n]? = some task) :
    Consistent m waiting { h with
      system := (h.system.settle n task).2
      finished := h.finished ++ (h.system.settle n task).1.toList } := by
  have htasks : (h.system.settle n task).2.tasks = h.system.tasks := h.system.settle_tasks n task
  have hqueue := h.system.settle_queue n task
  refine ⟨htasks ▸ hc.count, ?_, fun k => ?_, ?_, ?_⟩
  · simpa only [htasks] using hc.after
  · have hwaits := hc.waits k
    by_cases hne : n = k
    · subst hne
      have hidle : entriesOf n (waiting ++ h.system.bus.queue) = [] := by
        simpa [htask] using hwaits
      simp only [htasks, hqueue]
      rw [← List.append_assoc, entriesOf_append, hidle]
      simp [htask]
    · simpa [htasks, hqueue, entriesOf_map_of_ne hne] using hwaits
  · simpa only [htasks] using hc.silent
  · intro f hf
    simp only [htasks]
    rcases List.mem_append.mp hf with hf | hf
    · exact hc.finished_done f hf
    · obtain ⟨rfl, rfl⟩ := h.system.of_mem_settle n task hf
      exact htask

/-- An answered task goes on to **its next request**. -/
theorem resume {call : Call} {next : Answer → Task}
    (hc : Consistent m ((n, call.request) :: waiting) h)
    (htask : h.system.tasks[n]? = some (.call call.request next)) :
    Consistent m ((next call.answer).request?.toList.map (n, ·) ++ waiting) { h with
      system := { h.system with tasks := h.system.tasks.set n (next call.answer) }
      calls := h.calls ++ [(n, call)] } := by
  obtain ⟨hn, -⟩ := List.getElem?_eq_some_iff.mp htask
  have hself : (h.system.tasks.set n (next call.answer))[n]? = some (next call.answer) :=
    List.getElem?_set_self hn
  have hasleep {k : ℕ} (hne : n ≠ k) :
      (h.system.tasks.set n (next call.answer))[k]? = h.system.tasks[k]? :=
    List.getElem?_set_ne hne
  refine ⟨(List.length_set ..).trans hc.count, fun k acts task hacts hk => ?_, fun k => ?_,
    fun k hk => ?_, fun f hf => ?_⟩
  · by_cases hne : n = k
    · subst hne
      obtain rfl := Option.some.inj (hself.symm.trans hk)
      simpa using (hc.after n acts _ hacts htask).snoc call.answer
    · rw [hasleep hne] at hk
      simpa [entriesOf_cons_of_ne hne] using hc.after k acts task hacts hk
  · have hwaits := hc.waits k
    by_cases hne : n = k
    · subst hne
      have hidle : entriesOf n (waiting ++ h.system.bus.queue) = [] := by
        simpa [htask] using hwaits
      rw [List.append_assoc, entriesOf_append, hidle]
      simp [hself]
    · simpa [entriesOf_cons_of_ne hne, entriesOf_map_of_ne hne, hasleep hne] using hwaits
  · have hk : h.system.tasks.length ≤ k := (List.length_set ..).symm.trans_le hk
    have hne : n ≠ k := by omega
    simpa [entriesOf_cons_of_ne hne] using hc.silent k hk
  · have hdone := hc.finished_done f hf
    have hne : n ≠ f.number := by
      rintro rfl
      rw [htask] at hdone
      nomatch hdone
    exact (hasleep hne).trans hdone

/-- A request that waits is the one **its task waits for**. -/
theorem exists_next {request : Request} (hc : Consistent m ((n, request) :: waiting) h) :
    ∃ next, h.system.tasks[n]? = some (.call request next) := by
  have hwaits := hc.waits n
  rw [List.cons_append, entriesOf_cons_self] at hwaits
  have hrequest : h.system.tasks[n]?.bind (·.request?) = some request :=
    Option.mem_toList.mp (hwaits ▸ List.mem_cons_self)
  obtain ⟨task, htask, hrequest⟩ := Option.bind_eq_some_iff.mp hrequest
  obtain ⟨next, rfl⟩ := Script.request?_eq_some_iff.mp hrequest
  exact ⟨next, htask⟩

/-- **Waking** a task keeps the invariant; its request does not wait any more. -/
theorem answer {call : Call} (hc : Consistent m ((n, call.request) :: waiting) h) :
    Consistent m waiting (h.answer (n, call)) := by
  obtain ⟨next, htask⟩ := hc.exists_next
  obtain ⟨hn, -⟩ := List.getElem?_eq_some_iff.mp htask
  simp only [History.answer, h.system.wake_eq_settle n _ htask]
  exact (hc.resume htask).settle (List.getElem?_set_self hn)

/-- Waking tasks one after the other keeps it. -/
theorem answerAll {calls : List (ℕ × Call)}
    (hc : Consistent m (calls.map fun (n, call) => (n, call.request)) h) :
    Consistent m [] (h.answerAll calls) := by
  induction calls generalizing h with
  | nil => exact hc
  | cons entry calls ih => exact ih hc.answer

/-- Answering the **whole queue** keeps it. -/
theorem release (hc : Consistent m [] h) {bus : ClockedBus ℕ} (hempty : bus.queue = [])
    {calls : List (ℕ × Call)}
    (hcalls : calls.map (fun (n, call) => (n, call.request)) = h.system.bus.queue) :
    Consistent m [] ((h.withBus bus).answerAll calls) := by
  refine answerAll { hc with waits := fun n => ?_ }
  rw [hcalls, withBus, hempty, List.append_nil]
  exact hc.waits n

/-- A task that **joins** and has not begun keeps it. -/
theorem join (hc : Consistent m [] h) (acts : List Act) :
    Consistent m ((m.performAll acts).request?.toList.map (h.system.tasks.length, ·) ++ []) { h with
      system := { h.system with tasks := h.system.tasks ++ [m.performAll acts] }
      spawned := h.spawned ++ [acts] } := by
  have hnew : (h.system.tasks ++ [m.performAll acts])[h.system.tasks.length]? =
      some (m.performAll acts) :=
    List.getElem?_concat_length
  have hold {k : ℕ} (hne : h.system.tasks.length ≠ k) :
      (h.system.tasks ++ [m.performAll acts])[k]? = h.system.tasks[k]? :=
    getElem?_concat_of_ne hne _
  refine ⟨by simp [hc.count], fun k others left hothers hk => ?_, fun k => ?_, fun k hk => ?_,
    fun f hf => ?_⟩
  · by_cases hne : h.system.tasks.length = k
    · subst hne
      obtain rfl := Option.some.inj (hnew.symm.trans hk)
      rw [hc.count, List.getElem?_concat_length] at hothers
      obtain rfl := Option.some.inj hothers
      exact hc.silent _ le_rfl ▸ .start _
    · rw [hold hne] at hk
      obtain ⟨hlt, -⟩ := List.getElem?_eq_some_iff.mp hk
      rw [List.getElem?_append_left (hc.count ▸ hlt)] at hothers
      exact hc.after k others left hothers hk
  · have hwaits := hc.waits k
    by_cases hne : h.system.tasks.length = k
    · subst hne
      have hidle : entriesOf h.system.tasks.length h.system.bus.queue = [] := by
        simpa using hwaits
      simp [hidle]
    · simpa [entriesOf_map_of_ne hne, hold hne] using hwaits
  · refine hc.silent k ?_
    rw [List.length_append] at hk
    omega
  · have hdone := hc.finished_done f hf
    obtain ⟨hlt, -⟩ := List.getElem?_eq_some_iff.mp hdone
    exact (hold hlt.ne').trans hdone

/-- An **event** keeps it. -/
theorem next (hc : Consistent m [] h) (event : ClockEvent) : Consistent m [] (h.next m event) := by
  cases event with
  | spawn acts => exact (hc.join acts).settle (by simp)
  | edge =>
      rw [next_edge]
      exact hc.release rfl h.system.bus.requests_edgeCalls
  | halt =>
      rw [next_halt]
      exact hc.release rfl h.system.bus.requests_haltCalls
  | poke address word => exact { hc with }

end Consistent

/-- The invariant holds after **all events**. -/
theorem consistent (m : Model) (words : Words) (events : List ClockEvent) :
    Consistent m [] (ofEvents m words events) :=
  events.foldlRecOn (next m) (.initial m words) fun _ hc event _ => hc.next event

/-! ### The log -/

/-- The log of the bus consists of **the completed calls**. -/
def Logged (h : History) : Prop := h.system.bus.log = Call.completed (h.calls.map (·.2))

/-- Answering what `bus` has logged already keeps the log complete. -/
theorem Logged.release {h : History} (hlog : h.Logged) {bus : ClockedBus ℕ}
    {calls : List (ℕ × Call)}
    (hbus : bus.log = h.system.bus.log ++ Call.completed (calls.map (·.2))) :
    ((h.withBus bus).answerAll calls).Logged := by
  rw [answerAll_eq]
  refine (ClockedSystem.wakeAll_log _ _).trans (hbus.trans ?_)
  rw [hlog, ← Call.completed_append, ← List.map_append]
  rfl

/-- An event keeps the log complete. -/
theorem Logged.next {h : History} (hlog : h.Logged) (m : Model) (event : ClockEvent) :
    (h.next m event).Logged := by
  cases event with
  | spawn acts => exact (ClockedSystem.settle_log _ _ _).trans hlog
  | edge =>
      rw [next_edge]
      exact hlog.release h.system.bus.log_edge
  | halt =>
      rw [next_halt]
      refine hlog.release ?_
      rw [ClockedBus.completed_haltCalls, List.append_nil]
      rfl
  | poke address word => exact hlog

/-- The log is complete after **all events**. -/
theorem logged (m : Model) (words : Words) (events : List ClockEvent) :
    (ofEvents m words events).Logged :=
  events.foldlRecOn (History.next m) rfl fun _ hlog event _ => hlog.next m event

/-! ### Tasks -/

section Tasks

variable {m : Model} {words : Words} {events : List ClockEvent} {n : ℕ}

/-- The calls of a task are divided into **episodes of its acts**, and so are its requests. -/
theorem exists_episodes {acts : List Act} {task : Task}
    (hacts : (ofEvents m words events).spawned[n]? = some acts)
    (htask : (ofEvents m words events).system.tasks[n]? = some task) :
    ∃ episodes, m.Episodes acts (entriesOf n (ofEvents m words events).calls) task episodes ∧
      episodes.flatMap (·.issued) = (ofEvents m words events).requestsOf n := by
  have hc := consistent m words events
  obtain ⟨episodes, he⟩ := m.exists_episodes (hc.after n acts task hacts htask)
  refine ⟨episodes, he, ?_⟩
  have hwaits := hc.waits n
  rw [htask, List.nil_append] at hwaits
  rw [he.issued_eq, requestsOf, hwaits]
  rfl

/-- Nothing is requested but **by tasks**. -/
theorem requestsOf_eq_nil (hn : (ofEvents m words events).system.tasks.length ≤ n) :
    (ofEvents m words events).requestsOf n = [] := by
  have hc := consistent m words events
  have hwaits := hc.waits n
  rw [List.getElem?_eq_none hn, List.nil_append] at hwaits
  rw [requestsOf, hc.silent n hn, hwaits]
  rfl

end Tasks

end History

end RegisterMap
