import Mathlib.Data.List.Induction
import RegisterMap.Proofs.Histories

/-!
# Runs of a Clocked Bus

Callers submit requests to a clocked bus, in any number and at any time, while its clock ticks, the
bus halts and words are stored from outside. Whatever the order of these steps, the bus is a
first-in, first-out queue in front of a store: requests leave the queue in the order in which they
came, either by being completed at an edge or by being dropped at a halt, and what was completed
reads and writes the stored words one after the other.

## Conventions

A run records what can be seen of the bus: the answers that it gives, and the accesses to its store,
which are the transactions that enter the log and the words that are stored from outside. What has
to become of a submission is read off the steps alone: the first edge or halt after it ends it.

## Main results

* `submissions_concat` — what a step does to the submissions before it.
* `replay_eq_latest` — a replay leaves the latest word at every address.
* `BusRun.Linear.next` — the invariant, for every step.
* `clocked_bus_linear` — the invariant, for every run.
-/

namespace RegisterMap

variable {Caller : Type}

/-! ### Submissions -/

/-- One **step** of a run of a clocked bus. -/
inductive BusStep (Caller : Type) where
  | submit (caller : Caller) (request : Request)
  | edge
  | halt
  /-- A word is stored without a request. -/
  | poke (address : Address) (word : Word)

/-- How a request **stops waiting**. -/
inductive Ending where
  | completed
  | dropped
deriving DecidableEq

/-- A **submitted request**, and how it ended if it does not wait any more. -/
structure Submission (Caller : Type) where
  caller : Caller
  request : Request
  ending : Option Ending

namespace BusStep

/-- How a step ends the requests that wait. -/
def ending? : BusStep Caller → Option Ending
  | edge => some .completed
  | halt => some .dropped
  | submit _ _ | poke _ _ => none

/-- The request that a step submits. -/
def submission? : BusStep Caller → Option (Submission Caller)
  | submit caller request => some ⟨caller, request, none⟩
  | edge | halt | poke _ _ => none

end BusStep

/-- The submissions of a run in their order. Each of them is ended by the **first edge or halt**
that comes later. -/
def submissions : List (BusStep Caller) → List (Submission Caller)
  | [] => []
  | .submit caller request :: later =>
    ⟨caller, request, later.findSome? (·.ending?)⟩ :: submissions later
  | .edge :: later | .halt :: later | .poke _ _ :: later => submissions later

/-- A submission that still waits is ended in this way. -/
def Submission.endBy (ending : Option Ending) (s : Submission Caller) : Submission Caller :=
  { s with ending := s.ending.or ending }

/-- A step ends the submissions **before it** that wait. -/
theorem submissions_concat (steps : List (BusStep Caller)) (step : BusStep Caller) :
    submissions (steps ++ [step]) =
      (submissions steps).map (.endBy step.ending?) ++ step.submission?.toList := by
  induction steps with
  | nil => cases step <;> rfl
  | cons first steps ih =>
      cases first with
      | submit caller request =>
          simp [submissions, ih, Submission.endBy, List.findSome?_append]
      | edge | halt | poke => exact ih

/-! ### Stores over time -/

/-- An **access to a store**: a transaction, or a word that is stored from outside. -/
inductive StoreAccess where
  | completed (t : Transaction)
  | poked (address : Address) (word : Word)

namespace StoreAccess

/-- The transaction, if it is one. -/
def transaction? : StoreAccess → Option Transaction
  | completed t => some t
  | poked _ _ => none

/-- The word that the access stores at an address, if it stores one there. -/
def storedAt? (x : Address) : StoreAccess → Option Word
  | completed (.read _ _) => none
  | completed (.write address word) | poked address word =>
    if x = address then some word else none

/-- The words after the access. -/
def apply (words : Words) : StoreAccess → Words
  | completed (.read _ _) => words
  | completed (.write address word) | poked address word => words.set address word

/-- A word is the one that an access stores at its address, **or else the word before**. -/
theorem apply_eq (words : Words) (a : StoreAccess) (x : Address) :
    a.apply words x = (a.storedAt? x).getD (words x) := by
  have hset (address : Address) (word : Word) : words.set address word x =
      (if x = address then some word else none).getD (words x) := by
    rw [Words.set]
    split <;> rfl
  cases a with
  | completed t =>
      cases t with
      | read address word => rfl
      | write address word => exact hset address word
  | poked address word => exact hset address word

end StoreAccess

/-- The **latest word** that was stored at an address, or else the word from the start. -/
def latest (words : Words) (accesses : List StoreAccess) (x : Address) : Word :=
  (accesses.reverse.findSome? (·.storedAt? x)).getD (words x)

/-- The words after all these accesses, **one after the other**. -/
def replay (words : Words) (accesses : List StoreAccess) : Words :=
  accesses.foldl (fun words a => a.apply words) words

/-- Accesses are replayed one after another. -/
theorem replay_append (words : Words) (accesses later : List StoreAccess) :
    replay words (accesses ++ later) = replay (replay words accesses) later :=
  List.foldl_append

/-- A replay leaves the latest word at every address. -/
theorem replay_eq_latest (words : Words) (accesses : List StoreAccess) :
    replay words accesses = latest words accesses := by
  funext x
  induction accesses using List.reverseRecOn with
  | nil => rfl
  | append_singleton accesses a ih =>
      have hlatest : latest words (accesses ++ [a]) x =
          (a.storedAt? x).getD (latest words accesses x) := by
        rw [latest, latest, List.reverse_concat, List.findSome?_cons]
        cases a.storedAt? x <;> rfl
      rw [hlatest, ← ih, replay_append]
      exact a.apply_eq _ x

/-- Every read **tells the latest word** at its address. -/
def Truthful (words : Words) (accesses : List StoreAccess) : Prop :=
  ∀ before x word after, accesses = before ++ .completed (.read x word) :: after →
    word = latest words before x

namespace Truthful

variable {words : Words} {accesses later : List StoreAccess}

/-- Where nothing was accessed, everything is as it was. -/
theorem nil (words : Words) : Truthful words [] := by
  intro before x word after heq
  simp at heq

/-- The first access tells the truth if it is no read, or reads the word from the start. -/
theorem singleton {a : StoreAccess}
    (ha : ∀ x word, a = .completed (.read x word) → word = words x) : Truthful words [a] := by
  intro before x word after heq
  cases before with
  | nil => exact ha x word (List.cons.inj heq).1
  | cons b before => simp at heq

/-- Accesses to the words that earlier ones have left tell the truth behind them. -/
theorem append (haccesses : Truthful words accesses)
    (hlater : Truthful (replay words accesses) later) : Truthful words (accesses ++ later) := by
  intro before x word after heq
  obtain ⟨mid, rfl, hmid⟩ | ⟨mid, rfl, hmid⟩ := List.append_eq_append_iff.mp heq
  · rw [← replay_eq_latest, replay_append, replay_eq_latest]
    exact hlater mid x word after hmid
  · cases mid with
    | nil =>
        have hfirst : word = replay words (before ++ []) x := hlater [] x word after hmid.symm
        rwa [List.append_nil, replay_eq_latest] at hfirst
    | cons a mid =>
        obtain ⟨rfl, rfl⟩ := List.cons.inj hmid
        exact haccesses before x word mid rfl

end Truthful

/-! ### Completing the queue -/

namespace ClockedBus

/-- The accesses by which a queue is completed. -/
def completions (words : Words) (queue : List (Caller × Request)) : List StoreAccess :=
  (completeAll words queue).1.map fun (_, t) => .completed t

/-- The queue is completed **from its front**, each request on the words that the ones before
leave. -/
theorem completions_cons (words : Words) (caller : Caller) (request : Request)
    (queue : List (Caller × Request)) :
    completions words ((caller, request) :: queue) =
      [.completed (transact words request).1] ++ completions (transact words request).2 queue :=
  rfl

/-- A transaction leaves what its access does. -/
theorem replay_transact (words : Words) (request : Request) :
    replay words [.completed (transact words request).1] = (transact words request).2 := by
  cases request <;> rfl

/-- The words after a queue was completed are those after **its accesses**. -/
theorem replay_completions (words : Words) (queue : List (Caller × Request)) :
    replay words (completions words queue) = (completeAll words queue).2 := by
  induction queue generalizing words with
  | nil => rfl
  | cons entry queue ih =>
      obtain ⟨caller, request⟩ := entry
      rw [completions_cons, replay_append, replay_transact, ih]
      rfl

/-- The reads of a queue tell the latest words. -/
theorem truthful_completions (words : Words) (queue : List (Caller × Request)) :
    Truthful words (completions words queue) := by
  induction queue generalizing words with
  | nil => exact .nil words
  | cons entry queue ih =>
      obtain ⟨caller, request⟩ := entry
      rw [completions_cons]
      refine Truthful.append (.singleton fun x word heq => ?_) ?_
      · cases request with
        | read address =>
            obtain ⟨rfl, rfl⟩ := Transaction.read.inj (StoreAccess.completed.inj heq)
            rfl
        | write address word => nomatch heq
      · rw [replay_transact]
        exact ih _

/-- The log grows by what an edge completes. -/
theorem drop_log_edge (b : ClockedBus Caller) :
    (b.edge.2.log.drop b.log.length).map .completed = completions b.words b.queue := by
  simp [edge, completions, Function.comp_def]

end ClockedBus

/-! ### Runs -/

/-- How a call ended. -/
def Call.ending (call : Call) : Ending :=
  match call.answer with
  | .ok _ => .completed
  | .error _ => .dropped

/-- The submission of a request that still waits. -/
def Submission.waiting (entry : Caller × Request) : Submission Caller :=
  ⟨entry.1, entry.2, none⟩

/-- The submission of a request that was answered. -/
def Submission.ended (entry : Caller × Call) : Submission Caller :=
  ⟨entry.1, entry.2.request, some entry.2.ending⟩

/-- How many submissions before the one at this position were **completed**. -/
def completedBefore (steps : List (BusStep Caller)) (i : ℕ) : ℕ :=
  ((submissions steps).take i).countP (·.ending = some .completed)

/-- **Answered.** The answer to a submission, where `logged` is what the log has behind the
submissions that were completed before it: the word of its transaction if it was completed, and this
is what is logged there, or that it was dropped, or nothing while it waits. -/
inductive Submission.Answered (s : Submission Caller) (logged : Option Transaction) :
    Option (Caller × Answer) → Prop where
  | completed {t : Transaction} (ending : s.ending = some .completed) (logged_eq : logged = some t)
    (request : t.request = s.request) :
    Answered s logged (some (s.caller, .ok (ClockedBus.movedWord t)))
  | dropped (ending : s.ending = some .dropped) :
    Answered s logged (some (s.caller, .error (.disconnected s.request.address)))
  | waiting (ending : s.ending = none) : Answered s logged none

/-- A **run** of a clocked bus. -/
structure BusRun (Caller : Type) where
  bus : ClockedBus Caller := {}
  /-- The answers that callers got, in order. -/
  answers : List (Caller × Answer) := []
  /-- The accesses to the stored words, in order. -/
  accesses : List StoreAccess := []

namespace BusRun

/-- The run after one more **step**. What enters the log at an edge is an access to the store. -/
def next (run : BusRun Caller) : BusStep Caller → BusRun Caller
  | .submit caller request => { run with bus := run.bus.submit caller request }
  | .edge =>
    let (answers, bus) := run.bus.edge
    { bus
      answers := run.answers ++ answers
      accesses := run.accesses ++ (bus.log.drop run.bus.log.length).map .completed }
  | .halt =>
    let (answers, bus) := run.bus.halt
    { run with bus, answers := run.answers ++ answers }
  | .poke address word =>
    { run with
      bus := run.bus.poke address word
      accesses := run.accesses ++ [.poked address word] }

/-- The run of **these steps**, from a bus that stores these words. -/
def ofSteps (words : Words) (steps : List (BusStep Caller)) : BusRun Caller :=
  steps.foldl next { bus := { words } }

/-- At an edge, the queue is completed and **all its callers are answered**. -/
theorem next_edge (run : BusRun Caller) :
    run.next .edge =
      { bus := run.bus.edge.2
        answers := run.answers ++ run.bus.edge.1
        accesses := run.accesses ++ ClockedBus.completions run.bus.words run.bus.queue } := by
  rw [← run.bus.drop_log_edge]
  rfl

/-- **A first-in, first-out queue in front of a store.** What is true of a run with these steps, in
which these calls were answered. -/
structure Linear (words : Words) (steps : List (BusStep Caller)) (run : BusRun Caller)
    (calls : List (Caller × Call)) : Prop where
  /-- The submissions are the calls and then the queue, all in the order of submission. A call was
  completed if an edge came first, and dropped if a halt came first. -/
  conserved : submissions steps = calls.map .ended ++ run.bus.queue.map .waiting
  /-- The word of a completed call is that of its transaction. -/
  ended : ∀ entry ∈ calls,
    (∃ t, entry.2 = .ofTransaction t) ∨ ∃ request, entry.2 = .dropped request
  /-- Every caller got the answer to its call, and no other one. -/
  answered : run.answers = calls.map fun (caller, call) => (caller, call.answer)
  /-- The log consists of the completed calls. -/
  logged : run.bus.log = Call.completed (calls.map (·.2))
  recorded : run.accesses.filterMap (·.transaction?) = run.bus.log
  truthful : Truthful words run.accesses
  words_eq : run.bus.words = replay words run.accesses

namespace Linear

variable {words : Words} {steps : List (BusStep Caller)} {run : BusRun Caller}
  {calls : List (Caller × Call)}

/-- At first nothing was submitted. -/
theorem initial (words : Words) : Linear words [] ({ bus := { words } } : BusRun Caller) [] where
  conserved := rfl
  ended := by simp
  answered := rfl
  logged := rfl
  recorded := rfl
  truthful := .nil words
  words_eq := rfl

/-- The submissions after the **whole queue was answered**. -/
theorem conserved_concat (h : Linear words steps run calls) {step : BusStep Caller}
    {ending : Ending} (hstep : step.ending? = some ending) (hsilent : step.submission? = none)
    {answered : List (Caller × Call)}
    (hanswered : answered.map (fun (caller, call) => (caller, call.request)) = run.bus.queue)
    (hending : ∀ entry ∈ answered, entry.2.ending = ending) :
    submissions (steps ++ [step]) = (calls ++ answered).map .ended := by
  have hcalls : (calls.map Submission.ended).map (Submission.endBy (some ending)) =
      calls.map Submission.ended := by
    simp [Submission.endBy, Submission.ended, Function.comp_def]
  have hqueue : (run.bus.queue.map Submission.waiting).map (Submission.endBy (some ending)) =
      answered.map Submission.ended := by
    rw [← hanswered, List.map_map, List.map_map]
    refine List.map_congr_left fun entry hentry => ?_
    simp [Submission.endBy, Submission.waiting, Submission.ended, hending entry hentry]
  rw [submissions_concat, hstep, hsilent, h.conserved, List.map_append, hcalls, hqueue,
    Option.toList_none, List.append_nil, List.map_append]

/-- Nothing is ended by a step that is neither an edge nor a halt. -/
theorem conserved_of_not_ending (h : Linear words steps run calls) {step : BusStep Caller}
    (hstep : step.ending? = none) :
    submissions (steps ++ [step]) =
      calls.map .ended ++ (run.bus.queue.map .waiting ++ step.submission?.toList) := by
  have hkept : (submissions steps).map (Submission.endBy none) = submissions steps := by
    have hid : (Submission.endBy none : Submission Caller → Submission Caller) = id := by
      funext s
      simp [Submission.endBy]
    rw [hid, List.map_id]
  rw [submissions_concat, hstep, hkept, h.conserved, List.append_assoc]

/-- A **submission** goes to the end of the queue. -/
theorem submit (h : Linear words steps run calls) (caller : Caller) (request : Request) :
    Linear words (steps ++ [.submit caller request]) (run.next (.submit caller request)) calls := by
  refine { h with conserved := ?_ }
  rw [h.conserved_of_not_ending rfl]
  simp [BusRun.next, ClockedBus.submit, BusStep.submission?, Submission.waiting]

/-- An **edge** completes the queue. -/
theorem edge (h : Linear words steps run calls) :
    Linear words (steps ++ [.edge]) (run.next .edge) (calls ++ run.bus.edgeCalls) := by
  have hedge : ∀ entry ∈ run.bus.edgeCalls, ∃ t, entry.2 = .ofTransaction t := by
    intro entry hentry
    obtain ⟨⟨caller, t⟩, -, rfl⟩ := List.mem_map.mp hentry
    exact ⟨t, rfl⟩
  have hending : ∀ entry ∈ run.bus.edgeCalls, entry.2.ending = .completed := by
    intro entry hentry
    obtain ⟨t, ht⟩ := hedge entry hentry
    rw [ht]
    rfl
  rw [next_edge]
  refine ⟨?_, ?_, ?_, ?_, ?_, ?_, ?_⟩
  · rw [h.conserved_concat rfl rfl run.bus.requests_edgeCalls hending]
    exact (List.append_nil _).symm
  · exact List.forall_mem_append.mpr ⟨h.ended, fun entry hentry => .inl (hedge entry hentry)⟩
  · rw [List.map_append, run.bus.answers_edgeCalls, ← h.answered]
  · rw [List.map_append, Call.completed_append, ← h.logged]
    exact run.bus.log_edge
  · rw [List.filterMap_append, h.recorded]
    simp [ClockedBus.completions, ClockedBus.edge, List.filterMap_map, StoreAccess.transaction?]
  · refine h.truthful.append ?_
    rw [← h.words_eq]
    exact ClockedBus.truthful_completions _ _
  · rw [replay_append, ← h.words_eq, ClockedBus.replay_completions]
    rfl

/-- A **halt** drops the queue. -/
theorem halt (h : Linear words steps run calls) :
    Linear words (steps ++ [.halt]) (run.next .halt) (calls ++ run.bus.haltCalls) := by
  have hhalt : ∀ entry ∈ run.bus.haltCalls, ∃ request, entry.2 = .dropped request := by
    intro entry hentry
    obtain ⟨⟨caller, request⟩, -, rfl⟩ := List.mem_map.mp hentry
    exact ⟨request, rfl⟩
  have hending : ∀ entry ∈ run.bus.haltCalls, entry.2.ending = .dropped := by
    intro entry hentry
    obtain ⟨request, hrequest⟩ := hhalt entry hentry
    rw [hrequest]
    rfl
  refine ⟨?_, ?_, ?_, ?_, h.recorded, h.truthful, h.words_eq⟩
  · rw [h.conserved_concat rfl rfl run.bus.requests_haltCalls hending]
    exact (List.append_nil _).symm
  · exact List.forall_mem_append.mpr ⟨h.ended, fun entry hentry => .inr (hhalt entry hentry)⟩
  · rw [List.map_append, run.bus.answers_haltCalls, ← h.answered]
    rfl
  · rw [List.map_append, Call.completed_append, run.bus.completed_haltCalls, List.append_nil]
    exact h.logged

/-- A **word stored from outside** is an access to the store. -/
theorem poke (h : Linear words steps run calls) (address : Address) (word : Word) :
    Linear words (steps ++ [.poke address word]) (run.next (.poke address word)) calls := by
  refine ⟨?_, h.ended, h.answered, h.logged, ?_, ?_, ?_⟩
  · rw [h.conserved_of_not_ending rfl]
    exact congrArg _ (List.append_nil _)
  · rw [BusRun.next, List.filterMap_append, h.recorded]
    exact List.append_nil _
  · exact h.truthful.append (.singleton fun x word' heq => nomatch heq)
  · rw [BusRun.next, replay_append, ← h.words_eq]
    rfl

/-- Every **step** keeps the invariant. -/
theorem next (h : Linear words steps run calls) (step : BusStep Caller) :
    ∃ calls, Linear words (steps ++ [step]) (run.next step) calls := by
  cases step with
  | submit caller request => exact ⟨calls, h.submit caller request⟩
  | edge => exact ⟨_, h.edge⟩
  | halt => exact ⟨_, h.halt⟩
  | poke address word => exact ⟨calls, h.poke address word⟩

end Linear

/-- The invariant holds after **all steps**. -/
theorem exists_linear (words : Words) (steps : List (BusStep Caller)) :
    ∃ calls, Linear words steps (ofSteps words steps) calls := by
  induction steps using List.reverseRecOn with
  | nil => exact ⟨[], .initial words⟩
  | append_singleton steps step ih =>
      obtain ⟨calls, h⟩ := ih
      rw [ofSteps, List.foldl_concat]
      exact h.next step

/-! ### What becomes of a submission -/

namespace Linear

variable {words : Words} {steps : List (BusStep Caller)} {run : BusRun Caller}
  {calls : List (Caller × Call)}

/-- The completed calls are those of the **submissions that were completed**. -/
theorem requests_completed {calls : List (Caller × Call)} (hended : ∀ entry ∈ calls,
    (∃ t, entry.2 = .ofTransaction t) ∨ ∃ request, entry.2 = .dropped request) :
    (Call.completed (calls.map (·.2))).map (·.request) =
      ((calls.map Submission.ended).filter (·.ending = some .completed)).map (·.request) := by
  induction calls with
  | nil => rfl
  | cons entry calls ih =>
      obtain ⟨hentry, hcalls⟩ := List.forall_mem_cons.mp hended
      obtain ⟨caller, call⟩ := entry
      rw [List.map_cons, Call.completed_cons, List.map_append, ih hcalls]
      obtain ⟨t, rfl⟩ | ⟨request, rfl⟩ := hentry
      · rw [Call.transaction?_ofTransaction]
        rfl
      · rw [Call.transaction?_dropped]
        rfl

/-- The log consists of them. -/
theorem requests_log (h : Linear words steps run calls) :
    run.bus.log.map (·.request) =
      ((submissions steps).filter (·.ending = some .completed)).map (·.request) := by
  have hqueue :
      (run.bus.queue.map Submission.waiting).filter (·.ending = some .completed) = [] := by
    refine List.filter_eq_nil_iff.mpr fun s hs => ?_
    obtain ⟨entry, -, rfl⟩ := List.mem_map.mp hs
    exact Bool.false_ne_true
  rw [h.conserved, List.filter_append, hqueue, List.append_nil, h.logged,
    requests_completed h.ended]

/-- A completed call stands in the log **behind those before it**. -/
theorem logged_at {front back : List (Caller × Call)} {caller : Caller} {t : Transaction}
    (h : Linear words steps run (front ++ (caller, .ofTransaction t) :: back)) :
    run.bus.log[completedBefore steps front.length]? = some t := by
  have hfront := requests_completed fun entry hentry =>
    h.ended entry (List.mem_append_left _ hentry)
  have hcount : completedBefore steps front.length =
      (Call.completed (front.map (·.2))).length := by
    rw [completedBefore, h.conserved, List.map_append, List.append_assoc,
      List.take_left' (List.length_map _), List.countP_eq_length_filter]
    simpa using (congrArg List.length hfront).symm
  rw [h.logged, List.map_append, Call.completed_append, hcount,
    List.getElem?_append_right le_rfl, Nat.sub_self, List.map_cons, Call.completed_cons,
    Call.transaction?_ofTransaction]
  rfl

/-- Every submission was **answered as it ended**. -/
theorem answered_at (h : Linear words steps run calls) {i : ℕ} {s : Submission Caller}
    (hs : (submissions steps)[i]? = some s) :
    s.Answered run.bus.log[completedBefore steps i]? run.answers[i]? := by
  rw [h.conserved] at hs
  rw [h.answered, List.getElem?_map]
  rcases Nat.lt_or_ge i calls.length with hlt | hge
  · -- Submissions up to the number of calls have their call at the same position.
    obtain ⟨front, ⟨caller, call⟩, back, rfl, rfl⟩ :
        ∃ front entry back, calls = front ++ entry :: back ∧ front.length = i :=
      ⟨calls.take i, calls[i], calls.drop (i + 1), by simp, by simp [hlt.le]⟩
    have hended : (caller, call) ∈ front ++ (caller, call) :: back := by simp
    obtain rfl : Submission.ended (caller, call) = s := by simpa using hs
    rw [List.getElem?_append_right le_rfl, Nat.sub_self, List.getElem?_cons_zero]
    obtain ⟨t, rfl⟩ | ⟨request, rfl⟩ := h.ended _ hended
    · exact .completed rfl h.logged_at rfl
    · exact .dropped rfl
  · rw [List.getElem?_append_right (by simpa using hge)] at hs
    obtain ⟨entry, -, rfl⟩ := List.mem_map.mp (List.mem_of_getElem? hs)
    rw [List.getElem?_eq_none hge]
    exact .waiting rfl

/-- There are no answers but to submissions. -/
theorem length_answers_le (h : Linear words steps run calls) :
    run.answers.length ≤ (submissions steps).length := by
  simp [h.answered, h.conserved]

end Linear

end BusRun

/-- **A clocked bus is a first-in, first-out queue in front of a store.** After any steps by any
callers, the submissions are the answered calls and then the queue; what was completed is the log,
and accesses the store in that order, together with the words that are stored from outside. So the
log has the submissions that an edge came to first, and every submission has at most one answer,
which says how it ended. A halt changes neither the store nor the log. -/
theorem clocked_bus_linear (words : Words) (steps : List (BusStep Caller)) :
    let run := BusRun.ofSteps words steps
    (∃ calls, BusRun.Linear words steps run calls) ∧
      run.bus.log.map (·.request) =
        ((submissions steps).filter (·.ending = some .completed)).map (·.request) ∧
      (∀ (i : ℕ) (s : Submission Caller), (submissions steps)[i]? = some s →
        s.Answered run.bus.log[completedBefore steps i]? run.answers[i]?) ∧
      run.answers.length ≤ (submissions steps).length ∧
      (run.next .halt).bus.words = run.bus.words ∧ (run.next .halt).bus.log = run.bus.log := by
  obtain ⟨calls, h⟩ := BusRun.exists_linear words steps
  exact ⟨⟨calls, h⟩, h.requests_log, fun _ _ hs => h.answered_at hs, h.length_answers_le, rfl, rfl⟩

namespace BusRun

/-- Two callers, and a word that is stored while the first one waits. -/
def mixed : List (BusStep ℕ) :=
  [.submit 0 (.read 4), .poke 4 7, .submit 1 (.write 4 5), .edge, .submit 0 (.read 4), .halt,
    .submit 1 (.read 4)]

/-- The first read sees the stored word, the second one is dropped, and the third one waits. -/
theorem clocked_bus_linear_mixed :
    (ofSteps Words.zero mixed).bus.log = [.read 4 7, .write 4 5] ∧
      (ofSteps Words.zero mixed).answers =
        [(0, .ok 7), (1, .ok 5), (0, .error (.disconnected 4))] ∧
      (∃ calls, Linear Words.zero mixed (ofSteps Words.zero mixed) calls) ∧
      (⟨1, .write 4 5, some .completed⟩ : Submission ℕ).Answered (some (.write 4 5))
        (some (1, .ok 5)) ∧
      (⟨1, .read 4, none⟩ : Submission ℕ).Answered none none := by
  obtain ⟨hlinear, -, hanswered, -⟩ := clocked_bus_linear Words.zero mixed
  exact ⟨rfl, rfl, hlinear, hanswered 1 _ rfl, hanswered 3 _ rfl⟩

end BusRun

end RegisterMap
