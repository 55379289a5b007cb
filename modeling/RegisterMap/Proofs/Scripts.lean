import Mathlib.Data.Set.Basic
import RegisterMap.Bus.Clocked
import RegisterMap.Engine.Script

/-!
# Running Scripts

A script is run by answering its requests one after the other. This module splits runs, says which
addresses a script can make requests at, and describes the one bus on which nothing but the stored
words decides about an answer: a **plain** memory bus, which has no faults and no addresses that
clear.

## Main results

* `Script.run_bind` — the run of one script after another.
* `MemoryBus.Plain.answer_eq` — a plain bus completes a request just as a clocked bus does.
* `Script.exists_log_runOnMemory` — a run logs transactions at the addresses of its script.
-/

namespace RegisterMap

variable {α β : Type}

/-! ### Runs in a row -/

namespace Script

/-- A script behind another runs **on the bus that the first one leaves**. -/
theorem run_bind {Bus : Type} (answer : Bus → Request → Answer × Bus) (s : Script α)
    (f : α → Script β) (bus : Bus) :
    (s.bind f).run answer bus = (f (s.run answer bus).1).run answer (s.run answer bus).2 := by
  induction s generalizing bus with
  | done a => rfl
  | call request next ih => exact ih _ _

/-- Changing the result changes nothing of the run. -/
theorem run_map {Bus : Type} (answer : Bus → Request → Answer × Bus) (s : Script α) (f : α → β)
    (bus : Bus) :
    (s.map f).run answer bus = (f (s.run answer bus).1, (s.run answer bus).2) :=
  run_bind answer s _ bus

end Script

/-! ### Faults -/

namespace Script

variable {b : MemoryBus} {request : Request}

/-- At an address without a fault, a run goes on with **what the bus completed**. -/
theorem runOnMemory_call (hb : request.address ∉ b.faulty) (next : Answer → Script α) :
    (call request next).runOnMemory b =
      (next (.ok (b.complete request).1)).runOnMemory (b.complete request).2 := by
  have hanswer : b.answer request = (.ok (b.complete request).1, (b.complete request).2) :=
    if_neg hb
  rw [runOnMemory, run, hanswer]
  rfl

/-- At a faulty address, a run goes on with **the fault**, on the same bus. -/
theorem runOnMemory_call_of_faulty (hb : request.address ∈ b.faulty)
    (next : Answer → Script α) :
    (call request next).runOnMemory b =
      (next (.error (.fault request.address "injected fault"))).runOnMemory b := by
  have hanswer : b.answer request = (.error (.fault request.address "injected fault"), b) :=
    if_pos hb
  rw [runOnMemory, run, hanswer]
  rfl

end Script

/-! ### Plain memory -/

/-- A memory bus **without faults** and without addresses that clear. -/
structure MemoryBus.Plain (b : MemoryBus) : Prop where
  faultless : b.faulty = []
  replacing : b.clearing = []

namespace MemoryBus

/-- The bus after a transaction, which left these words. -/
def recorded (b : MemoryBus) (transaction : Transaction) (words : Words) : MemoryBus :=
  { b with words, log := b.log ++ [transaction] }

namespace Plain

variable {b : MemoryBus}

/-- A plain bus stays plain when it stores words and logs. -/
theorem recorded (h : b.Plain) (transaction : Transaction) (words : Words) :
    (b.recorded transaction words).Plain := ⟨h.faultless, h.replacing⟩

/-- A plain bus completes every request, **as a clocked bus does**. -/
theorem answer_eq (h : b.Plain) (request : Request) :
    b.answer request =
      (.ok (ClockedBus.movedWord (ClockedBus.transact b.words request).1),
        b.recorded (ClockedBus.transact b.words request).1
          (ClockedBus.transact b.words request).2) := by
  have hfaultless : request.address ∉ b.faulty := by simp [h.faultless]
  rw [answer, if_neg hfaultless]
  cases request with
  | read address => rfl
  | write address word =>
      have hstored : b.stored address word = word := by simp [stored, h.replacing]
      rw [complete, hstored]
      rfl

/-- The run of a request on a plain bus goes on with what the request moved. -/
theorem run_call (h : b.Plain) (request : Request) (next : Answer → Script α) :
    (Script.call request next).runOnMemory b =
      (next (.ok (ClockedBus.movedWord (ClockedBus.transact b.words request).1))).runOnMemory
        (b.recorded (ClockedBus.transact b.words request).1
          (ClockedBus.transact b.words request).2) := by
  rw [Script.runOnMemory, Script.run, h.answer_eq]
  rfl

end Plain

end MemoryBus

/-- A request is logged at its own address. -/
theorem ClockedBus.address_transact (words : Words) (request : Request) :
    (transact words request).1.address = request.address := by
  cases request <;> rfl

/-- A completed request leaves the words at other addresses alone. -/
theorem ClockedBus.words_transact_of_ne (words : Words) {request : Request} {x : Address}
    (hne : x ≠ request.address) : (ClockedBus.transact words request).2 x = words x := by
  cases request with
  | read address => rfl
  | write address word => exact Words.set_of_ne _ _ hne

/-! ### Addresses of requests -/

/-- Whatever the answers are, every request is made at one of these addresses. -/
def Script.Within (A : Set Address) : Script α → Prop
  | .done _ => True
  | .call request next => request.address ∈ A ∧ ∀ answer, (next answer).Within A

namespace Script

variable {A B : Set Address} {s : Script α}

/-- What asks within some addresses asks within more. -/
theorem Within.mono (h : s.Within A) (hAB : A ⊆ B) : s.Within B := by
  induction s with
  | done a => trivial
  | call request next ih => exact ⟨hAB h.1, fun answer => ih answer (h.2 answer)⟩

/-- Scripts ask within addresses **one after another**. -/
theorem Within.bind {f : α → Script β} (h : s.Within A) (hf : ∀ a, (f a).Within A) :
    (s.bind f).Within A := by
  induction s with
  | done a => exact hf a
  | call request next ih => exact ⟨h.1, fun answer => ih answer (h.2 answer)⟩

/-- Changing the result changes no address. -/
theorem Within.map {f : α → β} (h : s.Within A) : (s.map f).Within A :=
  h.bind fun _ => trivial

end Script

/-! ### What is logged -/

namespace Script

variable {A : Set Address} {s : Script α} {b : MemoryBus}

/-- A run on a plain bus logs **nothing but transactions at the addresses of the script**, behind
what was logged before. -/
theorem exists_log_runOnMemory (hb : b.Plain) (hs : s.Within A) :
    ∃ log, (s.runOnMemory b).2.log = b.log ++ log ∧ ∀ t ∈ log, t.address ∈ A := by
  induction s generalizing b with
  | done a => exact ⟨[], (List.append_nil _).symm, by simp⟩
  | call request next ih =>
      let transaction := (ClockedBus.transact b.words request).1
      let words := (ClockedBus.transact b.words request).2
      rw [hb.run_call]
      obtain ⟨log, hlog, hmem⟩ :=
        ih (.ok (ClockedBus.movedWord transaction)) (hb.recorded transaction words) (hs.2 _)
      refine ⟨transaction :: log, ?_, List.forall_mem_cons.mpr ⟨?_, hmem⟩⟩
      · rw [hlog, MemoryBus.recorded, List.append_assoc, List.singleton_append]
      · exact (ClockedBus.address_transact b.words request).symm ▸ hs.1

/-- A run on a plain bus leaves it plain. -/
theorem plain_runOnMemory (hb : b.Plain) : (s.runOnMemory b).2.Plain := by
  induction s generalizing b with
  | done a => exact hb
  | call request next ih =>
      rw [hb.run_call]
      exact ih _ (hb.recorded _ _)

end Script

end RegisterMap
