import RegisterMap.Proofs.Discipline
import RegisterMap.Proofs.Histories

/-!
# What Callers May Rely On

An operation may be run on a bus that answers at once, or wait for its answers on a clocked bus,
among other tasks and with halts. The discipline of operations holds on both, since it holds after
any calls whatever. This module carries it over to whole runs: a list of acts on any bus, and the
tasks of a clocked system after any events.

## Main results

* `operations_disciplined` — the accesses of operations are completed in order, all or none of their
  writes are, and an error leaves memory as it was.
* `reads_permitted` — no register is read against its policy.
-/

namespace RegisterMap

/-! ### Acts -/

namespace Model

variable {m : Model} {act : Act} {calls : List Call} {rest : Script Outcome}

/-- An act is the operation on the handle of its target, if it makes a call at all. -/
theorem perform_cases (m : Model) (act : Act) :
    (∃ e, m.perform act = .done (.error e)) ∨
      ∃ h, m.handle act.target = .ok h ∧ m.perform act = h.perform act.operation := by
  rw [perform]
  cases m.handle act.target with
  | error e => exact .inl ⟨e, rfl⟩
  | ok h => exact .inr ⟨h, rfl, rfl⟩

/-- An act makes its requests **of the register of its target**. -/
theorem admitted_of_mem_issued (hafter : (m.perform act).After calls rest) {r : Request}
    (hr : r ∈ Script.issued calls rest) : ∃ h, m.handle act.target = .ok h ∧ h.Admits r := by
  obtain ⟨e, hrefused⟩ | ⟨h, hhandle, hperform⟩ := m.perform_cases act
  · rw [hrefused] at hafter
    obtain ⟨rfl, rfl⟩ := hafter.of_done
    nomatch hr
  · exact ⟨h, hhandle, (h.disciplined act.operation (hperform ▸ hafter)).admitted r hr⟩

/-- An act that returns an error has **written nothing**. -/
theorem not_written_of_error {e : EngineError}
    (hafter : (m.perform act).After calls (.done (.error e))) : .write ∉ Call.made calls := by
  obtain ⟨e', hrefused⟩ | ⟨h, -, hperform⟩ := m.perform_cases act
  · rw [hrefused] at hafter
    obtain ⟨rfl, -⟩ := hafter.of_done
    exact List.not_mem_nil
  · exact RegisterHandle.not_written_of_error (hperform ▸ hafter)

/-- The calls of acts on a bus that answers at once are divided into **episodes**. -/
theorem exists_episodes_run (m : Model) {Bus : Type} (answer : Bus → Request → Answer × Bus)
    (acts : List Act) (bus : Bus) :
    ∃ calls episodes, (m.performAll acts).run (Script.recording answer) (bus, []) =
        (((m.performAll acts).run answer bus).1, ((m.performAll acts).run answer bus).2, calls) ∧
      m.Episodes acts calls (.done ((m.performAll acts).run answer bus).1) episodes := by
  obtain ⟨episodes, he⟩ := m.exists_episodes ((m.performAll acts).after_calls answer bus)
  exact ⟨_, episodes, (m.performAll acts).run_recording answer bus [], he⟩

end Model

/-! ### Discipline -/

/-- **Operations are disciplined.** An operation that is refused has not called the bus. Whatever
the answers of the bus, the completed accesses of an operation are an initial part of those that it
consists of, no error is returned if and only if they are all of them, and the words fit. So an
operation that returns an error does not change a memory bus, and an act that returns an error on a
clocked bus with halts has completed no write. -/
theorem operations_disciplined :
    (∀ (h : RegisterHandle) (operation : Operation) (e : EngineError),
      h.perform operation = .done (.error e) ↔ h.Refuses operation e) ∧
    (∀ (h : RegisterHandle) (operation : Operation) (calls : List Call) (rest : Script Outcome),
      (h.perform operation).After calls rest → h.Disciplined (h.accesses operation) calls rest) ∧
    (∀ (h : RegisterHandle) (operation : Operation) (Bus : Type)
        (answer : Bus → Request → Answer × Bus) (bus : Bus),
      ∃ calls, (h.perform operation).run (Script.recording answer) (bus, []) =
          (((h.perform operation).run answer bus).1, ((h.perform operation).run answer bus).2,
            calls) ∧
        (h.perform operation).After calls (.done ((h.perform operation).run answer bus).1)) ∧
    (∀ (h : RegisterHandle) (operation : Operation) (b : MemoryBus) (e : EngineError),
      ((h.perform operation).runOnMemory b).1 = .error e →
        ((h.perform operation).runOnMemory b).2 = b) ∧
    ∀ (m : Model) (words : Words) (events : List ClockEvent),
      let history := History.ofEvents m words events
      history.system.bus.log = Call.completed (history.calls.map (·.2)) ∧
      (∀ f ∈ history.finished, history.system.tasks[f.number]? = some (.done f.outcomes)) ∧
      ∀ (n : ℕ) acts task, history.spawned[n]? = some acts → history.system.tasks[n]? = some task →
        ∃ episodes, m.Episodes acts (entriesOf n history.calls) task episodes ∧
          ∀ e ∈ episodes, ∀ error, e.rest = .done (.error error) → .write ∉ Call.made e.calls := by
  refine ⟨fun h operation e => RegisterHandle.perform_eq_error_iff,
    fun h operation _ _ => h.disciplined operation, fun h operation Bus answer bus => ?_,
    fun h operation b e => RegisterHandle.runOnMemory_of_error, fun m words events => ?_⟩
  · exact ⟨_, (h.perform operation).run_recording answer bus [],
      (h.perform operation).after_calls answer bus⟩
  · refine ⟨History.logged m words events, (History.consistent m words events).finished_done, ?_⟩
    intro n acts task hacts htask
    obtain ⟨episodes, he, -⟩ := History.exists_episodes hacts htask
    refine ⟨episodes, he, fun e hmem error herror => ?_⟩
    exact Model.not_written_of_error (herror ▸ he.after e hmem)

/-! ### A mailbox -/

namespace Mailbox

/-- A register that may be read and written. -/
def control : Register :=
  { name := "control", offset := 0, width := 32, access := .readWrite,
    fields := [{ name := "mode", bitOffset := 4, bitWidth := 4, access := .readWrite }] }

/-- A register that may not be read, with a field that may. -/
def command : Register :=
  { name := "command", offset := 4, width := 32, access := .writeOnly,
    fields := [{ name := "go", bitOffset := 0, bitWidth := 1, access := .readWrite }] }

/-- A model of both registers. -/
def model : Model :=
  { memoryMaps := [{ name := "soc", blocks := [
      { name := "mailbox", baseOffset := 0, size := 8, registers := [control, command] }] }] }

/-- The handle of the first register. -/
def handle : RegisterHandle := { path := "soc.mailbox.control", address := 0, register := control }

/-- The first register is read and written. -/
def setMode : Act := ⟨.path "mailbox.control", .writeField "mode" 5⟩

/-- The bus halts when the read is completed and the write is not. -/
def halted : List ClockEvent := [.spawn [setMode], .edge, .halt]

/-- A field that is unknown is not looked for on the bus, a fault leaves memory as it was, and a
halt between the read and the write of a field leaves the field unwritten. -/
theorem operations_disciplined_halted :
    handle.perform (.writeField "speed" 5) =
        .done (.error (.unknownField "soc.mailbox.control" "speed")) ∧
      handle.Disciplined [.read, .write] [⟨.read 0, .error (.fault 0 "parity")⟩]
        (.done (.error (.transport (.fault 0 "parity")))) ∧
      ((handle.perform (.writeField "mode" 5)).runOnMemory { faulty := [0] }).1 =
        .error (.transport (.fault 0 "injected fault")) ∧
      ((handle.perform (.writeField "mode" 5)).runOnMemory { faulty := [0] }).2 =
        { faulty := [0] } ∧
      (History.ofEvents model Words.zero halted).system.bus.log = [.read 0 0] ∧
      ∃ episodes, model.Episodes [setMode]
          (entriesOf 0 (History.ofEvents model Words.zero halted).calls)
          (.done [.error (.transport (.disconnected 0))]) episodes ∧
        ∀ e ∈ episodes, ∀ error, e.rest = .done (.error error) → .write ∉ Call.made e.calls := by
  obtain ⟨hrefused, hdisciplined, -, hmemory, hclocked⟩ := operations_disciplined
  have hfailed : (handle.perform (.writeField "mode" 5)).After
      [⟨.read 0, .error (.fault 0 "parity")⟩] (.done (.error (.transport (.fault 0 "parity")))) :=
    .call (.start _)
  have hfault : ((handle.perform (.writeField "mode" 5)).runOnMemory { faulty := [0] }).1 =
      .error (.transport (.fault 0 "injected fault")) := by decide
  obtain ⟨-, hfinished, hepisodes⟩ := hclocked model Words.zero halted
  have houtcomes : ⟨0, [.error (.transport (.disconnected 0))]⟩ ∈
      (History.ofEvents model Words.zero halted).finished := .head _
  exact ⟨(hrefused _ _ _).mpr (.unknownWrite 5 (by decide)), hdisciplined _ _ _ _ hfailed, hfault,
    hmemory _ _ _ _ hfault, by decide, hepisodes 0 [setMode] _ rfl (hfinished _ houtcomes)⟩

end Mailbox

/-! ### Reads -/

/-- **Permits.** An act may make this request: it is made of the register of the act's target, and
it is not a read if the policy of that register forbids reads. -/
def Model.Permits (m : Model) (act : Act) (request : Request) : Prop :=
  ∃ h, m.handle act.target = .ok h ∧ request.address = h.address ∧
    (request.isRead = true →
      h.register.access ≠ .writeOnly ∧ h.register.access ≠ .writeOneToClear)

/-- No admitted read is against the policy of the register. -/
theorem RegisterHandle.Admits.read_permitted {h : RegisterHandle} {request : Request}
    (hr : h.Admits request) (hread : request.isRead = true) :
    h.register.access ≠ .writeOnly ∧ h.register.access ≠ .writeOneToClear := by
  cases request with
  | write address word => nomatch hread
  | read address =>
      have hreadable := hr.2
      constructor <;> intro haccess <;> simp [haccess, AccessPolicy.isReadable] at hreadable

/-- All requests of the episodes of acts are permitted. -/
theorem Model.Episodes.permits {m : Model} {acts : List Act} {calls : List Call}
    {rest : Script (List Outcome)} {episodes : List Episode}
    (he : m.Episodes acts calls rest episodes) :
    ∀ e ∈ episodes, ∀ r ∈ e.issued, m.Permits e.act r := by
  intro e hmem r hr
  obtain ⟨h, hhandle, hadmits⟩ := Model.admitted_of_mem_issued (he.after e hmem) hr
  exact ⟨h, hhandle, hadmits.address_eq, hadmits.read_permitted⟩

/-- **Reads are permitted.** No operation on a handle reads a register whose policy is against it.
So no act of a list does on a bus that answers at once, and no act of a task on a clocked bus,
whatever has happened there: every request, answered or in the queue, is one of an act that permits
it. -/
theorem reads_permitted (m : Model) :
    (∀ (h : RegisterHandle) (operation : Operation) (calls : List Call) (rest : Script Outcome),
      (h.perform operation).After calls rest → ∀ r ∈ Script.issued calls rest, r.isRead = true →
        h.register.access ≠ .writeOnly ∧ h.register.access ≠ .writeOneToClear) ∧
    (∀ (Bus : Type) (answer : Bus → Request → Answer × Bus) (acts : List Act) (bus : Bus),
      ∃ calls episodes, (m.performAll acts).run (Script.recording answer) (bus, []) =
          (((m.performAll acts).run answer bus).1, ((m.performAll acts).run answer bus).2, calls) ∧
        m.Episodes acts calls (.done ((m.performAll acts).run answer bus).1) episodes ∧
        ∀ e ∈ episodes, ∀ r ∈ e.issued, m.Permits e.act r) ∧
    ∀ (words : Words) (events : List ClockEvent) (n : ℕ),
      let history := History.ofEvents m words events
      (history.system.tasks.length ≤ n → history.requestsOf n = []) ∧
      ∀ acts task, history.spawned[n]? = some acts → history.system.tasks[n]? = some task →
        ∃ episodes, m.Episodes acts (entriesOf n history.calls) task episodes ∧
          episodes.flatMap (·.issued) = history.requestsOf n ∧
          ∀ e ∈ episodes, ∀ r ∈ e.issued, m.Permits e.act r := by
  refine ⟨fun h operation calls rest hafter r hr => ?_, fun Bus answer acts bus => ?_,
    fun words events n => ⟨History.requestsOf_eq_nil, fun acts task hacts htask => ?_⟩⟩
  · exact ((h.disciplined operation hafter).admitted r hr).read_permitted
  · obtain ⟨calls, episodes, hcalls, he⟩ := m.exists_episodes_run answer acts bus
    exact ⟨calls, episodes, hcalls, he, he.permits⟩
  · obtain ⟨episodes, he, hissued⟩ := History.exists_episodes hacts htask
    exact ⟨episodes, he, hissued, he.permits⟩

namespace Mailbox

/-- The second register is written without a read, and not read although its field may be. -/
def sendAndRead : List Act :=
  [setMode, ⟨.path "mailbox.command", .writeField "go" 1⟩,
    ⟨.path "mailbox.command", .readField "go"⟩]

/-- The events of a task that performs these acts to the end. -/
def sent : List ClockEvent := [.spawn sendAndRead, .edge, .edge, .edge]

/-- Only the first register is read. -/
theorem reads_permitted_sent :
    (History.ofEvents model Words.zero sent).requestsOf 0 =
        [.read 0, .write 0 80, .write 4 1] ∧
      ∃ task episodes, model.Episodes sendAndRead
          (entriesOf 0 (History.ofEvents model Words.zero sent).calls) task episodes ∧
        episodes.flatMap (·.issued) = (History.ofEvents model Words.zero sent).requestsOf 0 ∧
        ∀ e ∈ episodes, ∀ r ∈ e.issued, model.Permits e.act r := by
  obtain ⟨-, -, hclocked⟩ := reads_permitted model
  exact ⟨by decide, _, (hclocked Words.zero sent 0).2 sendAndRead _ rfl rfl⟩

end Mailbox

end RegisterMap
