import RegisterMap.Bus.Clocked
import RegisterMap.Engine.Operation

/-!
# Tasks on a Clocked Bus

Tasks share a clocked bus. A task runs until it makes a request, then waits until the request is
completed or dropped, and goes on with the answer. Tasks that were answered together go on in the
order of their answers.

## Conventions

Tasks are numbered from zero in the order in which they are started. A task is what is left of its
script; a finished one is nothing but its result.
-/

namespace RegisterMap

/-- What is left of a **task**. -/
abbrev Task := Script (List Outcome)

/-- Tasks that **share a bus**. -/
structure ClockedSystem where
  /-- The callers of the bus are the numbers of the tasks. -/
  bus : ClockedBus Nat := {}
  /-- The tasks, by number. -/
  tasks : List Task := []

/-- A task that **finished**, and its outcomes. -/
structure FinishedTask where
  number : Nat
  outcomes : List Outcome
deriving Repr, Inhabited

namespace ClockedSystem

/-- Let task `number`, of which `task` is left, wait for its next request, or finish. -/
def settle (s : ClockedSystem) (number : Nat) (task : Task) :
    Option FinishedTask × ClockedSystem :=
  match task with
  | .done outcomes => (some ⟨number, outcomes⟩, s)
  | .call request _ => (none, { s with bus := s.bus.submit number request })

/-- **Start** a task, and its number. -/
def spawn (s : ClockedSystem) (task : Task) : Nat × List FinishedTask × ClockedSystem :=
  let number := s.tasks.length
  let (finished, s) := { s with tasks := s.tasks ++ [task] }.settle number task
  (number, finished.toList, s)

/-- Give task `number` the answer that it waits for. -/
def wake (s : ClockedSystem) (number : Nat) (answer : Answer) :
    Option FinishedTask × ClockedSystem :=
  match s.tasks[number]? with
  | none => (none, s)
  | some task =>
    let task := task.resume answer
    { s with tasks := s.tasks.set number task }.settle number task

/-- Give answers one after the other; the tasks that finish come in that order. -/
def wakeAll (s : ClockedSystem) :
    List (Nat × Answer) → List FinishedTask × ClockedSystem
  | [] => ([], s)
  | (number, answer) :: rest =>
    let (finished, s) := s.wake number answer
    let (others, s) := s.wakeAll rest
    (finished.toList ++ others, s)

/-- An **edge** of the clock, how many requests it completed, and the tasks that finished. -/
def edge (s : ClockedSystem) : Nat × List FinishedTask × ClockedSystem :=
  let (answers, bus) := s.bus.edge
  (answers.length, { s with bus }.wakeAll answers)

/-- A **halt** of the bus, and the tasks that finished. -/
def halt (s : ClockedSystem) : List FinishedTask × ClockedSystem :=
  let (answers, bus) := s.bus.halt
  { s with bus }.wakeAll answers

/-- Store a word. -/
def poke (s : ClockedSystem) (address : Address) (word : Word) : ClockedSystem :=
  { s with bus := s.bus.poke address word }

end ClockedSystem

end RegisterMap
