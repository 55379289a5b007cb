import RegisterMap.Bus.Memory

/-!
# Scripts

A script is a computation that makes requests of a bus one after the other and goes on with their
answers. It does not say when a request is completed: run on a bus that completes requests at once,
it blocks; on a clocked bus it waits between a request and its answer.
-/

namespace RegisterMap

/-- A computation that **makes requests**. -/
inductive Script (α : Type) where
  | done (result : α)
  /-- Make a request, and go on with its answer. -/
  | call (request : Request) (next : Answer → Script α)

namespace Script

variable {α β : Type}

/-- Go on with another script. -/
def bind (s : Script α) (f : α → Script β) : Script β :=
  match s with
  | done a => f a
  | call request next => call request fun answer => (next answer).bind f

/-- Change the result. -/
def map (f : α → β) (s : Script α) : Script β := s.bind fun a => done (f a)

/-- The result, if there is nothing left to do. -/
def result? : Script α → Option α
  | done a => some a
  | call _ _ => none

/-- The request that the script waits for. -/
def request? : Script α → Option Request
  | done _ => none
  | call request _ => some request

/-- Go on with the answer to the request that the script waits for. -/
def resume (s : Script α) (answer : Answer) : Script α :=
  match s with
  | done a => done a
  | call _ next => next answer

/-- **Run** a script on a bus that answers every request at once. -/
def run {Bus : Type} (answer : Bus → Request → Answer × Bus) (s : Script α) (bus : Bus) :
    α × Bus :=
  match s with
  | done a => (a, bus)
  | call request next =>
    let (reply, bus) := answer bus request
    (next reply).run answer bus

/-- Run a script on a memory bus. -/
def runOnMemory (s : Script α) (bus : MemoryBus) : α × MemoryBus := s.run MemoryBus.answer bus

end Script

end RegisterMap
