import RegisterMap.Bus.Transaction

/-!
# The Clocked Bus

A bus that completes requests on the edges of a clock. A request waits in a queue, together with its
caller; an edge completes everything in the queue, the oldest request first, and a halt drops it.
-/

namespace RegisterMap

/-- A **bus with a queue** of requests by callers. -/
structure ClockedBus (Caller : Type) where
  words : Words := Words.zero
  /-- The requests that wait for an edge, the oldest first. -/
  queue : List (Caller × Request) := []
  /-- What was completed, in order. -/
  log : List Transaction := []
  /-- The edges so far. -/
  cycles : Nat := 0

namespace ClockedBus

variable {Caller : Type}

/-- The stored word at an address; it does not show in the log. -/
def peek (b : ClockedBus Caller) (address : Address) : Word := b.words address

/-- Store a word; it does not show in the log. -/
def poke (b : ClockedBus Caller) (address : Address) (word : Word) : ClockedBus Caller :=
  { b with words := b.words.set address word }

/-- How many requests wait. -/
def pending (b : ClockedBus Caller) : Nat := b.queue.length

/-- Let a request wait for the next edge. -/
def submit (b : ClockedBus Caller) (caller : Caller) (request : Request) : ClockedBus Caller :=
  { b with queue := b.queue ++ [(caller, request)] }

/-- The transaction that completes a request, and the words after it. -/
def transact (words : Words) : Request → Transaction × Words
  | .read address => (.read address (words address), words)
  | .write address word => (.write address word, words.set address word)

/-- The word that a transaction moved. -/
def movedWord : Transaction → Word
  | .read _ word => word
  | .write _ word => word

/-- Complete requests one after the other. -/
def completeAll (words : Words) :
    List (Caller × Request) → List (Caller × Transaction) × Words
  | [] => ([], words)
  | (caller, request) :: rest =>
    let (transaction, words) := transact words request
    let (completed, words) := completeAll words rest
    ((caller, transaction) :: completed, words)

/-- An **edge** of the clock: every waiting request is completed. The callers get their answers in
the order of completion. -/
def edge (b : ClockedBus Caller) : List (Caller × Answer) × ClockedBus Caller :=
  let (completed, words) := completeAll b.words b.queue
  (completed.map fun (caller, transaction) => (caller, .ok (movedWord transaction)),
    { words
      queue := []
      log := b.log ++ completed.map (·.2)
      cycles := b.cycles + 1 })

/-- A **halt**: every waiting request is dropped. The callers learn of it in the order of the queue.
-/
def halt (b : ClockedBus Caller) : List (Caller × Answer) × ClockedBus Caller :=
  (b.queue.map fun (caller, request) => (caller, .error (.disconnected request.address)),
    { b with queue := [] })

end ClockedBus

end RegisterMap
