import RegisterMap.Bus.Transaction

/-!
# The Memory Bus

A bus over a store of words, which completes every request at once and keeps a log. Addresses may be
marked as faulty: no request completes there. Addresses may be marked as clearing: a written word
clears the bits that are set in it, where it otherwise replaces the stored word.
-/

namespace RegisterMap

/-- A **bus over a store**. -/
structure MemoryBus where
  words : Words := Words.zero
  /-- Addresses where every request fails. -/
  faulty : List Address := []
  /-- Addresses where written ones clear their bits. -/
  clearing : List Address := []
  /-- What was completed, in order. -/
  log : List Transaction := []

namespace MemoryBus

/-- The stored word at an address; it does not show in the log. -/
def peek (b : MemoryBus) (address : Address) : Word := b.words address

/-- Store a word; it does not show in the log. -/
def poke (b : MemoryBus) (address : Address) (word : Word) : MemoryBus :=
  { b with words := b.words.set address word }

/-- Forget the log. -/
def clearLog (b : MemoryBus) : MemoryBus := { b with log := [] }

/-- What is stored at an address once `word` is written there. -/
def stored (b : MemoryBus) (address : Address) (word : Word) : Word :=
  if address ∈ b.clearing then b.words address &&& ~~~word else word

/-- Complete a request. -/
def complete (b : MemoryBus) : Request → Word × MemoryBus
  | .read address =>
    let word := b.words address
    (word, { b with log := b.log ++ [.read address word] })
  | .write address word =>
    (word, { b with
      words := b.words.set address (b.stored address word)
      log := b.log ++ [.write address word] })

/-- **Answer a request**: with an error at a faulty address, and otherwise by completing it. -/
def answer (b : MemoryBus) (request : Request) : Answer × MemoryBus :=
  if request.address ∈ b.faulty then (.error (.fault request.address "injected fault"), b)
  else
    let (word, b) := b.complete request
    (.ok word, b)

end MemoryBus

end RegisterMap
