import RegisterMap.Text.Numeral
import RegisterMap.Word

/-!
# Requests and Transactions

A caller of a bus makes a request, to read or to write one word. A completed request is a
transaction, which records the word that was moved. A request that is not completed has an error for
its answer.

## Conventions

The answer to a completed read is the word read, and the answer to a completed write is the word
written. A store has a word at every address.
-/

namespace RegisterMap

/-- What a caller **asks of a bus**. -/
inductive Request where
  | read (address : Address)
  | write (address : Address) (word : Word)
deriving Repr, DecidableEq, Inhabited

namespace Request

/-- Where the word is. -/
def address : Request → Address
  | read address => address
  | write address _ => address

/-- The request changes nothing. -/
def isRead : Request → Bool
  | read _ => true
  | write _ _ => false

end Request

/-- A **completed request**, with the word that was moved. -/
inductive Transaction where
  | read (address : Address) (word : Word)
  | write (address : Address) (word : Word)
deriving Repr, DecidableEq, Inhabited

namespace Transaction

/-- Where the word is. -/
def address : Transaction → Address
  | read address _ => address
  | write address _ => address

/-- The request that was completed. -/
def request : Transaction → Request
  | read address _ => .read address
  | write address word => .write address word

end Transaction

/-- Why a request was **not completed**. -/
inductive BusError where
  /-- The bus answered with an error. -/
  | fault (address : Address) (detail : String)
  /-- The bus shut down first. -/
  | disconnected (address : Address)
deriving Repr, DecidableEq, Inhabited

namespace BusError

/-- The wording of a request that was not completed. -/
def message : BusError → String
  | fault address detail => s!"bus fault at {Text.hex address}: {detail}"
  | disconnected address =>
    s!"transaction at {Text.hex address} was dropped before completion"

end BusError

/-- The **answer** to a request. -/
abbrev Answer := Except BusError Word

/-! ### Stores -/

/-- The words that a bus **stores**, one at every address. -/
abbrev Words := Address → Word

namespace Words

/-- Nothing but zeros. -/
def zero : Words := fun _ => 0

/-- The same words, but for one. -/
def set (words : Words) (address : Address) (word : Word) : Words :=
  fun a => if a = address then word else words a

/-- Zeros with these words set one after the other. -/
def ofList (entries : List (Address × Word)) : Words :=
  entries.foldl (fun words (address, word) => words.set address word) zero

/-- A word that is stored at an address **is there**. -/
theorem set_same (words : Words) (address : Address) (word : Word) :
    words.set address word address = word := by
  simp [set]

/-- At every other address the words stay. -/
theorem set_of_ne (words : Words) {a address : Address} (word : Word) (h : a ≠ address) :
    words.set address word a = words a := by
  simp [set, h]

end Words

end RegisterMap
