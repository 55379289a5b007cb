import RegisterMap.Engine.Plan
import RegisterMap.Engine.Script

/-!
# Operations on Registers

Every operation is a script: it checks the policies first and makes its requests afterwards, all of
them at the address of its register. A field is written by at most one read and then one write; the
two are separate requests, and others may come between them.
-/

namespace RegisterMap

/-- What can be **done to a register**. -/
inductive Operation where
  | read
  | write (word : Word)
  | readField (field : String)
  | writeField (field : String) (value : Word)
  | resetValue
deriving Repr, DecidableEq, Inhabited

/-- The **outcome** of an operation: a word, or nothing for a write. -/
abbrev Outcome := Except EngineError (Option Word)

namespace Script

/-- Make a request and go on with its word; an error of the bus is the outcome. -/
def request (r : Request) (next : Word → Script Outcome) : Script Outcome :=
  .call r fun
    | .ok word => next word
    | .error e => .done (.error (.transport e))

end Script

namespace RegisterHandle

/-- Read the register's word. -/
def readWord (h : RegisterHandle) (next : Word → Script Outcome) : Script Outcome :=
  .request (.read h.address) next

/-- Write a word to the register. -/
def writeWord (h : RegisterHandle) (word : Word) : Script Outcome :=
  .request (.write h.address word) fun _ => .done (.ok none)

/-- **Read** the register. -/
def read (h : RegisterHandle) : Script Outcome :=
  match h.checkRead with
  | .error e => .done (.error e)
  | .ok () => h.readWord fun word => .done (.ok (some word))

/-- **Write** the register. -/
def write (h : RegisterHandle) (word : Word) : Script Outcome :=
  match h.checkWrite word with
  | .error e => .done (.error e)
  | .ok () => h.writeWord word

/-- Read a **field**. -/
def readField (h : RegisterHandle) (name : String) : Script Outcome :=
  match h.checkFieldRead name with
  | .error e => .done (.error e)
  | .ok f => h.readWord fun word => .done (.ok (some (f.extract word)))

/-- The word that a plan writes to the register. -/
def nextWord (h : RegisterHandle) (plan : FieldWrite) (current : Word) : Word :=
  plan.apply current &&& h.register.wordMask

/-- Write a **field**. -/
def writeField (h : RegisterHandle) (name : String) (value : Word) : Script Outcome :=
  match h.planFieldWrite name value with
  | .error e => .done (.error e)
  | .ok plan =>
    if plan.readsCurrent then h.readWord fun current => h.writeWord (h.nextWord plan current)
    else h.writeWord (h.nextWord plan 0)

/-- The script of an **operation**. -/
def perform (h : RegisterHandle) : Operation → Script Outcome
  | .read => h.read
  | .write word => h.write word
  | .readField name => h.readField name
  | .writeField name value => h.writeField name value
  | .resetValue => .done (.ok (some h.register.composedReset))

end RegisterHandle

/-- An operation on what a **target** names. -/
structure Act where
  target : Target
  operation : Operation
deriving Repr, DecidableEq, Inhabited

namespace Model

/-- The script of an act; a target that is not found is the outcome. -/
def perform (m : Model) (act : Act) : Script Outcome :=
  match m.handle act.target with
  | .error e => .done (.error e)
  | .ok h => h.perform act.operation

/-- The script of acts one after the other. It goes on after an error, and its result has one
outcome for every act. -/
def performAll (m : Model) : List Act → Script (List Outcome)
  | [] => .done []
  | act :: rest =>
    (m.perform act).bind fun outcome => (performAll m rest).map (outcome :: ·)

end Model

end RegisterMap
