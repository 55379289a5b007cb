import RegisterMap.Access
import RegisterMap.Bus.Transaction

/-!
# Why an Operation Fails

An operation on a register fails because what it names does not exist, because a policy forbids it,
because a value needs too many bits, or because the bus did not complete a request.
-/

namespace RegisterMap

/-- The direction of an access. -/
inductive Direction where
  | read
  | write
deriving Repr, DecidableEq, Inhabited

namespace Direction

/-- The direction as a reader is told about it. -/
def name : Direction → String
  | read => "read"
  | write => "write"

end Direction

/-- Why an operation on a register **fails**. -/
inductive EngineError where
  /-- The policy of the register, or of a field of it, forbids the access. -/
  | accessViolation (path : String) (field : Option String) (policy : AccessPolicy)
    (direction : Direction)
  | unknownRegister (path : String)
  | unknownArray (path : String)
  | unknownField (path field : String)
  | indexOutOfRange (path : String) (index count : UInt64)
  /-- The value needs more bits than there are. -/
  | valueOutOfRange (path : String) (value : Word) (width : UInt32)
  /-- The bus did not complete a request. -/
  | transport (cause : BusError)
deriving Repr, DecidableEq, Inhabited

namespace EngineError

/-- What an access was made to. -/
def target (path : String) : Option String → String
  | some field => s!"field '{path}.{field}'"
  | none => s!"register '{path}'"

/-- The wording of a failed operation. -/
def message : EngineError → String
  | accessViolation path field policy direction =>
    s!"{direction.name} of {target path field} denied by {policy.name} access"
  | unknownRegister path => s!"unknown register '{path}'"
  | unknownArray path => s!"unknown register array '{path}'"
  | unknownField path field => s!"register '{path}' has no field '{field}'"
  | indexOutOfRange path index count =>
    s!"index {index.toNat} out of range for array '{path}' with {count.toNat} instances"
  | valueOutOfRange path value width =>
    s!"value {Text.hex value} does not fit in {width.toNat} bits of {path}"
  | transport cause => s!"transport error: {cause.message}"

end EngineError

end RegisterMap
