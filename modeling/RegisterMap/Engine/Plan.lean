import RegisterMap.Engine.Handle

/-!
# Checking Accesses and Planning Field Writes

Before anything happens on a bus, an access is checked against the policies of its register and
field. The write of a field is planned: the plan says whether the register's current word has to be
read, and which word to write.
-/

namespace RegisterMap

/-! ### Plans -/

/-- How the write of a field turns the **current word** of its register into the next one. -/
inductive FieldWrite where
  /-- Put `bits` in the place of the masked ones. -/
  | merge (mask bits : Word) (readCurrent : Bool)
  /-- Clear the bits that are set in `bits`, or leave it to the register to do so where its word
  cannot be read. -/
  | clearOnes (bits : Word) (readCurrent : Bool)
  /-- Write nothing but `bits`. -/
  | pulse (bits : Word)
deriving Repr, DecidableEq, Inhabited

namespace FieldWrite

/-- The current word has to be read first. -/
def readsCurrent : FieldWrite → Bool
  | merge _ _ readCurrent => readCurrent
  | clearOnes _ readCurrent => readCurrent
  | pulse _ => false

/-- The **word to write**, given the current one or zero where that is not read. -/
def apply (plan : FieldWrite) (current : Word) : Word :=
  match plan with
  | merge mask bits _ => current &&& ~~~mask ||| bits
  | clearOnes bits true => current &&& ~~~bits
  | clearOnes bits false => bits
  | pulse bits => bits

end FieldWrite

/-! ### Checks -/

namespace RegisterHandle

/-- The field of this name. -/
def field (h : RegisterHandle) (name : String) : Except EngineError BitField :=
  match h.register.field? name with
  | some f => .ok f
  | none => .error (.unknownField h.path name)

/-- Check that the register may be **read**. -/
def checkRead (h : RegisterHandle) : Except EngineError Unit :=
  if h.register.access.isReadable then .ok ()
  else .error (.accessViolation h.path none h.register.access .read)

/-- Check that `word` may be **written** to the register. -/
def checkWrite (h : RegisterHandle) (word : Word) : Except EngineError Unit :=
  if !h.register.access.isWritable then
    .error (.accessViolation h.path none h.register.access .write)
  else if word &&& ~~~h.register.wordMask ≠ 0 then
    .error (.valueOutOfRange h.path word h.register.width)
  else .ok ()

/-- The field of this name, once it is known that it may be **read**; the register has to be
readable too. -/
def checkFieldRead (h : RegisterHandle) (name : String) : Except EngineError BitField := do
  let f ← h.field name
  if !h.register.access.isReadable then
    .error (.accessViolation h.path (some f.name) h.register.access .read)
  else if !f.access.isReadable then
    .error (.accessViolation h.path (some f.name) f.access .read)
  else .ok f

/-- The plan for writing `value` to a field, by the field's policy alone. -/
def planFor (h : RegisterHandle) (f : BitField) (value : Word) : Except EngineError FieldWrite :=
  let readCurrent := h.register.access.isReadable
  match f.access with
  | .readOnly => .error (.accessViolation h.path (some f.name) f.access .write)
  | .readWrite => .ok (.merge f.mask (f.insert value) readCurrent)
  | .writeOneToClear | .readWriteOneToClear => .ok (.clearOnes (f.insert value) readCurrent)
  | .writeOnly => .ok (.pulse (f.insert value))

/-- The **plan** for writing `value` to the field of this name. -/
def planFieldWrite (h : RegisterHandle) (name : String) (value : Word) :
    Except EngineError FieldWrite := do
  let f ← h.field name
  let plan ← h.planFor f value
  if !f.fits value then .error (.valueOutOfRange s!"{h.path}.{f.name}" value f.bitWidth)
  else .ok plan

end RegisterHandle

end RegisterMap
