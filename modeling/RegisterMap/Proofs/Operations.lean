import RegisterMap.Engine.Operation
import RegisterMap.Proofs.Bits
import RegisterMap.Proofs.Scripts

/-!
# What Operations Do

Every operation is refused before it makes a request, or it makes the one or two requests that its
kind asks for. `Performs` lists the scripts that there are, each with what the checks have found out
by then, so that nothing about an operation needs to look into the checks and the planner again.

## Main results

* `RegisterHandle.performs` — the script of an operation is one of those.
* `RegisterHandle.within_perform`, `Model.within_performAll` — requests are made at the addresses of
  the acts that make any.
* `Model.mem_addresses_iff` — those addresses are the ones that show in the log.
-/

namespace RegisterMap

namespace RegisterHandle

/-! ### Checks that pass -/

section Checks

variable {h : RegisterHandle} {name : String} {f : BitField}

/-- What passes the check of a read is a register that **can be read**. -/
theorem isReadable_of_checkRead (hcheck : h.checkRead = .ok ()) :
    h.register.access.isReadable = true := by
  rw [checkRead] at hcheck
  split at hcheck
  · assumption
  · nomatch hcheck

/-- What passes the check of a write is a register that can be written, and **a word that fits
it**. -/
theorem isWritable_of_checkWrite {word : Word} (hcheck : h.checkWrite word = .ok ()) :
    h.register.access.isWritable = true ∧ word.toNat < 2 ^ h.register.width.toNat := by
  rw [checkWrite] at hcheck
  split at hcheck
  · nomatch hcheck
  · next hwritable =>
    split at hcheck
    · nomatch hcheck
    · next hfits =>
      rw [ne_eq, Decidable.not_not, Register.wordMask, and_not_lowMask_eq_zero_iff] at hfits
      exact ⟨by simpa using hwritable, hfits⟩

/-- A field that is found is the first one of its name. -/
theorem field_eq_ok (hfield : h.field name = .ok f) : h.register.field? name = some f := by
  rw [field] at hfield
  split at hfield
  · next g hg => rwa [← Except.ok.inj hfield]
  · nomatch hfield

/-- What passes the check of a field read is readable, **the register and the field**. -/
theorem field?_of_checkFieldRead (hcheck : h.checkFieldRead name = .ok f) :
    h.register.field? name = some f ∧ h.register.access.isReadable = true ∧
      f.access.isReadable = true := by
  rw [checkFieldRead] at hcheck
  cases hfield : h.field name with
  | error e =>
      rw [hfield] at hcheck
      nomatch hcheck
  | ok g =>
      rw [hfield] at hcheck
      simp only [bind, Except.bind] at hcheck
      split at hcheck
      · nomatch hcheck
      · next hregister =>
        split at hcheck
        · nomatch hcheck
        · next hreadable =>
          obtain rfl := Except.ok.inj hcheck
          exact ⟨field_eq_ok hfield, by simpa using hregister, by simpa using hreadable⟩

/-- A field write that has a plan is one of a field, with **a value that fits it**. -/
theorem field?_of_planFieldWrite {value : Word} {plan : FieldWrite}
    (hcheck : h.planFieldWrite name value = .ok plan) :
    ∃ f, h.register.field? name = some f ∧ h.planFor f value = .ok plan ∧
      value.toNat < 2 ^ f.bitWidth.toNat := by
  rw [planFieldWrite] at hcheck
  cases hfield : h.field name with
  | error e =>
      rw [hfield] at hcheck
      nomatch hcheck
  | ok f =>
      rw [hfield] at hcheck
      cases hplan : h.planFor f value with
      | error e =>
          simp only [bind, Except.bind, hplan] at hcheck
          nomatch hcheck
      | ok p =>
          simp only [bind, Except.bind, hplan] at hcheck
          split at hcheck
          · nomatch hcheck
          · next hfits =>
            obtain rfl := Except.ok.inj hcheck
            refine ⟨f, field_eq_ok hfield, hplan, (f.fits_iff value).mp ?_⟩
            simpa using hfits

end Checks

/-! ### Scripts of operations -/

/-- **Performs.** The scripts of operations on the register of a handle. -/
inductive Performs (h : RegisterHandle) : Operation → Script Outcome → Prop where
  | refused (operation : Operation) (e : EngineError) : Performs h operation (.done (.error e))
  | resetValue : Performs h .resetValue (.done (.ok (some h.register.composedReset)))
  | read (readable : h.register.access.isReadable = true) :
    Performs h .read (h.readWord fun word => .done (.ok (some word)))
  | write {word : Word} (writable : h.register.access.isWritable = true)
    (fits : word.toNat < 2 ^ h.register.width.toNat) : Performs h (.write word) (h.writeWord word)
  | readField {name : String} {f : BitField} (found : h.register.field? name = some f)
    (register_readable : h.register.access.isReadable = true)
    (readable : f.access.isReadable = true) :
    Performs h (.readField name) (h.readWord fun word => .done (.ok (some (f.extract word))))
  /-- The field is put into the current word. -/
  | updateField {name : String} {value : Word} {f : BitField} {plan : FieldWrite}
    (found : h.register.field? name = some f) (planned : h.planFor f value = .ok plan)
    (fits : value.toNat < 2 ^ f.bitWidth.toNat) (reads : plan.readsCurrent = true) :
    Performs h (.writeField name value)
      (h.readWord fun current => h.writeWord (h.nextWord plan current))
  /-- The field is written without a look at the current word. -/
  | storeField {name : String} {value : Word} {f : BitField} {plan : FieldWrite}
    (found : h.register.field? name = some f) (planned : h.planFor f value = .ok plan)
    (fits : value.toNat < 2 ^ f.bitWidth.toNat) (blind : plan.readsCurrent = false) :
    Performs h (.writeField name value) (h.writeWord (h.nextWord plan 0))

/-- The script of an operation is **one of those**. -/
theorem performs (h : RegisterHandle) (operation : Operation) :
    Performs h operation (h.perform operation) := by
  cases operation with
  | read =>
      rw [perform, RegisterHandle.read]
      split
      · exact .refused _ _
      · next hcheck => exact .read (isReadable_of_checkRead hcheck)
  | write word =>
      rw [perform, RegisterHandle.write]
      split
      · exact .refused _ _
      · next hcheck =>
        obtain ⟨hwritable, hfits⟩ := isWritable_of_checkWrite hcheck
        exact .write hwritable hfits
  | readField name =>
      rw [perform, RegisterHandle.readField]
      split
      · exact .refused _ _
      · next f hcheck =>
        obtain ⟨hfound, hregister, hreadable⟩ := field?_of_checkFieldRead hcheck
        exact .readField hfound hregister hreadable
  | writeField name value =>
      rw [perform, RegisterHandle.writeField]
      split
      · exact .refused _ _
      · next plan hcheck =>
        obtain ⟨f, hfound, hplan, hfits⟩ := field?_of_planFieldWrite hcheck
        split
        · next hreads => exact .updateField hfound hplan hfits hreads
        · next hblind => exact .storeField hfound hplan hfits (Bool.not_eq_true _ ▸ hblind)
  | resetValue => exact .resetValue

/-! ### Addresses of requests -/

section Within

variable {h : RegisterHandle}

/-- Reading a word asks at the address of the register only, if what follows does. -/
theorem within_readWord {k : Word → Script Outcome} (hk : ∀ word, (k word).Within {h.address}) :
    (h.readWord k).Within {h.address} := by
  refine ⟨rfl, fun answer => ?_⟩
  cases answer with
  | ok word => exact hk word
  | error e => trivial

/-- So does writing a word. -/
theorem within_writeWord (word : Word) : (h.writeWord word).Within {h.address} := by
  refine ⟨rfl, fun answer => ?_⟩
  cases answer <;> trivial

/-- All requests of an operation are made **at the address of its register**. -/
theorem within_perform (h : RegisterHandle) (operation : Operation) :
    (h.perform operation).Within {h.address} := by
  have hperforms := h.performs operation
  generalize h.perform operation = script at hperforms ⊢
  cases hperforms with
  | refused => trivial
  | resetValue => trivial
  | read => exact within_readWord fun _ => trivial
  | write => exact within_writeWord _
  | readField => exact within_readWord fun _ => trivial
  | updateField => exact within_readWord fun _ => within_writeWord _
  | storeField => exact within_writeWord _

end Within

end RegisterHandle

/-! ### Acts in a row -/

namespace Model

variable (m : Model)

/-- The **addresses that acts use**: those of the acts that make a request. -/
def addresses (acts : List Act) : List Address :=
  acts.filterMap fun act => (m.perform act).request?.map (·.address)

/-- An act asks at **the address of its first request** only, if it makes one. -/
theorem within_perform (act : Act) :
    (m.perform act).Within {x | (m.perform act).request?.map (·.address) = some x} := by
  rw [perform]
  split
  · trivial
  · next h _ =>
    have hwithin := h.within_perform act.operation
    cases hscript : h.perform act.operation with
    | done outcome => trivial
    | call request next =>
        rw [hscript] at hwithin
        refine hwithin.mono ?_
        rintro _ rfl
        exact congrArg some hwithin.1

/-- The requests of acts are made **at the addresses that the acts use**. -/
theorem within_performAll (acts : List Act) :
    (m.performAll acts).Within {x | x ∈ m.addresses acts} := by
  induction acts with
  | nil => trivial
  | cons act acts ih =>
      have hact : {x | (m.perform act).request?.map (·.address) = some x} ⊆
          {x | x ∈ m.addresses (act :: acts)} :=
        fun x hx => List.mem_filterMap.mpr ⟨act, List.mem_cons_self, hx⟩
      have hacts : {x | x ∈ m.addresses acts} ⊆ {x | x ∈ m.addresses (act :: acts)} := by
        intro x hx
        obtain ⟨a, ha, hax⟩ := List.mem_filterMap.mp hx
        exact List.mem_filterMap.mpr ⟨a, List.mem_cons_of_mem act ha, hax⟩
      exact ((m.within_perform act).mono hact).bind fun _ => (ih.mono hacts).map

/-- The acts of a list are **run one after the other**. -/
theorem run_performAll_cons {Bus : Type} (answer : Bus → Request → Answer × Bus)
    (act : Act) (acts : List Act) (bus : Bus) :
    (m.performAll (act :: acts)).run answer bus =
      (((m.perform act).run answer bus).1 ::
          ((m.performAll acts).run answer ((m.perform act).run answer bus).2).1,
        ((m.performAll acts).run answer ((m.perform act).run answer bus).2).2) := by
  rw [performAll, Script.run_bind, Script.run_map]

/-- An act that makes a request logs a transaction at the address of the request. -/
theorem logged_of_request {b : MemoryBus} (hb : b.Plain) {act : Act} {x : Address}
    (hx : (m.perform act).request?.map (·.address) = some x) :
    ∃ t ∈ ((m.perform act).runOnMemory b).2.log, t.address = x := by
  have hwithin := m.within_perform act
  revert hx hwithin
  generalize m.perform act = script
  intro hx hwithin
  cases script with
  | done outcome => nomatch hx
  | call request next =>
      rw [hb.run_call]
      obtain ⟨log, hlog, -⟩ :=
        Script.exists_log_runOnMemory (hb.recorded _ _) (hwithin.2 (.ok (ClockedBus.movedWord
          (ClockedBus.transact b.words request).1)))
      refine ⟨(ClockedBus.transact b.words request).1, ?_, ?_⟩
      · rw [hlog]
        simp [MemoryBus.recorded]
      · rw [ClockedBus.address_transact]
        exact Option.some.inj hx

/-- The addresses that acts use are those of the **transactions that they log** on a plain bus. -/
theorem mem_addresses_iff (acts : List Act) (words : Words) (x : Address) :
    x ∈ m.addresses acts ↔
      ∃ t ∈ ((m.performAll acts).runOnMemory { words }).2.log, t.address = x := by
  have hforward (b : MemoryBus) (hb : b.Plain) (hx : x ∈ m.addresses acts) :
      ∃ t ∈ ((m.performAll acts).runOnMemory b).2.log, t.address = x := by
    induction acts generalizing b with
    | nil => nomatch hx
    | cons act acts ih =>
        let after := ((m.perform act).runOnMemory b).2
        have hafter : after.Plain := Script.plain_runOnMemory hb
        have hrun : ((m.performAll (act :: acts)).runOnMemory b).2 =
            ((m.performAll acts).runOnMemory after).2 := by
          rw [Script.runOnMemory, run_performAll_cons]
          rfl
        rw [hrun]
        obtain ⟨act', hmem, hact'⟩ := List.mem_filterMap.mp hx
        rcases List.mem_cons.mp hmem with rfl | hmem
        · obtain ⟨t, ht, htx⟩ := m.logged_of_request hb hact'
          obtain ⟨log, hlog, -⟩ := Script.exists_log_runOnMemory hafter (m.within_performAll acts)
          exact ⟨t, hlog ▸ List.mem_append_left log ht, htx⟩
        · exact ih after hafter (List.mem_filterMap.mpr ⟨act', hmem, hact'⟩)
  refine ⟨hforward { words } ⟨rfl, rfl⟩, ?_⟩
  rintro ⟨t, ht, rfl⟩
  have hplain : ({ words } : MemoryBus).Plain := ⟨rfl, rfl⟩
  obtain ⟨log, hlog, hmem⟩ := Script.exists_log_runOnMemory hplain (m.within_performAll acts)
  rw [hlog, List.nil_append] at ht
  exact hmem t ht

end Model

end RegisterMap
