import RegisterMap.Proofs.Calls

/-!
# The Accesses of an Operation

The policies of a register and its field decide beforehand which accesses an operation consists of,
and whether it is refused. An operation that is not refused **follows** these accesses: it makes one
after the other, and only after the one before it was completed. Whatever the bus answers, what has
been completed is then an initial part of the accesses, and it is all of them if and only if the
operation returns no error.

A write is the last access of every operation, so an operation that returns an error has written
nothing. A read leaves the words alone, but not the log, and not everything on a real bus; a memory
bus cannot complete the read of an operation and then fail its write, since both are at one address.

## Main results

* `RegisterHandle.perform_eq_error_iff` — which operations are refused, and their errors.
* `RegisterHandle.perform_follows` — an operation is refused, or it follows its accesses.
* `RegisterHandle.disciplined` — what has happened after any calls of an operation.
* `RegisterHandle.not_written_of_error` — an operation that returns an error has written nothing.
* `RegisterHandle.runOnMemory_of_error` — such an operation does not change a memory bus.
-/

namespace RegisterMap

namespace RegisterHandle

/-! ### Accesses -/

/-- Whether the register's current word is read before a field of this name is written. -/
def readsFirst (h : RegisterHandle) (name : String) : Bool :=
  h.register.access.isReadable && (h.register.field? name).any (·.access != .writeOnly)

/-- The **accesses** that an operation consists of, by their directions. -/
def accesses (h : RegisterHandle) : Operation → List Direction
  | .read | .readField _ => [.read]
  | .write _ => [.write]
  | .writeField name _ => if h.readsFirst name then [.read, .write] else [.write]
  | .resetValue => []

variable {h : RegisterHandle} {operation : Operation}

/-- An operation writes **at most once, and last**. -/
theorem accesses_writes_last (h : RegisterHandle) (operation : Operation) :
    .write ∉ h.accesses operation ∨
      ∃ reads, h.accesses operation = reads ++ [.write] ∧ .write ∉ reads := by
  cases operation with
  | read | readField | resetValue => exact .inl (by simp [accesses])
  | write word => exact .inr ⟨[], rfl, List.not_mem_nil⟩
  | writeField name value =>
      rw [accesses]
      split
      · exact .inr ⟨[.read], rfl, by simp⟩
      · exact .inr ⟨[], rfl, List.not_mem_nil⟩

/-- Once the write was made, there are no more accesses. -/
theorem eq_accesses_of_write_mem {made : List Direction} (hmade : made <+: h.accesses operation)
    (hwrite : .write ∈ made) : made = h.accesses operation := by
  obtain hnone | ⟨reads, heq, hreads⟩ := h.accesses_writes_last operation
  · exact absurd (hmade.subset hwrite) hnone
  · rw [heq, List.prefix_concat_iff] at hmade
    obtain hall | hmade := hmade
    · exact hall.trans heq.symm
    · exact absurd (hmade.subset hwrite) hreads

/-! ### Refusal -/

/-- **Refuses.** An operation that does not get to the bus, and the error that it returns. What is
missing is noticed before what is denied, and this before what is too wide. -/
inductive Refuses (h : RegisterHandle) : Operation → EngineError → Prop where
  | read (denied : h.register.access.isReadable = false) :
    Refuses h .read (.accessViolation h.path none h.register.access .read)
  | write (word : Word) (denied : h.register.access.isWritable = false) :
    Refuses h (.write word) (.accessViolation h.path none h.register.access .write)
  | wideWord {word : Word} (writable : h.register.access.isWritable = true)
    (wide : 2 ^ h.register.width.toNat ≤ word.toNat) :
    Refuses h (.write word) (.valueOutOfRange h.path word h.register.width)
  | unknownRead {name : String} (missing : h.register.field? name = none) :
    Refuses h (.readField name) (.unknownField h.path name)
  /-- The policy of the register counts before that of the field. -/
  | readRegister {name : String} {f : BitField} (found : h.register.field? name = some f)
    (denied : h.register.access.isReadable = false) :
    Refuses h (.readField name) (.accessViolation h.path (some f.name) h.register.access .read)
  | readField {name : String} {f : BitField} (found : h.register.field? name = some f)
    (readable : h.register.access.isReadable = true) (denied : f.access.isReadable = false) :
    Refuses h (.readField name) (.accessViolation h.path (some f.name) f.access .read)
  | unknownWrite {name : String} (value : Word) (missing : h.register.field? name = none) :
    Refuses h (.writeField name value) (.unknownField h.path name)
  /-- The policy of the register does not count. -/
  | writeField {name : String} {f : BitField} (value : Word)
    (found : h.register.field? name = some f) (denied : f.access.isWritable = false) :
    Refuses h (.writeField name value) (.accessViolation h.path (some f.name) f.access .write)
  | wideValue {name : String} {f : BitField} {value : Word}
    (found : h.register.field? name = some f) (writable : f.access.isWritable = true)
    (wide : 2 ^ f.bitWidth.toNat ≤ value.toNat) :
    Refuses h (.writeField name value) (.valueOutOfRange s!"{h.path}.{f.name}" value f.bitWidth)

/-- An operation that is refused is one that **would make accesses**. -/
theorem Refuses.accesses_ne_nil {e : EngineError} (hr : h.Refuses operation e) :
    h.accesses operation ≠ [] := by
  cases hr with
  | unknownWrite | writeField | wideValue =>
      rw [accesses]
      split <;> exact List.cons_ne_nil _ _
  | _ => exact List.cons_ne_nil _ _

/-- An operation that is refused returns its error **without a call**. -/
theorem Refuses.perform_eq {e : EngineError} (hr : h.Refuses operation e) :
    h.perform operation = .done (.error e) := by
  cases hr with
  | read denied => simp [perform, RegisterHandle.read, checkRead, denied]
  | write word denied => simp [perform, RegisterHandle.write, checkWrite, denied]
  | wideWord writable wide =>
      have hwide := mt (and_not_lowMask_eq_zero_iff _ _).mp (Nat.not_lt.mpr wide)
      simp [perform, RegisterHandle.write, checkWrite, writable, Register.wordMask, hwide]
  | unknownRead missing =>
      simp [perform, RegisterHandle.readField, checkFieldRead, field, missing, bind, Except.bind]
  | readRegister found denied =>
      simp [perform, RegisterHandle.readField, checkFieldRead, field, found, denied, bind,
        Except.bind]
  | readField found readable denied =>
      simp [perform, RegisterHandle.readField, checkFieldRead, field, found, readable, denied, bind,
        Except.bind]
  | unknownWrite value missing =>
      simp [perform, RegisterHandle.writeField, planFieldWrite, field, missing, bind, Except.bind]
  | @writeField name f value found denied =>
      have haccess : f.access = .readOnly := by
        cases haccess : f.access <;> simp [haccess, AccessPolicy.isWritable] at denied ⊢
      simp [perform, RegisterHandle.writeField, planFieldWrite, field, found, planFor, haccess,
        bind, Except.bind]
  | @wideValue name f value found writable wide =>
      have hwide : f.fits value = false := by
        simpa using mt (f.fits_iff value).mp (Nat.not_lt.mpr wide)
      cases haccess : f.access <;>
        simp [perform, RegisterHandle.writeField, planFieldWrite, field, found, planFor, haccess,
          hwide, bind, Except.bind, AccessPolicy.isWritable] at writable ⊢

/-- **Nothing else** keeps an operation from the bus. -/
theorem exists_refuses {e : EngineError} (he : h.perform operation = .done (.error e)) :
    ∃ e, h.Refuses operation e := by
  by_contra hnone
  cases operation with
  | read =>
      have hreadable : h.register.access.isReadable = true :=
        Bool.of_not_eq_false fun denied => hnone ⟨_, .read denied⟩
      simp [perform, RegisterHandle.read, checkRead, hreadable, readWord, Script.request] at he
  | write word =>
      have hwritable : h.register.access.isWritable = true :=
        Bool.of_not_eq_false fun denied => hnone ⟨_, .write word denied⟩
      have hfits : word &&& ~~~h.register.wordMask = 0 :=
        (and_not_lowMask_eq_zero_iff _ _).mpr
          (Nat.lt_of_not_le fun wide => hnone ⟨_, .wideWord hwritable wide⟩)
      simp [perform, RegisterHandle.write, checkWrite, hwritable, hfits, writeWord,
        Script.request] at he
  | readField name =>
      cases hfound : h.register.field? name with
      | none => exact hnone ⟨_, .unknownRead hfound⟩
      | some f =>
          have hregister : h.register.access.isReadable = true :=
            Bool.of_not_eq_false fun denied => hnone ⟨_, .readRegister hfound denied⟩
          have hreadable : f.access.isReadable = true :=
            Bool.of_not_eq_false fun denied => hnone ⟨_, .readField hfound hregister denied⟩
          simp [perform, RegisterHandle.readField, checkFieldRead, field, hfound, hregister,
            hreadable, readWord, Script.request, bind, Except.bind] at he
  | writeField name value =>
      cases hfound : h.register.field? name with
      | none => exact hnone ⟨_, .unknownWrite value hfound⟩
      | some f =>
          have hwritable : f.access.isWritable = true :=
            Bool.of_not_eq_false fun denied => hnone ⟨_, .writeField value hfound denied⟩
          have hfits : f.fits value = true :=
            (f.fits_iff value).mpr
              (Nat.lt_of_not_le fun wide => hnone ⟨_, .wideValue hfound hwritable wide⟩)
          obtain ⟨plan, hplan⟩ : ∃ plan, h.planFor f value = .ok plan := by
            cases haccess : f.access <;>
              simp [planFor, haccess, AccessPolicy.isWritable] at hwritable ⊢
          simp only [perform, RegisterHandle.writeField, planFieldWrite, field, hfound, hplan,
            hfits, bind, Except.bind] at he
          cases hreads : plan.readsCurrent <;>
            simp [hreads, readWord, writeWord, Script.request] at he
  | resetValue => simp [perform] at he

/-- Which operations are **refused**. -/
theorem perform_eq_error_iff {e : EngineError} :
    h.perform operation = .done (.error e) ↔ h.Refuses operation e := by
  refine ⟨fun he => ?_, Refuses.perform_eq⟩
  obtain ⟨e', hr⟩ := exists_refuses he
  obtain rfl : e' = e := by simpa using hr.perform_eq.symm.trans he
  exact hr

/-! ### Following -/

/-- What may be **requested of the register**: a read only if its policy allows reads, and no word
that is too wide for it, both at its address. -/
def Admits (h : RegisterHandle) : Request → Prop
  | .read address => address = h.address ∧ h.register.access.isReadable = true
  | .write address word => address = h.address ∧ word.toNat < 2 ^ h.register.width.toNat

/-- A request that is admitted goes to the address of the register. -/
theorem Admits.address_eq {request : Request} (hr : h.Admits request) :
    request.address = h.address := by
  cases request <;> exact hr.1

/-- **Follows.** A script that makes these accesses, each after the one before it was completed, and
ends with the first error of the bus. -/
inductive Follows (h : RegisterHandle) : List Direction → Script Outcome → Prop where
  | done (result : Option Word) : Follows h [] (.done (.ok result))
  | call {request : Request} {next : Answer → Script Outcome} {later : List Direction}
    (admitted : h.Admits request)
    (ends : ∀ cause, next (.error cause) = .done (.error (.transport cause)))
    (goes_on : ∀ word, Follows h later (next (.ok word))) :
    Follows h (request.direction :: later) (.call request next)

/-- Reading a word is **an access to read**, and what follows comes after it. -/
theorem follows_readWord {next : Word → Script Outcome} {later : List Direction}
    (hreadable : h.register.access.isReadable = true)
    (hnext : ∀ word, h.Follows later (next word)) :
    h.Follows (.read :: later) (h.readWord next) :=
  @Follows.call h (.read h.address) _ later ⟨rfl, hreadable⟩ (fun _ => rfl) hnext

/-- Writing a word that fits is **an access to write**. -/
theorem follows_writeWord {word : Word} (hfits : word.toNat < 2 ^ h.register.width.toNat) :
    h.Follows [.write] (h.writeWord word) :=
  @Follows.call h (.write h.address word) _ [] ⟨rfl, hfits⟩ (fun _ => rfl) fun _ => .done none

/-- The word that a plan writes is not too wide for the register. -/
theorem nextWord_fits (plan : FieldWrite) (current : Word) :
    (h.nextWord plan current).toNat < 2 ^ h.register.width.toNat := by
  rw [nextWord]
  exact and_lowMask_lt _ _

/-- A plan reads the current word unless the register's or the field's policy is against it. -/
theorem readsCurrent_planFor {f : BitField} {value : Word} {plan : FieldWrite}
    (hplan : h.planFor f value = .ok plan) :
    plan.readsCurrent = (h.register.access.isReadable && f.access != .writeOnly) := by
  unfold planFor at hplan
  cases haccess : f.access with
  | readOnly =>
      rw [haccess] at hplan
      nomatch hplan
  | writeOnly =>
      rw [haccess] at hplan
      obtain rfl := Except.ok.inj hplan
      simp [FieldWrite.readsCurrent]
  | readWrite | writeOneToClear | readWriteOneToClear =>
      rw [haccess] at hplan
      obtain rfl := Except.ok.inj hplan
      simp [FieldWrite.readsCurrent]

/-- A field write with a plan reads the register first **if the plan needs its word**. -/
theorem accesses_writeField {name : String} {value : Word} {f : BitField} {plan : FieldWrite}
    (hfound : h.register.field? name = some f) (hplan : h.planFor f value = .ok plan) :
    h.accesses (.writeField name value) =
      if plan.readsCurrent then [.read, .write] else [.write] := by
  rw [accesses, readsFirst, hfound, Option.any_some, ← readsCurrent_planFor hplan]

/-- An operation is **refused, or it follows its accesses**. -/
theorem perform_follows (h : RegisterHandle) (operation : Operation) :
    (∃ e, h.Refuses operation e) ∨ h.Follows (h.accesses operation) (h.perform operation) := by
  have hperforms := h.performs operation
  generalize hscript : h.perform operation = script at hperforms
  cases hperforms with
  | refused _ e => exact .inl (exists_refuses hscript)
  | resetValue => exact .inr (.done _)
  | read readable => exact .inr (follows_readWord readable fun _ => .done _)
  | write writable fits => exact .inr (follows_writeWord fits)
  | readField found readable => exact .inr (follows_readWord readable fun _ => .done _)
  | updateField found planned fits reads =>
      have hreadable := (Bool.and_eq_true_iff.mp (readsCurrent_planFor planned ▸ reads)).1
      rw [accesses_writeField found planned, if_pos reads]
      exact .inr (follows_readWord hreadable fun _ => follows_writeWord (nextWord_fits _ _))
  | storeField found planned fits blind =>
      rw [accesses_writeField found planned, if_neg (by simp [blind])]
      exact .inr (follows_writeWord (nextWord_fits _ _))

/-! ### Discipline -/

/-- **Discipline.** What is true of an operation that consists of these accesses, made these calls
and has `rest` left. -/
structure Disciplined (h : RegisterHandle) (accesses : List Direction) (calls : List Call)
    (rest : Script Outcome) : Prop where
  /-- The accesses are completed in their order. -/
  in_order : Call.made calls <+: accesses
  /-- Every request is made of the register, also one that has no answer yet. -/
  admitted : ∀ r ∈ Script.issued calls rest, h.Admits r
  /-- No error is returned if and only if all accesses were completed. -/
  ok_iff : ∀ outcome, rest = .done outcome →
    ((∃ word, outcome = .ok word) ↔ Call.made calls = accesses)
  /-- Other errors than those of the bus are returned before the bus is called. -/
  refused : ∀ e, rest = .done (.error e) → (∀ cause, e ≠ .transport cause) → calls = []
  /-- An error of the bus is returned. -/
  failed : ∀ call ∈ calls, ∀ cause, call.answer = .error cause →
    rest = .done (.error (.transport cause))
  /-- There are no calls after one that was not completed. -/
  last : calls.Pairwise fun call _ => ∃ word, call.answer = .ok word

section Follows

variable {accesses : List Direction} {s rest : Script Outcome} {calls : List Call}

/-- Where the accesses are followed, only the bus has errors. -/
theorem Follows.transport_of_error {e : EngineError} (hf : h.Follows accesses s)
    (hafter : s.After calls (.done (.error e))) : ∃ cause, e = .transport cause := by
  induction hf generalizing calls with
  | done result => nomatch hafter.of_done.2
  | @call request next later admitted ends goes_on ih =>
      cases hafter with
      | @call _ _ answer calls _ hafter =>
        cases answer with
        | ok word => exact ih word hafter
        | error cause =>
            rw [ends] at hafter
            obtain ⟨⟩ := hafter.of_done.2
            exact ⟨cause, rfl⟩

/-- What a script that follows its accesses has done **after any calls**. -/
theorem Follows.disciplined (hf : h.Follows accesses s) (hafter : s.After calls rest) :
    h.Disciplined accesses calls rest := by
  induction hafter generalizing accesses with
  | start s =>
      cases hf with
      | done result =>
          refine ⟨List.nil_prefix, by simp [Script.issued], ?_, by simp, by simp, .nil⟩
          rintro _ ⟨⟩
          simp
      | call admitted ends goes_on =>
          refine ⟨List.nil_prefix, ?_, by simp, by simp, by simp, .nil⟩
          simpa [Script.issued] using admitted
  | @call request next answer calls rest hafter ih =>
      cases hf with
      | @call _ _ later admitted ends goes_on =>
        cases answer with
        | ok word =>
            have hrest := ih (goes_on word)
            refine ⟨?_, ?_, fun outcome hdone => ?_, fun e hdone hne => ?_, ?_, ?_⟩
            · simpa using hrest.in_order
            · exact List.forall_mem_cons.mpr ⟨admitted, hrest.admitted⟩
            · simpa using hrest.ok_iff outcome hdone
            · subst hdone
              obtain ⟨cause, rfl⟩ := (goes_on word).transport_of_error hafter
              exact absurd rfl (hne cause)
            · exact List.forall_mem_cons.mpr ⟨by simp, hrest.failed⟩
            · exact List.pairwise_cons.mpr ⟨fun _ _ => ⟨word, rfl⟩, hrest.last⟩
        | error cause =>
            -- Nothing is left but to return the error.
            rw [ends] at hafter
            obtain ⟨rfl, rfl⟩ := hafter.of_done
            refine ⟨by simp, by simpa [Script.issued] using admitted, ?_, ?_, by simp,
              List.pairwise_singleton _ _⟩
            · rintro _ ⟨⟩
              simp
            · rintro _ ⟨⟩ hne
              exact absurd rfl (hne cause)

end Follows

variable {calls : List Call} {rest : Script Outcome}

/-- An operation keeps the discipline, **whatever the bus does**. -/
theorem disciplined (h : RegisterHandle) (operation : Operation)
    (hafter : (h.perform operation).After calls rest) :
    h.Disciplined (h.accesses operation) calls rest := by
  obtain ⟨e, hrefuses⟩ | hfollows := h.perform_follows operation
  · rw [hrefuses.perform_eq] at hafter
    obtain ⟨rfl, rfl⟩ := hafter.of_done
    refine ⟨List.nil_prefix, by simp [Script.issued], ?_, by simp, by simp, .nil⟩
    rintro _ ⟨⟩
    simpa using hrefuses.accesses_ne_nil.symm
  · exact hfollows.disciplined hafter

/-- An operation that returns an error has **written nothing**. -/
theorem not_written_of_error {e : EngineError}
    (hafter : (h.perform operation).After calls (.done (.error e))) : .write ∉ Call.made calls := by
  have hdisciplined := h.disciplined operation hafter
  intro hwrite
  have hall := eq_accesses_of_write_mem hdisciplined.in_order hwrite
  obtain ⟨word, ⟨⟩⟩ := (hdisciplined.ok_iff _ rfl).mpr hall

/-! ### Memory -/

section Memory

variable {b : MemoryBus}

/-- At an address without a fault, a script that follows its accesses returns **no error**. -/
theorem Follows.runOnMemory_ok {accesses : List Direction} {s : Script Outcome}
    (hf : h.Follows accesses s) (hb : h.address ∉ b.faulty) :
    ∃ result, (s.runOnMemory b).1 = .ok result := by
  induction hf generalizing b with
  | done result => exact ⟨result, rfl⟩
  | @call request next later admitted ends goes_on ih =>
      have hfaulty : (b.complete request).2.faulty = b.faulty := by cases request <;> rfl
      rw [Script.runOnMemory_call (admitted.address_eq.symm ▸ hb)]
      exact ih _ (hfaulty ▸ hb)

/-- At a faulty address, it **changes nothing**. -/
theorem Follows.runOnMemory_eq {accesses : List Direction} {s : Script Outcome}
    (hf : h.Follows accesses s) (hb : h.address ∈ b.faulty) : (s.runOnMemory b).2 = b := by
  cases hf with
  | done result => rfl
  | @call request next later admitted ends goes_on =>
      rw [Script.runOnMemory_call_of_faulty (admitted.address_eq.symm ▸ hb), ends]
      rfl

/-- An operation that returns an error **does not change a memory bus**. -/
theorem runOnMemory_of_error {e : EngineError}
    (he : ((h.perform operation).runOnMemory b).1 = .error e) :
    ((h.perform operation).runOnMemory b).2 = b := by
  obtain ⟨e, hrefuses⟩ | hfollows := h.perform_follows operation
  · rw [hrefuses.perform_eq]
    rfl
  · by_cases hb : h.address ∈ b.faulty
    · exact hfollows.runOnMemory_eq hb
    · obtain ⟨result, hok⟩ := hfollows.runOnMemory_ok hb
      cases he.symm.trans hok

end Memory

end RegisterHandle

end RegisterMap
