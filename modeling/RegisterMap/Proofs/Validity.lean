import RegisterMap.Proofs.Bits
import RegisterMap.Proofs.Offence
import RegisterMap.Verify.Report

/-!
# The Validator Is Exact

Each check of the validator is a walk over the model, and each is shown to list the offences against
its rule exactly. Put together in the order of the checks they list all offences, so a model without
errors is a sound one.

## Main results

* `Model.lists_blocks`, `Model.lists_registers`, `Model.lists_fields`: the walks visit every
  position once.
* `lists_repeated_seen`: the search for repeated names, with the names seen so far as its invariant.
* `Model.lists_errors`: the errors of a model are its offences, each reported once.
* `Model.sound_iff`: a model without offences is sound, and conversely.
* `Model.validation_exact`: the verdict, the errors and the counts of a report.
-/

namespace RegisterMap

variable {m : Model}

/-! ### Walks -/

namespace Model

/-- A position is that of **one block** only. -/
theorem blockAt_functional (p : BlockPosition) (e e' : BlockEntry) (h : m.BlockAt p e)
    (h' : m.BlockAt p e') : e = e' := by
  obtain ⟨map, block⟩ := e
  obtain ⟨map', block'⟩ := e'
  obtain rfl : map = map' := Lists.position_functional _ _ _ h.1 h'.1
  obtain rfl : block = block' := Lists.position_functional _ _ _ h.2 h'.2
  rfl

/-- A position is that of **one register** only. -/
theorem registerAt_functional (p : RegisterPosition) (e e' : RegisterEntry)
    (h : m.RegisterAt p e) (h' : m.RegisterAt p e') : e = e' := by
  obtain ⟨e, r⟩ := e
  obtain ⟨e', r'⟩ := e'
  obtain rfl : e = e' := blockAt_functional _ _ _ h.1 h'.1
  obtain rfl : r = r' := Lists.position_functional _ _ _ h.2 h'.2
  rfl

/-- A position is that of **one field** only. -/
theorem fieldAt_functional (p : FieldPosition) (e e' : FieldEntry) (h : m.FieldAt p e)
    (h' : m.FieldAt p e') : e = e' := by
  obtain ⟨e, f⟩ := e
  obtain ⟨e', f'⟩ := e'
  obtain rfl : e = e' := registerAt_functional _ _ _ h.1 h'.1
  obtain rfl : f = f' := Lists.position_functional _ _ _ h.2 h'.2
  rfl

variable (m)

/-- The walk over the blocks visits every position once. -/
theorem lists_blocks : Lists m.BlockAt m.blocks := by
  refine ((Lists.positions m.memoryMaps).flatMap
    (S := fun map n (e : BlockEntry) => e.map = map ∧ map.blocks[n]? = some e.block)
    Lists.position_functional fun _ map _ => ?_).congr fun p e => ?_
  · refine (Lists.positions map.blocks).map _ (fun n b hb => ⟨rfl, hb⟩) fun n e he => ⟨_, he.2⟩
  · constructor
    · rintro ⟨hmap, hblock⟩
      exact ⟨_, hmap, rfl, hblock⟩
    · rintro ⟨map, hmap, rfl, hblock⟩
      exact ⟨hmap, hblock⟩

/-- The walk over the registers visits every position once. -/
theorem lists_registers : Lists m.RegisterAt m.registers := by
  refine (m.lists_blocks.flatMap
    (S := fun b n (e : RegisterEntry) => e.toBlockEntry = b ∧
      b.block.registers[n]? = some e.register)
    blockAt_functional fun _ b _ => ?_).congr fun p e => ?_
  · refine (Lists.positions b.block.registers).map _ (fun n r hr => ⟨rfl, hr⟩)
      fun n e he => ⟨_, he.2⟩
  · constructor
    · rintro ⟨hblock, hregister⟩
      exact ⟨_, hblock, rfl, hregister⟩
    · rintro ⟨b, hblock, rfl, hregister⟩
      exact ⟨hblock, hregister⟩

/-- The walk over the fields visits every position once. -/
theorem lists_fields : Lists m.FieldAt m.fields := by
  refine (m.lists_registers.flatMap
    (S := fun r n (e : FieldEntry) => e.toRegisterEntry = r ∧
      r.register.fields[n]? = some e.field)
    registerAt_functional fun _ r _ => ?_).congr fun p e => ?_
  · refine (Lists.positions r.register.fields).map _ (fun n f hf => ⟨rfl, hf⟩)
      fun n e he => ⟨_, he.2⟩
  · constructor
    · rintro ⟨hregister, hfield⟩
      exact ⟨_, hregister, rfl, hfield⟩
    · rintro ⟨r, hregister, rfl, hfield⟩
      exact ⟨hregister, hfield⟩

end Model

/-! ### Names -/

/-- **Repeated names.** The search lists the positions of the names that it has seen, from the start
or on its way. -/
theorem lists_repeated_seen (names : List String) (seen : Std.HashSet String) :
    Lists (fun n name => names[n]? = some name ∧ (name ∈ seen ∨ name ∈ names.take n))
      (repeated seen names) := by
  induction names generalizing seen with
  | nil => exact Lists.nil fun n name h => by simp at h
  | cons first rest ih =>
      rw [repeated]
      split
      · next hseen =>
        rw [← Std.HashSet.mem_iff_contains] at hseen
        refine ((ih seen).congr fun n name => ?_).cons ⟨rfl, Or.inl hseen⟩
        simp only [List.getElem?_cons_succ, List.take_succ_cons, List.mem_cons]
        refine and_congr_right fun _ => ?_
        constructor
        · rintro (h | rfl | h)
          exacts [Or.inl h, Or.inl hseen, Or.inr h]
        · exact Or.imp_right Or.inr
      · next hseen =>
        rw [← Std.HashSet.mem_iff_contains] at hseen
        refine ((ih (seen.insert first)).congr fun n name => ?_).shift ?_
        · simp only [List.getElem?_cons_succ, List.take_succ_cons, List.mem_cons,
            Std.HashSet.mem_insert, beq_iff_eq]
          refine and_congr_right fun _ => ?_
          rw [or_assoc, or_left_comm, eq_comm (a := name)]
        · rintro name ⟨hname, h⟩
          obtain rfl : first = name := Option.some.inj hname
          simp [hseen] at h

/-- The names that are reported are the repetitions. -/
theorem lists_repeatedNames (what parent : String) (names : List String) :
    Lists (NameReport parent names) (repeatedNames what parent names) := by
  refine ((lists_repeated_seen names {}).congr (T := RepeatedAt names) fun n name => ?_).map _
    (fun n name h => ⟨name, h, rfl, rfl, rfl⟩) fun n v h => ?_
  · simp [RepeatedAt]
  · obtain ⟨name, h, -⟩ := h
    exact ⟨name, h⟩

/-- Names are pairwise different exactly when none of them is repeated. -/
theorem nodup_iff_not_repeatedAt (names : List String) :
    names.Nodup ↔ ∀ n name, ¬ RepeatedAt names n name := by
  rw [List.nodup_iff_pairwise_ne, List.pairwise_iff_getElem]
  constructor
  · rintro h n name ⟨hn, hmem⟩
    obtain ⟨hlt, rfl⟩ := List.getElem?_eq_some_iff.mp hn
    obtain ⟨k, hk, heq⟩ := List.mem_take_iff_getElem.mp hmem
    exact h k n (by omega) hlt (by omega) heq
  · intro h i j hi hj hlt heq
    refine h j names[j] ⟨List.getElem?_eq_getElem hj, List.mem_take_iff_getElem.mpr ⟨i, ?_, heq⟩⟩
    omega

/-! ### Pairs -/

/-- A check for overlaps that describes each pair by the paths of its items. -/
theorem lists_clashReports {α : Type} {start stop : α → UInt64} {name : α → String}
    {kind : ViolationKind} {parent : String} {items : List α} {describe : α × α → Violation}
    (h : ∀ q, (describe q).Says kind s!"{parent}.{name q.2}" [s!"{parent}.{name q.1}"]) :
    Lists (ClashReport start stop name kind parent items)
      ((overlapping start stop items).map describe) :=
  (lists_overlapping start stop items).map _ (fun _ q hq => ⟨q, hq, h q⟩)
    fun _ _ ⟨q, hq, _⟩ => ⟨q, hq⟩

/-! ### Strides -/

/-- The check of strides lists the arrays whose instances are **too long**, each once. -/
theorem BlockEntry.lists_strideReports (e : BlockEntry) :
    Lists e.StrideReport e.shortStrides := by
  refine (Lists.positions e.block.arrays).flatMap_optional Lists.position_functional
    fun n a _ => ?_
  split
  · next h => exact Or.inl ⟨_, rfl, h, rfl, rfl, rfl⟩
  · next h => exact Or.inr ⟨rfl, fun v hv => h hv.1⟩

/-! ### Reset values and references -/

/-- A reset value is looked at if there is one, and reported if it is too large. -/
theorem resetValue_cases {path : String} (resetValue : Option Word) {width : UInt32}
    {fits : Word → Prop} [DecidablePred fits] {d : Word → Violation}
    (hfits : ∀ w, fits w ↔ w.toNat < 2 ^ width.toNat)
    (hsaid : ∀ w, (d w).Says .resetRange path []) :
    (∃ v, resetValue.toList.filterMap (fun w => if fits w then none else some (d w)) = [v] ∧
        ResetReport path resetValue width v) ∨
      resetValue.toList.filterMap (fun w => if fits w then none else some (d w)) = [] ∧
        ∀ v, ¬ ResetReport path resetValue width v := by
  cases resetValue with
  | none => exact Or.inr ⟨rfl, fun v ⟨reset, h, _⟩ => by cases h⟩
  | some reset =>
      by_cases h : fits reset
      · refine Or.inr ⟨by simp [h], ?_⟩
        rintro v ⟨reset, ⟨⟩, hle, -⟩
        exact Nat.not_lt.mpr hle ((hfits reset).mp h)
      · refine Or.inl ⟨d reset, by simp [h], reset, rfl, ?_, hsaid reset⟩
        rwa [← Nat.not_lt, ← hfits]

/-- The reset values of a register are looked at one by one. -/
theorem RegisterEntry.lists_badResets (e : RegisterEntry) : Lists e.ResetReport e.badResets := by
  have hown : Lists (fun n v => n = none ∧ e.ResetReport n v)
      (e.register.resetValue.toList.filterMap fun reset =>
        if reset &&& ~~~e.register.wordMask = 0 then none
        else some { kind := .resetRange, path := e.path,
                    text := resetText reset e.register.width }) := by
    rcases resetValue_cases e.register.resetValue
      (d := fun reset => { kind := .resetRange, path := e.path,
                           text := resetText reset e.register.width })
      (and_not_lowMask_eq_zero_iff · e.register.width) (fun _ => ⟨rfl, rfl, rfl⟩)
      with ⟨v, hv, h⟩ | ⟨hnil, h⟩
    · exact hv ▸ Lists.singleton ⟨rfl, h⟩ fun _ _ h => h.1
    · refine hnil ▸ Lists.nil ?_
      rintro n v ⟨rfl, hv⟩
      exact h v hv
  have hfields : Lists (fun n v => n ≠ none ∧ e.ResetReport n v)
      (e.register.fields.flatMap fun f => f.resetValue.toList.filterMap fun reset =>
        if f.fits reset then none
        else some { kind := .resetRange, path := s!"{e.path}.{f.name}",
                    text := resetText reset f.bitWidth }) := by
    refine ((Lists.positions e.register.fields).flatMap_optional Lists.position_functional
      (S := fun f => RegisterMap.ResetReport s!"{e.path}.{f.name}" f.resetValue f.bitWidth)
      fun n f _ => ?_).reindex some (fun i j _ _ _ _ h => Option.some.inj h) fun n v => ?_
    · exact resetValue_cases f.resetValue f.fits_iff fun _ => ⟨rfl, rfl, rfl⟩
    · cases n with
      | none => simp
      | some n => simp [ResetReport]
  refine (hown.append hfields fun n v w hv hw => hw.1 hv.1).congr fun n v => ?_
  rw [← or_and_right]
  simp [Decidable.em]

namespace Model

/-- A model declares a name if the name is **one of its kind**. -/
theorem declares_iff (kind : EntityKind) (name : String) :
    m.declares kind name = true ↔ name ∈ m.namesOf kind := by
  rw [declares, List.contains_iff_mem]

/-- No kind declares a name for which no kind is found. -/
theorem kindsOf_eq_nil_iff (name : String) :
    m.kindsOf name = [] ↔ ∀ kind, name ∉ m.namesOf kind := by
  have hall : ∀ kind, kind ∈ EntityKind.all := by
    intro kind
    cases kind <;> decide
  simp only [kindsOf, List.filter_eq_nil_iff, declares_iff]
  exact forall_congr' fun kind => imp_iff_right (hall kind)

/-- A reference resolves when its name is declared under its kind. Otherwise it is reported, with a
violation that says whether the name is declared at all. -/
theorem badReference_cases (m : Model) (interface : String) (reference : NamedRef) :
    (∃ v, m.badReference interface reference = [v] ∧ m.ReferenceReport interface reference v) ∨
      m.badReference interface reference = [] ∧
        ∀ v, ¬ m.ReferenceReport interface reference v := by
  by_cases hdeclared : reference.name ∈ m.namesOf reference.kind
  · refine Or.inr ⟨?_, fun v hv => hv.1 hdeclared⟩
    simp [badReference, resolve, declares_iff, hdeclared]
  · refine Or.inl ?_
    cases hkinds : m.kindsOf reference.name with
    | nil =>
        have hmissing : m.resolve reference = .missing := by
          simp only [resolve, declares_iff, hdeclared, hkinds, if_false]
        rw [badReference, hmissing]
        exact ⟨_, rfl, hdeclared, Or.inl ⟨(kindsOf_eq_nil_iff _).mp hkinds, rfl, rfl, rfl⟩⟩
    | cons kind kinds =>
        have hwrong : m.resolve reference = .wrongKind (kind :: kinds) := by
          simp only [resolve, declares_iff, hdeclared, hkinds, if_false]
        rw [badReference, hwrong]
        refine ⟨_, rfl, hdeclared, Or.inr ⟨?_, rfl, rfl, rfl⟩⟩
        by_contra hnone
        rw [not_exists, ← kindsOf_eq_nil_iff, hkinds] at hnone
        cases hnone

end Model

/-! ### The checks -/

/-- The **check** that lists an offence, numbered in the order in which the checks run. -/
def Offence.check : Offence → ℕ
  | .sharedBits .. => 0
  | .pastRegister .. => 1
  | .sharedBytes .. => 2
  | .sharedAddresses .. => 3
  | .badReset .. => 4
  | .badReference .. => 5
  | .repeatedName .. => 6
  | .shortStride .. => 7

/-- The **list of siblings** that a scope means, numbered in the order in which they are searched.
-/
def Scope.search : Scope → ℕ
  | .entities .memoryMap => 0
  | .entities .clock => 1
  | .entities .reset => 2
  | .entities .busInterface => 3
  | .blocks _ => 4
  | .registers _ => 5
  | .fields _ => 6

namespace Model

variable (m)

/-- What the check of number `k` has to list. -/
def ReportsOf (k : ℕ) (o : Offence) (v : Violation) : Prop := o.check = k ∧ m.Reports o v

/-- Check 0 lists fields of one register that share bits. -/
theorem lists_fieldOverlaps : Lists (m.ReportsOf 0) (m.registers.flatMap (·.fieldOverlaps)) := by
  refine Lists.ranked Offence.check (fun x : RegisterPosition × (ℕ × ℕ) => .sharedBits x.1 x.2)
    (m.lists_registers.flatMap registerAt_functional fun p e _ => ?_) ?_ fun o => ?_
  · exact lists_clashReports fun q => ⟨rfl, rfl, rfl⟩
  · rintro ⟨p, q⟩ ⟨p', q'⟩ ⟨⟩
    rfl
  · cases o <;> simp [Offence.check]

/-- Check 1 lists fields that end past their register. -/
theorem lists_outOfBounds : Lists (m.ReportsOf 1) (m.fields.flatMap (·.outOfBounds)) := by
  refine Lists.ranked Offence.check (fun x : FieldPosition => .pastRegister x.1 x.2)
    (m.lists_fields.flatMap_optional fieldAt_functional fun p e _ => ?_) ?_ fun o => ?_
  · rw [FieldEntry.outOfBounds]
    split
    · next h => exact Or.inl ⟨_, rfl, h, rfl, rfl, rfl⟩
    · next h => exact Or.inr ⟨rfl, fun v hv => h hv.1⟩
  · rintro ⟨p, n⟩ ⟨p', n'⟩ ⟨⟩
    rfl
  · cases o <;> simp [Offence.check]

/-- Check 2 lists registers of one block that share addresses. -/
theorem lists_registerOverlaps :
    Lists (m.ReportsOf 2) (m.blocks.flatMap (·.registerOverlaps)) := by
  refine Lists.ranked Offence.check (fun x : BlockPosition × (ℕ × ℕ) => .sharedBytes x.1 x.2)
    (m.lists_blocks.flatMap blockAt_functional fun p e _ => ?_) ?_ fun o => ?_
  · exact lists_clashReports fun q => ⟨rfl, rfl, rfl⟩
  · rintro ⟨p, q⟩ ⟨p', q'⟩ ⟨⟩
    rfl
  · cases o <;> simp [Offence.check]

/-- Check 3 lists blocks of one map that share addresses. -/
theorem lists_blockOverlaps :
    Lists (m.ReportsOf 3) (m.memoryMaps.flatMap (·.blockOverlaps)) := by
  refine Lists.ranked Offence.check (fun x : ℕ × (ℕ × ℕ) => .sharedAddresses x.1 x.2)
    ((Lists.positions m.memoryMaps).flatMap Lists.position_functional fun n map _ => ?_) ?_
    fun o => ?_
  · exact lists_clashReports fun q => ⟨rfl, rfl, rfl⟩
  · rintro ⟨n, q⟩ ⟨n', q'⟩ ⟨⟩
    rfl
  · cases o <;> simp [Offence.check]

/-- Check 4 lists reset values that do not fit. -/
theorem lists_badResets : Lists (m.ReportsOf 4) (m.registers.flatMap (·.badResets)) := by
  refine Lists.ranked Offence.check (fun x : RegisterPosition × Option ℕ => .badReset x.1 x.2)
    (m.lists_registers.flatMap registerAt_functional fun p e _ => e.lists_badResets) ?_ fun o => ?_
  · rintro ⟨p, n⟩ ⟨p', n'⟩ ⟨⟩
    rfl
  · cases o <;> simp [Offence.check]

/-- Check 5 lists references to what is not declared. -/
theorem lists_badReferences : Lists (m.ReportsOf 5) m.badReferences := by
  refine Lists.ranked Offence.check (fun x : ℕ × ℕ => .badReference x.1 x.2)
    ((Lists.positions m.busInterfaces).flatMap Lists.position_functional fun i interface _ =>
      (Lists.positions interface.references).flatMap_optional Lists.position_functional
        fun n reference _ => m.badReference_cases interface.name reference) ?_ fun o => ?_
  · rintro ⟨i, n⟩ ⟨i', n'⟩ ⟨⟩
    rfl
  · cases o <;> simp [Offence.check]

/-- The search among the entities of one kind. -/
theorem lists_repeatedEntities (what : String) (kind : EntityKind) :
    Lists (fun (x : Scope × ℕ) v => x.1.search = (Scope.entities kind).search ∧
        m.ScopeReport x.1 x.2 v) (repeatedNames what "" (m.namesOf kind)) := by
  refine Lists.ranked (fun x : Scope × ℕ => x.1.search) (fun n => (.entities kind, n))
    (lists_repeatedNames what "" _) (fun _ _ h => (Prod.mk.inj h).2) fun x => ?_
  obtain ⟨scope, n⟩ := x
  cases scope with
  | entities kind' => cases kind <;> cases kind' <;> simp [Scope.search]
  | _ => cases kind <;> simp [Scope.search]

/-- Search 4 lists names of blocks that come up again **within a map**. -/
theorem lists_repeatedBlocks :
    Lists (fun (x : Scope × ℕ) v => x.1.search = 4 ∧ m.ScopeReport x.1 x.2 v)
      (m.memoryMaps.flatMap fun map =>
        repeatedNames "block" (map.name ++ ".") (map.blocks.map (·.name))) := by
  refine Lists.ranked (fun x : Scope × ℕ => x.1.search) (fun x : ℕ × ℕ => (.blocks x.1, x.2))
    ((Lists.positions m.memoryMaps).flatMap Lists.position_functional
      fun _ _ _ => lists_repeatedNames ..) ?_ fun x => ?_
  · rintro ⟨p, n⟩ ⟨p', n'⟩ ⟨⟩
    rfl
  · rcases x with ⟨⟨⟨⟩⟩ | _ | _ | _, n⟩ <;> simp [Scope.search]

/-- Search 5 lists names of registers that come up again **within a block**. -/
theorem lists_repeatedRegisters :
    Lists (fun (x : Scope × ℕ) v => x.1.search = 5 ∧ m.ScopeReport x.1 x.2 v)
      (m.blocks.flatMap fun e =>
        repeatedNames "register" (e.path ++ ".") (e.block.registers.map (·.name))) := by
  refine Lists.ranked (fun x : Scope × ℕ => x.1.search)
    (fun x : BlockPosition × ℕ => (.registers x.1, x.2))
    (m.lists_blocks.flatMap blockAt_functional fun _ _ _ => lists_repeatedNames ..) ?_ fun x => ?_
  · rintro ⟨p, n⟩ ⟨p', n'⟩ ⟨⟩
    rfl
  · rcases x with ⟨⟨⟨⟩⟩ | _ | _ | _, n⟩ <;> simp [Scope.search]

/-- Search 6 lists names of fields that come up again **within a register**. -/
theorem lists_repeatedFields :
    Lists (fun (x : Scope × ℕ) v => x.1.search = 6 ∧ m.ScopeReport x.1 x.2 v)
      (m.registers.flatMap fun e =>
        repeatedNames "field" (e.path ++ ".") (e.register.fields.map (·.name))) := by
  refine Lists.ranked (fun x : Scope × ℕ => x.1.search)
    (fun x : RegisterPosition × ℕ => (.fields x.1, x.2))
    (m.lists_registers.flatMap registerAt_functional fun _ _ _ => lists_repeatedNames ..) ?_
    fun x => ?_
  · rintro ⟨p, n⟩ ⟨p', n'⟩ ⟨⟩
    rfl
  · rcases x with ⟨⟨⟨⟩⟩ | _ | _ | _, n⟩ <;> simp [Scope.search]

/-- All lists of siblings are searched for repeated names, one after the other. -/
theorem lists_duplicateNames : Lists (m.ReportsOf 6) m.duplicateNames := by
  refine Lists.ranked Offence.check (fun x : Scope × ℕ => .repeatedName x.1 x.2) ?_ ?_ fun o => ?_
  · have none_yet : Lists (fun (x : Scope × ℕ) v => x.1.search < 0 ∧ m.ScopeReport x.1 x.2 v) [] :=
      Lists.nil fun x v h => Nat.not_lt_zero _ h.1
    have searched := ((((((none_yet.append_rank _
      (m.lists_repeatedEntities "memory map" .memoryMap)).append_rank _
      (m.lists_repeatedEntities "clock" .clock)).append_rank _
      (m.lists_repeatedEntities "reset" .reset)).append_rank _
      (m.lists_repeatedEntities "bus interface" .busInterface)).append_rank _
      m.lists_repeatedBlocks).append_rank _ m.lists_repeatedRegisters).append_rank _
      m.lists_repeatedFields
    rw [List.nil_append] at searched
    refine searched.congr fun x v => ?_
    have hlt : x.1.search < 7 := by
      rcases x with ⟨⟨⟨⟩⟩ | _ | _ | _, n⟩ <;> simp [Scope.search]
    exact (and_iff_right hlt).symm
  · rintro ⟨p, n⟩ ⟨p', n'⟩ ⟨⟩
    rfl
  · cases o <;> simp [Offence.check]

/-- Check 7 lists arrays with instances longer than the stride. -/
theorem lists_shortStrides : Lists (m.ReportsOf 7) (m.blocks.flatMap (·.shortStrides)) := by
  refine Lists.ranked Offence.check (fun x : BlockPosition × ℕ => .shortStride x.1 x.2)
    (m.lists_blocks.flatMap blockAt_functional fun _ e _ => e.lists_strideReports) ?_ fun o => ?_
  · rintro ⟨p, n⟩ ⟨p', n'⟩ ⟨⟩
    rfl
  · cases o <;> simp [Offence.check]

/-! ### All errors -/

/-- What is reported about an offence is an error. -/
theorem Reports.isError {o : Offence} {v : Violation} (h : m.Reports o v) : v.isError = true := by
  have hkind : ∃ kind path related, v.Says kind path related ∧ kind.severity = .error := by
    cases o with
    | sharedBits => obtain ⟨_, _, _, _, hsaid⟩ := h; exact ⟨_, _, _, hsaid, rfl⟩
    | pastRegister => obtain ⟨_, _, _, hsaid⟩ := h; exact ⟨_, _, _, hsaid, rfl⟩
    | sharedBytes => obtain ⟨_, _, _, _, hsaid⟩ := h; exact ⟨_, _, _, hsaid, rfl⟩
    | sharedAddresses => obtain ⟨_, _, _, _, hsaid⟩ := h; exact ⟨_, _, _, hsaid, rfl⟩
    | badReset p n =>
        obtain ⟨_, _, h⟩ := h
        cases n with
        | none => obtain ⟨_, _, _, hsaid⟩ := h; exact ⟨_, _, _, hsaid, rfl⟩
        | some n => obtain ⟨_, _, _, _, _, hsaid⟩ := h; exact ⟨_, _, _, hsaid, rfl⟩
    | badReference =>
        obtain ⟨_, _, _, _, _, ⟨_, hsaid⟩ | ⟨_, hsaid⟩⟩ := h
        · exact ⟨_, _, _, hsaid, rfl⟩
        · exact ⟨_, _, _, hsaid, rfl⟩
    | repeatedName scope n =>
        cases scope with
        | entities => obtain ⟨_, _, hsaid⟩ := h; exact ⟨_, _, _, hsaid, rfl⟩
        | blocks => obtain ⟨_, _, _, _, hsaid⟩ := h; exact ⟨_, _, _, hsaid, rfl⟩
        | registers => obtain ⟨_, _, _, _, hsaid⟩ := h; exact ⟨_, _, _, hsaid, rfl⟩
        | fields => obtain ⟨_, _, _, _, hsaid⟩ := h; exact ⟨_, _, _, hsaid, rfl⟩
    | shortStride => obtain ⟨_, _, _, _, _, hsaid⟩ := h; exact ⟨_, _, _, hsaid, rfl⟩
  obtain ⟨kind, path, related, hsaid, herror⟩ := hkind
  simp [Violation.isError, Violation.severity, hsaid.1, herror]

/-- A misaligned register is only a warning. -/
theorem isError_of_misaligned {v : Violation} (h : v ∈ m.registers.flatMap (·.misaligned)) :
    v.isError = false := by
  obtain ⟨e, -, hv⟩ := List.mem_flatMap.mp h
  rw [RegisterEntry.misaligned] at hv
  split at hv
  · obtain rfl := List.mem_singleton.mp hv
    rfl
  · cases hv

/-- The errors, check by check. -/
theorem filter_isError_violations :
    m.violations.filter (·.isError) =
      m.registers.flatMap (·.fieldOverlaps) ++ m.fields.flatMap (·.outOfBounds) ++
        m.blocks.flatMap (·.registerOverlaps) ++ m.memoryMaps.flatMap (·.blockOverlaps) ++
        m.registers.flatMap (·.badResets) ++ m.badReferences ++ m.duplicateNames ++
        m.blocks.flatMap (·.shortStrides) := by
  have keep {k : ℕ} {l : List Violation} (h : Lists (m.ReportsOf k) l) :
      l.filter (·.isError) = l := by
    refine List.filter_eq_self.mpr fun v hv => ?_
    obtain ⟨o, ho⟩ := h.exists_index hv
    exact ho.2.isError
  have drop : (m.registers.flatMap (·.misaligned)).filter (·.isError) = [] := by
    refine List.filter_eq_nil_iff.mpr fun v hv => ?_
    simp [isError_of_misaligned m hv]
  simp only [violations, violationsWith, List.filter_append, keep m.lists_fieldOverlaps,
    keep m.lists_outOfBounds, keep m.lists_registerOverlaps, keep m.lists_blockOverlaps,
    keep m.lists_badResets, keep m.lists_badReferences, keep m.lists_duplicateNames,
    keep m.lists_shortStrides, drop, List.append_nil]

/-- **The errors are the offences**, each reported once. -/
theorem lists_errors : Lists m.Reports (m.violations.filter (·.isError)) := by
  have none_yet : Lists (fun o v => o.check < 0 ∧ m.Reports o v) [] :=
    Lists.nil fun o v h => Nat.not_lt_zero _ h.1
  have checked := (((((((none_yet.append_rank _ m.lists_fieldOverlaps).append_rank _
    m.lists_outOfBounds).append_rank _ m.lists_registerOverlaps).append_rank _
    m.lists_blockOverlaps).append_rank _ m.lists_badResets).append_rank _
    m.lists_badReferences).append_rank _ m.lists_duplicateNames).append_rank _
    m.lists_shortStrides
  rw [List.nil_append] at checked
  rw [filter_isError_violations]
  refine checked.congr fun o v => ?_
  have hlt : o.check < 8 := by
    cases o <;> simp [Offence.check]
  exact (and_iff_right hlt).symm

variable {m}

/-- Every offence has a violation **on the list**. -/
theorem Reports.exists_violation {o : Offence} {v : Violation} (h : m.Reports o v) :
    ∃ w ∈ m.violations, m.Reports o w := by
  obtain ⟨w, hw, hreports⟩ := m.lists_errors.exists_item h
  exact ⟨w, List.mem_of_mem_filter hw, hreports⟩

end Model

/-! ### Sound models -/

/-- There is a violation for anything to be said. -/
theorem Violation.exists_says (kind : ViolationKind) (path : String) (related : List String) :
    ∃ v : Violation, v.Says kind path related :=
  ⟨⟨kind, path, "", related⟩, rfl, rfl, rfl⟩

/-- No pair is reported exactly when the items are pairwise disjoint. -/
theorem no_clashReport_iff {α : Type} {start stop : α → UInt64} {name : α → String}
    {kind : ViolationKind} {parent : String} {items : List α} :
    (∀ p v, ¬ ClashReport start stop name kind parent items p v) ↔
      items.Pairwise fun a b =>
        Disjoint (spanned start stop a).points (spanned start stop b).points := by
  rw [← no_clash_iff]
  constructor
  · intro h p q hq
    obtain ⟨v, hv⟩ := Violation.exists_says kind s!"{parent}.{name q.2}" [s!"{parent}.{name q.1}"]
    exact h p v ⟨q, hq, hv⟩
  · rintro h p v ⟨q, hq, -⟩
    exact h p q hq

/-- No name is reported exactly when the names are pairwise different. -/
theorem no_nameReport_iff {parent : String} {names : List String} :
    (∀ n v, ¬ NameReport parent names n v) ↔ names.Nodup := by
  rw [nodup_iff_not_repeatedAt]
  constructor
  · intro h n name hn
    obtain ⟨v, hv⟩ := Violation.exists_says .duplicateName (parent ++ name) []
    exact h n v ⟨name, hn, hv⟩
  · rintro h n v ⟨name, hn, -⟩
    exact h n name hn

/-- No reset value is reported exactly when it fits, if there is one. -/
theorem no_resetReport_iff {path : String} {resetValue : Option Word} {width : UInt32} :
    (∀ v, ¬ ResetReport path resetValue width v) ↔
      ∀ w ∈ resetValue, w.toNat < 2 ^ width.toNat := by
  constructor
  · intro h w hw
    by_contra hle
    obtain ⟨v, hv⟩ := Violation.exists_says .resetRange path []
    exact h v ⟨w, hw, Nat.not_lt.mp hle, hv⟩
  · rintro h v ⟨w, hw, hle, -⟩
    exact Nat.not_lt.mpr hle (h w hw)

/-- No reset value of a register is reported exactly when its own fits and those of its fields
do. -/
theorem RegisterEntry.no_resetReport_iff (e : RegisterEntry) :
    (∀ n v, ¬ e.ResetReport n v) ↔
      (∀ w ∈ e.register.resetValue, w.toNat < 2 ^ e.register.width.toNat) ∧
        ∀ f ∈ e.register.fields, ∀ w ∈ f.resetValue, w.toNat < 2 ^ f.bitWidth.toNat := by
  rw [Option.forall]
  refine and_congr RegisterMap.no_resetReport_iff ?_
  constructor
  · intro h f hf
    obtain ⟨n, hn⟩ := List.getElem?_of_mem hf
    exact RegisterMap.no_resetReport_iff.mp fun v hv => h n v ⟨f, hn, hv⟩
  · rintro h n v ⟨f, hf, hv⟩
    exact RegisterMap.no_resetReport_iff.mpr (h f (List.mem_of_getElem? hf)) v hv

/-- A register is sound exactly when nothing is reported about it. -/
theorem RegisterEntry.sound_iff (e : RegisterEntry) :
    e.register.Sound ↔
      (∀ q v, ¬ ClashReport (·.bitOffset.toUInt64) (·.bitEnd.toUInt64) (·.name)
          .fieldOverlap e.path e.register.fields q v) ∧
        (∀ f ∈ e.register.fields, f.bitEnd ≤ e.register.width) ∧
        (∀ n v, ¬ e.ResetReport n v) ∧
        ∀ n v, ¬ NameReport (e.path ++ ".") (e.register.fields.map (·.name)) n v := by
  rw [no_clashReport_iff, e.no_resetReport_iff, no_nameReport_iff]
  simp only [points_of_field]
  constructor
  · intro h
    exact ⟨h.fields_apart, h.fields_within, ⟨h.reset_fits, h.field_resets_fit⟩, h.fields_named⟩
  · rintro ⟨apart, within, ⟨fits, fields_fit⟩, named⟩
    exact ⟨apart, within, fits, fields_fit, named⟩

/-- No array is reported exactly when the strides suffice. -/
theorem BlockEntry.no_strideReport_iff (e : BlockEntry) :
    (∀ n v, ¬ e.StrideReport n v) ↔
      ∀ a ∈ e.block.arrays, a.descriptor.count ≤ 1 ∨ a.span ≤ a.descriptor.stride := by
  constructor
  · intro h a ha
    by_contra hshort
    rw [not_or, UInt64.not_le, UInt64.not_le] at hshort
    obtain ⟨n, hn⟩ := List.getElem?_of_mem ha
    obtain ⟨v, hv⟩ := Violation.exists_says .arrayStride s!"{e.path}.{a.name}" []
    exact h n v ⟨a, hn, hshort, hv⟩
  · rintro h n v ⟨a, ha, ⟨hcount, hspan⟩, -⟩
    rcases h a (List.mem_of_getElem? ha) with hle | hle
    · exact UInt64.not_le.mpr hcount hle
    · exact UInt64.not_le.mpr hspan hle

namespace Model

variable (m)

/-- No reference of an interface is reported exactly when its name is declared under its kind. -/
theorem no_referenceReport_iff (interface : String) (reference : NamedRef) :
    (∀ v, ¬ m.ReferenceReport interface reference v) ↔
      reference.name ∈ m.namesOf reference.kind := by
  constructor
  · intro h
    by_contra hundeclared
    by_cases hnone : ∀ kind, reference.name ∉ m.namesOf kind
    · obtain ⟨v, hv⟩ := Violation.exists_says .danglingReference interface [reference.name]
      exact h v ⟨hundeclared, Or.inl ⟨hnone, hv⟩⟩
    · obtain ⟨v, hv⟩ := Violation.exists_says .referenceKindMismatch interface [reference.name]
      exact h v ⟨hundeclared, Or.inr ⟨by simpa using hnone, hv⟩⟩
  · intro h v hv
    exact hv.1 h

variable {m}

/-- The blocks of a sound model are sound. -/
theorem Sound.block {p : BlockPosition} {e : BlockEntry} (h : m.Sound) (he : m.BlockAt p e) :
    e.block.Sound :=
  (h.maps_sound _ (List.mem_of_getElem? he.1)).blocks_sound _ (List.mem_of_getElem? he.2)

/-- So are its registers. -/
theorem Sound.register {p : RegisterPosition} {e : RegisterEntry} (h : m.Sound)
    (he : m.RegisterAt p e) : e.register.Sound :=
  (h.block he.1).registers_sound _ (List.mem_of_getElem? he.2)

/-- A sound model has no offences. -/
theorem Sound.not_reports (h : m.Sound) (o : Offence) (v : Violation) : ¬ m.Reports o v := by
  intro hv
  cases o with
  | sharedBits p q =>
      obtain ⟨e, he, hv⟩ := hv
      exact (e.sound_iff.mp (h.register he)).1 q v hv
  | pastRegister p n =>
      obtain ⟨e, he, hlt, -⟩ := hv
      exact UInt32.not_le.mpr hlt
        ((h.register he.1).fields_within _ (List.mem_of_getElem? he.2))
  | sharedBytes p q =>
      obtain ⟨e, he, hv⟩ := hv
      exact no_clashReport_iff.mpr (h.block he).registers_apart q v hv
  | sharedAddresses n q =>
      obtain ⟨map, hmap, hv⟩ := hv
      exact no_clashReport_iff.mpr (h.maps_sound _ (List.mem_of_getElem? hmap)).blocks_apart q v hv
  | badReset p n =>
      obtain ⟨e, he, hv⟩ := hv
      exact (e.sound_iff.mp (h.register he)).2.2.1 n v hv
  | badReference i n =>
      obtain ⟨interface, hi, reference, hr, hv⟩ := hv
      exact hv.1 (h.references_declared _ (List.mem_of_getElem? hi) _ (List.mem_of_getElem? hr))
  | repeatedName scope n =>
      cases scope with
      | entities kind => exact no_nameReport_iff.mpr (h.entities_named kind) n v hv
      | blocks k =>
          obtain ⟨map, hmap, hv⟩ := hv
          exact no_nameReport_iff.mpr
            (h.maps_sound _ (List.mem_of_getElem? hmap)).blocks_named n v hv
      | registers p =>
          obtain ⟨e, he, hv⟩ := hv
          exact no_nameReport_iff.mpr (h.block he).registers_named n v hv
      | fields p =>
          obtain ⟨e, he, hv⟩ := hv
          exact no_nameReport_iff.mpr (h.register he).fields_named n v hv
  | shortStride p n =>
      obtain ⟨e, he, hv⟩ := hv
      exact e.no_strideReport_iff.mpr (h.block he).strides_suffice n v hv

/-- A model without offences is sound, part by part of the tree. -/
theorem sound_of_not_reports (h : ∀ o v, ¬ m.Reports o v) : m.Sound := by
  refine ⟨fun kind => no_nameReport_iff.mp fun n v => h (.repeatedName (.entities kind) n) v,
    fun i hi r hr => ?_, fun map hmap => ?_⟩
  · obtain ⟨i', hi'⟩ := List.getElem?_of_mem hi
    obtain ⟨n, hn⟩ := List.getElem?_of_mem hr
    exact (m.no_referenceReport_iff i.name r).mp fun v hv =>
      h (.badReference i' n) v ⟨i, hi', r, hn, hv⟩
  obtain ⟨n, hn⟩ := List.getElem?_of_mem hmap
  refine ⟨no_clashReport_iff.mp fun q v hv => h (.sharedAddresses n q) v ⟨map, hn, hv⟩,
    no_nameReport_iff.mp fun k v hv => h (.repeatedName (.blocks n) k) v ⟨map, hn, hv⟩,
    fun b hb => ?_⟩
  obtain ⟨k, hk⟩ := List.getElem?_of_mem hb
  have hblock : m.BlockAt (n, k) ⟨map, b⟩ := ⟨hn, hk⟩
  refine ⟨no_clashReport_iff.mp fun q v hv => h (.sharedBytes _ q) v ⟨_, hblock, hv⟩,
    no_nameReport_iff.mp fun i v hv => h (.repeatedName (.registers _) i) v ⟨_, hblock, hv⟩,
    (BlockEntry.no_strideReport_iff ⟨map, b⟩).mp fun i v hv =>
      h (.shortStride _ i) v ⟨_, hblock, hv⟩,
    fun r hr => ?_⟩
  obtain ⟨i, hi⟩ := List.getElem?_of_mem hr
  have hregister : m.RegisterAt ((n, k), i) { map, block := b, register := r } := ⟨hblock, hi⟩
  refine (RegisterEntry.sound_iff { map, block := b, register := r }).mpr
    ⟨fun q v hv => h (.sharedBits _ q) v ⟨_, hregister, hv⟩, fun f hf => ?_,
      fun j v hv => h (.badReset _ j) v ⟨_, hregister, hv⟩,
      fun j v hv => h (.repeatedName (.fields _) j) v ⟨_, hregister, hv⟩⟩
  obtain ⟨j, hj⟩ := List.getElem?_of_mem hf
  by_contra hpast
  let e : FieldEntry := { map, block := b, register := r, field := f }
  obtain ⟨v, hv⟩ := Violation.exists_says .fieldBounds e.path []
  exact h (.pastRegister _ j) v ⟨e, ⟨hregister, hj⟩, UInt32.not_le.mp hpast, hv⟩

variable (m)

/-- **Soundness, decided.** A model is sound exactly when no rule is broken anywhere. -/
theorem sound_iff : m.Sound ↔ ∀ o v, ¬ m.Reports o v :=
  ⟨Sound.not_reports, sound_of_not_reports⟩

/-- The verdict is that there are no errors. -/
theorem isValid_iff_filter_eq_nil :
    m.isValid = true ↔ m.violations.filter (·.isError) = [] := by
  simp [isValid, List.filter_eq_nil_iff]

/-- **The verdict**: a model is valid exactly when it is sound. -/
theorem isValid_iff_sound : m.isValid = true ↔ m.Sound :=
  m.isValid_iff_filter_eq_nil.trans (m.lists_errors.eq_nil_iff.trans m.sound_iff.symm)

variable {m}

/-- No violation of a sound model is of a kind that counts as an error. -/
theorem Sound.kind_ne (h : m.Sound) {kind : ViolationKind} (hkind : kind.severity = .error) :
    ∀ v ∈ m.violations, v.kind ≠ kind := by
  rintro v hv rfl
  have hnone := m.isValid_iff_filter_eq_nil.mp (m.isValid_iff_sound.mpr h)
  refine List.filter_eq_nil_iff.mp hnone v hv ?_
  rw [Violation.isError, Violation.severity, hkind]
  rfl

end Model

/-! ### The report -/

namespace ValidationReport

/-- A report has the violations of its model. -/
theorem ofModel_violations (m : Model) : (ofModel m).violations = m.violations := by
  simp only [ofModel]

/-- A report says that the model is valid **exactly if it is**. -/
theorem ofModel_valid (m : Model) : (ofModel m).valid = m.isValid := by
  simp only [ofModel, Model.isValid]

/-- Every violation counts as an error or as a warning. -/
theorem countOf_add_countOf (violations : List Violation) :
    countOf violations .error + countOf violations .warning = violations.length := by
  rw [List.length_eq_countP_add_countP (p := fun v : Violation => v.severity == .error)]
  refine congrArg _ (List.countP_congr fun v _ => ?_)
  cases v.severity <;> decide

/-- The errors and warnings of a report are all its violations. -/
theorem ofModel_errors_add_warnings (m : Model) :
    (ofModel m).summary.errors + (ofModel m).summary.warnings =
      (ofModel m).violations.length := by
  simp only [ofModel, countOf_add_countOf]

/-- The verdict of a report is that it counts no error. -/
theorem ofModel_valid_iff (m : Model) :
    (ofModel m).valid = true ↔ (ofModel m).summary.errors = 0 := by
  simp only [ofModel, countOf, Bool.not_eq_true', List.any_eq_false, List.countP_eq_zero,
    Violation.isError]

end ValidationReport

/-- **The validator is sound, complete and exact.** A model is valid exactly when it is sound. The
errors are, one for one, about the offences of the model. A report holds all violations, each
counted once, and its verdict is that no error was counted. -/
theorem Model.validation_exact (m : Model) :
    (m.isValid = true ↔ m.Sound) ∧
      (∃ os : List Offence, os.Nodup ∧ (∀ o, o ∈ os ↔ m.Offends o) ∧
        List.Forall₂ m.Reports os (m.violations.filter (·.isError))) ∧
      (ValidationReport.ofModel m).violations = m.violations ∧
      (ValidationReport.ofModel m).valid = m.isValid ∧
      (ValidationReport.ofModel m).summary.errors + (ValidationReport.ofModel m).summary.warnings =
        (ValidationReport.ofModel m).violations.length ∧
      ((ValidationReport.ofModel m).valid = true ↔
        (ValidationReport.ofModel m).summary.errors = 0) := by
  refine ⟨m.isValid_iff_sound, m.lists_errors, ?_, ?_, ?_, ?_⟩
  · exact ValidationReport.ofModel_violations m
  · exact ValidationReport.ofModel_valid m
  · exact ValidationReport.ofModel_errors_add_warnings m
  · exact ValidationReport.ofModel_valid_iff m

end RegisterMap
