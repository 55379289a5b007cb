import RegisterMap.Proofs.Instances
import RegisterMap.Proofs.Numerals

/-!
# The Names of Instances

A pattern turns an index into a name by writing its decimal digits into every placeholder. Digits
may stand next to each other and next to digits of the pattern, so a name does not show by itself
where an index begins and ends. Still, no two indices have one name: behind the text in front of
the first placeholder, a name goes on with a run of digits, and the pattern makes the length of this
run a linear function of the number of digits of the index. Two names that are equal therefore have
indices of equally many digits, which are then the same ones.

A register of an array has its template's name behind an underscore, which ends every such run. So
the name of a register determines its index and the name of its template.

## Main results

* `substituteIndex_eq` — substitution in a pattern, piece by piece.
* `digitRun_fill` — how many digits follow the first placeholder.
* `fill_inj` — the digits that fill a pattern can be read back.
* `ArrayDescriptor.indicesFit_iff` — when instances have indices of their own.
* `RegisterArray.materialize_name_eq_iff` — when registers of an array have one name.
* `RegisterArray.names_unambiguous` — the names of registers and of interfaces in arrays.
-/

namespace RegisterMap

/-! ### Pieces of a pattern -/

/-- The pieces of a pattern from left to right: its characters, and `none` for a **placeholder**. -/
def patternPieces : List Char → List (Option Char)
  | [] => []
  | '{' :: 'i' :: 'n' :: 'd' :: 'e' :: 'x' :: '}' :: rest => none :: patternPieces rest
  | c :: rest => some c :: patternPieces rest

/-- The pieces, with a text **in place of each placeholder**. -/
def fill (text : List Char) (pieces : List (Option Char)) : List Char :=
  pieces.flatMap fun
    | none => text
    | some c => [c]

section Fill

variable (text : List Char)

/-- Nothing is filled in where there are no pieces. -/
@[simp]
theorem fill_nil : fill text [] = [] := rfl

/-- A placeholder is filled with **the text**. -/
@[simp]
theorem fill_none (ps : List (Option Char)) : fill text (none :: ps) = text ++ fill text ps := rfl

/-- A character of the pattern stays. -/
@[simp]
theorem fill_some (c : Char) (ps : List (Option Char)) :
    fill text (some c :: ps) = c :: fill text ps := rfl

/-- Pieces are filled one after another. -/
theorem fill_append (ps qs : List (Option Char)) :
    fill text (ps ++ qs) = fill text ps ++ fill text qs := List.flatMap_append

/-- A pattern without placeholders stays as it is. -/
theorem fill_map_some (cs : List Char) : fill text (cs.map some) = cs := by
  induction cs with
  | nil => rfl
  | cons c cs ih => rw [List.map_cons, fill_some, ih]

/-- Substitution **fills the pieces** of the pattern. -/
theorem substituteIndex_eq (pattern : List Char) :
    substituteIndex text pattern =
      (fill text (patternPieces pattern), decide (none ∈ patternPieces pattern)) := by
  induction pattern using patternPieces.induct with
  | case1 => rfl
  | case2 rest ih => simp [substituteIndex, patternPieces, ih]
  | case3 c rest hplain ih => simp [substituteIndex, patternPieces, ih]

end Fill

/-! ### Runs of digits -/

/-- The number of digits that a text **starts with**. -/
def digitRun (cs : List Char) : ℕ := (cs.takeWhile Char.isDigit).length

/-- A run of digits goes on behind digits. -/
theorem digitRun_append {ds : List Char} (h : ∀ c ∈ ds, c.isDigit) (cs : List Char) :
    digitRun (ds ++ cs) = ds.length + digitRun cs := by
  rw [digitRun, List.takeWhile_append_of_pos h, List.length_append, digitRun]

/-- In front of an underscore, a filled pattern starts with a run of digits whose length depends on
that of the filling **linearly**, and on nothing else. -/
theorem digitRun_fill (ps : List (Option Char)) :
    ∃ a b, ∀ ds : List Char, (∀ c ∈ ds, c.isDigit) → ∀ rest,
      digitRun (fill ds ps ++ '_' :: rest) = a * ds.length + b := by
  induction ps with
  | nil => exact ⟨0, 0, fun ds hds rest => by simp [digitRun]⟩
  | cons p ps ih =>
      obtain ⟨a, b, hrun⟩ := ih
      cases p with
      | none =>
          refine ⟨a + 1, b, fun ds hds rest => ?_⟩
          rw [fill_none, List.append_assoc, digitRun_append hds, hrun ds hds rest, Nat.succ_mul]
          omega
      | some c =>
          by_cases hc : c.isDigit
          · refine ⟨a, b + 1, fun ds hds rest => ?_⟩
            rw [fill_some, List.cons_append, digitRun, List.takeWhile_cons_of_pos hc,
              List.length_cons, ← digitRun, hrun ds hds rest, Nat.add_assoc]
          · refine ⟨0, 0, fun ds hds rest => ?_⟩
            rw [fill_some, List.cons_append, digitRun, List.takeWhile_cons_of_neg hc]
            simp

/-- The digits that fill a pattern with a placeholder **can be read back**, and so can what follows
an underscore behind it. -/
theorem fill_inj {ps : List (Option Char)} (hps : none ∈ ps) {ds es : List Char}
    (hds : ∀ c ∈ ds, c.isDigit) (hes : ∀ c ∈ es, c.isDigit) {rest rest' : List Char}
    (h : fill ds ps ++ '_' :: rest = fill es ps ++ '_' :: rest') : ds = es ∧ rest = rest' := by
  have hdigits : ds = es := by
    induction ps with
    | nil => cases hps
    | cons p ps ih =>
        cases p with
        | some c => exact ih ((List.mem_cons.mp hps).resolve_left nofun) (List.cons.inj h).2
        | none =>
            -- The first placeholder starts the run, so digits of another length make another run.
            obtain ⟨a, b, hrun⟩ := digitRun_fill ps
            rw [fill_none, fill_none, List.append_assoc, List.append_assoc] at h
            have hlength : (a + 1) * ds.length = (a + 1) * es.length := by
              have heq := congrArg digitRun h
              rw [digitRun_append hds, digitRun_append hes, hrun ds hds, hrun es hes] at heq
              rw [Nat.succ_mul, Nat.succ_mul]
              omega
            exact (List.append_inj h (Nat.eq_of_mul_eq_mul_left a.succ_pos hlength)).1
  subst hdigits
  exact ⟨rfl, (List.cons.inj (List.append_cancel_left h)).2⟩

/-! ### Names and indices -/

/-- The decimal digits of an index. -/
def indexDigits (index : UInt64) : List Char := (toString index.toNat).toList

/-- An index is written in decimal. -/
theorem indexDigits_eq (index : UInt64) : indexDigits index = Nat.toDigits 10 index.toNat :=
  Nat.toList_repr

/-- An index is written in digits only. -/
theorem isDigit_of_mem_indexDigits (index : UInt64) : ∀ c ∈ indexDigits index, c.isDigit := by
  rw [indexDigits_eq]
  exact fun c hc => Nat.isDigit_of_mem_toDigits (by decide) (by decide) hc

/-- The digits of an index tell **which index it is**. -/
theorem indexDigits_injective : Function.Injective indexDigits := by
  intro m n h
  rw [indexDigits_eq, indexDigits_eq] at h
  have hread := congrArg (Text.ofDigits? 10) h
  rw [Text.ofDigits?_toDigits (by decide) (by decide),
    Text.ofDigits?_toDigits (by decide) (by decide)] at hread
  exact UInt64.toNat_inj.mp (Option.some.inj hread)

/-- The pieces of the names that a pattern gives: a pattern without a placeholder has one **at its
end**. -/
def namePieces (pattern : String) : List (Option Char) :=
  if none ∈ patternPieces pattern.toList then patternPieces pattern.toList
  else patternPieces pattern.toList ++ [none]

/-- Every pattern has a place for the index, **at its end if nowhere else**. -/
theorem none_mem_namePieces (pattern : String) : none ∈ namePieces pattern := by
  rw [namePieces]
  split
  next h => exact h
  next h => exact List.mem_append_right _ List.mem_cons_self

/-- A pattern names an index by **filling its pieces** with the digits. -/
theorem toList_expandPattern (pattern : String) (index : UInt64) :
    (expandPattern pattern index).toList = fill (indexDigits index) (namePieces pattern) := by
  rw [expandPattern, ← indexDigits, substituteIndex_eq, namePieces]
  by_cases h : none ∈ patternPieces pattern.toList
  · simp [h]
  · simp [h, fill_append]

/-- **No two indices have one name**, whatever the pattern is. -/
theorem expandPattern_injective (pattern : String) :
    Function.Injective (expandPattern pattern) := by
  intro m n h
  have hfill := congrArg (·.toList ++ '_' :: []) h
  simp only [toList_expandPattern] at hfill
  exact indexDigits_injective (fill_inj (none_mem_namePieces pattern)
    (isDigit_of_mem_indexDigits m) (isDigit_of_mem_indexDigits n) hfill).1

/-- The characters of two texts around an underscore. -/
theorem toList_underscore (s t : String) : s!"{s}_{t}".toList = s.toList ++ '_' :: t.toList := by
  have happend : s!"{s}_{t}" = s ++ ("_" ++ t) := String.append_assoc ..
  rw [happend, String.toList_append, String.toList_append]
  rfl

namespace RegisterArray

/-- The pieces of the names of instances. -/
def instancePieces (a : RegisterArray) : List (Option Char) :=
  match a.descriptor.naming with
  | some pattern => namePieces pattern
  | none => a.name.toList.map some ++ [some '_', none]

/-- So has the pattern of an array. -/
theorem none_mem_instancePieces (a : RegisterArray) : none ∈ a.instancePieces := by
  rw [instancePieces]
  split
  next pattern _ => exact none_mem_namePieces pattern
  next => simp

/-- The name of an instance is the pattern of its array, filled with **its own index**. -/
theorem toList_instanceName (a : RegisterArray) (i : UInt64) :
    (a.instanceName i).toList = fill (indexDigits (a.descriptor.indexOf i)) a.instancePieces := by
  rw [instanceName, instancePieces]
  cases a.descriptor.naming with
  | some pattern => exact toList_expandPattern pattern _
  | none =>
      have hname (index : UInt64) : s!"{a.name}_{index.toNat}".toList =
          a.name.toList ++ '_' :: indexDigits index := toList_underscore a.name _
      rw [hname, fill_append, fill_map_some, fill_some, fill_none, fill_nil, List.append_nil]

/-- Registers of an array have one name exactly when they have **one index**, and their templates
one name. -/
theorem materialize_name_eq_iff (a : RegisterArray) (i j : UInt64) (t u : Register) :
    (a.materialize i t).name = (a.materialize j u).name ↔
      a.descriptor.indexOf i = a.descriptor.indexOf j ∧ t.name = u.name := by
  have hname (i : UInt64) (t : Register) : (a.materialize i t).name.toList =
      fill (indexDigits (a.descriptor.indexOf i)) a.instancePieces ++ '_' :: t.name.toList := by
    rw [← a.toList_instanceName]
    exact toList_underscore _ _
  rw [← String.toList_inj, hname, hname]
  constructor
  · intro h
    obtain ⟨hdigits, hrest⟩ := fill_inj a.none_mem_instancePieces (isDigit_of_mem_indexDigits _)
      (isDigit_of_mem_indexDigits _) h
    exact ⟨indexDigits_injective hdigits, String.toList_inj.mp hrest⟩
  · rintro ⟨hindex, hrest⟩
    rw [hindex, hrest]

end RegisterArray

/-! ### Indices of instances -/

namespace ArrayDescriptor

/-- The index of the last instance, and with it those of all, is an **exact sum**. -/
def IndicesFit (d : ArrayDescriptor) : Prop :=
  d.indexStart.toNat + d.count.toNat - 1 < UInt64.size

instance (d : ArrayDescriptor) : Decidable d.IndicesFit := inferInstanceAs (Decidable (_ < _))

/-- The instances have **indices of their own** exactly when all these fit. -/
theorem indicesFit_iff (d : ArrayDescriptor) :
    d.IndicesFit ↔ ∀ i j, i < j → j < d.count → d.indexOf i ≠ d.indexOf j := by
  have hindex (i : UInt64) :
      (d.indexOf i).toNat = min (d.indexStart.toNat + i.toNat) (UInt64.size - 1) :=
    satAdd_toNat _ _
  constructor
  · intro hfit i j hij hj heq
    have heq := congrArg UInt64.toNat heq
    rw [hindex, hindex] at heq
    rw [UInt64.lt_iff_toNat_lt] at hij hj
    rw [IndicesFit] at hfit
    omega
  · intro hown
    by_contra hfit
    -- The indices of the last two instances are clamped.
    have hstart := d.indexStart.toNat_lt
    rw [IndicesFit, UInt64.size] at hfit
    have hi := toNat_ofNat_of_lt_count (d := d) (n := d.count.toNat - 2) (by omega)
    have hj := toNat_ofNat_of_lt_count (d := d) (n := d.count.toNat - 1) (by omega)
    refine hown (.ofNat (d.count.toNat - 2)) (.ofNat (d.count.toNat - 1)) ?_ ?_ ?_
    · rw [UInt64.lt_iff_toNat_lt, hi, hj]
      omega
    · rw [UInt64.lt_iff_toNat_lt, hj]
      omega
    · rw [← UInt64.toNat_inj, hindex, hindex, hi, hj, UInt64.size]
      omega

/-- Names that tell indices apart tell the **instances** apart, if all their indices fit. -/
theorem nodup_names_iff (d : ArrayDescriptor) {name : UInt64 → String}
    (hname : Function.Injective name) :
    (d.instances.map fun i => name (d.indexOf i)).Nodup ↔ d.IndicesFit := by
  rw [List.nodup_iff_pairwise_ne, List.pairwise_map, pairwise_instances_iff, indicesFit_iff]
  simp only [hname.ne_iff]

end ArrayDescriptor

/-- The registers of an array have **names of their own** exactly when their templates do and all
indices fit, if there are any registers. -/
theorem RegisterArray.nodup_names_iff (a : RegisterArray) :
    (a.expand.map (·.name)).Nodup ↔
      a.expand = [] ∨ a.descriptor.IndicesFit ∧ (a.registers.map (·.name)).Nodup := by
  by_cases hnil : a.expand = []
  · simp [hnil]
  obtain ⟨r, hr⟩ := List.exists_mem_of_ne_nil _ hnil
  obtain ⟨k, hk, t, ht, -⟩ := mem_expand_iff.mp hr
  have hk : k < a.descriptor.count := decide_eq_true_eq.mp hk
  rw [or_iff_right hnil, List.nodup_iff_pairwise_ne, List.nodup_iff_pairwise_ne,
    List.pairwise_map, List.pairwise_map, pairwise_expand_iff, a.descriptor.indicesFit_iff]
  simp only [ne_eq, materialize_name_eq_iff, true_and]
  constructor
  · rintro ⟨hsame, hlater⟩
    exact ⟨fun i j hij hj hindex => hlater i j hij hj t ht t ht ⟨hindex, rfl⟩, hsame k hk⟩
  · rintro ⟨hindices, htemplates⟩
    exact ⟨fun _ _ => htemplates, fun i j hij hj _ _ _ _ h => hindices i j hij hj h.1⟩

/-- **Names are unambiguous.** Registers of two instances of an array have different names, whatever
the pattern and the names of the templates are, as long as all indices fit; and the names of all
registers of an array are distinct exactly if those of the template are. A pattern gives different
names to different indices. So the instances of an interface have names of their own, and signals
of their own, exactly if all indices fit. -/
theorem names_unambiguous :
    (∀ a : RegisterArray, a.descriptor.IndicesFit →
      ∀ i < a.descriptor.count, ∀ j < a.descriptor.count, i ≠ j → ∀ t u : Register,
        (a.materialize i t).name ≠ (a.materialize j u).name) ∧
    (∀ a : RegisterArray, (a.expand.map (·.name)).Nodup ↔
      a.expand = [] ∨ a.descriptor.IndicesFit ∧ (a.registers.map (·.name)).Nodup) ∧
    (∀ pattern, Function.Injective (expandPattern pattern)) ∧
    ∀ (i : DraftInterface) (r : DraftInterfaceArray), i.array = some r →
      ((i.resolve.map (·.name)).Nodup ↔ (DraftInterface.descriptor r).IndicesFit) ∧
      ((i.resolve.map (·.signalsStart)).Nodup ↔ (DraftInterface.descriptor r).IndicesFit) := by
  refine ⟨fun a hfit i hi j hj hij t u hname => ?_, RegisterArray.nodup_names_iff,
    expandPattern_injective, fun i r hr => ?_⟩
  · have hindices := a.descriptor.indicesFit_iff.mp hfit
    obtain ⟨hindex, -⟩ := (a.materialize_name_eq_iff i j t u).mp hname
    rcases UInt64.lt_or_lt_of_ne hij with hlt | hlt
    · exact hindices i j hlt hj hindex
    · exact hindices j i hlt hi hindex.symm
  · rw [DraftInterface.resolve, hr, List.map_map, List.map_map]
    exact ⟨ArrayDescriptor.nodup_names_iff _ (expandPattern_injective _),
      ArrayDescriptor.nodup_names_iff _ (expandPattern_injective _)⟩

/-! ### An index written twice -/

namespace RepeatedIndex

/-- A pattern that writes the index twice and a one behind it. -/
def pattern : String := "\x7bindex\x7d\x7bindex\x7d1"

/-- A register of four bytes. -/
def register (name : String) (offset : Address) : Register :=
  { name, offset, width := 32, access := .readWrite }

/-- Twelve channels of two registers. -/
def channels : RegisterArray :=
  { name := "ch", offset := 0, descriptor := { count := 12, stride := 8, naming := some pattern },
    registers := [register "a" 0, register "1_a" 4] }

/-- Twelve ports, in groups of signals that are named like the channels. -/
def replication : DraftInterfaceArray :=
  { count := 12, stride := 0, indexStart := 0, naming := none, physicalPattern := some pattern }

/-- An interface with the ports. -/
def ports : DraftInterface :=
  { path := "port", name := "port", protocol := none, mode := .slave, baseAddress := none,
    signalsStart := none, clock := none, reset := none, memoryMap := none,
    array := some replication }

/-- The names of the channels 1 and 11 consist of ones only, in front of the underscore. Their
registers have different names all the same, and so have all registers and ports. -/
theorem names_unambiguous_ones :
    channels.descriptor.IndicesFit ∧
      (channels.materialize 1 (register "1_a" 4)).name = "111_1_a" ∧
      (channels.materialize 11 (register "a" 0)).name = "11111_a" ∧
      (∀ t u : Register, (channels.materialize 1 t).name ≠ (channels.materialize 11 u).name) ∧
      (channels.expand.map (·.name)).Nodup ∧ (ports.resolve.map (·.name)).Nodup ∧
      (ports.resolve.map (·.signalsStart)).Nodup := by
  obtain ⟨hapart, hexpand, -, hports⟩ := names_unambiguous
  have hfit : channels.descriptor.IndicesFit := by decide
  have hnames : (channels.registers.map (·.name)).Nodup := by decide
  have hreplication : (DraftInterface.descriptor replication).IndicesFit := by decide
  refine ⟨hfit, rfl, rfl, hapart channels hfit 1 (by decide) 11 (by decide) (by decide),
    (hexpand channels).mpr (.inr ⟨hfit, hnames⟩), ?_, ?_⟩
  · exact (hports ports replication rfl).1.mpr hreplication
  · exact (hports ports replication rfl).2.mpr hreplication

end RepeatedIndex

end RegisterMap
