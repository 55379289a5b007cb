import Mathlib.Data.List.Forall2
import RegisterMap.Model.Caching

/-!
# What a Model in Use Remembers

Whatever a model remembers, it is equal to every model that says the same. And what it remembers is
right, if all of it comes from questions that it was asked: an answer from memory is the answer that
a fresh look-up gives.

## Main results

* `CachedModel.beq_iff`: equality of models in use is equality of what they say.
* `SymbolTable.kinds_ofModel`: the symbol table knows the kinds of every name.
* `run_lookupReference`: looking a reference up in the symbol table finds what is declared.
* `CachedRef.run_ask`: a reference that remembers the truth answers with it, and goes on so.
* `CachedModel.plain_ask`, `CachedModel.remembers_ask`: asking every reference changes nothing of
  what the model says, and leaves only right answers behind.
-/

namespace RegisterMap

/-! ### Equality -/

/-- Lists of items that are equal when `f` does not tell them apart. -/
theorem beq_iff_map_eq {α β : Type} [BEq α] {f : α → β} (h : ∀ a b : α, a == b ↔ f a = f b) :
    ∀ l k : List α, l == k ↔ l.map f = k.map f
  | [], [] => by simp
  | [], b :: k => by simp
  | a :: l, [] => by simp
  | a :: l, b :: k => by simp [h a b, beq_iff_map_eq h l k]

/-- References in use are equal if they say the same. -/
theorem CachedRef.beq_iff (a b : CachedRef) : a == b ↔ a.toNamedRef = b.toNamedRef := by
  obtain ⟨⟨kind, name⟩, resolved⟩ := a
  obtain ⟨⟨kind', name'⟩, resolved'⟩ := b
  have hbeq : (CachedRef.mk ⟨kind, name⟩ resolved == ⟨⟨kind', name'⟩, resolved'⟩) =
      (kind == kind' && name == name') := rfl
  simp [hbeq]

/-- So are optional references. -/
theorem CachedRef.beq_iff_option (a b : Option CachedRef) :
    a == b ↔ a.map (·.toNamedRef) = b.map (·.toNamedRef) := by
  cases a <;> cases b <;> simp [CachedRef.beq_iff]

/-- Interfaces in use are equal **if they say the same**. -/
theorem CachedInterface.beq_iff (i j : CachedInterface) : i == j ↔ i.plain = j.plain := by
  have hbeq : (i == j) = (i.name == j.name && (i.signalsStart == j.signalsStart &&
      (i.protocol == j.protocol && (i.mode == j.mode && (i.baseAddress == j.baseAddress &&
      (i.arrayInstance == j.arrayInstance && (i.clock == j.clock && (i.reset == j.reset &&
      i.memoryMap == j.memoryMap)))))))) := rfl
  simp [hbeq, plain, CachedRef.beq_iff_option]

/-- **Equal models say the same**, and models that say the same are equal. -/
theorem CachedModel.beq_iff (m n : CachedModel) : m == n ↔ m.plain = n.plain := by
  have hbeq : (m == n) = (m.memoryMaps == n.memoryMaps && m.clocks == n.clocks &&
      m.resets == n.resets && m.busInterfaces == n.busInterfaces) := rfl
  simp [hbeq, plain, beq_iff_map_eq CachedInterface.beq_iff, and_assoc]

/-- A model that nobody asked says what it was made from. -/
theorem CachedModel.plain_ofModel (m : Model) : (ofModel m).plain = m := by
  have hplain : CachedInterface.plain ∘ CachedInterface.ofInterface = id := by
    funext i
    simp [CachedInterface.plain, CachedInterface.ofInterface, Function.comp_def]
  simp [plain, ofModel, hplain]

/-! ### Symbol tables -/

namespace SymbolTable

/-- A name in front has its own kinds, and the others those behind it. -/
theorem kinds_cons (n : String) (ks : List EntityKind) (table : SymbolTable) (wanted : String) :
    kinds ((n, ks) :: table) wanted = if wanted = n then ks else kinds table wanted := by
  unfold kinds
  by_cases h : wanted = n
  · simp [h]
  · have hne : (wanted == n) = false := by simpa using h
    simp [List.lookup_cons, hne, h]

/-- Declaring a name adds its kind, **unless it is there**. -/
theorem kinds_declare (table : SymbolTable) (name : String) (kind : EntityKind) (wanted : String) :
    (table.declare name kind).kinds wanted =
      if wanted = name ∧ kind ∉ table.kinds name then table.kinds wanted ++ [kind]
      else table.kinds wanted := by
  induction table with
  | nil =>
    rw [declare, kinds_cons]
    by_cases h : wanted = name <;> simp [h, kinds]
  | cons entry table ih =>
    obtain ⟨n, ks⟩ := entry
    rw [declare]
    by_cases hn : n = name
    · subst hn
      by_cases hw : wanted = n <;> by_cases hk : kind ∈ ks <;> simp [kinds_cons, hw, hk]
    · rw [if_neg hn, kinds_cons, kinds_cons, kinds_cons, ih, if_neg (Ne.symm hn)]
      by_cases hw : wanted = n
      · have hne : wanted ≠ name := hw ▸ hn
        simp [hw, hn]
      · simp [hw]

/-- Declare names under one kind, one after another. -/
theorem kinds_foldl_declare (names : List String) (kind : EntityKind) (table : SymbolTable)
    (wanted : String) :
    (names.foldl (declare · · kind) table).kinds wanted =
      if wanted ∈ names ∧ kind ∉ table.kinds wanted then table.kinds wanted ++ [kind]
      else table.kinds wanted := by
  induction names generalizing table with
  | nil => simp
  | cons name names ih =>
    rw [List.foldl_cons, ih, kinds_declare]
    by_cases hw : wanted = name
    · subst hw
      by_cases hk : kind ∈ table.kinds wanted <;> simp [hk]
    · simp [hw]

/-- **The symbol table knows the kinds of every name**, in the order of the kinds. -/
theorem kinds_ofModel (m : Model) (name : String) : (ofModel m).kinds name = m.kindsOf name := by
  have hempty : kinds [] name = [] := rfl
  simp only [ofModel, Model.kindsOf, EntityKind.all, List.foldl_cons, List.foldl_nil,
    kinds_foldl_declare, hempty, Model.declares]
  by_cases hc : name ∈ m.namesOf .clock <;> by_cases hr : name ∈ m.namesOf .reset <;>
    by_cases hm : name ∈ m.namesOf .memoryMap <;> by_cases hb : name ∈ m.namesOf .busInterface <;>
    simp [hc, hr, hm, hb]

end SymbolTable

/-! ### Asking -/

/-- A symbol table that is there **is the model's own**. -/
def Recalls (m : Model) (symbols : Option SymbolTable) : Prop :=
  ∀ table ∈ symbols, table = SymbolTable.ofModel m

/-- A reference that has an answer **has the right one**. -/
def CachedRef.Remembers (m : Model) (r : CachedRef) : Prop :=
  ∀ answer ∈ r.resolved, answer = m.isResolved r.toNamedRef

/-- Two steps, the second from where the first ends. -/
theorem run_bind_of_run_eq {σ α β : Type} {x : StateM σ α} {f : α → StateM σ β} {s s' : σ} {a : α}
    (h : x.run s = (a, s')) : (x >>= f).run s = (f a).run s' := by
  rw [StateT.run_bind, h]
  rfl

section Asking

variable {m : Model} {symbols : Option SymbolTable}

/-- A name is looked up in **the table of the model**, which is remembered. -/
theorem run_lookupKinds (h : Recalls m symbols) (name : String) :
    (m.lookupKinds name).run symbols = (m.kindsOf name, some (.ofModel m)) := by
  cases symbols with
  | none => simp [Model.lookupKinds, SymbolTable.kinds_ofModel]; rfl
  | some table =>
    obtain rfl := h table rfl
    simp [Model.lookupKinds, SymbolTable.kinds_ofModel]
    rfl

/-- The kinds of a name are those that the model declares it with. -/
theorem contains_kindsOf (m : Model) (name : String) (kind : EntityKind) :
    (m.kindsOf name).contains kind = m.declares kind name := by
  cases kind <;> simp [Model.kindsOf, EntityKind.all]

/-- Looking a reference up in the symbol table gives what looking through the model gives. -/
theorem run_lookupReference (h : Recalls m symbols) (r : NamedRef) :
    (m.lookupReference r).run symbols = (m.resolve r, some (.ofModel m)) := by
  rw [Model.lookupReference, run_bind_of_run_eq (run_lookupKinds h r.name), contains_kindsOf,
    Model.resolve]
  by_cases hd : m.declares r.kind r.name
  · simp only [hd, if_true]
    rfl
  · cases hk : m.kindsOf r.name with
    | nil => simp [hd]; rfl
    | cons kind kinds => simp [hd]; rfl

/-- The reference after it has been asked: it has the answer. -/
def CachedRef.answered (m : Model) (r : CachedRef) : CachedRef :=
  { r with resolved := some (m.isResolved r.toNamedRef) }

/-- **An answer from memory is the answer of a fresh look-up**, and is remembered from then on. -/
theorem CachedRef.run_ask (h : Recalls m symbols) {r : CachedRef} (hr : r.Remembers m) :
    ∃ symbols', Recalls m symbols' ∧
      (r.ask m).run symbols = ((m.isResolved r.toNamedRef, r.answered m), symbols') := by
  obtain ⟨reference, resolved⟩ := r
  cases resolved with
  | some answer =>
    have hanswer : answer = m.isResolved reference := hr answer rfl
    subst hanswer
    exact ⟨symbols, h, rfl⟩
  | none =>
    refine ⟨some (.ofModel m), by simp [Recalls], ?_⟩
    exact run_bind_of_run_eq (run_lookupReference h reference)

/-- A reference that may be absent, asked. -/
theorem run_askOptional (h : Recalls m symbols) {r : Option CachedRef}
    (hr : ∀ s ∈ r, s.Remembers m) :
    ∃ symbols', Recalls m symbols' ∧
      (r.mapM fun s => Prod.snd <$> CachedRef.ask m s).run symbols =
        (r.map (CachedRef.answered m), symbols') := by
  cases r with
  | none => exact ⟨symbols, h, rfl⟩
  | some r =>
    obtain ⟨symbols', h', hrun⟩ := CachedRef.run_ask h (hr r rfl)
    refine ⟨symbols', h', ?_⟩
    have hmap : (Prod.snd <$> r.ask m).run symbols = (r.answered m, symbols') := by
      rw [StateT.run_map, hrun]
      rfl
    rw [Option.mapM_some, StateT.run_map, hmap]
    rfl

namespace CachedInterface

/-- The references of the interface that have an answer have the right one. -/
def Remembers (m : Model) (i : CachedInterface) : Prop := ∀ r ∈ i.references, r.Remembers m

/-- The interface after all its references have been asked. -/
def answered (m : Model) (i : CachedInterface) : CachedInterface :=
  { i with
    clock := i.clock.map (·.answered m)
    reset := i.reset.map (·.answered m)
    memoryMap := i.memoryMap.map (·.answered m) }

/-- Asking an interface leaves **the answers to its references**. -/
theorem run_ask (h : Recalls m symbols) {i : CachedInterface} (hi : i.Remembers m) :
    ∃ symbols', Recalls m symbols' ∧ (i.ask m).run symbols = (i.answered m, symbols') := by
  have hmem : ∀ r, r ∈ i.clock ∨ r ∈ i.reset ∨ r ∈ i.memoryMap → r.Remembers m := by
    intro r hr
    exact hi r (by simpa [references, or_assoc] using hr)
  obtain ⟨s₁, h₁, hclock⟩ := run_askOptional h fun r hr => hmem r (.inl hr)
  obtain ⟨s₂, h₂, hreset⟩ := run_askOptional h₁ fun r hr => hmem r (.inr (.inl hr))
  obtain ⟨s₃, h₃, hmap⟩ := run_askOptional h₂ fun r hr => hmem r (.inr (.inr hr))
  refine ⟨s₃, h₃, ?_⟩
  rw [ask, run_bind_of_run_eq hclock, run_bind_of_run_eq hreset, run_bind_of_run_eq hmap]
  rfl

/-- With answers, an interface says what it said. -/
theorem plain_answered (m : Model) (i : CachedInterface) : (i.answered m).plain = i.plain := by
  simp [plain, answered, CachedRef.answered, Function.comp_def]

/-- The answers are right. -/
theorem remembers_answered (m : Model) (i : CachedInterface) : (i.answered m).Remembers m := by
  intro r hr answer hanswer
  simp only [references, answered, List.mem_append, Option.mem_toList, Option.map_eq_some_iff]
    at hr
  obtain (⟨s, -, rfl⟩ | ⟨s, -, rfl⟩) | ⟨s, -, rfl⟩ := hr
  all_goals exact (Option.some.inj hanswer).symm

/-- Asking all interfaces leaves the answers to all references. -/
theorem run_askAll (h : Recalls m symbols) {is : List CachedInterface}
    (his : ∀ i ∈ is, i.Remembers m) :
    ∃ symbols', Recalls m symbols' ∧
      (is.mapM (ask m)).run symbols = (is.map (answered m), symbols') := by
  induction is generalizing symbols with
  | nil => exact ⟨symbols, h, rfl⟩
  | cons i is ih =>
    obtain ⟨s₁, h₁, hi⟩ := run_ask h (his i (by simp))
    obtain ⟨s₂, h₂, hrest⟩ := ih h₁ fun j hj => his j (by simp [hj])
    refine ⟨s₂, h₂, ?_⟩
    rw [List.mapM_cons, run_bind_of_run_eq hi, run_bind_of_run_eq hrest]
    rfl

end CachedInterface

end Asking

namespace CachedModel

/-- **Everything that the model remembers is right.** -/
structure Remembers (m : CachedModel) : Prop where
  symbols : Recalls m.plain m.symbols
  references : ∀ i ∈ m.busInterfaces, i.Remembers m.plain

/-- A model that has just been made remembers nothing. -/
theorem remembers_ofModel (m : Model) : (ofModel m).Remembers := by
  refine ⟨by simp [Recalls, ofModel], ?_⟩
  intro i hi r hr answer hanswer
  simp only [ofModel, List.mem_map] at hi
  obtain ⟨j, -, rfl⟩ := hi
  simp only [CachedInterface.references, CachedInterface.ofInterface, List.mem_append,
    Option.mem_toList, Option.map_eq_some_iff] at hr
  obtain (⟨s, -, rfl⟩ | ⟨s, -, rfl⟩) | ⟨s, -, rfl⟩ := hr
  all_goals cases hanswer

/-- What asking every reference leaves behind: the answers, and a symbol table if one was needed. -/
theorem exists_ask {m : CachedModel} (h : m.Remembers) :
    ∃ symbols, Recalls m.plain symbols ∧
      m.ask = { m with busInterfaces := m.busInterfaces.map (·.answered m.plain), symbols } := by
  obtain ⟨symbols, hs, hrun⟩ := CachedInterface.run_askAll h.symbols h.references
  refine ⟨symbols, hs, ?_⟩
  simp only [ask, hrun]

/-- **Asking changes nothing of what the model says.** -/
theorem plain_ask {m : CachedModel} (h : m.Remembers) : m.ask.plain = m.plain := by
  obtain ⟨symbols, -, hask⟩ := exists_ask h
  simp [hask, plain, CachedInterface.plain_answered]

/-- **Asking leaves only right answers behind.** -/
theorem remembers_ask {m : CachedModel} (h : m.Remembers) : m.ask.Remembers := by
  have hplain := plain_ask h
  obtain ⟨symbols, hs, hask⟩ := exists_ask h
  refine ⟨?_, ?_⟩
  · rw [hplain, hask]
    exact hs
  · rw [hplain, hask]
    intro i hi
    obtain ⟨j, -, rfl⟩ := List.mem_map.mp hi
    exact CachedInterface.remembers_answered m.plain j

end CachedModel

end RegisterMap
