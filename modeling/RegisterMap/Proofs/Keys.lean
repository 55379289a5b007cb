import RegisterMap.Proofs.Respelling
import RegisterMap.Yaml.Stream

/-!
# Keys of Documents

A document is refused if a mapping has a key twice. All mappings of a document that was read can
therefore be put in any order, at any depth.

## Main results

* `Yaml.parseStream_wellKeyed` — the mappings of a document have distinct keys.
* `Yaml.Value.WellKeyed.respells` — they can be put in any order.
-/

namespace RegisterMap.Yaml

/-! ### Values -/

namespace Value

/-- Every mapping of the value, at any depth, has **each string key once**. -/
inductive WellKeyed : Value → Prop
  | null : WellKeyed .null
  | bool (b : Bool) : WellKeyed (.bool b)
  | int (k : Int) : WellKeyed (.int k)
  | real (x : Float) : WellKeyed (.real x)
  | str (s : String) : WellKeyed (.str s)
  | seq {items : List Value} (hitems : ∀ v ∈ items, WellKeyed v) : WellKeyed (.seq items)
  | map {entries : List (Value × Value)} (hdistinct : KeysDistinct entries)
      (hkeys : ∀ e ∈ entries, WellKeyed e.1) (hvalues : ∀ e ∈ entries, WellKeyed e.2) :
      WellKeyed (.map entries)
  | tagged (tag : String) {v : Value} (h : WellKeyed v) : WellKeyed (.tagged tag v)

/-- The entries of a mapping of a document can be put in **any order**. -/
theorem WellKeyed.respells {entries reordered : List (Value × Value)}
    (h : WellKeyed (.map entries)) (hperm : entries.Perm reordered) (numbers : Bool)
    (place : Place) : Respells numbers place (.map entries) (.map reordered) := by
  cases h with
  | map hdistinct _ _ =>
      exact .map (respellsEntries_iff.mpr (respellsEntry_self entries)) hperm (.inl hdistinct)

end Value

/-! ### Builders -/

namespace Builder

/-- Whenever the builder has a result, `P` holds of it. -/
def Ensures {α : Type} (x : Builder α) (P : α → Prop) : Prop :=
  ∀ s a s', x.run s = .ok (a, s') → P a

namespace Ensures

variable {α β : Type} {P : α → Prop} {Q : β → Prop}

/-- A result that has the property is one. -/
theorem pure {a : α} (h : P a) : Ensures (Pure.pure a : Builder α) P := by
  rintro _ _ _ ⟨⟩
  exact h

/-- A failure ensures anything. -/
theorem throw (e : Error) : Ensures (MonadExcept.throw e : Builder α) P :=
  fun _ _ _ h => nomatch h

/-- What every result of a first step leads to has the property **if each does**. -/
theorem bind {x : Builder α} {f : α → Builder β} (hx : Ensures x P)
    (hf : ∀ a, P a → Ensures (f a) Q) : Ensures (x >>= f) Q := by
  intro s b s' h
  rw [StateT.run_bind] at h
  cases hrun : x.run s with
  | error e =>
      rw [hrun] at h
      nomatch h
  | ok r =>
      rw [hrun] at h
      exact hf r.1 (hx s r.1 r.2 hrun) r.2 b s' h

/-- What follows ensures the result alone. -/
theorem after {x : Builder α} {f : α → Builder β} (hf : ∀ a, Ensures (f a) Q) :
    Ensures (x >>= f) Q :=
  bind (P := fun _ => True) (fun _ _ _ _ => trivial) fun a _ => hf a

end Ensures

/-! ### Scalars -/

open Value (WellKeyed KeysDistinct isKey)

/-- An integer is no mapping. -/
theorem intValue?_wellKeyed {cs : List Char} {v : Value} (h : intValue? cs = some (.ok v)) :
    WellKeyed v := by
  rw [intValue?] at h
  split at h
  · nomatch h
  · split at h
    · obtain rfl := Except.ok.inj (Option.some.inj h)
      exact .int _
    · split at h <;> nomatch h

/-- No plain text is read as a mapping. -/
theorem plainValue_wellKeyed {text : String} {v : Value} (h : plainValue text = .ok v) :
    WellKeyed v := by
  rw [plainValue] at h
  split at h
  · obtain rfl := Except.ok.inj h
    exact .null
  · split at h
    · obtain rfl := Except.ok.inj h
      exact .bool _
    · dsimp only at h
      split at h
      · next hint => exact intValue?_wellKeyed (h ▸ hint)
      · split at h
        · obtain rfl := Except.ok.inj h
          exact .str _
        · split at h <;> obtain rfl := Except.ok.inj h
          · exact .real _
          · exact .str _

/-- No text under a tag of the standard repository is read as a mapping. -/
theorem repositoryValue_wellKeyed {tag : TagBytes} {text : String} {v : Value}
    (h : repositoryValue tag text = .ok v) : WellKeyed v := by
  rw [repositoryValue] at h
  split at h
  · split at h
    · obtain rfl := Except.ok.inj h
      exact .bool _
    · nomatch h
  · split at h
    · cases hint : intValue? text.toList with
      | none =>
          rw [hint] at h
          nomatch h
      | some result =>
          rw [hint, Option.getD_some] at h
          exact intValue?_wellKeyed (h ▸ hint)
    · split at h
      · split at h
        · obtain rfl := Except.ok.inj h
          exact .real _
        · nomatch h
      · split at h
        · split at h
          · obtain rfl := Except.ok.inj h
            exact .null
          · nomatch h
        · obtain rfl := Except.ok.inj h
          exact .str _

/-- No scalar is read as a mapping, **whatever its tag and its quotes**. -/
theorem scalarValue_wellKeyed (p : Properties) (text : String) (plain : Bool) :
    Ensures (scalarValue p text plain : Builder Value) WellKeyed := by
  intro s v s' h
  have hvalue : scalarValue p text plain = .ok v := by
    cases hv : scalarValue p text plain with
    | error e =>
        rw [hv] at h
        nomatch h
    | ok w =>
        rw [hv] at h
        cases h
        rfl
  rw [scalarValue] at hvalue
  split at hvalue
  · exact repositoryValue_wellKeyed hvalue
  · split at hvalue
    · exact plainValue_wellKeyed hvalue
    · obtain rfl := Except.ok.inj hvalue
      exact .str _

/-- A tag around a value brings no key. -/
theorem underTag_wellKeyed (p : Properties) {v : Value} (h : WellKeyed v) :
    WellKeyed (underTag p v) := by
  rw [underTag]
  split
  · exact .tagged _ h
  · exact h

/-! ### Collections -/

/-- Entries whose keys and values are well keyed, and whose keys are distinct. -/
structure EntriesKeyed (entries : List (Value × Value)) : Prop where
  distinct : KeysDistinct entries
  keys : ∀ e ∈ entries, WellKeyed e.1
  values : ∀ e ∈ entries, WellKeyed e.2

/-- A key that is a text is **this text**. -/
theorem isKey_eq {key : String} {v : Value} (h : isKey key v = true) : v = .str key := by
  cases v with
  | str s => exact congrArg Value.str (by simpa [isKey] using h)
  | _ => nomatch h

/-- A key that passes the check is **the key of no entry before**. -/
theorem checkKey_ensures (acc : List (Value × Value)) (k : Value) :
    Ensures (checkKey acc k) fun _ => ∀ e ∈ acc, ∀ key, isKey key k = true →
      isKey key e.1 = false := by
  rw [checkKey]
  split
  · exact .throw _
  · next hnew =>
      refine .pure fun e he key hk => ?_
      by_contra hother
      have hkey : isKey key e.1 = true := by simpa using hother
      refine hnew (List.any_eq_true.mpr ⟨e, he, ?_⟩)
      rw [isKey_eq hk, isKey_eq hkey]
      simp [Value.same]

/-- The order of entries does not matter to their keys. -/
theorem EntriesKeyed.reverse {entries : List (Value × Value)} (h : EntriesKeyed entries) :
    EntriesKeyed entries.reverse where
  distinct := h.distinct.reordered (List.reverse_perm entries).symm
  keys e he := h.keys e (List.mem_reverse.mp he)
  values e he := h.values e (List.mem_reverse.mp he)

/-- Entries are read into a list with **each string key once**. -/
theorem entries_wellKeyed {build : Tree → Builder Value}
    (hbuild : ∀ t, Ensures (build t) WellKeyed) (trees : List (Tree × Tree))
    {acc : List (Value × Value)} (hacc : EntriesKeyed acc) :
    Ensures (entries build acc trees) EntriesKeyed := by
  induction trees generalizing acc with
  | nil => exact .pure hacc.reverse
  | cons t trees ih =>
      refine (hbuild t.1).bind fun k hk => (checkKey_ensures acc k).bind fun _ hnew => ?_
      refine (hbuild t.2).bind fun v hv => ih ⟨?_, ?_, ?_⟩
      · exact List.pairwise_cons.mpr ⟨hnew, hacc.distinct⟩
      · exact List.forall_mem_cons.mpr ⟨hk, hacc.keys⟩
      · exact List.forall_mem_cons.mpr ⟨hv, hacc.values⟩

/-- The items of a sequence are well keyed if all that is built is. -/
theorem items_wellKeyed {build : Tree → Builder Value}
    (hbuild : ∀ t, Ensures (build t) WellKeyed) (trees : List Tree) {acc : List Value}
    (hacc : ∀ v ∈ acc, WellKeyed v) :
    Ensures (items build acc trees) fun vs => ∀ v ∈ vs, WellKeyed v := by
  induction trees generalizing acc with
  | nil => exact .pure fun v hv => hacc v (List.mem_reverse.mp hv)
  | cons t trees ih =>
      exact (hbuild t).bind fun v hv => ih (List.forall_mem_cons.mpr ⟨hv, hacc⟩)

/-- A node is well keyed **if the nodes below it are**. -/
theorem node_wellKeyed {below : Option (Tree → Builder Value)}
    (hbelow : ∀ build ∈ below, ∀ t, Ensures (build t) WellKeyed) (tree : Tree) :
    Ensures (node below tree) WellKeyed := by
  cases tree with
  | «alias» => exact .throw _
  | scalar p text plain =>
      exact (scalarValue_wellKeyed p text plain).bind fun v hv => .pure (underTag_wellKeyed p hv)
  | seq p trees =>
      cases below with
      | none => exact .throw _
      | some build =>
          refine (items_wellKeyed (hbelow build rfl) trees (by simp)).bind fun vs hvs => ?_
          exact .pure (underTag_wellKeyed p (.seq hvs))
  | map p trees =>
      cases below with
      | none => exact .throw _
      | some build =>
          have hnil : EntriesKeyed [] := ⟨.nil, by simp, by simp⟩
          refine (entries_wellKeyed (hbelow build rfl) trees hnil).bind fun es hes => ?_
          exact .pure (underTag_wellKeyed p (.map hes.distinct hes.keys hes.values))

/-- Built values are **well keyed**. -/
theorem value_wellKeyed (env : Surroundings) (depth : Nat) (tree : Tree) :
    Ensures (value env depth tree) WellKeyed := by
  induction depth generalizing tree with
  | zero => exact .after fun tree => node_wellKeyed (by simp) tree
  | succ depth ih =>
      refine .after fun tree => node_wellKeyed ?_ tree
      rintro _ ⟨⟩
      exact ih

end Builder

/-- The value of a document is well keyed. -/
theorem Document.value_wellKeyed {d : Document} {v : Value} (h : d.value = .ok v) :
    v.WellKeyed := by
  rw [Document.value] at h
  cases hrun : (Builder.value { anchors := d.root.anchored.reverse, aliasLimit := 100 * d.size }
      maxDepth d.root).run 0 with
  | error e =>
      rw [hrun] at h
      nomatch h
  | ok result =>
      rw [hrun] at h
      obtain rfl := Except.ok.inj h
      exact Builder.value_wellKeyed _ _ _ 0 result.1 result.2 hrun

/-- The mappings of a document have **distinct keys**. -/
theorem parseStream_wellKeyed {text : String} {values : List Value}
    (h : parseStream text = .ok values) : ∀ v ∈ values, v.WellKeyed := by
  simp only [parseStream, bind_eq_ok_iff, pure_eq_ok_iff, mapM_eq_ok_iff] at h
  obtain ⟨_, -, documents, -, all, hall, rfl⟩ := h
  intro v hv
  obtain ⟨d, -, hd⟩ := exists_of_mem_of_forall₂ hall (List.mem_of_mem_filter hv)
  exact Document.value_wellKeyed hd

end RegisterMap.Yaml
