import Mathlib.Data.List.Basic
import RegisterMap.Proofs.Caching
import RegisterMap.Proofs.JsonText
import RegisterMap.Proofs.Records

/-!
# What a Fingerprint Covers

The JSON of a model is a plain value, so its compact text reads back, and reading the text gives the
model again. Two models with one text are therefore the same model, and a fingerprint, which is the
digest of that text, can only be shared by different models if SHA-256 has a collision.

## Main results

* `Json.Members`: the members of a record, in the order of its keys and all of them plain.
* `Model.plain_toJson`: the JSON of a model is plain.
* `Model.parse_canonicalText`: the text of a model reads back as that model.
* `Sha256.hexDigest_eq_iff`: the hexadecimal digits of a digest tell which digest it is.
* `CachedModel.decode_encode`: decoding what a model encodes to gives an equal model.
* `CachedModel.fingerprint_covers`: the text tells models apart exactly as equality does, and so
  does the fingerprint, collisions apart.
-/

namespace RegisterMap

namespace Json

/-! ### Plain parts -/

/-- A number of 64 bits fits a word. -/
theorem plain_nat64 (depth : Nat) (n : UInt64) : Plain depth (nat64 n) := by
  have h : n.toNat < 2 ^ 64 := n.toNat_lt
  simp only [nat64, Plain, FitsWord]
  omega

/-- A number of 32 bits fits a word, too. -/
theorem plain_nat32 (depth : Nat) (n : UInt32) : Plain depth (nat32 n) := by
  have h : n.toNat < 2 ^ 32 := n.toNat_lt
  simp only [nat32, Plain, FitsWord]
  omega

/-- A text is plain at any level. -/
theorem plain_str (depth : Nat) (s : String) : Plain depth (.str s) := by simp [Plain]

/-- A list is plain **one level above its items**. -/
theorem plain_arr {depth : Nat} {encode : α → Json} (h : ∀ a, Plain depth (encode a))
    (items : List α) : Plain (depth + 1) (.arr (items.map encode)) := by
  simp only [Plain, List.forall_mem_map]
  exact fun a _ => h a

/-- The **members of a record**: their keys are among `keys`, in that order, and they are plain. -/
structure Members (depth : Nat) (keys : List String) (members : List (String × Json)) : Prop where
  keys : (members.map Prod.fst).Sublist keys
  plain : ∀ m ∈ members, Plain depth m.2

namespace Members

variable {depth : Nat}

/-- A member that is always there is the only one, and has its key. -/
theorem always {value : Json} (key : String) (h : Plain depth value) :
    Members depth [key] (member key value) := by
  refine ⟨List.Sublist.refl _, ?_⟩
  simpa [member] using h

/-- A member for an absent value is absent, and else has its key. -/
theorem ifSome {encode : α → Json} (key : String) (h : ∀ a, Plain depth (encode a))
    (value : Option α) : Members depth [key] (memberIfSome key value encode) := by
  cases value with
  | none => exact ⟨List.nil_sublist _, by simp [memberIfSome]⟩
  | some a => exact always key (h a)

/-- A member for an empty list is absent, and else has its key. -/
theorem ifAny {encode : α → Json} (key : String) (h : ∀ a, Plain depth (encode a))
    (items : List α) : Members (depth + 1) [key] (memberIfAny key items encode) := by
  cases items with
  | nil => exact ⟨List.nil_sublist _, by simp [memberIfAny]⟩
  | cons a items => exact always key (plain_arr h (a :: items))

/-- Members behind members have their keys **behind the keys of these**. -/
theorem append {ks ls : List String} {ms ns : List (String × Json)} (hm : Members depth ks ms)
    (hn : Members depth ls ns) : Members depth (ks ++ ls) (ms ++ ns) := by
  refine ⟨?_, ?_⟩
  · rw [List.map_append]
    exact hm.keys.append hn.keys
  · intro m h
    rcases List.mem_append.mp h with h | h
    · exact hm.plain m h
    · exact hn.plain m h

/-- A record whose keys are distinct is plain, one level above its members. -/
theorem obj {ks : List String} {ms : List (String × Json)} (h : Members depth ks ms)
    (hks : ks.Nodup) : Plain (depth + 1) (.obj ms) :=
  ⟨h.keys.nodup hks, h.plain⟩

end Members

end Json

open Json

/-! ### The parts of the model are plain -/

section Parts

variable (d : Nat)

/-- An instance is plain above its members. -/
theorem ArrayInstance.plain_toJson (a : ArrayInstance) : Plain (d + 1) a.toJson := by
  have h : Members d keys _ := .append
    (.always "array" (plain_str d a.array))
    (.always "index" (plain_nat64 d a.index))
  exact h.obj (by decide)

/-- So is a field. -/
theorem BitField.plain_toJson (f : BitField) : Plain (d + 1) f.toJson := by
  have h : Members d keys _ := Members.always "name" (plain_str d f.name)
    |>.append (.ifSome "description" (plain_str d) f.description)
    |>.append (.always "bit-offset" (plain_nat32 d f.bitOffset))
    |>.append (.always "bit-width" (plain_nat32 d f.bitWidth))
    |>.append (.always "access" (plain_str d f.access.name))
    |>.append (.ifSome "reset-value" (plain_nat64 d) f.resetValue)
  exact h.obj (by decide)

/-- A register is plain two levels above its fields. -/
theorem Register.plain_toJson (r : Register) : Plain (d + 3) r.toJson := by
  have h : Members (d + 2) keys _ := Members.always "name" (plain_str _ r.name)
    |>.append (.ifSome "description" (plain_str _) r.description)
    |>.append (.always "offset" (plain_nat64 _ r.offset))
    |>.append (.always "width" (plain_nat32 _ r.width))
    |>.append (.always "access" (plain_str _ r.access.name))
    |>.append (.ifSome "reset-value" (plain_nat64 _) r.resetValue)
    |>.append (.always "fields" (plain_arr (BitField.plain_toJson d) r.fields))
    |>.append (.ifSome "instance" (ArrayInstance.plain_toJson (d + 1)) r.arrayInstance)
  exact h.obj (by decide)

/-- The shape of an array is plain above its members. -/
theorem ArrayDescriptor.plain_toJson (a : ArrayDescriptor) : Plain (d + 1) a.toJson := by
  have h : Members d keys _ := Members.always "count" (plain_nat64 d a.count)
    |>.append (.always "stride" (plain_nat64 d a.stride))
    |>.append (.always "index-start" (plain_nat64 d a.indexStart))
    |>.append (.ifSome "naming" (plain_str d) a.naming)
    |>.append (.ifSome "prefix" (plain_str d) a.physicalPattern)
  exact h.obj (by decide)

/-- An array is plain two levels above the registers of its template. -/
theorem RegisterArray.plain_toJson (a : RegisterArray) : Plain (d + 5) a.toJson := by
  have h : Members (d + 4) keys _ := Members.always "name" (plain_str _ a.name)
    |>.append (.always "offset" (plain_nat64 _ a.offset))
    |>.append (.always "descriptor" (ArrayDescriptor.plain_toJson (d + 3) a.descriptor))
    |>.append (.always "registers" (plain_arr (Register.plain_toJson d) a.registers))
  exact h.obj (by decide)

/-- A block is plain two levels above **its arrays**, which go deeper than its registers. -/
theorem AddressBlock.plain_toJson (b : AddressBlock) : Plain (d + 7) b.toJson := by
  have h : Members (d + 6) keys _ := Members.always "name" (plain_str _ b.name)
    |>.append (.ifSome "description" (plain_str _) b.description)
    |>.append (.always "base-offset" (plain_nat64 _ b.baseOffset))
    |>.append (.always "size" (plain_nat64 _ b.size))
    |>.append (.always "usage" (plain_str _ b.usage.name))
    |>.append (.always "registers" (plain_arr (Register.plain_toJson (d + 2)) b.registers))
    |>.append (.ifAny "arrays" (RegisterArray.plain_toJson d) b.arrays)
  exact h.obj (by decide)

/-- A memory map is plain two levels above its blocks. -/
theorem MemoryMap.plain_toJson (m : MemoryMap) : Plain (d + 9) m.toJson := by
  have h : Members (d + 8) keys _ := Members.always "name" (plain_str _ m.name)
    |>.append (.ifSome "description" (plain_str _) m.description)
    |>.append (.always "blocks" (plain_arr (AddressBlock.plain_toJson d) m.blocks))
  exact h.obj (by decide)

/-- A clock is plain above its members. -/
theorem Clock.plain_toJson (c : Clock) : Plain (d + 1) c.toJson := by
  have h : Members d keys _ := Members.always "name" (plain_str d c.name)
    |>.append (.ifSome "frequency-hz" (plain_nat64 d) c.frequencyHz)
  exact h.obj (by decide)

/-- So is a reset. -/
theorem Reset.plain_toJson (r : Reset) : Plain (d + 1) r.toJson := by
  have h : Members d keys _ := Members.always "name" (plain_str d r.name)
    |>.append (.always "polarity" (plain_str d r.polarity.name))
  exact h.obj (by decide)

/-- So is a reference to an entity. -/
theorem NamedRef.plain_toJson (r : NamedRef) : Plain (d + 1) r.toJson := by
  have h : Members d keys _ := Members.always "kind" (plain_str d r.kind.name)
    |>.append (.always "name" (plain_str d r.name))
  exact h.obj (by decide)

/-- An interface is plain above the instance and the references in it. -/
theorem BusInterface.plain_toJson (i : BusInterface) : Plain (d + 2) i.toJson := by
  have h : Members (d + 1) keys _ := Members.always "name" (plain_str _ i.name)
    |>.append (.always "physical-prefix" (plain_str _ i.signalsStart))
    |>.append (.ifSome "protocol" (plain_str _) i.protocol)
    |>.append (.always "mode" (plain_str _ i.mode.name))
    |>.append (.ifSome "base-address" (plain_nat64 _) i.baseAddress)
    |>.append (.ifSome "instance" (ArrayInstance.plain_toJson d) i.arrayInstance)
    |>.append (.ifSome "clock" (NamedRef.plain_toJson d) i.clock)
    |>.append (.ifSome "reset" (NamedRef.plain_toJson d) i.reset)
    |>.append (.ifSome "memory-map" (NamedRef.plain_toJson d) i.memoryMap)
  exact h.obj (by decide)

/-- **The JSON of a model is plain**, eleven levels deep. -/
theorem Model.plain_toJson (m : Model) : Plain (d + 11) m.toJson := by
  have h : Members (d + 10) keys _ :=
    Members.always "memory-maps" (plain_arr (MemoryMap.plain_toJson d) m.memoryMaps)
    |>.append (.ifAny "clocks" (Clock.plain_toJson (d + 8)) m.clocks)
    |>.append (.ifAny "resets" (Reset.plain_toJson (d + 8)) m.resets)
    |>.append (.ifAny "bus-interfaces" (BusInterface.plain_toJson (d + 7)) m.busInterfaces)
  exact h.obj (by decide)

end Parts

namespace Model

/-- **The text of a model reads back** as its JSON. -/
theorem parse_canonicalText (m : Model) : Json.parse m.canonicalText = some m.toJson :=
  parse_compact (plain_toJson 116 m)

/-- **Different models have different texts.** -/
theorem canonicalText_injective {m n : Model} (h : m.canonicalText = n.canonicalText) : m = n := by
  have hjson : m.toJson = n.toJson := compact_injective (plain_toJson 116 m) (plain_toJson 116 n) h
  have hread := Model.reads.value m
  rw [hjson, Model.reads.value n] at hread
  exact (Option.some.inj hread).symm

end Model

/-! ### Digests -/

namespace Sha256

/-- Two messages that are **different** and have the same digest. -/
structure Collision (a b : ByteArray) : Prop where
  differ : a ≠ b
  digests : digest a = digest b

/-- Texts of one length, put together, tell which texts they are. -/
theorem map_eq_of_flatMap_eq {α β : Type} {f : α → List β} {width : Nat}
    (hf : ∀ a, (f a).length = width) :
    ∀ {l k : List α}, l.length = k.length → l.flatMap f = k.flatMap f → l.map f = k.map f
  | [], [], _, _ => rfl
  | a :: l, b :: k, hlen, h => by
    rw [List.flatMap_cons, List.flatMap_cons] at h
    obtain ⟨hab, hrest⟩ := List.append_inj h ((hf a).trans (hf b).symm)
    rw [List.map_cons, List.map_cons, hab, map_eq_of_flatMap_eq hf (by simpa using hlen) hrest]

/-- The eight hexadecimal digits of a word. -/
def wordDigits (word : UInt32) : List Char :=
  (Text.padLeft '0' 8 (Text.hexDigits word.toNat)).toList

/-- A word has **eight digits**, zeros in front included. -/
theorem length_wordDigits (word : UInt32) : (wordDigits word).length = 8 :=
  Text.length_padLeft_hexDigits (by decide) word.toNat_lt

/-- The digits of a word tell which word it is. -/
theorem wordDigits_injective : Function.Injective wordDigits := by
  intro v w h
  have htext := String.toList_injective h
  exact UInt32.toNat_inj.mp (Text.padLeft_hexDigits_injective htext)

namespace State

/-- The words of a state, in order. -/
def words (s : State) : List UInt32 := [s.a, s.b, s.c, s.d, s.e, s.f, s.g, s.h]

/-- The digits of all words of a state tell **which state it is**. -/
theorem eq_of_wordDigits_eq {s t : State}
    (h : s.words.flatMap wordDigits = t.words.flatMap wordDigits) : s = t := by
  have hwords : s.words = t.words :=
    wordDigits_injective.list_map (map_eq_of_flatMap_eq length_wordDigits rfl h)
  obtain ⟨⟩ := s
  obtain ⟨⟩ := t
  simpa [words] using hwords

end State

/-- **The hexadecimal digits of a digest** tell which digest it is. -/
theorem hexDigest_eq_iff (a b : ByteArray) : hexDigest a = hexDigest b ↔ digest a = digest b := by
  have htext : ∀ m, (hexDigest m).toList = (digest m).words.flatMap wordDigits := by
    intro m
    simp [hexDigest, State.words, wordDigits, List.flatMap]
  constructor
  · intro h
    apply State.eq_of_wordDigits_eq
    rw [← htext, ← htext, h]
  · intro h
    apply String.toList_injective
    rw [htext, htext, h]

end Sha256

namespace CachedModel

/-- **A model comes back from its JSON**, and from the text of it: decoding gives an equal model,
which has everything that the model says and remembers nothing. -/
theorem decode_encode (m : CachedModel) :
    ∃ n : CachedModel, ofJson? m.toJson = some n ∧ n == m ∧ n = ofModel m.plain ∧
      (Json.parse m.canonicalText).bind ofJson? = some n := by
  have hjson : ofJson? m.toJson = some (ofModel m.plain) := by
    rw [ofJson?, toJson, Model.reads.value m.plain]
    rfl
  have htext : Json.parse m.canonicalText = some m.toJson := m.plain.parse_canonicalText
  refine ⟨ofModel m.plain, hjson, ?_, rfl, ?_⟩
  · rw [beq_iff, plain_ofModel]
  · rw [htext, Option.bind_some, hjson]

/-- The fingerprint is the digest of the compact text. -/
theorem fingerprint_eq (m : CachedModel) :
    m.fingerprint = Sha256.hexDigest m.canonicalText.toUTF8 := rfl

/-- The text tells models apart **exactly as equality does**. -/
theorem canonicalText_eq_iff (m n : CachedModel) :
    m.canonicalText = n.canonicalText ↔ m.plain = n.plain := by
  constructor
  · exact fun h => Model.canonicalText_injective h
  · intro h
    rw [canonicalText, toJson, h]
    rfl

/-- **The fingerprint covers the whole model**, and nothing that the model remembers: two models
have the same text exactly if they are equal, and the same fingerprint exactly if they are equal or
their texts are a collision of the hash function. -/
theorem fingerprint_covers (m n : CachedModel) :
    (m.canonicalText = n.canonicalText ↔ m == n) ∧
      (m.fingerprint = n.fingerprint ↔
        m == n ∨ Sha256.Collision m.canonicalText.toUTF8 n.canonicalText.toUTF8) := by
  have htext : m.canonicalText = n.canonicalText ↔ m == n := by
    rw [canonicalText_eq_iff, beq_iff]
  refine ⟨htext, ?_⟩
  rw [fingerprint_eq, fingerprint_eq, Sha256.hexDigest_eq_iff, ← htext]
  constructor
  · intro hdigest
    by_cases hbytes : m.canonicalText.toUTF8 = n.canonicalText.toUTF8
    · exact .inl (String.toByteArray_inj.mp hbytes)
    · exact .inr ⟨hbytes, hdigest⟩
  · rintro (h | h)
    · rw [h]
    · exact h.digests

end CachedModel

end RegisterMap
