import Mathlib.Data.List.Basic
import RegisterMap.Model.Encoding

/-!
# Reading Records Back

Every part of the model is written as the object of its members and read by looking its members up
again. What a part leaves out when it is written (an absent value, an empty list) is what reading
assumes of an absent member, so nothing is lost.

## Main results

* `Json.Reads`: a decoder that reads back whatever an encoder writes.
* `Json.Reads.required`, `Json.Reads.optional`, `Json.Reads.withDefault`,
  `Json.Reads.withDefault_any`: the four kinds of member, each with what an object has to hold for
  its value to come back.
* `Model.reads`: reading back the JSON of a model gives that model.
-/

namespace RegisterMap

namespace Json

/-- What `encode` writes, `decode` **reads back**; and null is nothing that it reads. -/
structure Reads (decode : Json → Option α) (encode : α → Json) : Prop where
  value : ∀ a, decode (encode a) = some a
  null : decode .null = none

/-! ### Values that are no records -/

/-- A text comes back as it is. -/
theorem Reads.str : Reads toStr? .str := ⟨fun _ => rfl, rfl⟩

/-- A number of 64 bits comes back, since its value is one. -/
theorem Reads.nat64 : Reads toNat64? nat64 := ⟨fun _ => nat64?_eq_some_iff.mpr rfl, rfl⟩

/-- A number of 32 bits comes back in the same way. -/
theorem Reads.nat32 : Reads toNat32? nat32 := ⟨fun _ => nat32?_eq_some_iff.mpr rfl, rfl⟩

/-- A choice comes back if no choice before it has its name. -/
theorem Reads.choice {choices : List α} {name : α → String}
    (h : ∀ a, choices.find? (name · == name a) = some a) :
    Reads (toChoice? choices name) (fun a => .str (name a)) := ⟨h, rfl⟩

/-- A list comes back **if its items do**. -/
theorem Reads.list {decode : Json → Option α} {encode : α → Json} (h : Reads decode encode) :
    Reads (toList? decode) (fun items => .arr (items.map encode)) := by
  refine ⟨fun items => ?_, rfl⟩
  induction items with
  | nil => rfl
  | cons a items ih =>
    simp only [toList?] at ih
    simp [toList?, h.value a, ih]

/-! ### Members -/

/-- What is looked up in a member that is always there. -/
theorem lookup_member (key wanted : String) (value : Json) :
    (member key value).lookup wanted = if wanted == key then some value else none := by
  unfold member
  by_cases h : wanted == key <;> simp [List.lookup_cons, h]

/-- What is looked up in a member that is absent when there is no value. -/
theorem lookup_memberIfSome (key wanted : String) (value : Option α) (encode : α → Json) :
    (memberIfSome key value encode).lookup wanted =
      if wanted == key then value.map encode else none := by
  unfold memberIfSome
  cases value <;> by_cases h : wanted == key <;> simp [List.lookup_cons, h]

/-- What is looked up in a member that is absent when the list is empty. -/
theorem lookup_memberIfAny (key wanted : String) (items : List α) (encode : α → Json) :
    (memberIfAny key items encode).lookup wanted =
      if wanted == key then if items = [] then none else some (.arr (items.map encode))
      else none := by
  unfold memberIfAny
  cases items <;> by_cases h : wanted == key <;> simp [List.lookup_cons, h]

section Members

variable {decode : Json → Option α} {encode : α → Json}
variable {members : List (String × Json)} {key : String}

/-- A member that has to be there comes back if it was written. -/
theorem Reads.required (h : Reads decode encode) {a : α}
    (hl : members.lookup key = some (encode a)) :
    (obj members).required key decode = some a := by
  simp [Json.required, get?, hl, h.value]

/-- An absent value comes back as absent, since no value is written as null. -/
theorem Reads.optional (h : Reads decode encode) {a : Option α}
    (hl : members.lookup key = a.map encode) :
    (obj members).optional key decode = some a := by
  cases a with
  | none => simp [Json.optional, get?, hl]
  | some a =>
    have hne : encode a ≠ .null := by
      intro he
      have hv := h.value a
      rw [he, h.null] at hv
      cases hv
    simp [Json.optional, get?, hl, h.value a]

/-- A member with a default comes back if it was written, **whatever the default**. -/
theorem Reads.withDefault (h : Reads decode encode) {a fallback : α}
    (hl : members.lookup key = some (encode a)) :
    (obj members).withDefault key fallback decode = some a := by
  simp [Json.withDefault, get?, hl, h.value]

/-- The empty list is left out, and is the default. -/
theorem Reads.withDefault_any (h : Reads decode encode) {l : List α}
    (hl : members.lookup key = if l = [] then none else some (.arr (l.map encode))) :
    (obj members).withDefault key [] (toList? decode) = some l := by
  by_cases hempty : l = []
  · simp [Json.withDefault, get?, hl, hempty]
  · have hv := h.list.value l
    simp [Json.withDefault, get?, hl, hempty, hv]

end Members

end Json

open Json

/-! ### The parts of the model -/

/-- An access policy comes back from its name. -/
theorem AccessPolicy.reads : Reads ofJson? (fun a => .str (name a)) :=
  .choice ofName?_name

/-- A usage comes back from its name. -/
theorem Usage.reads : Reads (·.toChoice? all name) (fun u => .str (name u)) :=
  .choice fun u => by cases u <;> rfl

/-- A polarity comes back from its name. -/
theorem ResetPolarity.reads : Reads (·.toChoice? all name) (fun p => .str (name p)) :=
  .choice fun p => by cases p <;> rfl

/-- The mode of an interface comes back from its name. -/
theorem InterfaceMode.reads : Reads (·.toChoice? all name) (fun m => .str (name m)) :=
  .choice fun m => by cases m <;> rfl

/-- The kind of an entity comes back from its name. -/
theorem EntityKind.reads : Reads (·.toChoice? all name) (fun k => .str (name k)) :=
  .choice fun k => by cases k <;> rfl

/-- The array and the index of an instance come back. -/
theorem ArrayInstance.reads : Reads ofJson? toJson := by
  refine ⟨fun a => ?_, rfl⟩
  simp only [ofJson?, toJson, toRecord?, Option.bind_eq_bind, Option.bind_some]
  rw [Reads.str.required (a := a.array), Reads.nat64.required (a := a.index)]
  · rfl
  all_goals simp [List.lookup_append, lookup_member]

/-- A field comes back, with or without a reset value. -/
theorem BitField.reads : Reads ofJson? toJson := by
  refine ⟨fun f => ?_, rfl⟩
  simp only [ofJson?, toJson, toRecord?, Option.bind_eq_bind, Option.bind_some]
  rw [Reads.str.required (a := f.name), Reads.str.optional (a := f.description),
    Reads.nat32.required (a := f.bitOffset), Reads.nat32.required (a := f.bitWidth),
    AccessPolicy.reads.required (a := f.access), Reads.nat64.optional (a := f.resetValue)]
  · rfl
  all_goals simp [List.lookup_append, lookup_member, lookup_memberIfSome]

/-- A register comes back, **its fields in their order**. -/
theorem Register.reads : Reads ofJson? toJson := by
  refine ⟨fun r => ?_, rfl⟩
  simp only [ofJson?, toJson, toRecord?, Option.bind_eq_bind, Option.bind_some]
  rw [Reads.str.required (a := r.name), Reads.str.optional (a := r.description),
    Reads.nat64.required (a := r.offset), Reads.nat32.required (a := r.width),
    AccessPolicy.reads.required (a := r.access), Reads.nat64.optional (a := r.resetValue),
    BitField.reads.list.withDefault (a := r.fields),
    ArrayInstance.reads.optional (a := r.arrayInstance)]
  · rfl
  all_goals simp [List.lookup_append, lookup_member, lookup_memberIfSome]

/-- The shape of an array comes back, and its patterns if it has some. -/
theorem ArrayDescriptor.reads : Reads ofJson? toJson := by
  refine ⟨fun d => ?_, rfl⟩
  simp only [ofJson?, toJson, toRecord?, Option.bind_eq_bind, Option.bind_some]
  rw [Reads.nat64.required (a := d.count), Reads.nat64.required (a := d.stride),
    Reads.nat64.withDefault (a := d.indexStart), Reads.str.optional (a := d.naming),
    Reads.str.optional (a := d.physicalPattern)]
  · rfl
  all_goals simp [List.lookup_append, lookup_member, lookup_memberIfSome]

/-- An array comes back, with the registers of its template. -/
theorem RegisterArray.reads : Reads ofJson? toJson := by
  refine ⟨fun a => ?_, rfl⟩
  simp only [ofJson?, toJson, toRecord?, Option.bind_eq_bind, Option.bind_some]
  rw [Reads.str.required (a := a.name), Reads.nat64.required (a := a.offset),
    ArrayDescriptor.reads.required (a := a.descriptor),
    Register.reads.list.required (a := a.registers)]
  · rfl
  all_goals simp [List.lookup_append, lookup_member]

/-- A block comes back; one without arrays is written without the member for them. -/
theorem AddressBlock.reads : Reads ofJson? toJson := by
  refine ⟨fun b => ?_, rfl⟩
  simp only [ofJson?, toJson, toRecord?, Option.bind_eq_bind, Option.bind_some]
  rw [Reads.str.required (a := b.name), Reads.str.optional (a := b.description),
    Reads.nat64.required (a := b.baseOffset), Reads.nat64.required (a := b.size),
    Usage.reads.withDefault (a := b.usage), Register.reads.list.withDefault (a := b.registers),
    RegisterArray.reads.withDefault_any (l := b.arrays)]
  · rfl
  all_goals simp [List.lookup_append, lookup_member, lookup_memberIfSome, lookup_memberIfAny]

/-- A memory map comes back, **its blocks in their order**. -/
theorem MemoryMap.reads : Reads ofJson? toJson := by
  refine ⟨fun m => ?_, rfl⟩
  simp only [ofJson?, toJson, toRecord?, Option.bind_eq_bind, Option.bind_some]
  rw [Reads.str.required (a := m.name), Reads.str.optional (a := m.description),
    AddressBlock.reads.list.withDefault (a := m.blocks)]
  · rfl
  all_goals simp [List.lookup_append, lookup_member, lookup_memberIfSome]

/-- A clock comes back, with or without its frequency. -/
theorem Clock.reads : Reads ofJson? toJson := by
  refine ⟨fun c => ?_, rfl⟩
  simp only [ofJson?, toJson, toRecord?, Option.bind_eq_bind, Option.bind_some]
  rw [Reads.str.required (a := c.name), Reads.nat64.optional (a := c.frequencyHz)]
  · rfl
  all_goals simp [List.lookup_append, lookup_member, lookup_memberIfSome]

/-- A reset comes back. -/
theorem Reset.reads : Reads ofJson? toJson := by
  refine ⟨fun r => ?_, rfl⟩
  simp only [ofJson?, toJson, toRecord?, Option.bind_eq_bind, Option.bind_some]
  rw [Reads.str.required (a := r.name), ResetPolarity.reads.withDefault (a := r.polarity)]
  · rfl
  all_goals simp [List.lookup_append, lookup_member]

/-- A reference to an entity comes back. -/
theorem NamedRef.reads : Reads ofJson? toJson := by
  refine ⟨fun r => ?_, rfl⟩
  simp only [ofJson?, toJson, toRecord?, Option.bind_eq_bind, Option.bind_some]
  rw [EntityKind.reads.required (a := r.kind), Reads.str.required (a := r.name)]
  · rfl
  all_goals simp [List.lookup_append, lookup_member]

/-- An interface comes back, with whatever it refers to. -/
theorem BusInterface.reads : Reads ofJson? toJson := by
  refine ⟨fun i => ?_, rfl⟩
  simp only [ofJson?, toJson, toRecord?, Option.bind_eq_bind, Option.bind_some]
  rw [Reads.str.required (a := i.name), Reads.str.required (a := i.signalsStart),
    Reads.str.optional (a := i.protocol), InterfaceMode.reads.withDefault (a := i.mode),
    Reads.nat64.optional (a := i.baseAddress), ArrayInstance.reads.optional (a := i.arrayInstance),
    NamedRef.reads.optional (a := i.clock), NamedRef.reads.optional (a := i.reset),
    NamedRef.reads.optional (a := i.memoryMap)]
  · rfl
  all_goals simp [List.lookup_append, lookup_member, lookup_memberIfSome]

/-- **Nothing of a model is lost in its JSON.** -/
theorem Model.reads : Reads ofJson? toJson := by
  refine ⟨fun m => ?_, rfl⟩
  simp only [ofJson?, toJson, toRecord?, Option.bind_eq_bind, Option.bind_some]
  rw [MemoryMap.reads.list.withDefault (a := m.memoryMaps),
    Clock.reads.withDefault_any (l := m.clocks),
    Reset.reads.withDefault_any (l := m.resets),
    BusInterface.reads.withDefault_any (l := m.busInterfaces)]
  · rfl
  all_goals simp [List.lookup_append, lookup_member, lookup_memberIfAny]

end RegisterMap
