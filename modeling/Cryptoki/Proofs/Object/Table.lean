import Cryptoki.Object.Readout
import Cryptoki.Proofs.Attribute.Reading
import Mathlib.Data.List.Nodup
import Mathlib.Logic.Function.Basic

/-! Objects as tables: a variant says which attributes there are, a function where each one stands.
A change to an object is an update of the function. -/
namespace Cryptoki

namespace ObjectVariant

variable {v : ObjectVariant} {t : AttributeType} {c : Word}

/-- The attribute tells the variant by this code, that of the class or that of the subtype. -/
def Fixes (v : ObjectVariant) (t : AttributeType) (c : Word) : Prop :=
  t = .objectClass ∧ c = v.classCode ∨ v.subtypeAttribute = some t ∧ v.subtypeCode = some c

theorem nodup_eraseDups {α : Type} [DecidableEq α] : (l : List α) → l.eraseDups.Nodup
  | [] => by simp
  | a :: as => by
    rw [List.eraseDups_cons, List.nodup_cons]
    exact ⟨by simp, nodup_eraseDups _⟩
termination_by l => l.length
decreasing_by
  have := List.length_filter_le (fun b => !b == a) as
  simp only [List.length_cons]
  omega

theorem nodup_declared (v : ObjectVariant) : v.declared.Nodup := nodup_eraseDups _

theorem subtypeCode_isSome (h : v.subtypeAttribute = some t) : ∃ c, v.subtypeCode = some c := by
  cases v with
  | data => cases h
  | _ => exact ⟨_, rfl⟩

theorem isIdentity_iff : v.isIdentity t = true ↔ ∃ c, v.Fixes t c := by
  simp only [isIdentity, Bool.or_eq_true, decide_eq_true_eq]
  constructor
  · rintro (h | h)
    · exact ⟨_, .inl ⟨h, rfl⟩⟩
    · obtain ⟨c, hc⟩ := subtypeCode_isSome h
      exact ⟨c, .inr ⟨h, hc⟩⟩
  · rintro ⟨c, ⟨h, -⟩ | ⟨h, -⟩⟩
    · exact .inl h
    · exact .inr h

theorem Fixes.not_free (h : v.Fixes t c) : ¬ v.isIdentity t = false := by
  rw [isIdentity_iff.mpr ⟨c, h⟩]
  simp

theorem subtypeAttribute_cases (h : v.subtypeAttribute = some t) :
    t = .certificateType ∨ t = .keyType ∨ t = .hwFeatureType := by
  cases v <;> cases h <;> simp

theorem mem_declared (h : v.isIdentity t = true) : t ∈ v.declared := by
  rw [declared, List.mem_eraseDups]
  simp only [isIdentity, Bool.or_eq_true, decide_eq_true_eq] at h
  rcases h with rfl | h
  · cases v with
    | certificate t => cases t; decide
    | _ => simp [attributeGroups, storageAttributes, hardwareAttributes]
  · cases v with
    | data => cases h
    | certificate t =>
      cases h
      cases t
      decide
    | _ =>
      cases h
      simp [attributeGroups, keyAttributes, domainAttributes, hardwareAttributes]

end ObjectVariant

namespace Object

variable {v : ObjectVariant} {t : AttributeType} {c : Word}

theorem freshState_of_fixes (h : v.Fixes t c) : freshState v t = .value (.ulong c) := by
  obtain ⟨rfl, rfl⟩ | ⟨ht, hc⟩ := h
  · rfl
  · have hne : t ≠ .objectClass := by
      rcases ObjectVariant.subtypeAttribute_cases ht with rfl | rfl | rfl <;> decide
    simp [freshState, hne, ht, hc]

theorem freshState_of_free (h : v.isIdentity t = false) : freshState v t = .absent := by
  simp only [ObjectVariant.isIdentity, Bool.or_eq_false_iff, decide_eq_false_iff_not] at h
  rw [freshState, if_neg h.1, if_neg h.2]

/-- The object of a variant whose attributes stand as a function says. -/
def ofStates (v : ObjectVariant) (l : Lifecycle) (f : AttributeType → AttributeState) : Object :=
  ⟨v, l, v.declared.map fun t => ⟨t, f t⟩⟩

theorem ofVariant_eq (v : ObjectVariant) : ofVariant v = ofStates v .template (freshState v) := rfl

end Object

/-- What a variant asks of its attributes: those that tell it hold its codes, and all of them hold
what their types say. -/
structure ObjectVariant.Admits (v : ObjectVariant) (f : AttributeType → AttributeState) : Prop where
  identity : ∀ {t c}, v.Fixes t c → f t = .value (.ulong c)
  wellFormed : ∀ t, (f t).WellFormed t.kind

theorem AttributeType.code_injective {t u : AttributeType} (h : t.code = u.code) : t = u := by
  have ht := AttributeType.ofCode?_code t
  rw [h, AttributeType.ofCode?_code] at ht
  exact (Option.some.inj ht).symm

namespace ObjectVariant

variable {v : ObjectVariant} {f : AttributeType → AttributeState} {t : AttributeType}

theorem kind_of_isIdentity (h : v.isIdentity t = true) : t.kind = .ulong := by
  simp only [isIdentity, Bool.or_eq_true, decide_eq_true_eq] at h
  rcases h with rfl | h
  · rfl
  · rcases subtypeAttribute_cases h with rfl | rfl | rfl <;> rfl

theorem admits_freshState (v : ObjectVariant) : v.Admits (Object.freshState v) where
  identity h := Object.freshState_of_fixes h
  wellFormed t := by
    cases ht : v.isIdentity t with
    | false =>
      rw [Object.freshState_of_free ht]
      trivial
    | true =>
      obtain ⟨c, hc⟩ := isIdentity_iff.mp ht
      rw [Object.freshState_of_fixes hc]
      exact ⟨(kind_of_isIdentity ht).symm, trivial⟩

/-- All that a variant admits agrees on the attributes that tell it. -/
theorem Admits.eq_freshState (hf : v.Admits f) (h : v.isIdentity t = true) :
    f t = Object.freshState v t := by
  obtain ⟨c, hc⟩ := isIdentity_iff.mp h
  rw [hf.identity hc, Object.freshState_of_fixes hc]

theorem Admits.update (hf : v.Admits f) {s : AttributeState} (hs : s.WellFormed t.kind)
    (h : v.isIdentity t = true → s = f t) : v.Admits (Function.update f t s) where
  identity := by
    intro u c hc
    rw [Function.update_apply]
    split
    · next hu =>
      subst hu
      rw [h (isIdentity_iff.mpr ⟨c, hc⟩)]
      exact hf.identity hc
    · exact hf.identity hc
  wellFormed u := by
    rw [Function.update_apply]
    split
    · next hu =>
      subst hu
      exact hs
    · exact hf.wellFormed u

end ObjectVariant

namespace Object

variable {v : ObjectVariant} {l : Lifecycle} {f : AttributeType → AttributeState}
  {t : AttributeType} {code : Word} {a : Attribute}

theorem types_ofStates (v : ObjectVariant) (l : Lifecycle) (f : AttributeType → AttributeState) :
    (ofStates v l f).attributes.map (·.type) = v.declared := by
  simp [ofStates, Function.comp_def]

theorem mem_ofStates :
    a ∈ (ofStates v l f).attributes ↔ a.type ∈ v.declared ∧ a.state = f a.type := by
  obtain ⟨u, s⟩ := a
  simp only [ofStates, List.mem_map, Attribute.mk.injEq]
  constructor
  · rintro ⟨w, hw, rfl, rfl⟩
    exact ⟨hw, rfl⟩
  · rintro ⟨hu, hs⟩
    exact ⟨u, hu, rfl, hs.symm⟩

/-- The attribute that is found under a code is the declared one. -/
theorem attribute?_ofStates :
    (ofStates v l f).attribute? code = some a ↔
      ∃ t ∈ v.declared, t.code = code ∧ a = ⟨t, f t⟩ := by
  constructor
  · intro h
    have hcode : a.code = code := by simpa using List.find?_some h
    obtain ⟨t, ht, rfl⟩ := List.mem_map.mp (List.mem_of_find?_eq_some h)
    exact ⟨t, ht, hcode, rfl⟩
  · rintro ⟨t, ht, rfl, rfl⟩
    have hmem : (⟨t, f t⟩ : Attribute) ∈ (ofStates v l f).attributes := mem_ofStates.mpr ⟨ht, rfl⟩
    obtain ⟨b, hb⟩ : ∃ b, (ofStates v l f).attribute? t.code = some b := by
      cases h : (ofStates v l f).attribute? t.code with
      | some b => exact ⟨b, rfl⟩
      | none =>
        have hnone := List.find?_eq_none.mp h _ hmem
        simp [Attribute.code] at hnone
    have hcode : b.code = t.code := by simpa using List.find?_some hb
    obtain ⟨u, -, rfl⟩ := List.mem_map.mp (List.mem_of_find?_eq_some hb)
    obtain rfl : u = t := AttributeType.code_injective hcode
    exact hb

theorem get_ofStates :
    (ofStates v l f).get code = .ok a ↔ ∃ t ∈ v.declared, t.code = code ∧ a = ⟨t, f t⟩ := by
  rw [← attribute?_ofStates (v := v) (l := l) (f := f), get]
  cases (ofStates v l f).attribute? code <;> simp

theorem replace_ofStates (s : AttributeState) :
    (ofStates v l f).replace ⟨t, s⟩ = ofStates v l (Function.update f t s) := by
  simp only [ofStates, replace, List.map_map]
  congr 1
  apply List.map_congr_left
  intro u hu
  simp only [Function.comp, Function.update_apply]
  split
  · next h => rw [h]
  · rfl

/-- An attribute can be changed if it is declared and does not tell the variant. -/
theorem mutableAttribute_ofStates :
    (ofStates v l f).mutableAttribute code = .ok a ↔
      ∃ t ∈ v.declared, t.code = code ∧ v.isIdentity t = false ∧ a = ⟨t, f t⟩ := by
  rw [mutableAttribute]
  cases hcode : AttributeType.ofCode? code with
  | none =>
    rw [get_ofStates]
    constructor
    · rintro ⟨t, -, rfl, -⟩
      simp [AttributeType.ofCode?_code] at hcode
    · rintro ⟨t, -, rfl, -⟩
      simp [AttributeType.ofCode?_code] at hcode
  | some t =>
    obtain rfl := AttributeType.code_of_ofCode? hcode
    have hv : (ofStates v l f).variant = v := rfl
    cases ht : v.isIdentity t with
    | true =>
      simp only [hv, ht, if_true]
      constructor
      · rintro ⟨⟩
      · rintro ⟨u, -, hu, hfree, -⟩
        rw [AttributeType.code_injective hu, ht] at hfree
        cases hfree
    | false =>
      simp only [hv, ht, Bool.false_eq_true, if_false]
      rw [get_ofStates]
      constructor
      · rintro ⟨u, hu, hc, rfl⟩
        obtain rfl := AttributeType.code_injective hc
        exact ⟨u, hu, rfl, ht, rfl⟩
      · rintro ⟨u, hu, hc, -, rfl⟩
        exact ⟨u, hu, hc, rfl⟩

/-- What all objects have in common that can be made: the declared attributes in order, the codes of
the variant in those that tell it, and in each of them what its type says. -/
structure WellFormed (o : Object) : Prop where
  types : o.attributes.map (·.type) = o.variant.declared
  identity : ∀ t, o.variant.isIdentity t = true →
    ∃ c, o.variant.Fixes t c ∧ o.attribute? t.code = some ⟨t, .value (.ulong c)⟩
  wellFormed : ∀ a ∈ o.attributes, a.WellFormed

theorem wellFormed_ofStates (hf : v.Admits f) : (ofStates v l f).WellFormed where
  types := types_ofStates v l f
  identity := by
    intro t ht
    obtain ⟨c, hc⟩ := ObjectVariant.isIdentity_iff.mp ht
    refine ⟨c, hc, attribute?_ofStates.mpr ⟨t, ObjectVariant.mem_declared ht, rfl, ?_⟩⟩
    rw [hf.identity hc]
  wellFormed := by
    intro a ha
    obtain ⟨t, -, rfl⟩ := List.mem_map.mp ha
    exact hf.wellFormed t

theorem wellFormed_ofVariant (v : ObjectVariant) : (ofVariant v).WellFormed :=
  wellFormed_ofStates v.admits_freshState

theorem wellFormed_ofHandle (v : ObjectVariant) (h : Handle) : (ofHandle v h).WellFormed :=
  wellFormed_ofStates v.admits_freshState

/-- Where the attribute of a type stands. -/
def stateOf (o : Object) (t : AttributeType) : AttributeState :=
  match o.attributes.find? (·.type = t) with
  | some a => a.state
  | none => freshState o.variant t

section Types

variable {o : Object} (htypes : o.attributes.map (·.type) = o.variant.declared)
include htypes

theorem stateOf_type (ha : a ∈ o.attributes) : o.stateOf a.type = a.state := by
  rw [stateOf]
  split
  · next b hb =>
    have htype : b.type = a.type := by simpa using List.find?_some hb
    have hnodup : (o.attributes.map (·.type)).Nodup := by
      rw [htypes]
      exact o.variant.nodup_declared
    rw [List.inj_on_of_nodup_map hnodup (List.mem_of_find?_eq_some hb) ha htype]
  · next hnone => simpa using List.find?_eq_none.mp hnone a ha

/-- An object with the declared attributes is a table. -/
theorem eq_ofStates : o = ofStates o.variant o.state o.stateOf := by
  have hsame : o.attributes = o.attributes.map fun a => ⟨a.type, o.stateOf a.type⟩ := by
    conv_lhs => rw [← List.map_id o.attributes]
    apply List.map_congr_left
    intro a ha
    rw [stateOf_type htypes ha]
    cases a
    rfl
  have hattributes : (ofStates o.variant o.state o.stateOf).attributes = o.attributes := by
    rw [hsame, ofStates, ← htypes, List.map_map]
    rfl
  obtain ⟨variant, state, attributes⟩ := o
  simp only [ofStates] at hattributes ⊢
  rw [hattributes]

theorem attribute?_of_mem (ha : a ∈ o.attributes) : o.attribute? a.code = some a := by
  have hmem : a.type ∈ o.variant.declared := by
    rw [← htypes]
    exact List.mem_map_of_mem ha
  rw [eq_ofStates htypes]
  refine attribute?_ofStates.mpr ⟨a.type, hmem, rfl, ?_⟩
  rw [stateOf_type htypes ha]
  cases a
  rfl

/-- An object is well-formed if its attributes are, one by one. -/
theorem wellFormed_of_each (heach : ∀ a ∈ o.attributes,
    a.WellFormed ∧ ∀ c, o.variant.Fixes a.type c → a.state = .value (.ulong c)) :
    o.WellFormed where
  types := htypes
  identity := by
    intro t ht
    obtain ⟨c, hc⟩ := ObjectVariant.isIdentity_iff.mp ht
    have hmem := ObjectVariant.mem_declared ht
    rw [← htypes] at hmem
    obtain ⟨⟨u, s⟩, ha, rfl⟩ := List.mem_map.mp hmem
    have hfound := attribute?_of_mem htypes ha
    obtain rfl : s = .value (.ulong c) := (heach _ ha).2 c hc
    exact ⟨c, hc, hfound⟩
  wellFormed a ha := (heach a ha).1

end Types

theorem WellFormed.eq_ofStates {o : Object} (h : o.WellFormed) :
    o = ofStates o.variant o.state o.stateOf := Object.eq_ofStates h.types

theorem WellFormed.attributes_eq {o : Object} (h : o.WellFormed) :
    o.attributes = o.variant.declared.map fun t => ⟨t, o.stateOf t⟩ :=
  congrArg attributes h.eq_ofStates

theorem WellFormed.codes {o : Object} (h : o.WellFormed) :
    o.attributes.map Attribute.code = o.variant.declared.map AttributeType.code := by
  rw [← h.types, List.map_map]
  rfl

theorem WellFormed.attribute?_code {o : Object} (h : o.WellFormed) (ht : t ∈ o.variant.declared) :
    o.attribute? t.code = some ⟨t, o.stateOf t⟩ := by
  have hfound : (ofStates o.variant o.state o.stateOf).attribute? t.code = some ⟨t, o.stateOf t⟩ :=
    attribute?_ofStates.mpr ⟨t, ht, rfl, rfl⟩
  rwa [← h.eq_ofStates] at hfound

theorem WellFormed.admits {o : Object} (h : o.WellFormed) : o.variant.Admits o.stateOf where
  identity := by
    intro t c hc
    obtain ⟨d, hd, hfound⟩ := h.identity t (ObjectVariant.isIdentity_iff.mpr ⟨c, hc⟩)
    have hcode := freshState_of_fixes hc
    have hmem : (⟨t, .value (.ulong d)⟩ : Attribute) ∈ o.attributes :=
      List.mem_of_find?_eq_some hfound
    rw [freshState_of_fixes hd] at hcode
    rw [← hcode, stateOf_type h.types hmem]
  wellFormed t := by
    rw [stateOf]
    split
    · next a ha =>
      have htype : a.type = t := by simpa using List.find?_some ha
      obtain ⟨u, s⟩ := a
      obtain rfl := htype
      exact h.wellFormed _ (List.mem_of_find?_eq_some ha)
    · exact (ObjectVariant.admits_freshState o.variant).wellFormed t

end Object

end Cryptoki
