import Cryptoki.Proofs.Object.Table

/-! Changes to objects, one attribute at a time: by hand, and by the entries of native templates. -/
namespace Cryptoki.Object

variable {v : ObjectVariant} {l : Lifecycle} {f : AttributeType → AttributeState} {code : Word}
  {o p : Object}

/-- A change by hand is an update of an attribute that does not tell the variant. -/
theorem modify_ofStates {change : Attribute → Except Error Attribute}
    (htype : ∀ {a b}, change a = .ok b → b.type = a.type)
    (h : (ofStates v l f).modify code change = .ok p) :
    ∃ t s, v.isIdentity t = false ∧ change ⟨t, f t⟩ = .ok ⟨t, s⟩ ∧
      p = ofStates v l (Function.update f t s) := by
  rw [modify] at h
  obtain ⟨a, ha, hchange⟩ := Outcome.bind_eq_ok_iff.mp h
  obtain ⟨t, -, -, hfree, rfl⟩ := mutableAttribute_ofStates.mp ha
  obtain ⟨⟨u, s⟩, hb, hp⟩ := Outcome.bind_eq_ok_iff.mp hchange
  obtain rfl : u = t := htype hb
  refine ⟨u, s, hfree, hb, ?_⟩
  rw [← replace_ofStates]
  exact (Except.ok.inj hp).symm

/-- Changes that keep attributes well-formed keep objects so. -/
theorem WellFormed.modify {change : Attribute → Except Error Attribute} (ho : o.WellFormed)
    (hchange : ∀ {a b}, change a = .ok b → b.type = a.type ∧ b.WellFormed)
    (h : o.modify code change = .ok p) :
    p.WellFormed ∧ p.variant = o.variant ∧ p.state = o.state := by
  rw [ho.eq_ofStates] at h
  obtain ⟨t, s, hfree, hs, rfl⟩ := modify_ofStates (fun hb => (hchange hb).1) h
  have hadmits := ho.admits.update (t := t) (hchange hs).2 (by simp [hfree])
  exact ⟨wellFormed_ofStates hadmits, rfl, rfl⟩

/-- An entry is an update too. It may name an attribute that tells the variant, but not change
it. -/
theorem applyEntry_ofStates {e : WireAttribute} :
    (ofStates v l f).applyEntry e = .ok p ↔
      ∃ t s, t ∈ v.declared ∧ t.code = e.type ∧ e.value.decode t = .ok s ∧
        (v.isIdentity t = true → s = f t) ∧ p = ofStates v l (Function.update f t s) := by
  have hv : (ofStates v l f).variant = v := rfl
  simp only [applyEntry, Outcome.bind_eq_ok_iff, get_ofStates, Attribute.load,
    Outcome.map_eq_ok_iff, hv]
  constructor
  · rintro ⟨a, ⟨t, ht, hcode, rfl⟩, b, ⟨s, hs, rfl⟩, h⟩
    refine ⟨t, s, ht, hcode, hs, ?_⟩
    cases hid : v.isIdentity t with
    | true =>
      simp only [hid, if_true, Attribute.mk.injEq, true_and] at h
      split at h
      · next hsame =>
        rw [hsame, Function.update_eq_self]
        exact ⟨fun _ => rfl, (Except.ok.inj h).symm⟩
      · cases h
    | false =>
      simp only [hid, Bool.false_eq_true, if_false, replace_ofStates] at h
      exact ⟨by simp, (Except.ok.inj h).symm⟩
  · rintro ⟨t, s, ht, hcode, hs, hsame, rfl⟩
    refine ⟨_, ⟨t, ht, hcode, rfl⟩, _, ⟨s, hs, rfl⟩, ?_⟩
    cases hid : v.isIdentity t with
    | true =>
      rw [hsame hid, Function.update_eq_self]
      simp only [if_true]
      rfl
    | false =>
      simp only [Bool.false_eq_true, if_false, replace_ofStates]
      rfl

/-- Entries keep what the variant admits. -/
theorem applyEntries_ofStates {es : List WireAttribute} (hf : v.Admits f)
    (h : (ofStates v l f).applyEntries es = .ok p) :
    ∃ g, v.Admits g ∧ p = ofStates v l g := by
  induction es generalizing f with
  | nil => exact ⟨f, hf, (Except.ok.inj h).symm⟩
  | cons e es ih =>
    rw [applyEntries] at h
    obtain ⟨q, hq, hrest⟩ := Outcome.bind_eq_ok_iff.mp h
    obtain ⟨t, s, -, -, hs, hsame, rfl⟩ := applyEntry_ofStates.mp hq
    exact ih (hf.update (WireValue.decode_sound hs).wellFormed hsame) hrest

theorem ofTemplate_wellFormed {es : List WireAttribute} (h : ofTemplate v es = .ok p) :
    p.WellFormed ∧ p.variant = v ∧ p.state = .template := by
  obtain ⟨g, hg, rfl⟩ := applyEntries_ofStates v.admits_freshState h
  exact ⟨wellFormed_ofStates hg, rfl, rfl⟩

end Cryptoki.Object
