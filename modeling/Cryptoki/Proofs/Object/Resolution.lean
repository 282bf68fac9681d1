import Cryptoki.Proofs.Object.Parsing
import Cryptoki.Proofs.Object.Storage

/-! Variants and their codes: each pair of codes means one variant or none, and the codes can be had
back from the template of any object that was made of them. -/
namespace Cryptoki

namespace ObjectVariant

variable {v w : ObjectVariant} {t : AttributeType} {c d : Word} {objectClass : Word}
  {subtype : Option Word} {e : Error}

/-- The codes mean the variant. Data objects have no subtype, and one that is given does not
count. -/
def HasCodes (v : ObjectVariant) (objectClass : Word) (subtype : Option Word) : Prop :=
  v.classCode = objectClass ∧ (v = .data ∨ v.subtypeCode = subtype)

theorem ofCodes_eq_error_iff :
    ofCodes objectClass subtype = .error e ↔
      (∀ v : ObjectVariant, ¬ v.HasCodes objectClass subtype) ∧
        .unsupportedObjectVariant objectClass subtype = e := by
  have hnone : ofCodes? objectClass subtype = none ↔
      ∀ v : ObjectVariant, ¬ v.HasCodes objectClass subtype := by
    simp only [Option.eq_none_iff_forall_ne_some, ne_eq, ofCodes?_eq_some_iff, HasCodes]
  rw [← hnone, ofCodes]
  cases ofCodes? objectClass subtype <;> simp

theorem ofCodes_own (v : ObjectVariant) : ofCodes v.classCode v.subtypeCode = .ok v :=
  ofCodes_eq_ok_iff.mpr ⟨rfl, .inr rfl⟩

/-- No two variants have the same codes. -/
theorem eq_of_codes (hclass : v.classCode = w.classCode)
    (hsubtype : v.subtypeCode = w.subtypeCode) : v = w := by
  have hv := ofCodes_own v
  rw [hclass, hsubtype, ofCodes_own w] at hv
  exact (Except.ok.inj hv).symm

/-- All but data objects have a code for their subtype, and an attribute for it. -/
theorem isSome_subtypeCode (v : ObjectVariant) :
    v.subtypeCode.isSome = v.subtypeAttribute.isSome := by
  cases v <;> rfl

/-- A variant that is told by all that tells another one is that other one. -/
theorem eq_of_fixes (h : ∀ t c, v.Fixes t c → ∀ d, w.Fixes t d → c = d) : v = w := by
  have hclass : v.classCode = w.classCode :=
    h .objectClass _ (.inl ⟨rfl, rfl⟩) _ (.inl ⟨rfl, rfl⟩)
  have hattribute : v.subtypeAttribute = w.subtypeAttribute :=
    congrArg subtypeAttributeOf hclass
  refine eq_of_codes hclass ?_
  cases ht : v.subtypeAttribute with
  | none => rw [subtypeCode_eq_none ht, subtypeCode_eq_none (hattribute.symm.trans ht)]
  | some t =>
    obtain ⟨c, hc⟩ := subtypeCode_isSome ht
    obtain ⟨d, hd⟩ := subtypeCode_isSome (hattribute.symm.trans ht)
    have hsame := h t c (.inr ⟨ht, hc⟩) d (.inr ⟨hattribute.symm.trans ht, hd⟩)
    rw [hc, hd, hsame]

/-- The entry for a code that tells the variant. -/
def codeEntry (t : AttributeType) (c : Word) : WireAttribute := ⟨t.code, .bytes c.toBytes⟩

theorem decode_codeEntry (h : t.kind = .ulong) :
    (codeEntry t c).decode = .ok ⟨t, .value (.ulong c)⟩ := by
  have hwf : (Attribute.mk t (.value (.ulong c))).WellFormed := ⟨h.symm, trivial⟩
  exact Attribute.decode_toWire hwf rfl

/-- A variant accepts the codes of no other one. -/
theorem code_eq_of_accepts (h : w.Accepts (codeEntry t c)) (hd : w.Fixes t d) : c = d := by
  obtain ⟨u, -, hcode, s, hs, hagrees⟩ := h
  obtain rfl : u = t := AttributeType.code_injective hcode
  rw [decode_codeEntry (kind_of_isIdentity (isIdentity_iff.mpr ⟨d, hd⟩))] at hs
  have hstate : AttributeState.value (.ulong c) = s := (Attribute.mk.inj (Except.ok.inj hs)).2
  have hvalue := hstate.trans (hagrees d hd)
  exact AttributeValue.ulong.inj (AttributeState.value.inj hvalue)

end ObjectVariant

namespace Object

variable {v w : ObjectVariant} {entries : List WireAttribute} {x : WireAttribute}

theorem toTemplate_ofVariant (v : ObjectVariant) :
    (ofVariant v).toTemplate = .ok (v.declared.filterMap (v.rewritten [])) := by
  refine toTemplate_of_each fun t _ => ?_
  have hnone : ∀ e ∈ ([] : List WireAttribute), v.Accepts e := by simp
  exact toWire_stateAfter hnone

/-- The template of a fresh object says the codes of its variant, and nothing else. -/
theorem mem_toTemplate_ofVariant (h : (ofVariant v).toTemplate = .ok entries) :
    x ∈ entries ↔ ∃ t c, v.Fixes t c ∧ x = ObjectVariant.codeEntry t c := by
  obtain rfl := Except.ok.inj ((toTemplate_ofVariant v).symm.trans h)
  rw [List.mem_filterMap]
  constructor
  · rintro ⟨t, -, hx⟩
    cases hid : v.isIdentity t with
    | false =>
      rw [ObjectVariant.rewritten_of_free hid] at hx
      cases hx
    | true =>
      obtain ⟨c, hc⟩ := ObjectVariant.isIdentity_iff.mp hid
      rw [ObjectVariant.rewritten_of_fixes hc] at hx
      exact ⟨t, c, hc, (Option.some.inj hx).symm⟩
  · rintro ⟨t, c, hc, rfl⟩
    have hid := ObjectVariant.isIdentity_iff.mpr ⟨c, hc⟩
    exact ⟨t, ObjectVariant.mem_declared hid, ObjectVariant.rewritten_of_fixes hc⟩

theorem identify_ofEntries (h : (ofVariant v).toTemplate = .ok entries) :
    identify (identityTypes.map fun t => Readout.ofEntries entries t.code) = .ok v := by
  have hv := wellFormed_ofVariant v
  refine hv.identify_of_retrieves h ?_
  rw [List.forall₂_map_left_iff, List.forall₂_map_right_iff, List.forall₂_same]
  intro t _
  exact Readout.retrieves_ofEntries (hv.nodup_types h) t.code

/-- The template of a fresh object is one of its variant only. -/
theorem exists_ofTemplate_iff (h : (ofVariant v).toTemplate = .ok entries) :
    (∃ p, ofTemplate w entries = .ok p) ↔ w = v := by
  constructor
  · rintro ⟨p, hp⟩
    obtain ⟨haccepts, -⟩ := ofTemplate_eq_ok_iff.mp hp
    refine (ObjectVariant.eq_of_fixes fun t c hc d hd => ?_).symm
    have hentry := (mem_toTemplate_ofVariant h).mpr ⟨t, c, hc, rfl⟩
    exact ObjectVariant.code_eq_of_accepts (haccepts _ hentry) hd
  · rintro rfl
    exact ⟨_, (wellFormed_ofVariant w).ofTemplate_toTemplate h⟩

end Object

/-- Codes resolve exactly. They mean a variant if it has them, where any subtype goes for data
objects; codes that no variant has are refused, and told as they were given. No two variants have
the same codes, and each one is what its own codes mean. A variant has a subtype where its class has
an attribute for one, which it then declares. An object that is made of codes has a template of just
these codes: its readouts tell the variant again, and it can be read as a template of that variant
and of no other. -/
theorem ObjectVariant.ofCodes_exact (objectClass : Word) (subtype : Option Word) :
    (∀ v, ofCodes objectClass subtype = .ok v ↔ v.HasCodes objectClass subtype) ∧
    (∀ e, ofCodes objectClass subtype = .error e ↔
      (∀ v : ObjectVariant, ¬ v.HasCodes objectClass subtype) ∧
        .unsupportedObjectVariant objectClass subtype = e) ∧
    (∀ v w : ObjectVariant, v.classCode = w.classCode → v.subtypeCode = w.subtypeCode → v = w) ∧
    (∀ v : ObjectVariant, ofCodes v.classCode v.subtypeCode = .ok v) ∧
    ∀ v, ofCodes objectClass subtype = .ok v →
      v.subtypeCode.isSome = (subtypeAttributeOf objectClass).isSome ∧
      (∀ t, subtypeAttributeOf objectClass = some t → t ∈ v.declared) ∧
      ∃ o entries, Object.ofCodes objectClass subtype = .ok o ∧ o.toTemplate = .ok entries ∧
        (∀ x, x ∈ entries ↔ ∃ t c, v.Fixes t c ∧ x = codeEntry t c) ∧
        Object.identify (Object.identityTypes.map fun t => Readout.ofEntries entries t.code) =
          .ok v ∧
        ∀ w, (∃ p, Object.ofTemplate w entries = .ok p) ↔ w = v := by
  refine ⟨fun _ => ofCodes_eq_ok_iff, fun _ => ofCodes_eq_error_iff, fun _ _ => eq_of_codes,
    ofCodes_own, fun v hv => ?_⟩
  obtain ⟨rfl, -⟩ := ofCodes_eq_ok_iff.mp hv
  have htemplate := Object.toTemplate_ofVariant v
  refine ⟨isSome_subtypeCode v, fun t ht => ?_, Object.ofVariant v, _, ?_, htemplate,
    fun _ => Object.mem_toTemplate_ofVariant htemplate, Object.identify_ofEntries htemplate,
    fun _ => Object.exists_ofTemplate_iff htemplate⟩
  · obtain ⟨c, hc⟩ := subtypeCode_isSome (v := v) ht
    exact mem_declared (isIdentity_iff.mpr ⟨c, .inr ⟨ht, hc⟩⟩)
  · rw [Object.ofCodes, hv]
    rfl

/-- The code of DH keys is one of domain parameters too, and that of AES keys is not. -/
theorem ObjectVariant.ofCodes_exact_domain :
    ofCodes 6 (some 2) = .ok (.domainParameters .dh) ∧
    (∃ o entries, Object.ofCodes 6 (some 2) = .ok o ∧ o.toTemplate = .ok entries ∧
      ∀ w, (∃ p, Object.ofTemplate w entries = .ok p) ↔ w = .domainParameters .dh) ∧
    ofCodes 6 (some 0x1F) = .error (.unsupportedObjectVariant 6 (some 0x1F)) := by
  obtain ⟨hok, -, -, -, hobject⟩ := ofCodes_exact 6 (some 2)
  obtain ⟨-, herror, -⟩ := ofCodes_exact 6 (some 0x1F)
  have hdh : ofCodes 6 (some 2) = .ok (.domainParameters .dh) := (hok _).mpr ⟨rfl, .inr rfl⟩
  obtain ⟨-, -, o, entries, ho, hentries, -, -, honly⟩ := hobject _ hdh
  refine ⟨hdh, ⟨o, entries, ho, hentries, honly⟩, (herror _).mpr ⟨?_, rfl⟩⟩
  rintro v ⟨hclass, rfl | hsubtype⟩
  · cases hclass
  · cases v with
    | domainParameters t => cases t <;> cases hsubtype
    | _ => cases hclass

end Cryptoki
