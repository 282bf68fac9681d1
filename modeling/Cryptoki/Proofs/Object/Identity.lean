import Cryptoki.Proofs.Object.Readouts

/-! How the variant of an object not yet known is told: by the codes that a batch reveals. -/
namespace Cryptoki

namespace ObjectVariant

variable {objectClass : Word} {subtype : Option Word} {v : ObjectVariant}

/-- Whatever a class takes for subtypes, each of them is found under its own code. -/
theorem code_of_ofCode? {code : Word} :
    (∀ t, CertificateType.ofCode? code = some t → t.code = code) ∧
    (∀ t, SecretKeyType.ofCode? code = some t → t.code = code) ∧
    (∀ t, AsymmetricKeyType.ofCode? code = some t → t.code = code) ∧
    (∀ t, DomainParameterType.ofCode? code = some t → t.code = code) ∧
    ∀ t, HardwareFeatureType.ofCode? code = some t → t.code = code := by
  refine ⟨?_, fun t h => ?_, fun t h => ?_, fun t h => ?_, fun t h => ?_⟩
  · intro t h
    unfold CertificateType.ofCode? at h
    split at h
    · next hc =>
      cases h
      exact hc.symm
    · cases h
  all_goals simpa using List.find?_some h

/-- A variant is told by its codes, and by no others; of data objects the class is enough. -/
theorem ofCodes?_eq_some_iff :
    ofCodes? objectClass subtype = some v ↔
      v.classCode = objectClass ∧ (v = .data ∨ v.subtypeCode = subtype) := by
  constructor
  · intro h
    unfold ofCodes? at h
    split at h
    · next hc =>
      cases h
      exact ⟨hc.symm, .inl rfl⟩
    · obtain ⟨code, rfl, hv⟩ := Option.bind_eq_some_iff.mp h
      obtain ⟨hcertificate, hsecret, hasymmetric, hdomain, hhardware⟩ := @code_of_ofCode? code
      have htold : ∀ {α : Type} {x : Option α} {f : α → ObjectVariant} {c : Word},
          x.map f = some v → (∀ t, x = some t → (f t).subtypeCode = some code) →
          (∀ t, (f t).classCode = c) → objectClass = c →
          v.classCode = objectClass ∧ (v = .data ∨ v.subtypeCode = some code) := by
        rintro α x f c hx hcode hclass rfl
        obtain ⟨t, ht, rfl⟩ := Option.map_eq_some_iff.mp hx
        exact ⟨hclass t, .inr (hcode t ht)⟩
      repeat' split at hv
      · exact htold hv (fun t ht => congrArg some (hcertificate t ht)) (fun _ => rfl) ‹_›
      · exact htold hv (fun t ht => congrArg some (hasymmetric t ht)) (fun _ => rfl) ‹_›
      · exact htold hv (fun t ht => congrArg some (hasymmetric t ht)) (fun _ => rfl) ‹_›
      · exact htold hv (fun t ht => congrArg some (hsecret t ht)) (fun _ => rfl) ‹_›
      · exact htold hv (fun t ht => congrArg some (hhardware t ht)) (fun _ => rfl) ‹_›
      · exact htold hv (fun t ht => congrArg some (hdomain t ht)) (fun _ => rfl) ‹_›
      · cases hv
  · rintro ⟨rfl, rfl | rfl⟩
    · rfl
    · cases v with
      | data => rfl
      | certificate t | secretKey t | publicKey t | privateKey t | domainParameters t
      | hardwareFeature t => cases t <;> rfl

theorem ofCodes_eq_ok_iff :
    ofCodes objectClass subtype = .ok v ↔
      v.classCode = objectClass ∧ (v = .data ∨ v.subtypeCode = subtype) := by
  rw [← ofCodes?_eq_some_iff, ofCodes]
  cases ofCodes? objectClass subtype <;> simp

theorem subtypeCode_eq_none (h : v.subtypeAttribute = none) : v.subtypeCode = none := by
  cases v with
  | data => rfl
  | _ => cases h

end ObjectVariant

theorem Attribute.asUlong_eq_some_iff {a : Attribute} {c : Word} :
    a.asUlong = some c ↔ a.state = .value (.ulong c) := by
  obtain ⟨t, s⟩ := a
  cases s with
  | value v => cases v <;> simp [Attribute.asUlong, Attribute.value?, AttributeState.value?,
      AttributeValue.ulong?]
  | _ => simp [Attribute.asUlong, Attribute.value?, AttributeState.value?]

namespace Object

variable {v : ObjectVariant} {t : AttributeType} {rs : List Readout} {c : Word}

/-- What tells any variant is asked for. -/
theorem mem_identityTypes (h : v.isIdentity t = true) : t ∈ identityTypes := by
  simp only [ObjectVariant.isIdentity, Bool.or_eq_true, decide_eq_true_eq] at h
  rcases h with rfl | h
  · decide
  · rcases ObjectVariant.subtypeAttribute_cases h with rfl | rfl | rfl <;> decide

/-- A nested template is no code. -/
theorem decode_nested_ne {es : List WireAttribute} :
    WireValue.decode t (.nested es) ≠ .ok (.value (.ulong c)) := by
  intro h
  obtain ⟨bs, hbs, -⟩ | ⟨fs, as, -, -, -, harray⟩ := WireValue.decode_cases h
  · cases hbs
  · cases harray

/-- A code is told by the first readout of the type, if that one reveals it. -/
theorem codeOf_eq_some_iff :
    codeOf rs t = .ok (some c) ↔
      ∃ r, rs.find? (·.type = t.code) = some r ∧ r.Reveals t (.value (.ulong c)) := by
  rw [codeOf]
  cases hfound : rs.find? (·.type = t.code) with
  | none => simp
  | some r =>
    simp only [Option.some.injEq, exists_eq_left', Readout.Reveals, WireAttribute.decode_code]
    by_cases hok : r.status = Status.ok
    · simp only [hok, if_true, true_and]
      cases hvalue : r.value with
      | length n => simp [RawValue.native?]
      | nested es => simp [RawValue.native?, decode_nested_ne]
      | bytes bs =>
        simp only [RawValue.native?, Option.some.injEq, exists_eq_left', Outcome.map_eq_ok_iff,
          Attribute.asUlong_eq_some_iff, Attribute.load, Attribute.absent]
        constructor
        · rintro ⟨a, ⟨s, hdecode, rfl⟩, rfl⟩
          exact hdecode
        · intro hdecode
          exact ⟨_, ⟨_, hdecode, rfl⟩, rfl⟩
    · simp only [hok, if_false, false_and, iff_false]
      split <;> simp

/-- The code of the class is looked at first; it says which attribute has that of the subtype. -/
theorem identify_cases :
    identify rs = .ok v ↔ ∃ objectClass subtype,
      codeOf rs .objectClass = .ok (some objectClass) ∧
      (∀ t, ObjectVariant.subtypeAttributeOf objectClass = some t → codeOf rs t = .ok subtype) ∧
      (ObjectVariant.subtypeAttributeOf objectClass = none → subtype = none) ∧
      ObjectVariant.ofCodes objectClass subtype = .ok v := by
  rw [identify, Outcome.bind_eq_ok_iff]
  constructor
  · rintro ⟨_ | objectClass, hclass, hrest⟩
    · cases hrest
    dsimp only at hrest
    cases hsub : ObjectVariant.subtypeAttributeOf objectClass with
    | none =>
      rw [hsub] at hrest
      exact ⟨objectClass, none, hclass, by simp [hsub], fun _ => rfl, hrest⟩
    | some t =>
      rw [hsub] at hrest
      obtain ⟨subtype, hsubtype, hv⟩ := Outcome.bind_eq_ok_iff.mp hrest
      refine ⟨objectClass, subtype, hclass, ?_, by simp [hsub], hv⟩
      rintro u hu
      obtain rfl := Option.some.inj (hsub.symm.trans hu)
      exact hsubtype
  · rintro ⟨objectClass, subtype, hclass, hsubtype, hnone, hv⟩
    refine ⟨some objectClass, hclass, ?_⟩
    dsimp only
    cases hsub : ObjectVariant.subtypeAttributeOf objectClass with
    | none =>
      obtain rfl := hnone hsub
      exact hv
    | some t => exact Outcome.bind_eq_ok_iff.mpr ⟨subtype, hsubtype t hsub, hv⟩

/-- A batch tells the one variant whose codes it reveals. -/
theorem identify_eq_ok_iff :
    identify rs = .ok v ↔ ∀ t c, v.Fixes t c → codeOf rs t = .ok (some c) := by
  rw [identify_cases]
  constructor
  · rintro ⟨objectClass, subtype, hclass, hsubtype, -, hv⟩ t c hc
    obtain ⟨rfl, hsame⟩ := ObjectVariant.ofCodes_eq_ok_iff.mp hv
    rcases hc with ⟨rfl, rfl⟩ | ⟨ht, hc⟩
    · exact hclass
    · rcases hsame with rfl | hsame
      · cases ht
      · rw [hsubtype t ht, ← hsame, hc]
  · intro hall
    refine ⟨v.classCode, v.subtypeCode, hall _ _ (.inl ⟨rfl, rfl⟩), ?_,
      ObjectVariant.subtypeCode_eq_none, ObjectVariant.ofCodes_eq_ok_iff.mpr ⟨rfl, .inr rfl⟩⟩
    intro t ht
    obtain ⟨c, hc⟩ := ObjectVariant.subtypeCode_isSome ht
    rw [hall t c (.inr ⟨ht, hc⟩), hc]

end Object

end Cryptoki
