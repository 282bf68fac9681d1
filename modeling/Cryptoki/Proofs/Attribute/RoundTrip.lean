import Cryptoki.Proofs.Attribute.Reading

/-! Attributes are read back from their native forms, less the elements that are in no template. -/
namespace Cryptoki

/-- Why an attribute by itself has no native form. -/
def Attribute.dateFault? : Attribute → Option Error
  | ⟨t, .value (.date d)⟩ =>
    if 0 ≤ d.year then none else some (.invalidAttributeValue t.code (.yearOutOfDate d.year))
  | _ => none

/-- The attribute has no date, or one with a year of four digits. -/
def Attribute.Fits (a : Attribute) : Prop :=
  ∀ d, a.state = .value (.date d) → 0 ≤ d.year ∧ d.year ≤ 9999

theorem Attribute.dateFault?_of_fits {a : Attribute} (h : a.Fits) : a.dateFault? = none := by
  obtain ⟨t, s⟩ := a
  unfold Attribute.dateFault?
  split
  · next d heq =>
    cases heq
    rw [if_pos (h d rfl).1]
  · rfl

theorem Attribute.dateFault?_of_not_fits {a : Attribute} {d : Date}
    (hd : a.state = .value (.date d)) (h : ¬ (0 ≤ d.year ∧ d.year ≤ 9999)) :
    a.dateFault? = some (.invalidAttributeValue a.code (.yearOutOfDate d.year)) := by
  obtain ⟨t, s⟩ := a
  obtain rfl := hd
  have hyear := d.year_range
  rw [Attribute.dateFault?, if_neg (by omega)]
  rfl

theorem Attribute.dateFault?_eq_some_iff {a : Attribute} {e : Error} :
    a.dateFault? = some e ↔ ∃ d, a.state = .value (.date d) ∧ ¬ (0 ≤ d.year ∧ d.year ≤ 9999) ∧
      e = .invalidAttributeValue a.code (.yearOutOfDate d.year) := by
  constructor
  · intro h
    unfold dateFault? at h
    split at h
    · next t d =>
      by_cases hyear : 0 ≤ d.year
      · simp [hyear] at h
      · rw [if_neg hyear] at h
        exact ⟨d, rfl, fun hfits => hyear hfits.1, (Option.some.inj h).symm⟩
    · cases h
  · rintro ⟨d, hd, hyear, rfl⟩
    exact dateFault?_of_not_fits hd hyear

theorem Attribute.fits_iff {a : Attribute} : a.Fits ↔ a.dateFault? = none := by
  refine ⟨dateFault?_of_fits, fun h d hd => Decidable.byContradiction fun hyear => ?_⟩
  rw [dateFault?_of_not_fits hd hyear] at h
  cases h

instance (a : Attribute) : Decidable a.Fits := decidable_of_iff _ Attribute.fits_iff.symm

theorem toTemplate_cons_iff {a : Attribute} {as : List Attribute} {ws : List WireAttribute} :
    Attribute.toTemplate (a :: as) = .ok ws ↔
      ∃ w rest, a.toWire = .ok w ∧ Attribute.toTemplate as = .ok rest ∧ w.toList ++ rest = ws := by
  simp only [Attribute.toTemplate, Outcome.bind_eq_ok_iff]
  simp [pure, Except.pure]

theorem failure?_toTemplate_cons (a : Attribute) (as : List Attribute) :
    Outcome.failure? (Attribute.toTemplate (a :: as)) =
      (Outcome.failure? a.toWire).or (Outcome.failure? (Attribute.toTemplate as)) := by
  rw [Attribute.toTemplate]
  cases a.toWire with
  | error e => rfl
  | ok w => cases Attribute.toTemplate as <;> rfl

theorem failure?_encodeDate (t : AttributeType) (d : Date) :
    Outcome.failure? (encodeDate t.code d) = Attribute.dateFault? ⟨t, .value (.date d)⟩ := by
  rw [encodeDate, Attribute.dateFault?]
  split <;> rfl

theorem Attribute.failure?_toTemplate_of_each {as : List Attribute}
    (h : ∀ a ∈ as, Outcome.failure? a.toWire = a.kept.findSome? dateFault?) :
    Outcome.failure? (toTemplate as) = (keptList as).findSome? dateFault? := by
  induction as with
  | nil => rfl
  | cons a as ih =>
    rw [failure?_toTemplate_cons, keptList, List.findSome?_append, h a (by simp),
      ih fun b hb => h b (by simp [hb])]

/-- An attribute has no native form where one that is kept of it has none, and the first of these
tells why. -/
theorem Attribute.failure?_toWire (a : Attribute) :
    Outcome.failure? a.toWire = a.kept.findSome? dateFault? := by
  induction a using Attribute.nested_induction with
  | node t s ih =>
    cases s with
    | absent | unavailable | null => rfl
    | value v =>
      cases v with
      | date d =>
        have hkept : (Attribute.mk t (.value (.date d))).kept = [⟨t, .value (.date d)⟩] := rfl
        have hwire : Outcome.failure? (Attribute.toWire ⟨t, .value (.date d)⟩) =
            Outcome.failure? (encodeDate t.code d) := by
          simp [Attribute.toWire, AttributeState.encode, AttributeValue.encode]
        rw [hkept, hwire, failure?_encodeDate, List.findSome?_singleton]
      | attributes entries =>
        have hkept : (Attribute.mk t (.value (.attributes entries))).kept =
            ⟨t, .value (.attributes entries)⟩ :: keptList entries := rfl
        have hwire : Outcome.failure? (Attribute.toWire ⟨t, .value (.attributes entries)⟩) =
            Outcome.failure? (toTemplate entries) := by
          simp [Attribute.toWire, AttributeState.encode, AttributeValue.encode]
        rw [hkept, hwire, failure?_toTemplate_of_each (ih entries rfl), List.findSome?_cons]
        rfl
      | _ => rfl

theorem Attribute.failure?_toTemplate (as : List Attribute) :
    Outcome.failure? (toTemplate as) = (keptList as).findSome? dateFault? :=
  failure?_toTemplate_of_each fun a _ => a.failure?_toWire

theorem Attribute.toWire_of_not_present {a : Attribute} (h : a.isPresent = false) :
    a.toWire = .ok none := by
  obtain ⟨t, s⟩ := a
  cases s with
  | absent | unavailable => rfl
  | null | value _ => cases h

/-- What is written is a native form of the same type, where there is one. -/
theorem Attribute.toWire_isSome {a : Attribute} {w : Option WireAttribute} (h : a.toWire = .ok w) :
    w.isSome = a.isPresent ∧ ∀ x ∈ w, x.type = a.code := by
  obtain ⟨t, s⟩ := a
  rw [Attribute.toWire] at h
  obtain ⟨v, hv, rfl⟩ := Outcome.map_eq_ok_iff.mp h
  cases s with
  | absent | unavailable | null =>
    obtain rfl := Except.ok.inj hv
    simp [isPresent, code]
  | value x =>
    obtain ⟨y, -, rfl⟩ := Outcome.map_eq_ok_iff.mp hv
    simp [isPresent, code]

/-- The elements that are written are read back, and no others. -/
theorem decodeList_of_toTemplate {as : List Attribute} {ws : List WireAttribute}
    (hread : ∀ a ∈ as, ∀ w, a.toWire = .ok (some w) → w.decode = .ok a.pruned)
    (h : Attribute.toTemplate as = .ok ws) :
    WireAttribute.decodeList ws = .ok (Attribute.prunedList as) := by
  induction as generalizing ws with
  | nil =>
    rw [Attribute.toTemplate] at h
    obtain rfl := Except.ok.inj h
    rfl
  | cons a as ih =>
    obtain ⟨w, rest, hw, hrest, rfl⟩ := toTemplate_cons_iff.mp h
    have hlater := ih (fun b hb => hread b (by simp [hb])) hrest
    have hsome := (Attribute.toWire_isSome hw).1
    cases w with
    | none =>
      have habsent : ¬ a.isPresent = true := by simp [← hsome]
      rw [Attribute.prunedList, if_neg habsent]
      exact hlater
    | some w =>
      have hpresent : a.isPresent = true := by simp [← hsome]
      rw [Attribute.prunedList, if_pos hpresent]
      exact decodeList_cons_iff.mpr ⟨_, _, hread a (by simp) w hw, hlater, rfl⟩

/-- What is written of a value that is no array is read back as the value. -/
theorem decodeBytes_of_encode {t : AttributeType} {v : AttributeValue} {bs : Bytes}
    (hk : v.kind = t.kind) (h : v.encode t.code = .ok (.bytes bs)) :
    decodeBytes t bs = .ok (.value v) := by
  cases v with
  | bool b =>
    obtain rfl := WireValue.bytes.inj (Except.ok.inj h)
    have hread := decodeBytes_of_reads (by simp)
      (Reads.bool hk.symm (Eq.refl [if b then 1 else 0]))
    cases b <;> exact hread
  | ulong w =>
    obtain rfl := WireValue.bytes.inj (Except.ok.inj h)
    have hlength := Word.length_toBytes w
    apply decodeBytes_of_reads (List.ne_nil_of_length_pos (by omega))
    exact .ulong hk.symm (Word.ofBytes?_toBytes w)
  | bytes bs =>
    obtain rfl := WireValue.bytes.inj (Except.ok.inj h)
    by_cases hnil : bs = []
    · -- No byte at all is null, and null is the empty value of this kind.
      rw [hnil, decodeBytes_nil, ← hk]
      rfl
    · exact decodeBytes_of_reads hnil (.bytes hk.symm)
  | date d =>
    obtain ⟨text, htext, hbs⟩ := Outcome.map_eq_ok_iff.mp h
    obtain rfl := WireValue.bytes.inj hbs
    have hread : decodeDate t.code text = .ok d := decodeDate_encodeDate htext
    have hne : text ≠ [] := by
      rintro rfl
      simp [decodeDate] at hread
    exact decodeBytes_of_reads hne (.date hk.symm hread)
  | mechanisms ids =>
    obtain rfl := WireValue.bytes.inj (Except.ok.inj h)
    by_cases hnil : ids = []
    · rw [hnil]
      change decodeBytes t [] = _
      rw [decodeBytes_nil, ← hk]
      rfl
    · have hlength := length_encodeWords ids
      have hpos := List.length_pos_iff.mpr hnil
      have hread := decodeBytes_of_reads (List.ne_nil_of_length_pos (by omega))
        (Reads.mechanisms hk.symm (show (encodeWords ids).length % 8 = 0 by omega))
      rw [decodeWords_encodeWords] at hread
      exact hread
  | attributes entries =>
    obtain ⟨ws, -, hbs⟩ := Outcome.map_eq_ok_iff.mp h
    cases hbs

/-- Only arrays are written as templates. -/
theorem encode_cases {code : Word} {v : AttributeValue} {x : WireValue}
    (h : v.encode code = .ok x) :
    (∃ bs, x = .bytes bs ∧ v.pruned = v) ∨
    ∃ entries ws, v = .attributes entries ∧ Attribute.toTemplate entries = .ok ws ∧
      x = .nested ws := by
  cases v with
  | attributes entries =>
    obtain ⟨ws, hws, rfl⟩ := Outcome.map_eq_ok_iff.mp h
    exact .inr ⟨entries, ws, rfl, hws, rfl⟩
  | date d =>
    obtain ⟨text, -, rfl⟩ := Outcome.map_eq_ok_iff.mp h
    exact .inl ⟨text, rfl, rfl⟩
  | _ =>
    obtain rfl := Except.ok.inj h
    exact .inl ⟨_, rfl, rfl⟩

/-- A native form is read as what it was written of, less the elements that are in no template. -/
theorem Attribute.decode_toWire {a : Attribute} {w : WireAttribute} (hwf : a.WellFormed)
    (h : a.toWire = .ok (some w)) : w.decode = .ok a.pruned := by
  induction a using Attribute.nested_induction generalizing w with
  | node t s ih =>
    rw [Attribute.toWire] at h
    obtain ⟨v, hv, hw⟩ := Outcome.map_eq_ok_iff.mp h
    cases s with
    | absent | unavailable =>
      obtain rfl := Except.ok.inj hv
      cases hw
    | null =>
      obtain rfl := Except.ok.inj hv
      cases hw
      rw [WireAttribute.decode, AttributeType.ofCode?_code]
      have hnull : t.kind.nullState = .null := hwf
      simp [WireValue.decode, decodeBytes_nil, hnull, Except.map, pruned, AttributeState.pruned]
    | value x =>
      obtain ⟨y, hy, rfl⟩ := Outcome.map_eq_ok_iff.mp hv
      cases hw
      obtain ⟨hk, helements⟩ := hwf
      rw [WireAttribute.decode, AttributeType.ofCode?_code]
      obtain ⟨bs, rfl, hpruned⟩ | ⟨entries, ws, rfl, hws, rfl⟩ := encode_cases hy
      · have hread := decodeBytes_of_encode hk hy
        simp [WireValue.decode, hread, Except.map, pruned, AttributeState.pruned, hpruned]
      · have hlist : WireAttribute.decodeList ws = .ok (prunedList entries) := by
          apply decodeList_of_toTemplate _ hws
          intro a ha w hw
          exact ih entries rfl a ha (wellFormedList_iff.mp helements a ha) hw
        have hkind : t.kind = .attributeArray := hk.symm
        simp [WireValue.decode, hkind, hlist, Except.map, pruned, AttributeState.pruned,
          AttributeValue.pruned]

/-- Attributes survive their native form. Absent and unavailable ones have none. Any other has one
of its type where each date in it fits, and is read back from it, less the elements that are in no
template; where a date does not fit, the first of them is told. -/
theorem Attribute.toWire_roundTrip {a : Attribute} (h : a.Obtainable) :
    (a.isPresent = false → a.toWire = .ok none) ∧
    (a.isPresent = true → (∀ b ∈ a.kept, b.Fits) →
      ∃ w, a.toWire = .ok (some w) ∧ w.type = a.code ∧ w.decode = .ok a.pruned ∧
        (a.Complete → w.decode = .ok a)) ∧
    ∀ before b after d, a.kept = before ++ b :: after → (∀ c ∈ before, c.Fits) →
      b.state = .value (.date d) → ¬ (0 ≤ d.year ∧ d.year ≤ 9999) →
      a.toWire = .error (.invalidAttributeValue b.code (.yearOutOfDate d.year)) := by
  refine ⟨toWire_of_not_present, fun hpresent hfits => ?_, ?_⟩
  · have hnone : Outcome.failure? a.toWire = none := by
      rw [failure?_toWire, List.findSome?_eq_none_iff]
      intro b hb
      exact dateFault?_of_fits (hfits b hb)
    obtain ⟨w, hw⟩ := Outcome.failure?_eq_none_iff.mp hnone
    obtain ⟨hsome, htype⟩ := toWire_isSome hw
    rw [hpresent, Option.isSome_iff_exists] at hsome
    obtain ⟨x, rfl⟩ := hsome
    have hread := decode_toWire h.wellFormed hw
    refine ⟨x, hw, htype x rfl, hread, fun hcomplete => ?_⟩
    rw [hread, pruned_of_complete hcomplete]
  · intro before b after d hkept hbefore hdate hyear
    apply Outcome.failure?_eq_some_iff.mp
    have hnone : before.findSome? dateFault? = none := by
      rw [List.findSome?_eq_none_iff]
      intro c hc
      exact dateFault?_of_fits (hbefore c hc)
    rw [failure?_toWire, hkept, List.findSome?_append, hnone, List.findSome?_cons,
      dateFault?_of_not_fits hdate hyear]
    rfl

theorem Attribute.toWire_roundTrip_template :
    ∃ w, Attribute.toWire ⟨.wrapTemplate, .value (.attributes
        [⟨.label, .value (.bytes [7])⟩, .absent .token, ⟨.sensitive, .null⟩])⟩ = .ok (some w) ∧
      w.decode = .ok ⟨.wrapTemplate, .value (.attributes
        [⟨.label, .value (.bytes [7])⟩, ⟨.sensitive, .null⟩])⟩ := by
  have hlabel : Attribute.Obtainable ⟨.label, .value (.bytes [7])⟩ :=
    .set (v := .bytes [7]) (.absent .label) (by simp) rfl
  have hsensitive : Attribute.Obtainable ⟨.sensitive, .null⟩ := .setNull (.absent .sensitive)
  have htemplate : Attribute.Obtainable ⟨.wrapTemplate, .value (.attributes
      [⟨.label, .value (.bytes [7])⟩, .absent .token, ⟨.sensitive, .null⟩])⟩ := by
    refine .set (v := .attributes _) (.absent .wrapTemplate) ?_ rfl
    rintro entries ⟨⟩ e he
    simp only [List.mem_cons, List.not_mem_nil, or_false] at he
    rcases he with rfl | rfl | rfl
    · exact hlabel
    · exact .absent .token
    · exact hsensitive
  obtain ⟨-, hfits, -⟩ := Attribute.toWire_roundTrip htemplate
  obtain ⟨w, hw, -, hread, -⟩ := hfits rfl (by
    intro b hb d hd
    simp only [Attribute.kept, AttributeState.kept, AttributeValue.kept, Attribute.keptList,
      Attribute.isPresent, Attribute.absent] at hb
    simp at hb
    rcases hb with rfl | rfl | rfl <;> cases hd)
  exact ⟨w, hw, hread⟩

end Cryptoki
