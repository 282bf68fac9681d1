import Cryptoki.Proofs.Attribute.Nesting
import Cryptoki.Proofs.Attribute.Scalars
import Cryptoki.Proofs.Outcome

/-! What is read from a native form, and what every attribute has that can be made. -/
namespace Cryptoki

/-- What some bytes say of an attribute of a type. -/
inductive Reads (t : AttributeType) (bs : Bytes) : AttributeValue → Prop where
  | bool {b : UInt8} (hk : t.kind = .bool) (h : bs = [b]) : Reads t bs (.bool (b ≠ 0))
  | ulong {w : Word} (hk : t.kind = .ulong) (h : Word.ofBytes? bs = some w) : Reads t bs (.ulong w)
  | bytes (hk : t.kind = .bytes) : Reads t bs (.bytes bs)
  | date {d : Date} (hk : t.kind = .date) (h : decodeDate t.code bs = .ok d) : Reads t bs (.date d)
  | mechanisms (hk : t.kind = .mechanismArray) (h : bs.length % 8 = 0) :
    Reads t bs (.mechanisms (decodeWords bs))

theorem decodeBytes_nil (t : AttributeType) : decodeBytes t [] = .ok t.kind.nullState := rfl

theorem decodeBytes_of_reads {t : AttributeType} {bs : Bytes} {v : AttributeValue} (hne : bs ≠ [])
    (h : Reads t bs v) : decodeBytes t bs = .ok (.value v) := by
  unfold decodeBytes
  rw [if_neg hne]
  cases h with
  | bool hk h => simp [hk, h]
  | ulong hk h => simp [hk, h]
  | bytes hk => simp [hk]
  | date hk h => simp [hk, h, Except.map]
  | mechanisms hk h => simp [hk, h]

theorem decodeBytes_cases {t : AttributeType} {bs : Bytes} {s : AttributeState}
    (h : decodeBytes t bs = .ok s) :
    (bs = [] ∧ s = t.kind.nullState) ∨ bs ≠ [] ∧ ∃ v, s = .value v ∧ Reads t bs v := by
  by_cases hnil : bs = []
  · subst hnil
    exact .inl ⟨rfl, (Except.ok.inj h).symm⟩
  refine .inr ⟨hnil, ?_⟩
  unfold decodeBytes at h
  rw [if_neg hnil] at h
  cases hk : t.kind with
  | bool =>
    simp only [hk] at h
    split at h
    · cases h
      exact ⟨_, rfl, .bool hk rfl⟩
    · cases h
  | ulong =>
    simp only [hk] at h
    split at h
    · next w hw =>
      cases h
      exact ⟨_, rfl, .ulong hk hw⟩
    · cases h
  | bytes =>
    simp only [hk] at h
    cases h
    exact ⟨_, rfl, .bytes hk⟩
  | date =>
    simp only [hk] at h
    obtain ⟨d, hd, rfl⟩ := Outcome.map_eq_ok_iff.mp h
    exact ⟨_, rfl, .date hk hd⟩
  | mechanismArray =>
    simp only [hk] at h
    split at h
    · next hlength =>
      cases h
      exact ⟨_, rfl, .mechanisms hk hlength⟩
    · cases h
  | attributeArray =>
    simp only [hk] at h
    cases h

theorem Reads.kind {t : AttributeType} {bs : Bytes} {v : AttributeValue} (h : Reads t bs v) :
    v.kind = t.kind := by
  cases h with
  | bool hk _ | ulong hk _ | bytes hk | date hk _ | mechanisms hk _ => exact hk.symm

/-- Bytes hold no elements. -/
theorem Reads.wellFormed {t : AttributeType} {bs : Bytes} {v : AttributeValue}
    (h : Reads t bs v) : v.WellFormed ∧ v.Complete := by
  cases h <;> simp [AttributeValue.WellFormed, AttributeValue.Complete]

theorem decodeList_cons_iff {e : WireAttribute} {es : List WireAttribute} {as : List Attribute} :
    WireAttribute.decodeList (e :: es) = .ok as ↔
      ∃ a rest, e.decode = .ok a ∧ WireAttribute.decodeList es = .ok rest ∧ a :: rest = as := by
  simp only [WireAttribute.decodeList, Outcome.bind_eq_ok_iff]
  simp [pure, Except.pure]

mutual

theorem WireValue.forall_entries {P : WireAttribute → Prop}
    (h : ∀ code v, (∀ es, v = .nested es → ∀ e ∈ es, P e) → P ⟨code, v⟩) :
    ∀ v : WireValue, ∀ es, v = .nested es → ∀ e ∈ es, P e
  | .nested es => fun _ he => WireValue.nested.inj he ▸ WireAttribute.forall_list h es
  | .bytes _ => by simp

/-- Induction on how deep native templates are nested. -/
theorem WireAttribute.nested_induction {P : WireAttribute → Prop}
    (h : ∀ code v, (∀ es, v = .nested es → ∀ e ∈ es, P e) → P ⟨code, v⟩) :
    ∀ w : WireAttribute, P w
  | ⟨code, v⟩ => h code v (v.forall_entries h)

theorem WireAttribute.forall_list {P : WireAttribute → Prop}
    (h : ∀ code v, (∀ es, v = .nested es → ∀ e ∈ es, P e) → P ⟨code, v⟩) :
    ∀ es : List WireAttribute, ∀ e ∈ es, P e
  | [] => by simp
  | e :: es => List.forall_mem_cons.mpr
    ⟨WireAttribute.nested_induction h e, WireAttribute.forall_list h es⟩

end

theorem WireAttribute.decode_cases {w : WireAttribute} {a : Attribute} (h : w.decode = .ok a) :
    ∃ t s, AttributeType.ofCode? w.type = some t ∧ w.value.decode t = .ok s ∧ a = ⟨t, s⟩ := by
  obtain ⟨code, v⟩ := w
  rw [WireAttribute.decode] at h
  split at h
  · next t ht =>
    obtain ⟨s, hs, rfl⟩ := Outcome.map_eq_ok_iff.mp h
    exact ⟨t, s, ht, hs, rfl⟩
  · cases h

theorem WireValue.decode_cases {t : AttributeType} {v : WireValue} {s : AttributeState}
    (h : v.decode t = .ok s) :
    (∃ bs, v = .bytes bs ∧ decodeBytes t bs = .ok s) ∨
    ∃ es as, v = .nested es ∧ t.kind = .attributeArray ∧ WireAttribute.decodeList es = .ok as ∧
      s = .value (.attributes as) := by
  cases v with
  | bytes bs => exact .inl ⟨bs, rfl, by simpa [WireValue.decode] using h⟩
  | nested es =>
    rw [WireValue.decode] at h
    split at h
    · next hk =>
      obtain ⟨as, has, rfl⟩ := Outcome.map_eq_ok_iff.mp h
      exact .inr ⟨es, as, rfl, hk, has, rfl⟩
    · cases h

/-- What is read from each entry of a template holds of all elements. -/
theorem decodeList_forall {P : Attribute → Prop} {es : List WireAttribute} {as : List Attribute}
    (hp : ∀ e ∈ es, ∀ a, e.decode = .ok a → P a) (h : WireAttribute.decodeList es = .ok as) :
    ∀ a ∈ as, P a := by
  induction es generalizing as with
  | nil =>
    rw [WireAttribute.decodeList] at h
    obtain rfl := Except.ok.inj h
    simp
  | cons e es ih =>
    obtain ⟨a, rest, ha, hrest, rfl⟩ := decodeList_cons_iff.mp h
    refine List.forall_mem_cons.mpr ⟨hp e (by simp) a ha, ?_⟩
    exact ih (fun f hf => hp f (by simp [hf])) hrest

/-- What holds of all that is read from native forms. -/
structure Attribute.Sound (a : Attribute) : Prop where
  present : a.isPresent = true
  wellFormed : a.WellFormed
  complete : a.Complete

theorem AttributeKind.nullState_sound (t : AttributeType) :
    Attribute.Sound ⟨t, t.kind.nullState⟩ where
  present := by cases t.kind <;> rfl
  wellFormed := t.kind.nullState_wellFormed
  complete := t.kind.nullState_complete

theorem WireValue.decode_sound_of_entries {t : AttributeType} {v : WireValue} {s : AttributeState}
    (hentries : ∀ es, v = .nested es → ∀ e ∈ es, ∀ a, e.decode = .ok a → a.Sound)
    (h : v.decode t = .ok s) : Attribute.Sound ⟨t, s⟩ := by
  obtain ⟨bs, rfl, hbytes⟩ | ⟨es, as, rfl, hk, has, rfl⟩ := WireValue.decode_cases h
  · obtain ⟨-, rfl⟩ | ⟨-, v, rfl, hv⟩ := decodeBytes_cases hbytes
    · exact AttributeKind.nullState_sound t
    · exact ⟨rfl, ⟨hv.kind, hv.wellFormed.1⟩, hv.wellFormed.2⟩
  · have hall := decodeList_forall (hentries es rfl) has
    refine ⟨rfl, ⟨hk.symm, Attribute.wellFormedList_iff.mpr ?_⟩, Attribute.completeList_iff.mpr ?_⟩
    · intro a ha
      exact (hall a ha).wellFormed
    · intro a ha
      exact ⟨(hall a ha).present, (hall a ha).complete⟩

theorem WireAttribute.decode_sound {w : WireAttribute} {a : Attribute} (h : w.decode = .ok a) :
    a.Sound := by
  induction w using WireAttribute.nested_induction generalizing a with
  | h code v ih =>
    obtain ⟨t, s, -, hs, rfl⟩ := WireAttribute.decode_cases h
    exact WireValue.decode_sound_of_entries (fun es he e hm b hb => ih es he e hm hb) hs

theorem WireValue.decode_sound {t : AttributeType} {v : WireValue} {s : AttributeState}
    (h : v.decode t = .ok s) : Attribute.Sound ⟨t, s⟩ :=
  WireValue.decode_sound_of_entries (fun _ _ _ _ _ => WireAttribute.decode_sound) h

/-- Only values of the kind of an attribute are set. -/
theorem Attribute.wellFormed_of_set {a b : Attribute} {v : AttributeValue}
    (helements : ∀ entries, v = .attributes entries → ∀ e ∈ entries, e.WellFormed)
    (h : a.set v = .ok b) : b.type = a.type ∧ b.WellFormed := by
  unfold Attribute.set at h
  split at h
  · next hk =>
    cases h
    refine ⟨rfl, hk, ?_⟩
    cases v with
    | attributes entries => exact Attribute.wellFormedList_iff.mpr (helements entries rfl)
    | _ => trivial
  · cases h

theorem Attribute.Obtainable.wellFormed {a : Attribute} (h : a.Obtainable) : a.WellFormed := by
  induction h with
  | absent t => trivial
  | set ha helements h iha ihelements => exact (Attribute.wellFormed_of_set ihelements h).2
  | setNull ha iha => exact AttributeKind.nullState_wellFormed _
  | clear ha iha => trivial
  | markUnavailable ha iha => trivial
  | load ha h iha =>
    obtain ⟨s, hs, rfl⟩ := Outcome.map_eq_ok_iff.mp h
    exact (WireValue.decode_sound hs).wellFormed

/-- All well-formed attributes can be made, those with elements from the inside out. -/
theorem Attribute.obtainable_of_wellFormed {a : Attribute} (h : a.WellFormed) : a.Obtainable := by
  induction a using Attribute.nested_induction with
  | node t s ih =>
    cases s with
    | absent => exact .absent t
    | unavailable => exact .markUnavailable (.absent t)
    | null =>
      have hnull : t.kind.nullState = .null := h
      have hmade : (Attribute.absent t).setNull = ⟨t, .null⟩ := by
        rw [setNull, absent, kind, hnull]
      exact hmade ▸ .setNull (.absent t)
    | value v =>
      obtain ⟨hkind, helements⟩ := h
      refine .set (.absent t) (fun entries hv e he => ?_) (if_pos hkind)
      subst hv
      exact ih entries rfl e he (wellFormedList_iff.mp helements e he)

end Cryptoki
