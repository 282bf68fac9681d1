import Cryptoki.Proofs.Object.Table
import Mathlib.Data.List.Forall2

/-! Batched reads of objects: which readouts are taken, and where they leave each attribute. -/
namespace Cryptoki

/-- The token has no such attribute, does not reveal it, or has no length for it. -/
def Readout.Withholds (r : Readout) : Prop :=
  r.status = Status.attributeTypeInvalid ∨ r.status = Status.attributeSensitive ∨
    r.status = Status.ok ∧ r.value = .length unavailableInformation

/-- The native value that came back, if there is more than a length. -/
def RawValue.native? : RawValue → Option WireValue
  | .bytes bs => some (.bytes bs)
  | .nested es => some (.nested es)
  | .length _ => none

/-- The native value that came back says where an attribute of the type stands. -/
def Readout.Reveals (r : Readout) (t : AttributeType) (s : AttributeState) : Prop :=
  r.status = Status.ok ∧
    ∃ v, r.value.native? = some v ∧ WireAttribute.decode ⟨t.code, v⟩ = .ok ⟨t, s⟩

/-- The readout is one for the attribute of the type, and does not contradict the variant. -/
def Readout.Answers (v : ObjectVariant) (t : AttributeType) (r : Readout) : Prop :=
  r.type = t.code ∧ (r.Withholds ∨ ∃ s, r.Reveals t s ∧ ∀ c, v.Fixes t c → s = .value (.ulong c))

/-- Where a readout leaves an attribute: what tells the variant stays, of the rest only what is
revealed is known. -/
structure Readout.Leaves (v : ObjectVariant) (t : AttributeType) (r : Readout)
    (before after : AttributeState) : Prop where
  fixed : v.isIdentity t = true → after = before
  withheld : v.isIdentity t = false → r.Withholds → after = .unavailable
  revealed : v.isIdentity t = false → ∀ s, r.Reveals t s → after = s

variable {v : ObjectVariant} {t : AttributeType} {r : Readout} {f : AttributeType → AttributeState}

theorem WireAttribute.decode_code {x : WireValue} {s : AttributeState} :
    WireAttribute.decode ⟨t.code, x⟩ = .ok ⟨t, s⟩ ↔ x.decode t = .ok s := by
  simp [WireAttribute.decode, AttributeType.ofCode?_code, Outcome.map_eq_ok_iff]

/-- Nothing is withheld and revealed at once. -/
theorem Readout.Reveals.not_withholds {s : AttributeState} (h : r.Reveals t s) :
    ¬ r.Withholds := by
  obtain ⟨hs, x, hx, -⟩ := h
  rintro (hw | hw | ⟨-, hw⟩)
  · rw [hs] at hw
    exact absurd hw (by decide)
  · rw [hs] at hw
    exact absurd hw (by decide)
  · rw [hw] at hx
    cases hx

theorem Readout.withholds_of_soft (h : Status.isSoft r.status = true) : r.Withholds := by
  simp only [Status.isSoft, Bool.or_eq_true, decide_eq_true_eq] at h
  rcases h with h | h
  · exact .inl h
  · exact .inr (.inl h)

theorem Readout.withholds_iff_of_not_soft (h : Status.isSoft r.status = false) :
    r.Withholds ↔ r.status = Status.ok ∧ r.value = .length unavailableInformation := by
  simp only [Status.isSoft, Bool.or_eq_false_iff, decide_eq_false_iff_not] at h
  simp [Withholds, h]

theorem Attribute.load_eq_ok_iff {s : AttributeState} {b : Attribute} {x : WireValue} :
    (Attribute.mk t s).load x = .ok b ↔
      ∃ y, WireAttribute.decode ⟨t.code, x⟩ = .ok ⟨t, y⟩ ∧ b = ⟨t, y⟩ := by
  simp only [Attribute.load, Outcome.map_eq_ok_iff, WireAttribute.decode_code, eq_comm (a := b)]

/-- An attribute is read as withheld or as revealed, whatever stood there before. -/
theorem Attribute.read_eq_ok_iff {s : AttributeState} {b : Attribute} :
    (Attribute.mk t s).read r = .ok b ↔
      r.type = t.code ∧
        (r.Withholds ∧ b = ⟨t, .unavailable⟩ ∨ ∃ x, r.Reveals t x ∧ b = ⟨t, x⟩) := by
  have hcode : (Attribute.mk t s).code = t.code := rfl
  rw [Attribute.read, hcode]
  by_cases htype : r.type = t.code
  case neg => simp [htype]
  rw [if_neg (by simpa using htype)]
  cases hsoft : Status.isSoft r.status with
  | true =>
    have hw := Readout.withholds_of_soft hsoft
    have hnone : ∀ x, ¬ r.Reveals t x := fun x hx => hx.not_withholds hw
    simp [htype, hw, hnone, markUnavailable, eq_comm]
  | false =>
    simp only [Bool.false_eq_true, if_false, htype, true_and,
      Readout.withholds_iff_of_not_soft hsoft, Readout.Reveals]
    by_cases hok : r.status = Status.ok
    · rw [if_pos hok]
      cases hvalue : r.value with
      | length n =>
        by_cases hn : n = unavailableInformation
        · simp [hok, hn, RawValue.native?, markUnavailable, eq_comm]
        · simp [hn, RawValue.native?]
      | bytes bs => simp [hok, RawValue.native?, load_eq_ok_iff]
      | nested es => simp [hok, RawValue.native?, load_eq_ok_iff]
    · simp [hok]

theorem Readout.Reveals.unique {s x : AttributeState} (hs : r.Reveals t s) (hx : r.Reveals t x) :
    s = x := by
  obtain ⟨-, y, hy, hdecode⟩ := hs
  obtain ⟨-, z, hz, hagain⟩ := hx
  obtain rfl := Option.some.inj (hy.symm.trans hz)
  rw [hdecode] at hagain
  exact (Attribute.mk.inj (Except.ok.inj hagain)).2

theorem Readout.leaves_of_identity (hid : v.isIdentity t = true) {s : AttributeState} :
    r.Leaves v t s s where
  fixed _ := rfl
  withheld hfree := by simp [hid] at hfree
  revealed hfree := by simp [hid] at hfree

theorem Readout.leaves_of_withheld (hid : v.isIdentity t = false) (hw : r.Withholds)
    {s : AttributeState} : r.Leaves v t s .unavailable where
  fixed htells := by simp [hid] at htells
  withheld _ _ := rfl
  revealed _ _ hs := absurd hw hs.not_withholds

theorem Readout.leaves_of_revealed (hid : v.isIdentity t = false) {s y : AttributeState}
    (hy : r.Reveals t y) : r.Leaves v t s y where
  fixed htells := by simp [hid] at htells
  withheld _ hw := absurd hw hy.not_withholds
  revealed _ _ hs := hy.unique hs

/-- What is revealed is present. -/
theorem Readout.Reveals.present {s : AttributeState} (h : r.Reveals t s) :
    (Attribute.mk t s).isPresent = true := by
  obtain ⟨-, x, -, hx⟩ := h
  exact (WireAttribute.decode_sound hx).present

namespace Object

/-- What tells the variant is kept, if it was withheld or is what was read. -/
theorem settleIdentity_of_fixes {c : Word} (hc : v.Fixes t c) (hf : v.Admits f)
    {s : AttributeState} {x : Attribute} :
    settleIdentity v ⟨t, s⟩ ⟨t, f t⟩ = .ok x ↔ (s = .unavailable ∨ s = f t) ∧ x = ⟨t, f t⟩ := by
  have ht : v.isIdentity t = true := ObjectVariant.isIdentity_iff.mpr ⟨c, hc⟩
  rw [hf.identity hc, settleIdentity, if_pos ht]
  cases s with
  | value w =>
    by_cases hw : w = .ulong c
    · simp [hw, Attribute.value?, AttributeState.value?, eq_comm]
    · simp [hw, Attribute.value?, AttributeState.value?]
  | absent | null => simp [Attribute.value?, AttributeState.value?]
  | unavailable => simp [eq_comm]

/-- An attribute that tells the variant is read without effect, unless it contradicts it. -/
theorem settleRead_of_fixes {c : Word} (hc : v.Fixes t c) (hf : v.Admits f) {x : Attribute} :
    (∃ b, (Attribute.mk t (f t)).read r = .ok b ∧ settleIdentity v b ⟨t, f t⟩ = .ok x) ↔
      r.Answers v t ∧ x = ⟨t, f t⟩ := by
  simp only [Attribute.read_eq_ok_iff]
  constructor
  · rintro ⟨b, ⟨htype, ⟨hw, rfl⟩ | ⟨y, hy, rfl⟩⟩, hx⟩
    · obtain ⟨-, rfl⟩ := (settleIdentity_of_fixes hc hf).mp hx
      exact ⟨⟨htype, .inl hw⟩, rfl⟩
    · obtain ⟨hsame, rfl⟩ := (settleIdentity_of_fixes hc hf).mp hx
      have hstate : y = f t := by
        rcases hsame with rfl | h
        · cases hy.present
        · exact h
      refine ⟨⟨htype, .inr ⟨y, hy, fun d hd => ?_⟩⟩, rfl⟩
      rw [hstate, hf.identity hd]
  · rintro ⟨⟨htype, hw | ⟨y, hy, hcode⟩⟩, rfl⟩
    · exact ⟨_, ⟨htype, .inl ⟨hw, rfl⟩⟩, (settleIdentity_of_fixes hc hf).mpr ⟨.inl rfl, rfl⟩⟩
    · have hstate : y = f t := by rw [hcode c hc, hf.identity hc]
      exact ⟨_, ⟨htype, .inr ⟨y, hy, rfl⟩⟩,
        (settleIdentity_of_fixes hc hf).mpr ⟨.inr hstate, rfl⟩⟩

/-- Any other attribute is left as it is read. -/
theorem settleRead_of_free (hid : v.isIdentity t = false) {s : AttributeState} {x : Attribute} :
    (∃ b, (Attribute.mk t s).read r = .ok b ∧ settleIdentity v b ⟨t, s⟩ = .ok x) ↔
      r.Answers v t ∧ ∃ y, x = ⟨t, y⟩ ∧ r.Leaves v t s y := by
  have hsettle : ∀ y, settleIdentity v ⟨t, y⟩ ⟨t, s⟩ = .ok ⟨t, y⟩ := by
    intro y
    simp [settleIdentity, hid]
  simp only [Attribute.read_eq_ok_iff]
  constructor
  · rintro ⟨b, ⟨htype, ⟨hw, rfl⟩ | ⟨y, hy, rfl⟩⟩, hx⟩
    · rw [hsettle] at hx
      obtain rfl := Except.ok.inj hx
      exact ⟨⟨htype, .inl hw⟩, _, rfl, Readout.leaves_of_withheld hid hw⟩
    · rw [hsettle] at hx
      obtain rfl := Except.ok.inj hx
      have hfree : ∀ c, v.Fixes t c → y = .value (.ulong c) := fun c hc => (hc.not_free hid).elim
      exact ⟨⟨htype, .inr ⟨y, hy, hfree⟩⟩, _, rfl, Readout.leaves_of_revealed hid hy⟩
  · rintro ⟨⟨htype, hw | ⟨y, hy, -⟩⟩, z, rfl, hleaves⟩
    · obtain rfl := hleaves.withheld hid hw
      exact ⟨_, ⟨htype, .inl ⟨hw, rfl⟩⟩, hsettle _⟩
    · obtain rfl := hleaves.revealed hid y hy
      exact ⟨_, ⟨htype, .inr ⟨_, hy, rfl⟩⟩, hsettle _⟩

/-- An attribute is read and then settled with the object. -/
theorem settleRead_iff (hf : v.Admits f) {x : Attribute} :
    (∃ b, (Attribute.mk t (f t)).read r = .ok b ∧ settleIdentity v b ⟨t, f t⟩ = .ok x) ↔
      r.Answers v t ∧ ∃ s, x = ⟨t, s⟩ ∧ r.Leaves v t (f t) s := by
  cases hid : v.isIdentity t with
  | true =>
    obtain ⟨c, hc⟩ := ObjectVariant.isIdentity_iff.mp hid
    rw [settleRead_of_fixes hc hf]
    refine and_congr_right fun _ => ⟨?_, ?_⟩
    · rintro rfl
      exact ⟨_, rfl, Readout.leaves_of_identity hid⟩
    · rintro ⟨s, rfl, hleaves⟩
      rw [hleaves.fixed hid]
  | false => exact settleRead_of_free hid

theorem readAll_cons_iff {a : Attribute} {as xs : List Attribute} {rs : List Readout} :
    Attribute.readAll (a :: as) (r :: rs) = .ok xs ↔
      ∃ b bs, a.read r = .ok b ∧ Attribute.readAll as rs = .ok bs ∧ b :: bs = xs := by
  simp only [Attribute.readAll, Outcome.bind_eq_ok_iff]
  simp [pure, Except.pure]

theorem settleIdentities_cons_iff {a c : Attribute} {as cs xs : List Attribute} :
    settleIdentities v (a :: as) (c :: cs) = .ok xs ↔
      ∃ b bs, settleIdentity v a c = .ok b ∧ settleIdentities v as cs = .ok bs ∧ b :: bs = xs := by
  simp only [settleIdentities, Outcome.bind_eq_ok_iff]
  simp [pure, Except.pure]

/-- The attribute that a readout makes of the one of a type. -/
def Settles (v : ObjectVariant) (f : AttributeType → AttributeState) (x : AttributeType × Readout)
    (a : Attribute) : Prop :=
  x.2.Answers v x.1 ∧ ∃ s, a = ⟨x.1, s⟩ ∧ x.2.Leaves v x.1 (f x.1) s

/-- All readouts are taken before any attribute is settled. That makes a difference only to which
error is told. -/
theorem settleAll_iff (hf : v.Admits f) {ts : List AttributeType} {rs : List Readout}
    {xs : List Attribute} (hlength : rs.length = ts.length) :
    (∃ as, Attribute.readAll (ts.map fun t => ⟨t, f t⟩) rs = .ok as ∧
        settleIdentities v as (ts.map fun t => ⟨t, f t⟩) = .ok xs) ↔
      List.Forall₂ (Settles v f) (ts.zip rs) xs := by
  induction ts generalizing rs xs with
  | nil =>
    obtain rfl := List.length_eq_zero_iff.mp hlength
    simp [Attribute.readAll, settleIdentities, eq_comm]
  | cons t ts ih =>
    cases rs with
    | nil => cases hlength
    | cons r rs =>
      have hrest : rs.length = ts.length := Nat.succ.inj hlength
      simp only [List.map_cons, List.zip_cons_cons, List.forall₂_cons_left_iff, readAll_cons_iff]
      constructor
      · rintro ⟨-, ⟨b, bs, hb, hbs, rfl⟩, hsettle⟩
        obtain ⟨y, ys, hy, hys, rfl⟩ := settleIdentities_cons_iff.mp hsettle
        exact ⟨y, ys, (settleRead_iff hf).mp ⟨b, hb, hy⟩, (ih hrest).mp ⟨bs, hbs, hys⟩, rfl⟩
      · rintro ⟨y, ys, hy, hys, rfl⟩
        obtain ⟨b, hb, hsettle⟩ := (settleRead_iff hf).mpr hy
        obtain ⟨bs, hbs, hlater⟩ := (ih hrest).mpr hys
        exact ⟨b :: bs, ⟨b, bs, hb, hbs, rfl⟩,
          settleIdentities_cons_iff.mpr ⟨y, ys, hsettle, hlater, rfl⟩⟩

theorem refresh_eq_ok_iff {o p : Object} {rs : List Readout} :
    o.refresh rs = .ok p ↔
      rs.length = o.attributes.length ∧ ∃ as xs, Attribute.readAll o.attributes rs = .ok as ∧
        settleIdentities o.variant as o.attributes = .ok xs ∧ p = { o with attributes := xs } := by
  rw [refresh]
  by_cases hlength : rs.length = o.attributes.length
  · simp only [hlength, ne_eq, not_true_eq_false, if_false, true_and, Outcome.bind_eq_ok_iff]
    simp [pure, Except.pure, eq_comm (b := p)]
  · simp only [ne_eq, hlength, not_false_eq_true, if_true, false_and, iff_false]
    rintro ⟨⟩

theorem refresh_ofStates (hf : v.Admits f) {l : Lifecycle} {rs : List Readout} {p : Object} :
    (ofStates v l f).refresh rs = .ok p ↔
      rs.length = v.declared.length ∧
        ∃ xs, List.Forall₂ (Settles v f) (v.declared.zip rs) xs ∧ p = ⟨v, l, xs⟩ := by
  rw [refresh_eq_ok_iff]
  simp only [ofStates, List.length_map]
  refine and_congr_right fun hlength => ?_
  simp only [← settleAll_iff hf hlength]
  constructor
  · rintro ⟨as, xs, has, hxs, rfl⟩
    exact ⟨xs, ⟨as, has, hxs⟩, rfl⟩
  · rintro ⟨xs, ⟨as, has, hxs⟩, rfl⟩
    exact ⟨as, xs, has, hxs, rfl⟩

theorem Settles.type {x : AttributeType × Readout} {a : Attribute} (h : Settles v f x a) :
    a.type = x.1 := by
  obtain ⟨-, s, rfl, -⟩ := h
  rfl

/-- What a batch leaves holds what its type says, and the code of the variant where it tells it. -/
theorem Settles.sound (hf : v.Admits f) {x : AttributeType × Readout} {a : Attribute}
    (h : Settles v f x a) :
    (a.WellFormed ∧ ∀ c, v.Fixes a.type c → a.state = .value (.ulong c)) ∧ a.state ≠ .absent := by
  obtain ⟨t, r⟩ := x
  obtain ⟨⟨-, hr⟩, s, rfl, hleaves⟩ := h
  cases hid : v.isIdentity t with
  | true =>
    have hs : s = f t := hleaves.fixed hid
    obtain ⟨c, hc⟩ := ObjectVariant.isIdentity_iff.mp hid
    have hcode := hf.identity hc
    subst hs
    refine ⟨⟨hf.wellFormed t, fun d hd => hf.identity hd⟩, ?_⟩
    simp [hcode]
  | false =>
    have hfree : ∀ c, v.Fixes t c → s = .value (.ulong c) := fun c hc => (hc.not_free hid).elim
    rcases hr with hw | ⟨y, hy, -⟩
    · obtain rfl : s = .unavailable := hleaves.withheld hid hw
      exact ⟨⟨trivial, hfree⟩, by simp⟩
    · obtain rfl : s = y := hleaves.revealed hid y hy
      obtain ⟨-, x, -, hx⟩ := hy
      have hsound := WireAttribute.decode_sound hx
      refine ⟨⟨hsound.wellFormed, hfree⟩, ?_⟩
      rintro rfl
      cases hsound.present

/-- Each answer leaves an attribute. -/
theorem exists_settles {x : AttributeType × Readout} (h : x.2.Answers v x.1) :
    ∃ a, Settles v f x a := by
  obtain ⟨t, r⟩ := x
  cases hid : v.isIdentity t with
  | true => exact ⟨⟨t, f t⟩, h, _, rfl, Readout.leaves_of_identity hid⟩
  | false =>
    rcases h.2 with hw | ⟨y, hy, -⟩
    · exact ⟨⟨t, .unavailable⟩, h, _, rfl, Readout.leaves_of_withheld hid hw⟩
    · exact ⟨⟨t, y⟩, h, _, rfl, Readout.leaves_of_revealed hid hy⟩

theorem exists_of_forall₂ {α β : Type} {R : α → β → Prop} {as : List α} {bs : List β} {a : α}
    (h : List.Forall₂ R as bs) (ha : a ∈ as) : ∃ b ∈ bs, R a b := by
  induction h with
  | nil => cases ha
  | cons hr hrest ih =>
    rcases List.mem_cons.mp ha with rfl | ha
    · exact ⟨_, by simp, hr⟩
    · obtain ⟨b, hb, hab⟩ := ih ha
      exact ⟨b, by simp [hb], hab⟩

/-- A batch is taken if each of its readouts is an answer. -/
theorem exists_settled_iff {zs : List (AttributeType × Readout)} :
    (∃ xs, List.Forall₂ (Settles v f) zs xs) ↔ ∀ x ∈ zs, x.2.Answers v x.1 := by
  constructor
  · rintro ⟨xs, hxs⟩ x hx
    obtain ⟨a, -, ha⟩ := exists_of_forall₂ hxs hx
    exact ha.1
  · intro h
    induction zs with
    | nil => exact ⟨[], .nil⟩
    | cons z zs ih =>
      obtain ⟨a, ha⟩ := exists_settles (f := f) (h z (by simp))
      obtain ⟨xs, hxs⟩ := ih fun x hx => h x (by simp [hx])
      exact ⟨a :: xs, .cons ha hxs⟩

/-- A batch leaves an attribute of each type, in order. -/
theorem types_of_settled {ts : List AttributeType} {rs : List Readout} {xs : List Attribute}
    (hlength : rs.length = ts.length) (h : List.Forall₂ (Settles v f) (ts.zip rs) xs) :
    xs.map (·.type) = ts := by
  have htypes : List.Forall₂ (· = ·) ((ts.zip rs).map Prod.fst) (xs.map (·.type)) := by
    rw [List.forall₂_map_left_iff, List.forall₂_map_right_iff]
    exact h.imp fun x a ha => ha.type.symm
  rw [List.forall₂_eq_eq_eq, List.map_fst_zip (by omega)] at htypes
  exact htypes.symm

variable {o p q : Object} {rs : List Readout}

/-- Objects stay well-formed when they are read, and nothing in them is absent any more. -/
theorem WellFormed.refresh (ho : o.WellFormed) (h : o.refresh rs = .ok p) :
    p.WellFormed ∧ p.variant = o.variant ∧ p.state = o.state ∧
      ∀ a ∈ p.attributes, a.state ≠ .absent := by
  rw [ho.eq_ofStates] at h
  obtain ⟨hlength, xs, hxs, rfl⟩ := (refresh_ofStates ho.admits).mp h
  have hsettled : ∀ a ∈ xs, ∃ x, Settles o.variant o.stateOf x a := by
    intro a ha
    obtain ⟨x, -, hx⟩ := exists_of_forall₂ (List.Forall₂.flip (R := flip _) hxs) ha
    exact ⟨x, hx⟩
  refine ⟨wellFormed_of_each (types_of_settled hlength hxs) ?_, rfl, rfl, ?_⟩
  · intro a ha
    obtain ⟨x, hx⟩ := hsettled a ha
    exact (hx.sound ho.admits).1
  · intro a ha
    obtain ⟨x, hx⟩ := hsettled a ha
    exact (hx.sound ho.admits).2

/-- An object is read if there is an answer for each of its types, in order. -/
theorem WellFormed.exists_refresh_iff (ho : o.WellFormed) :
    (∃ p, o.refresh rs = .ok p) ↔
      List.Forall₂ (fun t r => r.Answers o.variant t) o.variant.declared rs := by
  have hok : ∀ p, o.refresh rs = .ok p ↔ rs.length = o.variant.declared.length ∧
      ∃ xs, List.Forall₂ (Settles o.variant o.stateOf) (o.variant.declared.zip rs) xs ∧
        p = ⟨o.variant, o.state, xs⟩ := by
    intro p
    rw [← refresh_ofStates ho.admits, ← ho.eq_ofStates]
  rw [List.forall₂_iff_zip]
  constructor
  · rintro ⟨p, hp⟩
    obtain ⟨hlength, xs, hxs, -⟩ := (hok p).mp hp
    exact ⟨hlength.symm, fun ha => exists_settled_iff.mp ⟨xs, hxs⟩ _ ha⟩
  · rintro ⟨hlength, hanswers⟩
    obtain ⟨xs, hxs⟩ := exists_settled_iff.mpr fun x hx => hanswers hx
    exact ⟨_, (hok _).mpr ⟨hlength.symm, xs, hxs, rfl⟩⟩

/-- Each attribute is left where its readout says. -/
theorem WellFormed.refresh_leaves (ho : o.WellFormed) (h : o.refresh rs = .ok p)
    {t : AttributeType} {r : Readout} (hr : (t, r) ∈ o.variant.declared.zip rs) :
    ∃ before after, o.attribute? t.code = some ⟨t, before⟩ ∧
      p.attribute? t.code = some ⟨t, after⟩ ∧ r.Leaves o.variant t before after := by
  obtain ⟨hp, hvariant, -, -⟩ := ho.refresh h
  have hbefore := ho.attribute?_code (List.of_mem_zip hr).1
  rw [ho.eq_ofStates] at h
  obtain ⟨-, xs, hxs, rfl⟩ := (refresh_ofStates ho.admits).mp h
  obtain ⟨a, ha, -, s, rfl, hleaves⟩ := exists_of_forall₂ hxs hr
  exact ⟨_, s, hbefore, attribute?_of_mem hp.types ha, hleaves⟩

/-- What an object held before makes no difference to what is read. -/
theorem WellFormed.refresh_agree (ho : o.WellFormed) (hq : q.WellFormed)
    (hvariant : q.variant = o.variant) (h : o.refresh rs = .ok p) :
    q.refresh rs = .ok { q with attributes := p.attributes } := by
  rw [ho.eq_ofStates] at h
  obtain ⟨hlength, xs, hxs, rfl⟩ := (refresh_ofStates ho.admits).mp h
  have hadmits : o.variant.Admits q.stateOf := hvariant ▸ hq.admits
  have hsame : ∀ t, o.variant.isIdentity t = true → q.stateOf t = o.stateOf t := by
    intro t ht
    rw [hadmits.eq_freshState ht, ho.admits.eq_freshState ht]
  have hagain : List.Forall₂ (Settles o.variant q.stateOf) (o.variant.declared.zip rs) xs := by
    refine hxs.imp ?_
    rintro ⟨t, r⟩ a ⟨hanswers, s, rfl, hleaves⟩
    refine ⟨hanswers, s, rfl, ⟨?_, hleaves.withheld, hleaves.revealed⟩⟩
    intro ht
    rw [hsame t ht, hleaves.fixed ht]
  have hread := (refresh_ofStates hadmits (l := q.state)).mpr ⟨hlength, xs, hagain, rfl⟩
  rw [← hvariant, ← hq.eq_ofStates] at hread
  exact hread

end Object

end Cryptoki
