import Cryptoki.Proofs.Attribute.Reading
import Cryptoki.Object.Readout

/-! Which errors of reading an object are statuses of the token: those that a readout tells, and no
others. -/
namespace Cryptoki

variable {α β : Type}

/-- The outcome is no failure with a status of the token. -/
def IsLocal (x : Except Error α) : Prop := ∀ s, x ≠ .error (.deviceStatus s)

theorem isLocal_ok (a : α) : IsLocal (.ok a) := by simp [IsLocal]

theorem isLocal_error {e : Error} (h : e.status? = none) : IsLocal (.error e : Except Error α) := by
  rintro s ⟨⟩
  cases h

theorem IsLocal.map {x : Except Error α} (h : IsLocal x) (f : α → β) : IsLocal (x.map f) := by
  cases x with
  | ok a => exact isLocal_ok (f a)
  | error e => simpa [IsLocal, Except.map] using h

theorem IsLocal.bind {x : Except Error α} {f : α → Except Error β} (hx : IsLocal x)
    (hf : ∀ a, IsLocal (f a)) : IsLocal (x >>= f) := by
  intro s h
  rcases Outcome.bind_eq_error_iff.mp h with hfirst | ⟨a, -, hrest⟩
  · exact hx s hfirst
  · exact hf a s hrest

theorem isLocal_decodeDate (code : Word) (bs : Bytes) : IsLocal (decodeDate code bs) := by
  unfold decodeDate
  split
  · split
    · next year month day _ _ _ =>
      rw [Date.make]
      cases Date.ofCalendar year month day with
      | ok d => exact isLocal_ok d
      | error c => exact isLocal_error rfl
    · exact isLocal_error rfl
  · exact isLocal_error rfl

theorem isLocal_decodeBytes (t : AttributeType) (bs : Bytes) : IsLocal (decodeBytes t bs) := by
  unfold decodeBytes
  split
  · exact isLocal_ok _
  cases t.kind with
  | bool =>
    dsimp only
    split
    · exact isLocal_ok _
    · exact isLocal_error rfl
  | ulong =>
    dsimp only
    split
    · exact isLocal_ok _
    · exact isLocal_error rfl
  | bytes => exact isLocal_ok _
  | date => exact (isLocal_decodeDate t.code bs).map _
  | mechanismArray =>
    dsimp only
    split
    · exact isLocal_ok _
    · exact isLocal_error rfl
  | attributeArray => exact isLocal_error rfl

theorem isLocal_decodeList {es : List WireAttribute} (h : ∀ e ∈ es, IsLocal e.decode) :
    IsLocal (WireAttribute.decodeList es) := by
  induction es with
  | nil => exact isLocal_ok _
  | cons e es ih =>
    refine (h e (by simp)).bind fun a => ?_
    exact (ih fun f hf => h f (by simp [hf])).bind fun rest => isLocal_ok _

theorem isLocal_decode_of_entries (t : AttributeType) {v : WireValue}
    (h : ∀ es, v = .nested es → ∀ e ∈ es, IsLocal e.decode) : IsLocal (v.decode t) := by
  cases v with
  | bytes bs => exact isLocal_decodeBytes t bs
  | nested es =>
    rw [WireValue.decode]
    split
    · exact (isLocal_decodeList (h es rfl)).map _
    · exact isLocal_error rfl

theorem WireAttribute.isLocal_decode (w : WireAttribute) : IsLocal w.decode := by
  induction w using WireAttribute.nested_induction with
  | h code v ih =>
    rw [WireAttribute.decode]
    split
    · exact (isLocal_decode_of_entries _ ih).map _
    · exact isLocal_error rfl

theorem Attribute.isLocal_load (a : Attribute) (v : WireValue) : IsLocal (a.load v) :=
  (isLocal_decode_of_entries a.type fun _ _ e _ => e.isLocal_decode).map _

/-- The readout fails the read of its attribute, with its status. -/
def Readout.Tells (r : Readout) (s : Status) : Prop :=
  r.status = s ∧ s ≠ Status.ok ∧ s ≠ Status.attributeTypeInvalid ∧ s ≠ Status.attributeSensitive

theorem Readout.tells_status {r : Readout} (hsoft : Status.isSoft r.status = false)
    (hok : r.status ≠ Status.ok) : r.Tells r.status := by
  simp only [Status.isSoft, Bool.or_eq_false_iff, decide_eq_false_iff_not] at hsoft
  exact ⟨rfl, hok, hsoft⟩

theorem Attribute.tells_of_read {a : Attribute} {r : Readout} {s : Status}
    (h : a.read r = .error (.deviceStatus s)) : r.Tells s := by
  unfold Attribute.read at h
  split at h
  · cases h
  cases hsoft : Status.isSoft r.status with
  | true => simp [hsoft] at h
  | false =>
    simp only [hsoft, Bool.false_eq_true, if_false] at h
    split at h
    · split at h
      · split at h <;> cases h
      · exact absurd h (a.isLocal_load _ s)
      · exact absurd h (a.isLocal_load _ s)
    · next hok =>
      cases h
      exact r.tells_status hsoft hok

theorem Attribute.tells_of_readAll {as : List Attribute} {rs : List Readout} {s : Status}
    (h : readAll as rs = .error (.deviceStatus s)) : ∃ r ∈ rs, r.Tells s := by
  induction as generalizing rs with
  | nil => cases rs <;> simp [readAll] at h
  | cons a as ih =>
    cases rs with
    | nil => simp [readAll] at h
    | cons r rs =>
      rw [readAll] at h
      rcases Outcome.bind_eq_error_iff.mp h with hfirst | ⟨b, -, hrest⟩
      · exact ⟨r, by simp, tells_of_read hfirst⟩
      rcases Outcome.bind_eq_error_iff.mp hrest with hlater | ⟨bs, -, hdone⟩
      · obtain ⟨q, hq, htells⟩ := ih hlater
        exact ⟨q, by simp [hq], htells⟩
      · cases hdone

namespace Object

theorem isLocal_settleIdentity (v : ObjectVariant) (fresh current : Attribute) :
    IsLocal (settleIdentity v fresh current) := by
  unfold settleIdentity
  split
  · split
    · exact isLocal_ok _
    · split
      · exact isLocal_ok _
      · exact isLocal_error rfl
  · exact isLocal_ok _

theorem isLocal_settleIdentities (v : ObjectVariant) (fs cs : List Attribute) :
    IsLocal (settleIdentities v fs cs) := by
  induction fs generalizing cs with
  | nil => exact isLocal_ok _
  | cons f fs ih =>
    cases cs with
    | nil => exact isLocal_ok _
    | cons c cs =>
      refine (isLocal_settleIdentity v f c).bind fun a => ?_
      exact (ih cs).bind fun rest => isLocal_ok _

theorem tells_of_refresh {o : Object} {rs : List Readout} {s : Status}
    (h : o.refresh rs = .error (.deviceStatus s)) : ∃ r ∈ rs, r.Tells s := by
  rw [refresh] at h
  split at h
  · cases h
  rcases Outcome.bind_eq_error_iff.mp h with hread | ⟨fresh, -, hrest⟩
  · exact Attribute.tells_of_readAll hread
  rcases Outcome.bind_eq_error_iff.mp hrest with hsettled | ⟨settled, -, hdone⟩
  · exact absurd hsettled (isLocal_settleIdentities _ _ _ s)
  · cases hdone

theorem tells_of_codeOf {rs : List Readout} {t : AttributeType} {s : Status}
    (h : codeOf rs t = .error (.deviceStatus s)) : ∃ r ∈ rs, r.Tells s := by
  unfold codeOf at h
  split at h
  · cases h
  · next r hfound =>
    have hr := List.mem_of_find?_eq_some hfound
    split at h
    · split at h
      · exact absurd h (((Attribute.absent t).isLocal_load _).map _ s)
      · cases h
    · next hok =>
      cases hsoft : Status.isSoft r.status with
      | true => simp [hsoft] at h
      | false =>
        simp only [hsoft, Bool.false_eq_true, if_false] at h
        cases h
        exact ⟨r, hr, r.tells_status hsoft hok⟩

theorem isLocal_ofCodes (objectClass : Word) (subtype : Option Word) :
    IsLocal (ObjectVariant.ofCodes objectClass subtype) := by
  rw [ObjectVariant.ofCodes]
  split
  · exact isLocal_ok _
  · exact isLocal_error rfl

theorem tells_of_identify {rs : List Readout} {s : Status}
    (h : identify rs = .error (.deviceStatus s)) : ∃ r ∈ rs, r.Tells s := by
  rw [identify] at h
  rcases Outcome.bind_eq_error_iff.mp h with hclass | ⟨objectClass, -, hrest⟩
  · exact tells_of_codeOf hclass
  cases objectClass with
  | none => cases hrest
  | some objectClass =>
    dsimp only at hrest
    split at hrest
    · rcases Outcome.bind_eq_error_iff.mp hrest with hsubtype | ⟨subtype, -, hcodes⟩
      · exact tells_of_codeOf hsubtype
      · exact absurd hcodes (isLocal_ofCodes _ _ s)
    · exact absurd hrest (isLocal_ofCodes _ _ s)

end Object

end Cryptoki
