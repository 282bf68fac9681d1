import Cryptoki.Proofs.Attribute.RoundTrip

/-! The native forms that are read, and the one among them that is written. -/
namespace Cryptoki

/-- The bytes that are read for a kind of value. -/
def AttributeKind.Accepts : AttributeKind → Bytes → Prop
  | .bool, bs => bs.length = 0 ∨ bs.length = 1
  | .ulong, bs => bs.length = 0 ∨ bs.length = 8
  | .bytes, _ => True
  | .date, bs => bs = [] ∨ IsDateText bs
  | .mechanismArray, bs => bs.length % 8 = 0
  | .attributeArray, bs => bs = []

/-- The native forms of known types whose bytes are of their kind; arrays may have templates, whose
entries are again such forms. -/
inductive WireAttribute.Accepted : WireAttribute → Prop where
  | raw {code : Word} {t : AttributeType} {bs : Bytes} (ht : AttributeType.ofCode? code = some t)
    (h : t.kind.Accepts bs) : Accepted ⟨code, .bytes bs⟩
  | nested {code : Word} {t : AttributeType} {es : List WireAttribute}
    (ht : AttributeType.ofCode? code = some t) (hk : t.kind = .attributeArray)
    (h : ∀ e ∈ es, Accepted e) : Accepted ⟨code, .nested es⟩

/-- Truth is written as one, and an array as a template. -/
def AttributeKind.canonBytes : AttributeKind → Bytes → WireValue
  | .bool, bs => .bytes (bs.map fun b => if b = 0 then 0 else 1)
  | .attributeArray, bs => if bs = [] then .nested [] else .bytes bs
  | .ulong, bs | .bytes, bs | .date, bs | .mechanismArray, bs => .bytes bs

mutual

def WireValue.canon (kind : AttributeKind) : WireValue → WireValue
  | .bytes bs => kind.canonBytes bs
  | .nested es => .nested (WireAttribute.canonList es)

/-- The form that says the same as a form that is read, with nothing left to choose. -/
def WireAttribute.canon : WireAttribute → WireAttribute
  | ⟨code, v⟩ =>
    match AttributeType.ofCode? code with
    | some t => ⟨code, v.canon t.kind⟩
    | none => ⟨code, v⟩

def WireAttribute.canonList : List WireAttribute → List WireAttribute
  | [] => []
  | e :: es => e.canon :: WireAttribute.canonList es

end

theorem WireAttribute.canonList_eq (es : List WireAttribute) : canonList es = es.map canon := by
  induction es with
  | nil => simp [canonList]
  | cons e es ih => simp [canonList, ih]

theorem WireAttribute.type_canon (w : WireAttribute) : w.canon.type = w.type := by
  obtain ⟨code, v⟩ := w
  rw [canon]
  split <;> rfl

theorem AttributeKind.length_canonBytes (kind : AttributeKind) (bs : Bytes) :
    (kind.canonBytes bs).length = bs.length := by
  cases kind with
  | bool => simp [canonBytes, WireValue.length]
  | attributeArray =>
    rw [canonBytes]
    split
    · next hnil =>
      rw [hnil]
      rfl
    · rfl
  | _ => rfl

theorem WireAttribute.length_canon (w : WireAttribute) : w.canon.value.length = w.value.length := by
  obtain ⟨code, v⟩ := w
  rw [canon]
  split
  · cases v with
    | bytes bs => exact AttributeKind.length_canonBytes _ bs
    | nested es => simp [WireValue.canon, WireValue.length, canonList_eq]
  · rfl

theorem AttributeKind.canon_canonBytes (kind : AttributeKind) (bs : Bytes) :
    (kind.canonBytes bs).canon kind = kind.canonBytes bs := by
  cases kind with
  | bool => simp [canonBytes, WireValue.canon, Function.comp_def]
  | attributeArray =>
    by_cases hnil : bs = []
    · rw [hnil]
      rfl
    · simp [canonBytes, WireValue.canon, hnil]
  | _ => rfl

theorem WireAttribute.canon_canon (w : WireAttribute) : w.canon.canon = w.canon := by
  induction w using WireAttribute.nested_induction with
  | h code v ih =>
    cases ht : AttributeType.ofCode? code with
    | none => simp [canon, ht]
    | some t =>
      cases v with
      | bytes bs => simp [canon, ht, WireValue.canon, AttributeKind.canon_canonBytes]
      | nested es =>
        have hsame : es.map (canon ∘ canon) = es.map canon := by
          apply List.map_congr_left
          intro e he
          exact ih es rfl e he
        simp [canon, ht, WireValue.canon, canonList_eq, hsame]

theorem AttributeKind.accepts_nil (kind : AttributeKind) : kind.Accepts [] := by
  cases kind <;> simp [Accepts]

theorem reads_of_accepts {t : AttributeType} {bs : Bytes} (hne : bs ≠ [])
    (h : t.kind.Accepts bs) : ∃ v, Reads t bs v := by
  have hpos := List.length_pos_iff.mpr hne
  cases hk : t.kind <;> rw [hk] at h
  case bool =>
    have hone : bs.length = 1 := by
      rcases h with h | h <;> omega
    obtain ⟨b, hb⟩ := List.length_eq_one_iff.mp hone
    exact ⟨_, .bool hk hb⟩
  case ulong =>
    have height : bs.length = 8 := by
      rcases h with h | h <;> omega
    exact ⟨_, .ulong hk (if_pos height)⟩
  case bytes => exact ⟨_, .bytes hk⟩
  case date =>
    rcases h with h | h
    · exact absurd h hne
    · obtain ⟨d, hd⟩ := decodeDate_isOk_iff.mpr h
      exact ⟨_, .date hk hd⟩
  case mechanismArray => exact ⟨_, .mechanisms hk h⟩
  case attributeArray => exact absurd h hne

theorem decodeBytes_isOk_iff {t : AttributeType} {bs : Bytes} :
    (∃ s, decodeBytes t bs = .ok s) ↔ t.kind.Accepts bs := by
  constructor
  · rintro ⟨s, h⟩
    obtain ⟨rfl, -⟩ | ⟨-, v, -, hread⟩ := decodeBytes_cases h
    · exact t.kind.accepts_nil
    · cases hread with
      | bool hk h => simp [AttributeKind.Accepts, hk, h]
      | @ulong w hk h =>
        have hlength := Word.length_toBytes w
        rw [Word.toBytes_of_ofBytes? h] at hlength
        simp [AttributeKind.Accepts, hk, hlength]
      | bytes hk => simp [AttributeKind.Accepts, hk]
      | date hk h =>
        rw [hk]
        exact .inr (decodeDate_isOk_iff.mp ⟨_, h⟩)
      | mechanisms hk h => simp [AttributeKind.Accepts, hk, h]
  · intro h
    by_cases hnil : bs = []
    · exact ⟨_, by rw [hnil, decodeBytes_nil]⟩
    obtain ⟨v, hv⟩ := reads_of_accepts hnil h
    exact ⟨_, decodeBytes_of_reads hnil hv⟩

theorem decodeList_isOk_iff {es : List WireAttribute} :
    (∃ as, WireAttribute.decodeList es = .ok as) ↔ ∀ e ∈ es, ∃ a, e.decode = .ok a := by
  induction es with
  | nil => simp [WireAttribute.decodeList]
  | cons e es ih =>
    rw [List.forall_mem_cons, ← ih]
    constructor
    · rintro ⟨as, h⟩
      obtain ⟨a, rest, ha, hrest, -⟩ := decodeList_cons_iff.mp h
      exact ⟨⟨a, ha⟩, rest, hrest⟩
    · rintro ⟨⟨a, ha⟩, rest, hrest⟩
      exact ⟨a :: rest, decodeList_cons_iff.mpr ⟨a, rest, ha, hrest, rfl⟩⟩

/-- A form is read exactly where it is of the grammar. -/
theorem WireAttribute.decode_isOk_iff (w : WireAttribute) :
    (∃ a, w.decode = .ok a) ↔ w.Accepted := by
  induction w using WireAttribute.nested_induction with
  | h code v ih =>
    constructor
    · rintro ⟨a, h⟩
      obtain ⟨t, s, ht, hs, rfl⟩ := WireAttribute.decode_cases h
      obtain ⟨bs, rfl, hbytes⟩ | ⟨es, as, rfl, hk, has, rfl⟩ := WireValue.decode_cases hs
      · exact .raw ht (decodeBytes_isOk_iff.mp ⟨s, hbytes⟩)
      · refine .nested ht hk fun e he => ?_
        exact (ih es rfl e he).mp (decodeList_isOk_iff.mp ⟨as, has⟩ e he)
    · intro h
      rw [WireAttribute.decode]
      cases h with
      | raw ht hbytes =>
        obtain ⟨s, hs⟩ := decodeBytes_isOk_iff.mpr hbytes
        simp [ht, WireValue.decode, hs, Except.map]
      | nested ht hk hes =>
        obtain ⟨as, has⟩ := decodeList_isOk_iff.mpr fun e he => (ih _ rfl e he).mpr (hes e he)
        simp [ht, WireValue.decode, hk, has, Except.map]

theorem encode_of_decodeBytes {t : AttributeType} {bs : Bytes} {s : AttributeState}
    (h : decodeBytes t bs = .ok s) : s.encode t.code = .ok (some (t.kind.canonBytes bs)) := by
  obtain ⟨rfl, rfl⟩ | ⟨-, v, rfl, hread⟩ := decodeBytes_cases h
  · cases t.kind <;> rfl
  · cases hread with
    | @bool b hk hb =>
      rw [hk, hb]
      by_cases hzero : b = 0
      · rw [hzero]
        rfl
      · simp [AttributeState.encode, AttributeValue.encode, AttributeKind.canonBytes, Except.map,
          hzero]
    | ulong hk hb =>
      rw [hk, ← Word.toBytes_of_ofBytes? hb]
      rfl
    | bytes hk =>
      rw [hk]
      rfl
    | date hk hb =>
      have htext : encodeDate t.code _ = .ok bs := encodeDate_of_decodeDate hb
      simp [AttributeState.encode, AttributeValue.encode, htext, hk, AttributeKind.canonBytes,
        Except.map]
    | mechanisms hk hb =>
      simp [AttributeState.encode, AttributeValue.encode, encodeWords_decodeWords hb, hk,
        AttributeKind.canonBytes, Except.map]

/-- What is read is written in the one form that says the same. -/
theorem WireAttribute.toWire_of_decode {w : WireAttribute} {a : Attribute} (h : w.decode = .ok a) :
    a.toWire = .ok (some w.canon) := by
  induction w using WireAttribute.nested_induction generalizing a with
  | h code v ih =>
    obtain ⟨t, s, ht, hs, rfl⟩ := WireAttribute.decode_cases h
    dsimp only at ht hs
    obtain rfl := AttributeType.code_of_ofCode? ht
    obtain ⟨bs, rfl, hbytes⟩ | ⟨es, as, rfl, hk, has, rfl⟩ := WireValue.decode_cases hs
    · have hencode := encode_of_decodeBytes hbytes
      simp [Attribute.toWire, hencode, canon, ht, WireValue.canon, Except.map]
    · have hlist : ∀ es as, (∀ e ∈ es, ∀ {a}, e.decode = .ok a → a.toWire = .ok (some e.canon)) →
          decodeList es = .ok as → Attribute.toTemplate as = .ok (canonList es) := by
        intro es as hes has
        induction es generalizing as with
        | nil =>
          rw [decodeList] at has
          obtain rfl := Except.ok.inj has
          rfl
        | cons e es ihes =>
          obtain ⟨a, rest, ha, hrest, rfl⟩ := decodeList_cons_iff.mp has
          have hlater := ihes rest (fun f hf => hes f (by simp [hf])) hrest
          exact toTemplate_cons_iff.mpr ⟨_, _, hes e (by simp) ha, hlater, rfl⟩
      have htemplate := hlist es as (ih es rfl) has
      simp [Attribute.toWire, AttributeState.encode, AttributeValue.encode, htemplate, canon, ht,
        WireValue.canon, Except.map]

/-- What is removed would not be written. -/
theorem Attribute.toWire_pruned (a : Attribute) : a.pruned.toWire = a.toWire := by
  induction a using Attribute.nested_induction with
  | node t s ih =>
    cases s with
    | value v =>
      cases v with
      | attributes entries =>
        have hlist : ∀ as, (∀ a ∈ as, a.pruned.toWire = a.toWire) →
            toTemplate (prunedList as) = toTemplate as := by
          intro as has
          induction as with
          | nil => rfl
          | cons a as iha =>
            have hlater := iha fun b hb => has b (by simp [hb])
            by_cases hpresent : a.isPresent = true
            · rw [prunedList, if_pos hpresent, toTemplate, toTemplate, has a (by simp), hlater]
            · have hnone := toWire_of_not_present (Bool.eq_false_iff.mpr hpresent)
              rw [prunedList, if_neg hpresent, hlater, toTemplate, hnone]
              cases toTemplate as <;> rfl
        simp [pruned, AttributeState.pruned, AttributeValue.pruned, Attribute.toWire,
          AttributeState.encode, AttributeValue.encode, hlist entries (ih entries rfl)]
      | _ => rfl
    | _ => rfl

/-- The native forms that are read are those of the grammar, and writing what was read makes them
canonical: the same in type and length, with the same meaning, and as they are if they were written
in the first place. -/
theorem WireAttribute.decode_canonical (w : WireAttribute) :
    ((∃ a, w.decode = .ok a) ↔ w.Accepted) ∧
    (∀ a, w.decode = .ok a → a.toWire = .ok (some w.canon) ∧ w.canon.decode = .ok a) ∧
    w.canon.type = w.type ∧ w.canon.value.length = w.value.length ∧ w.canon.canon = w.canon ∧
    ∀ a : Attribute, a.Obtainable → a.toWire = .ok (some w) → w.canon = w := by
  refine ⟨w.decode_isOk_iff, fun a h => ⟨toWire_of_decode h, ?_⟩, w.type_canon, w.length_canon,
    w.canon_canon, fun a ha h => ?_⟩
  · have hsound := decode_sound h
    rw [Attribute.decode_toWire hsound.wellFormed (toWire_of_decode h),
      Attribute.pruned_of_complete hsound.complete]
  · -- Reading loses only what was not written, so that writing again makes the same form.
    have hagain := toWire_of_decode (Attribute.decode_toWire ha.wellFormed h)
    rw [Attribute.toWire_pruned, h] at hagain
    exact (Option.some.inj (Except.ok.inj hagain)).symm

/-- Two choices are left in a form that is read: which byte stands for truth, and how an array is
empty. -/
example : WireAttribute.canon ⟨AttributeType.wrapTemplate.code, .nested
      [⟨AttributeType.token.code, .bytes [5]⟩, ⟨AttributeType.unwrapTemplate.code, .bytes []⟩]⟩ =
    ⟨AttributeType.wrapTemplate.code, .nested [⟨AttributeType.token.code, .bytes [1]⟩,
      ⟨AttributeType.unwrapTemplate.code, .nested []⟩]⟩ := by
  decide

end Cryptoki
