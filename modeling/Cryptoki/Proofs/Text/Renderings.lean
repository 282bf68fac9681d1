import Mathlib.Data.List.Nodup
import Cryptoki.Mechanism.Table
import Cryptoki.Proofs.Attribute.Scalars
import Cryptoki.Proofs.Status.Names
import Cryptoki.Proofs.Text.Preview
import Cryptoki.Snapshot.Counter
import Cryptoki.Snapshot.SessionInfo
import Cryptoki.Text.Utf8

/-! Codes and counters are told apart by their texts. The letter x stands in the text of every
number of base 16 and in no name. -/
namespace Cryptoki

variable {entries : List (Word × String)} {text other : Word → String}

/-- The bytes of a text. -/
def octets (s : String) : Bytes := s.toByteArray.data.toList

theorem octets_eq (s : String) : octets s = Utf8.encode s.toList := by
  obtain ⟨cs, rfl⟩ : ∃ cs, s = String.ofList cs := ⟨s.toList, String.ofList_toList.symm⟩
  rw [octets, String.toByteArray_ofList, String.toList_ofList, List.utf8Encode,
    List.toList_data_toByteArray]
  rfl

theorem x_mem_octets {s : String} (h : 'x' ∈ s.toList) : 0x78 ∈ octets s := by
  rw [octets_eq]
  exact List.mem_flatMap.mpr ⟨'x', h, by decide⟩

/-- Names that differ from each other and from the texts of numbers. Their bytes are compared as
one number each. -/
structure AreNames (entries : List (Word × String)) : Prop where
  nodup : (entries.map fun e => ofLittleEndian (octets e.2)).Nodup
  plain : ∀ e ∈ entries, 0x78 ∉ octets e.2

/-- Every code has its name as its text, or a text of another form. -/
theorem AreNames.injective (hn : AreNames entries) (hother : Function.Injective other)
    (hmarked : ∀ w, 'x' ∈ (other w).toList)
    (htext : ∀ w, (w, text w) ∈ entries ∨ text w = other w) : Function.Injective text := by
  intro a b h
  rcases htext a with ha | ha <;> rcases htext b with hb | hb
  · rw [h] at ha
    exact congrArg Prod.fst (List.inj_on_of_nodup_map hn.nodup ha hb rfl)
  · have hx := x_mem_octets (hmarked b)
    rw [← hb, ← h] at hx
    exact absurd hx (hn.plain _ ha)
  · have hx := x_mem_octets (hmarked a)
    rw [← ha, h] at hx
    exact absurd hx (hn.plain _ hb)
  · exact hother (by rw [← ha, h, hb])

theorem HexNumeral.unique {cs : List Char} {m n : Nat} (hm : HexNumeral cs m)
    (hn : HexNumeral cs n) : m = n := by
  rw [← StatusTable.hexNumber?_eq_some_iff] at hm hn
  exact Option.some.inj (hm.symm.trans hn)

theorem hexOfStatus_injective : Function.Injective hexOfStatus := by
  intro a b h
  obtain ⟨digits, ha, hdigits⟩ := exists_hexOfStatus a
  obtain ⟨digits', hb, hdigits'⟩ := exists_hexOfStatus b
  rw [ha, hb, String.append_right_inj] at h
  obtain rfl := String.ofList_injective h
  exact UInt64.toNat_inj.mp (hdigits.value.unique hdigits'.value)

theorem hexOfWord_injective : Function.Injective hexOfWord := by
  intro a b h
  rw [hexOfWord, hexOfWord, String.append_right_inj] at h
  have hdigits : Nat.toDigits 16 a.toNat = Nat.toDigits 16 b.toNat := String.ofList_injective h
  have hvalue := hexNumeral_toDigits a.toNat
  rw [hdigits] at hvalue
  exact UInt64.toNat_inj.mp (hvalue.unique (hexNumeral_toDigits b.toNat))

theorem x_mem_hexOfWord (w : Word) : 'x' ∈ (hexOfWord w).toList := by
  simp [hexOfWord]

theorem plus_not_mem_hexOfWord (w : Word) : '+' ∉ (hexOfWord w).toList := by
  intro h
  have hplus : '+' ∈ Nat.toDigits 16 w.toNat := by simpa [hexOfWord] using h
  have hdigit := (hexNumeral_toDigits w.toNat).isDigit (List.mem_map_of_mem hplus)
  exact hdigit (by decide)

/-- Words that are the same inside a mask and outside it are the same. -/
theorem eq_of_bits {a b bits : Word} (h : a &&& bits = b &&& bits)
    (hrest : a &&& ~~~bits = b &&& ~~~bits) : a = b := by
  have hwhole : ∀ w : Word, w &&& bits ||| w &&& ~~~bits = w := by
    intro w
    rw [← UInt64.toBitVec_inj]
    simp only [UInt64.toBitVec_or, UInt64.toBitVec_and, UInt64.toBitVec_not]
    rw [← BitVec.and_or_distrib_left, BitVec.or_not_self, BitVec.and_allOnes]
  rw [← hwhole a, h, hrest, hwhole]

theorem unnamedCode_injective (group : String) : Function.Injective (unnamedCode group) := by
  intro a b h
  have hplus : ∀ v, '+' ∈ (group ++ "_VENDOR_DEFINED+" ++ hexOfWord v).toList := by
    intro v
    simp
  unfold unnamedCode at h
  -- A plus sign stands in the form of a vendor's code and in no number.
  split at h <;> split at h
  · next ha hb =>
    exact eq_of_bits (ha.trans hb.symm) (hexOfWord_injective (String.append_right_inj _ |>.mp h))
  · exact absurd (h ▸ hplus _) (plus_not_mem_hexOfWord b)
  · exact absurd (h ▸ hplus _) (plus_not_mem_hexOfWord a)
  · exact hexOfWord_injective h

theorem x_mem_unnamedCode (group : String) (w : Word) : 'x' ∈ (unnamedCode group w).toList := by
  unfold unnamedCode
  split
  · rw [String.toList_append]
    exact List.mem_append_right _ (x_mem_hexOfWord _)
  · exact x_mem_hexOfWord w

/-- The names of the attribute types, under their codes. -/
def attributeNames : List (Word × String) := AttributeType.all.map fun t => (t.code, t.name)

theorem areNames_attributes : AreNames attributeNames := ⟨by decide +kernel, by decide +kernel⟩

theorem attributeName_injective : Function.Injective attributeName := by
  refine areNames_attributes.injective (unnamedCode_injective "CKA") (x_mem_unnamedCode "CKA") ?_
  intro w
  unfold attributeName
  split
  · next t ht =>
    obtain rfl := AttributeType.code_of_ofCode? ht
    exact .inl (List.mem_map_of_mem (List.mem_of_find?_eq_some ht))
  · exact .inr rfl

def mechanismNames : List (Word × String) := mechanisms.map fun e => (e.1, e.2.1)

theorem areNames_mechanisms : AreNames mechanismNames := ⟨by decide +kernel, by decide +kernel⟩

theorem mem_of_lookup {α : Type} {l : List (Word × α)} {w : Word} {v : α}
    (h : l.lookup w = some v) : (w, v) ∈ l := by
  obtain ⟨front, back, rfl, -⟩ := List.lookup_eq_some_iff.mp h
  simp

theorem mechanismName_injective : Function.Injective mechanismName := by
  refine areNames_mechanisms.injective (unnamedCode_injective "CKM") (x_mem_unnamedCode "CKM") ?_
  intro w
  unfold mechanismName
  split
  · next name expectation h => exact .inl (List.mem_map.mpr ⟨_, mem_of_lookup h, rfl⟩)
  · exact .inr rfl

theorem areNames_statuses : AreNames StatusTable.standard.entries :=
  ⟨by decide +kernel, by decide +kernel⟩

theorem x_mem_hexOfStatus (s : Status) : 'x' ∈ (hexOfStatus s).toList := by
  simp [hexOfStatus]

theorem statusText_injective : Function.Injective Status.text := by
  refine areNames_statuses.injective hexOfStatus_injective x_mem_hexOfStatus ?_
  intro s
  unfold Status.text StatusTable.render
  split
  · next name h => exact .inl (mem_of_lookup h)
  · exact .inr rfl

def standardStates : List Word := [0, 1, 2, 3, 4]

def stateNames : List (Word × String) :=
  standardStates.map fun w => (w, (SessionState.ofCode w).text)

theorem areNames_states : AreNames stateNames := ⟨by decide +kernel, by decide +kernel⟩

theorem ofCode_of_not_mem {w : Word} (h : w ∉ standardStates) :
    SessionState.ofCode w = .unknown w := by
  simp only [standardStates, List.mem_cons, List.not_mem_nil, or_false, not_or] at h
  obtain ⟨h0, h1, h2, h3, h4⟩ := h
  rw [SessionState.ofCode, if_neg h0, if_neg h1, if_neg h2, if_neg h3, if_neg h4]

theorem stateText_injective : Function.Injective fun w => (SessionState.ofCode w).text := by
  have hother : Function.Injective fun w => "unknown session state " ++ hexOfWord w :=
    fun _ _ h => hexOfWord_injective (String.append_right_inj _ |>.mp h)
  refine areNames_states.injective hother ?_ ?_
  · intro w
    rw [String.toList_append]
    exact List.mem_append_right _ (x_mem_hexOfWord w)
  · intro w
    by_cases h : w ∈ standardStates
    · exact .inl (List.mem_map_of_mem h)
    · exact .inr (congrArg SessionState.text (ofCode_of_not_mem h))

/-- The letter e is no digit, and both words have it. -/
theorem e_not_mem_decimal (n : Nat) : 'e' ∉ (decimal n).toList := by
  intro h
  rw [decimal, String.toList_ofList] at h
  exact absurd (Nat.isDigit_of_mem_toDigits (by decide) (by decide) h) (by decide)

theorem counterText_injective : Function.Injective Counter.text := by
  have hword : ∀ n, decimal n ≠ "unavailable" ∧ decimal n ≠ "effectively infinite" := fun n =>
    ⟨fun h => e_not_mem_decimal n (h ▸ by decide), fun h => e_not_mem_decimal n (h ▸ by decide)⟩
  intro a b h
  cases a with
  | unavailable =>
    cases b with
    | unavailable => rfl
    | effectivelyInfinite => exact absurd h (by decide)
    | finite n => exact absurd h.symm (hword n.toNat).1
  | effectivelyInfinite =>
    cases b with
    | unavailable => exact absurd h (by decide)
    | effectivelyInfinite => rfl
    | finite n => exact absurd h.symm (hword n.toNat).2
  | finite m =>
    cases b with
    | unavailable => exact absurd h (hword m.toNat).1
    | effectivelyInfinite => exact absurd h (hword m.toNat).2
    | finite n => rw [UInt64.toNat_inj.mp (decimal_injective h)]

/-- Two codes never have the same text, be it a name, a number or a word for one, and two counters
never do either. -/
theorem renderings_injective :
    Function.Injective attributeName ∧ Function.Injective mechanismName ∧
      Function.Injective Status.text ∧
      Function.Injective (fun w => (SessionState.ofCode w).text) ∧
      Function.Injective (fun w => (Counter.ofLimit w).text) ∧
      Function.Injective fun w => (Counter.ofCount w).text :=
  ⟨attributeName_injective, mechanismName_injective, statusText_injective, stateText_injective,
    fun _ _ h => Counter.ofLimit_injective (counterText_injective h),
    fun _ _ h => Counter.ofCount_injective (counterText_injective h)⟩

end Cryptoki
