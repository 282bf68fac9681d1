import Cryptoki.Date

/-! Numbers in ASCII digits: what is written is read back, and what is read was so written. -/
namespace Cryptoki

/-- The ASCII byte of a digit. -/
def digitByte (d : Nat) : UInt8 := UInt8.ofNat (48 + d)

theorem digitValue?_eq_some_iff {b : UInt8} {d : Nat} :
    digitValue? b = some d ↔ d < 10 ∧ b = digitByte d := by
  have hb := b.toNat_lt
  unfold digitValue? digitByte
  constructor
  · intro h
    split at h
    · obtain rfl := Option.some.inj h
      refine ⟨by omega, ?_⟩
      apply UInt8.toNat_inj.mp
      simp only [UInt8.toNat_ofNat']
      omega
    · cases h
  · rintro ⟨hd, rfl⟩
    have hvalue : (UInt8.ofNat (48 + d)).toNat = 48 + d := by
      simp only [UInt8.toNat_ofNat']
      omega
    rw [hvalue, if_pos (by omega)]
    simp

theorem digitsValue?_concat (bs : Bytes) (b : UInt8) :
    digitsValue? (bs ++ [b]) =
      (digitsValue? bs).bind fun n => (digitValue? b).map (10 * n + ·) := by
  simp [digitsValue?]

/-- Zeros in front add nothing. -/
theorem digitsValue?_zeros (k : Nat) (bs : Bytes) :
    digitsValue? (List.replicate k 48 ++ bs) = digitsValue? bs := by
  induction k with
  | zero => rfl
  | succ k ih =>
    rw [List.replicate_succ, List.cons_append]
    exact ih

theorem digitByte_digitChar {d : Nat} (h : d < 10) :
    UInt8.ofNat (Nat.digitChar d).toNat = digitByte d := by
  rw [Nat.toNat_digitChar_of_lt_ten h, digitByte]

theorem digitsValue?_toDigits (n : Nat) :
    digitsValue? ((Nat.toDigits 10 n).map fun c => UInt8.ofNat c.toNat) = some n := by
  induction n using Nat.strongRecOn with
  | ind n ih =>
    have hlast : ∀ d, d < 10 → digitValue? (digitByte d) = some d := by
      intro d hd
      exact digitValue?_eq_some_iff.mpr ⟨hd, rfl⟩
    by_cases hn : n < 10
    · rw [Nat.toDigits_of_lt_base hn, List.map_singleton, digitByte_digitChar hn]
      simp [digitsValue?, hlast n hn]
    · have hd : n % 10 < 10 := Nat.mod_lt n (by decide)
      rw [Nat.toDigits_of_base_le (by decide) (by omega), List.map_append, List.map_singleton,
        digitByte_digitChar hd, digitsValue?_concat, ih (n / 10) (by omega), hlast _ hd]
      simp
      omega

theorem digitsValue?_digitBytes (width n : Nat) : digitsValue? (digitBytes width n) = some n := by
  rw [digitBytes, List.leftpad, List.map_append, List.map_replicate]
  exact (digitsValue?_zeros _ _).trans (digitsValue?_toDigits n)

theorem digitBytes_one {n : Nat} (h : n < 10) : digitBytes 1 n = [digitByte n] := by
  simp [digitBytes, Nat.toDigits_of_lt_base h, List.leftpad, digitByte_digitChar h]

/-- The last digit of a number stands behind all its others. -/
theorem digitBytes_succ {width : Nat} (hw : 0 < width) (n : Nat) :
    digitBytes (width + 1) n = digitBytes width (n / 10) ++ [digitByte (n % 10)] := by
  by_cases hn : n < 10
  · obtain ⟨w, rfl⟩ : ∃ w, width = w + 1 := ⟨width - 1, by omega⟩
    have hzero : n / 10 = 0 := by omega
    have hmod : n % 10 = n := by omega
    rw [hzero, hmod, digitBytes, digitBytes, Nat.toDigits_of_lt_base hn, Nat.toDigits_zero]
    simp [List.leftpad, List.replicate_succ', digitByte_digitChar hn]
  · have hd : n % 10 < 10 := Nat.mod_lt n (by decide)
    rw [digitBytes, digitBytes, Nat.toDigits_of_base_le (by decide) (by omega)]
    simp [List.leftpad, digitByte_digitChar hd]

/-- As many digits as there are make the number that they are read as. -/
theorem digitBytes_of_digitsValue? {width : Nat} {bs : Bytes} {n : Nat} (hpos : 0 < width)
    (hlen : bs.length = width) (h : digitsValue? bs = some n) : digitBytes width n = bs := by
  induction width generalizing bs n with
  | zero => exact absurd hpos (by decide)
  | succ width ih =>
    obtain ⟨front, b, rfl⟩ : ∃ front b, bs = front ++ [b] := by
      rcases List.eq_nil_or_concat bs with rfl | ⟨front, b, rfl⟩
      · cases hlen
      · exact ⟨front, b, List.concat_eq_append⟩
    have hfront : front.length = width := by simpa using hlen
    rw [digitsValue?_concat, Option.bind_eq_some_iff] at h
    obtain ⟨m, hm, hb⟩ := h
    obtain ⟨d, hd, rfl⟩ := Option.map_eq_some_iff.mp hb
    obtain ⟨hlt, rfl⟩ := digitValue?_eq_some_iff.mp hd
    by_cases hw : width = 0
    · subst hw
      obtain rfl := List.length_eq_zero_iff.mp hfront
      obtain rfl : 0 = m := by simpa [digitsValue?] using hm
      rw [digitBytes_one (by omega)]
      simp
    · have hdiv : (10 * m + d) / 10 = m := by omega
      have hmod : (10 * m + d) % 10 = d := by omega
      rw [digitBytes_succ (by omega), hdiv, hmod, ih (by omega) hfront hm]

theorem digitBytes_two {n : Nat} (h : n < 100) :
    digitBytes 2 n = [digitByte (n / 10), digitByte (n % 10)] := by
  rw [digitBytes_succ (by decide), digitBytes_one (by omega)]
  rfl

theorem digitBytes_four {n : Nat} (h : n < 10000) :
    digitBytes 4 n = [digitByte (n / 1000), digitByte (n / 100 % 10),
      digitByte (n / 10 % 10), digitByte (n % 10)] := by
  have hhundreds : n / 10 / 10 = n / 100 := Nat.div_div_eq_div_mul n 10 10
  have hthousands : n / 100 / 10 = n / 1000 := Nat.div_div_eq_div_mul n 100 10
  rw [digitBytes_succ (by decide), digitBytes_succ (by decide), hhundreds,
    digitBytes_succ (by decide), hthousands, digitBytes_one (by omega)]
  rfl

end Cryptoki
