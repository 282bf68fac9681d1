import Cryptoki.Text.Hex

/-! Numerals of base 16, and the one that a status without a name is spelled with. -/
namespace Cryptoki

variable {c : Char} {cs : List Char} {n : Nat}

/-- Digits of base 16, of either case, and the number that they stand for. -/
inductive HexNumeral : List Char → Nat → Prop where
  | digit {c : Char} {d : Nat} (hd : hexDigitValue? c = some d) : HexNumeral [c] d
  | concat {cs : List Char} {c : Char} {n d : Nat} (h : HexNumeral cs n)
    (hd : hexDigitValue? c = some d) : HexNumeral (cs ++ [c]) (16 * n + d)

namespace HexNumeral

theorem ne_nil (h : HexNumeral cs n) : cs ≠ [] := by
  cases h <;> simp

theorem isDigit (h : HexNumeral cs n) (hc : c ∈ cs) : hexDigitValue? c ≠ none := by
  induction h with
  | digit hd =>
    obtain rfl := List.mem_singleton.mp hc
    simp [hd]
  | concat _ hd ih =>
    rcases List.mem_append.mp hc with hc | hc
    · exact ih hc
    · obtain rfl := List.mem_singleton.mp hc
      simp [hd]

/-- A zero in front adds nothing. -/
theorem zero_cons (h : HexNumeral cs n) : HexNumeral ('0' :: cs) n := by
  induction h with
  | digit hd =>
    have hzero : HexNumeral ['0'] 0 := .digit rfl
    simpa using hzero.concat hd
  | concat _ hd ih => exact ih.concat hd

theorem zeros_append (h : HexNumeral cs n) (k : Nat) :
    HexNumeral (List.replicate k '0' ++ cs) n := by
  induction k with
  | zero => exact h
  | succ k ih => exact ih.zero_cons

end HexNumeral

/-- Upper-case digits, at least eight of them, and more only where the number takes them. -/
structure StatusNumeral (cs : List Char) (n : Nat) : Prop where
  value : HexNumeral cs n
  upper : ∀ c ∈ cs, '0' ≤ c ∧ c ≤ '9' ∨ 'A' ≤ c ∧ c ≤ 'F'
  wide : 8 ≤ cs.length
  tight : 8 < cs.length → cs.head? ≠ some '0'

/-- The upper-case digit of a number below 16. -/
theorem upperDigit_digitChar {d : Nat} (h : d < 16) :
    hexDigitValue? (upperDigit (Nat.digitChar d)) = some d ∧
      ('0' ≤ upperDigit (Nat.digitChar d) ∧ upperDigit (Nat.digitChar d) ≤ '9' ∨
        'A' ≤ upperDigit (Nat.digitChar d) ∧ upperDigit (Nat.digitChar d) ≤ 'F') ∧
      (upperDigit (Nat.digitChar d) = '0' → d = 0) := by
  revert d
  decide

/-- The last digit of a number stands behind those of the rest. -/
theorem upperDigits_of_le (h : 16 ≤ n) : (Nat.toDigits 16 n).map upperDigit =
    (Nat.toDigits 16 (n / 16)).map upperDigit ++ [upperDigit (Nat.digitChar (n % 16))] := by
  rw [Nat.toDigits_of_base_le (by decide) h, List.map_append, List.map_singleton]

theorem hexNumeral_toDigits (n : Nat) : HexNumeral ((Nat.toDigits 16 n).map upperDigit) n := by
  induction n using Nat.strongRecOn with
  | ind n ih =>
    by_cases hn : n < 16
    · rw [Nat.toDigits_of_lt_base hn, List.map_singleton]
      exact .digit (upperDigit_digitChar hn).1
    · have hlast := (upperDigit_digitChar (Nat.mod_lt n (by decide : 0 < 16))).1
      have hwhole := (ih (n / 16) (by omega)).concat hlast
      rw [upperDigits_of_le (by omega)]
      rwa [Nat.div_add_mod] at hwhole

theorem upper_of_mem_toDigits (n : Nat) :
    ∀ c ∈ (Nat.toDigits 16 n).map upperDigit, '0' ≤ c ∧ c ≤ '9' ∨ 'A' ≤ c ∧ c ≤ 'F' := by
  induction n using Nat.strongRecOn with
  | ind n ih =>
    intro c hc
    by_cases hn : n < 16
    · rw [Nat.toDigits_of_lt_base hn, List.map_singleton, List.mem_singleton] at hc
      rw [hc]
      exact (upperDigit_digitChar hn).2.1
    · rw [upperDigits_of_le (by omega), List.mem_append, List.mem_singleton] at hc
      rcases hc with hc | rfl
      · exact ih (n / 16) (by omega) c hc
      · exact (upperDigit_digitChar (Nat.mod_lt n (by decide))).2.1

theorem head?_toDigits_ne_zero (h : 0 < n) :
    ((Nat.toDigits 16 n).map upperDigit).head? ≠ some '0' := by
  induction n using Nat.strongRecOn with
  | ind n ih =>
    by_cases hn : n < 16
    · rw [Nat.toDigits_of_lt_base hn, List.map_singleton, List.head?_cons, ne_eq,
        Option.some_inj]
      intro hzero
      have := (upperDigit_digitChar hn).2.2 hzero
      omega
    · have hrest := ih (n / 16) (by omega) (by omega)
      obtain ⟨c, cs, hcs⟩ := List.exists_cons_of_ne_nil (hexNumeral_toDigits (n / 16)).ne_nil
      rw [hcs] at hrest
      rw [upperDigits_of_le (by omega), hcs]
      exact hrest

/-- A status without a name is spelled with its number. -/
theorem exists_hexOfStatus (w : Word) :
    ∃ digits, hexOfStatus w = "0x" ++ String.ofList digits ∧ StatusNumeral digits w.toNat := by
  refine ⟨_, rfl, ?_, ?_, ?_, ?_⟩
  · exact (hexNumeral_toDigits w.toNat).zeros_append _
  · intro c hc
    rcases List.mem_append.mp hc with hc | hc
    · obtain rfl := List.eq_of_mem_replicate hc
      decide
    · exact upper_of_mem_toDigits w.toNat c hc
  · rw [List.length_leftpad]
    omega
  · intro hlong
    rw [List.length_leftpad] at hlong
    have hpos : 0 < w.toNat := by
      apply Nat.pos_of_ne_zero
      intro hzero
      simp [hzero] at hlong
    have hpad : 8 - ((Nat.toDigits 16 w.toNat).map upperDigit).length = 0 := by omega
    rw [List.leftpad, hpad]
    exact head?_toDigits_ne_zero hpos

end Cryptoki
