import Mathlib.Data.List.TakeWhile
import Mathlib.Logic.Function.Basic
import Cryptoki.Text.Hex

/-! Previews of byte strings: they tell the length and the first bytes, neither more nor less. -/
namespace Cryptoki

/-- The one is as long as the other and begins with the same eight bytes. -/
structure Bytes.LooksLike (a b : Bytes) : Prop where
  length : a.length = b.length
  head : a.take 8 = b.take 8

theorem decimal_injective : Function.Injective decimal := by
  intro m n h
  have hdigits : Nat.toDigits 10 m = Nat.toDigits 10 n := String.ofList_injective h
  calc
    m = Nat.ofDigitChars 10 (Nat.toDigits 10 m) 0 := Nat.ofDigitChars_ten_toDigits.symm
    _ = Nat.ofDigitChars 10 (Nat.toDigits 10 n) 0 := by rw [hdigits]
    _ = n := Nat.ofDigitChars_ten_toDigits

theorem hexOfBytes_injective : Function.Injective hexOfBytes := by
  intro a b h
  have ha := bytesOfHex?_hexOfBytes a
  rw [h, bytesOfHex?_hexOfBytes] at ha
  exact (Option.some.inj ha).symm

/-- What a preview says of the length: dots where bytes are left out, and the number of all. -/
def lengthRemark (n : Nat) : String :=
  (if 8 < n then ".." else "") ++ " (" ++ decimal n ++ " bytes)"

theorem preview_eq (a : Bytes) : preview a = hexOfBytes (a.take 8) ++ lengthRemark a.length := by
  simp [preview, lengthRemark, String.append_assoc]

/-- The characters of the bytes in a preview; the remark begins with none of them. -/
def isByteChar (c : Char) : Bool := c ≠ '.' && c ≠ ' '

theorem isByteChar_digitChar {n : Nat} (h : n < 16) : isByteChar (Nat.digitChar n) = true := by
  revert n
  decide

theorem isByteChar_of_mem {a : Bytes} {c : Char} (h : c ∈ (hexOfBytes a).toList) :
    isByteChar c = true := by
  rw [hexOfBytes, String.toList_ofList, List.mem_flatMap] at h
  obtain ⟨b, -, hc⟩ := h
  have hb := b.toNat_lt
  have hhigh : isByteChar (Nat.digitChar (b.toNat / 16)) = true := isByteChar_digitChar (by omega)
  have hlow : isByteChar (Nat.digitChar (b.toNat % 16)) = true := isByteChar_digitChar (by omega)
  rcases List.mem_cons.mp hc with rfl | hc
  · exact hhigh
  · rw [List.mem_singleton.mp hc]
    exact hlow

theorem takeWhile_lengthRemark (n : Nat) : (lengthRemark n).toList.takeWhile isByteChar = [] := by
  unfold lengthRemark
  split <;> simp [isByteChar]

theorem lengthRemark_injective : Function.Injective lengthRemark := by
  intro m n h
  apply decimal_injective
  apply String.toList_injective
  have hchars := congrArg String.toList h
  unfold lengthRemark at hchars
  -- With dots in one remark alone, the two begin with different characters.
  split at hchars <;> split at hchars <;> simp_all

/-- The bytes of a preview end where its remark begins. -/
theorem takeWhile_preview (a : Bytes) :
    (preview a).toList.takeWhile isByteChar = (hexOfBytes (a.take 8)).toList := by
  rw [preview_eq, String.toList_append, List.takeWhile_append_of_pos fun c => isByteChar_of_mem,
    takeWhile_lengthRemark, List.append_nil]

/-- A preview tells the length and the first bytes, and nothing else. -/
theorem preview_eq_iff {a b : Bytes} : preview a = preview b ↔ a.LooksLike b := by
  constructor
  · intro h
    have hbytes : hexOfBytes (a.take 8) = hexOfBytes (b.take 8) := by
      apply String.toList_injective
      rw [← takeWhile_preview, h, takeWhile_preview]
    rw [preview_eq, preview_eq, hbytes] at h
    exact ⟨lengthRemark_injective (String.append_right_inj _ |>.mp h), hexOfBytes_injective hbytes⟩
  · rintro ⟨hlength, hhead⟩
    rw [preview_eq, preview_eq, hlength, hhead]

end Cryptoki
