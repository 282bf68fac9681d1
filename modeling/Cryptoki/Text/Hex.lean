import Cryptoki.Word

/-! Hexadecimal and decimal text of words and byte strings. -/
namespace Cryptoki

/-- Decimal digits, without leading zeros. -/
def decimal (n : Nat) : String := String.ofList (Nat.toDigits 10 n)

/-- Decimal digits, with leading zeros up to the given width. -/
def paddedDecimal (width n : Nat) : String :=
  String.ofList ((Nat.toDigits 10 n).leftpad width '0')

/-- Two lower-case digits a byte. -/
def hexOfBytes (bs : Bytes) : String :=
  String.ofList (bs.flatMap fun b => [Nat.digitChar (b.toNat / 16), Nat.digitChar (b.toNat % 16)])

/-- The value of a digit of base 16, of either case. -/
def hexDigitValue? (c : Char) : Option Nat :=
  if '0' ≤ c ∧ c ≤ '9' then some (c.toNat - 48)
  else if 'a' ≤ c ∧ c ≤ 'f' then some (c.toNat - 87)
  else if 'A' ≤ c ∧ c ≤ 'F' then some (c.toNat - 55)
  else none

/-- The bytes that pairs of digits stand for. -/
def bytesOfHex? : List Char → Option Bytes
  | [] => some []
  | [_] => none
  | a :: b :: rest => do
    let high ← hexDigitValue? a
    let low ← hexDigitValue? b
    return UInt8.ofNat (16 * high + low) :: (← bytesOfHex? rest)

theorem hexDigitValue?_digitChar (n : Nat) (h : n < 16) :
    hexDigitValue? (Nat.digitChar n) = some n := by
  revert n
  decide

theorem bytesOfHex?_hexOfBytes (bs : Bytes) : bytesOfHex? (hexOfBytes bs).toList = some bs := by
  simp only [hexOfBytes, String.toList_ofList]
  induction bs with
  | nil => rfl
  | cons b bs ih =>
    have h := b.toNat_lt
    have high := hexDigitValue?_digitChar (b.toNat / 16) (by omega)
    have low := hexDigitValue?_digitChar (b.toNat % 16) (by omega)
    have whole : UInt8.ofNat (16 * (b.toNat / 16) + b.toNat % 16) = b := by
      rw [Nat.div_add_mod, UInt8.ofNat_toNat]
    simp [bytesOfHex?, high, low, ih, -UInt8.ofNat_add, whole]

/-- The form of a code: `0x` and its lower-case digits, without leading zeros. -/
def hexOfWord (w : Word) : String :=
  "0x" ++ String.ofList (Nat.toDigits 16 w.toNat)

def upperDigit (c : Char) : Char :=
  if 'a' ≤ c ∧ c ≤ 'f' then Char.ofNat (c.toNat - 32) else c

/-- The form of a status without a name: `0x` and at least eight upper-case digits. -/
def hexOfStatus (w : Word) : String :=
  "0x" ++ String.ofList (((Nat.toDigits 16 w.toNat).map upperDigit).leftpad 8 '0')

/-- At most the first eight bytes, two dots when there are more, and the length. -/
def preview (bs : Bytes) : String :=
  hexOfBytes (bs.take 8) ++ (if 8 < bs.length then ".." else "") ++
    " (" ++ decimal bs.length ++ " bytes)"

end Cryptoki
