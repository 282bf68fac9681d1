import Cryptoki.Text.Blank
import Cryptoki.Text.Utf8

/-! Texts in fields of fixed width, padded with blanks or ended by a zero byte. -/
namespace Cryptoki

/-- The characters up to the first zero byte, without the blanks at the end. -/
def paddedChars (field : Bytes) : List Char :=
  trimRight (Utf8.decodeLossy (field.takeWhile (· ≠ 0)))

def paddedText (field : Bytes) : String := String.ofList (paddedChars field)

end Cryptoki
