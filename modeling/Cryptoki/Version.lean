import Cryptoki.Text.Hex

/-! Versions of protocols, libraries and devices. -/
namespace Cryptoki

structure Version where
  major : UInt8
  minor : UInt8
  deriving DecidableEq, Repr

namespace Version

def zero : Version := ⟨0, 0⟩

def text (v : Version) : String := decimal v.major.toNat ++ "." ++ decimal v.minor.toNat

/-- The minor number decides only between equal major ones. -/
def isNewer (a b : Version) : Bool :=
  b.major < a.major || (a.major = b.major && b.minor < a.minor)

end Version

end Cryptoki
