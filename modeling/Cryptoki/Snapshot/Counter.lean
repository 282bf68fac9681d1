import Cryptoki.Text.Hex

/-! Counters of a token, some of whose words are no numbers. -/
namespace Cryptoki

inductive Counter where
  | unavailable
  | effectivelyInfinite
  | finite (n : Word)
  deriving DecidableEq, Repr

namespace Counter

/-- A limit; zero sets none. -/
def ofLimit (w : Word) : Counter :=
  if w = unavailableInformation then .unavailable
  else if w = 0 then .effectivelyInfinite
  else .finite w

/-- A count or an amount; zero is one like any other. -/
def ofCount (w : Word) : Counter :=
  if w = unavailableInformation then .unavailable else .finite w

def finite? : Counter → Option Word
  | .finite n => some n
  | _ => none

def text : Counter → String
  | .unavailable => "unavailable"
  | .effectivelyInfinite => "effectively infinite"
  | .finite n => decimal n.toNat

theorem ofLimit_injective {a b : Word} (h : ofLimit a = ofLimit b) : a = b := by
  grind [ofLimit]

theorem ofCount_injective {a b : Word} (h : ofCount a = ofCount b) : a = b := by
  grind [ofCount]

end Counter

end Cryptoki
