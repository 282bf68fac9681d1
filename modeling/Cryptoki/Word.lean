/-! Machine words, byte strings and the little-endian form of a word. -/
namespace Cryptoki

abbrev Bytes := List UInt8

/-- The native unsigned long: handles, codes, counts and flags. -/
abbrev Word := UInt64

abbrev Handle := Word

/-- The word that stands for a length or an amount that is not available. -/
def unavailableInformation : Word := 0xFFFFFFFFFFFFFFFF

/-- Whether a word of flags has one of the bits of a mask. -/
def hasFlag (flags mask : Word) : Bool := flags &&& mask ≠ 0

/-- The number whose bytes are given, least significant first. -/
def ofLittleEndian : Bytes → Nat
  | [] => 0
  | b :: bs => b.toNat + 256 * ofLittleEndian bs

/-- The lowest `n` bytes of a number, least significant first. -/
def littleEndian : Nat → Nat → Bytes
  | 0, _ => []
  | n + 1, v => UInt8.ofNat (v % 256) :: littleEndian n (v / 256)

def Word.toBytes (w : Word) : Bytes :=
  littleEndian 8 w.toNat

/-- Only eight bytes make a word. -/
def Word.ofBytes? (bs : Bytes) : Option Word :=
  if bs.length = 8 then some (UInt64.ofNat (ofLittleEndian bs)) else none

theorem length_littleEndian (n v : Nat) : (littleEndian n v).length = n := by
  induction n generalizing v with
  | zero => rfl
  | succ n ih => simp [littleEndian, ih]

/-- Eight bytes hold all of a number below the size of a word. -/
theorem ofLittleEndian_littleEndian (v : Nat) :
    ofLittleEndian (littleEndian 8 v) = v % UInt64.size := by
  simp only [littleEndian, ofLittleEndian, UInt8.toNat_ofNat', UInt64.size]
  omega

theorem Word.ofBytes?_toBytes (w : Word) : Word.ofBytes? (Word.toBytes w) = some w := by
  simp only [Word.ofBytes?, Word.toBytes, length_littleEndian, ofLittleEndian_littleEndian, if_pos]
  rw [Nat.mod_eq_of_lt w.toNat_lt_size, UInt64.ofNat_toNat]

/-- The buffer after `data` was written at its start; what does not fit is dropped. -/
def overwrite (buffer data : Bytes) : Bytes :=
  data.take buffer.length ++ buffer.drop data.length

theorem length_overwrite (buffer data : Bytes) : (overwrite buffer data).length = buffer.length := by
  simp [overwrite]
  omega

theorem overwrite_nil (buffer : Bytes) : overwrite buffer [] = buffer := by
  simp [overwrite]

theorem overwrite_ne_nil {buffer : Bytes} (h : buffer ≠ []) (data : Bytes) :
    overwrite buffer data ≠ [] := by
  rw [← List.length_pos_iff, length_overwrite]
  exact List.length_pos_iff.mpr h

/-- Consecutive pieces of at most `size` bytes; a size of zero counts as one. -/
def chunks (size : Nat) (data : Bytes) : List Bytes :=
  if data = [] then []
  else data.take (max size 1) :: chunks size (data.drop (max size 1))
termination_by data.length
decreasing_by
  have := List.length_pos_iff.mpr ‹_›
  simp only [List.length_drop]
  omega

end Cryptoki
