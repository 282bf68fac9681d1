import Cryptoki.Text.Hex

/-! Reading UTF-8, one byte at a time, with every fault located. -/
namespace Cryptoki.Utf8

/-- A sequence whose end is still to come: the value so far, how many bytes it has, how many it
needs, and the bounds of the next one. -/
structure Pending where
  value : Nat
  read : Nat
  need : Nat
  low : Nat
  high : Nat

/-- What a first byte opens. -/
inductive Opening where
  | done (c : Char)
  | more (p : Pending)
  | fault

def opening (b : UInt8) : Opening :=
  let n := b.toNat
  if n < 0x80 then .done (Char.ofNat n)
  else if n < 0xC2 then .fault
  else if n < 0xE0 then .more ⟨n % 32, 1, 1, 0x80, 0xBF⟩
  else if n = 0xE0 then .more ⟨n % 16, 1, 2, 0xA0, 0xBF⟩
  else if n = 0xED then .more ⟨n % 16, 1, 2, 0x80, 0x9F⟩
  else if n < 0xF0 then .more ⟨n % 16, 1, 2, 0x80, 0xBF⟩
  else if n = 0xF0 then .more ⟨n % 8, 1, 3, 0x90, 0xBF⟩
  else if n < 0xF4 then .more ⟨n % 8, 1, 3, 0x80, 0xBF⟩
  else if n = 0xF4 then .more ⟨n % 8, 1, 3, 0x80, 0x8F⟩
  else .fault

def Pending.accepts (p : Pending) (b : UInt8) : Bool :=
  p.low ≤ b.toNat && b.toNat ≤ p.high

/-- The sequence with one more byte: complete, or with one byte less to come. -/
def Pending.push (p : Pending) (b : UInt8) : Opening :=
  let value := p.value * 64 + b.toNat % 64
  if p.need = 1 then .done (Char.ofNat value)
  else .more ⟨value, p.read + 1, p.need - 1, 0x80, 0xBF⟩

def replacement : Char := Char.ofNat 0xFFFD

/-- Every maximal faulty part becomes one replacement character. -/
def decodeLossyFrom : Option Pending → Bytes → List Char
  | none, [] => []
  | some _, [] => [replacement]
  | none, b :: bs =>
    match opening b with
    | .done c => c :: decodeLossyFrom none bs
    | .more p => decodeLossyFrom (some p) bs
    | .fault => replacement :: decodeLossyFrom none bs
  | some p, b :: bs =>
    if p.accepts b then
      match p.push b with
      | .done c => c :: decodeLossyFrom none bs
      | .more q => decodeLossyFrom (some q) bs
      | .fault => replacement :: decodeLossyFrom none bs
    else
      replacement :: match opening b with
        | .done c => c :: decodeLossyFrom none bs
        | .more q => decodeLossyFrom (some q) bs
        | .fault => replacement :: decodeLossyFrom none bs

def decodeLossy (bs : Bytes) : List Char := decodeLossyFrom none bs

/-- Where strict reading stops: a faulty part of some bytes, or a sequence cut by the end. -/
inductive Fault where
  | invalid (length index : Nat)
  | incomplete (index : Nat)
  deriving DecidableEq, Repr

def Fault.message : Fault → String
  | .invalid length index =>
    "invalid utf-8 sequence of " ++ decimal length ++ " bytes from index " ++ decimal index
  | .incomplete index => "incomplete utf-8 byte sequence from index " ++ decimal index

/-- Strict reading; `index` counts the bytes of the complete characters before. -/
def decodeFrom (index : Nat) : Option Pending → Bytes → Except Fault (List Char)
  | none, [] => .ok []
  | some _, [] => .error (.incomplete index)
  | none, b :: bs =>
    match opening b with
    | .done c => (decodeFrom (index + 1) none bs).map (c :: ·)
    | .more p => decodeFrom index (some p) bs
    | .fault => .error (.invalid 1 index)
  | some p, b :: bs =>
    if p.accepts b then
      match p.push b with
      | .done c => (decodeFrom (index + p.read + 1) none bs).map (c :: ·)
      | .more q => decodeFrom index (some q) bs
      | .fault => .error (.invalid p.read index)
    else .error (.invalid p.read index)

def decode (bs : Bytes) : Except Fault (List Char) := decodeFrom 0 none bs

def encode (cs : List Char) : Bytes := cs.flatMap String.utf8EncodeChar

end Cryptoki.Utf8
