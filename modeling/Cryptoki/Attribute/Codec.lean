import Cryptoki.Attribute.Access
import Cryptoki.Attribute.Wire

/-! Writing attributes in their native form and reading them back. -/
namespace Cryptoki

/-- Eight digits, `YYYYMMDD`; only years of four digits have them. -/
def encodeDate (code : Word) (d : Date) : Except Error Bytes :=
  if 0 ≤ d.year then
    .ok (digitBytes 4 d.year.toNat ++ digitBytes 2 d.month ++ digitBytes 2 d.day)
  else .error (.invalidAttributeValue code (.yearOutOfDate d.year))

def decodeDate (code : Word) (bs : Bytes) : Except Error Date :=
  if bs.length = 8 then
    match digitsValue? (bs.take 4), digitsValue? ((bs.drop 4).take 2), digitsValue? (bs.drop 6) with
    | some year, some month, some day => Date.make year month day
    | _, _, _ => .error (.invalidAttributeValue code .notADate)
  else .error (.invalidAttributeValue code .notADate)

def encodeWords (ws : List Word) : Bytes := ws.flatMap Word.toBytes

/-- The words of a byte string; a rest of less than eight bytes makes none. -/
def decodeWords : Bytes → List Word
  | a :: b :: c :: d :: e :: f :: g :: h :: rest =>
    UInt64.ofNat (ofLittleEndian [a, b, c, d, e, f, g, h]) :: decodeWords rest
  | _ => []

mutual

/-- Nested attributes that are in no template are left out. -/
def AttributeValue.encode (code : Word) : AttributeValue → Except Error WireValue
  | .bool b => .ok (.bytes [if b then 1 else 0])
  | .ulong w => .ok (.bytes w.toBytes)
  | .bytes bs => .ok (.bytes bs)
  | .date d => (encodeDate code d).map .bytes
  | .mechanisms ids => .ok (.bytes (encodeWords ids))
  | .attributes entries => (Attribute.toTemplate entries).map .nested

/-- Absent and unavailable attributes have no native form; null ones are empty. -/
def AttributeState.encode (code : Word) : AttributeState → Except Error (Option WireValue)
  | .absent | .unavailable => .ok none
  | .null => .ok (some (.bytes []))
  | .value v => (v.encode code).map some

def Attribute.toWire : Attribute → Except Error (Option WireAttribute)
  | ⟨t, s⟩ => (s.encode t.code).map (·.map (⟨t.code, ·⟩))

/-- The native forms of the attributes that have one, in order. -/
def Attribute.toTemplate : List Attribute → Except Error (List WireAttribute)
  | [] => .ok []
  | a :: as => do
    let entry ← a.toWire
    let rest ← Attribute.toTemplate as
    return entry.toList ++ rest

end

/-- What raw bytes say of an attribute of the type. No byte at all is null, except for the kinds
with an empty value of their own. -/
def decodeBytes (t : AttributeType) (bs : Bytes) : Except Error AttributeState :=
  if bs = [] then .ok t.kind.nullState
  else match t.kind with
    | .bool =>
      match bs with
      | [b] => .ok (.value (.bool (b ≠ 0)))
      | _ => .error (.invalidAttributeValue t.code (.boolLength bs.length))
    | .ulong =>
      match Word.ofBytes? bs with
      | some w => .ok (.value (.ulong w))
      | none => .error (.invalidAttributeValue t.code (.ulongLength bs.length))
    | .bytes => .ok (.value (.bytes bs))
    | .date => (decodeDate t.code bs).map fun d => .value (.date d)
    | .mechanismArray =>
      if bs.length % 8 = 0 then .ok (.value (.mechanisms (decodeWords bs)))
      else .error (.invalidAttributeValue t.code (.partialWord bs.length))
    | .attributeArray => .error (.invalidAttributeValue t.code .rawAttributeArray)

mutual

def WireValue.decode (t : AttributeType) : WireValue → Except Error AttributeState
  | .bytes bs => decodeBytes t bs
  | .nested entries =>
    if t.kind = .attributeArray then
      (WireAttribute.decodeList entries).map fun as => .value (.attributes as)
    else .error (.invalidAttributeValue t.code .nestedScalar)

def WireAttribute.decode : WireAttribute → Except Error Attribute
  | ⟨code, v⟩ =>
    match AttributeType.ofCode? code with
    | some t => (v.decode t).map (⟨t, ·⟩)
    | none => .error (.unknownAttributeType code)

def WireAttribute.decodeList : List WireAttribute → Except Error (List Attribute)
  | [] => .ok []
  | e :: es => do
    let a ← e.decode
    let rest ← WireAttribute.decodeList es
    return a :: rest

end

/-- The attribute with what a native value says of it. -/
def Attribute.load (a : Attribute) (v : WireValue) : Except Error Attribute :=
  (v.decode a.type).map fun s => { a with state := s }

end Cryptoki
