import Cryptoki.Attribute.Type
import Cryptoki.Date

/-! Attributes of objects: a type, and where the attribute stands. -/
namespace Cryptoki

mutual

inductive AttributeValue where
  | bool (b : Bool)
  | ulong (w : Word)
  | bytes (bs : Bytes)
  | date (d : Date)
  | mechanisms (ids : List Word)
  | attributes (entries : List Attribute)

/-- Absent attributes are in no template and were never read; unavailable ones the token would not
reveal; null ones are present without a value. -/
inductive AttributeState where
  | absent
  | unavailable
  | null
  | value (v : AttributeValue)

structure Attribute where
  type : AttributeType
  state : AttributeState

end

mutual

def AttributeValue.decEq (a b : AttributeValue) : Decidable (a = b) :=
  match a, b with
  | .bool x, .bool y => decidable_of_iff (x = y) (by simp)
  | .ulong x, .ulong y => decidable_of_iff (x = y) (by simp)
  | .bytes x, .bytes y => decidable_of_iff (x = y) (by simp)
  | .date x, .date y => decidable_of_iff (x = y) (by simp)
  | .mechanisms x, .mechanisms y => decidable_of_iff (x = y) (by simp)
  | .attributes x, .attributes y =>
    match Attribute.decEqList x y with
    | isTrue h => isTrue (by rw [h])
    | isFalse h => isFalse (by simp [h])
  | .bool _, .ulong _ | .bool _, .bytes _ | .bool _, .date _ | .bool _, .mechanisms _
  | .bool _, .attributes _ | .ulong _, .bool _ | .ulong _, .bytes _ | .ulong _, .date _
  | .ulong _, .mechanisms _ | .ulong _, .attributes _ | .bytes _, .bool _ | .bytes _, .ulong _
  | .bytes _, .date _ | .bytes _, .mechanisms _ | .bytes _, .attributes _ | .date _, .bool _
  | .date _, .ulong _ | .date _, .bytes _ | .date _, .mechanisms _ | .date _, .attributes _
  | .mechanisms _, .bool _ | .mechanisms _, .ulong _ | .mechanisms _, .bytes _
  | .mechanisms _, .date _ | .mechanisms _, .attributes _ | .attributes _, .bool _
  | .attributes _, .ulong _ | .attributes _, .bytes _ | .attributes _, .date _
  | .attributes _, .mechanisms _ => isFalse (by simp)

def AttributeState.decEq (a b : AttributeState) : Decidable (a = b) :=
  match a, b with
  | .absent, .absent => isTrue rfl
  | .unavailable, .unavailable => isTrue rfl
  | .null, .null => isTrue rfl
  | .value v, .value w =>
    match AttributeValue.decEq v w with
    | isTrue h => isTrue (by rw [h])
    | isFalse h => isFalse (by simp [h])
  | .absent, .unavailable | .absent, .null | .absent, .value _ | .unavailable, .absent
  | .unavailable, .null | .unavailable, .value _ | .null, .absent | .null, .unavailable
  | .null, .value _ | .value _, .absent | .value _, .unavailable | .value _, .null =>
    isFalse (by simp)

def Attribute.decEq (a b : Attribute) : Decidable (a = b) :=
  match a, b with
  | ⟨t, s⟩, ⟨u, r⟩ =>
    if h : t = u then
      match AttributeState.decEq s r with
      | isTrue k => isTrue (by rw [h, k])
      | isFalse k => isFalse (by simp [k])
    else isFalse (by simp [h])

def Attribute.decEqList (a b : List Attribute) : Decidable (a = b) :=
  match a, b with
  | [], [] => isTrue rfl
  | x :: xs, y :: ys =>
    match Attribute.decEq x y with
    | isTrue h =>
      match Attribute.decEqList xs ys with
      | isTrue k => isTrue (by rw [h, k])
      | isFalse k => isFalse (by simp [k])
    | isFalse h => isFalse (by simp [h])
  | [], _ :: _ => isFalse (by simp)
  | _ :: _, [] => isFalse (by simp)

end

instance : DecidableEq AttributeValue := AttributeValue.decEq
instance : DecidableEq AttributeState := AttributeState.decEq
instance : DecidableEq Attribute := Attribute.decEq

def AttributeValue.kind : AttributeValue → AttributeKind
  | .bool _ => .bool
  | .ulong _ => .ulong
  | .bytes _ => .bytes
  | .date _ => .date
  | .mechanisms _ => .mechanismArray
  | .attributes _ => .attributeArray

/-- Where an attribute stands that is present without a value: kinds with an empty value of their
own hold that one. -/
def AttributeKind.nullState : AttributeKind → AttributeState
  | .bytes => .value (.bytes [])
  | .mechanismArray => .value (.mechanisms [])
  | .attributeArray => .value (.attributes [])
  | .bool | .ulong | .date => .null

def AttributeState.value? : AttributeState → Option AttributeValue
  | .value v => some v
  | _ => none

namespace Attribute

def absent (t : AttributeType) : Attribute := ⟨t, .absent⟩

def code (a : Attribute) : Word := a.type.code

def kind (a : Attribute) : AttributeKind := a.type.kind

/-- Present in a template, with a value or null. -/
def isPresent (a : Attribute) : Bool :=
  match a.state with
  | .null | .value _ => true
  | .absent | .unavailable => false

def value? (a : Attribute) : Option AttributeValue := a.state.value?

def setNull (a : Attribute) : Attribute := { a with state := a.kind.nullState }

def clear (a : Attribute) : Attribute := { a with state := .absent }

def markUnavailable (a : Attribute) : Attribute := { a with state := .unavailable }

end Attribute

end Cryptoki
