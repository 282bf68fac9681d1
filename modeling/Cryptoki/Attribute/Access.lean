import Cryptoki.Error

/-! Setting attributes and asking for their values. -/
namespace Cryptoki.Attribute

/-- The absent attribute of a type given by its code. -/
def ofCode (code : Word) : Except Error Attribute :=
  match AttributeType.ofCode? code with
  | some t => .ok (absent t)
  | none => .error (.unknownAttributeType code)

/-- Only values of the kind of the type are taken. -/
def set (a : Attribute) (v : AttributeValue) : Except Error Attribute :=
  if v.kind = a.kind then .ok { a with state := .value v }
  else .error (.attributeKindMismatch a.code a.kind)

def withValue (code : Word) (v : AttributeValue) : Except Error Attribute := do
  (← ofCode code).set v

def requireValue (a : Attribute) : Except Error AttributeValue :=
  match a.state with
  | .value v => .ok v
  | .unavailable => .error (.attributeUnavailable a.code)
  | .absent | .null => .error (.attributeNotSet a.code)

/-- The part of the value that `pick` finds, if it is of the kind that has one. -/
def require (a : Attribute) (pick : AttributeValue → Option α) : Except Error α := do
  match pick (← a.requireValue) with
  | some x => .ok x
  | none => .error (.attributeKindMismatch a.code a.kind)

end Attribute

namespace AttributeValue

def bool? : AttributeValue → Option Bool
  | .bool b => some b
  | _ => none

def ulong? : AttributeValue → Option Word
  | .ulong w => some w
  | _ => none

def bytes? : AttributeValue → Option Bytes
  | .bytes bs => some bs
  | _ => none

def date? : AttributeValue → Option Date
  | .date d => some d
  | _ => none

def mechanisms? : AttributeValue → Option (List Word)
  | .mechanisms ids => some ids
  | _ => none

end AttributeValue

namespace Attribute

def requireBool (a : Attribute) : Except Error Bool := a.require (·.bool?)

def requireUlong (a : Attribute) : Except Error Word := a.require (·.ulong?)

def requireBytes (a : Attribute) : Except Error Bytes := a.require (·.bytes?)

def requireDate (a : Attribute) : Except Error Date := a.require (·.date?)

def requireMechanisms (a : Attribute) : Except Error (List Word) := a.require (·.mechanisms?)

def asBool (a : Attribute) : Option Bool := a.value?.bind (·.bool?)

def asUlong (a : Attribute) : Option Word := a.value?.bind (·.ulong?)

def asBytes (a : Attribute) : Option Bytes := a.value?.bind (·.bytes?)

def asDate (a : Attribute) : Option Date := a.value?.bind (·.date?)

end Cryptoki.Attribute
