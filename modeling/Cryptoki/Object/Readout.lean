import Cryptoki.Object.Basic

/-! What a token answers to a batched read of attributes, and what an object makes of it. -/
namespace Cryptoki

/-- A value, or only the length of one that was not copied. -/
inductive RawValue where
  | bytes (bs : Bytes)
  | nested (entries : List WireAttribute)
  | length (n : Word)
  deriving DecidableEq

structure Readout where
  type : Word
  status : Status
  value : RawValue
  deriving DecidableEq

def RawValue.debug : RawValue → String
  | .bytes bs => Layout.tagged "Bytes" (preview bs)
  | .nested entries => Layout.tagged "Nested" (Layout.list (entries.map WireAttribute.debug))
  | .length n => Layout.tagged "Length" (Layout.word n)

def Readout.debug (r : Readout) : String :=
  Layout.record "AttributeReadout" [("type_", quoted (attributeName r.type)),
    ("status", quoted r.status.text), ("value", r.value.debug)]

/-- The statuses of attributes that an object does not have or that are not revealed. -/
def Status.isSoft (s : Status) : Bool :=
  s = Status.attributeTypeInvalid || s = Status.attributeSensitive

/-- The attribute as its readout leaves it. -/
def Attribute.read (a : Attribute) (r : Readout) : Except Error Attribute :=
  if r.type ≠ a.code then .error (.readoutType r.type a.code)
  else if Status.isSoft r.status then .ok a.markUnavailable
  else if r.status = Status.ok then
    match r.value with
    | .length n =>
      if n = unavailableInformation then .ok a.markUnavailable
      else .error (.invalidAttributeValue a.code (.lengthOnly n))
    | .bytes bs => a.load (.bytes bs)
    | .nested entries => a.load (.nested entries)
  else .error (.deviceStatus r.status)

/-- The attributes as their readouts leave them, in pairs. -/
def Attribute.readAll : List Attribute → List Readout → Except Error (List Attribute)
  | a :: as, r :: rs => do
    let a ← a.read r
    let rest ← Attribute.readAll as rs
    return a :: rest
  | _, _ => .ok []

namespace Object

/-- An attribute that tells the variant stays as it is, and the token must not contradict it. -/
def settleIdentity (v : ObjectVariant) (fresh current : Attribute) : Except Error Attribute :=
  if v.isIdentity fresh.type then
    if fresh.state = .unavailable then .ok current
    else if fresh.value? = current.value? then .ok fresh
    else .error (.contradictedIdentity fresh v)
  else .ok fresh

def settleIdentities (v : ObjectVariant) :
    List Attribute → List Attribute → Except Error (List Attribute)
  | fresh :: fs, current :: cs => do
    let a ← settleIdentity v fresh current
    let rest ← settleIdentities v fs cs
    return a :: rest
  | _, _ => .ok []

/-- The object with the attributes of a batched read of all its types. -/
def refresh (o : Object) (readouts : List Readout) : Except Error Object := do
  if readouts.length ≠ o.attributes.length then
    throw (.readoutCount readouts.length o.attributes.length)
  let fresh ← Attribute.readAll o.attributes readouts
  let settled ← settleIdentities o.variant fresh o.attributes
  return { o with attributes := settled }

/-- The types that tell the variant of an object not yet known. -/
def identityTypes : List AttributeType := [.objectClass, .keyType, .certificateType, .hwFeatureType]

/-- The code that a batched read gives for an attribute; none where it was not revealed. -/
def codeOf (readouts : List Readout) (t : AttributeType) : Except Error (Option Word) :=
  match readouts.find? (·.type = t.code) with
  | none => .ok none
  | some r =>
    if r.status = Status.ok then
      match r.value with
      | .bytes bs => ((Attribute.absent t).load (.bytes bs)).map Attribute.asUlong
      | _ => .ok none
    else if Status.isSoft r.status then .ok none
    else .error (.deviceStatus r.status)

/-- The variant that the readouts of the identity types tell. -/
def identify (readouts : List Readout) : Except Error ObjectVariant := do
  match ← codeOf readouts .objectClass with
  | none => throw (.attributeUnavailable AttributeType.objectClass.code)
  | some objectClass =>
    let subtype ← match ObjectVariant.subtypeAttributeOf objectClass with
      | some t => codeOf readouts t
      | none => pure none
    ObjectVariant.ofCodes objectClass subtype

end Object

end Cryptoki
