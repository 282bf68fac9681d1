import Cryptoki.Attribute.Codec

/-! Token objects: a variant, a place in life and one attribute for each declared type. -/
namespace Cryptoki

/-- Templates are built locally; bound objects are on a token under a handle; of destroyed objects
the handle is kept to tell which they were. -/
inductive Lifecycle where
  | template
  | bound (h : Handle)
  | destroyed (h : Handle)
  deriving DecidableEq, Repr

structure Object where
  variant : ObjectVariant
  state : Lifecycle
  attributes : List Attribute
  deriving DecidableEq

namespace Object

/-- Where an attribute of a fresh object stands: only those that tell the variant have a value. -/
def freshState (v : ObjectVariant) (t : AttributeType) : AttributeState :=
  if t = .objectClass then .value (.ulong v.classCode)
  else if v.subtypeAttribute = some t then
    match v.subtypeCode with
    | some code => .value (.ulong code)
    | none => .absent
  else .absent

/-- The template that says no more than its variant. -/
def ofVariant (v : ObjectVariant) : Object :=
  ⟨v, .template, v.declared.map fun t => ⟨t, freshState v t⟩⟩

def ofCodes (objectClass : Word) (subtype : Option Word) : Except Error Object :=
  (ObjectVariant.ofCodes objectClass subtype).map ofVariant

def ofHandle (v : ObjectVariant) (h : Handle) : Object := { ofVariant v with state := .bound h }

/-- The same variant with the same attributes, wherever the two stand in life. -/
def sameContent (a b : Object) : Bool := a.variant = b.variant && a.attributes = b.attributes

def handle? (o : Object) : Option Handle :=
  match o.state with
  | .bound h => some h
  | _ => none

def isDestroyed (o : Object) : Bool :=
  match o.state with
  | .destroyed _ => true
  | _ => false

/-- The handle of a bound object; templates have none, and that of destroyed ones is void. -/
def liveHandle (o : Object) : Except Error Handle :=
  match o.state with
  | .bound h => .ok h
  | .destroyed h => .error (.staleObject h)
  | .template => .error (.templateWithoutHandle o.variant)

def markDestroyed (o : Object) : Except Error Object :=
  o.liveHandle.map fun h => { o with state := .destroyed h }

def attribute? (o : Object) (code : Word) : Option Attribute :=
  o.attributes.find? (·.code = code)

def get (o : Object) (code : Word) : Except Error Attribute :=
  match o.attribute? code with
  | some a => .ok a
  | none => .error (.undeclaredAttribute code o.variant)

/-- The declared attribute of the code, unless it tells the variant. -/
def mutableAttribute (o : Object) (code : Word) : Except Error Attribute :=
  match AttributeType.ofCode? code with
  | some t => if o.variant.isIdentity t then .error (.immutableAttribute code) else o.get code
  | none => o.get code

/-- The object with the attribute in place of the one of its type. -/
def replace (o : Object) (a : Attribute) : Object :=
  { o with attributes := o.attributes.map fun b => if b.type = a.type then a else b }

/-- The object after a change to one attribute, or the reason why it may not change. -/
def modify (o : Object) (code : Word) (change : Attribute → Except Error Attribute) :
    Except Error Object := do
  let a ← o.mutableAttribute code
  return o.replace (← change a)

def set (o : Object) (code : Word) (v : AttributeValue) : Except Error Object :=
  o.modify code (·.set v)

def setNull (o : Object) (code : Word) : Except Error Object :=
  o.modify code fun a => .ok a.setNull

def clear (o : Object) (code : Word) : Except Error Object :=
  o.modify code fun a => .ok a.clear

def setAll (o : Object) : List (Word × AttributeValue) → Except Error Object
  | [] => .ok o
  | (code, v) :: rest => do (← o.set code v).setAll rest

/-- The native template: the attributes that are present, in order of declaration. -/
def toTemplate (o : Object) : Except Error (List WireAttribute) :=
  Attribute.toTemplate o.attributes

/-- The object after one entry of a native template. An entry that tells the variant must agree. -/
def applyEntry (o : Object) (entry : WireAttribute) : Except Error Object := do
  let a ← o.get entry.type
  let loaded ← a.load entry.value
  if o.variant.isIdentity a.type then
    if loaded = a then return o else throw (.immutableAttribute entry.type)
  else return o.replace loaded

def applyEntries (o : Object) : List WireAttribute → Except Error Object
  | [] => .ok o
  | e :: es => do (← o.applyEntry e).applyEntries es

/-- The template of the variant with what the entries of a native template say. -/
def ofTemplate (v : ObjectVariant) (entries : List WireAttribute) : Except Error Object :=
  (ofVariant v).applyEntries entries

end Object

def Lifecycle.debug : Lifecycle → String
  | .template => "Template"
  | .bound h => "Bound(" ++ Layout.word h ++ ")"
  | .destroyed h => "Destroyed(" ++ Layout.word h ++ ")"

namespace Object

def debug (o : Object) : String :=
  Layout.record "Object" [("variant", o.variant.debug), ("state", o.state.debug),
    ("attributes", Layout.list
      ((o.attributes.filter fun a => a.state ≠ .absent).map Attribute.text))]

def heading (o : Object) : String :=
  o.variant.text ++ match o.state with
    | .template => " (template)"
    | .bound h => " (handle " ++ Layout.word h ++ ")"
    | .destroyed h => " (destroyed, was " ++ Layout.word h ++ ")"

/-- A line for the object and one for each attribute. -/
def text (o : Object) : String :=
  o.heading ++ "\n" ++ String.join (o.attributes.map fun a => "  " ++ a.text ++ "\n")

end Object

end Cryptoki
