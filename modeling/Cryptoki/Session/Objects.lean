import Cryptoki.Session.Action

/-! Objects on the token: creating, generating, deriving, reading and destroying them. Templates are
encoded, and mechanisms marshalled, before the token is called. -/
namespace Cryptoki.Action

/-- The attributes of a bound object, read in one call. -/
def readAttributes (o : Object) : Action ω Object := do
  let handle ← o.liveHandle
  let types := o.attributes.map Attribute.code
  let readouts ← accepted (← ask (.readAttributes (← session).handle handle types))
  o.refresh readouts

/-- The object of the variant under a new handle, as the token has it. -/
def adopt (variant : ObjectVariant) (handle : Handle) : Action ω Object :=
  readAttributes (.ofHandle variant handle)

def createObject (template : Object) : Action ω Object := do
  let entries ← template.toTemplate
  let handle ← accepted (← ask (.createObject (← session).handle entries))
  adopt template.variant handle

def generateKey (template : Object) : Action Mechanism Object := do
  let entries ← template.toTemplate
  let here := (← session).handle
  let handle ← useMechanism fun native => Talk.request (.generateKey here native entries)
  adopt template.variant handle

structure KeyPair where
  publicKey : Object
  privateKey : Object

def generateKeyPair (publicTemplate privateTemplate : Object) : Action Mechanism KeyPair := do
  let publicEntries ← publicTemplate.toTemplate
  let privateEntries ← privateTemplate.toTemplate
  let here := (← session).handle
  let (publicHandle, privateHandle) ← useMechanism fun native =>
    Talk.request (.generateKeyPair here native publicEntries privateEntries)
  let publicKey ← adopt publicTemplate.variant publicHandle
  let privateKey ← adopt privateTemplate.variant privateHandle
  return ⟨publicKey, privateKey⟩

/-- No key comes back from mechanisms that return their keys through their parameters. -/
def deriveKey (base template : Object) : Action Mechanism (Option Object) := do
  let baseHandle ← base.liveHandle
  let entries ← template.toTemplate
  let here := (← session).handle
  let derived ← useMechanism fun native =>
    Talk.request (.deriveKey here native baseHandle entries)
  match derived with
  | some handle => some <$> adopt template.variant handle
  | none => return none

/-- The object that the action works on is destroyed on the token, and remembers it. -/
def destroyObject : Action Object Unit := do
  let o ← subject
  let handle ← o.liveHandle
  accepted (← ask (.destroyObject (← session).handle handle))
  setSubject (← o.markDestroyed)

def refreshObject : Action Object Unit := do
  setSubject (← readAttributes (← subject))

/-- The object under a handle: what tells its variant is read first, then all its attributes. -/
def readObject (handle : Handle) : Action ω Object := do
  let types := Object.identityTypes.map AttributeType.code
  let readouts ← accepted (← ask (.readAttributes (← session).handle handle types))
  adopt (← Object.identify readouts) handle

end Cryptoki.Action
