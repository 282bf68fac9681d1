import Cryptoki.Session.Action

/-! Signatures, their verification, and digests. -/
namespace Cryptoki.Action

def absorb (absorber : Absorber) (data : Bytes) : Action ω Unit := do
  let here := (← session).handle
  advance absorber.kind false (Talk.request (.absorb absorber here data))

def signFinal : Action ω Bytes := do
  let here := (← session).handle
  advance .sign true (Talk.request (.signFinal here))

/-- A signature that is wrong, or of a wrong length, is a verdict and no failure. -/
def verdict : Except Status Unit → Except Status Bool
  | .ok () => .ok true
  | .error s =>
    if s = Status.signatureInvalid ∨ s = Status.signatureLenRange then .ok false else .error s

def verifyFinal (signature : Bytes) : Action ω Bool := do
  let here := (← session).handle
  advance .verify true (verdict <$> Talk.request (.verifyFinal here signature))

def digestFinal : Action ω Bytes := do
  let here := (← session).handle
  advance .digest true (Talk.request (.digestFinal here))

def sign (key : Object) (data : Bytes) : Action Mechanism Bytes := do
  startWith .sign key
  absorb .sign data
  signFinal

def verify (key : Object) (data signature : Bytes) : Action Mechanism Bool := do
  startWith .verify key
  absorb .verify data
  verifyFinal signature

def digest (data : Bytes) : Action Mechanism Bytes := do
  start .digest none
  absorb .digest data
  digestFinal

end Cryptoki.Action
