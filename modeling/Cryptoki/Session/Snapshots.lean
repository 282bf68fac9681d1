import Cryptoki.Session.Action

/-! Asking the token about the session, itself, its mechanisms and its module. -/
namespace Cryptoki.Action

def sessionInfo : Action ω SessionInfo := do
  let native ← accepted (← ask (.sessionInfo (← session).handle))
  return .ofNative native

def tokenInfo : Action ω TokenInfo := do
  let native ← accepted (← ask (.tokenInfo (← session).slot))
  return .ofNative native

def mechanismInfo (mechanism : Word) : Action ω MechanismInfo := do
  accepted (← ask (.mechanismInfo (← session).slot mechanism))

def moduleInfo : Action ω ModuleInfo := do
  let native ← accepted (← ask .moduleInfo)
  return .ofNative native

end Cryptoki.Action
