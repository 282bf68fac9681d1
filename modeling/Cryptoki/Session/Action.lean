import Cryptoki.Session.Basic
import Cryptoki.Token.Talk

/-! What can be done in a session: actions talk to the token, change the operations of the session
and one value of the caller, and may fail. What was changed before a failure stays changed. -/
namespace Cryptoki

/-- A session, and the value of the caller that an action works on: a mechanism, an object or a
buffer for output. -/
structure Scene (ω : Type) where
  session : Session
  subject : ω

abbrev Action (ω α : Type) := ExceptT Error (StateT (Scene ω) Talk) α

namespace Action

def perform (action : Action ω α) (session : Session) (subject : ω) :
    Talk (Except Error α × Scene ω) :=
  action.run.run ⟨session, subject⟩

def session : Action ω Session := do return (← get).session

def subject : Action ω ω := do return (← get).subject

def setSubject (x : ω) : Action ω Unit := modify fun scene => { scene with subject := x }

def ask (r : Request) : Action ω r.Answer :=
  liftM (Talk.request r)

/-- The answer of a call that was accepted. -/
def accepted (outcome : Except Status α) : Except Error α :=
  outcome.mapError .deviceStatus

@[simp]
theorem accepted_ok (a : α) : accepted (.ok a) = .ok a := rfl

@[simp]
theorem accepted_error (status : Status) :
    (accepted (.error status) : Except Error α) = .error (.deviceStatus status) := rfl

def setOperation (kind : OperationKind) (o : Operation) : Action ω Unit :=
  modify fun scene => { scene with session := scene.session.withOperation kind o }

def abandon (kind : OperationKind) : Action ω Unit := do
  setOperation kind ((← session).operation kind).abandon

/-- Forgets an operation, running or not. The token is not told. -/
def reset (kind : OperationKind) : Action ω Unit :=
  setOperation kind .uninitialized

/-- A call of a running operation. -/
def advance (kind : OperationKind) (last : Bool)
    (call : StateT (Scene ω) Talk (Except Status α)) : Action ω α := ExceptT.mk do
  let o := (← get).session.operation kind
  let (outcome, o) ← o.advance kind last call
  modify fun scene => { scene with session := scene.session.withOperation kind o }
  return outcome

/-- Begins an operation with the mechanism that the action works on. -/
def start (kind : OperationKind) (key : Option Handle) : Action Mechanism Unit := ExceptT.mk do
  let ⟨session, mechanism⟩ ← get
  let (outcome, o, mechanism) ←
    (session.operation kind).start kind mechanism key session.host fun native =>
      liftM (Talk.request (.start kind session.handle native key))
  set (Scene.mk (session.withOperation kind o) mechanism)
  return outcome

/-- Begins an operation with an object as its key, which has to be on the token. -/
def startWith (kind : OperationKind) (key : Object) : Action Mechanism Unit := do
  start kind (some (← key.liveHandle))

/-- A call with the mechanism that the action works on. -/
def useMechanism (call : NativeMechanism → Talk (Mechanism.Reply α)) : Action Mechanism α :=
  ExceptT.mk do
    let ⟨session, mechanism⟩ ← get
    let (outcome, mechanism) ← mechanism.use session.host fun native => liftM (call native)
    set (Scene.mk session mechanism)
    return outcome

/-- An action on another value, which it gives back if it succeeds. -/
def on (x : π) (action : Action π α) : Action ω (α × π) := ExceptT.mk do
  let ⟨session, subject⟩ ← get
  let (outcome, scene) ← action.perform session x
  set (Scene.mk scene.session subject)
  return outcome.map (·, scene.subject)

end Action

end Cryptoki
