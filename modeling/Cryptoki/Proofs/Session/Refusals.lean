import Cryptoki.Proofs.Outcome
import Cryptoki.Proofs.Session.Courses
import Cryptoki.Session.Call

/-! Calls that are refused locally: the token is not asked, and nothing is changed. -/
namespace Cryptoki

/-- Why an object is no key for the token. -/
def Object.fault? (o : Object) : Option Error := Outcome.failure? o.liveHandle

/-- Why there is no window in a buffer from an offset on. -/
def offsetFault? (buffer : Bytes) (offset : Nat) : Option Error :=
  if buffer.length < offset then
    some (.invalidParameterLength .outputOffset buffer.length offset)
  else none

namespace Action

variable {ω α β : Type} {scene : Scene ω} {e : Error} {k : OperationKind}

/-- The action fails at once with the error. -/
def Refuses (action : Action ω α) (scene : Scene ω) (e : Error) : Prop :=
  ∀ es outcome after, action.Goes scene es outcome after →
    es = [] ∧ outcome = .error e ∧ after = scene

theorem Refuses.run {action : Action ω α} (h : action.Refuses scene e) (token : Token σ) (t : σ) :
    (action.perform scene.session scene.subject).run token t = ((.error e, scene), [], t) := by
  obtain ⟨⟨⟨outcome, after⟩, es, u⟩, hrun⟩ :
      ∃ r, (action.perform scene.session scene.subject).run token t = r := ⟨_, rfl⟩
  obtain ⟨hgoes, hanswers⟩ := Talk.run_eq_iff.mp hrun
  obtain ⟨rfl, rfl, rfl⟩ := h _ _ _ hgoes
  obtain rfl := hanswers
  exact hrun

theorem Refuses.bind {x : Action ω α} (h : x.Refuses scene e) (f : α → Action ω β) :
    (x >>= f).Refuses scene e := by
  intro es outcome after hgoes
  obtain ⟨e', hx, rfl⟩ | ⟨a, mid, before, rest, -, hx, -⟩ := goes_bind.mp hgoes
  · obtain ⟨rfl, he, rfl⟩ := h _ _ _ hx
    cases he
    exact ⟨rfl, rfl, rfl⟩
  · obtain ⟨-, ha, -⟩ := h _ _ _ hx
    cases ha

theorem Refuses.session {f : Session → Action ω α} (h : (f scene.session).Refuses scene e) :
    (session >>= f).Refuses scene e := by
  intro es outcome after hgoes
  exact h _ _ _ ((goes_bind_silent rfl).mp hgoes)

theorem start_refuses {scene : Scene Mechanism} (key : Option Handle)
    (hactive : (scene.session.operation k).isActive = true) :
    (start k key).Refuses scene (.operationAlreadyActive k) := by
  intro es outcome after hgoes
  obtain ⟨-, hsilent⟩ | ⟨hidle, -⟩ := start_cases hgoes
  · exact hsilent
  · simp [hactive] at hidle

theorem startWith_refuses {scene : Scene Mechanism} (key : Object)
    (hactive : (scene.session.operation k).isActive = true) :
    (startWith k key).Refuses scene (key.fault?.getD (.operationAlreadyActive k)) := by
  intro es outcome after hgoes
  obtain ⟨e, hkey, rfl, rfl, rfl⟩ | ⟨handle, hkey, hstart⟩ := startWith_cases hgoes
  · simp [Object.fault?, hkey]
  · simpa [Object.fault?, hkey] using start_refuses (some handle) hactive _ _ _ hstart

theorem advance_refuses {last : Bool} {call : StateT (Scene ω) Talk (Except Status α)}
    (hidle : (scene.session.operation k).isActive = false) :
    (advance k last call).Refuses scene (.operationNotActive k) := by
  intro es outcome after hgoes
  obtain ⟨-, hsilent⟩ | ⟨hactive, -⟩ := advance_cases hgoes
  · exact hsilent
  · simp [hidle] at hactive

theorem writeFrom_refuses {direction : Direction} {last : Bool} {offset : Nat}
    {call : Handle → Bytes → Talk Delivery} {scene : Scene Bytes}
    (hidle : (scene.session.operation direction.kind).isActive = false) :
    (writeFrom direction last offset call).Refuses scene
      ((offsetFault? scene.subject offset).getD (.operationNotActive direction.kind)) := by
  intro es outcome after hgoes
  obtain ⟨hoffset, hsilent⟩ | ⟨hoffset, -, hsilent⟩ | ⟨-, hactive, -⟩ := writeFrom_cases hgoes
  · simpa [offsetFault?, hoffset] using hsilent
  · simpa [offsetFault?, Nat.not_lt.mpr hoffset] using hsilent
  · simp [hidle] at hactive

section Write

variable {direction : Direction} {here : Session} {buffer : Bytes} {offset : Nat}
  (hidle : (here.operation direction.kind).isActive = false)
include hidle

theorem cipherUpdate_refuses (input : Bytes) :
    (cipherUpdate direction input offset).Refuses ⟨here, buffer⟩
      ((offsetFault? buffer offset).getD (.operationNotActive direction.kind)) :=
  writeFrom_refuses hidle

theorem cipherFinal_refuses :
    (cipherFinal direction offset).Refuses ⟨here, buffer⟩
      ((offsetFault? buffer offset).getD (.operationNotActive direction.kind)) :=
  writeFrom_refuses hidle

end Write

end Action

namespace Call

/-- The kind of operation that a call begins. -/
def opens? : Call → Option OperationKind
  | .start kind _ _ => some kind
  | .cipherAll direction _ _ _ => some direction.kind
  | .sign _ _ _ => some .sign
  | .verify _ _ _ _ => some .verify
  | .startDigest _ | .digest _ _ => some .digest
  | _ => none

/-- The kind of operation that has to run for a call. -/
def continues? : Call → Option OperationKind
  | .cipherUpdate direction _ _ _ | .cipherFinal direction _ _ => some direction.kind
  | .absorb absorber _ => some absorber.kind
  | .signFinal => some .sign
  | .verifyFinal _ => some .verify
  | .digestFinal => some .digest
  | _ => none

/-- What a call is refused for before the operations of the session are looked at. -/
def fault? : Call → Option Error
  | .start _ _ key | .cipherAll _ _ key _ | .sign _ key _ | .verify _ key _ _ => key.fault?
  | .cipherUpdate _ _ buffer offset | .cipherFinal _ buffer offset => offsetFault? buffer offset
  | _ => none

variable {call : Call} {k : OperationKind} {s : Session}

theorem refuses_opening (hk : call.opens? = some k) (hactive : (s.operation k).isActive = true) :
    call.action.Refuses ⟨s, call.subject⟩ (call.fault?.getD (.operationAlreadyActive k)) := by
  cases call <;> cases hk
  case start key => exact Action.startWith_refuses key hactive
  case startDigest => exact Action.start_refuses none hactive
  case cipherAll key data => exact .bind (Action.startWith_refuses key hactive) _
  case sign key data => exact .bind (Action.startWith_refuses key hactive) _
  case verify key data signature => exact .bind (Action.startWith_refuses key hactive) _
  case digest => exact .bind (Action.start_refuses none hactive) _

theorem refuses_continuing (hk : call.continues? = some k)
    (hidle : (s.operation k).isActive = false) :
    call.action.Refuses ⟨s, call.subject⟩ (call.fault?.getD (.operationNotActive k)) := by
  cases call with
  | cipherUpdate direction input buffer offset =>
    cases hk
    exact Action.cipherUpdate_refuses hidle input
  | cipherFinal direction buffer offset =>
    cases hk
    exact Action.cipherFinal_refuses hidle
  | absorb absorber data =>
    cases hk
    exact .session (Action.advance_refuses hidle)
  | signFinal =>
    cases hk
    exact .session (Action.advance_refuses hidle)
  | verifyFinal signature =>
    cases hk
    exact .session (Action.advance_refuses hidle)
  | digestFinal =>
    cases hk
    exact .session (Action.advance_refuses hidle)
  | _ => cases hk

end Call

end Cryptoki
