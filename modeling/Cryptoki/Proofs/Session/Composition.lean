import Cryptoki.Proofs.Session.History
import Cryptoki.Proofs.Token.Courses

/-! What passes from the parts of an action to the whole of it: proved once for all calls that belong
to no kind of operation. -/
namespace Cryptoki

/-- A talk of one request, of no kind of operation. -/
def Talk.IsAside (t : Talk α) : Prop :=
  ∀ {es a}, t.Goes es a → ∃ e, es = [e] ∧ e.request.kind? = none

theorem Talk.isAside_request {r : Request} (h : r.kind? = none) : (Talk.request r).IsAside := by
  intro es x hgoes
  exact ⟨_, Talk.goes_request.mp hgoes, h⟩

/-- A property that an action has if its parts have it; of the session, the parts may look at all
but its operations. -/
structure Passes (P : ∀ {ω α : Type}, Action ω α → Prop) : Prop where
  lift : ∀ {ω α : Type} (x : Except Error α), P (liftM x : Action ω α)
  bind : ∀ {ω α β : Type} {x : Action ω α} {f : α → Action ω β}, P x → (∀ a, P (f a)) → P (x >>= f)
  session : ∀ {ω β : Type} {f : Session → Action ω β},
    (∀ s os, f { s with operations := os } = f s) → (∀ s, P (f s)) → P (Action.session >>= f)
  subject : ∀ {ω : Type}, P (Action.subject : Action ω ω)
  setSubject : ∀ {ω : Type} (x : ω), P (Action.setSubject x)
  ask : ∀ {ω : Type} {r : Request}, r.kind? = none → P (Action.ask r : Action ω r.Answer)
  useMechanism : ∀ {α : Type} {call : NativeMechanism → Talk (Mechanism.Reply α)},
    (∀ native, (call native).IsAside) → P (Action.useMechanism call)

namespace Passes

open Cryptoki.Action

variable {P : ∀ {ω α : Type}, Action ω α → Prop} {ω α β : Type}

section

variable (h : Passes P)
include h

theorem pure (a : α) : P (pure a : Action ω α) := h.lift (.ok a)

theorem map {x : Action ω α} (f : α → β) (hx : P x) : P (f <$> x) := by
  rw [← bind_pure_comp]
  exact h.bind hx fun a => h.pure (f a)

theorem readAttributes (o : Object) : P (readAttributes o : Action ω Object) := by
  refine h.bind (h.lift _) fun handle => ?_
  refine h.session (fun _ _ => rfl) fun here => ?_
  exact h.bind (h.ask rfl) fun outcome => h.bind (h.lift _) fun readouts => h.lift _

theorem createObject (template : Object) : P (createObject template : Action ω Object) := by
  refine h.bind (h.lift _) fun entries => ?_
  refine h.session (fun _ _ => rfl) fun here => ?_
  refine h.bind (h.ask rfl) fun outcome => ?_
  exact h.bind (h.lift _) fun handle => h.readAttributes _

theorem generateKey (template : Object) : P (generateKey template) := by
  refine h.bind (h.lift _) fun entries => ?_
  refine h.session (fun _ _ => rfl) fun here => ?_
  refine h.bind (h.useMechanism fun native => Talk.isAside_request rfl) fun handle => ?_
  exact h.readAttributes _

theorem generateKeyPair (publicTemplate privateTemplate : Object) :
    P (generateKeyPair publicTemplate privateTemplate) := by
  refine h.bind (h.lift _) fun publicEntries => ?_
  refine h.bind (h.lift _) fun privateEntries => ?_
  refine h.session (fun _ _ => rfl) fun here => ?_
  refine h.bind (h.useMechanism fun native => Talk.isAside_request rfl) fun handles => ?_
  refine h.bind (h.readAttributes _) fun publicKey => ?_
  exact h.bind (h.readAttributes _) fun privateKey => h.pure _

theorem deriveKey (base template : Object) : P (deriveKey base template) := by
  refine h.bind (h.lift _) fun handle => ?_
  refine h.bind (h.lift _) fun entries => ?_
  refine h.session (fun _ _ => rfl) fun here => ?_
  refine h.bind (h.useMechanism fun native => Talk.isAside_request rfl) fun derived => ?_
  cases derived with
  | none => exact h.pure none
  | some handle => exact h.map some (h.readAttributes _)

theorem destroyObject : P destroyObject := by
  refine h.bind h.subject fun o => ?_
  refine h.bind (h.lift _) fun handle => ?_
  refine h.session (fun _ _ => rfl) fun here => ?_
  refine h.bind (h.ask rfl) fun outcome => h.bind (h.lift _) fun _ => ?_
  exact h.bind (h.lift _) fun destroyed => h.setSubject destroyed

theorem refreshObject : P refreshObject := by
  refine h.bind h.subject fun o => ?_
  exact h.bind (h.readAttributes o) fun fresh => h.setSubject fresh

theorem readObject (handle : Handle) : P (readObject handle : Action ω Object) := by
  refine h.session (fun _ _ => rfl) fun here => ?_
  refine h.bind (h.ask rfl) fun outcome => h.bind (h.lift _) fun readouts => ?_
  exact h.bind (h.lift _) fun variant => h.readAttributes _

theorem sessionInfo : P (sessionInfo : Action ω SessionInfo) := by
  refine h.session (fun _ _ => rfl) fun here => ?_
  exact h.bind (h.ask rfl) fun outcome => h.bind (h.lift _) fun native => h.pure _

theorem tokenInfo : P (tokenInfo : Action ω TokenInfo) := by
  refine h.session (fun _ _ => rfl) fun here => ?_
  exact h.bind (h.ask rfl) fun outcome => h.bind (h.lift _) fun native => h.pure _

theorem mechanismInfo (mechanism : Word) :
    P (mechanismInfo mechanism : Action ω MechanismInfo) := by
  refine h.session (fun _ _ => rfl) fun here => ?_
  exact h.bind (h.ask rfl) fun outcome => h.lift _

theorem moduleInfo : P (moduleInfo : Action ω ModuleInfo) :=
  h.bind (h.ask rfl) fun _ => h.bind (h.lift _) fun _ => h.pure _

/-- All calls of no kind of operation have the property. -/
theorem call {call : Call} (hkind : call.kind? = none) : P call.action := by
  cases call with
  | createObject template => exact h.createObject template
  | generateKey _ template => exact h.generateKey template
  | generateKeyPair _ publicTemplate privateTemplate =>
    exact h.generateKeyPair publicTemplate privateTemplate
  | deriveKey _ base template => exact h.deriveKey base template
  | destroyObject _ => exact h.destroyObject
  | refreshObject _ => exact h.refreshObject
  | readObject handle => exact h.readObject handle
  | sessionInfo => exact h.sessionInfo
  | tokenInfo => exact h.tokenInfo
  | mechanismInfo mechanism => exact h.mechanismInfo mechanism
  | moduleInfo => exact h.moduleInfo
  | _ => cases hkind

end

end Passes

end Cryptoki
