import Mathlib.Tactic.MkIffOfInductiveProp
import Cryptoki.Proofs.Attribute.RoundTrip
import Cryptoki.Proofs.Mechanism.Marshalling
import Cryptoki.Proofs.Session.Refusals
import Cryptoki.Token.Script

/-! Calls fail fast: what can be seen to be wrong without the token is refused before it is
asked. -/
namespace Cryptoki

/-- The object is not on the token. -/
inductive Object.Unbound (o : Object) : Error → Prop where
  | template (h : o.state = .template) : Unbound o (.templateWithoutHandle o.variant)
  | destroyed {handle : Handle} (h : o.state = .destroyed handle) : Unbound o (.staleObject handle)

/-- The object has a date with no native form, in an attribute or in an element of one. -/
inductive Object.Misdated (o : Object) : Error → Prop where
  | intro {a b : Attribute} {d : Date} (ha : a ∈ o.attributes) (hb : b ∈ a.kept)
    (hd : b.state = .value (.date d)) (hyear : ¬ (0 ≤ d.year ∧ d.year ≤ 9999)) :
    Misdated o (.invalidAttributeValue b.code (.yearOutOfDate d.year))

/-- The parameters are not those of the mechanism, or the host has no layout for them. -/
inductive Mechanism.Unfit (m : Mechanism) (host : HostLayouts) : Error → Prop where
  | mismatch (h : (expectedParameters m.id).admits m.family? = false) :
    Unfit m host (.parameterMismatch m.id (expectedParameters m.id) m.family?)
  | layout {family : ParameterFamily} (hf : m.family? = some family)
    (h : host.supports family = false) : Unfit m host (.unsupportedInHostRuntime family)

/-- An operation of the kind runs already. -/
inductive Session.Busy (s : Session) (k : OperationKind) : Error → Prop where
  | intro (h : s.phase k = .initialized) : Busy s k (.operationAlreadyActive k)

/-- No operation of the kind runs. -/
inductive Session.Idle (s : Session) (k : OperationKind) : Error → Prop where
  | intro (h : s.phase k ≠ .initialized) : Idle s k (.operationNotActive k)

/-- The buffer ends before the offset. -/
inductive EndsBefore (buffer : Bytes) (offset : Nat) : Error → Prop where
  | intro (h : buffer.length < offset) :
    EndsBefore buffer offset (.invalidParameterLength .outputOffset buffer.length offset)

namespace Call

/-- The objects that have to be on the token for a call. -/
def held : Call → List Object
  | .start _ _ key | .cipherAll _ _ key _ | .sign _ key _ | .verify _ key _ _ => [key]
  | .deriveKey _ base _ => [base]
  | .destroyObject object | .refreshObject object => [object]
  | _ => []

def templates : Call → List Object
  | .createObject template | .generateKey _ template | .deriveKey _ _ template => [template]
  | .generateKeyPair _ publicTemplate privateTemplate => [publicTemplate, privateTemplate]
  | _ => []

def mechanism? : Call → Option Mechanism
  | .start _ mechanism _ | .startDigest mechanism | .cipherAll _ mechanism _ _
  | .sign mechanism _ _ | .verify mechanism _ _ _ | .digest mechanism _ | .generateKey mechanism _
  | .generateKeyPair mechanism _ _ | .deriveKey mechanism _ _ => some mechanism
  | _ => none

/-- The buffer that a call writes to, and the offset that it writes from. -/
def output? : Call → Option (Bytes × Nat)
  | .cipherUpdate _ _ buffer offset | .cipherFinal _ buffer offset => some (buffer, offset)
  | _ => none

/-- What is wrong with a call, as far as the caller and the session can tell. There may be more than
one such fault. -/
@[mk_iff]
inductive Fault (s : Session) (call : Call) (e : Error) : Prop where
  | unbound {o : Object} (ho : o ∈ call.held) (h : o.Unbound e)
  | misdated {o : Object} (ho : o ∈ call.templates) (h : o.Misdated e)
  | unfit {m : Mechanism} (hm : call.mechanism? = some m) (h : m.Unfit s.host e)
  | busy {k : OperationKind} (hk : call.opens? = some k) (h : s.Busy k e)
  | idle {k : OperationKind} (hk : call.continues? = some k) (h : s.Idle k e)
  | beyond {output : Bytes × Nat} (ho : call.output? = some output)
    (h : EndsBefore output.1 output.2 e)

/-- No fault is a status of the token. -/
theorem Fault.status?_eq_none {s : Session} {call : Call} {e : Error} (h : call.Fault s e) :
    e.status? = none := by
  cases h with
  | unbound _ h => cases h <;> rfl
  | misdated _ h => cases h; rfl
  | unfit _ h => cases h <;> rfl
  | busy _ h | idle _ h | beyond _ h => cases h; rfl

end Call

/-- A check for faults: it fails if there are any, and with one of them. -/
structure Checks (P : Error → Prop) (x : Except Error α) : Prop where
  told : ∀ e, x = .error e → P e
  passed : ∀ a, x = .ok a → ∀ e, ¬ P e

theorem Object.checks_liveHandle (o : Object) : Checks o.Unbound o.liveHandle where
  told e h := by
    unfold liveHandle at h
    split at h <;> cases h
    · exact .destroyed ‹_›
    · exact .template ‹_›
  passed handle h e he := by
    unfold liveHandle at h
    cases he with
    | template hs => simp [hs] at h
    | destroyed hs => simp [hs] at h

theorem Mechanism.checks_toNative (m : Mechanism) (host : HostLayouts) :
    Checks (m.Unfit host) (m.toNative host) where
  told e h := by
    rcases toNative_eq_error_iff.mp h with ⟨hmismatch, rfl⟩ | ⟨-, family, hf, hlacks, rfl⟩
    · exact .mismatch hmismatch
    · exact .layout hf hlacks
  passed native h e he := by
    have hnone : ∀ f, m.toNative host ≠ .error f := by simp [h]
    cases hadmits : (expectedParameters m.id).admits m.family? with
    | false => exact hnone _ (toNative_eq_error_iff.mpr (.inl ⟨hadmits, rfl⟩))
    | true =>
      cases he with
      | mismatch hmismatch => simp [hadmits] at hmismatch
      | layout hf hlacks =>
        exact hnone _ (toNative_eq_error_iff.mpr (.inr ⟨hadmits, _, hf, hlacks, rfl⟩))

theorem Object.checks_toTemplate (o : Object) : Checks o.Misdated o.toTemplate where
  told e h := by
    have hfirst : (Attribute.keptList o.attributes).findSome? Attribute.dateFault? = some e := by
      rw [← Attribute.failure?_toTemplate]
      exact Outcome.failure?_eq_some_iff.mpr h
    obtain ⟨b, hb, hfault⟩ := List.exists_of_findSome?_eq_some hfirst
    obtain ⟨a, ha, hkept⟩ := Attribute.mem_keptList.mp hb
    obtain ⟨d, hd, hyear, rfl⟩ := Attribute.dateFault?_eq_some_iff.mp hfault
    exact .intro ha hkept hd hyear
  passed entries h e he := by
    obtain ⟨ha, hb, hd, hyear⟩ := he
    have hnone : (Attribute.keptList o.attributes).findSome? Attribute.dateFault? = none := by
      rw [← Attribute.failure?_toTemplate]
      exact Outcome.failure?_eq_none_iff.mpr ⟨entries, h⟩
    have hfits := List.findSome?_eq_none_iff.mp hnone _ (Attribute.mem_keptList.mpr ⟨_, ha, hb⟩)
    simp [Attribute.dateFault?_of_not_fits hd hyear] at hfits

namespace Action

variable {ω α β : Type} {P Q : Error → Prop} {scene : Scene ω}

/-- The action screens its scene for faults: if there are any, it fails at once with one of them; if
there are none, it asks the token. -/
def Screens (P : Error → Prop) (action : Action ω α) (scene : Scene ω) : Prop :=
  ∀ ⦃es : List Exchange⦄ ⦃outcome : Except Error α⦄ ⦃after : Scene ω⦄,
    action.Goes scene es outcome after →
      (∃ e, P e ∧ es = [] ∧ outcome = .error e ∧ after = scene) ∨ (∀ e, ¬ P e) ∧ es ≠ []

theorem Screens.congr {action : Action ω α} (h : Screens P action scene) (hPQ : ∀ e, P e ↔ Q e) :
    Screens Q action scene := by
  rwa [← funext fun e => propext (hPQ e)]

theorem Screens.bind {x : Action ω α} (hx : Screens P x scene) (f : α → Action ω β) :
    Screens P (x >>= f) scene := by
  intro es outcome after hgoes
  rcases goes_bind.mp hgoes with ⟨e, he, rfl⟩ | ⟨a, mid, before, rest, rfl, ha, -⟩
  · rcases hx he with ⟨e', hfault, rfl, herror, rfl⟩ | hasked
    · cases herror
      exact .inl ⟨e, hfault, rfl, rfl, rfl⟩
    · exact .inr hasked
  · rcases hx ha with ⟨e, -, -, he, -⟩ | ⟨hnone, hasked⟩
    · cases he
    · exact .inr ⟨hnone, by simp [hasked]⟩

theorem screens_bind_lift {x : Except Error α} {f : α → Action ω β} (hx : Checks P x)
    (hf : ∀ a, Screens Q (f a) scene) :
    Screens (fun e => P e ∨ Q e) (liftM x >>= f : Action ω β) scene := by
  intro es outcome after hgoes
  rcases goes_bind_lift.mp hgoes with ⟨e, he, rfl, rfl, rfl⟩ | ⟨a, ha, hrest⟩
  · exact .inl ⟨e, .inl (hx.told e he), rfl, rfl, rfl⟩
  · rcases hf a hrest with ⟨e, he, hsilent⟩ | ⟨hnone, hasked⟩
    · exact .inl ⟨e, .inr he, hsilent⟩
    · exact .inr ⟨fun e => not_or.mpr ⟨hx.passed a ha e, hnone e⟩, hasked⟩

theorem screens_session {f : Session → Action ω β} (hf : Screens P (f scene.session) scene) :
    Screens P (session >>= f) scene := by
  intro es outcome after hgoes
  exact hf ((goes_bind_silent rfl).mp hgoes)

theorem screens_subject {f : ω → Action ω β} (hf : Screens P (f scene.subject) scene) :
    Screens P (subject >>= f) scene := by
  intro es outcome after hgoes
  exact hf ((goes_bind_silent rfl).mp hgoes)

theorem screens_bind_ask {r : Request} {f : r.Answer → Action ω β} :
    Screens (fun _ => False) (ask r >>= f) scene := by
  intro es outcome after hgoes
  obtain ⟨x, rest, rfl, -⟩ := goes_bind_ask.mp hgoes
  exact .inr ⟨fun _ => id, by simp⟩

/-- A talk that asks at all. -/
def Asking (t : Talk α) : Prop := ∀ ⦃es a⦄, t.Goes es a → es ≠ []

theorem asking_request (r : Request) : Asking (Talk.request r) := by
  intro es x hgoes
  obtain rfl := Talk.goes_request.mp hgoes
  simp

theorem screens_useMechanism {scene : Scene Mechanism}
    {call : NativeMechanism → Talk (Mechanism.Reply α)} (hcall : ∀ native, Asking (call native)) :
    Screens (scene.subject.Unfit scene.session.host) (useMechanism call) scene := by
  have hchecks := scene.subject.checks_toNative scene.session.host
  intro es outcome after hgoes
  obtain ⟨m, huse, rfl⟩ := useMechanism_cases hgoes
  rcases use_cases huse with ⟨e, he, rfl, hr⟩ | ⟨native, reply, hnative, htalk, -⟩
  · cases hr
    exact .inl ⟨e, hchecks.told e he, rfl, rfl, rfl⟩
  · exact .inr ⟨hchecks.passed native hnative, hcall native htalk⟩

theorem screens_start {scene : Scene Mechanism} (k : OperationKind) (key : Option Handle) :
    Screens (fun e => scene.subject.Unfit scene.session.host e ∨ scene.session.Busy k e)
      (start k key) scene := by
  have hchecks := scene.subject.checks_toNative scene.session.host
  intro es outcome after hgoes
  rcases start_cases hgoes with
    ⟨hactive, rfl, rfl, rfl⟩ | ⟨hidle, ⟨e, he, rfl, rfl, rfl⟩ | ⟨native, reply, hnative, rfl, -⟩⟩
  · exact .inl ⟨_, .inr ⟨Session.phase_eq_initialized_iff.mpr hactive⟩, rfl, rfl, rfl⟩
  · exact .inl ⟨e, .inl (hchecks.told e he), rfl, rfl, rfl⟩
  · refine .inr ⟨fun e => not_or.mpr ⟨hchecks.passed native hnative e, ?_⟩, by simp⟩
    rintro ⟨hruns⟩
    simp [Session.phase_eq_initialized_iff.mp hruns] at hidle

theorem screens_startWith {scene : Scene Mechanism} (k : OperationKind) (key : Object) :
    Screens (fun e => key.Unbound e ∨ scene.subject.Unfit scene.session.host e ∨
      scene.session.Busy k e) (startWith k key) scene :=
  screens_bind_lift key.checks_liveHandle fun handle => screens_start k (some handle)

theorem screens_advance {k : OperationKind} {last : Bool} {t : Talk (Except Status α)}
    (ht : Asking t) :
    Screens (scene.session.Idle k) (advance k last (liftM t) : Action ω α) scene := by
  intro es outcome after hgoes
  rcases advance_cases hgoes with ⟨hidle, rfl, rfl, rfl⟩ | ⟨hactive, r, mid, hcall, -⟩
  · exact .inl ⟨_, ⟨by simp [Session.phase_eq_initialized_iff, hidle]⟩, rfl, rfl, rfl⟩
  · refine .inr ⟨?_, ht (goes_lifted.mp hcall).1⟩
    rintro e ⟨hover⟩
    exact hover (Session.phase_eq_initialized_iff.mpr hactive)

theorem screens_writeFrom {direction : Direction} {last : Bool} {offset : Nat}
    {call : Handle → Bytes → Talk Delivery} {scene : Scene Bytes}
    (hcall : ∀ here window, Asking (call here window)) :
    Screens (fun e => scene.session.Idle direction.kind e ∨ EndsBefore scene.subject offset e)
      (writeFrom direction last offset call) scene := by
  intro es outcome after hgoes
  rcases writeFrom_cases hgoes with ⟨hbeyond, rfl, rfl, rfl⟩ | ⟨-, hidle, rfl, rfl, rfl⟩ |
    ⟨hwithin, hactive, delivery, settled, htalk, -⟩
  · exact .inl ⟨_, .inr ⟨hbeyond⟩, rfl, rfl, rfl⟩
  · exact .inl ⟨_, .inl ⟨by simp [Session.phase_eq_initialized_iff, hidle]⟩, rfl, rfl, rfl⟩
  · refine .inr ⟨?_, hcall _ _ htalk⟩
    rintro e (hover | hbeyond)
    · cases hover with
      | intro hover => exact hover (Session.phase_eq_initialized_iff.mpr hactive)
    · cases hbeyond with
      | intro hbeyond => omega

theorem screens_cipherUpdate {direction : Direction} (input : Bytes) {offset : Nat}
    {scene : Scene Bytes} :
    Screens (fun e => scene.session.Idle direction.kind e ∨ EndsBefore scene.subject offset e)
      (cipherUpdate direction input offset) scene :=
  screens_writeFrom fun _ _ => asking_request _

theorem screens_cipherFinal {direction : Direction} {offset : Nat} {scene : Scene Bytes} :
    Screens (fun e => scene.session.Idle direction.kind e ∨ EndsBefore scene.subject offset e)
      (cipherFinal direction offset) scene :=
  screens_writeFrom fun _ _ => asking_request _

theorem screens_absorb (absorber : Absorber) (data : Bytes) :
    Screens (scene.session.Idle absorber.kind) (absorb absorber data : Action ω Unit) scene :=
  screens_session (screens_advance (asking_request _))

theorem screens_signFinal : Screens (scene.session.Idle .sign) (signFinal : Action ω Bytes) scene :=
  screens_session (screens_advance (asking_request _))

theorem screens_digestFinal :
    Screens (scene.session.Idle .digest) (digestFinal : Action ω Bytes) scene :=
  screens_session (screens_advance (asking_request _))

theorem screens_verifyFinal (signature : Bytes) :
    Screens (scene.session.Idle .verify) (verifyFinal signature : Action ω Bool) scene := by
  have hasking : ∀ here, Asking (verdict <$> Talk.request (.verifyFinal here signature)) := by
    intro here es r hgoes
    obtain ⟨x, hx, -⟩ := Talk.goes_map.mp hgoes
    exact asking_request _ hx
  exact screens_session (screens_advance (hasking scene.session.handle))

theorem screens_readAttributes (o : Object) :
    Screens (fun e => o.Unbound e ∨ False) (readAttributes o : Action ω Object) scene :=
  screens_bind_lift o.checks_liveHandle fun _ => screens_session screens_bind_ask

theorem screens_refreshObject {scene : Scene Object} :
    Screens (fun e => scene.subject.Unbound e ∨ False) refreshObject scene :=
  screens_subject ((screens_readAttributes scene.subject).bind _)

theorem screens_destroyObject {scene : Scene Object} :
    Screens (fun e => scene.subject.Unbound e ∨ False) destroyObject scene :=
  screens_subject (screens_bind_lift scene.subject.checks_liveHandle fun _ =>
    screens_session screens_bind_ask)

theorem screens_createObject (template : Object) :
    Screens (fun e => template.Misdated e ∨ False) (createObject template : Action ω Object)
      scene :=
  screens_bind_lift template.checks_toTemplate fun _ => screens_session screens_bind_ask

section Mechanism

variable {scene : Scene Mechanism}

theorem screens_generateKey (template : Object) :
    Screens (fun e => template.Misdated e ∨ scene.subject.Unfit scene.session.host e)
      (generateKey template) scene := by
  refine screens_bind_lift template.checks_toTemplate fun entries => screens_session ?_
  exact (screens_useMechanism fun _ => asking_request _).bind _

theorem screens_generateKeyPair (publicTemplate privateTemplate : Object) :
    Screens (fun e => publicTemplate.Misdated e ∨ privateTemplate.Misdated e ∨
        scene.subject.Unfit scene.session.host e)
      (generateKeyPair publicTemplate privateTemplate) scene := by
  refine screens_bind_lift publicTemplate.checks_toTemplate fun publicEntries => ?_
  refine screens_bind_lift privateTemplate.checks_toTemplate fun privateEntries => ?_
  exact screens_session ((screens_useMechanism fun _ => asking_request _).bind _)

theorem screens_deriveKey (base template : Object) :
    Screens (fun e => base.Unbound e ∨ template.Misdated e ∨
        scene.subject.Unfit scene.session.host e)
      (deriveKey base template) scene := by
  refine screens_bind_lift base.checks_liveHandle fun handle => ?_
  refine screens_bind_lift template.checks_toTemplate fun entries => ?_
  exact screens_session ((screens_useMechanism fun _ => asking_request _).bind _)

end Mechanism

end Action

namespace Call

open Cryptoki.Action

variable {s : Session} {call : Call}

attribute [local simp] fault_iff held templates mechanism? opens? continues? output? subject

/-- Each call that may talk to the token screens for its faults before it does. -/
theorem screens (hcall : ∀ k, call ≠ .reset k) :
    Screens (call.Fault s) call.action ⟨s, call.subject⟩ := by
  cases call with
  | start kind mechanism key => exact (screens_startWith kind key).congr (by simp)
  | startDigest mechanism => exact (screens_start .digest none).congr (by simp)
  | cipherUpdate direction input buffer offset =>
    exact (screens_cipherUpdate input).congr (by simp)
  | cipherFinal direction buffer offset => exact screens_cipherFinal.congr (by simp)
  | cipherAll direction mechanism key data =>
    exact ((screens_startWith direction.kind key).bind _).congr (by simp)
  | absorb absorber data => exact (screens_absorb absorber data).congr (by simp)
  | signFinal => exact screens_signFinal.congr (by simp)
  | verifyFinal signature => exact (screens_verifyFinal signature).congr (by simp)
  | digestFinal => exact screens_digestFinal.congr (by simp)
  | sign mechanism key data => exact ((screens_startWith .sign key).bind _).congr (by simp)
  | verify mechanism key data signature =>
    exact ((screens_startWith .verify key).bind _).congr (by simp)
  | digest mechanism data => exact ((screens_start .digest none).bind _).congr (by simp)
  | reset k => exact absurd rfl (hcall k)
  | createObject template => exact (screens_createObject template).congr (by simp)
  | generateKey mechanism template => exact (screens_generateKey template).congr (by simp)
  | generateKeyPair mechanism publicTemplate privateTemplate =>
    exact (screens_generateKeyPair publicTemplate privateTemplate).congr (by simp [or_assoc])
  | deriveKey mechanism base template => exact (screens_deriveKey base template).congr (by simp)
  | destroyObject object => exact screens_destroyObject.congr (by simp)
  | refreshObject object => exact screens_refreshObject.congr (by simp)
  | readObject handle => exact (screens_session screens_bind_ask).congr (by simp)
  | sessionInfo => exact (screens_session screens_bind_ask).congr (by simp)
  | tokenInfo => exact (screens_session screens_bind_ask).congr (by simp)
  | mechanismInfo mechanism => exact (screens_session screens_bind_ask).congr (by simp)
  | moduleInfo => exact screens_bind_ask.congr (by simp)

/-- A call with a fault fails with it, or with another one that it has, and not with a status of the
token, which is never asked. Nothing is changed by it: no operation of the session, and nothing that
the caller lent it. -/
theorem fails_fast (token : Token σ) (t : σ) {e : Error} (h : call.Fault s e) :
    ∃ f, call.Fault s f ∧ f.status? = none ∧
      call.run token s t = ((.error f, ⟨s, call.subject⟩), [], t) := by
  have hcall : ∀ k, call ≠ .reset k := by
    rintro k rfl
    simp at h
  obtain ⟨⟨⟨outcome, after⟩, es, u⟩, hrun⟩ : ∃ r, call.run token s t = r := ⟨_, rfl⟩
  obtain ⟨hgoes, hanswers⟩ := Talk.run_eq_iff.mp hrun
  rcases screens hcall hgoes with ⟨f, hf, rfl, rfl, rfl⟩ | ⟨hnone, -⟩
  · obtain rfl := hanswers
    exact ⟨f, hf, hf.status?_eq_none, hrun⟩
  · exact absurd h (hnone e)

theorem fails_fast_derivation : ∃ f,
    (Call.deriveKey ⟨0x1087, none⟩ ⟨.secretKey .aes, .destroyed 9, []⟩
        (.ofVariant (.secretKey .aes))).run Script.token (.ofHandle 1 0 .standard .full) [] =
      ((.error f, ⟨.ofHandle 1 0 .standard .full, ⟨0x1087, none⟩⟩), [], []) ∧
    f.status? = none := by
  have hfault : Fault (.ofHandle 1 0 .standard .full)
      (.deriveKey ⟨0x1087, none⟩ ⟨.secretKey .aes, .destroyed 9, []⟩ (.ofVariant (.secretKey .aes)))
      (.parameterMismatch 0x1087 (expectedParameters 0x1087) none) :=
    .unfit rfl (.mismatch (by decide))
  obtain ⟨f, -, hlocal, hrun⟩ := fails_fast Script.token [] hfault
  exact ⟨f, hrun, hlocal⟩

/-- The faults are all that keeps a call from the token. -/
theorem asks_of_no_fault (token : Token σ) (t : σ) (hcall : ∀ k, call ≠ .reset k)
    (h : ∀ e, ¬ call.Fault s e) : (call.run token s t).2.1 ≠ [] := by
  obtain ⟨⟨⟨outcome, after⟩, es, u⟩, hrun⟩ : ∃ r, call.run token s t = r := ⟨_, rfl⟩
  rw [hrun]
  rcases screens hcall (Talk.run_eq_iff.mp hrun).1 with ⟨f, hf, -⟩ | ⟨-, hasked⟩
  · exact absurd hf (h f)
  · exact hasked

end Call

end Cryptoki
