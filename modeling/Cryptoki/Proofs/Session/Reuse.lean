import Cryptoki.Proofs.Mechanism.Reflection
import Cryptoki.Proofs.Session.Objects
import Mathlib.Logic.Relation

/-! A mechanism that is used again and again: each call sends it once, if at all, and keeps of the
reply what is returned. -/
namespace Cryptoki

/-- The calls that send the mechanism that they are lent, one for each role of a mechanism. -/
inductive MechanismUse where
  | start (kind : OperationKind) (key : Object)
  | startDigest
  | generateKey (template : Object)
  | generateKeyPair (publicTemplate privateTemplate : Object)
  | deriveKey (base template : Object)

namespace MechanismUse

@[reducible]
def Result : MechanismUse → Type
  | .start _ _ | .startDigest => Unit
  | .generateKey _ => Object
  | .generateKeyPair _ _ => Action.KeyPair
  | .deriveKey _ _ => Option Object

def action : (use : MechanismUse) → Action Mechanism use.Result
  | .start kind key => Action.startWith kind key
  | .startDigest => Action.start .digest none
  | .generateKey template => Action.generateKey template
  | .generateKeyPair publicTemplate privateTemplate =>
    Action.generateKeyPair publicTemplate privateTemplate
  | .deriveKey base template => Action.deriveKey base template

end MechanismUse

/-- The mechanism that a request sends, with what the token replies. -/
def Exchange.sent? : Exchange → Option (NativeMechanism × MechanismReply)
  | ⟨.start _ _ native _, reply⟩ => some (native, reply.toMechanism)
  | ⟨.generateKey _ native _, reply⟩ => some (native, reply.toMechanism)
  | ⟨.generateKeyPair _ native _ _, reply⟩ => some (native, reply.toMechanism)
  | ⟨.deriveKey _ native _ _, reply⟩ => some (native, reply.toMechanism)
  | _ => none

/-- Through a mechanism the token writes what is returned, and nothing else. -/
def Exchange.WritesOutputs (e : Exchange) : Prop :=
  ∀ native reply, e.sent? = some (native, reply) → reply.write.inputs = .none

namespace Action

variable {α β : Type} {es : List Exchange} {scene after : Scene Mechanism}

/-- The mechanism was sent with the first request and with no other, and the reply to it tells what
became of it; or nothing was sent, and the action failed. -/
def Sent (m : Mechanism) (es : List Exchange) (outcome : Except Error α) (m' : Mechanism) : Prop :=
  (es = [] ∧ m' = m ∧ ∃ e, outcome = .error e) ∨
    ∃ first rest reply, es = first :: rest ∧ first.sent? = some (m.nativeForm, reply) ∧
      (∀ e ∈ rest, e.sent? = none) ∧ m' = m.answered reply

def Sends (action : Action Mechanism α) : Prop :=
  ∀ {scene after : Scene Mechanism} {es : List Exchange} {outcome : Except Error α},
    action.Goes scene es outcome after → Sent scene.subject es outcome after.subject

/-- The action leaves the mechanism alone and sends none. -/
def Quiet (action : Action Mechanism α) : Prop :=
  ∀ {scene after : Scene Mechanism} {es : List Exchange} {outcome : Except Error α},
    action.Goes scene es outcome after →
      after.subject = scene.subject ∧ ∀ e ∈ es, e.sent? = none

theorem quiet_pure (a : α) : Quiet (pure a : Action Mechanism α) := by
  intro scene after es outcome h
  obtain ⟨rfl, -, rfl⟩ := goes_pure.mp h
  exact ⟨rfl, by simp⟩

theorem quiet_bind {x : Action Mechanism α} {f : α → Action Mechanism β} (hx : Quiet x)
    (hf : ∀ a, Quiet (f a)) : Quiet (x >>= f) := by
  intro scene after es outcome h
  obtain ⟨e, he, -⟩ | ⟨a, mid, before, rest, rfl, ha, hrest⟩ := goes_bind.mp h
  · exact hx he
  · obtain ⟨hmid, hbefore⟩ := hx ha
    obtain ⟨hafter, hlater⟩ := hf a hrest
    exact ⟨hafter.trans hmid, List.forall_mem_append.mpr ⟨hbefore, hlater⟩⟩

theorem quiet_map {x : Action Mechanism α} (f : α → β) (hx : Quiet x) : Quiet (f <$> x) := by
  rw [← bind_pure_comp]
  exact quiet_bind hx fun a => quiet_pure (f a)

theorem quiet_adopt (v : ObjectVariant) (handle : Handle) :
    Quiet (adopt v handle : Action Mechanism Object) := by
  intro scene after es outcome h
  obtain ⟨e, -, rfl, -, rfl⟩ | ⟨h, -, answer, rfl, -, rfl⟩ := goes_readAttributes.mp h
  · exact ⟨rfl, by simp⟩
  · exact ⟨rfl, by simp [Exchange.sent?]⟩

/-- What follows a call with the mechanism may be any action that is quiet. -/
theorem Sends.bind {x : Action Mechanism α} {f : α → Action Mechanism β} (hx : Sends x)
    (hf : ∀ a, Quiet (f a)) : Sends (x >>= f) := by
  intro scene after es outcome h
  obtain ⟨e, he, rfl⟩ | ⟨a, mid, before, rest, rfl, ha, hrest⟩ := goes_bind.mp h
  · obtain ⟨hes, hsubject, -⟩ | hsent := hx he
    · exact .inl ⟨hes, hsubject, e, rfl⟩
    · exact .inr hsent
  · obtain ⟨-, -, e, he⟩ | ⟨first, later, reply, rfl, hfirst, hlater, hmid⟩ := hx ha
    · cases he
    · obtain ⟨hafter, hquiet⟩ := hf a hrest
      exact .inr ⟨first, later ++ rest, reply, rfl, hfirst,
        List.forall_mem_append.mpr ⟨hlater, hquiet⟩, hafter.trans hmid⟩

theorem sends_bind_lift {x : Except Error α} {f : α → Action Mechanism β}
    (hf : ∀ a, Sends (f a)) : Sends (liftM x >>= f : Action Mechanism β) := by
  intro scene after es outcome h
  obtain ⟨e, -, rfl, rfl, rfl⟩ | ⟨a, -, hrest⟩ := goes_bind_lift.mp h
  · exact .inl ⟨rfl, rfl, e, rfl⟩
  · exact hf a hrest

theorem sends_bind_session {f : Session → Action Mechanism β} (hf : ∀ s, Sends (f s)) :
    Sends (session >>= f) := by
  intro scene after es outcome h
  exact hf scene.session ((goes_bind_silent (x := session) rfl).mp h)

theorem sent_of_reply {m : Mechanism} {reply : Mechanism.Reply α} {first : Exchange}
    {outcome : Except Error β} {m' : Mechanism}
    (hfirst : first.sent? = some (m.nativeForm, reply.toMechanism))
    (h : (∃ a, reply.outcome = .ok a ∧ m' = (m.written reply.write).completed reply.write) ∨
      ∃ s, reply.outcome = .error s ∧ m' = m.written reply.write) : Sent m [first] outcome m' := by
  refine .inr ⟨first, [], reply.toMechanism, rfl, hfirst, by simp, ?_⟩
  rcases h with ⟨a, ho, hm⟩ | ⟨s, ho, hm⟩
  · rw [hm, Mechanism.answered_of_ok ho]
  · rw [hm, Mechanism.answered_of_error ho]

theorem sends_useMechanism {call : NativeMechanism → Talk (Mechanism.Reply α)}
    (hcall : ∀ {native es reply}, (call native).Goes es reply →
      ∃ first, es = [first] ∧ first.sent? = some (native, reply.toMechanism)) :
    Sends (useMechanism call) := by
  intro scene after es outcome h
  obtain ⟨m, huse, rfl⟩ := useMechanism_cases h
  obtain ⟨e, -, rfl, hr⟩ | ⟨native, reply, hn, hreply, hr⟩ := use_cases huse
  · cases hr
    exact .inl ⟨rfl, rfl, e, rfl⟩
  · obtain ⟨-, -, rfl⟩ := Mechanism.toNative_eq_ok_iff.mp hn
    obtain ⟨first, rfl, hfirst⟩ := hcall hreply
    refine sent_of_reply hfirst ?_
    rcases hr with ⟨a, ho, hr⟩ | ⟨s, ho, hr⟩
    · cases hr
      exact .inl ⟨a, ho, rfl⟩
    · cases hr
      exact .inr ⟨s, ho, rfl⟩

theorem sends_start (kind : OperationKind) (key : Option Handle) : Sends (start kind key) := by
  intro scene after es outcome h
  obtain ⟨-, rfl, rfl, rfl⟩ | ⟨-, ⟨e, -, rfl, rfl, rfl⟩ | ⟨native, reply, hn, rfl, hr⟩⟩ :=
    start_cases h
  · exact .inl ⟨rfl, rfl, _, rfl⟩
  · exact .inl ⟨rfl, rfl, e, rfl⟩
  · obtain ⟨-, -, rfl⟩ := Mechanism.toNative_eq_ok_iff.mp hn
    refine sent_of_reply rfl ?_
    rcases hr with ⟨ho, -, m, rfl, rfl⟩ | ⟨s, ho, -, rfl⟩
    · exact .inl ⟨(), ho, rfl⟩
    · exact .inr ⟨s, ho, rfl⟩

theorem sends_generateKey (template : Object) : Sends (generateKey template) := by
  refine sends_bind_lift fun entries => sends_bind_session fun here => ?_
  refine Sends.bind (sends_useMechanism fun h => ?_) fun handle => quiet_adopt _ handle
  exact ⟨_, Talk.goes_request.mp h, rfl⟩

theorem sends_generateKeyPair (publicTemplate privateTemplate : Object) :
    Sends (generateKeyPair publicTemplate privateTemplate) := by
  refine sends_bind_lift fun publicEntries => sends_bind_lift fun privateEntries => ?_
  refine sends_bind_session fun here => ?_
  refine Sends.bind (sends_useMechanism fun h => ?_) fun handles => ?_
  · exact ⟨_, Talk.goes_request.mp h, rfl⟩
  · refine quiet_bind (quiet_adopt _ handles.1) fun publicKey => ?_
    exact quiet_bind (quiet_adopt _ handles.2) fun privateKey => quiet_pure _

theorem sends_deriveKey (base template : Object) : Sends (deriveKey base template) := by
  refine sends_bind_lift fun baseHandle => sends_bind_lift fun entries => ?_
  refine sends_bind_session fun here => ?_
  refine Sends.bind (sends_useMechanism fun h => ?_) fun derived => ?_
  · exact ⟨_, Talk.goes_request.mp h, rfl⟩
  · cases derived with
    | none => exact quiet_pure none
    | some handle => exact quiet_map some (quiet_adopt _ handle)

end Action

theorem MechanismUse.sends (use : MechanismUse) : Action.Sends use.action := by
  cases use with
  | start kind key =>
    exact Action.sends_bind_lift fun handle => Action.sends_start kind (some handle)
  | startDigest => exact Action.sends_start .digest none
  | generateKey template => exact Action.sends_generateKey template
  | generateKeyPair publicTemplate privateTemplate =>
    exact Action.sends_generateKeyPair publicTemplate privateTemplate
  | deriveKey base template => exact Action.sends_deriveKey base template

namespace Mechanism

/-- One use of a mechanism, in any session and whatever the token answers, as long as it writes no
more than what is returned. -/
def Used (m m' : Mechanism) : Prop :=
  ∃ (use : MechanismUse) (session after : Session) (es : List Exchange)
    (outcome : Except Error use.Result), (∀ e ∈ es, e.WritesOutputs) ∧
      use.action.Goes ⟨session, m⟩ es outcome ⟨after, m'⟩

theorem Used.fixed {m m' : Mechanism} (h : m.Used m') : m'.fixed = m.fixed := by
  obtain ⟨use, session, after, es, outcome, hwrites, hgoes⟩ := h
  obtain ⟨-, hsame, -⟩ | ⟨first, rest, reply, rfl, hsent, -, hanswered⟩ := use.sends hgoes
  · exact congrArg Mechanism.fixed hsame
  · have houtputs := hwrites first List.mem_cons_self _ reply hsent
    exact (congrArg Mechanism.fixed hanswered).trans (m.reflects_answered houtputs).fixed

/-- What one use leaves alone, a run of uses leaves alone. -/
theorem fixed_of_reused {m m' : Mechanism} (h : Relation.ReflTransGen Used m m') :
    m'.fixed = m.fixed := by
  induction h with
  | refl => rfl
  | tail _ hlast ih => exact hlast.fixed.trans ih

/-- However often a mechanism was used, by tokens that write what is returned and nothing else: the
next use sends it as it is, with its first request and once, and it keeps of the reply what is
returned; or nothing is sent, and it is as before. All else of it is as it was at first, and so is
what it is marshalled to, but for the bytes of IVs. -/
theorem reused_reflects {m₀ m : Mechanism} (hreused : Relation.ReflTransGen Used m₀ m)
    (use : MechanismUse) {session : Session} {es : List Exchange}
    {outcome : Except Error use.Result} {after : Scene Mechanism}
    (hwrites : ∀ e ∈ es, e.WritesOutputs) (h : use.action.Goes ⟨session, m⟩ es outcome after) :
    ((es = [] ∧ after.subject = m ∧ ∃ e, outcome = .error e) ∨
      ∃ first rest reply, es = first :: rest ∧ first.sent? = some (m.nativeForm, reply) ∧
        (∀ e ∈ rest, e.sent? = none) ∧ Reflects reply m after.subject) ∧
    after.subject.fixed = m₀.fixed ∧ after.subject.id = m₀.id ∧
    after.subject.family? = m₀.family? ∧
    (∀ p, after.subject.keyMaterial? = some p → ∃ q, m₀.keyMaterial? = some q ∧
      p.returned.clientIv.length = q.ivBits.toNat / 8 ∧
      p.returned.serverIv.length = q.ivBits.toNat / 8) ∧
    ∀ host, (after.subject.toNative host).map NativeMechanism.blank =
      (m₀.toNative host).map NativeMechanism.blank := by
  have hlast : m.Used after.subject := ⟨use, session, after.session, es, outcome, hwrites, h⟩
  have hfixed : after.subject.fixed = m₀.fixed := fixed_of_reused (hreused.tail hlast)
  refine ⟨?_, hfixed, ?_, ?_, fun p hp => ivs_of_fixed hfixed hp, fun host => ?_⟩
  · obtain hunsent | ⟨first, rest, reply, rfl, hfirst, hrest, hafter⟩ := use.sends h
    · exact .inl hunsent
    · refine .inr ⟨first, rest, reply, rfl, hfirst, hrest, ?_⟩
      rw [hafter]
      exact m.reflects_answered (hwrites first List.mem_cons_self _ reply hfirst)
  · have hid : after.subject.fixed.id = m₀.fixed.id := by rw [hfixed]
    exact hid
  · rw [← family?_fixed, hfixed, family?_fixed]
  · rw [← toNative_fixed, hfixed, toNative_fixed]

/-- A version that was returned stays when the token refuses the next call and writes another. -/
theorem reused_reflects_version : ∃ (m₀ m : Mechanism) (session : Session) (es : List Exchange)
    (outcome : Except Error Unit) (after : Scene Mechanism),
    Relation.ReflTransGen Used m₀ m ∧
    MechanismUse.startDigest.action.Goes ⟨session, m⟩ es outcome after ∧
    m₀.negotiated? = some .zero ∧ es ≠ [] ∧ after.subject.negotiated? = some ⟨3, 1⟩ := by
  let random : RandomData := ⟨[1], [2], by decide, by decide⟩
  let m₀ : Mechanism := ⟨0x375, some (.masterKeyDerive (.make random))⟩
  let m : Mechanism := ⟨0x375, some (.masterKeyDerive ⟨random, ⟨3, 1⟩⟩)⟩
  let here := Session.ofHandle 1 0 .standard .empty
  let reply (outcome : Except Status Unit) (v : Version) : Mechanism.Reply Unit :=
    ⟨outcome, { MechanismWrite.none with version := some v }⟩
  have haccepted : MechanismUse.startDigest.action.Goes ⟨here, m₀⟩
      [⟨.start .digest here.handle m₀.nativeForm none, reply (.ok ()) ⟨3, 1⟩⟩] (.ok ())
      ⟨here.withOperation .digest (.initialized m none), m⟩ := Talk.Goes.ask _ (.done _)
  let status := Status.functionNotSupported
  have hrefused : MechanismUse.startDigest.action.Goes ⟨here, m⟩
      [⟨.start .digest here.handle m.nativeForm none, reply (.error status) ⟨9, 9⟩⟩]
      (.error (.deviceStatus status)) ⟨here, m⟩ := Talk.Goes.ask _ (.done _)
  have hwrites : ∀ (m : Mechanism) (outcome : Except Status Unit) (v : Version),
      ∀ e ∈ [Exchange.mk (.start .digest here.handle m.nativeForm none) (reply outcome v)],
        e.WritesOutputs := by
    rintro m outcome v e he _ _ hsent
    obtain rfl := List.mem_singleton.mp he
    cases hsent
    rfl
  have hused : Relation.ReflTransGen Used m₀ m :=
    .single ⟨_, _, _, _, _, hwrites _ _ _, haccepted⟩
  refine ⟨m₀, m, here, _, _, _, hused, hrefused, rfl, by simp, ?_⟩
  obtain ⟨⟨hes, -⟩ | ⟨first, rest, r, hes, hsent, -, hreflects⟩, -⟩ :=
    reused_reflects hused _ (hwrites _ _ _) hrefused
  · cases hes
  · cases hes
    cases hsent
    exact hreflects.version

end Mechanism

end Cryptoki
