import Cryptoki.Proofs.Mechanism.Marshalling
import Cryptoki.Proofs.Session.Safety

/-! Signatures, verifications and digests in one call, and what is left of their operations. A token
that asks for more room keeps them running, though such a call has no room to give. -/
namespace Cryptoki

/-- A call after the first is refused for want of room. -/
def Exchange.WantsRoom (x : Exchange) : Prop :=
  x.request.isStart = false ∧ x.refusal? = some Status.bufferTooSmall

/-- The kind of operation that a call begins, feeds and ends, all on its own. -/
def Call.oneShot? : Call → Option OperationKind
  | .sign _ _ _ => some .sign
  | .verify _ _ _ _ => some .verify
  | .digest _ _ => some .digest
  | _ => none

namespace Action

variable {ω α : Type} {k : OperationKind} {last : Bool} {es : List Exchange}

/-- How a request of a running operation can turn out, and whether the operation runs on. -/
inductive Turn (k : OperationKind) (last : Bool) (x : Exchange) :
    Except Error α → Session → Prop where
  | short {s : Session} (hx : x.WantsRoom) (hs : (s.operation k).isActive = true) :
    Turn k last x (.error (.deviceStatus Status.bufferTooSmall)) s
  | failed {status : Status} {s : Session} (hx : ¬ x.WantsRoom)
    (hs : (s.operation k).isActive = false) : Turn k last x (.error (.deviceStatus status)) s
  | taken {a : α} {s : Session} (hx : ¬ x.WantsRoom) (hs : (s.operation k).isActive = !last) :
    Turn k last x (.ok a) s

/-- An action that asks the token once, if its operation runs. -/
def TakesTurn (k : OperationKind) (last : Bool) (action : Action ω α) : Prop :=
  ∀ ⦃scene after : Scene ω⦄ ⦃es : List Exchange⦄ ⦃outcome : Except Error α⦄,
    (scene.session.operation k).isActive = true → action.Goes scene es outcome after →
      ∃ x, es = [x] ∧ Turn k last x outcome after.session

/-- A talk of one request after the first, which is refused as the result says. -/
def Once {β : Type} (t : Talk α) (result : α → Except Status β) : Prop :=
  ∀ ⦃es a⦄, t.Goes es a → ∃ x, es = [x] ∧ x.request.isStart = false ∧
    x.refusal? = Outcome.failure? (result a)

theorem once_request {β : Type} {r : Request} {result : r.Answer → Except Status β}
    (hstart : r.isStart = false)
    (hresult : ∀ x, Exchange.refusal? ⟨r, x⟩ = Outcome.failure? (result x)) :
    Once (Talk.request r) result := by
  intro es x hgoes
  obtain rfl := Talk.goes_request.mp hgoes
  exact ⟨_, rfl, hstart, hresult x⟩

/-- A talk of one request, which fails for want of room if the request does. -/
def Heeds (t : Talk (Except Status α)) : Prop :=
  ∀ ⦃es r⦄, t.Goes es r → ∃ x, es = [x] ∧ (x.WantsRoom ↔ r = .error Status.bufferTooSmall)

theorem Once.heeds {t : Talk (Except Status α)} (h : Once t id) : Heeds t := by
  intro es r hgoes
  obtain ⟨x, rfl, hstart, hx⟩ := h hgoes
  exact ⟨x, rfl, by simp [Exchange.WantsRoom, hstart, hx, Outcome.failure?_eq_some_iff]⟩

theorem takesTurn_advance {t : Talk (Except Status α)} (ht : Heeds t) :
    TakesTurn k last (advance k last (liftM t) : Action ω α) := by
  intro scene after es outcome hactive hgoes
  obtain ⟨hidle, -⟩ | ⟨-, r, mid, hcall, rfl, rfl⟩ := advance_cases hgoes
  · simp [hactive] at hidle
  obtain ⟨htalk, rfl⟩ := goes_lifted.mp hcall
  obtain ⟨x, rfl, hx⟩ := ht htalk
  refine ⟨x, rfl, ?_⟩
  cases r with
  | ok a =>
    refine .taken (by simp [hx]) ?_
    cases last <;> simp [Operation.settle, hactive, Operation.not_isActive_abandon]
  | error status =>
    by_cases hroom : status = Status.bufferTooSmall
    · subst hroom
      exact .short (hx.mpr rfl) (by simp [Operation.settle, hactive])
    · refine .failed (by simp [hx, hroom]) ?_
      simp [Operation.settle, hroom, Operation.not_isActive_abandon]

theorem takesTurn_session {f : Session → Action ω α} (hf : ∀ here, TakesTurn k last (f here)) :
    TakesTurn k last (session >>= f) := by
  intro scene after es outcome hactive hgoes
  exact hf _ hactive ((goes_bind_silent rfl).mp hgoes)

theorem takesTurn_absorb (absorber : Absorber) (data : Bytes) :
    TakesTurn absorber.kind false (absorb absorber data : Action ω Unit) :=
  takesTurn_session fun _ => takesTurn_advance (once_request rfl fun _ => rfl).heeds

theorem takesTurn_signFinal : TakesTurn .sign true (signFinal : Action ω Bytes) :=
  takesTurn_session fun _ => takesTurn_advance (once_request rfl fun _ => rfl).heeds

theorem takesTurn_digestFinal : TakesTurn .digest true (digestFinal : Action ω Bytes) :=
  takesTurn_session fun _ => takesTurn_advance (once_request rfl fun _ => rfl).heeds

/-- The want of room is no verdict. -/
theorem verdict_eq_short_iff {x : Except Status Unit} :
    verdict x = .error Status.bufferTooSmall ↔ x = .error Status.bufferTooSmall := by
  have hapart : Status.bufferTooSmall ≠ Status.signatureInvalid ∧
      Status.bufferTooSmall ≠ Status.signatureLenRange := by decide
  cases x with
  | ok => simp [verdict]
  | error status =>
    by_cases hverdict : status = Status.signatureInvalid ∨ status = Status.signatureLenRange
    · have hroom : status ≠ Status.bufferTooSmall := by
        rcases hverdict with rfl | rfl
        · exact hapart.1.symm
        · exact hapart.2.symm
      simp [verdict, hverdict, hroom]
    · simp [verdict, hverdict]

theorem takesTurn_verifyFinal (signature : Bytes) :
    TakesTurn .verify true (verifyFinal signature : Action ω Bool) := by
  have honce : ∀ here, Once (Talk.request (.verifyFinal here signature)) id :=
    fun _ => once_request rfl fun _ => rfl
  have hasks : ∀ here, Heeds (verdict <$> Talk.request (.verifyFinal here signature)) := by
    intro here es r hgoes
    obtain ⟨answer, hanswer, rfl⟩ := Talk.goes_map.mp hgoes
    obtain ⟨x, rfl, hroom⟩ := (honce here).heeds hanswer
    exact ⟨x, rfl, hroom.trans verdict_eq_short_iff.symm⟩
  exact takesTurn_session fun here => takesTurn_advance (hasks here.handle)

/-- What a call comes to that was made while no operation of its kind ran. Either none runs after
it, and it was not refused because one did; or the last it was told is that it has no room. -/
inductive Leaves (k : OperationKind) : List Exchange → Except Error α → Session → Prop where
  | ended {es : List Exchange} {outcome : Except Error α} {s : Session}
    (hes : ∀ x ∈ es, ¬ x.WantsRoom) (hs : (s.operation k).isActive = false)
    (he : outcome ≠ .error (.operationAlreadyActive k)) : Leaves k es outcome s
  | short (before : List Exchange) {x : Exchange} {s : Session} (hx : x.WantsRoom)
    (hs : (s.operation k).isActive = true) :
    Leaves k (before ++ [x]) (.error (.deviceStatus Status.bufferTooSmall)) s

theorem Leaves.runs_iff {outcome : Except Error α} {s : Session} (h : Leaves k es outcome s) :
    (s.operation k).isActive = true ↔ ∃ before x, es = before ++ [x] ∧ x.WantsRoom := by
  cases h with
  | ended hes hs _ =>
    simp only [hs, Bool.false_eq_true, false_iff]
    rintro ⟨before, x, rfl, hx⟩
    exact hes x (by simp) hx
  | short _ hx hs => exact ⟨fun _ => ⟨_, _, rfl, hx⟩, fun _ => hs⟩

theorem Leaves.outcome_eq {outcome : Except Error α} {s : Session} (h : Leaves k es outcome s)
    (hs : (s.operation k).isActive = true) :
    outcome = .error (.deviceStatus Status.bufferTooSmall) := by
  cases h with
  | ended _ hidle _ => simp [hs] at hidle
  | short _ _ _ => rfl

theorem Leaves.ne_alreadyActive {outcome : Except Error α} {s : Session}
    (h : Leaves k es outcome s) : outcome ≠ .error (.operationAlreadyActive k) := by
  cases h with
  | ended _ _ he => exact he
  | short _ _ _ => simp

/-- Exchanges before that wanted no room change nothing about what is left. -/
theorem Leaves.append {before : List Exchange} {outcome : Except Error α} {s : Session}
    (hbefore : ∀ x ∈ before, ¬ x.WantsRoom) (h : Leaves k es outcome s) :
    Leaves k (before ++ es) outcome s := by
  cases h with
  | ended hes hs he =>
    refine .ended (fun x hx => ?_) hs he
    rcases List.mem_append.mp hx with hx | hx
    · exact hbefore x hx
    · exact hes x hx
  | short earlier hx hs =>
    rw [← List.append_assoc]
    exact .short (before ++ earlier) hx hs

/-- The request that fails, and the last one, tell what is left. -/
theorem Turn.leaves_of_error {β : Type} {x : Exchange} {e : Error} {s : Session}
    (h : Turn k last x (.error e : Except Error β) s) :
    Leaves k [x] (.error e : Except Error α) s := by
  cases h with
  | short hx hs => exact .short [] hx hs
  | failed hx hs => exact .ended (by simpa using hx) hs (by simp)

theorem Turn.leaves {x : Exchange} {outcome : Except Error α} {s : Session}
    (h : Turn k true x outcome s) : Leaves k [x] outcome s := by
  cases outcome with
  | error e => exact h.leaves_of_error
  | ok a =>
    cases h with
    | taken hx hs => exact .ended (by simpa using hx) hs (by simp)

theorem feed_leaves {feed : Action ω Unit} {finish : Action ω α} {scene after : Scene ω}
    {outcome : Except Error α} (hfeed : TakesTurn k false feed) (hfinish : TakesTurn k true finish)
    (hactive : (scene.session.operation k).isActive = true)
    (hgoes : (feed >>= fun _ => finish).Goes scene es outcome after) :
    Leaves k es outcome after.session := by
  rcases goes_bind.mp hgoes with ⟨e, hfed, rfl⟩ | ⟨u, mid, before, rest, rfl, hfed, hfinal⟩
  · obtain ⟨x, rfl, hx⟩ := hfeed hactive hfed
    exact hx.leaves_of_error
  · obtain ⟨x, rfl, hx⟩ := hfeed hactive hfed
    cases hx with
    | taken hx hs =>
      obtain ⟨y, rfl, hy⟩ := hfinish hs hfinal
      exact hy.leaves.append (by simpa using hx)

/-- A first call, made while none of its kind runs, begins an operation, or fails for another reason
than one that runs. It asks for no room. -/
def Opens (k : OperationKind) (action : Action Mechanism Unit) : Prop :=
  ∀ ⦃scene after : Scene Mechanism⦄ ⦃es : List Exchange⦄ ⦃outcome : Except Error Unit⦄,
    (scene.session.operation k).isActive = false → action.Goes scene es outcome after →
      (∀ x ∈ es, ¬ x.WantsRoom) ∧
      ((outcome = .ok () ∧ (after.session.operation k).isActive = true) ∨
      ∃ e, outcome = .error e ∧ e ≠ .operationAlreadyActive k ∧
        (after.session.operation k).isActive = false)

theorem Opens.ne_alreadyActive {action : Action Mechanism Unit} {scene after : Scene Mechanism}
    {outcome : Except Error Unit} (h : Opens k action)
    (hidle : (scene.session.operation k).isActive = false)
    (hgoes : action.Goes scene es outcome after) :
    outcome ≠ .error (.operationAlreadyActive k) := by
  obtain ⟨-, ⟨rfl, -⟩ | ⟨e, rfl, hne, -⟩⟩ := h hidle hgoes
  · simp
  · simpa using hne

theorem opens_start (key : Option Handle) : Opens k (start k key) := by
  intro scene after es outcome hidle hgoes
  rcases start_cases hgoes with
    ⟨hactive, -⟩ | ⟨-, ⟨e, hnative, rfl, rfl, rfl⟩ | ⟨native, reply, -, rfl, hreply⟩⟩
  · simp [hidle] at hactive
  · refine ⟨by simp, .inr ⟨e, rfl, ?_, hidle⟩⟩
    rcases Mechanism.toNative_eq_error_iff.mp hnative with ⟨-, rfl⟩ | ⟨-, family, -, -, rfl⟩
    · simp
    · simp
  · refine ⟨by simp [Exchange.WantsRoom, Request.isStart], ?_⟩
    rcases hreply with ⟨-, rfl, m, -, rfl⟩ | ⟨s, -, rfl, rfl⟩
    · exact .inl ⟨rfl, by simp [Operation.isActive]⟩
    · exact .inr ⟨_, rfl, by simp, hidle⟩

theorem liveHandle_ne_alreadyActive (o : Object) :
    o.liveHandle ≠ .error (.operationAlreadyActive k) := by
  rw [Object.liveHandle]
  cases o.state <;> simp

theorem opens_startWith (key : Object) : Opens k (startWith k key) := by
  intro scene after es outcome hidle hgoes
  rcases startWith_cases hgoes with ⟨e, hkey, rfl, rfl, rfl⟩ | ⟨handle, -, hstart⟩
  · refine ⟨by simp, .inr ⟨e, rfl, ?_, hidle⟩⟩
    rintro rfl
    exact liveHandle_ne_alreadyActive key hkey
  · exact opens_start (some handle) hidle hstart

theorem Opens.leaves {first feed : Action Mechanism Unit} {finish : Action Mechanism α}
    {scene after : Scene Mechanism} {outcome : Except Error α} (hfirst : Opens k first)
    (hfeed : TakesTurn k false feed) (hfinish : TakesTurn k true finish)
    (hidle : (scene.session.operation k).isActive = false)
    (hgoes : (first >>= fun _ => feed >>= fun _ => finish).Goes scene es outcome after) :
    Leaves k es outcome after.session := by
  rcases goes_bind.mp hgoes with ⟨e, hbegun, rfl⟩ | ⟨u, mid, before, rest, rfl, hbegun, hrest⟩
  · obtain ⟨hes, ⟨he, -⟩ | ⟨f, he, hne, hs⟩⟩ := hfirst hidle hbegun
    · cases he
    · cases he
      exact .ended hes hs (by simpa using hne)
  · obtain ⟨hes, ⟨-, hs⟩ | ⟨f, he, -⟩⟩ := hfirst hidle hbegun
    · exact (feed_leaves hfeed hfinish hs hrest).append hes
    · cases he

end Action

namespace Call

variable {call next : Call} {k : OperationKind} {s : Session} {es : List Exchange}

theorem oneShot_leaves {after : Scene call.Subject} {outcome : Except Error call.Result}
    (hk : call.oneShot? = some k) (hidle : (s.operation k).isActive = false)
    (hgoes : call.action.Goes ⟨s, call.subject⟩ es outcome after) :
    Action.Leaves k es outcome after.session := by
  cases call <;> cases hk
  case sign mechanism key data =>
    exact (Action.opens_startWith key).leaves (Action.takesTurn_absorb .sign data)
      Action.takesTurn_signFinal hidle hgoes
  case verify mechanism key data signature =>
    exact (Action.opens_startWith key).leaves (Action.takesTurn_absorb .verify data)
      (Action.takesTurn_verifyFinal signature) hidle hgoes
  case digest mechanism data =>
    exact (Action.opens_start none).leaves (Action.takesTurn_absorb .digest data)
      Action.takesTurn_digestFinal hidle hgoes

/-- While no operation of its kind runs, a call that begins one is not refused because one does. -/
theorem opening_ne_alreadyActive {after : Scene next.Subject} {outcome : Except Error next.Result}
    (hcall : call.oneShot? = some k) (hk : next.opens? = some k)
    (hidle : (s.operation k).isActive = false)
    (hgoes : next.action.Goes ⟨s, next.subject⟩ es outcome after) :
    outcome ≠ .error (.operationAlreadyActive k) := by
  cases next with
  | start kind mechanism key =>
    cases hk
    exact (Action.opens_startWith key).ne_alreadyActive hidle hgoes
  | startDigest mechanism =>
    cases hk
    exact (Action.opens_start none).ne_alreadyActive hidle hgoes
  | sign _ _ _ | verify _ _ _ _ | digest _ _ =>
    cases hk
    exact (oneShot_leaves rfl hidle hgoes).ne_alreadyActive
  | cipherAll direction mechanism key data =>
    cases hk
    cases call <;> cases direction <;> simp [oneShot?, Direction.kind] at hcall
  | _ => cases hk

/-- A call that signs, verifies or digests at once leaves its operation running in one case alone:
the token refused the last request for want of room. The call fails with that status, and the
operation is in the way of each further call that begins one. In all other cases none is refused
because an operation runs. -/
theorem oneShot_keeps_iff (token : Token σ) (t : σ) (s : Session) (call : Call) (k : OperationKind)
    (hk : call.oneShot? = some k) (hidle : s.phase k ≠ .initialized) :
    ∃ outcome after es u, call.run token s t = ((outcome, after), es, u) ∧
      (after.session.phase k = .initialized ↔ ∃ before x, es = before ++ [x] ∧ x.WantsRoom) ∧
      (after.session.phase k = .initialized →
        outcome = .error (.deviceStatus Status.bufferTooSmall)) ∧
      ∀ next : Call, next.opens? = some k → ∀ (τ : Type) (other : Token τ) (v : τ),
        (after.session.phase k = .initialized → next.run other after.session v =
          ((.error (next.fault?.getD (.operationAlreadyActive k)),
            ⟨after.session, next.subject⟩), [], v)) ∧
        (after.session.phase k ≠ .initialized →
          (next.run other after.session v).1.1 ≠ .error (.operationAlreadyActive k)) := by
  obtain ⟨⟨⟨outcome, after⟩, es, u⟩, hrun⟩ : ∃ r, call.run token s t = r := ⟨_, rfl⟩
  have hquiet : (s.operation k).isActive = false := by
    simpa [Session.phase_eq_initialized_iff] using hidle
  have hleft := oneShot_leaves hk hquiet (Talk.run_eq_iff.mp hrun).1
  have hruns_iff := Session.phase_eq_initialized_iff.trans hleft.runs_iff
  refine ⟨outcome, after, es, u, hrun, hruns_iff, ?_, ?_⟩
  · intro hruns
    exact hleft.outcome_eq (Session.phase_eq_initialized_iff.mp hruns)
  · intro next hnext τ other v
    refine ⟨fun hruns => ?_, fun hended => ?_⟩
    · exact (refuses_opening hnext (Session.phase_eq_initialized_iff.mp hruns)).run other v
    · obtain ⟨⟨⟨result, left⟩, fs, w⟩, hlater⟩ :
          ∃ r, next.run other after.session v = r := ⟨_, rfl⟩
      have hstill : (after.session.operation k).isActive = false := by
        simpa [Session.phase_eq_initialized_iff] using hended
      rw [hlater]
      exact opening_ne_alreadyActive hk hnext hstill (Talk.run_eq_iff.mp hlater).1

/-- A token that takes all input in, and has too little room for any result. -/
def cramped : Token Unit where
  answer request t :=
    if request.isFinal then (request.refuse Status.bufferTooSmall, t)
    else receptive.answer request t

theorem oneShot_keeps_iff_digest : ∃ outcome after es,
    (Call.digest ⟨0x250, none⟩ [1, 2]).run cramped (.ofHandle 1 0 .standard .empty) () =
      ((outcome, after), es, ()) ∧
    after.session.phase .digest = .initialized ∧
    outcome = .error (.deviceStatus Status.bufferTooSmall) ∧
    (Call.startDigest ⟨0x220, none⟩).run receptive after.session () =
      ((.error (.operationAlreadyActive .digest), ⟨after.session, ⟨0x220, none⟩⟩), [], ()) := by
  obtain ⟨outcome, after, es, u, hrun, hiff, houtcome, hnext⟩ :=
    oneShot_keeps_iff cramped () (.ofHandle 1 0 .standard .empty)
      (.digest ⟨0x250, none⟩ [1, 2]) .digest rfl (by decide)
  have hruns : after.session.phase .digest = .initialized := by
    cases hrun
    exact hiff.mpr ⟨[_, _], _, rfl, rfl, rfl⟩
  exact ⟨outcome, after, es, hrun, hruns, houtcome hruns,
    (hnext (.startDigest ⟨0x220, none⟩) rfl Unit receptive ()).1 hruns⟩

/-- A digest that was asked for at once is over for its caller, not for the session: the next one is
refused, though nothing else was called. -/
theorem digest_left_running : ∃ left : Session,
    (Session.ofHandle 1 0 .standard .empty).phase .digest = .uninitialized ∧
    ((Call.digest ⟨0x250, none⟩ [1, 2]).run cramped (.ofHandle 1 0 .standard .empty) ()).1 =
      (.error (.deviceStatus Status.bufferTooSmall), ⟨left, ⟨0x250, none⟩⟩) ∧
    left.phase .digest = .initialized ∧
    (Call.digest ⟨0x250, none⟩ [1, 2]).run cramped left () =
      ((.error (.operationAlreadyActive .digest), ⟨left, ⟨0x250, none⟩⟩), [], ()) :=
  ⟨_, rfl, rfl, rfl, rfl⟩

end Call

end Cryptoki
