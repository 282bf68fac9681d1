import Cryptoki.Proofs.Token.Courses
import Cryptoki.Session.Cipher

/-! The courses of actions, taken apart step by step. -/
namespace Cryptoki.Action

variable {ω α β : Type} {scene after : Scene ω} {es : List Exchange}

/-- One course of an action from a scene: what is exchanged, the outcome and the scene it leaves. -/
def Goes (action : Action ω α) (scene : Scene ω) (es : List Exchange) (outcome : Except Error α)
    (after : Scene ω) : Prop :=
  (action.run.run scene).Goes es (outcome, after)

/-- An action that exchanges nothing has one course. -/
theorem goes_silent {action : Action ω α} {x : Except Error α} {left : Scene ω}
    (h : action.run.run scene = pure (x, left)) {outcome : Except Error α} :
    action.Goes scene es outcome after ↔ es = [] ∧ outcome = x ∧ after = left := by
  simp [Goes, h, Talk.goes_pure]

theorem goes_pure {a : α} {outcome : Except Error α} :
    (pure a : Action ω α).Goes scene es outcome after ↔
      es = [] ∧ outcome = .ok a ∧ after = scene := goes_silent rfl

theorem goes_throw {e : Error} {outcome : Except Error α} :
    (throw e : Action ω α).Goes scene es outcome after ↔
      es = [] ∧ outcome = .error e ∧ after = scene := goes_silent rfl

theorem goes_lift {x outcome : Except Error α} :
    (liftM x : Action ω α).Goes scene es outcome after ↔
      es = [] ∧ outcome = x ∧ after = scene := goes_silent rfl

theorem goes_setOperation {kind : OperationKind} {o : Operation} {outcome : Except Error Unit} :
    (setOperation kind o).Goes scene es outcome after ↔ es = [] ∧ outcome = .ok () ∧
      after = { scene with session := scene.session.withOperation kind o } := goes_silent rfl

theorem goes_ask {r : Request} {outcome : Except Error r.Answer} :
    (ask r : Action ω r.Answer).Goes scene es outcome after ↔
      ∃ x, es = [⟨r, x⟩] ∧ outcome = .ok x ∧ after = scene := by
  have h : ((ask r : Action ω r.Answer).run.run scene) =
    (Talk.request r >>= fun x => pure (.ok x, scene)) := rfl
  rw [Goes, h, Talk.goes_bind]
  constructor
  · rintro ⟨x, before, rest, rfl, hr, hp⟩
    obtain ⟨rfl, hp⟩ := Talk.goes_pure.mp hp
    cases hp
    exact ⟨x, by simpa using Talk.goes_request.mp hr, rfl, rfl⟩
  · rintro ⟨x, rfl, rfl, rfl⟩
    exact ⟨x, _, [], rfl, Talk.goes_request.mpr rfl, Talk.goes_pure.mpr ⟨rfl, rfl⟩⟩

theorem run_bind (x : Action ω α) (f : α → Action ω β) (scene : Scene ω) :
    (x >>= f).run.run scene = (x.run.run scene >>= fun r => match r with
      | (.ok a, mid) => (f a).run.run mid
      | (.error e, mid) => pure (.error e, mid)) := by
  refine congrArg (Talk.bind (x.run.run scene)) (funext fun r => ?_)
  obtain ⟨_ | _, mid⟩ := r <;> rfl

/-- A sequence fails where its first part fails; else its second part goes on from where the first
one ends. -/
theorem goes_bind {x : Action ω α} {f : α → Action ω β} {outcome : Except Error β} :
    (x >>= f).Goes scene es outcome after ↔
      (∃ e, x.Goes scene es (.error e) after ∧ outcome = .error e) ∨
      ∃ a mid before rest, es = before ++ rest ∧ x.Goes scene before (.ok a) mid ∧
        (f a).Goes mid rest outcome after := by
  rw [Goes, run_bind, Talk.goes_bind]
  constructor
  · rintro ⟨⟨e | a, mid⟩, before, rest, rfl, hx, hf⟩
    · obtain ⟨rfl, hp⟩ := Talk.goes_pure.mp hf
      cases hp
      exact .inl ⟨e, by simpa [Goes] using hx, rfl⟩
    · exact .inr ⟨a, mid, before, rest, rfl, hx, hf⟩
  · rintro (⟨e, hx, rfl⟩ | ⟨a, mid, before, rest, rfl, hx, hf⟩)
    · exact ⟨(.error e, after), es, [], by simp, hx, Talk.goes_pure.mpr ⟨rfl, rfl⟩⟩
    · exact ⟨(.ok a, mid), before, rest, rfl, hx, hf⟩

/-- A sequence whose first part exchanges nothing and succeeds is its second part. -/
theorem goes_bind_silent {x : Action ω α} {f : α → Action ω β} {a : α} {mid : Scene ω}
    (h : x.run.run scene = pure (.ok a, mid)) {outcome : Except Error β} :
    (x >>= f).Goes scene es outcome after ↔ (f a).Goes mid es outcome after := by
  rw [goes_bind]
  constructor
  · rintro (⟨e, hx, -⟩ | ⟨b, left, before, rest, rfl, hx, hf⟩)
    · obtain ⟨-, he, -⟩ := (goes_silent h).mp hx
      cases he
    · obtain ⟨rfl, hb, rfl⟩ := (goes_silent h).mp hx
      cases hb
      exact hf
  · intro hf
    exact .inr ⟨a, mid, [], es, rfl, (goes_silent h).mpr ⟨rfl, rfl, rfl⟩, hf⟩

/-- A sequence goes on with what was lifted, unless that is a failure. -/
theorem goes_bind_lift {x : Except Error α} {f : α → Action ω β} {outcome : Except Error β} :
    (liftM x >>= f : Action ω β).Goes scene es outcome after ↔
      (∃ e, x = .error e ∧ es = [] ∧ outcome = .error e ∧ after = scene) ∨
      ∃ a, x = .ok a ∧ (f a).Goes scene es outcome after := by
  cases x with
  | ok a =>
    have h : (liftM (.ok a : Except Error α) >>= f : Action ω β).Goes scene es outcome after ↔
        (f a).Goes scene es outcome after := goes_bind_silent rfl
    simpa using h
  | error e =>
    constructor
    · intro h
      obtain ⟨e', he, rfl⟩ | ⟨a, mid, before, rest, -, ha, -⟩ := goes_bind.mp h
      · obtain ⟨rfl, he, rfl⟩ := goes_lift.mp he
        cases he
        exact .inl ⟨e, rfl, rfl, rfl, rfl⟩
      · obtain ⟨-, ha, -⟩ := goes_lift.mp ha
        cases ha
    · rintro (⟨e', he, rfl, rfl, rfl⟩ | ⟨a, ha, -⟩)
      · cases he
        exact goes_bind.mpr (.inl ⟨e, goes_lift.mpr ⟨rfl, rfl, rfl⟩, rfl⟩)
      · cases ha

/-- A sequence that begins with a request goes on with the answer. -/
theorem goes_bind_ask {r : Request} {f : r.Answer → Action ω β} {outcome : Except Error β} :
    (ask r >>= f).Goes scene es outcome after ↔
      ∃ x rest, es = ⟨r, x⟩ :: rest ∧ (f x).Goes scene rest outcome after := by
  rw [goes_bind]
  constructor
  · rintro (⟨e, hask, -⟩ | ⟨x, mid, before, rest, rfl, hask, hrest⟩)
    · obtain ⟨x, -, he, -⟩ := goes_ask.mp hask
      cases he
    · obtain ⟨y, rfl, hy, rfl⟩ := goes_ask.mp hask
      cases hy
      exact ⟨x, rest, rfl, hrest⟩
  · rintro ⟨x, rest, rfl, hrest⟩
    exact .inr ⟨x, scene, [⟨r, x⟩], rest, rfl, goes_ask.mpr ⟨x, rfl, rfl, rfl⟩, hrest⟩

theorem run_tryCatch (x : Action ω α) (f : Error → Action ω α) (scene : Scene ω) :
    (tryCatch x f).run.run scene = (x.run.run scene >>= fun r => match r with
      | (.ok a, mid) => pure (.ok a, mid)
      | (.error e, mid) => (f e).run.run mid) := by
  refine congrArg (Talk.bind (x.run.run scene)) (funext fun r => ?_)
  obtain ⟨_ | _, mid⟩ := r <;> rfl

theorem goes_tryCatch {x : Action ω α} {f : Error → Action ω α} {outcome : Except Error α} :
    (tryCatch x f).Goes scene es outcome after ↔
      (∃ a, x.Goes scene es (.ok a) after ∧ outcome = .ok a) ∨
      ∃ e mid before rest, es = before ++ rest ∧ x.Goes scene before (.error e) mid ∧
        (f e).Goes mid rest outcome after := by
  rw [Goes, run_tryCatch, Talk.goes_bind]
  constructor
  · rintro ⟨⟨e | a, mid⟩, before, rest, rfl, hx, hf⟩
    · exact .inr ⟨e, mid, before, rest, rfl, hx, hf⟩
    · obtain ⟨rfl, hp⟩ := Talk.goes_pure.mp hf
      cases hp
      exact .inl ⟨a, by simpa [Goes] using hx, rfl⟩
  · rintro (⟨a, hx, rfl⟩ | ⟨e, mid, before, rest, rfl, hx, hf⟩)
    · exact ⟨(.ok a, after), es, [], by simp, hx, Talk.goes_pure.mpr ⟨rfl, rfl⟩⟩
    · exact ⟨(.error e, mid), before, rest, rfl, hx, hf⟩

theorem goes_lifted {t : Talk α} {scene after : Scene ω} {r : α} :
    ((liftM t : StateT (Scene ω) Talk α).run scene).Goes es (r, after) ↔
      t.Goes es r ∧ after = scene := by
  have hrun : (liftM t : StateT (Scene ω) Talk α).run scene = (·, scene) <$> t := by simp
  rw [hrun, Talk.goes_map]
  constructor
  · rintro ⟨x, hx, he⟩
    cases he
    exact ⟨hx, rfl⟩
  · rintro ⟨hr, rfl⟩
    exact ⟨r, hr, rfl⟩

theorem run_advance (kind : OperationKind) (last : Bool)
    (call : StateT (Scene ω) Talk (Except Status α)) (scene : Scene ω) :
    (advance kind last call).run.run scene =
      if (scene.session.operation kind).isActive then
        (fun r => (((scene.session.operation kind).settle last r.1).1,
          (⟨r.2.session.withOperation kind ((scene.session.operation kind).settle last r.1).2,
            r.2.subject⟩ : Scene ω))) <$> call.run scene
      else pure (.error (.operationNotActive kind), scene) := by
  cases hactive : (scene.session.operation kind).isActive <;>
    simp [advance, ExceptT.run, ExceptT.mk, Operation.advance, hactive]

/-- A call of an operation that does not run changes nothing; the outcome of any other call settles
the operation that ran before it. -/
theorem advance_cases {kind : OperationKind} {last : Bool}
    {call : StateT (Scene ω) Talk (Except Status α)} {outcome : Except Error α}
    (h : (advance kind last call).Goes scene es outcome after) :
    ((scene.session.operation kind).isActive = false ∧ es = [] ∧
      outcome = .error (.operationNotActive kind) ∧ after = scene) ∨
    ((scene.session.operation kind).isActive = true ∧ ∃ r mid,
      (call.run scene).Goes es (r, mid) ∧
      outcome = ((scene.session.operation kind).settle last r).1 ∧
      after = ⟨mid.session.withOperation kind ((scene.session.operation kind).settle last r).2,
        mid.subject⟩) := by
  have hrun := run_advance kind last call scene
  cases hactive : (scene.session.operation kind).isActive with
  | false =>
    rw [hactive, if_neg Bool.false_ne_true] at hrun
    exact .inl ⟨rfl, (goes_silent hrun).mp h⟩
  | true =>
    rw [hactive, if_pos rfl] at hrun
    rw [Goes, hrun, Talk.goes_map] at h
    obtain ⟨⟨r, mid⟩, hcall, hr⟩ := h
    cases hr
    exact .inr ⟨rfl, r, mid, hcall, rfl, rfl⟩

/-- A call with a mechanism fails where the mechanism has no native form, or where the token refuses
it. -/
theorem use_cases {mechanism : Mechanism} {host : HostLayouts}
    {call : NativeMechanism → Talk (Mechanism.Reply α)} {r : Except Error α × Mechanism}
    (h : (mechanism.use host call).Goes es r) :
    (∃ e, mechanism.toNative host = .error e ∧ es = [] ∧ r = (.error e, mechanism)) ∨
    ∃ native reply, mechanism.toNative host = .ok native ∧ (call native).Goes es reply ∧
      ((∃ a, reply.outcome = .ok a ∧
        r = (.ok a, (mechanism.written reply.write).completed reply.write)) ∨
      ∃ s, reply.outcome = .error s ∧
        r = (.error (.deviceStatus s), mechanism.written reply.write)) := by
  unfold Mechanism.use at h
  cases hn : mechanism.toNative host with
  | error e =>
    rw [hn] at h
    obtain ⟨rfl, rfl⟩ := Talk.goes_pure.mp h
    exact .inl ⟨e, rfl, rfl, rfl⟩
  | ok native =>
    rw [hn] at h
    obtain ⟨reply, before, rest, rfl, hcall, hr⟩ := Talk.goes_bind.mp h
    refine .inr ⟨native, reply, rfl, ?_⟩
    cases ho : reply.outcome with
    | ok a =>
      simp only [ho] at hr
      obtain ⟨rfl, rfl⟩ := Talk.goes_pure.mp hr
      exact ⟨by simpa using hcall, .inl ⟨a, rfl, rfl⟩⟩
    | error s =>
      simp only [ho] at hr
      obtain ⟨rfl, rfl⟩ := Talk.goes_pure.mp hr
      exact ⟨by simpa using hcall, .inr ⟨s, rfl, rfl⟩⟩

theorem run_use_lift {mechanism : Mechanism} {host : HostLayouts} {x : β}
    {call : NativeMechanism → Talk (Mechanism.Reply α)} :
    (mechanism.use host fun native => (liftM (call native) : StateT β Talk _)).run x =
      (·, x) <$> mechanism.use host call := by
  unfold Mechanism.use
  cases mechanism.toNative host with
  | error e => simp
  | ok native =>
    simp only [StateT.run_bind, StateT.run_monadLift, monadLift_self, bind_assoc, pure_bind,
      map_bind]
    refine bind_congr fun reply => ?_
    cases reply.outcome <;> simp

theorem run_useMechanism (call : NativeMechanism → Talk (Mechanism.Reply α))
    (scene : Scene Mechanism) :
    (useMechanism call).run.run scene =
      (fun r => (r.1, (⟨scene.session, r.2⟩ : Scene Mechanism))) <$>
        scene.subject.use scene.session.host call := by
  simp [useMechanism, ExceptT.run, ExceptT.mk, run_use_lift]

theorem useMechanism_cases {scene after : Scene Mechanism} {outcome : Except Error α}
    {call : NativeMechanism → Talk (Mechanism.Reply α)}
    (h : (useMechanism call).Goes scene es outcome after) :
    ∃ m, (scene.subject.use scene.session.host call).Goes es (outcome, m) ∧
      after = ⟨scene.session, m⟩ := by
  rw [Goes, run_useMechanism, Talk.goes_map] at h
  obtain ⟨⟨x, m⟩, hcall, hr⟩ := h
  cases hr
  exact ⟨m, hcall, rfl⟩

theorem run_start (kind : OperationKind) (key : Option Handle) (scene : Scene Mechanism) :
    (start kind key).run.run scene =
      if (scene.session.operation kind).isActive then
        pure (.error (.operationAlreadyActive kind), scene)
      else (fun r => match r with
        | (.ok (), m) => (.ok (), (⟨scene.session.withOperation kind (.initialized m key), m⟩ :
            Scene Mechanism))
        | (.error e, m) => (.error e, ⟨scene.session, m⟩)) <$>
        scene.subject.use scene.session.host fun native =>
          Talk.request (.start kind scene.session.handle native key) := by
  cases hactive : (scene.session.operation kind).isActive with
  | true => simp [start, ExceptT.run, ExceptT.mk, Operation.start, hactive]
  | false =>
    simp only [start, ExceptT.run, ExceptT.mk, Operation.start, hactive, Bool.false_eq_true,
      if_false, StateT.run_bind, StateT.run_get, pure_bind, run_use_lift, bind_assoc,
      map_eq_pure_bind]
    refine bind_congr fun r => ?_
    obtain ⟨_ | _, m⟩ := r <;> simp

/-- A first call is made only while no operation of its kind runs and the mechanism has a native
form. An operation runs afterwards if the token accepts it; else the session is as before. -/
theorem start_cases {kind : OperationKind} {key : Option Handle} {scene after : Scene Mechanism}
    {outcome : Except Error Unit} (h : (start kind key).Goes scene es outcome after) :
    ((scene.session.operation kind).isActive = true ∧ es = [] ∧
      outcome = .error (.operationAlreadyActive kind) ∧ after = scene) ∨
    ((scene.session.operation kind).isActive = false ∧
      ((∃ e, scene.subject.toNative scene.session.host = .error e ∧ es = [] ∧
        outcome = .error e ∧ after = scene) ∨
      ∃ native reply, scene.subject.toNative scene.session.host = .ok native ∧
        es = [⟨.start kind scene.session.handle native key, reply⟩] ∧
        ((reply.outcome = .ok () ∧ outcome = .ok () ∧ ∃ m,
          m = (scene.subject.written reply.write).completed reply.write ∧
          after = ⟨scene.session.withOperation kind (.initialized m key), m⟩) ∨
        ∃ s, reply.outcome = .error s ∧ outcome = .error (.deviceStatus s) ∧
          after = ⟨scene.session, scene.subject.written reply.write⟩))) := by
  have hrun := run_start kind key scene
  cases hactive : (scene.session.operation kind).isActive with
  | true =>
    rw [hactive, if_pos rfl] at hrun
    exact .inl ⟨rfl, (goes_silent hrun).mp h⟩
  | false =>
    rw [hactive, if_neg Bool.false_ne_true] at hrun
    rw [Goes, hrun, Talk.goes_map] at h
    obtain ⟨⟨x, m⟩, hcall, hr⟩ := h
    obtain ⟨e, hn, rfl, he⟩ | ⟨native, reply, hn, hreply, ⟨a, ho, hok⟩ | ⟨s, ho, herr⟩⟩ :=
      use_cases hcall
    · cases he
      cases hr
      exact .inr ⟨rfl, .inl ⟨e, hn, rfl, rfl, rfl⟩⟩
    · cases hok
      cases hr
      exact .inr ⟨rfl, .inr ⟨native, reply, hn, Talk.goes_request.mp hreply,
        .inl ⟨ho, rfl, _, rfl, rfl⟩⟩⟩
    · cases herr
      cases hr
      exact .inr ⟨rfl, .inr ⟨native, reply, hn, Talk.goes_request.mp hreply,
        .inr ⟨s, ho, rfl, rfl⟩⟩⟩

theorem startWith_cases {kind : OperationKind} {key : Object} {scene after : Scene Mechanism}
    {outcome : Except Error Unit} (h : (startWith kind key).Goes scene es outcome after) :
    (∃ e, key.liveHandle = .error e ∧ es = [] ∧ outcome = .error e ∧ after = scene) ∨
    ∃ handle, key.liveHandle = .ok handle ∧
      (start kind (some handle)).Goes scene es outcome after := by
  obtain ⟨e, hkey, rfl⟩ | ⟨handle, mid, before, rest, rfl, hkey, hstart⟩ := goes_bind.mp h
  · obtain ⟨rfl, he, rfl⟩ := goes_lift.mp hkey
    exact .inl ⟨e, he.symm, rfl, rfl, rfl⟩
  · obtain ⟨rfl, hhandle, rfl⟩ := goes_lift.mp hkey
    exact .inr ⟨handle, hhandle.symm, hstart⟩

/-- A first call succeeds where the key is on the token, the mechanism has a native form and the
token accepts both. -/
theorem startWith_begun {kind : OperationKind} {key : Object} {scene after : Scene Mechanism}
    (h : (startWith kind key).Goes scene es (.ok ()) after) :
    ∃ handle native reply m, key.liveHandle = .ok handle ∧
      scene.subject.toNative scene.session.host = .ok native ∧ reply.outcome = .ok () ∧
      es = [⟨.start kind scene.session.handle native (some handle), reply⟩] ∧
      after = ⟨scene.session.withOperation kind (.initialized m (some handle)), m⟩ := by
  obtain ⟨e, -, -, he, -⟩ | ⟨handle, hkey, hstart⟩ := startWith_cases h
  · cases he
  obtain ⟨-, -, he, -⟩ | ⟨-, ⟨e, -, -, he, -⟩ | ⟨native, reply, hnative, rfl, hreply⟩⟩ :=
    start_cases hstart
  · cases he
  · cases he
  obtain ⟨ho, -, m, -, rfl⟩ | ⟨s, -, he, -⟩ := hreply
  · exact ⟨handle, native, reply, m, hkey, hnative, ho, rfl, rfl⟩
  · cases he

/-- Where a first call is accepted, the token was asked once and the operation runs. -/
theorem startWith_accepted {kind : OperationKind} {key : Object} {scene after : Scene Mechanism}
    (h : (startWith kind key).Goes scene es (.ok ()) after) :
    ∃ native handle reply m, es = [⟨.start kind scene.session.handle native handle, reply⟩] ∧
      after = ⟨scene.session.withOperation kind (.initialized m handle), m⟩ := by
  obtain ⟨handle, native, reply, m, -, -, -, rfl, rfl⟩ := startWith_begun h
  exact ⟨native, some handle, reply, m, rfl, rfl⟩

theorem run_on {π : Type} (x : π) (action : Action π α) (scene : Scene ω) :
    (on x action : Action ω (α × π)).run.run scene =
      (fun r => (r.1.map (·, r.2.subject), (⟨r.2.session, scene.subject⟩ : Scene ω))) <$>
        action.perform scene.session x := by
  simp [on, ExceptT.run, ExceptT.mk]

theorem on_cases {π : Type} {x : π} {action : Action π α} {outcome : Except Error (α × π)}
    (h : (on x action : Action ω (α × π)).Goes scene es outcome after) :
    ∃ r mid, action.Goes ⟨scene.session, x⟩ es r mid ∧ outcome = r.map (·, mid.subject) ∧
      after = ⟨mid.session, scene.subject⟩ := by
  rw [Goes, run_on, Talk.goes_map] at h
  obtain ⟨⟨r, mid⟩, hcall, hr⟩ := h
  cases hr
  exact ⟨r, mid, hcall, rfl, rfl⟩

theorem run_abandoning (kind : OperationKind) (action : Action ω α) (scene : Scene ω) :
    (abandoning kind action).run.run scene = (fun r =>
      (r.1, (⟨r.2.session.withOperation kind (r.2.session.operation kind).abandon, r.2.subject⟩ :
        Scene ω))) <$> action.run.run scene := by
  simp only [abandoning, ExceptT.run, ExceptT.mk, StateT.run_bind, map_eq_pure_bind]
  rfl

theorem abandoning_cases {kind : OperationKind} {action : Action ω α} {outcome : Except Error α}
    (h : (abandoning kind action).Goes scene es outcome after) :
    ∃ mid, action.Goes scene es outcome mid ∧
      after = ⟨mid.session.withOperation kind (mid.session.operation kind).abandon,
        mid.subject⟩ := by
  rw [Goes, run_abandoning, Talk.goes_map] at h
  obtain ⟨⟨r, mid⟩, hcall, hr⟩ := h
  cases hr
  exact ⟨mid, hcall, rfl⟩

theorem run_deliver (offset : Nat) (call : Bytes → Talk Delivery) (scene : Scene Bytes) :
    (deliver offset call).run scene = (fun delivery => (delivery.outcome,
      (⟨scene.session, scene.subject.take offset ++
        overwrite (scene.subject.drop offset) delivery.output⟩ : Scene Bytes))) <$>
      call (scene.subject.drop offset) := by
  simp [deliver]

theorem goes_deliver {offset : Nat} {call : Bytes → Talk Delivery} {scene after : Scene Bytes}
    {r : Except Status Nat} :
    ((deliver offset call).run scene).Goes es (r, after) ↔
      ∃ delivery, (call (scene.subject.drop offset)).Goes es delivery ∧ r = delivery.outcome ∧
        after = ⟨scene.session, scene.subject.take offset ++
          overwrite (scene.subject.drop offset) delivery.output⟩ := by
  simp [run_deliver, Talk.goes_map]

/-- What the delivery of a write does to a running operation, in a window of some room. -/
def settleWrite (o : Operation) (last : Bool) (room : Nat) (delivery : Delivery) :
    Except Error Nat × Operation :=
  match delivery.outcome with
  | .ok n => if n ≤ room then (.ok n, if last then o.abandon else o)
    else (.error (.overreportedOutput n room), o.abandon)
  | .error s => (.error (.deviceStatus s), if s = Status.bufferTooSmall then o else o.abandon)

/-- A write is refused locally past the end of the buffer, and where no operation runs. Else the
token is called with the rest of the buffer. -/
theorem writeFrom_cases {direction : Direction} {last : Bool} {offset : Nat}
    {call : Handle → Bytes → Talk Delivery} {scene after : Scene Bytes} {outcome : Except Error Nat}
    (h : (writeFrom direction last offset call).Goes scene es outcome after) :
    (scene.subject.length < offset ∧ es = [] ∧
      outcome = .error (.invalidParameterLength .outputOffset scene.subject.length offset) ∧
      after = scene) ∨
    (offset ≤ scene.subject.length ∧
      (scene.session.operation direction.kind).isActive = false ∧ es = [] ∧
      outcome = .error (.operationNotActive direction.kind) ∧ after = scene) ∨
    (offset ≤ scene.subject.length ∧
      (scene.session.operation direction.kind).isActive = true ∧ ∃ delivery settled,
      (call scene.session.handle (scene.subject.drop offset)).Goes es delivery ∧
      settled = settleWrite (scene.session.operation direction.kind) last
        (scene.subject.length - offset) delivery ∧ outcome = settled.1 ∧
      after = ⟨scene.session.withOperation direction.kind settled.2,
        scene.subject.take offset ++ overwrite (scene.subject.drop offset) delivery.output⟩) := by
  obtain ⟨here, buffer⟩ := scene
  replace h := (goes_bind_silent rfl).mp h
  dsimp only at h ⊢
  by_cases hoffset : offset ≤ buffer.length
  · right
    rw [if_pos hoffset] at h
    obtain ⟨e, hcall, rfl⟩ | ⟨n, mid, before, rest, rfl, hcall, hrest⟩ := goes_bind.mp h
    · obtain ⟨hidle, rfl, he, rfl⟩ | ⟨hactive, r, mid, hr, he, rfl⟩ := advance_cases hcall
      · cases he
        exact .inl ⟨hoffset, hidle, rfl, rfl, rfl⟩
      · obtain ⟨delivery, hgoes, rfl, rfl⟩ := goes_deliver.mp hr
        refine .inr ⟨hoffset, hactive, delivery, _, hgoes, rfl, ?_⟩
        cases ho : delivery.outcome with
        | ok n =>
          rw [ho] at he
          cases he
        | error s =>
          rw [ho] at he
          cases he
          simp [settleWrite, ho, Operation.settle]
    · obtain ⟨-, -, hn, -⟩ | ⟨hactive, r, mid, hr, hn, rfl⟩ := advance_cases hcall
      · cases hn
      · obtain ⟨delivery, hgoes, rfl, rfl⟩ := goes_deliver.mp hr
        cases ho : delivery.outcome with
        | error s =>
          rw [ho] at hn
          cases hn
        | ok m =>
          rw [ho] at hn
          cases hn
          by_cases hfits : n ≤ buffer.length - offset
          · rw [if_pos hfits] at hrest
            obtain ⟨rfl, rfl, rfl⟩ := goes_pure.mp hrest
            refine .inr ⟨hoffset, hactive, delivery, _, by simpa using hgoes, rfl, ?_⟩
            simp [settleWrite, ho, hfits, Operation.settle]
          · rw [if_neg hfits] at hrest
            replace hrest := (goes_bind_silent (x := abandon direction.kind) rfl).mp hrest
            obtain ⟨rfl, rfl, rfl⟩ := goes_throw.mp hrest
            refine .inr ⟨hoffset, hactive, delivery, _, by simpa using hgoes, rfl, ?_⟩
            cases last <;> simp [settleWrite, ho, hfits, Operation.settle]
  · rw [if_neg hoffset] at h
    obtain ⟨rfl, rfl, rfl⟩ := goes_throw.mp h
    exact .inl ⟨by omega, rfl, rfl, rfl⟩

/-- A call with tries left is made again after a refusal for want of room, and only then. -/
theorem growing_cases {call : Action Bytes Nat} {n : Nat} {scene after : Scene Bytes}
    {outcome : Except Error Nat} (h : (growing call (n + 1)).Goes scene es outcome after) :
    (call.Goes scene es outcome after ∧
      outcome ≠ .error (.deviceStatus Status.bufferTooSmall)) ∨
    ∃ mid before rest, es = before ++ rest ∧
      call.Goes scene before (.error (.deviceStatus Status.bufferTooSmall)) mid ∧
      (growing call n).Goes
        ⟨mid.session, List.replicate (grownSize mid.subject.length) 0⟩ rest outcome after := by
  obtain ⟨a, hcall, rfl⟩ | ⟨e, mid, before, rest, rfl, hcall, hrest⟩ := goes_tryCatch.mp h
  · exact .inl ⟨hcall, by simp⟩
  · by_cases he : e = .deviceStatus Status.bufferTooSmall
    · rw [if_pos he] at hrest
      subst he
      replace hrest := (goes_bind_silent rfl).mp hrest
      replace hrest := (goes_bind_silent (f := fun _ => growing call n) rfl).mp hrest
      exact .inr ⟨mid, before, rest, rfl, hcall, hrest⟩
    · rw [if_neg he] at hrest
      obtain ⟨rfl, rfl, rfl⟩ := goes_throw.mp hrest
      exact .inl ⟨by simpa using hcall, by simpa using he⟩

/-- What is collected is in the buffer. -/
theorem collect_cases {part : String} {call : Action Bytes Nat} {scene after : Scene Bytes}
    {outcome : Except Error Bytes} (h : (collect part call).Goes scene es outcome after) :
    (∃ e, (growing call maxGrowth).Goes scene es (.error e) after ∧ outcome = .error e) ∨
    ∃ n, (growing call maxGrowth).Goes scene es (.ok n) after ∧
      ((n ≤ after.subject.length ∧ outcome = .ok (after.subject.take n)) ∨
      (after.subject.length < n ∧
        outcome = .error (.other ("Failed to collect " ++ part ++ " output")))) := by
  obtain ⟨e, hcall, rfl⟩ | ⟨n, mid, before, rest, rfl, hcall, hrest⟩ := goes_bind.mp h
  · exact .inl ⟨e, hcall, rfl⟩
  · replace hrest := (goes_bind_silent rfl).mp hrest
    by_cases hn : n ≤ mid.subject.length
    · rw [if_pos hn] at hrest
      obtain ⟨rfl, rfl, rfl⟩ := goes_pure.mp hrest
      exact .inr ⟨n, by simpa using hcall, .inl ⟨hn, rfl⟩⟩
    · rw [if_neg hn] at hrest
      obtain ⟨rfl, rfl, rfl⟩ := goes_throw.mp hrest
      exact .inr ⟨n, by simpa using hcall, .inr ⟨by omega, rfl⟩⟩

/-- The output of the final call is the last that is added. -/
theorem streamChunks_end {direction : Direction} {output : OutputBuffer}
    {scene after : Scene Bytes} {streamed : Except Error OutputBuffer}
    (h : (streamChunks direction output []).Goes scene es streamed after) :
    ∃ last, (collect "final" (cipherFinal direction 0)).Goes scene es last after ∧
      streamed = last.map output.extend := by
  obtain ⟨e, hcall, rfl⟩ | ⟨last, mid, before, rest, rfl, hcall, hend⟩ := goes_bind.mp h
  · exact ⟨.error e, hcall, rfl⟩
  · obtain ⟨rfl, rfl, rfl⟩ := goes_pure.mp hend
    exact ⟨.ok last, by simpa using hcall, rfl⟩

/-- A stream works on buffers of its own; its operation runs no more, however it went. -/
theorem stream_cases {direction : Direction} {data : Bytes} {outcome : Except Error Bytes}
    (h : (stream direction data).Goes scene es outcome after) :
    ∃ streamed mid, (streamChunks direction (.ofCapacity (scene.session.limits.roomFor data.length))
        (chunks scene.session.limits.chunkSize data)).Goes
        ⟨scene.session, List.replicate scene.session.limits.scratchSize 0⟩ es streamed mid ∧
      outcome = streamed.map OutputBuffer.bytes ∧
      after = ⟨mid.session.withOperation direction.kind
        (mid.session.operation direction.kind).abandon, scene.subject⟩ := by
  replace h := (goes_bind_silent rfl).mp h
  obtain ⟨e, hon, rfl⟩ | ⟨⟨output, buffer⟩, mid, before, rest, rfl, hon, hend⟩ := goes_bind.mp h
  · obtain ⟨r, mid, hcall, hr, rfl⟩ := on_cases hon
    obtain ⟨left, hchunks, rfl⟩ := abandoning_cases hcall
    cases r with
    | error f =>
      cases hr
      exact ⟨_, left, hchunks, rfl, rfl⟩
    | ok a => cases hr
  · obtain ⟨rfl, rfl, rfl⟩ := goes_pure.mp hend
    obtain ⟨r, mid, hcall, hr, rfl⟩ := on_cases hon
    obtain ⟨left, hchunks, rfl⟩ := abandoning_cases hcall
    cases r with
    | error f => cases hr
    | ok a =>
      cases hr
      exact ⟨_, left, by simpa using hchunks, rfl, rfl⟩

end Cryptoki.Action
