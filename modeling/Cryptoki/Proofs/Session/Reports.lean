import Cryptoki.Proofs.Object.Statuses
import Cryptoki.Proofs.Session.FailFast
import Cryptoki.Proofs.Session.Objects
import Cryptoki.Proofs.Session.OneShot

/-! Refusals of the token are reported as they are: the call stops there and fails with the status,
and it fails with no status that the token did not tell. -/
namespace Cryptoki

namespace Exchange

/-- The readouts that came back. -/
def readouts : Exchange → List Readout
  | ⟨.readAttributes _ _ _, .ok readouts⟩ => readouts
  | _ => []

/-- The token tells a status, for the request or for an attribute that was to be read. -/
def Tells (x : Exchange) (status : Status) : Prop :=
  x.refusal? = some status ∨ ∃ r ∈ x.readouts, r.Tells status

end Exchange

/-- How often the token has asked for more room, in a row up to now. -/
def shortages (past : List Exchange) : Nat :=
  (past.reverse.takeWhile fun x => x.refusal? = some Status.bufferTooSmall).length

theorem shortages_concat (past : List Exchange) (x : Exchange) :
    shortages (past ++ [x]) =
      if x.refusal? = some Status.bufferTooSmall then shortages past + 1 else 0 := by
  by_cases hx : x.refusal? = some Status.bufferTooSmall <;> simp [shortages, hx]

/-- A refusal that a call does not stop at: the verdict on a signature, and the want of room in a
whole text while the buffer may still grow. -/
def Call.Bears (call : Call) (before : List Exchange) (x : Exchange) : Prop :=
  x.Rejects ∨ call.isWhole = true ∧ x.WantsRoom ∧ shortages before < Action.maxGrowth

namespace Action

variable {ω α β : Type} {bears : List Exchange → Exchange → Prop} {past es fs : List Exchange}
  {x : Exchange}

/-- What was exchanged after some past, with the outcome it led to. -/
structure Reports (bears : List Exchange → Exchange → Prop) (past es : List Exchange)
    (outcome : Except Error α) : Prop where
  stops : ∀ before x rest status, es = before ++ x :: rest → x.refusal? = some status →
    ¬ bears (past ++ before) x → rest = [] ∧ outcome = .error (.deviceStatus status)
  source : ∀ status, outcome = .error (.deviceStatus status) →
    ∃ before x, past ++ es = before ++ [x] ∧ x.Tells status

theorem reports_nil {outcome : Except Error α} (h : IsLocal outcome) :
    Reports bears past [] outcome where
  stops := by simp
  source status he := absurd he (h status)

theorem singleton_eq_append_cons {y : Exchange} {before rest : List Exchange}
    (h : [x] = before ++ y :: rest) : before = [] ∧ y = x ∧ rest = [] := by
  cases before with
  | nil => simpa [eq_comm] using h
  | cons z zs => simp at h

/-- The answer to a single request decides what status there is to report. -/
theorem reports_single {outcome : Except Error α}
    (h : ∀ status, x.refusal? = some status ↔ outcome = .error (.deviceStatus status)) :
    Reports bears past [x] outcome where
  stops before y rest status hsplit hy _ := by
    obtain ⟨rfl, rfl, rfl⟩ := singleton_eq_append_cons hsplit
    exact ⟨rfl, (h status).mp hy⟩
  source status he := ⟨past, x, rfl, .inl ((h status).mpr he)⟩

/-- Where what went before was taken or borne, all depends on what comes after. -/
theorem Reports.append {outcome : Except Error β}
    (hes : ∀ before x rest status, es = before ++ x :: rest → x.refusal? = some status →
      bears (past ++ before) x)
    (h : Reports bears (past ++ es) fs outcome) : Reports bears past (es ++ fs) outcome where
  stops before y rest status hsplit hy hbears := by
    rcases List.append_eq_append_iff.mp hsplit with ⟨between, rfl, hfs⟩ | ⟨between, rfl, hlater⟩
    · rw [← List.append_assoc] at hbears
      exact h.stops between y rest status hfs hy hbears
    · cases between with
      | nil =>
        rw [List.append_nil] at h
        exact h.stops [] y rest status hlater.symm hy (by simpa using hbears)
      | cons z zs =>
        obtain ⟨rfl, rfl⟩ : y = z ∧ rest = zs ++ fs := by simpa using hlater
        exact absurd (hes before y zs status rfl hy) hbears
  source status he := by
    rw [← List.append_assoc]
    exact h.source status he

/-- A part that ended well was refused nothing that it did not bear. -/
theorem Reports.borne {a : α} (h : Reports bears past es (.ok a)) :
    ∀ before x rest status, es = before ++ x :: rest → x.refusal? = some status →
      bears (past ++ before) x := by
  intro before y rest status hsplit hy
  by_contra hbears
  cases (h.stops before y rest status hsplit hy hbears).2

/-- After a part that ended well, a failure of the caller's own making reports as well. -/
theorem Reports.ended {a : α} {outcome : Except Error β} (h : Reports bears past es (.ok a))
    (hlocal : IsLocal outcome) : Reports bears past es outcome where
  stops before y rest status hsplit hy hbears :=
    absurd (h.borne before y rest status hsplit hy) hbears
  source status he := absurd he (hlocal status)

theorem Reports.failed {e : Error} (h : Reports bears past es (.error e : Except Error α)) :
    Reports bears past es (.error e : Except Error β) where
  stops before y rest status hsplit hy hbears := by
    simpa using h.stops before y rest status hsplit hy hbears
  source status he := h.source status (by simpa using he)

/-- All courses of the action report, if it is taken after the past. -/
def Reporting (bears : List Exchange → Exchange → Prop) (past : List Exchange)
    (action : Action ω α) : Prop :=
  ∀ ⦃scene : Scene ω⦄ ⦃es : List Exchange⦄ ⦃outcome : Except Error α⦄ ⦃after : Scene ω⦄,
    action.Goes scene es outcome after → Reports bears past es outcome

theorem reporting_bind {x : Action ω α} {f : α → Action ω β} (hx : Reporting bears past x)
    (hf : ∀ {a scene es mid}, x.Goes scene es (.ok a) mid → Reporting bears (past ++ es) (f a)) :
    Reporting bears past (x >>= f) := by
  intro scene es outcome after hgoes
  rcases goes_bind.mp hgoes with ⟨e, he, rfl⟩ | ⟨a, mid, before, rest, rfl, ha, hrest⟩
  · exact (hx he).failed
  · exact (hf ha hrest).append (hx ha).borne

/-- A failure that is no status, or one that was told last. -/
theorem reporting_lift {x : Except Error α}
    (h : ∀ status, x = .error (.deviceStatus status) →
      ∃ before y, past = before ++ [y] ∧ y.Tells status) :
    Reporting bears past (liftM x : Action ω α) := by
  intro scene es outcome after hgoes
  obtain ⟨rfl, rfl, -⟩ := goes_lift.mp hgoes
  refine ⟨by simp, fun status he => ?_⟩
  obtain ⟨before, y, rfl, hy⟩ := h status he
  exact ⟨before, y, by simp, hy⟩

theorem reporting_local {x : Except Error α} (h : IsLocal x) :
    Reporting bears past (liftM x : Action ω α) :=
  reporting_lift fun status he => absurd he (h status)

theorem reporting_bind_lift {x : Except Error α} {f : α → Action ω β}
    (hx : Reporting bears past (liftM x : Action ω α))
    (hf : ∀ a, x = .ok a → Reporting bears past (f a)) :
    Reporting bears past (liftM x >>= f : Action ω β) := by
  refine reporting_bind hx fun {a scene es mid} hgoes => ?_
  obtain ⟨rfl, ha, -⟩ := goes_lift.mp hgoes
  rw [List.append_nil]
  exact hf a ha.symm

theorem reporting_silent {x : Action ω α}
    (h : ∀ scene, ∃ a left, x.run.run scene = pure (.ok a, left)) : Reporting bears past x := by
  intro scene es outcome after hgoes
  obtain ⟨a, left, hrun⟩ := h scene
  obtain ⟨rfl, rfl, -⟩ := (goes_silent hrun).mp hgoes
  exact reports_nil (isLocal_ok a)

theorem reporting_bind_silent {x : Action ω α} {f : α → Action ω β}
    (h : ∀ scene, ∃ a left, x.run.run scene = pure (.ok a, left))
    (hf : ∀ a, Reporting bears past (f a)) : Reporting bears past (x >>= f) := by
  intro scene es outcome after hgoes
  obtain ⟨a, left, hrun⟩ := h scene
  exact hf a ((goes_bind_silent hrun).mp hgoes)

/-- A request whose answer the action goes on from only if it was accepted. -/
theorem reporting_ask {r : Request} {view : r.Answer → Except Status α}
    (hview : ∀ x, Exchange.refusal? ⟨r, x⟩ = Outcome.failure? (view x)) {f : α → Action ω β}
    (hf : ∀ x a, view x = .ok a → Reporting bears (past ++ [⟨r, x⟩]) (f a)) :
    Reporting bears past (ask r >>= fun x => liftM (accepted (view x)) >>= f) := by
  intro scene es outcome after hgoes
  obtain ⟨x, rest, rfl, hanswer⟩ := goes_bind_ask.mp hgoes
  cases hx : view x with
  | error status =>
    rw [hx] at hanswer
    rcases goes_bind_lift.mp hanswer with ⟨e, he, rfl, rfl, -⟩ | ⟨a, ha, -⟩
    · cases he
      exact reports_single fun s => by simp [hview, hx]
    · cases ha
  | ok a =>
    rw [hx] at hanswer
    rcases goes_bind_lift.mp hanswer with ⟨e, he, -⟩ | ⟨b, hb, hrest⟩
    · cases he
    · cases hb
      have htaken : ∀ before y later status, [⟨r, x⟩] = before ++ y :: later →
          y.refusal? = some status → bears (past ++ before) y := by
        intro before y later status hsplit hy
        obtain ⟨-, rfl, -⟩ := singleton_eq_append_cons hsplit
        simp [hview, hx] at hy
      exact .append htaken (hf x a hx hrest)

/-- An action of one request at most. It fails with a status if the request is refused with it, and
only then. -/
def Single (isStart : Bool) (action : Action ω α) : Prop :=
  ∀ ⦃scene : Scene ω⦄ ⦃es : List Exchange⦄ ⦃outcome : Except Error α⦄ ⦃after : Scene ω⦄,
    action.Goes scene es outcome after →
      (es = [] ∧ IsLocal outcome ∧ ∀ a, outcome ≠ .ok a) ∨
      ∃ x, es = [x] ∧ x.request.isStart = isStart ∧
        ∀ status, x.refusal? = some status ↔ outcome = .error (.deviceStatus status)

theorem Single.reporting {isStart : Bool} {action : Action ω α} (h : Single isStart action) :
    Reporting bears past action := by
  intro scene es outcome after hgoes
  rcases h hgoes with ⟨rfl, hlocal, -⟩ | ⟨x, rfl, -, hx⟩
  · exact reports_nil hlocal
  · exact reports_single hx

theorem Checks.isLocal {P : Error → Prop} {x : Except Error α} (h : Checks P x)
    (hP : ∀ e, P e → e.status? = none) : IsLocal x := by
  intro status he
  cases hP _ (h.told _ he)

theorem isLocal_liveHandle (o : Object) : IsLocal o.liveHandle :=
  Checks.isLocal o.checks_liveHandle fun e he => by cases he <;> rfl

theorem isLocal_toTemplate (o : Object) : IsLocal o.toTemplate :=
  Checks.isLocal o.checks_toTemplate fun e he => by cases he; rfl

theorem isLocal_toNative (m : Mechanism) (host : HostLayouts) : IsLocal (m.toNative host) :=
  Checks.isLocal (m.checks_toNative host) fun e he => by cases he <;> rfl

theorem single_start (k : OperationKind) (key : Option Handle) : Single true (start k key) := by
  intro scene es outcome after hgoes
  rcases start_cases hgoes with
    ⟨-, rfl, rfl, -⟩ | ⟨-, ⟨e, he, rfl, rfl, -⟩ | ⟨native, reply, -, rfl, hreply⟩⟩
  · exact .inl ⟨rfl, isLocal_error rfl, by simp⟩
  · refine .inl ⟨rfl, ?_, by simp⟩
    rintro status ⟨⟩
    exact isLocal_toNative _ _ status he
  · refine .inr ⟨_, rfl, rfl, fun status => ?_⟩
    rcases hreply with ⟨ho, rfl, -⟩ | ⟨s, ho, rfl, -⟩
    · simp [Exchange.refusal?, ho]
    · simp [Exchange.refusal?, ho]

theorem single_startWith (k : OperationKind) (key : Object) : Single true (startWith k key) := by
  intro scene es outcome after hgoes
  rcases startWith_cases hgoes with ⟨e, he, rfl, rfl, -⟩ | ⟨handle, -, hstart⟩
  · refine .inl ⟨rfl, ?_, by simp⟩
    rintro status ⟨⟩
    exact isLocal_liveHandle key status he
  · exact single_start k (some handle) hstart

theorem single_useMechanism {call : NativeMechanism → Talk (Mechanism.Reply α)}
    (hcall : ∀ native, Once (call native) Mechanism.Reply.outcome) :
    Single false (useMechanism call) := by
  intro scene es outcome after hgoes
  obtain ⟨m, huse, -⟩ := useMechanism_cases hgoes
  rcases use_cases huse with ⟨e, he, rfl, hr⟩ | ⟨native, reply, -, htalk, hreply⟩
  · cases hr
    refine .inl ⟨rfl, ?_, by simp⟩
    rintro status ⟨⟩
    exact isLocal_toNative _ _ status he
  · obtain ⟨x, rfl, hstart, hx⟩ := hcall native htalk
    refine .inr ⟨x, rfl, hstart, fun status => ?_⟩
    rcases hreply with ⟨a, ho, hr⟩ | ⟨s, ho, hr⟩
    · cases hr
      simp [hx, ho]
    · cases hr
      simp [hx, ho]

theorem single_advance {k : OperationKind} {last : Bool} {t : Talk (Except Status α)}
    (ht : Once t id) : Single false (advance k last (liftM t) : Action ω α) := by
  intro scene es outcome after hgoes
  rcases advance_cases hgoes with ⟨-, rfl, rfl, -⟩ | ⟨-, r, mid, hcall, rfl, -⟩
  · exact .inl ⟨rfl, isLocal_error rfl, by simp⟩
  · obtain ⟨x, rfl, hstart, hx⟩ := ht (goes_lifted.mp hcall).1
    refine .inr ⟨x, rfl, hstart, fun status => ?_⟩
    cases r <;> simp [hx, Operation.settle]

theorem single_session {isStart : Bool} {f : Session → Action ω α}
    (hf : ∀ here, Single isStart (f here)) : Single isStart (session >>= f) := by
  intro scene es outcome after hgoes
  exact hf _ ((goes_bind_silent rfl).mp hgoes)

theorem single_writeFrom {direction : Direction} {last : Bool} {offset : Nat}
    {call : Handle → Bytes → Talk Delivery}
    (hcall : ∀ here window, Once (call here window) Delivery.outcome) :
    Single false (writeFrom direction last offset call) := by
  intro scene es outcome after hgoes
  rcases writeFrom_cases hgoes with ⟨-, rfl, rfl, -⟩ | ⟨-, -, rfl, rfl, -⟩ |
    ⟨-, -, delivery, settled, htalk, rfl, rfl, -⟩
  · exact .inl ⟨rfl, isLocal_error rfl, by simp⟩
  · exact .inl ⟨rfl, isLocal_error rfl, by simp⟩
  · obtain ⟨x, rfl, hstart, hx⟩ := hcall _ _ htalk
    refine .inr ⟨x, rfl, hstart, fun status => ?_⟩
    rw [hx, settleWrite]
    cases delivery.outcome with
    | error s => simp
    | ok n =>
      dsimp only
      split <;> simp

end Action

end Cryptoki
