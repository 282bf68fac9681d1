import Cryptoki.Proofs.Session.Reports

/-! Each call reports what the token refused: whole texts, whose calls may be made again, and all
the others. -/
namespace Cryptoki

namespace Action

variable {ω α : Type} {bears : List Exchange → Exchange → Prop} {past es : List Exchange}
  {k : OperationKind}

/-- The request that is first after the past is borne, and what comes next reports. -/
theorem Reports.cons {x : Exchange} {outcome : Except Error α} (hx : bears past x)
    (h : Reports bears (past ++ [x]) es outcome) : Reports bears past (x :: es) outcome := by
  have hborne : ∀ before y rest status, [x] = before ++ y :: rest → y.refusal? = some status →
      bears (past ++ before) y := by
    intro before y rest status hsplit _
    obtain ⟨rfl, rfl, -⟩ := singleton_eq_append_cons hsplit
    simpa using hx
  exact .append hborne h

theorem shortages_of_taken {x : Exchange} (h : x.refusal? = none) :
    shortages (past ++ [x]) = 0 := by
  simp [shortages_concat, h]

theorem Single.taken {isStart : Bool} {action : Action ω α} {scene after : Scene ω} {a : α}
    (h : Single isStart action) (hgoes : action.Goes scene es (.ok a) after) :
    shortages (past ++ es) = 0 := by
  rcases h hgoes with ⟨-, -, hfailed⟩ | ⟨x, rfl, -, hx⟩
  · exact absurd rfl (hfailed a)
  · apply shortages_of_taken
    cases hr : x.refusal? with
    | none => rfl
    | some status => cases (hx status).mp hr

/-- What is borne in a whole text. -/
def BearsShortages (bears : List Exchange → Exchange → Prop) : Prop :=
  ∀ past x, x.WantsRoom → shortages past < maxGrowth → bears past x

section Growing

variable {call : Action Bytes Nat} {scene after : Scene Bytes} (hcall : Single false call)
  (hbears : BearsShortages bears)
include hcall hbears

/-- A call that is made again for want of room bears the wants of room that are left to it. -/
theorem reports_growing {n : Nat} {outcome : Except Error Nat}
    (hpast : shortages past + n = maxGrowth)
    (hgoes : (growing call n).Goes scene es outcome after) :
    Reports bears past es outcome ∧ ∀ m, outcome = .ok m → shortages (past ++ es) = 0 := by
  have honce : ∀ {past scene es outcome after}, call.Goes scene es outcome after →
      Reports bears past es outcome ∧ ∀ m, outcome = .ok m → shortages (past ++ es) = 0 := by
    intro past scene es outcome after hgoes
    refine ⟨hcall.reporting hgoes, ?_⟩
    rintro m rfl
    exact hcall.taken hgoes
  induction n generalizing past scene es with
  | zero => exact honce hgoes
  | succ n ih =>
    rcases growing_cases hgoes with ⟨hfirst, -⟩ | ⟨mid, before, rest, rfl, hshort, hagain⟩
    · exact honce hfirst
    rcases hcall hshort with ⟨-, hlocal, -⟩ | ⟨x, rfl, hlater, hx⟩
    · exact absurd rfl (hlocal _)
    have hwants : x.refusal? = some Status.bufferTooSmall := (hx _).mpr rfl
    have hborne : bears past x := hbears past x ⟨hlater, hwants⟩ (by omega)
    have hleft : shortages (past ++ [x]) + n = maxGrowth := by
      rw [shortages_concat, if_pos hwants]
      omega
    obtain ⟨hreports, htaken⟩ := ih hleft hagain
    refine ⟨.cons hborne hreports, ?_⟩
    rintro m rfl
    simpa using htaken m rfl

theorem reports_collect {part : String} {outcome : Except Error Bytes} (hpast : shortages past = 0)
    (hgoes : (collect part call).Goes scene es outcome after) :
    Reports bears past es outcome ∧
      ∀ output, outcome = .ok output → shortages (past ++ es) = 0 := by
  have hfresh : shortages past + maxGrowth = maxGrowth := by omega
  rcases collect_cases hgoes with ⟨e, hgrowing, rfl⟩ | ⟨n, hgrowing, hcollected⟩
  · exact ⟨(reports_growing hcall hbears hfresh hgrowing).1.failed, by simp⟩
  · obtain ⟨hreports, htaken⟩ := reports_growing hcall hbears hfresh hgrowing
    rcases hcollected with ⟨-, rfl⟩ | ⟨-, rfl⟩
    · exact ⟨hreports.ended (isLocal_ok _), fun _ _ => htaken n rfl⟩
    · exact ⟨hreports.ended (isLocal_error rfl), by simp⟩

end Growing

theorem single_cipherUpdate {direction : Direction} (input : Bytes) {offset : Nat} :
    Single false (cipherUpdate direction input offset) :=
  single_writeFrom fun _ _ => once_request rfl fun _ => rfl

theorem single_cipherFinal {direction : Direction} {offset : Nat} :
    Single false (cipherFinal direction offset) :=
  single_writeFrom fun _ _ => once_request rfl fun _ => rfl

/-- A piece is begun only after the one before it was taken, with all its tries before it. -/
theorem reporting_streamChunks {direction : Direction} (output : OutputBuffer) (pieces : List Bytes)
    (hbears : BearsShortages bears) (hpast : shortages past = 0) :
    Reporting bears past (streamChunks direction output pieces) := by
  induction pieces generalizing past output with
  | nil =>
    refine reporting_bind (fun scene es outcome after hgoes => ?_) fun _ => ?_
    · exact (reports_collect single_cipherFinal hbears hpast hgoes).1
    · exact reporting_silent fun _ => ⟨_, _, rfl⟩
  | cons piece pieces ih =>
    have hpiece : Single false (cipherUpdate direction piece 0) := single_cipherUpdate piece
    refine reporting_bind (fun scene es outcome after hgoes => ?_) fun {more _ es _} hgoes => ?_
    · exact (reports_collect hpiece hbears hpast hgoes).1
    · exact ih _ ((reports_collect hpiece hbears hpast hgoes).2 more rfl)

theorem reporting_cipherAll {direction : Direction} (key : Object) (data : Bytes)
    (hbears : BearsShortages bears) : Reporting bears past (cipherAll direction key data) := by
  have hstart := single_startWith direction.kind key
  refine reporting_bind hstart.reporting fun {_ _ es _} hgoes => ?_
  intro scene fs outcome after hstream
  obtain ⟨streamed, mid, hchunks, rfl, -⟩ := stream_cases hstream
  have hreports : Reports bears (past ++ es) fs streamed :=
    reporting_streamChunks _ _ hbears (hstart.taken hgoes) hchunks
  cases streamed with
  | error e => exact hreports.failed
  | ok output => exact hreports.ended (isLocal_ok _)

theorem single_absorb (absorber : Absorber) (data : Bytes) :
    Single false (absorb absorber data : Action ω Unit) :=
  single_session fun _ => single_advance (once_request rfl fun _ => rfl)

theorem single_signFinal : Single false (signFinal : Action ω Bytes) :=
  single_session fun _ => single_advance (once_request rfl fun _ => rfl)

theorem single_digestFinal : Single false (digestFinal : Action ω Bytes) :=
  single_session fun _ => single_advance (once_request rfl fun _ => rfl)

/-- A verdict is borne; any other refusal of the signature is reported. -/
theorem reporting_verifyFinal (signature : Bytes)
    (hbears : ∀ past x, x.Rejects → bears past x) :
    Reporting bears past (verifyFinal signature : Action ω Bool) := by
  intro scene es outcome after hgoes
  replace hgoes := (goes_bind_silent rfl).mp hgoes
  have hcalled : (advance .verify true (liftM (verdict <$>
      Talk.request (.verifyFinal scene.session.handle signature))) : Action ω Bool).Goes
      scene es outcome after := hgoes
  rcases advance_cases hcalled with ⟨-, rfl, rfl, -⟩ | ⟨-, r, mid, hcall, rfl, -⟩
  · exact reports_nil (isLocal_error rfl)
  obtain ⟨x, hx, rfl⟩ := Talk.goes_map.mp (goes_lifted.mp hcall).1
  obtain rfl := Talk.goes_request.mp hx
  cases x with
  | ok u => exact reports_single fun s => by simp [Exchange.refusal?, verdict, Operation.settle]
  | error status =>
    by_cases hverdict : status = Status.signatureInvalid ∨ status = Status.signatureLenRange
    · refine ⟨fun before y rest s hsplit _ hborne => ?_,
        by simp [verdict, hverdict, Operation.settle]⟩
      obtain ⟨rfl, rfl, -⟩ := singleton_eq_append_cons hsplit
      refine absurd (hbears _ _ ?_) hborne
      exact hverdict.imp (congrArg _) (congrArg _)
    · exact reports_single fun s => by
        simp [Exchange.refusal?, verdict, hverdict, Operation.settle]

section Objects

theorem reporting_readAttributes (o : Object) :
    Reporting bears past (readAttributes o : Action ω Object) := by
  refine reporting_bind_lift (reporting_local (isLocal_liveHandle o)) fun handle _ => ?_
  refine reporting_bind_silent (fun _ => ⟨_, _, rfl⟩) fun here => ?_
  refine reporting_ask (fun _ => rfl) fun x readouts hx => reporting_lift fun status he => ?_
  subst hx
  exact ⟨past, _, rfl, .inr (Object.tells_of_refresh he)⟩

theorem reporting_adopt (v : ObjectVariant) (handle : Handle) :
    Reporting bears past (adopt v handle : Action ω Object) :=
  reporting_readAttributes _

theorem reporting_createObject (template : Object) :
    Reporting bears past (createObject template : Action ω Object) := by
  refine reporting_bind_lift (reporting_local (isLocal_toTemplate template)) fun entries _ => ?_
  refine reporting_bind_silent (fun _ => ⟨_, _, rfl⟩) fun here => ?_
  exact reporting_ask (fun _ => rfl) fun x handle _ => reporting_adopt template.variant handle

theorem reporting_generateKey (template : Object) :
    Reporting bears past (generateKey template) := by
  refine reporting_bind_lift (reporting_local (isLocal_toTemplate template)) fun entries _ => ?_
  refine reporting_bind_silent (fun _ => ⟨_, _, rfl⟩) fun here => ?_
  have hgenerates := single_useMechanism fun native =>
    once_request (r := .generateKey here.handle native entries) rfl fun _ => rfl
  exact reporting_bind hgenerates.reporting fun _ => reporting_adopt _ _

theorem reporting_generateKeyPair (publicTemplate privateTemplate : Object) :
    Reporting bears past (generateKeyPair publicTemplate privateTemplate) := by
  refine reporting_bind_lift (reporting_local (isLocal_toTemplate _)) fun publicEntries _ => ?_
  refine reporting_bind_lift (reporting_local (isLocal_toTemplate _)) fun privateEntries _ => ?_
  refine reporting_bind_silent (fun _ => ⟨_, _, rfl⟩) fun here => ?_
  have hgenerates := single_useMechanism fun native => once_request
    (r := .generateKeyPair here.handle native publicEntries privateEntries) rfl fun _ => rfl
  refine reporting_bind hgenerates.reporting fun _ => ?_
  refine reporting_bind (reporting_adopt _ _) fun _ => ?_
  exact reporting_bind (reporting_adopt _ _) fun _ => reporting_silent fun _ => ⟨_, _, rfl⟩

theorem reporting_deriveKey (base template : Object) :
    Reporting bears past (deriveKey base template) := by
  refine reporting_bind_lift (reporting_local (isLocal_liveHandle base)) fun handle _ => ?_
  refine reporting_bind_lift (reporting_local (isLocal_toTemplate template)) fun entries _ => ?_
  refine reporting_bind_silent (fun _ => ⟨_, _, rfl⟩) fun here => ?_
  have hderives := single_useMechanism fun native =>
    once_request (r := .deriveKey here.handle native handle entries) rfl fun _ => rfl
  refine reporting_bind hderives.reporting fun {derived _ _ _} _ => ?_
  cases derived with
  | none => exact reporting_silent fun _ => ⟨_, _, rfl⟩
  | some handle =>
    dsimp only
    rw [← bind_pure_comp]
    exact reporting_bind (reporting_adopt _ _) fun _ => reporting_silent fun _ => ⟨_, _, rfl⟩

theorem reporting_destroyObject : Reporting bears past destroyObject := by
  refine reporting_bind_silent (fun _ => ⟨_, _, rfl⟩) fun o => ?_
  refine reporting_bind_lift (reporting_local (isLocal_liveHandle o)) fun handle _ => ?_
  refine reporting_bind_silent (fun _ => ⟨_, _, rfl⟩) fun here => ?_
  refine reporting_ask (fun _ => rfl) fun x _ _ => ?_
  refine reporting_bind_lift (reporting_local ((isLocal_liveHandle o).map _)) fun destroyed _ => ?_
  exact reporting_silent fun _ => ⟨_, _, rfl⟩

theorem reporting_refreshObject : Reporting bears past refreshObject := by
  refine reporting_bind_silent (fun _ => ⟨_, _, rfl⟩) fun o => ?_
  exact reporting_bind (reporting_readAttributes o) fun _ => reporting_silent fun _ => ⟨_, _, rfl⟩

theorem reporting_readObject (handle : Handle) :
    Reporting bears past (readObject handle : Action ω Object) := by
  refine reporting_bind_silent (fun _ => ⟨_, _, rfl⟩) fun here => ?_
  refine reporting_ask (fun _ => rfl) fun x readouts hx => ?_
  refine reporting_bind_lift (reporting_lift fun status he => ?_) fun v _ =>
    reporting_adopt v handle
  subst hx
  exact ⟨past, _, rfl, .inr (Object.tells_of_identify he)⟩

end Objects

/-- What is asked and passed on, once it was accepted. -/
theorem reporting_snapshot {ν : Type} {r : Request} {view : r.Answer → Except Status ν}
    (hview : ∀ x, Exchange.refusal? ⟨r, x⟩ = Outcome.failure? (view x)) (f : ν → α) :
    Reporting bears past
      (ask r >>= fun x => liftM (accepted (view x)) >>= fun a => pure (f a) : Action ω α) :=
  reporting_ask hview fun _ _ _ => reporting_silent fun _ => ⟨_, _, rfl⟩

theorem reporting_mechanismInfo (mechanism : Word) :
    Reporting bears past (mechanismInfo mechanism : Action ω MechanismInfo) := by
  intro scene es outcome after hgoes
  replace hgoes := (goes_bind_silent rfl).mp hgoes
  obtain ⟨x, rest, rfl, hrest⟩ := goes_bind_ask.mp hgoes
  obtain ⟨rfl, rfl, -⟩ := goes_lift.mp hrest
  refine reports_single fun status => ?_
  cases x <;> simp [Exchange.refusal?]

end Action

namespace Call

open Cryptoki.Action

/-- Each call reports, with the refusals that it bears. -/
theorem reporting (call : Call) : Reporting call.Bears [] call.action := by
  have hsession : ∀ {ω : Type} (scene : Scene ω),
      ∃ a left, (session : Action ω Session).run.run scene = pure (.ok a, left) :=
    fun _ => ⟨_, _, rfl⟩
  cases call with
  | start kind mechanism key => exact (single_startWith kind key).reporting
  | startDigest mechanism => exact (single_start .digest none).reporting
  | cipherUpdate direction input buffer offset => exact (single_cipherUpdate input).reporting
  | cipherFinal direction buffer offset => exact single_cipherFinal.reporting
  | cipherAll direction mechanism key data =>
    exact reporting_cipherAll key data fun past x hwants hleft => .inr ⟨rfl, hwants, hleft⟩
  | absorb absorber data => exact (single_absorb absorber data).reporting
  | signFinal => exact single_signFinal.reporting
  | verifyFinal signature => exact reporting_verifyFinal signature fun _ _ h => .inl h
  | digestFinal => exact single_digestFinal.reporting
  | sign mechanism key data =>
    refine reporting_bind (single_startWith .sign key).reporting fun _ => ?_
    exact reporting_bind (single_absorb .sign data).reporting fun _ => single_signFinal.reporting
  | verify mechanism key data signature =>
    refine reporting_bind (single_startWith .verify key).reporting fun _ => ?_
    refine reporting_bind (single_absorb .verify data).reporting fun _ => ?_
    exact reporting_verifyFinal signature fun _ _ h => .inl h
  | digest mechanism data =>
    refine reporting_bind (single_start .digest none).reporting fun _ => ?_
    refine reporting_bind (single_absorb .digest data).reporting fun _ => ?_
    exact single_digestFinal.reporting
  | reset k => exact reporting_silent fun _ => ⟨_, _, rfl⟩
  | createObject template => exact reporting_createObject template
  | generateKey mechanism template => exact reporting_generateKey template
  | generateKeyPair mechanism publicTemplate privateTemplate =>
    exact reporting_generateKeyPair publicTemplate privateTemplate
  | deriveKey mechanism base template => exact reporting_deriveKey base template
  | destroyObject object => exact reporting_destroyObject
  | refreshObject object => exact reporting_refreshObject
  | readObject handle => exact reporting_readObject handle
  | sessionInfo => exact reporting_bind_silent hsession fun _ => reporting_snapshot (fun _ => rfl) _
  | tokenInfo => exact reporting_bind_silent hsession fun _ => reporting_snapshot (fun _ => rfl) _
  | mechanismInfo mechanism => exact reporting_mechanismInfo mechanism
  | moduleInfo => exact reporting_snapshot (fun _ => rfl) _

/-- What the token refuses is reported as it is. Where a request is refused, it is the last one, and
the call fails with the status of the refusal. Two refusals are borne: the verdict that a signature
is wrong, and the want of room in a whole text, as long as tries are left. And no call fails with a
status that was not told at the end, for a request or for an attribute that was read. -/
theorem reports_verbatim (token : Token σ) (t : σ) (session : Session) (call : Call) :
    ∃ outcome after es u, call.run token session t = ((outcome, after), es, u) ∧
      (∀ before x rest status, es = before ++ x :: rest → x.refusal? = some status →
        ¬ call.Bears before x → rest = [] ∧ outcome = .error (.deviceStatus status)) ∧
      ∀ status, outcome = .error (.deviceStatus status) →
        ∃ before x, es = before ++ [x] ∧ x.Tells status := by
  obtain ⟨⟨⟨outcome, after⟩, es, u⟩, hrun⟩ : ∃ r, call.run token session t = r := ⟨_, rfl⟩
  have hreports := call.reporting (Talk.run_eq_iff.mp hrun).1
  exact ⟨outcome, after, es, u, hrun, hreports.stops, hreports.source⟩

end Call

end Cryptoki
