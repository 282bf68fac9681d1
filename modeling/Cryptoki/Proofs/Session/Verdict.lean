import Cryptoki.Proofs.Session.Locality
import Cryptoki.Proofs.Session.Refusals
import Cryptoki.Proofs.Session.Release
import Cryptoki.Token.Script

/-! Verdicts on signatures: what the token took before it came to one, and that it comes to no second
one. -/
namespace Cryptoki

variable {σ ω α : Type} {token : Token σ} {k : OperationKind} {call : Call} {s u : Session}
  {t v : σ} {es : List Exchange}

theorem Object.liveHandle_eq_ok_iff {o : Object} {handle : Handle} :
    o.liveHandle = .ok handle ↔ o.state = .bound handle := by
  rw [liveHandle]
  cases o.state <;> simp

namespace Call

/-- Where no operation of a kind runs, a call that does not begin one tells the token nothing of the
kind, and none runs afterwards. -/
theorem stays_idle {outcome : Except Error call.Result} {after : Scene call.Subject}
    (hopens : call.opens? ≠ some k) (hidle : (s.operation k).isActive = false)
    (hgoes : call.action.Goes ⟨s, call.subject⟩ es outcome after) :
    (∀ x ∈ es, x.request.kind? ≠ some k) ∧ (after.session.operation k).isActive = false := by
  by_cases hkind : call.kind? = some k
  · by_cases hcontinues : call.continues? = some k
    · obtain ⟨rfl, -, rfl⟩ := refuses_continuing hcontinues hidle _ _ _ hgoes
      exact ⟨by simp, hidle⟩
    · -- Of the calls of the kind only the reset is left, which forgets what it does not find.
      obtain rfl : call = .reset k := by
        cases call <;> simp_all [Call.kind?, opens?, continues?]
      obtain ⟨rfl, -, rfl⟩ := Action.goes_setOperation.mp hgoes
      exact ⟨by simp, by simp [Operation.isActive]⟩
  · have hkeeps := call.keeps hgoes
    refine ⟨fun x hx => ?_, ?_⟩
    · rw [hkeeps.kind x hx]
      exact hkind
    · have hshares := (Session.Shares.refl (some k) s).of_keeps hkeeps hkind
      rwa [← hshares.operation]

end Call

/-- Whatever is called without beginning an operation of the kind, none comes to run. -/
theorem play_stays_idle {calls : List Call} {events : List Event}
    (hopens : ∀ call ∈ calls, call.opens? ≠ some k) (hidle : (s.operation k).isActive = false)
    (hplay : play token calls s t = (events, u, v)) :
    (∀ call x, .exchange call x ∈ events → x.request.kind? ≠ some k) ∧
      (u.operation k).isActive = false := by
  induction calls generalizing s t events with
  | nil =>
    cases hplay
    exact ⟨by simp, hidle⟩
  | cons call calls ih =>
    obtain ⟨hcall, hcalls⟩ := List.forall_mem_cons.mp hopens
    obtain ⟨⟨⟨outcome, after⟩, es, w⟩, hrun⟩ : ∃ r, call.run token s t = r := ⟨_, rfl⟩
    obtain ⟨⟨later, left, x⟩, hrest⟩ : ∃ r, play token calls after.session w = r := ⟨_, rfl⟩
    simp only [play, hrun, hrest] at hplay
    cases hplay
    obtain ⟨hes, hmid⟩ := Call.stays_idle hcall hidle (Talk.run_eq_iff.mp hrun).1
    obtain ⟨hlater, hend⟩ := ih hcalls hmid hrest
    refine ⟨fun c x hx => ?_, hend⟩
    rcases List.mem_append.mp hx with hx | hx
    · obtain ⟨y, hy, ⟨⟩⟩ := List.mem_map.mp hx
      exact hes x hy
    · exact hlater c x (by simpa using hx)

namespace Action

variable {scene after : Scene ω}

theorem settle_outcome (o : Operation) (last : Bool) (r : Except Status α) :
    (o.settle last r).1 = accepted r := by
  cases r <;> rfl

/-- Input is refused where no operation runs; else the token is asked to take it. -/
theorem absorb_cases {absorber : Absorber} {data : Bytes} {outcome : Except Error Unit}
    (h : (absorb absorber data : Action ω Unit).Goes scene es outcome after) :
    (es = [] ∧ outcome = .error (.operationNotActive absorber.kind)) ∨
    ∃ answer, es = [⟨.absorb absorber scene.session.handle data, answer⟩] ∧
      outcome = accepted answer ∧ after.session.handle = scene.session.handle := by
  replace h := (goes_bind_silent rfl).mp h
  rcases advance_cases h with ⟨-, rfl, rfl, -⟩ | ⟨-, answer, mid, hcall, rfl, rfl⟩
  · exact .inl ⟨rfl, rfl⟩
  · obtain ⟨hasked, rfl⟩ := goes_lifted.mp hcall
    exact .inr ⟨answer, Talk.goes_request.mp hasked, settle_outcome _ _ _, rfl⟩

/-- A signature is refused where no operation runs; else the token is asked for its verdict, which
ends the operation. -/
theorem verifyFinal_cases {signature : Bytes} {outcome : Except Error Bool}
    (h : (verifyFinal signature : Action ω Bool).Goes scene es outcome after) :
    (es = [] ∧ outcome = .error (.operationNotActive .verify)) ∨
    ∃ answer, es = [⟨.verifyFinal scene.session.handle signature, answer⟩] ∧
      outcome = accepted (verdict answer) ∧
      ∀ valid, verdict answer = .ok valid → after.session.phase .verify = .finalized := by
  replace h := (goes_bind_silent rfl).mp h
  have hcalled : (advance .verify true (liftM (verdict <$>
      Talk.request (.verifyFinal scene.session.handle signature))) : Action ω Bool).Goes
      scene es outcome after := h
  rcases advance_cases hcalled with ⟨-, rfl, rfl, -⟩ | ⟨hactive, r, mid, hcall, rfl, rfl⟩
  · exact .inl ⟨rfl, rfl⟩
  obtain ⟨hasked, rfl⟩ := goes_lifted.mp hcall
  obtain ⟨answer, hanswer, rfl⟩ := Talk.goes_map.mp hasked
  refine .inr ⟨answer, Talk.goes_request.mp hanswer, settle_outcome _ _ _, ?_⟩
  intro valid hvalid
  simp [hvalid, Operation.settle, Session.phase, Operation.phase_abandon hactive]

theorem accepted_eq_ok_iff {r : Except Status α} {a : α} : accepted r = .ok a ↔ r = .ok a := by
  cases r <;> simp

theorem verdict_eq_true_iff {answer : Except Status Unit} :
    verdict answer = .ok true ↔ answer = .ok () := by
  cases answer with
  | ok => simp [verdict]
  | error status =>
    by_cases h : status = Status.signatureInvalid ∨ status = Status.signatureLenRange <;>
      simp [verdict, h]

theorem verdict_eq_false_iff {answer : Except Status Unit} :
    verdict answer = .ok false ↔
      answer = .error Status.signatureInvalid ∨ answer = .error Status.signatureLenRange := by
  cases answer with
  | ok => simp [verdict]
  | error status =>
    by_cases h : status = Status.signatureInvalid ∨ status = Status.signatureLenRange <;>
      simp [verdict, h]

/-- Where there is neither verdict, there is a failure. -/
theorem accepted_verdict_failed_iff {answer : Except Status Unit} :
    (∃ e, accepted (verdict answer) = .error e) ↔ answer ≠ .ok () ∧
      answer ≠ .error Status.signatureInvalid ∧ answer ≠ .error Status.signatureLenRange := by
  rw [← not_or, ← not_or, ← verdict_eq_false_iff, ← verdict_eq_true_iff]
  cases verdict answer with
  | ok valid => cases valid <;> simp
  | error status => simp

/-- The token was asked for its verdict on a signature, after it had begun the verification with the
key and had taken all of the data. -/
def Judged (s : Session) (mechanism : Mechanism) (key : Object) (data signature : Bytes)
    (answer : Except Status Unit) (es : List Exchange) : Prop :=
  ∃ handle native reply, key.state = .bound handle ∧ mechanism.toNative s.host = .ok native ∧
    reply.outcome = .ok () ∧
    es = [⟨.start .verify s.handle native (some handle), reply⟩,
      ⟨.absorb .verify s.handle data, .ok ()⟩, ⟨.verifyFinal s.handle signature, answer⟩]

theorem Judged.unique {mechanism : Mechanism} {key : Object} {data signature : Bytes}
    {x y : Except Status Unit} (hx : Judged s mechanism key data signature x es)
    (hy : Judged s mechanism key data signature y es) : x = y := by
  obtain ⟨_, _, _, -, -, -, rfl⟩ := hx
  obtain ⟨_, _, _, -, -, -, hsame⟩ := hy
  cases hsame
  rfl

/-- A verification fails before the token is asked for its verdict, or its outcome is that verdict. -/
theorem verify_cases {key : Object} {data signature : Bytes} {mechanism : Mechanism}
    {after : Scene Mechanism} {outcome : Except Error Bool}
    (h : (verify key data signature).Goes ⟨s, mechanism⟩ es outcome after) :
    ((∀ answer, ¬ Judged s mechanism key data signature answer es) ∧
      ∃ e, outcome = .error e) ∨
    ∃ answer, Judged s mechanism key data signature answer es ∧
      outcome = accepted (verdict answer) ∧
      ∀ valid, verdict answer = .ok valid → after.session.phase .verify = .finalized := by
  have hunjudged : es.length < 3 → ∀ answer, ¬ Judged s mechanism key data signature answer es := by
    rintro hlength answer ⟨_, _, _, -, -, -, rfl⟩
    simp at hlength
  rcases goes_bind.mp h with ⟨e, hbegun, rfl⟩ | ⟨_, mid, first, rest, rfl, hbegun, hrest⟩
  · have hlength := startWith_length hbegun
    exact .inl ⟨hunjudged (by omega), e, rfl⟩
  obtain ⟨handle, native, reply, used, hkey, hnative, hreply, rfl, rfl⟩ := startWith_begun hbegun
  rcases goes_bind.mp hrest with ⟨e, hfed, rfl⟩ | ⟨_, left, second, last, rfl, hfed, hfinal⟩
  · refine .inl ⟨hunjudged ?_, e, rfl⟩
    rcases absorb_cases hfed with ⟨rfl, -⟩ | ⟨answer, rfl, -⟩ <;> simp
  rcases absorb_cases hfed with ⟨-, he⟩ | ⟨taken, rfl, htaken, hhandle⟩
  · cases he
  obtain rfl : taken = .ok () := accepted_eq_ok_iff.mp htaken.symm
  rcases verifyFinal_cases hfinal with ⟨rfl, rfl⟩ | ⟨answer, rfl, rfl, hends⟩
  · exact .inl ⟨hunjudged (by simp), _, rfl⟩
  · refine .inr ⟨answer, ⟨handle, native, reply, ?_, hnative, hreply, ?_⟩, rfl, hends⟩
    · exact Object.liveHandle_eq_ok_iff.mp hkey
    · simp [hhandle]

end Action

namespace Call

open Cryptoki.Action

variable {mechanism : Mechanism} {key : Object} {data signature : Bytes}

/-- A verification tells what the token told it. It is true exactly where the token began it with the
key, took all of the data and then accepted the signature, and false exactly where the token said of
the signature, after the same, that it is wrong or of a wrong length; all else is a failure. And no
verdict is given twice: with the final call that gives one the verification is over, in whatever
session it was made, and until another is begun no call of a verification gets to the token and each
further signature is refused. -/
theorem verify_verdict (token : Token σ) (t : σ) (s : Session) (mechanism : Mechanism)
    (key : Object) (data signature : Bytes) :
    (∃ outcome after es u,
      (Call.verify mechanism key data signature).run token s t = ((outcome, after), es, u) ∧
      (outcome = .ok true ↔ Judged s mechanism key data signature (.ok ()) es) ∧
      (outcome = .ok false ↔
        Judged s mechanism key data signature (.error Status.signatureInvalid) es ∨
        Judged s mechanism key data signature (.error Status.signatureLenRange) es) ∧
      ((∃ e, outcome = .error e) ↔
        ¬ Judged s mechanism key data signature (.ok ()) es ∧
        ¬ Judged s mechanism key data signature (.error Status.signatureInvalid) es ∧
        ¬ Judged s mechanism key data signature (.error Status.signatureLenRange) es) ∧
      ∀ valid, outcome = .ok valid → after.session.phase .verify = .finalized) ∧
    ∀ valid after es u,
      (Call.verifyFinal signature).run token s t = ((.ok valid, after), es, u) →
      (valid = true ↔ es = [⟨.verifyFinal s.handle signature, .ok ()⟩]) ∧
      after.session.phase .verify = .finalized ∧
      ∀ calls events later v, (∀ call ∈ calls, call.opens? ≠ some .verify) →
        play token calls after.session u = (events, later, v) →
        (∀ call x, .exchange call x ∈ events → x.request.kind? ≠ some .verify) ∧
        ∀ other, (Call.verifyFinal other).run token later v =
          ((.error (.operationNotActive .verify), ⟨later, ()⟩), [], v) := by
  refine ⟨?_, fun valid after es u hrun => ?_⟩
  · obtain ⟨⟨⟨outcome, after⟩, es, u⟩, hrun⟩ :
        ∃ r, (Call.verify mechanism key data signature).run token s t = r := ⟨_, rfl⟩
    have hgoes : (Action.verify key data signature).Goes ⟨s, mechanism⟩ es outcome after :=
      (Talk.run_eq_iff.mp hrun).1
    refine ⟨outcome, after, es, u, hrun, ?_⟩
    rcases verify_cases hgoes with ⟨hunjudged, e, rfl⟩ | ⟨answer, hjudged, rfl, hends⟩
    · simp [hunjudged]
    · have hsame : ∀ x, Judged s mechanism key data signature x es ↔ answer = x := by
        intro x
        constructor
        · exact hjudged.unique
        · rintro rfl
          exact hjudged
      simp only [accepted_eq_ok_iff, hsame]
      exact ⟨verdict_eq_true_iff, verdict_eq_false_iff, accepted_verdict_failed_iff, hends⟩
  · have hgoes : (Action.verifyFinal signature).Goes ⟨s, ()⟩ es (.ok valid) after :=
      (Talk.run_eq_iff.mp hrun).1
    rcases verifyFinal_cases hgoes with ⟨-, he⟩ | ⟨answer, rfl, hvalid, hends⟩
    · cases he
    have hverdict := accepted_eq_ok_iff.mp hvalid.symm
    have hover := hends valid hverdict
    have hidle : (after.session.operation .verify).isActive = false := by
      rw [Session.phase] at hover
      simp [Operation.isActive, hover]
    refine ⟨?_, hover, fun calls events later v hopens hplay => ?_⟩
    · cases valid with
      | true => simp [verdict_eq_true_iff.mp hverdict]
      | false => rcases verdict_eq_false_iff.mp hverdict with rfl | rfl <;> simp
    · obtain ⟨hquiet, hlater⟩ := play_stays_idle hopens hidle hplay
      refine ⟨hquiet, fun other => ?_⟩
      have hrefuses : (Call.verifyFinal other).action.Refuses ⟨later, ()⟩
          (.operationNotActive .verify) := refuses_continuing rfl hlater
      exact hrefuses.run token v

/-- A token that knows one signature, for whatever it is asked to verify. -/
def notary : Token Unit where
  answer request t :=
    match request with
    | .start _ _ _ _ => (⟨.ok (), .none⟩, t)
    | .absorb _ _ _ => (.ok (), t)
    | .verifyFinal _ signature =>
      (if signature = [7] then .ok () else .error Status.signatureInvalid, t)
    | request => (request.refuse Status.functionNotSupported, t)

/-- A wrong signature gets its verdict, and the right one comes too late. -/
theorem verify_verdict_notary : ∃ outcome after es left fs,
    (Call.verify ⟨0x251, none⟩ (.ofHandle (.secretKey .aes) 9) [1, 2] [8]).run notary
      (.ofHandle 1 0 .standard .empty) () = ((outcome, after), es, ()) ∧
    outcome = .ok false ∧ after.session.phase .verify = .finalized ∧
    (Call.verifyFinal [8]).run notary ((Session.ofHandle 1 0 .standard .empty).withOperation
      .verify (.initialized ⟨0x251, none⟩ (some 9))) () = ((.ok false, left), fs, ()) ∧
    (Call.verifyFinal [7]).run notary left.session () =
      ((.error (.operationNotActive .verify), ⟨left.session, ()⟩), [], ()) := by
  obtain ⟨⟨outcome, after, es, u, hrun, -, hfalse, -, hends⟩, -⟩ :=
    verify_verdict notary () (.ofHandle 1 0 .standard .empty) ⟨0x251, none⟩
      (.ofHandle (.secretKey .aes) 9) [1, 2] [8]
  have hjudged : outcome = .ok false := by
    apply hfalse.mpr
    cases hrun
    exact .inl ⟨9, _, _, rfl, rfl, rfl, rfl⟩
  obtain ⟨-, hfinal⟩ := verify_verdict notary ()
    ((Session.ofHandle 1 0 .standard .empty).withOperation .verify
      (.initialized ⟨0x251, none⟩ (some 9))) ⟨0x251, none⟩ (.ofHandle (.secretKey .aes) 9) [] [8]
  obtain ⟨-, -, hlate⟩ := hfinal false _ _ () rfl
  exact ⟨outcome, after, es, _, _, hrun, hjudged, hends false hjudged, rfl,
    (hlate [] [] _ () (by simp) rfl).2 [7]⟩

end Call

end Cryptoki
