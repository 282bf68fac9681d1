import Cryptoki.Proofs.Outcome
import Cryptoki.Proofs.Since
import Cryptoki.Session.Call

/-! Histories of a session as the token sees them, and the operations that run by them alone. -/
namespace Cryptoki

/-- The status that an answer refuses a request with. -/
def Exchange.refusal? : Exchange → Option Status
  | ⟨.generateKey _ _ _, reply⟩ | ⟨.generateKeyPair _ _ _ _, reply⟩ | ⟨.deriveKey _ _ _ _, reply⟩
  | ⟨.start _ _ _ _, reply⟩ => Outcome.failure? reply.outcome
  | ⟨.cipherUpdate _ _ _ _, delivery⟩ | ⟨.cipherFinal _ _ _, delivery⟩ =>
    Outcome.failure? delivery.outcome
  | ⟨.readAttributes _ _ _, x⟩ | ⟨.createObject _ _, x⟩ | ⟨.destroyObject _ _, x⟩
  | ⟨.absorb _ _ _, x⟩ | ⟨.signFinal _, x⟩ | ⟨.verifyFinal _ _, x⟩ | ⟨.digestFinal _, x⟩
  | ⟨.sessionInfo _, x⟩ | ⟨.tokenInfo _, x⟩ | ⟨.mechanismInfo _ _, x⟩ | ⟨.moduleInfo, x⟩ =>
    Outcome.failure? x

/-- The first call of an operation. -/
def Request.isStart : Request → Bool
  | .start _ _ _ _ => true
  | _ => false

/-- The last call of an operation. -/
def Request.isFinal : Request → Bool
  | .cipherFinal _ _ _ | .signFinal _ | .verifyFinal _ _ | .digestFinal _ => true
  | _ => false

namespace Exchange

variable (k : OperationKind) (e : Exchange)

/-- A first call of the kind is accepted. -/
def Begins : Prop := e.request.kind? = some k ∧ e.request.isStart = true ∧ e.refusal? = none

/-- A verification comes to the verdict that the signature is wrong, or of a wrong length. -/
def Rejects : Exchange → Prop
  | ⟨.verifyFinal _ _, x⟩ =>
    x = .error Status.signatureInvalid ∨ x = .error Status.signatureLenRange
  | _ => False

/-- A last call is accepted. -/
def Finishes : Prop := e.request.isFinal = true ∧ (e.refusal? = none ∨ e.Rejects)

/-- A call after the first is refused for another reason than want of room. -/
def Fails : Prop :=
  e.request.isStart = false ∧ ∃ s, e.refusal? = some s ∧ s ≠ Status.bufferTooSmall

/-- A write reports more bytes than its window has. -/
def Overreports : Exchange → Prop
  | ⟨.cipherUpdate _ _ _ window, delivery⟩ | ⟨.cipherFinal _ _ window, delivery⟩ =>
    ∃ n, delivery.outcome = .ok n ∧ window.length < n
  | _ => False

def Ends : Prop := e.request.kind? = some k ∧ (e.Finishes ∨ e.Fails ∨ e.Overreports)

end Exchange

/-- A call that begins an operation only for itself. -/
def Call.isWhole : Call → Bool
  | .cipherAll _ _ _ _ => true
  | _ => false

/-- The kind of operation that a call belongs to. -/
def Call.kind? : Call → Option OperationKind
  | .start kind _ _ | .reset kind => some kind
  | .cipherUpdate direction _ _ _ | .cipherFinal direction _ _ | .cipherAll direction _ _ _ =>
    some direction.kind
  | .absorb absorber _ => some absorber.kind
  | .signFinal | .sign _ _ _ => some .sign
  | .verifyFinal _ | .verify _ _ _ _ => some .verify
  | .startDigest _ | .digestFinal | .digest _ _ => some .digest
  | .createObject _ | .generateKey _ _ | .generateKeyPair _ _ _ | .deriveKey _ _ _
  | .destroyObject _ | .refreshObject _ | .readObject _ | .sessionInfo | .tokenInfo
  | .mechanismInfo _ | .moduleInfo => none

inductive Event where
  | exchange (call : Call) (e : Exchange)
  | returned (call : Call)

/-- What ends an operation that was begun by a call. Calls do not overlap, so the first return after
a beginning is that of the call it was made in. -/
def Event.Ends (k : OperationKind) (opener : Call) : Event → Prop
  | .exchange _ e => e.Ends k
  | .returned call => call = .reset k ∨ opener.isWhole = true

/-- What happens in a session when calls are made one after the other. -/
def play (token : Token σ) : List Call → Session → σ → List Event × Session × σ
  | [], session, t => ([], session, t)
  | call :: calls, session, t =>
    let ((_, scene), es, t) := call.run token session t
    let (later, session, t) := play token calls scene.session t
    (es.map (.exchange call) ++ .returned call :: later, session, t)

/-- The call began an operation of the kind that nothing has ended since. -/
def RunningBy (k : OperationKind) (opener : Call) (history : List Event) : Prop :=
  ∃ before e after, history = before ++ .exchange opener e :: after ∧ e.Begins k ∧
    ∀ event ∈ after, ¬ event.Ends k opener

def Running (k : OperationKind) (history : List Event) : Prop :=
  ∃ opener, RunningBy k opener history

variable {k : OperationKind} {call opener : Call} {history : List Event} {es : List Exchange}

theorem runningBy_iff_since : RunningBy k opener history ↔
    Since (fun event => ∃ e, event = .exchange opener e ∧ e.Begins k)
      (fun event => ¬ event.Ends k opener) history := by
  constructor
  · rintro ⟨before, e, after, h, hb, hkept⟩
    exact ⟨before, _, after, h, ⟨e, rfl, hb⟩, hkept⟩
  · rintro ⟨before, _, after, h, ⟨e, rfl, hb⟩, hkept⟩
    exact ⟨before, e, after, h, hb, hkept⟩

theorem not_runningBy_nil : ¬ RunningBy k opener [] := by
  rw [runningBy_iff_since]
  exact not_since_nil

theorem runningBy_concat {event : Event} :
    RunningBy k opener (history ++ [event]) ↔
      (∃ e, event = .exchange opener e ∧ e.Begins k) ∨
      RunningBy k opener history ∧ ¬ event.Ends k opener := by
  rw [runningBy_iff_since, runningBy_iff_since, since_concat]

theorem runningBy_returned :
    RunningBy k opener (history ++ [.returned call]) ↔
      RunningBy k opener history ∧ call ≠ .reset k ∧ opener.isWhole = false := by
  simp [runningBy_concat, Event.Ends]

/-- Exchanges of other kinds neither begin nor end an operation. -/
theorem runningBy_of_other (h : ∀ e ∈ es, e.request.kind? ≠ some k) :
    RunningBy k opener (history ++ es.map (.exchange call)) ↔ RunningBy k opener history := by
  induction es generalizing history with
  | nil => simp
  | cons e es ih =>
    have he := h e (by simp)
    rw [List.map_cons, ← List.singleton_append, ← List.append_assoc,
      ih fun e hm => h e (by simp [hm]), runningBy_concat]
    simp [Event.Ends, Exchange.Ends, Exchange.Begins, he]

/-- An operation that runs was begun by the call of the last exchanges, or ran before them. -/
theorem runningBy_origin (h : RunningBy k opener (history ++ es.map (.exchange call))) :
    opener = call ∨ RunningBy k opener history := by
  induction es generalizing history with
  | nil => exact .inr (by simpa using h)
  | cons e es ih =>
    rw [List.map_cons, ← List.singleton_append, ← List.append_assoc] at h
    rcases ih h with rfl | h
    · exact .inl rfl
    · obtain ⟨f, he, -⟩ | ⟨hrun, -⟩ := runningBy_concat.mp h
      · cases he
        exact .inl rfl
      · exact .inr hrun

/-- Where nothing is begun, what runs ran before. -/
theorem runningBy_of_not_begins (hnone : ∀ e ∈ es, ¬ e.Begins k)
    (h : RunningBy k opener (history ++ es.map (.exchange call))) :
    RunningBy k opener history := by
  induction es generalizing history with
  | nil => simpa using h
  | cons e es ih =>
    rw [List.map_cons, ← List.singleton_append, ← List.append_assoc] at h
    have hlater := ih (fun f hm => hnone f (by simp [hm])) h
    obtain ⟨f, he, hb⟩ | ⟨hrun, -⟩ := runningBy_concat.mp hlater
    · cases he
      exact absurd hb (hnone e (by simp))
    · exact hrun

end Cryptoki
