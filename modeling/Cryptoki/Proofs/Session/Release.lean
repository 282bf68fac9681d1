import Cryptoki.Proofs.Session.Protocol

/-! Whole texts release their operations, whatever the token answers: how a stream can end, how
often the token is asked, and why it can fail. -/
namespace Cryptoki

namespace Exchange

/-- The bytes that a write reports, and the room it was given. -/
def report? : Exchange → Option (Nat × Nat)
  | ⟨.cipherUpdate _ _ _ window, delivery⟩ | ⟨.cipherFinal _ _ window, delivery⟩ =>
    delivery.outcome.toOption.map (·, window.length)
  | _ => none

/-- The exchange is why a call failed: the token refused it, or reported more bytes than it had room
for. -/
inductive Causes (x : Exchange) : Error → Prop where
  | refusal {s : Status} (h : x.refusal? = some s) : Causes x (.deviceStatus s)
  | excess {n room : Nat} (h : x.report? = some (n, room)) (hroom : room < n) :
    Causes x (.overreportedOutput n room)

end Exchange

namespace Action

variable {es : List Exchange} {kind : OperationKind} {direction : Direction} {last : Bool}

/-- The operation of the kind is as it was, or has ended. -/
def Abandons (kind : OperationKind) (s : Session) (_ : List Exchange) (t : Session) : Prop :=
  t = s ∨ t = s.withOperation kind (s.operation kind).abandon

theorem abandons_lasting (kind : OperationKind) : Lasting (Abandons kind) where
  refl s := .inl rfl
  trans := by
    rintro s t u es fs (rfl | rfl) (rfl | rfl)
    · exact .inl rfl
    · exact .inr rfl
    · exact .inr rfl
    · exact .inr (by simp)

theorem settleWrite_abandons (o : Operation) (last : Bool) (room : Nat) (delivery : Delivery) :
    (settleWrite o last room delivery).2 = o ∨
      (settleWrite o last room delivery).2 = o.abandon := by
  unfold settleWrite
  cases delivery.outcome with
  | ok n => by_cases hn : n ≤ room <;> cases last <;> simp [hn]
  | error s => by_cases hs : s = Status.bufferTooSmall <;> simp [hs]

theorem abandons_writeFrom {offset : Nat} {call : Handle → Bytes → Talk Delivery} :
    Within (Abandons direction.kind) (writeFrom direction last offset call) := by
  intro scene after es outcome hgoes
  obtain ⟨-, -, -, rfl⟩ | ⟨-, -, -, -, rfl⟩ | ⟨-, -, delivery, settled, -, rfl, -, rfl⟩ :=
    writeFrom_cases hgoes
  · exact .inl rfl
  · exact .inl rfl
  · rcases settleWrite_abandons (scene.session.operation direction.kind) last
      (scene.subject.length - offset) delivery with hsettled | hsettled
    · exact .inl (by simp [hsettled])
    · exact .inr (by rw [hsettled])

theorem abandons_streamChunks (output : OutputBuffer) (pieces : List Bytes) :
    Within (Abandons direction.kind) (streamChunks direction output pieces) :=
  within_streamChunks (abandons_lasting _) (fun _ => abandons_writeFrom) abandons_writeFrom output
    pieces

/-- How a call of a running operation ends whose last exchange is given: it leaves what it reports
in the buffer, or the exchange is why it failed. The operation runs on, unless the call was the
final one or failed for another reason than want of room. -/
structure Answered (kind : OperationKind) (last : Bool) (x : Exchange) (outcome : Except Error Nat)
    (after : Scene Bytes) : Prop where
  fits : ∀ n, outcome = .ok n → n ≤ after.subject.length
  cause : ∀ e, outcome = .error e → x.Causes e
  continues : last = false → ∀ n, outcome = .ok n →
    (after.session.operation kind).isActive = true
  retries : outcome = .error (.deviceStatus Status.bufferTooSmall) →
    (after.session.operation kind).isActive = true

/-- A call that asks the token once, if its operation runs. -/
def AsksOnce (kind : OperationKind) (last : Bool) (call : Action Bytes Nat) : Prop :=
  ∀ {scene after : Scene Bytes} {es : List Exchange} {outcome : Except Error Nat},
    (scene.session.operation kind).isActive = true → call.Goes scene es outcome after →
      ∃ x, es = [x] ∧ Answered kind last x outcome after

/-- What a delivery does to a running operation answers the write, if the exchange is that of the
delivery. -/
theorem answered_settleWrite {o : Operation} {x : Exchange} {delivery : Delivery} {s : Session}
    {buffer : Bytes} (ho : o.isActive = true)
    (hrefusal : x.refusal? = Outcome.failure? delivery.outcome)
    (hreport : x.report? = delivery.outcome.toOption.map (·, buffer.length)) :
    Answered kind last x (settleWrite o last buffer.length delivery).1
      ⟨s.withOperation kind (settleWrite o last buffer.length delivery).2, buffer⟩ := by
  rw [settleWrite]
  cases houtcome : delivery.outcome with
  | error status =>
    rw [houtcome] at hrefusal
    refine ⟨by simp, ?_, by simp, ?_⟩
    · rintro e ⟨⟩
      exact .refusal hrefusal
    · rintro ⟨⟩
      simp [ho]
  | ok n =>
    rw [houtcome] at hreport
    by_cases hroom : n ≤ buffer.length
    · simp only [if_pos hroom]
      refine ⟨?_, by simp, ?_, by simp⟩
      · rintro m ⟨⟩
        exact hroom
      · rintro rfl m ⟨⟩
        simp [ho]
    · simp only [if_neg hroom]
      refine ⟨by simp, ?_, by simp, by simp⟩
      rintro e ⟨⟩
      exact .excess hreport (by omega)

theorem asksOnce_writeFrom {call : Handle → Bytes → Talk Delivery}
    (hcall : ∀ {here window es delivery}, (call here window).Goes es delivery →
      ∃ x : Exchange, es = [x] ∧ x.refusal? = Outcome.failure? delivery.outcome ∧
        x.report? = delivery.outcome.toOption.map (·, window.length)) :
    AsksOnce direction.kind last (writeFrom direction last 0 call) := by
  intro scene after es outcome hactive hgoes
  obtain ⟨hoffset, -⟩ | ⟨-, hidle, -⟩ | ⟨-, -, delivery, settled, htalk, rfl, rfl, rfl⟩ :=
    writeFrom_cases hgoes
  · simp at hoffset
  · simp [hactive] at hidle
  obtain ⟨x, rfl, hrefusal, hreport⟩ := hcall htalk
  have hlength : (scene.subject.take 0 ++
      overwrite (scene.subject.drop 0) delivery.output).length = scene.subject.length := by
    simp [length_overwrite]
  rw [List.drop_zero, ← hlength] at hreport
  rw [Nat.sub_zero, ← hlength]
  exact ⟨x, rfl, answered_settleWrite hactive hrefusal hreport⟩

theorem asksOnce_cipherUpdate (input : Bytes) :
    AsksOnce direction.kind false (cipherUpdate direction input 0) := by
  refine asksOnce_writeFrom fun {here window es delivery} hgoes => ?_
  obtain rfl := Talk.goes_request.mp hgoes
  exact ⟨_, rfl, rfl, rfl⟩

theorem asksOnce_cipherFinal : AsksOnce direction.kind true (cipherFinal direction 0) := by
  refine asksOnce_writeFrom fun {here window es delivery} hgoes => ?_
  obtain rfl := Talk.goes_request.mp hgoes
  exact ⟨_, rfl, rfl, rfl⟩

variable {call : Action Bytes Nat} {scene after : Scene Bytes}

/-- A call that may be made again asks the token once for each try; the last answer decides. -/
theorem AsksOnce.growing (hcall : AsksOnce kind last call) {n : Nat} {outcome : Except Error Nat}
    (hactive : (scene.session.operation kind).isActive = true)
    (hgoes : (growing call n).Goes scene es outcome after) :
    ∃ before x, es = before ++ [x] ∧ before.length ≤ n ∧ Answered kind last x outcome after := by
  induction n generalizing scene es with
  | zero =>
    obtain ⟨x, rfl, hx⟩ := hcall hactive hgoes
    exact ⟨[], x, rfl, by simp, hx⟩
  | succ n ih =>
    rcases growing_cases hgoes with ⟨hfirst, -⟩ | ⟨mid, first, rest, rfl, hshort, hagain⟩
    · obtain ⟨x, rfl, hx⟩ := hcall hactive hfirst
      exact ⟨[], x, rfl, by simp, hx⟩
    · obtain ⟨y, rfl, hy⟩ := hcall hactive hshort
      have hruns : (mid.session.operation kind).isActive = true := hy.retries rfl
      obtain ⟨before, x, rfl, hlength, hx⟩ := ih (by exact hruns) hagain
      refine ⟨y :: before, x, rfl, ?_, hx⟩
      simp only [List.length_cons]
      omega

/-- What a call reports is collected. It is never more than the buffer holds by then, since a larger
count has failed before. -/
theorem AsksOnce.collect (hcall : AsksOnce kind last call) {part : String}
    {outcome : Except Error Bytes} (hactive : (scene.session.operation kind).isActive = true)
    (hgoes : (collect part call).Goes scene es outcome after) :
    ∃ before x, es = before ++ [x] ∧ es.length ≤ maxGrowth + 1 ∧
      (∀ e, outcome = .error e → x.Causes e) ∧
      (last = false → ∀ output, outcome = .ok output →
        (after.session.operation kind).isActive = true) := by
  have hlength : ∀ {before : List Exchange} {x : Exchange}, before.length ≤ maxGrowth →
      (before ++ [x]).length ≤ maxGrowth + 1 := by
    intro before x h
    simp only [List.length_append, List.length_singleton]
    omega
  rcases collect_cases hgoes with ⟨e, hgrowing, rfl⟩ | ⟨n, hgrowing, hcollected⟩
  · obtain ⟨before, x, rfl, hbefore, hx⟩ := hcall.growing hactive hgrowing
    refine ⟨before, x, rfl, hlength hbefore, ?_, by simp⟩
    rintro f ⟨⟩
    exact hx.cause e rfl
  · obtain ⟨before, x, rfl, hbefore, hx⟩ := hcall.growing hactive hgrowing
    have hn := hx.fits n rfl
    rcases hcollected with ⟨-, rfl⟩ | ⟨hbeyond, -⟩
    · exact ⟨before, x, rfl, hlength hbefore, by simp, fun hlast _ _ => hx.continues hlast n rfl⟩
    · omega

/-- A stream asks at most five times for each piece and for the end, and fails only by the answer to
its last request. -/
theorem streamChunks_ends {output : OutputBuffer} {pieces : List Bytes}
    {streamed : Except Error OutputBuffer}
    (hactive : (scene.session.operation direction.kind).isActive = true)
    (hgoes : (streamChunks direction output pieces).Goes scene es streamed after) :
    es.length ≤ (maxGrowth + 1) * (pieces.length + 1) ∧
      ∀ e, streamed = .error e → ∃ before x, es = before ++ [x] ∧ x.Causes e := by
  induction pieces generalizing scene es output with
  | nil =>
    obtain ⟨last, hcall, rfl⟩ := streamChunks_end hgoes
    obtain ⟨before, x, rfl, hlength, hcause, -⟩ := asksOnce_cipherFinal.collect hactive hcall
    refine ⟨by simpa using hlength, fun e he => ⟨before, x, rfl, ?_⟩⟩
    exact hcause e (Outcome.map_eq_error_iff.mp he)
  | cons piece pieces ih =>
    have hupdate : AsksOnce direction.kind false (cipherUpdate direction piece 0) :=
      asksOnce_cipherUpdate piece
    rcases goes_bind.mp hgoes with ⟨e, hcall, rfl⟩ | ⟨more, mid, first, later, rfl, hcall, hlater⟩
    · obtain ⟨before, x, rfl, hlength, hcause, -⟩ := hupdate.collect hactive hcall
      refine ⟨?_, ?_⟩
      · simp only [List.length_cons, Nat.mul_add] at hlength ⊢
        omega
      · rintro f ⟨⟩
        exact ⟨before, x, rfl, hcause e rfl⟩
    · obtain ⟨_, _, -, hlength, -, hruns⟩ := hupdate.collect hactive hcall
      obtain ⟨hcount, hcause⟩ := ih (hruns rfl more rfl) hlater
      refine ⟨?_, ?_⟩
      · simp only [List.length_append, List.length_cons, Nat.mul_add] at hcount ⊢
        omega
      · intro e he
        obtain ⟨before, x, rfl, hx⟩ := hcause e he
        exact ⟨first ++ before, x, by simp, hx⟩

/-- A first call is one request at most. -/
theorem startWith_length {key : Object} {scene after : Scene Mechanism}
    {outcome : Except Error Unit} (h : (startWith kind key).Goes scene es outcome after) :
    es.length ≤ 1 := by
  rcases startWith_cases h with ⟨e, -, rfl, -⟩ | ⟨handle, -, hstart⟩
  · simp
  rcases start_cases hstart with ⟨-, rfl, -⟩ | ⟨-, ⟨e, -, rfl, -⟩ | ⟨native, reply, -, rfl, -⟩⟩
  · simp
  · simp
  · simp

/-- Where no operation runs, a first call with a key on the token and a mechanism that has a native
form gets to the token. -/
theorem startWith_asks {key : Object} {scene after : Scene Mechanism} {outcome : Except Error Unit}
    {handle : Handle} {native : NativeMechanism}
    (hidle : (scene.session.operation kind).isActive = false) (hkey : key.liveHandle = .ok handle)
    (hnative : scene.subject.toNative scene.session.host = .ok native)
    (h : (startWith kind key).Goes scene es outcome after) :
    ∃ reply, es = [⟨.start kind scene.session.handle native (some handle), reply⟩] := by
  rcases startWith_cases h with ⟨e, he, -⟩ | ⟨k, hk, hstart⟩
  · rw [hkey] at he
    cases he
  rw [hkey] at hk
  cases hk
  rcases start_cases hstart with ⟨hactive, -⟩ | ⟨-, ⟨e, he, -⟩ | ⟨m, reply, hm, rfl, -⟩⟩
  · rw [hidle] at hactive
    cases hactive
  · rw [hnative] at he
    cases he
  · rw [hnative] at hm
    cases hm
    exact ⟨reply, rfl⟩

/-- A stream of a running operation ends it. -/
theorem stream_ends {data : Bytes} {session : Session} {mechanism used : Mechanism}
    {handle : Option Handle} {after : Scene Mechanism} {outcome : Except Error Bytes}
    (hgoes : (stream direction data).Goes
      ⟨session.withOperation direction.kind (.initialized used handle), mechanism⟩ es outcome
      after) :
    after = ⟨session.withOperation direction.kind (.finalized used handle), mechanism⟩ ∧
      es.length ≤ 5 * ((chunks session.limits.chunkSize data).length + 1) ∧
      ∀ e, outcome = .error e → ∃ before x, es = before ++ [x] ∧ x.Causes e := by
  obtain ⟨streamed, mid, hchunks, rfl, rfl⟩ := stream_cases hgoes
  have hactive := session.isActive_initialized direction.kind used handle
  obtain ⟨hlength, hcause⟩ := streamChunks_ends hactive hchunks
  refine ⟨?_, hlength, fun e he => hcause e (Outcome.map_eq_error_iff.mp he)⟩
  rcases abandons_streamChunks _ _ hchunks with hsame | hended
  · simp [hsame]
  · simp [hended]

/-- A whole text is never left half done, as long as there is memory for its buffers. It is begun as any
operation is, and where that fails the session is as it was. Once it was begun it has ended when the
call comes back, with a result or without, so that the next one gets to the token. It takes at most
five requests for each chunk and for the end, and fails only if the last of them was refused, or
reported more bytes than it had room for. -/
theorem cipherAll_releases {σ : Type} (token : Token σ) (t : σ) (session : Session)
    (direction : Direction) (mechanism : Mechanism) (key : Object) (data : Bytes) :
    ∃ outcome after es u,
      (Call.cipherAll direction mechanism key data).run token session t =
        ((outcome, after), es, u) ∧
      es.length ≤ 1 + 5 * ((chunks session.limits.chunkSize data).length + 1) ∧
      ((∃ e, (Call.start direction.kind mechanism key).run token session t =
            ((.error e, after), es, u) ∧
          outcome = .error e ∧ after.session = session) ∨
        ∃ used handle first rest v,
          (Call.start direction.kind mechanism key).run token session t =
            ((.ok (), ⟨session.withOperation direction.kind (.initialized used handle), used⟩),
              [first], v) ∧
          es = first :: rest ∧
          after = ⟨session.withOperation direction.kind (.finalized used handle), used⟩ ∧
          after.session.phase direction.kind = .finalized ∧
          (∀ e, outcome = .error e → ∃ before x, rest = before ++ [x] ∧ x.Causes e) ∧
          ∀ (m : Mechanism) (native : NativeMechanism) (next : Object) (live : Handle)
            (fs : List Exchange) (r : Except Error Unit) (left : Scene Mechanism),
            m.toNative session.host = .ok native → next.liveHandle = .ok live →
            (startWith direction.kind next).Goes ⟨after.session, m⟩ fs r left →
            ∃ reply, fs = [⟨.start direction.kind session.handle native (some live), reply⟩]) := by
  obtain ⟨⟨⟨outcome, after⟩, es, u⟩, hrun⟩ :
      ∃ r, (Call.cipherAll direction mechanism key data).run token session t = r := ⟨_, rfl⟩
  obtain ⟨hgoes, hanswers⟩ := Talk.run_eq_iff.mp hrun
  refine ⟨outcome, after, es, u, hrun, ?_⟩
  rcases goes_bind.mp hgoes with ⟨e, hstart, rfl⟩ | ⟨⟨⟩, mid, begun, rest, rfl, hstart, hstream⟩
  · have hlength := startWith_length hstart
    have hsame : after.session = session := (startWith_refused hstart (k := direction.kind)).1
    exact ⟨by omega, .inl ⟨e, Talk.run_eq_iff.mpr ⟨hstart, hanswers⟩, rfl, hsame⟩⟩
  · obtain ⟨v, hbegun, -⟩ := Token.answers_append.mp hanswers
    have hbegan := Talk.run_eq_iff.mpr ⟨hstart, hbegun⟩
    obtain ⟨native, handle, reply, used, rfl, rfl⟩ := startWith_accepted hstart
    obtain ⟨rfl, hlength, hcause⟩ := stream_ends hstream
    have hcount : rest.length ≤ 5 * ((chunks session.limits.chunkSize data).length + 1) := hlength
    refine ⟨?_, .inr ⟨used, handle, _, rest, v, hbegan, rfl, rfl, ?_, hcause, ?_⟩⟩
    · simp only [List.length_append, List.length_singleton]
      omega
    · simp [Session.phase]
    · intro m native next live fs r left hnative hlive hnext
      have hidle : ((session.withOperation direction.kind (.finalized used handle)).operation
          direction.kind).isActive = false := by
        rw [Session.operation_withOperation]
        rfl
      exact startWith_asks hidle hlive hnative hnext

end Action

end Cryptoki
