import Cryptoki.Proofs.Session.History
import Cryptoki.Proofs.Session.Lasting

/-! The order in which a token is called: what continues an operation only while one runs, and what
begins one only while none does. -/
namespace Cryptoki

/-- What an exchange of a kind may be while no operation of the kind runs, or while one does, and
whether one runs afterwards. -/
inductive Exchange.Moves (k : OperationKind) (e : Exchange) : Bool → Bool → Prop where
  | begins (h : e.Begins k) : Moves k e false true
  | refused (hk : e.request.kind? = some k) (hs : e.request.isStart = true) (h : ¬ e.Begins k) :
    Moves k e false false
  | goesOn (hk : e.request.kind? = some k) (hs : e.request.isStart = false) (h : ¬ e.Ends k) :
    Moves k e true true
  | ends (hk : e.request.kind? = some k) (hs : e.request.isStart = false) (h : e.Ends k) :
    Moves k e true false

theorem Exchange.Moves.kind {k : OperationKind} {e : Exchange} {a b : Bool} (h : e.Moves k a b) :
    e.request.kind? = some k := by
  cases h with
  | begins h => exact h.1
  | refused hk _ _ | goesOn hk _ _ | ends hk _ _ => exact hk

/-- Exchanges of one kind, each of them as it may be where it stands. -/
def Drives (k : OperationKind) : Bool → List Exchange → Bool → Prop
  | a, [], b => b = a
  | a, e :: es, b => ∃ m, e.Moves k a m ∧ Drives k m es b

variable {k : OperationKind} {a b : Bool} {es fs : List Exchange}

theorem drives_single {e : Exchange} (h : e.Moves k a b) : Drives k a [e] b := ⟨b, h, rfl⟩

theorem drives_append {m : Bool} (hes : Drives k a es m) (hfs : Drives k m fs b) :
    Drives k a (es ++ fs) b := by
  induction es generalizing a with
  | nil =>
    obtain rfl := hes
    exact hfs
  | cons e es ih =>
    obtain ⟨n, he, hrest⟩ := hes
    exact ⟨n, he, ih hrest⟩

theorem Drives.kind (h : Drives k a es b) : ∀ e ∈ es, e.request.kind? = some k := by
  induction es generalizing a with
  | nil => simp
  | cons e es ih =>
    obtain ⟨m, he, hrest⟩ := h
    intro f hm
    rcases List.mem_cons.mp hm with rfl | hm
    · exact he.kind
    · exact ih hrest f hm

/-- A course of calls of one kind: all else in the session stays, and whether an operation of the
kind runs is told by what was exchanged. -/
structure Follows (k : OperationKind) (s : Session) (es : List Exchange) (t : Session) : Prop where
  frame : t = s.withOperation k (t.operation k)
  drives : Drives k (s.operation k).isActive es (t.operation k).isActive

theorem follows_lasting (k : OperationKind) : Lasting (Follows k) where
  refl s := ⟨by simp, rfl⟩
  trans := by
    rintro s t u es fs ⟨hst, hes⟩ ⟨htu, hfs⟩
    refine ⟨?_, drives_append hes hfs⟩
    rw [htu, hst]
    simp

/-- A single exchange after which the operation is another one. -/
theorem follows_single {e : Exchange} {s : Session} {o : Operation}
    (h : e.Moves k (s.operation k).isActive o.isActive) :
    Follows k s [e] (s.withOperation k o) where
  frame := by simp
  drives := by simpa using drives_single h

/-- A course of calls that belong to no kind of operation. -/
structure Bypasses (s : Session) (es : List Exchange) (t : Session) : Prop where
  same : t = s
  kind : ∀ e ∈ es, e.request.kind? = none

theorem bypasses_lasting : Lasting Bypasses where
  refl s := ⟨rfl, by simp⟩
  trans := by
    rintro s t u es fs ⟨rfl, hes⟩ ⟨rfl, hfs⟩
    refine ⟨rfl, ?_⟩
    intro e hm
    rcases List.mem_append.mp hm with hm | hm
    · exact hes e hm
    · exact hfs e hm

theorem bypasses_aside : Action.Aside Bypasses := fun s r x h => ⟨rfl, by simpa using h⟩

namespace Action

variable {ω α : Type}

theorem follows_start (kind : OperationKind) (key : Option Handle) :
    Within (Follows kind) (start kind key) := by
  intro scene after es outcome hgoes
  obtain ⟨-, rfl, -, rfl⟩ | ⟨hidle, ⟨e, -, rfl, -, rfl⟩ | ⟨native, reply, -, rfl, hreply⟩⟩ :=
    start_cases hgoes
  · exact (follows_lasting kind).refl _
  · exact (follows_lasting kind).refl _
  obtain ⟨ho, -, m, -, rfl⟩ | ⟨s, ho, -, rfl⟩ := hreply
  · apply follows_single
    rw [hidle]
    exact .begins ⟨rfl, rfl, by simp [Exchange.refusal?, ho, Outcome.failure?]⟩
  · have hmove := follows_single (k := kind) (s := scene.session)
      (o := scene.session.operation kind) (e := ⟨.start kind scene.session.handle native key, reply⟩)
    rw [Session.withOperation_operation, hidle] at hmove
    refine hmove (.refused rfl rfl ?_)
    rintro ⟨-, -, hnone⟩
    simp [Exchange.refusal?, ho, Outcome.failure?] at hnone

theorem follows_startWith (kind : OperationKind) (key : Object) :
    Within (Follows kind) (startWith kind key) :=
  within_bind (follows_lasting kind) (within_lift (follows_lasting kind) _) fun handle =>
    follows_start kind (some handle)

/-- How the outcome of a call settles an operation, in terms of what was exchanged. -/
theorem settle_moves {e : Exchange} {o : Operation} {last : Bool} {r : Except Status α}
    (hk : e.request.kind? = some k) (hs : e.request.isStart = false) (ho : o.isActive = true)
    (hends : e.Ends k ↔ (last = true ∧ ∃ x, r = .ok x) ∨
      ∃ s, r = .error s ∧ s ≠ Status.bufferTooSmall) :
    e.Moves k o.isActive (o.settle last r).2.isActive := by
  have hover : o.abandon.isActive = false := Operation.not_isActive_abandon o
  rw [ho]
  by_cases h : e.Ends k
  · have hidle : (o.settle last r).2.isActive = false := by
      obtain ⟨rfl, x, rfl⟩ | ⟨s, rfl, hne⟩ := hends.mp h
      · simp [Operation.settle, hover]
      · simp [Operation.settle, hne, hover]
    rw [hidle]
    exact .ends hk hs h
  · have hruns : (o.settle last r).2.isActive = true := by
      rw [hends] at h
      cases r with
      | ok x =>
        have hlast : last ≠ true := fun hlast => h (.inl ⟨hlast, x, rfl⟩)
        simp [Operation.settle, hlast, ho]
      | error s =>
        have hroom : s = Status.bufferTooSmall :=
          Decidable.byContradiction fun hne => h (.inr ⟨s, rfl, hne⟩)
        simp [Operation.settle, hroom, ho]
    rw [hruns]
    exact .goesOn hk hs h

/-- A talk of one exchange, of a call after the first, with the outcome by which the operation is
settled. -/
def Asks (k : OperationKind) (last : Bool) (t : Talk (Except Status α)) : Prop :=
  ∀ {es r}, t.Goes es r → ∃ e, es = [e] ∧ e.request.kind? = some k ∧ e.request.isStart = false ∧
    (e.Ends k ↔ (last = true ∧ ∃ x, r = .ok x) ∨ ∃ s, r = .error s ∧ s ≠ Status.bufferTooSmall)

theorem follows_advance {last : Bool} {t : Talk (Except Status α)} (ht : Asks k last t) :
    Within (Follows k) (advance k last (liftM t) : Action ω α) := by
  intro scene after es outcome hgoes
  obtain ⟨-, rfl, -, rfl⟩ | ⟨hactive, r, mid, hcall, -, rfl⟩ := advance_cases hgoes
  · exact (follows_lasting k).refl _
  · obtain ⟨htalk, rfl⟩ := goes_lifted.mp hcall
    obtain ⟨e, rfl, hk, hs, hends⟩ := ht htalk
    exact follows_single (settle_moves hk hs hactive hends)

/-- Calls that write nothing and come to no verdict end an operation by what they answer alone. -/
theorem ends_iff {e : Exchange} {r : Except Status α} (hk : e.request.kind? = some k)
    (hs : e.request.isStart = false) (hr : e.refusal? = Outcome.failure? r)
    (hverdict : ¬ e.Rejects) (hover : ¬ e.Overreports) :
    e.Ends k ↔ (e.request.isFinal = true ∧ ∃ x, r = .ok x) ∨
      ∃ s, r = .error s ∧ s ≠ Status.bufferTooSmall := by
  cases r <;> simp [Exchange.Ends, Exchange.Finishes, Exchange.Fails, hk, hs, hr, hverdict, hover,
    Outcome.failure?]

theorem asks_absorb (absorber : Absorber) (here : Handle) (data : Bytes) :
    Asks absorber.kind false (Talk.request (.absorb absorber here data)) := by
  intro es r hgoes
  obtain rfl := Talk.goes_request.mp hgoes
  exact ⟨_, rfl, rfl, rfl, ends_iff rfl rfl rfl id id⟩

theorem asks_signFinal (here : Handle) : Asks .sign true (Talk.request (.signFinal here)) := by
  intro es r hgoes
  obtain rfl := Talk.goes_request.mp hgoes
  exact ⟨_, rfl, rfl, rfl, ends_iff rfl rfl rfl id id⟩

theorem asks_digestFinal (here : Handle) :
    Asks .digest true (Talk.request (.digestFinal here)) := by
  intro es r hgoes
  obtain rfl := Talk.goes_request.mp hgoes
  exact ⟨_, rfl, rfl, rfl, ends_iff rfl rfl rfl id id⟩

/-- The verdict on a signature ends the verification like its acceptance. -/
theorem asks_verifyFinal (here : Handle) (signature : Bytes) :
    Asks .verify true (verdict <$> Talk.request (.verifyFinal here signature)) := by
  intro es r hgoes
  obtain ⟨x, hx, rfl⟩ := Talk.goes_map.mp hgoes
  obtain rfl := Talk.goes_request.mp hx
  refine ⟨_, rfl, rfl, rfl, ?_⟩
  by_cases hrejects : Exchange.Rejects ⟨.verifyFinal here signature, x⟩
  · have hends : Exchange.Ends .verify ⟨.verifyFinal here signature, x⟩ :=
      ⟨rfl, .inl ⟨rfl, .inr hrejects⟩⟩
    rcases hrejects with rfl | rfl <;> simp [hends, verdict]
  · rw [ends_iff (r := x) rfl rfl rfl hrejects id]
    cases x with
    | ok => simp [verdict, Request.isFinal]
    | error s =>
      have hplain : ¬ (s = Status.signatureInvalid ∨ s = Status.signatureLenRange) := by
        intro h
        exact hrejects (h.imp (congrArg _) (congrArg _))
      simp [verdict, hplain]

/-- A call after the first that writes into a window, with what it delivers. -/
structure IsWrite (k : OperationKind) (last : Bool) (room : Nat) (delivery : Delivery)
    (e : Exchange) : Prop where
  kind : e.request.kind? = some k
  later : e.request.isStart = false
  last : e.request.isFinal = last
  refusal : e.refusal? = Outcome.failure? delivery.outcome
  verdict : ¬ e.Rejects
  excess : e.Overreports ↔ ∃ n, delivery.outcome = .ok n ∧ room < n

theorem IsWrite.moves {last : Bool} {room : Nat} {delivery : Delivery} {e : Exchange}
    {o : Operation} (h : IsWrite k last room delivery e) (ho : o.isActive = true) :
    e.Moves k o.isActive (settleWrite o last room delivery).2.isActive := by
  by_cases hover : e.Overreports
  · -- The count is looked at after the call has settled, and ends also what the call did not.
    have hends : e.Ends k := ⟨h.kind, .inr (.inr hover)⟩
    obtain ⟨n, hn, hroom⟩ := h.excess.mp hover
    have hidle : (settleWrite o last room delivery).2.isActive = false := by
      simp [settleWrite, hn, Nat.not_le.mpr hroom, Operation.not_isActive_abandon]
    rw [ho, hidle]
    exact .ends h.kind h.later hends
  · have hends := ends_iff h.kind h.later h.refusal h.verdict hover
    rw [h.last] at hends
    have hsettle : (settleWrite o last room delivery).2 = (o.settle last delivery.outcome).2 := by
      unfold settleWrite
      cases hn : delivery.outcome with
      | error s => rfl
      | ok n =>
        have hroom : n ≤ room := by
          apply Nat.le_of_not_lt
          intro hlt
          exact hover (h.excess.mpr ⟨n, hn, hlt⟩)
        simp [hroom, Operation.settle]
    rw [hsettle]
    exact settle_moves h.kind h.later ho hends

theorem follows_writeFrom {direction : Direction} {last : Bool} {offset : Nat}
    {call : Handle → Bytes → Talk Delivery}
    (hcall : ∀ {here window es delivery}, (call here window).Goes es delivery →
      ∃ e, es = [e] ∧ IsWrite direction.kind last window.length delivery e) :
    Within (Follows direction.kind) (writeFrom direction last offset call) := by
  intro scene after es outcome hgoes
  obtain ⟨-, rfl, -, rfl⟩ | ⟨-, -, rfl, -, rfl⟩ |
    ⟨-, hactive, delivery, settled, htalk, rfl, -, rfl⟩ := writeFrom_cases hgoes
  · exact (follows_lasting _).refl _
  · exact (follows_lasting _).refl _
  · obtain ⟨e, rfl, hwrite⟩ := hcall htalk
    rw [List.length_drop] at hwrite
    exact follows_single (hwrite.moves hactive)

theorem follows_cipherUpdate (direction : Direction) (input : Bytes) (offset : Nat) :
    Within (Follows direction.kind) (cipherUpdate direction input offset) := by
  refine follows_writeFrom fun {here window es delivery} hgoes => ?_
  obtain rfl := Talk.goes_request.mp hgoes
  exact ⟨_, rfl, rfl, rfl, rfl, rfl, id, Iff.rfl⟩

theorem follows_cipherFinal (direction : Direction) (offset : Nat) :
    Within (Follows direction.kind) (cipherFinal direction offset) := by
  refine follows_writeFrom fun {here window es delivery} hgoes => ?_
  obtain rfl := Talk.goes_request.mp hgoes
  exact ⟨_, rfl, rfl, rfl, rfl, rfl, id, Iff.rfl⟩

theorem follows_absorb (absorber : Absorber) (data : Bytes) :
    Within (Follows absorber.kind) (absorb absorber data : Action ω Unit) :=
  within_bind (follows_lasting _) (within_session (follows_lasting _)) fun here =>
    follows_advance (asks_absorb absorber here.handle data)

theorem follows_signFinal : Within (Follows .sign) (signFinal : Action ω Bytes) :=
  within_bind (follows_lasting _) (within_session (follows_lasting _)) fun here =>
    follows_advance (asks_signFinal here.handle)

theorem follows_verifyFinal (signature : Bytes) :
    Within (Follows .verify) (verifyFinal signature : Action ω Bool) :=
  within_bind (follows_lasting _) (within_session (follows_lasting _)) fun here =>
    follows_advance (asks_verifyFinal here.handle signature)

theorem follows_digestFinal : Within (Follows .digest) (digestFinal : Action ω Bytes) :=
  within_bind (follows_lasting _) (within_session (follows_lasting _)) fun here =>
    follows_advance (asks_digestFinal here.handle)

theorem follows_sign (key : Object) (data : Bytes) : Within (Follows .sign) (sign key data) := by
  refine within_bind (follows_lasting _) (follows_startWith .sign key) fun _ => ?_
  exact within_bind (follows_lasting _) (follows_absorb .sign data) fun _ => follows_signFinal

theorem follows_verify (key : Object) (data signature : Bytes) :
    Within (Follows .verify) (verify key data signature) := by
  refine within_bind (follows_lasting _) (follows_startWith .verify key) fun _ => ?_
  refine within_bind (follows_lasting _) (follows_absorb .verify data) fun _ => ?_
  exact follows_verifyFinal signature

theorem follows_digest (data : Bytes) : Within (Follows .digest) (digest data) := by
  refine within_bind (follows_lasting _) (follows_start .digest none) fun _ => ?_
  exact within_bind (follows_lasting _) (follows_absorb .digest data) fun _ => follows_digestFinal

theorem follows_streamChunks (direction : Direction) (output : OutputBuffer) (pieces : List Bytes) :
    Within (Follows direction.kind) (streamChunks direction output pieces) :=
  within_streamChunks (follows_lasting _) (fun input => follows_cipherUpdate direction input 0)
    (follows_cipherFinal direction 0) output pieces

/-- A first call that fails begins nothing. -/
theorem startWith_refused {kind : OperationKind} {key : Object} {scene after : Scene Mechanism}
    {e : Error} (h : (startWith kind key).Goes scene es (.error e) after) :
    after.session = scene.session ∧ ∀ f ∈ es, ¬ f.Begins k := by
  obtain ⟨f, -, rfl, -, rfl⟩ | ⟨handle, -, hstart⟩ := startWith_cases h
  · exact ⟨rfl, by simp⟩
  obtain ⟨-, rfl, -, rfl⟩ | ⟨-, ⟨f, -, rfl, -, rfl⟩ | ⟨native, reply, -, rfl, hreply⟩⟩ :=
    start_cases hstart
  · exact ⟨rfl, by simp⟩
  · exact ⟨rfl, by simp⟩
  obtain ⟨-, he, -⟩ | ⟨s, ho, -, rfl⟩ := hreply
  · cases he
  · simp [Exchange.Begins, Exchange.refusal?, Outcome.failure?, ho]

/-- A first call that succeeds found no operation running. -/
theorem startWith_idle {kind : OperationKind} {key : Object} {scene after : Scene Mechanism}
    (h : (startWith kind key).Goes scene es (.ok ()) after) :
    (scene.session.operation kind).isActive = false := by
  obtain ⟨f, -, -, he, -⟩ | ⟨handle, -, hstart⟩ := startWith_cases h
  · cases he
  obtain ⟨-, -, he, -⟩ | ⟨hidle, -⟩ := start_cases hstart
  · cases he
  · exact hidle

theorem cipherAll_cases {direction : Direction} {key : Object} {data : Bytes}
    {scene after : Scene Mechanism} {outcome : Except Error Bytes}
    (h : (cipherAll direction key data).Goes scene es outcome after) :
    (∃ e, (startWith direction.kind key).Goes scene es (.error e) after) ∨
    ∃ mid before rest left, es = before ++ rest ∧
      (startWith direction.kind key).Goes scene before (.ok ()) mid ∧
      Follows direction.kind mid.session rest left ∧
      after.session =
        left.withOperation direction.kind (left.operation direction.kind).abandon := by
  obtain ⟨e, hstart, -⟩ | ⟨_, mid, before, rest, rfl, hstart, hstream⟩ := goes_bind.mp h
  · exact .inl ⟨e, hstart⟩
  · obtain ⟨streamed, left, hchunks, -, rfl⟩ := stream_cases hstream
    exact .inr ⟨mid, before, rest, left.session, rfl, hstart,
      follows_streamChunks direction _ _ hchunks, rfl⟩

end Action

namespace Call

variable {call : Call}

/-- A call of a kind that is no whole text and resets nothing follows the protocol of the kind. -/
theorem follows (hkind : call.kind? = some k) (hplain : call.isWhole = false)
    (hreset : ∀ k, call ≠ .reset k) : Action.Within (Follows k) call.action := by
  cases call with
  | start kind _ key =>
    cases hkind
    exact Action.follows_startWith _ key
  | startDigest _ =>
    cases hkind
    exact Action.follows_start .digest none
  | cipherUpdate direction input _ offset =>
    cases hkind
    exact Action.follows_cipherUpdate direction input offset
  | cipherFinal direction _ offset =>
    cases hkind
    exact Action.follows_cipherFinal direction offset
  | cipherAll _ _ _ _ => cases hplain
  | absorb absorber data =>
    cases hkind
    exact Action.follows_absorb absorber data
  | signFinal =>
    cases hkind
    exact Action.follows_signFinal
  | verifyFinal signature =>
    cases hkind
    exact Action.follows_verifyFinal signature
  | digestFinal =>
    cases hkind
    exact Action.follows_digestFinal
  | sign _ key data =>
    cases hkind
    exact Action.follows_sign key data
  | verify _ key data signature =>
    cases hkind
    exact Action.follows_verify key data signature
  | digest _ data =>
    cases hkind
    exact Action.follows_digest data
  | reset kind => exact absurd rfl (hreset kind)
  | _ => cases hkind

theorem bypasses (hkind : call.kind? = none) : Action.Within Bypasses call.action :=
  (Action.passes_within bypasses_lasting bypasses_aside).call hkind

/-- A call that is no whole text and resets nothing follows the protocol of one kind, or is no call
of any kind. -/
theorem follows_or_bypasses (hplain : call.isWhole = false) (hreset : ∀ k, call ≠ .reset k) :
    (∃ k, Action.Within (Follows k) call.action) ∨ Action.Within Bypasses call.action := by
  cases hkind : call.kind? with
  | some k => exact .inl ⟨k, follows hkind hplain hreset⟩
  | none => exact .inr (bypasses hkind)

end Call

end Cryptoki
