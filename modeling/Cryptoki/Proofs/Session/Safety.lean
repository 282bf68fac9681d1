import Cryptoki.Proofs.Session.Protocol
import Cryptoki.Proofs.Session.Refusals
import Cryptoki.Token.Script

/-! Every history of a session keeps to the protocol, and its phases tell which operations run. -/
namespace Cryptoki

variable {k : OperationKind} {call opener : Call} {history : List Event} {es : List Exchange}
  {s t : Session}

/-- What may happen after a history: an operation is begun only where none of its kind runs, and
continued only where one does. -/
def Lawful (history : List Event) : Event → Prop
  | .exchange _ e => ∀ k, e.request.kind? = some k →
    (e.request.isStart = true → ¬ Running k history) ∧
    (e.request.isStart = false → Running k history)
  | .returned _ => True

def LawfulFrom : List Event → List Event → Prop
  | _, [] => True
  | history, event :: later => Lawful history event ∧ LawfulFrom (history ++ [event]) later

theorem lawfulFrom_append {events later : List Event} :
    LawfulFrom history (events ++ later) ↔
      LawfulFrom history events ∧ LawfulFrom (history ++ events) later := by
  induction events generalizing history with
  | nil => simp [LawfulFrom]
  | cons event events ih => simp [LawfulFrom, ih, and_assoc]

/-- Each event of a lawful history is lawful after those before it. -/
theorem LawfulFrom.split {events before after : List Event} {event : Event}
    (h : LawfulFrom history events) (hsplit : events = before ++ event :: after) :
    Lawful (history ++ before) event := by
  rw [hsplit, lawfulFrom_append] at h
  exact h.2.1

/-- The session has the operations that run by the history alone. -/
def Agrees (history : List Event) (s : Session) : Prop :=
  ∀ k, (s.operation k).isActive = true ↔ Running k history

theorem running_exchange {e : Exchange} :
    Running k (history ++ [.exchange call e]) ↔ e.Begins k ∨ Running k history ∧ ¬ e.Ends k := by
  constructor
  · rintro ⟨opener, h⟩
    obtain ⟨f, he, hb⟩ | ⟨hrun, hend⟩ := runningBy_concat.mp h
    · cases he
      exact .inl hb
    · exact .inr ⟨⟨opener, hrun⟩, hend⟩
  · rintro (hb | ⟨⟨opener, hrun⟩, hend⟩)
    · exact ⟨call, runningBy_concat.mpr (.inl ⟨e, rfl, hb⟩)⟩
    · exact ⟨opener, runningBy_concat.mpr (.inr ⟨hrun, hend⟩)⟩

/-- An exchange of a kind has only to fit what runs of that kind. -/
theorem lawful_exchange {call : Call} {e : Exchange} (hk : e.request.kind? = some k)
    (hstart : e.request.isStart = true → ¬ Running k history)
    (hlater : e.request.isStart = false → Running k history) :
    Lawful history (.exchange call e) := by
  intro j hj
  rw [hk] at hj
  obtain rfl := Option.some.inj hj
  exact ⟨hstart, hlater⟩

theorem running_moves (call : Call) {e : Exchange} {a b : Bool} (h : e.Moves k a b)
    (ha : a = true ↔ Running k history) :
    Lawful history (.exchange call e) ∧
      (b = true ↔ Running k (history ++ [.exchange call e])) := by
  rw [running_exchange]
  cases h with
  | begins hb =>
    have hidle : ¬ Running k history := by simpa using ha
    refine ⟨lawful_exchange hb.1 (fun _ => hidle) ?_, by simp [hb]⟩
    simp [hb.2.1]
  | refused hk hs hb =>
    have hidle : ¬ Running k history := by simpa using ha
    refine ⟨lawful_exchange hk (fun _ => hidle) ?_, by simp [hb, hidle]⟩
    simp [hs]
  | goesOn hk hs hend =>
    have hrun : Running k history := ha.mp rfl
    refine ⟨lawful_exchange hk ?_ (fun _ => hrun), by simp [hrun, hend]⟩
    simp [hs]
  | ends hk hs hend =>
    have hrun : Running k history := ha.mp rfl
    refine ⟨lawful_exchange hk ?_ (fun _ => hrun), by simp [hend, Exchange.Begins, hs]⟩
    simp [hs]

theorem running_drives (call : Call) {a b : Bool} (h : Drives k a es b)
    (ha : a = true ↔ Running k history) :
    LawfulFrom history (es.map (.exchange call)) ∧
      (b = true ↔ Running k (history ++ es.map (.exchange call))) := by
  induction es generalizing history a with
  | nil =>
    obtain rfl := h
    exact ⟨trivial, by simpa using ha⟩
  | cons e es ih =>
    obtain ⟨m, he, hrest⟩ := h
    obtain ⟨hlaw, hm⟩ := running_moves call he ha
    obtain ⟨hlater, hb⟩ := ih hrest hm
    exact ⟨⟨hlaw, hlater⟩, by simpa using hb⟩

theorem running_of_other (h : ∀ e ∈ es, e.request.kind? ≠ some k) :
    Running k (history ++ es.map (.exchange call)) ↔ Running k history :=
  exists_congr fun _ => runningBy_of_other h

theorem agrees_follows (call : Call) (hs : Agrees history s) (hf : Follows k s es t) :
    LawfulFrom history (es.map (.exchange call)) ∧
      Agrees (history ++ es.map (.exchange call)) t := by
  obtain ⟨hlaw, hk⟩ := running_drives call hf.drives (hs k)
  refine ⟨hlaw, fun j => ?_⟩
  by_cases hj : j = k
  · rw [hj]
    exact hk
  · have hother : ∀ e ∈ es, e.request.kind? ≠ some j := by
      intro e hm
      rw [hf.drives.kind e hm]
      simpa using Ne.symm hj
    rw [hf.frame, Session.operation_withOperation_of_ne s _ hj, running_of_other hother]
    exact hs j

theorem lawfulFrom_aside (h : ∀ e ∈ es, e.request.kind? = none) :
    LawfulFrom history (es.map (.exchange call)) := by
  induction es generalizing history with
  | nil => trivial
  | cons e es ih =>
    refine ⟨?_, ih fun f hm => h f (by simp [hm])⟩
    intro k hk
    simp [h e] at hk

theorem agrees_bypasses (call : Call) (hs : Agrees history s) (hf : Bypasses s es t) :
    LawfulFrom history (es.map (.exchange call)) ∧
      Agrees (history ++ es.map (.exchange call)) t := by
  refine ⟨lawfulFrom_aside hf.kind, fun k => ?_⟩
  have hother : ∀ e ∈ es, e.request.kind? ≠ some k := by
    intro e hm
    simp [hf.kind e hm]
  rw [hf.same, running_of_other hother]
  exact hs k

/-- Between calls, moreover, no operation runs that was begun for a whole text. -/
structure Settled (history : List Event) (s : Session) : Prop where
  agrees : Agrees history s
  apart : ∀ {k opener}, RunningBy k opener history → opener.isWhole = false

theorem running_returned (hreset : call ≠ .reset k)
    (hapart : ∀ {opener}, RunningBy k opener history → opener.isWhole = false) :
    Running k (history ++ [.returned call]) ↔ Running k history := by
  refine exists_congr fun opener => ?_
  rw [runningBy_returned]
  constructor
  · exact And.left
  · intro h
    exact ⟨h, hreset, hapart h⟩

/-- Where nothing runs that was begun for a whole text, a return ends nothing. -/
theorem settled_returned (hreset : ∀ k, call ≠ .reset k) (hs : Agrees history s)
    (hapart : ∀ {k opener}, RunningBy k opener history → opener.isWhole = false) :
    Settled (history ++ [.returned call]) s where
  agrees k := (hs k).trans (running_returned (hreset k) hapart).symm
  apart h := (runningBy_returned.mp h).2.2

theorem settled_reset (hs : Settled history s) :
    Settled (history ++ [.returned (.reset k)]) (s.withOperation k .uninitialized) := by
  refine ⟨fun j => ?_, fun h => (runningBy_returned.mp h).2.2⟩
  by_cases hj : j = k
  · rw [hj, Session.operation_withOperation]
    simp [Running, runningBy_returned, Operation.isActive]
  · have hother : Call.reset k ≠ .reset j := by simpa using Ne.symm hj
    rw [Session.operation_withOperation_of_ne s _ hj, hs.agrees j,
      running_returned hother hs.apart]

/-- An operation that was begun for a whole text has ended when the call returns. -/
theorem settled_whole {u : Session} (hwhole : call.isWhole = true) (hs : Settled history s)
    (hidle : (s.operation k).isActive = false) (hf : Follows k s es t)
    (hu : u = t.withOperation k (t.operation k).abandon) :
    Settled (history ++ es.map (.exchange call) ++ [.returned call]) u := by
  refine ⟨fun j => ?_, fun h => (runningBy_returned.mp h).2.2⟩
  by_cases hj : j = k
  · -- What runs of this kind was begun by this call, since none ran before it.
    rw [hj, hu, Session.operation_withOperation, Operation.not_isActive_abandon]
    simp only [Bool.false_eq_true, false_iff]
    rintro ⟨opener, h⟩
    obtain ⟨h, -, hpart⟩ := runningBy_returned.mp h
    rcases runningBy_origin h with rfl | h
    · simp [hwhole] at hpart
    · have hactive := (hs.agrees k).mpr ⟨opener, h⟩
      simp [hidle] at hactive
  · have hother : ∀ e ∈ es, e.request.kind? ≠ some j := by
      intro e hm
      rw [hf.drives.kind e hm]
      simpa using Ne.symm hj
    have hplain : call ≠ .reset j := by
      rintro rfl
      simp [Call.isWhole] at hwhole
    have hapart : ∀ {opener}, RunningBy j opener (history ++ es.map (.exchange call)) →
        opener.isWhole = false := fun h => hs.apart ((runningBy_of_other hother).mp h)
    rw [hu, Session.operation_withOperation_of_ne t _ hj, hf.frame,
      Session.operation_withOperation_of_ne s _ hj, hs.agrees j, running_returned hplain hapart,
      running_of_other hother]

/-- What one call does to a history and a session that agree. -/
theorem settled_call {scene after : Scene call.Subject} {outcome : Except Error call.Result}
    (hs : Settled history scene.session) (hgoes : call.action.Goes scene es outcome after) :
    LawfulFrom history (es.map (.exchange call)) ∧
      Settled (history ++ es.map (.exchange call) ++ [.returned call]) after.session := by
  cases hwhole : call.isWhole with
  | true =>
    obtain ⟨direction, mechanism, key, data, rfl⟩ :
        ∃ direction mechanism key data, call = .cipherAll direction mechanism key data := by
      cases call <;> simp [Call.isWhole] at hwhole
      exact ⟨_, _, _, _, rfl⟩
    obtain ⟨e, hstart⟩ | ⟨mid, before, rest, left, rfl, hstart, hf, hleft⟩ :=
      Action.cipherAll_cases hgoes
    · -- Nothing was begun, so that nothing is left for the return to end.
      obtain ⟨hlaw, hafter⟩ := agrees_follows (.cipherAll direction mechanism key data)
        hs.agrees (Action.follows_startWith direction.kind key hstart)
      refine ⟨hlaw, settled_returned (by simp) hafter fun {k opener} h => ?_⟩
      exact hs.apart (runningBy_of_not_begins (Action.startWith_refused hstart).2 h)
    · have hall := (follows_lasting direction.kind).trans
        (Action.follows_startWith direction.kind key hstart) hf
      obtain ⟨hlaw, -⟩ := agrees_follows (.cipherAll direction mechanism key data)
        hs.agrees hall
      exact ⟨hlaw, settled_whole rfl hs (Action.startWith_idle hstart) hall hleft⟩
  | false =>
    by_cases hreset : ∃ k, call = .reset k
    · obtain ⟨k, rfl⟩ := hreset
      obtain ⟨rfl, -, rfl⟩ := Action.goes_setOperation.mp hgoes
      exact ⟨trivial, by simpa using settled_reset hs⟩
    · have hplain : ∀ k, call ≠ .reset k := fun k h => hreset ⟨k, h⟩
      have hapart : ∀ {k opener}, RunningBy k opener (history ++ es.map (.exchange call)) →
          opener.isWhole = false := by
        intro k opener h
        rcases runningBy_origin h with rfl | h
        · exact hwhole
        · exact hs.apart h
      have hagrees : LawfulFrom history (es.map (.exchange call)) ∧
          Agrees (history ++ es.map (.exchange call)) after.session := by
        obtain ⟨k, hf⟩ | hf := Call.follows_or_bypasses hwhole hplain
        · exact agrees_follows call hs.agrees (hf hgoes)
        · exact agrees_bypasses call hs.agrees (hf hgoes)
      exact ⟨hagrees.1, settled_returned hplain hagrees.2 hapart⟩

theorem settled_play {token : Token σ} {calls : List Call} {events : List Event} {u v : σ}
    (hs : Settled history s) (hplay : play token calls s u = (events, t, v)) :
    LawfulFrom history events ∧ Settled (history ++ events) t := by
  induction calls generalizing history s u events with
  | nil =>
    cases hplay
    exact ⟨trivial, by simpa using hs⟩
  | cons call calls ih =>
    obtain ⟨⟨⟨outcome, after⟩, es, w⟩, hrun⟩ : ∃ r, call.run token s u = r := ⟨_, rfl⟩
    obtain ⟨⟨later, left, x⟩, hrest⟩ : ∃ r, play token calls after.session w = r := ⟨_, rfl⟩
    simp only [play, hrun, hrest] at hplay
    cases hplay
    obtain ⟨hlaw, hmid⟩ := settled_call hs (Talk.run_eq_iff.mp hrun).1
    obtain ⟨hlater, hend⟩ := ih hmid hrest
    refine ⟨lawfulFrom_append.mpr ⟨hlaw, trivial, hlater⟩, ?_⟩
    simpa using hend

/-- Whatever is called in a session and whatever the token answers: the token is asked to begin an
operation only where none of its kind runs, and to continue one only where one does; the phases
of the session tell which operations run; and calls that do not fit these are refused, without a
word to the token and without a change. -/
theorem play_keeps_protocol {token : Token σ} {calls : List Call} {handle slot : Word}
    {limits : StreamLimits} {host : HostLayouts} {u v : σ}
    (hplay : play token calls (.ofHandle handle slot limits host) u = (history, s, v)) :
    (∀ before call e after k, history = before ++ .exchange call e :: after →
      e.request.kind? = some k →
      (e.request.isStart = true → ¬ Running k before) ∧
      (e.request.isStart = false → Running k before)) ∧
    (∀ k, s.phase k = .initialized ↔ Running k history) ∧
    ∀ (call : Call) k,
      (call.opens? = some k → Running k history → call.run token s v =
        ((.error (call.fault?.getD (.operationAlreadyActive k)), ⟨s, call.subject⟩), [], v)) ∧
      (call.continues? = some k → ¬ Running k history → call.run token s v =
        ((.error (call.fault?.getD (.operationNotActive k)), ⟨s, call.subject⟩), [], v)) := by
  have hfresh : Settled [] (.ofHandle handle slot limits host) := by
    refine ⟨fun k => ?_, fun h => absurd h not_runningBy_nil⟩
    cases k <;> simp [Running, not_runningBy_nil, Session.ofHandle, Session.operation,
      Operations.get, Operations.idle, Operation.isActive]
  obtain ⟨hlaw, hs⟩ := settled_play hfresh hplay
  rw [List.nil_append] at hs
  refine ⟨?_, ?_, fun call k => ⟨fun hk hrun => ?_, fun hk hrun => ?_⟩⟩
  · intro before call e after k hsplit hk
    exact hlaw.split hsplit k hk
  · intro k
    rw [← hs.agrees k, Operation.isActive_iff, Session.phase]
  · have hactive := (hs.agrees k).mpr hrun
    exact (Call.refuses_opening hk hactive).run token v
  · have hidle : (s.operation k).isActive = false := by
      simpa using fun h => hrun ((hs.agrees k).mp h)
    exact (Call.refuses_continuing hk hidle).run token v

/-- A token that begins whatever it is asked to and takes all input in, and does nothing else. -/
def receptive : Token Unit where
  answer request _ :=
    match request with
    | .start _ _ _ _ => (⟨.ok (), .none⟩, ())
    | .absorb _ _ _ => (.ok (), ())
    | request => (request.refuse Status.functionNotSupported, ())

theorem play_keeps_protocol_digest : ∃ history s,
    play receptive [.startDigest ⟨0x250, none⟩, .absorb .digest [1, 2], .absorb .sign [3]]
      (.ofHandle 1 0 .standard .empty) () = (history, s, ()) ∧
    Running .digest history ∧ ¬ Running .sign history ∧
    (Call.digest ⟨0x250, none⟩ [4]).run receptive s () =
      ((.error (.operationAlreadyActive .digest), ⟨s, ⟨0x250, none⟩⟩), [], ()) ∧
    Call.signFinal.run receptive s () =
      ((.error (.operationNotActive .sign), ⟨s, ()⟩), [], ()) := by
  obtain ⟨⟨history, s, v⟩, hplay⟩ : ∃ r, play receptive
      [.startDigest ⟨0x250, none⟩, .absorb .digest [1, 2], .absorb .sign [3]]
      (.ofHandle 1 0 .standard .empty) () = r := ⟨_, rfl⟩
  obtain ⟨-, hphase, hrefused⟩ := play_keeps_protocol hplay
  have hdigest : s.phase .digest = .initialized := by
    cases hplay
    rfl
  have hsign : s.phase .sign ≠ .initialized := by
    cases hplay
    decide
  rw [ne_eq, hphase] at hsign
  refine ⟨history, s, hplay, (hphase _).mp hdigest, hsign, ?_, ?_⟩
  · exact (hrefused (.digest ⟨0x250, none⟩ [4]) .digest).1 rfl ((hphase _).mp hdigest)
  · exact (hrefused .signFinal .sign).2 rfl hsign

end Cryptoki
