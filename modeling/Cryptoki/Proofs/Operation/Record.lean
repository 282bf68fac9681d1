import Cryptoki.Operation.Basic
import Cryptoki.Proofs.Mechanism.Marshalling
import Cryptoki.Proofs.Since

/-! What an operation records of the calls that are made of it: the mechanism and the key of the last
start that was accepted, until it is reset. -/
namespace Cryptoki

theorem Mechanism.validate_answered (m : Mechanism) (w : MechanismWrite) :
    ((m.written w).completed w).validate = m.validate := by
  obtain ⟨id, _ | block⟩ := m
  · rfl
  · simp [validate, written, completed, ParameterBlock.family_written,
      ParameterBlock.family_completed]

namespace Operation

variable {α β : Type} {kind : OperationKind} {o next : Operation}

/-- A call of an operation, with what the token answers if the call gets to it. -/
inductive Move (α : Type) where
  | start (mechanism : Mechanism) (key : Option Handle) (host : HostLayouts)
      (answer : NativeMechanism → Mechanism.Reply Unit)
  | update (answer : Except Status α)
  | finish (answer : Except Status α)
  | abandon
  | reset

/-- What came of a call: how it ended, the mechanism as the caller has it afterwards, and the calls
of the token that it made, each with the mechanism that the token was given. -/
structure Made (α : Type) where
  move : Move α
  outcome : Except Error (Option α)
  mechanism : Option Mechanism
  asked : List (Option NativeMechanism)

/-- The token answers, and it is noted that it was asked. -/
def noting (given : Option NativeMechanism) (answer : β) :
    StateM (List (Option NativeMechanism)) β := do
  modify (· ++ [given])
  return answer

def make (kind : OperationKind) (o : Operation) (move : Move α) : Made α × Operation :=
  match move with
  | .start mechanism key host answer =>
    let ((outcome, next, left), asked) :=
      (o.start kind mechanism key host fun native => noting (some native) (answer native)).run []
    (⟨move, outcome.map fun _ => none, some left, asked⟩, next)
  | .update answer =>
    let ((outcome, next), asked) := (o.update kind (noting none answer)).run []
    (⟨move, outcome.map some, none, asked⟩, next)
  | .finish answer =>
    let ((outcome, next), asked) := (o.finish kind (noting none answer)).run []
    (⟨move, outcome.map some, none, asked⟩, next)
  | .abandon => (⟨move, .ok none, none, []⟩, o.abandon)
  | .reset => (⟨move, .ok none, none, []⟩, .uninitialized)

/-- One call after the other. -/
def makeAll (kind : OperationKind) : List (Move α) → Operation → List (Made α) × Operation
  | [], o => ([], o)
  | move :: moves, o =>
    let (made, o) := o.make kind move
    let (later, o) := makeAll kind moves o
    (made :: later, o)

/-- The ways in which a call can go, and the operation after it. -/
inductive Takes (kind : OperationKind) (o : Operation) : Made α → Operation → Prop where
  | alreadyActive {mechanism key host answer} (h : o.isActive = true) :
    Takes kind o ⟨.start mechanism key host answer, .error (.operationAlreadyActive kind),
      some mechanism, []⟩ o
  | unmarshalled {mechanism key host answer e} (hidle : o.isActive = false)
    (h : mechanism.toNative host = .error e) :
    Takes kind o ⟨.start mechanism key host answer, .error e, some mechanism, []⟩ o
  | declined {mechanism key host native s m} {answer : NativeMechanism → Mechanism.Reply Unit}
    (hidle : o.isActive = false) (h : mechanism.toNative host = .ok native)
    (hs : (answer native).outcome = .error s) (hm : m = mechanism.written (answer native).write) :
    Takes kind o ⟨.start mechanism key host answer, .error (.deviceStatus s), some m,
      [some native]⟩ o
  | begun {mechanism key host native m} {answer : NativeMechanism → Mechanism.Reply Unit}
    (hidle : o.isActive = false) (h : mechanism.toNative host = .ok native)
    (ho : (answer native).outcome = .ok ())
    (hm : m = (mechanism.written (answer native).write).completed (answer native).write) :
    Takes kind o ⟨.start mechanism key host answer, .ok none, some m, [some native]⟩
      (.initialized m key)
  | notActive {move : Move α} {answer : Except Status α}
    (hmove : move = .update answer ∨ move = .finish answer) (hidle : o.isActive = false) :
    Takes kind o ⟨move, .error (.operationNotActive kind), none, []⟩ o
  | continued {move : Move α} {answer : Except Status α} {last : Bool}
    (hmove : move = .update answer ∨ move = .finish answer) (h : o.isActive = true) :
    Takes kind o ⟨move, (o.settle last answer).1.map some, none, [none]⟩ (o.settle last answer).2
  | abandoned : Takes kind o ⟨.abandon, .ok none, none, []⟩ o.abandon
  | forgotten : Takes kind o ⟨.reset, .ok none, none, []⟩ .uninitialized

variable {made : Made α}

/-- A call of a running operation, as it is noted. -/
theorem run_advance (o : Operation) (kind : OperationKind) (last : Bool) (answer : Except Status α) :
    (o.advance kind last (noting none answer)).run [] =
      if o.isActive then (o.settle last answer, [none])
      else ((.error (.operationNotActive kind), o), []) := by
  cases h : o.isActive <;> simp only [advance, h] <;> rfl

theorem takes_advance {move : Move α} {answer : Except Status α} {last : Bool}
    {r : (Except Error α × Operation) × List (Option NativeMechanism)}
    (hmove : move = .update answer ∨ move = .finish answer)
    (hr : (o.advance kind last (noting none answer)).run [] = r) :
    Takes kind o ⟨move, r.1.1.map some, none, r.2⟩ r.1.2 := by
  rw [run_advance] at hr
  cases hactive : o.isActive <;> simp only [hactive] at hr <;> subst hr
  · exact .notActive hmove hactive
  · exact .continued hmove hactive

theorem takes_start {mechanism : Mechanism} {key : Option Handle} {host : HostLayouts}
    {answer : NativeMechanism → Mechanism.Reply Unit}
    (h : o.make kind (.start mechanism key host answer) = (made, next)) : Takes kind o made next := by
  cases hactive : o.isActive with
  | true =>
    simp only [make, start, hactive] at h
    cases h
    exact .alreadyActive hactive
  | false =>
    cases hnative : mechanism.toNative host with
    | error e =>
      simp only [make, start, Mechanism.use, hactive, hnative] at h
      cases h
      exact .unmarshalled hactive hnative
    | ok native =>
      obtain ⟨⟨outcome, write⟩, hreply⟩ : ∃ reply, answer native = reply := ⟨_, rfl⟩
      simp only [make, start, Mechanism.use, hactive, hnative, hreply] at h
      cases outcome with
      | ok =>
        cases h
        exact .begun hactive hnative (by rw [hreply]) (by rw [hreply])
      | error status =>
        cases h
        exact .declined hactive hnative (by rw [hreply]) (by rw [hreply])

theorem make_takes {move : Move α} (h : o.make kind move = (made, next)) :
    made.move = move ∧ Takes kind o made next := by
  cases move with
  | start mechanism key host answer =>
    exact ⟨by cases h; rfl, takes_start h⟩
  | update answer =>
    cases h
    exact ⟨rfl, takes_advance (.inl rfl) rfl⟩
  | finish answer =>
    cases h
    exact ⟨rfl, takes_advance (.inr rfl) rfl⟩
  | abandon =>
    cases h
    exact ⟨rfl, .abandoned⟩
  | reset =>
    cases h
    exact ⟨rfl, .forgotten⟩

/-- An accepted start, with the mechanism as the caller has it afterwards. -/
def Made.Begins (x : Made α) (mechanism : Mechanism) (key : Option Handle) : Prop :=
  x.outcome = .ok none ∧ x.mechanism = some mechanism ∧
    ∃ given host answer, x.move = .start given key host answer

theorem Made.Begins.unique {x : Made α} {m m' : Mechanism} {k k' : Option Handle}
    (h : x.Begins m k) (h' : x.Begins m' k') : m = m' ∧ k = k' := by
  obtain ⟨-, hm, _, _, _, hmove⟩ := h
  obtain ⟨-, hm', _, _, _, hmove'⟩ := h'
  rw [hm] at hm'
  rw [hmove] at hmove'
  cases hm'
  cases hmove'
  exact ⟨rfl, rfl⟩

/-- The last start that was accepted, where nothing has been reset since. -/
def LastBegun (history : List (Made α)) (mechanism : Mechanism) (key : Option Handle) : Prop :=
  Since (·.Begins mechanism key) (fun x => x.move ≠ .reset ∧ ∀ m k, ¬ x.Begins m k) history

/-- Calls that go on with an operation, or end it. -/
def Move.continues : Move α → Bool
  | .update _ | .finish _ | .abandon => true
  | .start _ _ _ _ | .reset => false

/-- A call gets to the token, which is given this. -/
def Move.Reaches (o : Operation) : Move α → Option NativeMechanism → Prop
  | .start mechanism _ host _, given =>
    o.isActive = false ∧ ∃ native, mechanism.toNative host = .ok native ∧ given = some native
  | .update _, given | .finish _, given => o.isActive = true ∧ given = none
  | .abandon, _ | .reset, _ => False

/-- The same is recorded, and an operation that was begun stays one. -/
structure Keeps (o next : Operation) : Prop where
  mechanism : next.mechanism? = o.mechanism?
  key : next.key? = o.key?
  begun : next.phase = .uninitialized ↔ o.phase = .uninitialized

theorem keeps_refl (o : Operation) : Keeps o o := ⟨rfl, rfl, .rfl⟩

theorem keeps_abandon (o : Operation) : Keeps o o.abandon :=
  ⟨o.mechanism?_abandon, o.key?_abandon, o.phase_abandon_eq_uninitialized_iff⟩

theorem keeps_settle (o : Operation) (last : Bool) (answer : Except Status α) :
    Keeps o (o.settle last answer).2 := by
  have hends : (o.settle last answer).2 = o ∨ (o.settle last answer).2 = o.abandon := by
    cases answer <;> simp only [settle] <;> split <;> simp
  rcases hends with h | h <;> rw [h]
  · exact o.keeps_refl
  · exact o.keeps_abandon

namespace Takes

/-- A call is recorded, forgets what is recorded, or leaves it. -/
theorem effect (h : Takes kind o made next) :
    (∃ mechanism key, made.Begins mechanism key ∧ next = .initialized mechanism key ∧
      mechanism.validate = .ok ()) ∨
    (made.move = .reset ∧ next = .uninitialized) ∨
    (made.move ≠ .reset ∧ (∀ m k, ¬ made.Begins m k) ∧ Keeps o next) := by
  cases h with
  | alreadyActive | unmarshalled | declined => simp [Made.Begins, keeps_refl]
  | @begun mechanism key host native m answer hidle hnative hanswer hm =>
    refine .inl ⟨m, key, ⟨rfl, rfl, mechanism, host, answer, rfl⟩, rfl, ?_⟩
    rw [hm, mechanism.validate_answered, Mechanism.validate_eq_ok_iff]
    exact (Mechanism.toNative_eq_ok_iff.mp hnative).1
  | notActive hmove => rcases hmove with rfl | rfl <;> simp [Made.Begins, keeps_refl]
  | @continued _ answer last hmove =>
    have hkeeps := o.keeps_settle last answer
    rcases hmove with rfl | rfl <;> simpa [Made.Begins] using hkeeps
  | abandoned => simp [Made.Begins, keeps_abandon]
  | forgotten => simp

theorem reaches (h : Takes kind o made next) :
    (made.asked = [] ∧ ∀ given, ¬ made.move.Reaches o given) ∨
      ∃ given, made.asked = [given] ∧ made.move.Reaches o given := by
  cases h with
  | alreadyActive h => simp [Move.Reaches, h]
  | unmarshalled hidle h => simp [Move.Reaches, h]
  | declined hidle h | begun hidle h => simp [Move.Reaches, hidle, h]
  | notActive hmove hidle => rcases hmove with rfl | rfl <;> simp [Move.Reaches, hidle]
  | continued hmove h => rcases hmove with rfl | rfl <;> simp [Move.Reaches, h]
  | abandoned | forgotten => simp [Move.Reaches]

/-- What an accepted start leaves is the mechanism that it was given, with what the token wrote. -/
theorem begins {m : Mechanism} {key : Option Handle} (h : Takes kind o made next)
    (hbegins : made.Begins m key) : ∃ given host answer native,
      made.move = .start given key host answer ∧ made.asked = [some native] ∧
      (answer native).outcome = .ok () ∧
      m = (given.written (answer native).write).completed (answer native).write := by
  obtain ⟨hok, hm, given, host, answer, hmove⟩ := hbegins
  cases h with
  | alreadyActive | unmarshalled | declined => cases hok
  | begun hidle hnative hanswer hafter =>
    cases hm
    cases hmove
    exact ⟨given, host, answer, _, rfl, rfl, hanswer, hafter⟩
  | _ => cases hm

theorem refused {mechanism : Mechanism} {key : Option Handle} {host : HostLayouts}
    {answer : NativeMechanism → Mechanism.Reply Unit} {e : Error} (h : Takes kind o made next)
    (hmove : made.move = .start mechanism key host answer) (he : made.outcome = .error e) :
    next = o := by
  cases h with
  | alreadyActive | unmarshalled | declined | notActive => rfl
  | begun => cases he
  | continued hcall => rcases hcall with rfl | rfl <;> cases hmove
  | abandoned | forgotten => cases hmove

theorem continues (h : Takes kind o made next) (hmove : made.move.continues = true) :
    Keeps o next := by
  rcases h.effect with ⟨_, _, ⟨-, -, _, _, _, hstart⟩, -, -⟩ | ⟨hreset, -⟩ | ⟨-, -, hkeeps⟩
  · simp [hstart, Move.continues] at hmove
  · simp [hreset, Move.continues] at hmove
  · exact hkeeps

end Takes

/-- A mechanism is recorded exactly of an operation that was begun, and no key without it. What is
recorded is the last start, and is a mechanism that has what it expects. -/
structure Records (history : List (Made α)) (o : Operation) : Prop where
  begun : o.phase = .uninitialized ↔ o.mechanism? = none
  keyless : o.mechanism? = none → o.key? = none
  last : ∀ mechanism key,
    (o.mechanism? = some mechanism ∧ o.key? = key) ↔ LastBegun history mechanism key
  valid : ∀ mechanism, o.mechanism? = some mechanism → mechanism.validate = .ok ()

theorem records_nil : Records ([] : List (Made α)) .uninitialized where
  begun := by simp [uninitialized]
  keyless := fun _ => rfl
  last := by simp [uninitialized, LastBegun, not_since_nil]
  valid := by simp [uninitialized]

theorem Records.start {history : List (Made α)} {m : Mechanism} {k : Option Handle}
    (hbegins : made.Begins m k) (hvalid : m.validate = .ok ()) :
    Records (history ++ [made]) (.initialized m k) where
  begun := by simp [initialized]
  keyless := by simp [initialized]
  last mechanism key := by
    rw [LastBegun, since_concat]
    constructor
    · rintro ⟨⟨⟩, rfl⟩
      exact .inl hbegins
    · rintro (hagain | ⟨-, -, hnone⟩)
      · obtain ⟨rfl, rfl⟩ := hbegins.unique hagain
        exact ⟨rfl, rfl⟩
      · exact absurd hbegins (hnone m k)
  valid := by
    rintro _ ⟨⟩
    exact hvalid

theorem Records.reset {history : List (Made α)} (hreset : made.move = .reset) :
    Records (history ++ [made]) .uninitialized where
  begun := by simp [uninitialized]
  keyless := fun _ => rfl
  last := by simp [uninitialized, LastBegun, since_concat, Made.Begins, hreset]
  valid := by simp [uninitialized]

theorem Records.keep {history : List (Made α)} (h : Records history o) (hkeeps : Keeps o next)
    (hmove : made.move ≠ .reset) (hbegins : ∀ m k, ¬ made.Begins m k) :
    Records (history ++ [made]) next where
  begun := by rw [hkeeps.begun, h.begun, hkeeps.mechanism]
  keyless := by
    rw [hkeeps.mechanism, hkeeps.key]
    exact h.keyless
  last mechanism key := by
    rw [hkeeps.mechanism, hkeeps.key, h.last, LastBegun, LastBegun, since_concat]
    simp [hmove, hbegins]
  valid := by
    rw [hkeeps.mechanism]
    exact h.valid

theorem Records.step {history : List (Made α)} (h : Records history o)
    (htakes : Takes kind o made next) : Records (history ++ [made]) next := by
  rcases htakes.effect with ⟨m, k, hbegins, rfl, hvalid⟩ | ⟨hreset, rfl⟩ | ⟨hmove, hbegins, hkeeps⟩
  · exact .start hbegins hvalid
  · exact .reset hreset
  · exact h.keep hkeeps hmove hbegins

theorem makeAll_cons {move : Move α} {moves : List (Move α)} {history : List (Made α)}
    (h : makeAll kind (move :: moves) o = (history, next)) :
    ∃ made mid later, history = made :: later ∧ Takes kind o made mid ∧
      makeAll kind moves mid = (later, next) := by
  cases h
  exact ⟨_, _, _, rfl, (make_takes rfl).2, rfl⟩

/-- What is recorded stays right over a run, whatever was called before. -/
theorem Records.run {past history : List (Made α)} {moves : List (Move α)} (h : Records past o)
    (hrun : makeAll kind moves o = (history, next)) : Records (past ++ history) next := by
  -- With each call the past is one call longer, so that the induction is over all of them.
  induction moves generalizing past history o with
  | nil =>
    cases hrun
    simpa using h
  | cons move moves ih =>
    obtain ⟨made, mid, later, rfl, htakes, hlater⟩ := makeAll_cons hrun
    simpa using ih (h.step htakes) hlater

/-- Every call of a run goes in one of the ways there are. -/
theorem takes_of_mem {history : List (Made α)} {moves : List (Move α)}
    (hrun : makeAll kind moves o = (history, next)) {x : Made α} (hx : x ∈ history) :
    ∃ before after, Takes kind before x after := by
  induction moves generalizing history o with
  | nil =>
    cases hrun
    cases hx
  | cons move moves ih =>
    obtain ⟨made, mid, later, rfl, htakes, hlater⟩ := makeAll_cons hrun
    rcases List.mem_cons.mp hx with rfl | hx
    · exact ⟨o, mid, htakes⟩
    · exact ih hlater hx

/-- After any calls, an operation has a mechanism exactly if it was begun, and a key only if it has
one: those of the last accepted start since the last reset, the mechanism with what the token wrote
in it, and with the parameters that it expects. A further call asks the token once where it gets
that far and else never. A start that is refused leaves everything as it is, and what goes on with
the operation or ends it leaves what is recorded. -/
theorem makeAll_records {moves : List (Move α)} {history : List (Made α)}
    (h : makeAll kind moves .uninitialized = (history, o)) :
    (o.phase = .uninitialized ↔ o.mechanism? = none) ∧
    (o.mechanism? = none → o.key? = none) ∧
    (∀ m key, (o.mechanism? = some m ∧ o.key? = key) ↔ LastBegun history m key) ∧
    (∀ m, o.mechanism? = some m → m.validate = .ok ()) ∧
    (∀ x ∈ history, ∀ m key, x.Begins m key → ∃ given host answer native,
      x.move = .start given key host answer ∧ x.asked = [some native] ∧
      (answer native).outcome = .ok () ∧
      m = (given.written (answer native).write).completed (answer native).write) ∧
    ∀ (move : Move α) (made : Made α) next, o.make kind move = (made, next) →
      ((made.asked = [] ∧ ∀ given, ¬ move.Reaches o given) ∨
        ∃ given, made.asked = [given] ∧ move.Reaches o given) ∧
      (∀ given key host answer e, move = .start given key host answer →
        made.outcome = .error e → next = o) ∧
      (move.continues = true → next.mechanism? = o.mechanism? ∧ next.key? = o.key?) := by
  have hrecords : Records history o := records_nil.run h
  refine ⟨hrecords.begun, hrecords.keyless, hrecords.last, hrecords.valid,
    fun x hx m key hbegins => ?_, fun move made next hmade => ?_⟩
  · obtain ⟨_, _, htakes⟩ := takes_of_mem h hx
    exact htakes.begins hbegins
  · obtain ⟨rfl, htakes⟩ := make_takes hmade
    refine ⟨htakes.reaches, fun _ _ _ _ _ => htakes.refused, fun hmove => ?_⟩
    exact ⟨(htakes.continues hmove).mechanism, (htakes.continues hmove).key⟩

/-- As it begins, the token writes three bytes of the IV, which it should only read. A start while
the operation runs and a second end are refused. -/
def gcmMoves : List (Move Nat) := [
  .start ⟨0x1087, some (.gcm ⟨[0, 0, 0, 0], [], 128, by decide, by decide, by decide⟩)⟩ (some 5)
    .full
    (fun _ => ⟨.ok (), { MechanismWrite.none with
      inputs := { InputWrite.none with nonce := [7, 8, 9] } }⟩),
  .update (.ok 3),
  .start ⟨0x250, none⟩ none .empty (fun _ => ⟨.ok (), .none⟩),
  .finish (.ok 0),
  .finish (.ok 0)]

theorem makeAll_records_gcm : ∃ history o,
    makeAll .encrypt gcmMoves .uninitialized = (history, o) ∧
    LastBegun history ⟨0x1087, some (.gcm ⟨[7, 8, 9, 0], [], 128, by decide, by decide, by decide⟩)⟩
      (some 5) ∧
    o.phase = .finalized := by
  obtain ⟨-, -, hlast, -⟩ :=
    makeAll_records (rfl : makeAll .encrypt gcmMoves .uninitialized = (_, _))
  exact ⟨_, _, rfl, (hlast _ _).mp ⟨rfl, rfl⟩, rfl⟩

end Operation

end Cryptoki
