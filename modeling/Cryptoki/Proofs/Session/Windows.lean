import Cryptoki.Proofs.Session.History
import Cryptoki.Proofs.Session.Stream

/-! Streams that the caller drives: each call writes into its window of a buffer and nowhere else,
and calls at the running total put their outputs one after the other. -/
namespace Cryptoki

/-- A call of a stream: for a piece of the input, or at its end. -/
inductive Part where
  | update (input : Bytes)
  | final

/-- The call for a part, with a buffer to write to from an offset on. -/
def Part.run (token : Token σ) (direction : Direction) (part : Part) (buffer : Bytes) (offset : Nat)
    (s : Session) (t : σ) : (Except Error Nat × Scene Bytes) × List Exchange × σ :=
  match part with
  | .update input => (Call.cipherUpdate direction input buffer offset).run token s t
  | .final => (Call.cipherFinal direction buffer offset).run token s t

/-- The token was handed a window, and delivered into it. -/
inductive Exchange.Delivers (direction : Direction) (window : Bytes) (delivery : Delivery) :
    Exchange → Prop where
  | update (here : Handle) (input : Bytes) :
    Delivers direction window delivery ⟨.cipherUpdate direction here input window, delivery⟩
  | final (here : Handle) :
    Delivers direction window delivery ⟨.cipherFinal direction here window, delivery⟩

theorem Exchange.Delivers.overreports_iff {direction : Direction} {window : Bytes}
    {delivery : Delivery} {x : Exchange} (h : x.Delivers direction window delivery) :
    x.Overreports ↔ ∃ n, delivery.outcome = .ok n ∧ window.length < n := by
  cases h <;> rfl

namespace Action

variable {direction : Direction} {last : Bool} {offset n : Nat} {s : Session} {buffer : Bytes}
  {es : List Exchange} {outcome : Except Error Nat} {after : Scene Bytes}

/-- What a call with a window of the buffer does to the scene, and what it tells. -/
structure Lands (direction : Direction) (offset : Nat) (s : Session) (buffer : Bytes)
    (es : List Exchange) (outcome : Except Error Nat) (after : Scene Bytes) : Prop where
  length : after.subject.length = buffer.length
  before : after.subject.take offset = buffer.take offset
  ok : ∀ n, outcome = .ok n → offset + n ≤ buffer.length ∧
    ∃ x delivery, es = [x] ∧ x.Delivers direction (buffer.drop offset) delivery ∧
      delivery.outcome = .ok n ∧
      after.subject.drop offset = overwrite (buffer.drop offset) delivery.output
  excess : ∀ x ∈ es, x.Overreports →
    (∃ e, outcome = .error e) ∧ after.session.phase direction.kind = .finalized

theorem lands_silent (e : Error) : Lands direction offset s buffer [] (.error e) ⟨s, buffer⟩ where
  length := rfl
  before := rfl
  ok := by simp
  excess := by simp

theorem lands_settled {x : Exchange} {delivery : Delivery} (hoffset : offset ≤ buffer.length)
    (hactive : (s.operation direction.kind).isActive = true)
    (hx : x.Delivers direction (buffer.drop offset) delivery) :
    Lands direction offset s buffer [x]
      (settleWrite (s.operation direction.kind) last (buffer.length - offset) delivery).1
      ⟨s.withOperation direction.kind
        (settleWrite (s.operation direction.kind) last (buffer.length - offset) delivery).2,
        buffer.take offset ++ overwrite (buffer.drop offset) delivery.output⟩ where
  length := by
    simp only [List.length_append, List.length_take, length_overwrite, List.length_drop]
    omega
  before := by
    have hfront : (buffer.take offset).length = offset := List.length_take_of_le hoffset
    exact List.take_left' hfront
  ok n hn := by
    have hfront : (buffer.take offset).length = offset := List.length_take_of_le hoffset
    have hcount : delivery.outcome = .ok n ∧ n ≤ buffer.length - offset := by
      cases ho : delivery.outcome with
      | error status => simp [settleWrite, ho] at hn
      | ok m =>
        by_cases hm : m ≤ buffer.length - offset
        · simp [settleWrite, ho, hm] at hn
          exact ⟨by rw [hn], by omega⟩
        · simp [settleWrite, ho, hm] at hn
    exact ⟨by omega, x, delivery, rfl, hx, hcount.1, List.drop_left' hfront⟩
  excess y hy hover := by
    obtain rfl := List.mem_singleton.mp hy
    obtain ⟨m, ho, hm⟩ := hx.overreports_iff.mp hover
    have hroom : ¬ m ≤ buffer.length - offset := by
      rw [List.length_drop] at hm
      omega
    simp [settleWrite, ho, hroom, Session.phase,
      Operation.phase_abandon hactive]

theorem lands_writeFrom {call : Handle → Bytes → Talk Delivery}
    (hcall : ∀ {here window fs delivery}, (call here window).Goes fs delivery →
      ∃ x, fs = [x] ∧ x.Delivers direction window delivery)
    (h : (writeFrom direction last offset call).Goes ⟨s, buffer⟩ es outcome after) :
    Lands direction offset s buffer es outcome after := by
  rcases writeFrom_cases h with ⟨-, rfl, rfl, rfl⟩ | ⟨-, -, rfl, rfl, rfl⟩ |
    ⟨hoffset, hactive, delivery, settled, htalk, rfl, rfl, rfl⟩
  · exact lands_silent _
  · exact lands_silent _
  · obtain ⟨x, rfl, hx⟩ := hcall htalk
    exact lands_settled hoffset hactive hx

end Action

open Cryptoki.Action in
/-- Each call lands in its window. -/
theorem Part.lands {token : Token σ} {direction : Direction} {part : Part} {buffer : Bytes}
    {offset : Nat} {s : Session} {t u : σ} {outcome : Except Error Nat} {after : Scene Bytes}
    {es : List Exchange}
    (h : part.run token direction buffer offset s t = ((outcome, after), es, u)) :
    Lands direction offset s buffer es outcome after := by
  cases part with
  | update input =>
    have hgoes : (cipherUpdate direction input offset).Goes ⟨s, buffer⟩ es outcome after :=
      (Talk.run_eq_iff.mp h).1
    refine lands_writeFrom ?_ hgoes
    intro here window fs delivery htalk
    exact ⟨_, Talk.goes_request.mp htalk, .update here input⟩
  | final =>
    have hgoes : (cipherFinal direction offset).Goes ⟨s, buffer⟩ es outcome after :=
      (Talk.run_eq_iff.mp h).1
    refine lands_writeFrom ?_ hgoes
    intro here window fs delivery htalk
    exact ⟨_, Talk.goes_request.mp htalk, .final here⟩

namespace Exchange

/-- What stands at the start of a window after the answer, as far as it counts. -/
def placed (n : Nat) : Exchange → Bytes
  | ⟨.cipherUpdate _ _ _ window, delivery⟩ | ⟨.cipherFinal _ _ window, delivery⟩ =>
    (overwrite window delivery.output).take n
  | _ => []

/-- What the token wrote into a window. -/
def output : Exchange → Bytes
  | ⟨.cipherUpdate _ _ _ _, delivery⟩ | ⟨.cipherFinal _ _ _, delivery⟩ => delivery.output
  | _ => []

/-- The token counts the bytes that it wrote. -/
def Counts : Exchange → Prop
  | ⟨.cipherUpdate _ _ _ _, delivery⟩ | ⟨.cipherFinal _ _ _, delivery⟩ =>
    ∀ n, delivery.outcome = .ok n → delivery.output.length = n
  | _ => True

@[simp]
theorem placed_zero (x : Exchange) : x.placed 0 = [] := by
  unfold placed
  split <;> simp

variable {direction : Direction} {window : Bytes} {delivery : Delivery} {x : Exchange} {n : Nat}

theorem Delivers.placed_eq (h : x.Delivers direction window delivery) :
    x.placed n = (overwrite window delivery.output).take n := by
  cases h <;> rfl

theorem Delivers.placed_of_counts (h : x.Delivers direction window delivery) (hx : x.Counts)
    (hok : delivery.outcome = .ok n) (hroom : n ≤ window.length) : x.placed n = x.output := by
  have hcount : delivery.output.length = n := by
    cases h <;> exact hx n hok
  have houtput : x.output = delivery.output := by
    cases h <;> rfl
  rw [h.placed_eq, houtput, ← hcount]
  exact Action.take_overwrite (List.prefix_refl _) (by omega)

end Exchange

/-- A call for a part at the running total. The caller may take another buffer for it, which goes on
differently after the output so far. -/
structure Attempt where
  part : Part
  rest : Option Bytes

structure Attempted where
  outcome : Except Error Nat
  exchanges : List Exchange

/-- A session with a token, and the output so far at the start of a buffer. -/
structure Filling (σ : Type) where
  session : Session
  token : σ
  buffer : Bytes
  total : Nat

namespace Attempted

/-- How many bytes the caller is told of. -/
def count : Attempted → Nat
  | ⟨.ok n, _⟩ => n
  | ⟨.error _, _⟩ => 0

@[simp]
theorem count_ok (n : Nat) (es : List Exchange) : count ⟨.ok n, es⟩ = n := rfl

@[simp]
theorem count_error (e : Error) (es : List Exchange) : count ⟨.error e, es⟩ = 0 := rfl

/-- How many bytes the caller is told of in all. -/
def total : List Attempted → Nat
  | [] => 0
  | a :: as => a.count + total as

/-- What an attempt wrote, as far as it counts. -/
def placed (a : Attempted) : Bytes := a.exchanges.flatMap (·.placed a.count)

/-- In an attempt that failed, nothing was written that counts. -/
@[simp]
theorem placed_error (e : Error) (es : List Exchange) : placed ⟨.error e, es⟩ = [] := by
  simp [placed]

/-- What the token wrote in an attempt that succeeded. -/
def output : Attempted → Bytes
  | ⟨.ok _, es⟩ => es.flatMap Exchange.output
  | ⟨.error _, _⟩ => []

/-- An attempt that succeeded was one exchange, and the count is the one that the token told. -/
def Told (direction : Direction) (a : Attempted) : Prop :=
  ∀ n, a.outcome = .ok n → ∃ x window delivery, a.exchanges = [x] ∧
    x.Delivers direction window delivery ∧ delivery.outcome = .ok n ∧ n ≤ window.length

theorem Told.length_placed {direction : Direction} {a : Attempted} (h : a.Told direction) :
    a.placed.length = a.count := by
  obtain ⟨outcome, es⟩ := a
  cases outcome with
  | error e => simp
  | ok n =>
    obtain ⟨x, window, delivery, rfl, hx, -, hroom⟩ := h n rfl
    have hwindow := length_overwrite window delivery.output
    simp only [placed, List.flatMap_singleton, count_ok, hx.placed_eq, List.length_take]
    omega

theorem length_placed {direction : Direction} {events : List Attempted}
    (h : ∀ a ∈ events, a.Told direction) : (events.flatMap placed).length = total events := by
  induction events with
  | nil => rfl
  | cons a as ih =>
    obtain ⟨ha, has⟩ := List.forall_mem_cons.mp h
    rw [List.flatMap_cons, List.length_append, ha.length_placed, ih has, total]

theorem Told.placed_of_counts {direction : Direction} {a : Attempted} (h : a.Told direction)
    (hcounts : ∀ x ∈ a.exchanges, x.Counts) : a.placed = a.output := by
  obtain ⟨outcome, es⟩ := a
  cases outcome with
  | error e => simp [output]
  | ok n =>
    obtain ⟨x, window, delivery, rfl, hx, hok, hroom⟩ := h n rfl
    have hplaced := hx.placed_of_counts (hcounts x (List.mem_singleton.mpr rfl)) hok hroom
    simpa [placed, output] using hplaced

end Attempted

namespace Attempt

variable {σ : Type}

def buffer (a : Attempt) (f : Filling σ) : Bytes :=
  match a.rest with
  | none => f.buffer
  | some rest => f.buffer.take f.total ++ rest

def make (token : Token σ) (direction : Direction) (a : Attempt) (f : Filling σ) :
    Attempted × Filling σ :=
  let ((outcome, after), es, t) :=
    a.part.run token direction (a.buffer f) f.total f.session f.token
  let attempted : Attempted := ⟨outcome, es⟩
  (attempted, ⟨after.session, t, after.subject, f.total + attempted.count⟩)

end Attempt

/-- One attempt after the other. -/
def Filling.drive (token : Token σ) (direction : Direction) :
    List Attempt → Filling σ → List Attempted × Filling σ
  | [], f => ([], f)
  | a :: as, f =>
    let (attempted, f) := a.make token direction f
    let (later, f) := drive token direction as f
    (attempted :: later, f)

namespace Action.Lands

variable {direction : Direction} {offset : Nat} {s : Session} {buffer : Bytes} {es : List Exchange}
  {outcome : Except Error Nat} {after : Scene Bytes}

theorem told (h : Lands direction offset s buffer es outcome after) :
    (Attempted.mk outcome es).Told direction := by
  intro n hn
  obtain ⟨hroom, x, delivery, hes, hx, hok, -⟩ := h.ok n hn
  refine ⟨x, _, delivery, hes, hx, hok, ?_⟩
  rw [List.length_drop]
  omega

/-- A call at the end of the output so far puts behind it what it counts. -/
theorem fills (h : Lands direction offset s buffer es outcome after)
    (hoffset : offset ≤ buffer.length) :
    offset + (Attempted.mk outcome es).count ≤ buffer.length ∧
    after.subject.take (offset + (Attempted.mk outcome es).count) =
      buffer.take offset ++ (Attempted.mk outcome es).placed := by
  cases outcome with
  | error e => simpa using ⟨hoffset, h.before⟩
  | ok n =>
    obtain ⟨hroom, x, delivery, rfl, hx, -, hwritten⟩ := h.ok n rfl
    have hplaced : (Attempted.mk (.ok n) [x]).placed = (after.subject.drop offset).take n := by
      rw [hwritten, ← hx.placed_eq]
      exact List.append_nil _
    refine ⟨hroom, ?_⟩
    rw [hplaced, Attempted.count_ok, List.take_add, h.before]

end Action.Lands

/-- From the one filling to the other, the output grows by some bytes behind what was there. -/
structure Filling.Grows (f g : Filling σ) (output : Bytes) : Prop where
  total : g.total = f.total + output.length
  fits : g.total ≤ g.buffer.length
  output : g.buffer.take g.total = f.buffer.take f.total ++ output

theorem Filling.Grows.refl {f : Filling σ} (h : f.total ≤ f.buffer.length) : f.Grows f [] where
  total := by simp
  fits := h
  output := by simp

theorem Filling.Grows.trans {f g h : Filling σ} {before after : Bytes} (hfg : f.Grows g before)
    (hgh : g.Grows h after) : f.Grows h (before ++ after) where
  total := by
    have hg := hfg.total
    have hh := hgh.total
    rw [List.length_append]
    omega
  fits := hgh.fits
  output := by rw [hgh.output, hfg.output, List.append_assoc]

namespace Attempt

variable {token : Token σ} {direction : Direction} {a : Attempt} {f g : Filling σ}
  {attempted : Attempted}

/-- The buffer of an attempt begins with the output so far. -/
theorem take_buffer (a : Attempt) (hf : f.total ≤ f.buffer.length) :
    (a.buffer f).take f.total = f.buffer.take f.total ∧ f.total ≤ (a.buffer f).length := by
  unfold buffer
  cases a.rest with
  | none => exact ⟨rfl, hf⟩
  | some rest =>
    have hfront : (f.buffer.take f.total).length = f.total := List.length_take_of_le hf
    constructor
    · exact List.take_left' hfront
    · rw [List.length_append]
      omega

/-- What an attempt writes and counts comes behind the output so far. -/
theorem make_grows (hf : f.total ≤ f.buffer.length)
    (h : a.make token direction f = (attempted, g)) :
    f.Grows g attempted.placed ∧ attempted.Told direction := by
  obtain ⟨⟨⟨outcome, after⟩, es, t⟩, hrun⟩ :
      ∃ r, a.part.run token direction (a.buffer f) f.total f.session f.token = r := ⟨_, rfl⟩
  have hlands := Part.lands hrun
  obtain ⟨hfront, hroom⟩ := a.take_buffer hf
  have hlength := hlands.length
  obtain ⟨hfits, hplaced⟩ := hlands.fills hroom
  have hcount := hlands.told.length_placed
  unfold make at h
  rw [hrun] at h
  cases h
  refine ⟨⟨by rw [hcount], ?_, ?_⟩, hlands.told⟩
  · rw [hlength]
    exact hfits
  · rw [hplaced, hfront]

end Attempt

/-- However often an attempt fails, the output so far is what was written in those that did not. -/
theorem Filling.drive_grows {token : Token σ} {direction : Direction} {attempts : List Attempt}
    {f g : Filling σ} {events : List Attempted} (hf : f.total ≤ f.buffer.length)
    (h : drive token direction attempts f = (events, g)) :
    f.Grows g (events.flatMap Attempted.placed) ∧ ∀ a ∈ events, a.Told direction := by
  induction attempts generalizing f events with
  | nil =>
    cases h
    exact ⟨.refl hf, by simp⟩
  | cons a as ih =>
    obtain ⟨⟨attempted, mid⟩, hmake⟩ : ∃ r, a.make token direction f = r := ⟨_, rfl⟩
    obtain ⟨⟨later, left⟩, hlater⟩ : ∃ r, drive token direction as mid = r := ⟨_, rfl⟩
    simp only [drive, hmake, hlater] at h
    cases h
    obtain ⟨hgrows, htold⟩ := Attempt.make_grows hf hmake
    obtain ⟨hlatergrows, hlatertold⟩ := ih hgrows.fits hlater
    exact ⟨hgrows.trans hlatergrows, List.forall_mem_cons.mpr ⟨htold, hlatertold⟩⟩

/-- A call writes into its window and nowhere else, whatever the token answers. Where the calls of a
stream are made at the running total of their counts, one after the other and as often as the caller
likes, the output so far is what the token wrote in those that succeeded, in their order. -/
theorem windows_concatenate (token : Token σ) (direction : Direction) (s : Session) (t : σ)
    (buffer : Bytes) :
    (∀ part offset outcome after es u,
      Part.run token direction part buffer offset s t = ((outcome, after), es, u) →
      Action.Lands direction offset s buffer es outcome after) ∧
    ∀ attempts events f,
      Filling.drive token direction attempts ⟨s, t, buffer, 0⟩ = (events, f) →
      (∀ a ∈ events, a.Told direction) ∧
      f.total = Attempted.total events ∧ f.total ≤ f.buffer.length ∧
      f.buffer.take f.total = events.flatMap Attempted.placed ∧
      ((∀ a ∈ events, ∀ x ∈ a.exchanges, x.Counts) →
        f.buffer.take f.total = events.flatMap Attempted.output) := by
  refine ⟨fun part offset outcome after es u hrun => Part.lands hrun, ?_⟩
  intro attempts events f h
  obtain ⟨hgrows, htold⟩ := Filling.drive_grows (Nat.zero_le _) h
  have houtput : f.buffer.take f.total = events.flatMap Attempted.placed := by
    simpa using hgrows.output
  refine ⟨htold, ?_, hgrows.fits, houtput, ?_⟩
  · rw [hgrows.total, Attempted.length_placed htold, Nat.zero_add]
  · intro hhonest
    have hwhole : events.map Attempted.placed = events.map Attempted.output :=
      List.map_congr_left fun a ha => (htold a ha).placed_of_counts (hhonest a ha)
    rw [houtput, List.flatMap_def, hwhole, List.flatMap_def]

/-- The machine that gives each piece back, and one byte at the end. -/
def echo : StreamMachine Unit := ⟨fun s piece => (s, piece), fun _ => [9]⟩

/-- A piece for which there is too little room comes whole, once the buffer is larger. -/
theorem windows_concatenate_enlarged : ∃ events f,
    Filling.drive echo.asToken .encrypt
        [⟨.update [1, 2], none⟩, ⟨.update [3, 4], none⟩, ⟨.update [3, 4], some [0, 0, 0, 0]⟩,
          ⟨.final, none⟩]
        ⟨(Session.ofHandle 1 0 .standard .empty).withOperation .encrypt
          (.initialized ⟨9, none⟩ none), (), [0, 0, 0], 0⟩ = (events, f) ∧
    events.map (·.outcome) =
      [.ok 2, .error (.deviceStatus Status.bufferTooSmall), .ok 2, .ok 1] ∧
    f.total = 5 ∧ events.flatMap Attempted.placed = [1, 2, 3, 4, 9] ∧
    f.buffer.take 5 = [1, 2, 3, 4, 9] := by
  obtain ⟨-, hdrive⟩ := windows_concatenate echo.asToken .encrypt
    ((Session.ofHandle 1 0 .standard .empty).withOperation .encrypt (.initialized ⟨9, none⟩ none))
    () [0, 0, 0]
  have hrun := hdrive [⟨.update [1, 2], none⟩, ⟨.update [3, 4], none⟩,
    ⟨.update [3, 4], some [0, 0, 0, 0]⟩, ⟨.final, none⟩] _ _ rfl
  exact ⟨_, _, rfl, rfl, rfl, rfl, hrun.2.2.2.1⟩

end Cryptoki
