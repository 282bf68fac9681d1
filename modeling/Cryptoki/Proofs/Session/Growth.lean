import Mathlib.Algebra.Group.Nat.Defs
import Cryptoki.Proofs.Session.Release
import Cryptoki.Proofs.Session.Stream

/-! How far the buffer of a whole text grows. It is kept from piece to piece, while the tries are
counted for each piece anew. -/
namespace Cryptoki

variable {direction : Direction} {es fs : List Exchange} {x : Exchange} {size n : Nat}
  {inputs : List Bytes}

/-- The room was too small. -/
def Exchange.isShort (x : Exchange) : Bool := x.refusal? = some Status.bufferTooSmall

/-- How often the room was too small. -/
def totalShortages (es : List Exchange) : Nat := es.countP Exchange.isShort

@[simp]
theorem totalShortages_nil : totalShortages [] = 0 := rfl

theorem totalShortages_cons :
    totalShortages (x :: es) = totalShortages es + if x.isShort then 1 else 0 :=
  List.countP_cons

@[simp]
theorem totalShortages_append : totalShortages (es ++ fs) = totalShortages es + totalShortages fs :=
  List.countP_append

theorem acceptedInputs_cons (hnone : acceptedInputs direction [x] = []) :
    acceptedInputs direction (x :: es) = acceptedInputs direction es := by
  rw [← List.singleton_append, acceptedInputs_append, hnone, List.nil_append]

namespace Action

theorem grown_le (n size : Nat) : grown n size ≤ 2 ^ n * max size 16 := by
  induction n generalizing size with
  | zero =>
    rw [grown, Nat.pow_zero, Nat.one_mul]
    exact Nat.le_max_left size 16
  | succ n ih =>
    have hnext : max (grownSize size) 16 ≤ 2 * max size 16 := by
      simp only [grownSize]
      omega
    calc grown (n + 1) size = grown n (grownSize size) := rfl
      _ ≤ 2 ^ n * max (grownSize size) 16 := ih _
      _ ≤ 2 ^ n * (2 * max size 16) := Nat.mul_le_mul_left _ hnext
      _ = 2 ^ (n + 1) * max size 16 := by rw [Nat.pow_succ, Nat.mul_assoc]

/-- Every write gets the room that there is after the shortages before it. -/
def Rooms : Nat → List Exchange → Prop
  | _, [] => True
  | size, x :: es => x.room? = some size ∧ Rooms (if x.isShort then grownSize size else size) es

theorem grown_totalShortages_cons : grown (totalShortages (x :: es)) size =
    grown (totalShortages es) (if x.isShort then grownSize size else size) := by
  cases h : x.isShort <;> simp [totalShortages_cons, h, grown]

theorem Rooms.append (hes : Rooms size es) (hfs : Rooms (grown (totalShortages es) size) fs) :
    Rooms size (es ++ fs) := by
  induction es generalizing size with
  | nil => exact hfs
  | cons x es ih =>
    rw [grown_totalShortages_cons] at hfs
    exact ⟨hes.1, ih hes.2 hfs⟩

theorem Rooms.room {before later : List Exchange} (h : Rooms size (before ++ x :: later)) :
    x.room? = some (grown (totalShortages before) size) := by
  induction before generalizing size with
  | nil => exact h.1
  | cons y before ih =>
    rw [grown_totalShortages_cons]
    exact ih h.2

/-- A stream of inputs in a buffer of some size, with so many tries to spare for each input and for
the end. -/
structure Grows (direction : Direction) (n size : Nat) (inputs : List Bytes)
    (es : List Exchange) : Prop where
  rooms : Rooms size es
  spares : ∀ before x later, es = before ++ x :: later →
    totalShortages before ≤ n * ((acceptedInputs direction before).length + 1)
  taken : acceptedInputs direction es <+: inputs

/-- The inputs were taken, and the buffer is left as large as it has grown. -/
structure Served (direction : Direction) (n size : Nat) (inputs : List Bytes)
    (es : List Exchange) (left : Bytes) : Prop where
  spared : totalShortages es ≤ n
  taken : acceptedInputs direction es = inputs
  left : left.length = grown (totalShortages es) size

namespace Grows

theorem nil : Grows direction n size inputs [] where
  rooms := trivial
  spares := by simp
  taken := by simp [acceptedInputs]

theorem single (hroom : x.room? = some size) (htaken : acceptedInputs direction [x] <+: inputs) :
    Grows direction n size inputs [x] where
  rooms := ⟨hroom, trivial⟩
  spares := by
    rintro before y later h
    obtain rfl : before = [] := by
      cases before with
      | nil => rfl
      | cons z before => simp at h
    simp
  taken := htaken

/-- A try that is made again takes one from those to spare. -/
theorem retry (hroom : x.room? = some size) (hshort : x.isShort = true)
    (hnone : acceptedInputs direction [x] = [])
    (h : Grows direction n (grownSize size) inputs es) :
    Grows direction (n + 1) size inputs (x :: es) where
  rooms := ⟨hroom, by simpa [hshort] using h.rooms⟩
  spares := by
    rintro (_ | ⟨y, before⟩) z later heq
    · simp
    · obtain ⟨rfl, rfl⟩ := List.cons.inj heq
      have hspares := h.spares before z later rfl
      rw [acceptedInputs_cons hnone, Nat.add_mul]
      simp only [totalShortages_cons, hshort, if_true]
      omega
  taken := by
    rw [acceptedInputs_cons hnone]
    exact h.taken

theorem mono {more : List Bytes} (h : Grows direction n size inputs es) (hmore : inputs <+: more) :
    Grows direction n size more es :=
  { h with taken := h.taken.trans hmore }

/-- What follows an input that was taken has all the tries again, in a buffer that has grown. -/
theorem append {piece left : Bytes} {pieces : List Bytes} (h : Grows direction n size [piece] es)
    (hserved : Served direction n size [piece] es left)
    (hrest : Grows direction n left.length pieces fs) :
    Grows direction n size (piece :: pieces) (es ++ fs) where
  rooms := h.rooms.append (hserved.left ▸ hrest.rooms)
  spares := by
    intro before x later heq
    -- The input that was taken pays for its own shortages, if they all are before the request.
    obtain ⟨more, rfl, hmore⟩ | ⟨more, rfl, -⟩ := List.append_eq_append_iff.mp heq
    · have hspares := hrest.spares more x later hmore
      have hspared := hserved.spared
      rw [totalShortages_append, acceptedInputs_append, hserved.taken, List.length_append,
        List.length_singleton, Nat.add_assoc, Nat.mul_add]
      omega
    · have hspared := hserved.spared
      rw [totalShortages_append] at hspared
      have hone : n ≤ n * ((acceptedInputs direction before).length + 1) :=
        Nat.le_mul_of_pos_right n (Nat.succ_pos _)
      omega
  taken := by
    rw [acceptedInputs_append, hserved.taken]
    exact List.cons_prefix_cons.mpr ⟨rfl, hrest.taken⟩

end Grows

theorem Served.retry {left : Bytes} (h : Served direction n (grownSize size) inputs es left)
    (hshort : x.isShort = true) (hnone : acceptedInputs direction [x] = []) :
    Served direction (n + 1) size inputs (x :: es) left where
  spared := by
    have := h.spared
    simp only [totalShortages_cons, hshort, if_true]
    omega
  taken := by
    rw [acceptedInputs_cons hnone, h.taken]
  left := by rw [grown_totalShortages_cons, hshort, if_pos rfl, h.left]

/-- A write into the whole of a buffer gets to the token with the room of the buffer, which it
keeps. -/
structure Tries (direction : Direction) (inputs : List Bytes) (size : Nat) (x : Exchange)
    (outcome : Except Error Nat) (left : Bytes) : Prop where
  room : x.room? = some size
  left : left.length = size
  short : x.isShort = true ↔ outcome = .error (.deviceStatus Status.bufferTooSmall)
  refused : x.isShort = true → acceptedInputs direction [x] = []
  taken : acceptedInputs direction [x] <+: inputs
  accepted : ∀ n, outcome = .ok n → acceptedInputs direction [x] = inputs

theorem Tries.served {outcome : Except Error Nat} {left : Bytes} {m : Nat}
    (h : Tries direction inputs size x outcome left) (hm : outcome = .ok m) :
    Served direction n size inputs [x] left := by
  have hshort : x.isShort = false := by
    rw [← Bool.not_eq_true, h.short, hm]
    simp
  have hnone : totalShortages [x] = 0 := by simp [totalShortages_cons, hshort]
  exact ⟨by omega, h.accepted m hm, by rw [hnone, h.left]; rfl⟩

/-- A call asks the token once, or fails without it. -/
def TriesOnce (direction : Direction) (inputs : List Bytes) (call : Action Bytes Nat) : Prop :=
  ∀ {here buffer es outcome after}, call.Goes ⟨here, buffer⟩ es outcome after →
    (es = [] ∧ ∃ e, outcome = .error e ∧ e ≠ .deviceStatus Status.bufferTooSmall) ∨
    ∃ x, es = [x] ∧ Tries direction inputs buffer.length x outcome after.subject

theorem triesOnce_writeFrom {last : Bool} {call : Handle → Bytes → Talk Delivery}
    (hcall : ∀ {here window es delivery}, (call here window).Goes es delivery →
      ∃ x : Exchange, es = [x] ∧ x.room? = some window.length ∧
        x.refusal? = Outcome.failure? delivery.outcome ∧
        acceptedInputs direction [x] = if x.refusal? = none then inputs else []) :
    TriesOnce direction inputs (writeFrom direction last 0 call) := by
  intro here buffer es outcome after hgoes
  obtain ⟨hoffset, -⟩ | ⟨-, -, rfl, rfl, -⟩ | ⟨-, -, delivery, settled, htalk, rfl, rfl, rfl⟩ :=
    writeFrom_cases hgoes
  · simp at hoffset
  · exact .inl ⟨rfl, _, rfl, by simp⟩
  obtain ⟨x, rfl, hroom, hrefusal, hinputs⟩ := hcall htalk
  refine .inr ⟨x, rfl, ?_⟩
  have hleft : (buffer.take 0 ++ overwrite (buffer.drop 0) delivery.output).length =
      buffer.length := by simp [length_overwrite]
  cases houtcome : delivery.outcome with
  | error s =>
    rw [houtcome] at hrefusal
    replace hrefusal : x.refusal? = some s := hrefusal
    simp only [hrefusal, reduceCtorEq, if_false] at hinputs
    refine ⟨by simpa using hroom, hleft, ?_, fun _ => hinputs, by simp [hinputs], ?_⟩
    · simp [settleWrite, houtcome, Exchange.isShort, hrefusal]
    · simp [settleWrite, houtcome]
  | ok m =>
    rw [houtcome] at hrefusal
    replace hrefusal : x.refusal? = none := hrefusal
    simp only [hrefusal, if_true] at hinputs
    have hshort : x.isShort = false := by simp [Exchange.isShort, hrefusal]
    refine ⟨by simpa using hroom, hleft, ?_, by simp [hshort], by simp [hinputs], fun _ _ => hinputs⟩
    simp only [settleWrite, houtcome, hshort]
    split <;> simp

theorem triesOnce_cipherUpdate (input : Bytes) :
    TriesOnce direction [input] (cipherUpdate direction input 0) := by
  refine triesOnce_writeFrom fun {here window es delivery} hgoes => ?_
  obtain rfl := Talk.goes_request.mp hgoes
  refine ⟨_, rfl, rfl, rfl, ?_⟩
  cases h : delivery.outcome <;>
    simp [acceptedInputs, Exchange.acceptedInput?, Exchange.refusal?, Outcome.failure?, h]

theorem triesOnce_cipherFinal : TriesOnce direction [] (cipherFinal direction 0) := by
  refine triesOnce_writeFrom fun {here window es delivery} hgoes => ?_
  obtain rfl := Talk.goes_request.mp hgoes
  exact ⟨_, rfl, rfl, rfl, by simp [acceptedInputs, Exchange.acceptedInput?]⟩

variable {call : Action Bytes Nat} {here : Session} {buffer : Bytes} {after : Scene Bytes}

/-- The buffer of a call that is made again grows by the shortages. -/
theorem TriesOnce.growing (hcall : TriesOnce direction inputs call) {outcome : Except Error Nat}
    (hgoes : (growing call n).Goes ⟨here, buffer⟩ es outcome after) :
    Grows direction n buffer.length inputs es ∧
      ∀ m, outcome = .ok m → Served direction n buffer.length inputs es after.subject := by
  -- With no try left, or none needed, there is one exchange at most.
  have hsingle : ∀ {k : Nat} {here : Session} {buffer : Bytes} {fs : List Exchange},
      call.Goes ⟨here, buffer⟩ fs outcome after → Grows direction k buffer.length inputs fs ∧
        ∀ m, outcome = .ok m → Served direction k buffer.length inputs fs after.subject := by
    intro k here buffer fs hfirst
    rcases hcall hfirst with ⟨rfl, e, rfl, -⟩ | ⟨x, rfl, hx⟩
    · exact ⟨.nil, by simp⟩
    · exact ⟨.single hx.room hx.taken, fun m hm => hx.served hm⟩
  induction n generalizing buffer here es with
  | zero => exact hsingle hgoes
  | succ n ih =>
    rcases growing_cases hgoes with ⟨hfirst, -⟩ | ⟨mid, first, rest, rfl, hfirst, hagain⟩
    · exact hsingle hfirst
    · rcases hcall hfirst with ⟨-, e, he, hother⟩ | ⟨x, rfl, hx⟩
      · cases he
        exact absurd rfl hother
      have hshort := hx.short.mpr rfl
      obtain ⟨hgrows, hserved⟩ := ih hagain
      rw [List.length_replicate, hx.left] at hgrows hserved
      refine ⟨hgrows.retry hx.room hshort (hx.refused hshort), fun m hm => ?_⟩
      exact (hserved m hm).retry hshort (hx.refused hshort)

theorem TriesOnce.collect (hcall : TriesOnce direction inputs call) {part : String}
    {outcome : Except Error Bytes}
    (hgoes : (collect part call).Goes ⟨here, buffer⟩ es outcome after) :
    Grows direction maxGrowth buffer.length inputs es ∧
      ∀ output, outcome = .ok output →
        Served direction maxGrowth buffer.length inputs es after.subject := by
  rcases collect_cases hgoes with ⟨e, hgrowing, rfl⟩ | ⟨n, hgrowing, -⟩
  · exact ⟨(hcall.growing hgrowing).1, by simp⟩
  · obtain ⟨hgrows, hserved⟩ := hcall.growing hgrowing
    exact ⟨hgrows, fun _ _ => hserved n rfl⟩

/-- Over the pieces of a text, the buffer of one is the buffer that the one before it has left. -/
theorem streamChunks_grows {output : OutputBuffer} {pieces : List Bytes}
    {streamed : Except Error OutputBuffer}
    (hgoes : (streamChunks direction output pieces).Goes ⟨here, buffer⟩ es streamed after) :
    Grows direction maxGrowth buffer.length pieces es := by
  induction pieces generalizing here buffer es output with
  | nil =>
    obtain ⟨last, hcall, -⟩ := streamChunks_end hgoes
    exact (triesOnce_cipherFinal.collect hcall).1
  | cons piece pieces ih =>
    have hpiece : TriesOnce direction [piece] (cipherUpdate direction piece 0) :=
      triesOnce_cipherUpdate piece
    rcases goes_bind.mp hgoes with ⟨e, hcall, -⟩ | ⟨more, mid, first, later, rfl, hcall, hlater⟩
    · exact (hpiece.collect hcall).1.mono (by simp)
    · obtain ⟨hgrows, hserved⟩ := hpiece.collect hcall
      exact hgrows.append (hserved more rfl) (ih hlater)

/-- A first call is no write. -/
theorem startWith_roomless {kind : OperationKind} {key : Object} {scene after : Scene Mechanism}
    {outcome : Except Error Unit} (h : (startWith kind key).Goes scene es outcome after) :
    ∀ x ∈ es, x.room? = none := by
  rcases startWith_cases h with ⟨e, -, rfl, -⟩ | ⟨handle, -, hstart⟩
  · simp
  rcases start_cases hstart with ⟨-, rfl, -⟩ | ⟨-, ⟨e, -, rfl, -⟩ | ⟨native, reply, -, rfl, -⟩⟩
  · simp
  · simp
  · simp [Exchange.room?]

/-- The buffer of a whole text grows at most four times for each piece that the token takes, and as
often for the end; in between it does not shrink again. So it stays within sixteen times its first
size, or that of sixteen bytes, only until the first piece is taken. -/
theorem cipherAll_rooms {σ : Type} (token : Token σ) (t : σ) (session : Session)
    (direction : Direction) (mechanism : Mechanism) (key : Object) (data : Bytes) :
    ∃ outcome after es u,
      (Call.cipherAll direction mechanism key data).run token session t =
        ((outcome, after), es, u) ∧
      ∀ before x later room, es = before ++ x :: later → x.room? = some room →
        room = grown (totalShortages before) session.limits.scratchSize ∧
        totalShortages before ≤ maxGrowth * ((acceptedInputs direction before).length + 1) ∧
        acceptedInputs direction before <+: chunks session.limits.chunkSize data ∧
        room ≤ 2 ^ (maxGrowth * ((acceptedInputs direction before).length + 1)) *
          max session.limits.scratchSize 16 := by
  obtain ⟨⟨⟨outcome, after⟩, es, u⟩, hrun⟩ :
      ∃ r, (Call.cipherAll direction mechanism key data).run token session t = r := ⟨_, rfl⟩
  refine ⟨outcome, after, es, u, hrun, ?_⟩
  intro before x later room hsplit hroom
  rcases goes_bind.mp (Talk.run_eq_iff.mp hrun).1 with
    ⟨e, hstart, -⟩ | ⟨⟨⟩, mid, begun, rest, rfl, hstart, hstream⟩
  · have hnone := startWith_roomless hstart x (by simp [hsplit])
    rw [hnone] at hroom
    cases hroom
  · obtain ⟨handle, native, reply, used, -, -, hreply, rfl, rfl⟩ := startWith_begun hstart
    obtain ⟨streamed, left, hchunks, -⟩ := stream_cases hstream
    have hgrows := streamChunks_grows hchunks
    rw [List.length_replicate] at hgrows
    cases before with
    | nil =>
      obtain ⟨rfl, -⟩ := List.cons.inj hsplit
      cases hroom
    | cons first before =>
      obtain ⟨rfl, rfl⟩ := List.cons.inj hsplit
      -- The first call was accepted, so that the stream alone is counted.
      have hcount : totalShortages
          (⟨.start direction.kind session.handle native (some handle), reply⟩ :: before) =
          totalShortages before := by
        simp [totalShortages_cons, Exchange.isShort, Exchange.refusal?, Outcome.failure?, hreply]
      have hrest := hgrows.rooms.room
      rw [hroom, Option.some.injEq] at hrest
      have hspares := hgrows.spares before x later rfl
      rw [hcount, acceptedInputs_cons rfl]
      refine ⟨hrest, hspares, ?_, ?_⟩
      · refine List.IsPrefix.trans ?_ hgrows.taken
        simp
      · rw [hrest]
        have hpow := Nat.pow_le_pow_right (by omega : 0 < 2) hspares
        exact Nat.le_trans (grown_le _ _) (Nat.mul_le_mul_right _ hpow)

/-- A token that asks for some room for each piece, and for twice as much at the end. -/
def hungry : Token Unit where
  answer request t :=
    match request with
    | .start _ _ _ _ => (⟨.ok (), .none⟩, t)
    | .cipherUpdate _ _ _ window =>
      (if window.length < 256 then ⟨.error Status.bufferTooSmall, []⟩ else ⟨.ok 1, [0xaa]⟩, t)
    | .cipherFinal _ _ window =>
      (if window.length < 512 then ⟨.error Status.bufferTooSmall, []⟩ else ⟨.ok 1, [0xbb]⟩, t)
    | request => (request.refuse Status.functionNotSupported, t)

/-- A session that takes sixteen bytes at a time and gives them no more room. -/
def tight : Session := .ofHandle 7 0 ⟨16, 0⟩ .empty

/-- One piece goes through it. -/
def hungryRun : (Except Error Bytes × Scene Mechanism) × List Exchange × Unit :=
  (Call.cipherAll .encrypt ⟨0x1081, none⟩ (.ofHandle (.secretKey .aes) 3)
    [0, 1, 2, 3, 4, 5, 6, 7, 8, 9, 10, 11, 12, 13, 14, 15]).run hungry tight ()

theorem hungryRun_grows : hungryRun.1.1.toOption = some [0xaa, 0xbb] ∧
    hungryRun.2.1.filterMap Exchange.room? = [16, 32, 64, 128, 256, 256, 512] ∧
    16 * max tight.limits.scratchSize 16 < 512 ∧ maxGrowth < totalShortages hungryRun.2.1 := by
  decide +kernel

/-- The last room, after the fifth shortage: there was one piece, so that eight are possible. -/
theorem cipherAll_rooms_hungry : ∃ before x, hungryRun.2.1 = before ++ [x] ∧
    x.room? = some 512 ∧ 512 = grown (totalShortages before) tight.limits.scratchSize ∧
    totalShortages before ≤ maxGrowth * ((acceptedInputs .encrypt before).length + 1) := by
  have hlast : hungryRun.2.1.getLast?.bind Exchange.room? = some 512 := by decide +kernel
  obtain ⟨x, hx, hroom⟩ := Option.bind_eq_some_iff.mp hlast
  obtain ⟨before, hsplit⟩ := List.getLast?_eq_some_iff.mp hx
  obtain ⟨outcome, after, es, u, hrun, hrooms⟩ := cipherAll_rooms hungry () tight .encrypt
    ⟨0x1081, none⟩ (.ofHandle (.secretKey .aes) 3)
    [0, 1, 2, 3, 4, 5, 6, 7, 8, 9, 10, 11, 12, 13, 14, 15]
  have hes : hungryRun.2.1 = es := by rw [hungryRun, hrun]
  obtain ⟨hgrown, hspares, -⟩ := hrooms _ _ [] 512 (hes ▸ hsplit) hroom
  exact ⟨before, x, hsplit, hroom, hgrown, hspares⟩

end Action

end Cryptoki
