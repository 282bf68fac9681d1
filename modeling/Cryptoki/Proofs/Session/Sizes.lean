import Cryptoki.Proofs.Session.Growth

/-! The sizes of the buffers for a whole text. Each is a sum of words that nothing guards, so that
the slack decides whether it is what it should be. -/
namespace Cryptoki

namespace Action

variable {direction : Direction} {es fs : List Exchange} {r : Request} {here : Session}
  {buffer : Bytes} {call : Action Bytes Nat} {after : Scene Bytes}

/-- The first of the exchanges is of the request. -/
def BeginsWith (r : Request) (es : List Exchange) : Prop :=
  ∃ answer later, es = ⟨r, answer⟩ :: later

theorem BeginsWith.append (h : BeginsWith r es) (fs : List Exchange) :
    BeginsWith r (es ++ fs) := by
  obtain ⟨answer, later, rfl⟩ := h
  exact ⟨answer, later ++ fs, rfl⟩

/-- A call into a buffer asks for the request first, however it goes on. -/
def AsksFirst (call : Action Bytes Nat) (here : Session) (buffer : Bytes) (r : Request) : Prop :=
  ∀ es outcome after, call.Goes ⟨here, buffer⟩ es outcome after → BeginsWith r es

/-- A write asks first what its talk asks first, with the whole of the buffer. -/
theorem asksFirst_writeFrom {last : Bool} {write : Handle → Bytes → Talk Delivery}
    {next : r.Answer → Talk Delivery} (hactive : (here.operation direction.kind).isActive = true)
    (hwrite : write here.handle buffer = .ask r next) :
    AsksFirst (writeFrom direction last 0 write) here buffer r := by
  intro es outcome after hgoes
  obtain ⟨delivery, htalk, -⟩ := writeFrom_gives hactive hgoes
  rw [hwrite] at htalk
  obtain ⟨answer, later, rfl, -⟩ := Talk.goes_ask.mp htalk
  exact ⟨answer, later, rfl⟩

/-- The first try is made with the buffer as it is. -/
theorem AsksFirst.growing (h : AsksFirst call here buffer r) (n : Nat) :
    AsksFirst (growing call n) here buffer r := by
  intro es outcome after hgoes
  cases n with
  | zero => exact h es outcome after hgoes
  | succ n =>
    rcases growing_cases hgoes with ⟨hfirst, -⟩ | ⟨mid, first, rest, rfl, hfirst, -⟩
    · exact h es outcome after hfirst
    · exact (h first _ mid hfirst).append rest

theorem AsksFirst.collect {part : String} {outcome : Except Error Bytes}
    (h : AsksFirst call here buffer r)
    (hgoes : (collect part call).Goes ⟨here, buffer⟩ es outcome after) : BeginsWith r es := by
  rcases collect_cases hgoes with ⟨e, hgrowing, -⟩ | ⟨n, hgrowing, -⟩
  · exact h.growing maxGrowth es _ after hgrowing
  · exact h.growing maxGrowth es _ after hgrowing

/-- The first write of some pieces into a buffer: of the first piece, or of the end where there is
none. -/
def firstWrite (direction : Direction) (here : Handle) (buffer : Bytes) : List Bytes → Request
  | [] => .cipherFinal direction here buffer
  | piece :: _ => .cipherUpdate direction here piece buffer

theorem room?_firstWrite {direction : Direction} {here : Handle} {buffer : Bytes}
    {pieces : List Bytes} (answer : (firstWrite direction here buffer pieces).Answer) :
    Exchange.room? ⟨firstWrite direction here buffer pieces, answer⟩ = some buffer.length := by
  cases pieces <;> rfl

theorem streamChunks_begins (hactive : (here.operation direction.kind).isActive = true)
    {output : OutputBuffer} {pieces : List Bytes} {streamed : Except Error OutputBuffer}
    (hgoes : (streamChunks direction output pieces).Goes ⟨here, buffer⟩ es streamed after) :
    BeginsWith (firstWrite direction here.handle buffer pieces) es := by
  cases pieces with
  | nil =>
    have hasks : AsksFirst (cipherFinal direction 0) here buffer
        (.cipherFinal direction here.handle buffer) := asksFirst_writeFrom hactive rfl
    obtain ⟨last, hcall, -⟩ := streamChunks_end hgoes
    exact hasks.collect hcall
  | cons piece pieces =>
    have hasks : AsksFirst (cipherUpdate direction piece 0) here buffer
        (.cipherUpdate direction here.handle piece buffer) := asksFirst_writeFrom hactive rfl
    rcases goes_bind.mp hgoes with ⟨e, hcall, -⟩ | ⟨more, mid, first, later, rfl, hcall, -⟩
    · exact hasks.collect hcall
    · exact (hasks.collect hcall).append later

/-- After the first call of a whole text was accepted, its first write is next, into zeros. -/
theorem cipherAll_begins {key : Object} {data : Bytes} {first : Exchange} {rest : List Exchange}
    {mechanism : Mechanism} {outcome : Except Error Bytes} {after : Scene Mechanism}
    (hgoes : (cipherAll direction key data).Goes ⟨here, mechanism⟩ (first :: rest) outcome after)
    (hbegins : first.Begins direction.kind) :
    BeginsWith (firstWrite direction here.handle (List.replicate here.limits.scratchSize 0)
      (chunks here.limits.chunkSize data)) rest := by
  rcases goes_bind.mp hgoes with ⟨e, hstart, -⟩ | ⟨⟨⟩, mid, begun, later, heq, hstart, hstream⟩
  · exact absurd hbegins ((startWith_refused hstart).2 first List.mem_cons_self)
  · obtain ⟨native, handle, reply, used, rfl, rfl⟩ := startWith_accepted hstart
    obtain ⟨rfl, rfl⟩ := List.cons.inj heq
    obtain ⟨streamed, left, hchunks, -⟩ := stream_cases hstream
    exact streamChunks_begins (Session.isActive_initialized here direction.kind used handle) hchunks

/-- Two sizes are asked for once a whole text was begun: room for all of its output, and room for the
output of one call. Both are what they should be exactly where the slack, on top of the longer of the
text and of what the token takes at once, is no more than a buffer may have. Any other room is more
than that, or it has begun at zero again and is smaller than the bytes it is meant for. Where there
are buffers of the two sizes as they come out, the token is asked for the first write next, into
zeros of the second size. -/
theorem cipherAll_sizes {σ : Type} (token : Token σ) (t : σ) (session : Session)
    (direction : Direction) (mechanism : Mechanism) (key : Object) (data : Bytes) :
    (session.limits.Affords data.length ∧ session.limits.Affords session.limits.chunkSize ↔
      max data.length session.limits.chunkSize + session.limits.slack.toNat ≤ maxBuffer) ∧
    (∀ length < UInt64.size, ¬ session.limits.Affords length ↔
      maxBuffer < session.limits.roomFor length ∨
        (UInt64.size ≤ length + session.limits.slack.toNat ∧
          session.limits.roomFor length < length ∧
          session.limits.roomFor length < session.limits.slack.toNat)) ∧
    ∃ outcome after es u,
      (Call.cipherAll direction mechanism key data).run token session t =
        ((outcome, after), es, u) ∧
      ∀ first rest, es = first :: rest → first.Begins direction.kind →
        session.limits.roomFor data.length ≤ maxBuffer →
        session.limits.scratchSize ≤ maxBuffer →
        ∃ write later, rest = write :: later ∧
          write.request = firstWrite direction session.handle
            (List.replicate session.limits.scratchSize 0)
            (chunks session.limits.chunkSize data) ∧
          (session.limits.Affords session.limits.chunkSize ↔
            write.room? = some (session.limits.chunkSize + session.limits.slack.toNat)) := by
  refine ⟨?_, fun length hlength => StreamLimits.not_affords_iff hlength, ?_⟩
  · rw [StreamLimits.affords_iff, StreamLimits.affords_iff]
    omega
  obtain ⟨⟨⟨outcome, after⟩, es, u⟩, hrun⟩ :
      ∃ r, (Call.cipherAll direction mechanism key data).run token session t = r := ⟨_, rfl⟩
  refine ⟨outcome, after, es, u, hrun, ?_⟩
  rintro first rest rfl hbegins - hscratch
  obtain ⟨answer, later, rfl⟩ := cipherAll_begins (Talk.run_eq_iff.mp hrun).1 hbegins
  refine ⟨_, later, rfl, rfl, ?_⟩
  rw [room?_firstWrite, List.length_replicate, Option.some.injEq]
  exact ⟨fun h => h.whole, fun h => ⟨h, hscratch⟩⟩

/-- A stream that gives so many bytes for each piece that goes in. -/
def bulky (n : Nat) : StreamMachine Unit where
  update _ _ := ((), List.replicate n 0xaa)
  final _ := []

/-- A session that takes single bytes, with all the slack that a word can tell. -/
def boundless : Session := .ofHandle 7 0 ⟨0, 0xFFFFFFFFFFFFFFFF⟩ .empty

/-- One byte goes through it, for which there should be room for any output. -/
def starvedRun : (Except Error Bytes × Scene Mechanism) × List Exchange × Unit :=
  (Call.cipherAll .encrypt ⟨0x1081, none⟩ (.ofHandle (.secretKey .aes) 3) [0]).run
    (bulky 129).asToken boundless ()

/-- Both sums begin at zero again, so that the first write has no room at all, and what the buffer
grows to is not enough for the output. -/
theorem starvedRun_overflows :
    UInt64.size ≤ [0].length + boundless.limits.slack.toNat ∧
      UInt64.size ≤ boundless.limits.chunkSize + boundless.limits.slack.toNat ∧
      starvedRun.2.1.filterMap Exchange.room? = [0, 16, 32, 64, 128] ∧
      Outcome.failure? starvedRun.1.1 = some (.deviceStatus Status.bufferTooSmall) := by
  decide +kernel

theorem cipherAll_sizes_starved : ∃ first write later, starvedRun.2.1 = first :: write :: later ∧
    first.Begins .encrypt ∧ boundless.limits.roomFor [0].length ≤ maxBuffer ∧
    boundless.limits.scratchSize ≤ maxBuffer ∧ write.request = .cipherUpdate .encrypt 7 [0] [] ∧
    ¬ boundless.limits.Affords boundless.limits.chunkSize := by
  have hhead : starvedRun.2.1.head?.map
      (fun x => (x.request.kind?, x.request.isStart, x.refusal?)) =
      some (some .encrypt, true, none) := by decide +kernel
  obtain ⟨first, hfirst, hcall⟩ := Option.map_eq_some_iff.mp hhead
  obtain ⟨rest, hsplit⟩ := List.head?_eq_some_iff.mp hfirst
  simp only [Prod.mk.injEq] at hcall
  obtain ⟨-, hother, outcome, after, es, u, hrun, hnext⟩ :=
    cipherAll_sizes (bulky 129).asToken () boundless .encrypt ⟨0x1081, none⟩
      (.ofHandle (.secretKey .aes) 3) [0]
  have hes : starvedRun.2.1 = es := by rw [starvedRun, hrun]
  have houtput : boundless.limits.roomFor [0].length ≤ maxBuffer := by decide
  have hscratch : boundless.limits.scratchSize = 0 := by decide
  have hroom : boundless.limits.scratchSize ≤ maxBuffer := hscratch ▸ Nat.zero_le maxBuffer
  obtain ⟨write, later, rfl, hwrite, -⟩ := hnext first rest (hes ▸ hsplit) hcall houtput hroom
  have hpieces : chunks boundless.limits.chunkSize [0] = [[0]] := by
    simp [chunks, boundless, Session.ofHandle, StreamLimits.chunkSize]
  rw [hscratch, hpieces] at hwrite
  exact ⟨first, write, later, hsplit, hcall, houtput, hroom, hwrite,
    (hother 1 (by decide)).mpr (.inr (by decide))⟩

end Action

end Cryptoki
