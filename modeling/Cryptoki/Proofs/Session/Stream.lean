import Cryptoki.Proofs.Session.Memory
import Cryptoki.Token.Script

/-! Whole texts through tokens whose streams are state machines: no byte is lost, repeated or moved,
however the text is cut and however often a buffer was too small. -/
namespace Cryptoki

variable {σ τ : Type} {token : Token σ} {direction : Direction} {es : List Exchange} {t u : σ}

/-- A stream by itself: what comes out for each piece that goes in, and at the end. -/
structure StreamMachine (τ : Type) where
  update : τ → Bytes → τ × Bytes
  final : τ → Bytes

/-- The outputs for the pieces in order, and the final one. -/
def StreamMachine.outputs (machine : StreamMachine τ) : τ → List Bytes → List Bytes
  | s, [] => [machine.final s]
  | s, piece :: rest =>
    (machine.update s piece).2 :: machine.outputs (machine.update s piece).1 rest

/-- An output is delivered as a whole or not at all: the call is refused exactly where there is too
little room. -/
def Delivery.Gives (delivery : Delivery) (room : Nat) (output : Bytes) : Prop :=
  (room < output.length → delivery.outcome = .error Status.bufferTooSmall) ∧
  (output.length ≤ room → delivery.outcome = .ok output.length ∧ output <+: delivery.output)

/-- The token serves a direction of a session with a machine, whose state is a view of its own. A
refused call leaves the machine as it was. -/
structure Token.Streams (token : Token σ) (direction : Direction) (handle : Handle)
    (machine : StreamMachine τ) (view : σ → τ) : Prop where
  update : ∀ {t input window delivery u},
    token.answer (.cipherUpdate direction handle input window) t = (delivery, u) →
    delivery.Gives window.length (machine.update (view t) input).2 ∧
      (window.length < (machine.update (view t) input).2.length → view u = view t) ∧
      ((machine.update (view t) input).2.length ≤ window.length →
        view u = (machine.update (view t) input).1)
  final : ∀ {t window delivery u},
    token.answer (.cipherFinal direction handle window) t = (delivery, u) →
    delivery.Gives window.length (machine.final (view t)) ∧
      (window.length < (machine.final (view t)).length → view u = view t)

/-- The delivery of an output into a window of some room. -/
def Delivery.fitting (room : Nat) (output : Bytes) : Delivery :=
  if room < output.length then ⟨.error Status.bufferTooSmall, []⟩ else ⟨.ok output.length, output⟩

theorem Delivery.fitting_gives (room : Nat) (output : Bytes) :
    (fitting room output).Gives room output := by
  unfold fitting
  constructor
  · intro h
    rw [if_pos h]
  · intro h
    rw [if_neg (by omega)]
    exact ⟨rfl, List.prefix_refl output⟩

/-- The token that has a machine and no more: it accepts every first call and serves the stream. -/
def StreamMachine.asToken (machine : StreamMachine τ) : Token τ where
  answer request s :=
    match request with
    | .start _ _ _ _ => (⟨.ok (), .none⟩, s)
    | .cipherUpdate _ _ input window =>
      (.fitting window.length (machine.update s input).2,
        if window.length < (machine.update s input).2.length then s
        else (machine.update s input).1)
    | .cipherFinal _ _ window => (.fitting window.length (machine.final s), s)
    | request => (request.refuse Status.functionNotSupported, s)

theorem StreamMachine.asToken_streams (machine : StreamMachine τ) (direction : Direction)
    (handle : Handle) : machine.asToken.Streams direction handle machine id where
  update := by
    rintro s input window delivery u ⟨⟩
    refine ⟨Delivery.fitting_gives _ _, fun h => if_pos h, fun h => if_neg ?_⟩
    dsimp only [id] at h
    omega
  final := by
    rintro s window delivery u ⟨⟩
    exact ⟨Delivery.fitting_gives _ _, fun _ => rfl⟩

/-- The input of an update that the token accepted. -/
def Exchange.acceptedInput? (direction : Direction) : Exchange → Option Bytes
  | ⟨.cipherUpdate d _ input _, delivery⟩ =>
    match delivery.outcome with
    | .ok _ => if d = direction then some input else none
    | .error _ => none
  | _ => none

def acceptedInputs (direction : Direction) (es : List Exchange) : List Bytes :=
  es.filterMap (Exchange.acceptedInput? direction)

@[simp]
theorem acceptedInputs_append (direction : Direction) (es fs : List Exchange) :
    acceptedInputs direction (es ++ fs) =
      acceptedInputs direction es ++ acceptedInputs direction fs :=
  List.filterMap_append

theorem chunks_flatten (size : Nat) (data : Bytes) : (chunks size data).flatten = data := by
  induction data using chunks.induct size with
  | case1 => simp [chunks]
  | case2 data h ih =>
    rw [chunks, if_neg h, List.flatten_cons, ih, List.take_append_drop]

theorem chunks_length {size : Nat} {data piece : Bytes} (h : piece ∈ chunks size data) :
    1 ≤ piece.length ∧ piece.length ≤ max size 1 := by
  induction data using chunks.induct size with
  | case1 => simp [chunks] at h
  | case2 data hd ih =>
    rw [chunks, if_neg hd, List.mem_cons] at h
    rcases h with rfl | h
    · have := List.length_pos_iff.mpr hd
      simp only [List.length_take]
      omega
    · exact ih h

theorem nil_not_mem_chunks (size : Nat) (data : Bytes) : [] ∉ chunks size data := by
  intro h
  have := (chunks_length h).1
  simp at this

theorem StreamLimits.length_of_mem_chunks {l : StreamLimits} {data piece : Bytes}
    (h : piece ∈ chunks l.chunkSize data) :
    1 ≤ piece.length ∧ piece.length ≤ max 1 l.maxChunk.toNat := by
  have hlength := chunks_length h
  simp only [chunkSize] at hlength
  omega

namespace Action

@[simp]
theorem takenOutputs_append (es fs : List Exchange) :
    takenOutputs (es ++ fs) = takenOutputs es ++ takenOutputs fs :=
  List.filterMap_append

/-- The largest buffer that a size grows to. -/
def grown : Nat → Nat → Nat
  | 0, size => size
  | n + 1, size => grown n (grownSize size)

theorem le_grown (size : Nat) : 16 * size ≤ grown maxGrowth size := by
  simp only [grown, maxGrowth, grownSize]
  omega

/-- What some exchanges have written, in rooms of some size at most: the inputs that were accepted,
and the outputs that were taken. -/
structure Wrote (direction : Direction) (size : Nat) (inputs outputs : List Bytes)
    (es : List Exchange) : Prop where
  rooms : ∀ x ∈ es, ∀ room, x.room? = some room → room ≤ size
  accepted : acceptedInputs direction es = inputs
  taken : takenOutputs es = outputs

theorem Wrote.append {size room : Nat} {inputs more outputs others : List Bytes}
    {fs : List Exchange} (hes : Wrote direction size inputs outputs es)
    (hfs : Wrote direction room more others fs) (h : size ≤ room) :
    Wrote direction room (inputs ++ more) (outputs ++ others) (es ++ fs) where
  rooms x hx n hn := by
    rcases List.mem_append.mp hx with hx | hx
    · exact Nat.le_trans (hes.rooms x hx n hn) h
    · exact hfs.rooms x hx n hn
  accepted := by rw [acceptedInputs_append, hes.accepted, hfs.accepted]
  taken := by rw [takenOutputs_append, hes.taken, hfs.taken]

/-- What the memory provides for is enough for what was written. -/
theorem inMemory_of_wrote {l : StreamLimits} {data : Bytes} {inputs outputs : List Bytes}
    (h : l.Provides data outputs)
    (hwrote : Wrote direction (scratchAfter l.scratchSize outputs) inputs outputs es) :
    l.InMemory data es where
  text := h.text
  chunk := h.chunk
  output := by
    rw [hwrote.taken]
    exact h.output
  scratch x hx room hroom := Nat.le_trans (hwrote.rooms x hx room hroom) h.scratch

/-- A call with an output of its own: it succeeds with any buffer that has the room, and with any
other it changes nothing. -/
structure Serves (token : Token σ) (direction : Direction) (call : Action Bytes Nat)
    (here left : Session) (before after : σ → Prop) (inputs : List Bytes) (output : Bytes) :
    Prop where
  short : ∀ {buffer t u es outcome scene}, buffer.length < output.length → before t →
    call.Goes ⟨here, buffer⟩ es outcome scene → token.Answers t es u →
    outcome = .error (.deviceStatus Status.bufferTooSmall) ∧ scene.session = here ∧
      scene.subject.length = buffer.length ∧ before u ∧ Wrote direction buffer.length [] [] es
  fits : ∀ {buffer t u es outcome scene}, output.length ≤ buffer.length → before t →
    call.Goes ⟨here, buffer⟩ es outcome scene → token.Answers t es u →
    outcome = .ok output.length ∧ scene.session = left ∧
      scene.subject.length = buffer.length ∧ scene.subject.take output.length = output ∧ after u ∧
      Wrote direction buffer.length inputs [output] es

theorem take_overwrite {buffer output written : Bytes} (h : output <+: written)
    (hroom : output.length ≤ buffer.length) :
    (overwrite buffer written).take output.length = output := by
  obtain ⟨rest, rfl⟩ := h
  have hlength : output.length ≤ ((output ++ rest).take buffer.length).length := by
    simp only [List.length_take, List.length_append]
    omega
  rw [overwrite, List.take_append_of_le_length hlength, List.take_take, Nat.min_eq_left hroom,
    List.take_left]

section Taken

variable {delivery : Delivery} {window output : Bytes}

theorem taken?_of_lt (h : delivery.Gives window.length output)
    (hroom : window.length < output.length) : delivery.taken? window = none := by
  simp [Delivery.taken?, h.1 hroom]

theorem taken?_of_le (h : delivery.Gives window.length output)
    (hroom : output.length ≤ window.length) : delivery.taken? window = some output := by
  obtain ⟨houtcome, hprefix⟩ := h.2 hroom
  simp [Delivery.taken?, houtcome, take_overwrite hprefix hroom]

end Taken

variable {here : Session} {buffer : Bytes} {scene : Scene Bytes}

/-- A write to the whole of a buffer, of an output that the token gives as a whole or not at all. -/
theorem writeFrom_gives {last : Bool} {call : Handle → Bytes → Talk Delivery}
    {outcome : Except Error Nat} (hactive : (here.operation direction.kind).isActive = true)
    (h : (writeFrom direction last 0 call).Goes ⟨here, buffer⟩ es outcome scene) :
    ∃ delivery, (call here.handle buffer).Goes es delivery ∧ scene.subject.length = buffer.length ∧
      ∀ output, delivery.Gives buffer.length output →
        (buffer.length < output.length →
          outcome = .error (.deviceStatus Status.bufferTooSmall) ∧ scene.session = here) ∧
        (output.length ≤ buffer.length →
          outcome = .ok output.length ∧ scene.subject.take output.length = output ∧
          scene.session = here.withOperation direction.kind
            (if last then (here.operation direction.kind).abandon
              else here.operation direction.kind)) := by
  obtain ⟨hoffset, -⟩ | ⟨-, hidle, -⟩ | ⟨-, -, delivery, settled, hcall, rfl, rfl, rfl⟩ :=
    writeFrom_cases h
  · simp at hoffset
  · simp [hactive] at hidle
  refine ⟨delivery, hcall, by simp [length_overwrite], ?_⟩
  rintro output ⟨hshort, hfits⟩
  constructor
  · intro hroom
    simp [settleWrite, hshort hroom]
  · intro hroom
    obtain ⟨ho, hp⟩ := hfits hroom
    simp [settleWrite, ho, hroom, take_overwrite hp hroom]

variable {machine : StreamMachine τ} {view : σ → τ}

/-- A write serves an output if its talk does, in any window. -/
theorem serves_writeFrom {last : Bool} {call : Handle → Bytes → Talk Delivery}
    {before after : σ → Prop} {inputs : List Bytes} {output : Bytes}
    (hactive : (here.operation direction.kind).isActive = true)
    (hcall : ∀ {t u window es delivery}, before t → (call here.handle window).Goes es delivery →
      token.Answers t es u → delivery.Gives window.length output ∧
        (window.length < output.length → before u ∧ Wrote direction window.length [] [] es) ∧
        (output.length ≤ window.length →
          after u ∧ Wrote direction window.length inputs [output] es)) :
    Serves token direction (writeFrom direction last 0 call) here
      (here.withOperation direction.kind (if last then (here.operation direction.kind).abandon
        else here.operation direction.kind)) before after inputs output where
  short := by
    intro buffer t u es outcome scene hroom ht hgoes hanswers
    obtain ⟨delivery, htalk, hlength, hwrite⟩ := writeFrom_gives hactive hgoes
    obtain ⟨hgives, hshort, -⟩ := hcall ht htalk hanswers
    obtain ⟨ho, hleft⟩ := (hwrite _ hgives).1 hroom
    obtain ⟨hu, hwrote⟩ := hshort hroom
    exact ⟨ho, hleft, hlength, hu, hwrote⟩
  fits := by
    intro buffer t u es outcome scene hroom ht hgoes hanswers
    obtain ⟨delivery, htalk, hlength, hwrite⟩ := writeFrom_gives hactive hgoes
    obtain ⟨hgives, -, hfits⟩ := hcall ht htalk hanswers
    obtain ⟨ho, htake, hleft⟩ := (hwrite _ hgives).2 hroom
    obtain ⟨hu, hwrote⟩ := hfits hroom
    exact ⟨ho, hleft, hlength, htake, hu, hwrote⟩

theorem cipherUpdate_serves (hs : token.Streams direction here.handle machine view)
    (hactive : (here.operation direction.kind).isActive = true) (s : τ) (input : Bytes) :
    Serves token direction (cipherUpdate direction input 0) here here (fun t => view t = s)
      (fun u => view u = (machine.update s input).1) [input] (machine.update s input).2 := by
  have hserves : Serves token direction (cipherUpdate direction input 0) here
      (here.withOperation direction.kind (here.operation direction.kind)) (fun t => view t = s)
      (fun u => view u = (machine.update s input).1) [input] (machine.update s input).2 := by
    refine serves_writeFrom hactive ?_
    rintro t u window es delivery rfl htalk hanswers
    obtain rfl := Talk.goes_request.mp htalk
    obtain ⟨hgives, hsame, hnext⟩ := hs.update (Token.answers_single.mp hanswers)
    refine ⟨hgives, fun hroom => ⟨hsame hroom, ?_⟩, fun hroom => ⟨hnext hroom, ?_⟩⟩
    · have hnone := taken?_of_lt hgives hroom
      constructor <;> simp [Exchange.room?, acceptedInputs, Exchange.acceptedInput?, takenOutputs,
        Exchange.taken?, hgives.1 hroom, hnone]
    · have houtput := taken?_of_le hgives hroom
      constructor <;> simp [Exchange.room?, acceptedInputs, Exchange.acceptedInput?, takenOutputs,
        Exchange.taken?, (hgives.2 hroom).1, houtput]
  rwa [Session.withOperation_operation] at hserves

theorem cipherFinal_serves (hs : token.Streams direction here.handle machine view)
    (hactive : (here.operation direction.kind).isActive = true) (s : τ) :
    Serves token direction (cipherFinal direction 0) here
      (here.withOperation direction.kind (here.operation direction.kind).abandon)
      (fun t => view t = s) (fun _ => True) [] (machine.final s) := by
  refine serves_writeFrom hactive ?_
  rintro t u window es delivery rfl htalk hanswers
  obtain rfl := Talk.goes_request.mp htalk
  obtain ⟨hgives, hsame⟩ := hs.final (Token.answers_single.mp hanswers)
  refine ⟨hgives, fun hroom => ⟨hsame hroom, ?_⟩, fun hroom => ⟨trivial, ?_⟩⟩
  · have hnone := taken?_of_lt hgives hroom
    constructor <;> simp [Exchange.room?, acceptedInputs, Exchange.acceptedInput?, takenOutputs,
      Exchange.taken?, hnone]
  · have houtput := taken?_of_le hgives hroom
    constructor <;> simp [Exchange.room?, acceptedInputs, Exchange.acceptedInput?, takenOutputs,
      Exchange.taken?, houtput]

/-- A call that may be made again succeeds if the buffer grows as large as the output. -/
theorem Serves.growing {call : Action Bytes Nat} {left : Session} {before after : σ → Prop}
    {inputs : List Bytes} {output : Bytes}
    (hs : Serves token direction call here left before after inputs output) {n : Nat}
    {outcome : Except Error Nat} (hroom : output.length ≤ grown n buffer.length) (ht : before t)
    (hgoes : (growing call n).Goes ⟨here, buffer⟩ es outcome scene)
    (hanswers : token.Answers t es u) :
    outcome = .ok output.length ∧ scene.session = left ∧
      scene.subject.length = enlarged n buffer.length output.length ∧
      scene.subject.take output.length = output ∧ after u ∧
      Wrote direction (enlarged n buffer.length output.length) inputs [output] es := by
  induction n generalizing buffer t es with
  | zero => exact hs.fits hroom ht hgoes hanswers
  | succ n ih =>
    by_cases hfits : output.length ≤ buffer.length
    · rw [enlarged, if_pos hfits]
      obtain ⟨hcall, -⟩ | ⟨mid, before, rest, rfl, hcall, -⟩ := growing_cases hgoes
      · exact hs.fits hfits ht hcall hanswers
      · obtain ⟨v, hbefore, -⟩ := Token.answers_append.mp hanswers
        obtain ⟨ho, -⟩ := hs.fits hfits ht hcall hbefore
        cases ho
    · rw [enlarged, if_neg hfits]
      obtain ⟨hcall, ho⟩ | ⟨mid, before, rest, rfl, hcall, hrest⟩ := growing_cases hgoes
      · exact absurd (hs.short (by omega) ht hcall hanswers).1 ho
      · obtain ⟨v, hbefore, hafter⟩ := Token.answers_append.mp hanswers
        obtain ⟨-, rfl, hlength, hv, hnone⟩ := hs.short (by omega) ht hcall hbefore
        rw [hlength] at hrest
        obtain ⟨ho, hleft, hmore, htake, hu, hwrote⟩ :=
          ih (by simpa [grown] using hroom) hv hrest hafter
        rw [List.length_replicate] at hmore hwrote
        have hsmaller : buffer.length ≤ enlarged n (grownSize buffer.length) output.length := by
          have := le_enlarged n (grownSize buffer.length) output.length
          simp only [grownSize] at this ⊢
          omega
        exact ⟨ho, hleft, hmore, htake, hu, hnone.append hwrote hsmaller⟩

theorem Serves.collect {part : String} {call : Action Bytes Nat} {left : Session}
    {before after : σ → Prop} {inputs : List Bytes} {output : Bytes}
    (hs : Serves token direction call here left before after inputs output)
    {outcome : Except Error Bytes} (hroom : output.length ≤ 16 * buffer.length) (ht : before t)
    (hgoes : (collect part call).Goes ⟨here, buffer⟩ es outcome scene)
    (hanswers : token.Answers t es u) :
    outcome = .ok output ∧ scene.session = left ∧
      scene.subject.length = enlarged maxGrowth buffer.length output.length ∧ after u ∧
      Wrote direction (enlarged maxGrowth buffer.length output.length) inputs [output] es := by
  have hgrown : output.length ≤ grown maxGrowth buffer.length := by
    have := le_grown buffer.length
    omega
  rcases collect_cases hgoes with ⟨e, hgrowing, -⟩ | ⟨n, hgrowing, hcollected⟩
  · obtain ⟨he, -⟩ := hs.growing hgrown ht hgrowing hanswers
    cases he
  · obtain ⟨hn, hleft, hlength, htake, hu, hwrote⟩ := hs.growing hgrown ht hgrowing hanswers
    cases hn
    have hfits := congrArg List.length htake
    rw [List.length_take] at hfits
    rcases hcollected with ⟨-, rfl⟩ | ⟨hbeyond, -⟩
    · exact ⟨by rw [htake], hleft, hlength, hu, hwrote⟩
    · omega

/-- A stream of pieces adds the outputs of the machine, one after the other. The buffer is never
smaller than it was, so that no piece has less room than the first. -/
theorem streamChunks_outputs (hs : token.Streams direction here.handle machine view)
    (hactive : (here.operation direction.kind).isActive = true) {size : Nat} {pieces : List Bytes}
    {output : OutputBuffer} {streamed : Except Error OutputBuffer} (hsize : size ≤ buffer.length)
    (hroom : ∀ output ∈ machine.outputs (view t) pieces, output.length ≤ 16 * size)
    (hgoes : (streamChunks direction output pieces).Goes ⟨here, buffer⟩ es streamed scene)
    (hanswers : token.Answers t es u) :
    streamed = .ok (output.extendAll (machine.outputs (view t) pieces)) ∧
      scene.session = here.withOperation direction.kind (here.operation direction.kind).abandon ∧
      Wrote direction (scratchAfter buffer.length (machine.outputs (view t) pieces)) pieces
        (machine.outputs (view t) pieces) es := by
  induction pieces generalizing buffer t es output with
  | nil =>
    have hlast := hroom (machine.final (view t)) (by simp [StreamMachine.outputs])
    obtain ⟨last, hcall, rfl⟩ := streamChunks_end hgoes
    obtain ⟨rfl, hleft, -, -, hwrote⟩ := (cipherFinal_serves hs hactive (view t)).collect
      (by omega) rfl hcall hanswers
    exact ⟨rfl, hleft, hwrote⟩
  | cons piece rest ih =>
    have hfirst := hroom (machine.update (view t) piece).2 (by simp [StreamMachine.outputs])
    have hserves := cipherUpdate_serves hs hactive (view t) piece
    obtain ⟨e, hcall, -⟩ | ⟨more, ⟨here', buffer'⟩, before, after, rfl, hcall, hrest⟩ :=
      goes_bind.mp hgoes
    · obtain ⟨ho, -⟩ := hserves.collect (by omega) rfl hcall hanswers
      cases ho
    · obtain ⟨v, hbefore, hafter⟩ := Token.answers_append.mp hanswers
      obtain ⟨ho, rfl, hlength, hv, hwrote⟩ := hserves.collect (by omega) rfl hcall hbefore
      obtain rfl := Except.ok.inj ho
      have hlater : ∀ output ∈ machine.outputs (view v) rest, output.length ≤ 16 * size := by
        intro output hm
        exact hroom output (by simp [StreamMachine.outputs, ← hv, hm])
      have hgrown := le_enlarged maxGrowth buffer.length (machine.update (view t) piece).2.length
      replace hlength : buffer'.length = enlarged maxGrowth buffer.length
          (machine.update (view t) piece).2.length := hlength
      obtain ⟨ho, hleft, hmore⟩ := ih (by omega) hlater hrest hafter
      rw [hlength, hv] at hmore
      rw [hv] at ho
      exact ⟨ho, hleft, hwrote.append hmore (le_scratchAfter _ _)⟩

/-- A stream of a running operation gives the outputs together, and ends the operation. -/
theorem stream_outputs {ω : Type} {subject : ω} {data : Bytes} {outcome : Except Error Bytes}
    {after : Scene ω} (hs : token.Streams direction here.handle machine view)
    (hactive : (here.operation direction.kind).isActive = true)
    (hroom : ∀ output ∈ machine.outputs (view t) (chunks here.limits.chunkSize data),
      output.length ≤ 16 * here.limits.scratchSize)
    (hgoes : (stream direction data).Goes ⟨here, subject⟩ es outcome after)
    (hanswers : token.Answers t es u) :
    outcome = .ok (machine.outputs (view t) (chunks here.limits.chunkSize data)).flatten ∧
      after = ⟨here.withOperation direction.kind (here.operation direction.kind).abandon, subject⟩ ∧
      Wrote direction (scratchAfter here.limits.scratchSize
          (machine.outputs (view t) (chunks here.limits.chunkSize data)))
        (chunks here.limits.chunkSize data)
        (machine.outputs (view t) (chunks here.limits.chunkSize data)) es := by
  obtain ⟨streamed, left, hchunks, rfl, rfl⟩ := stream_cases hgoes
  obtain ⟨rfl, hleft, hwrote⟩ := streamChunks_outputs hs hactive (by simp) hroom hchunks hanswers
  refine ⟨?_, by simp [hleft], by simpa using hwrote⟩
  rw [Except.map, OutputBuffer.bytes_extendAll]
  rfl

/-- A whole text through a token whose stream is a machine, once the token has begun it and as long as
there is memory for its buffers: the result is what the machine gives for the pieces of the text, and
the token has accepted each piece once, in order. No buffer was larger than a buffer may be. Where
what a machine gives does not depend on how a text is cut, neither does the result. -/
theorem cipherAll_outputs {session begun : Session} {mechanism used : Mechanism} {key : Object}
    {data : Bytes} {first : List Exchange}
    (hs : token.Streams direction session.handle machine view)
    (hfirst : ((startWith direction.kind key).perform session mechanism).run token t =
      ((.ok (), ⟨begun, used⟩), first, u))
    (hroom : ∀ output ∈ machine.outputs (view u) (chunks session.limits.chunkSize data),
      output.length ≤ 16 * session.limits.scratchSize)
    (hmemory : session.limits.Provides data
      (machine.outputs (view u) (chunks session.limits.chunkSize data))) :
    ∃ ended rest v, ((cipherAll direction key data).perform session mechanism).run token t =
        ((.ok (machine.outputs (view u) (chunks session.limits.chunkSize data)).flatten,
          ⟨ended, used⟩), first ++ rest, v) ∧
      ended.phase direction.kind = .finalized ∧
      acceptedInputs direction (first ++ rest) = chunks session.limits.chunkSize data ∧
      (acceptedInputs direction (first ++ rest)).flatten = data ∧
      (∀ piece ∈ acceptedInputs direction (first ++ rest),
        1 ≤ piece.length ∧ piece.length ≤ max 1 session.limits.maxChunk.toNat) ∧
      session.limits.InMemory data (first ++ rest) ∧
      ∀ whole, (∀ pieces : List Bytes, pieces.flatten = data → [] ∉ pieces →
          (machine.outputs (view u) pieces).flatten = whole) →
        (machine.outputs (view u) (chunks session.limits.chunkSize data)).flatten = whole := by
  obtain ⟨hgoes, hanswers⟩ := Talk.run_eq_iff.mp hfirst
  obtain ⟨native, handle, reply, m, rfl, hscene⟩ := startWith_accepted hgoes
  obtain ⟨rfl, rfl⟩ := Scene.mk.inj hscene
  dsimp only at hgoes hanswers
  obtain ⟨⟨⟨outcome, ended⟩, rest, v⟩, hrun⟩ : ∃ r, ((stream direction data).run.run
    ⟨session.withOperation direction.kind (.initialized used handle), used⟩).run token u = r :=
    ⟨_, rfl⟩
  obtain ⟨hstream, hasked⟩ := Talk.run_eq_iff.mp hrun
  have hbegun : token.Streams direction
      (session.withOperation direction.kind (.initialized used handle)).handle machine view := hs
  have hactive := session.isActive_initialized direction.kind used handle
  obtain ⟨rfl, rfl, hrest⟩ := stream_outputs hbegun hactive hroom hstream hasked
  have hwhole : (cipherAll direction key data).Goes ⟨session, mechanism⟩
    ([⟨.start direction.kind session.handle native handle, reply⟩] ++ rest) _ _ :=
    goes_bind.mpr (.inr ⟨(), _, _, rest, rfl, hgoes, hstream⟩)
  -- The first call is no write.
  have hnone : Wrote direction 0 [] []
      [⟨.start direction.kind session.handle native handle, reply⟩] :=
    ⟨by simp [Exchange.room?], rfl, rfl⟩
  have hwrote := hnone.append hrest (Nat.zero_le _)
  have haccepted : acceptedInputs direction
      ([⟨.start direction.kind session.handle native handle, reply⟩] ++ rest) =
      chunks session.limits.chunkSize data := hwrote.accepted
  refine ⟨_, rest, v, Talk.run_eq_iff.mpr ⟨hwhole, Token.answers_append.mpr ⟨u, hanswers, hasked⟩⟩,
    by simp [Session.phase], haccepted, ?_, ?_, inMemory_of_wrote hmemory hwrote, fun whole hwhole => ?_⟩
  · rw [haccepted, chunks_flatten]
  · rw [haccepted]
    exact fun piece hpiece => StreamLimits.length_of_mem_chunks hpiece
  · exact hwhole _ (chunks_flatten _ data) (nil_not_mem_chunks _ data)

/-- A block cipher's framing: full blocks of four come out, the rest is held back and filled up. -/
def framing : StreamMachine Bytes where
  update held input :=
    let all := held ++ input
    (all.drop (all.length / 4 * 4), all.take (all.length / 4 * 4))
  final held := held ++ List.replicate (4 - held.length) (UInt8.ofNat (4 - held.length))

/-- A session that takes two bytes at a time and gives them no more room. -/
def narrow : Session := .ofHandle 1 0 ⟨2, 0⟩ .empty

theorem cipherAll_outputs_framing :
    (∀ output ∈ framing.outputs (id []) (chunks narrow.limits.chunkSize [1, 2, 3, 4, 5]),
      output.length ≤ 16 * narrow.limits.scratchSize) ∧
    narrow.limits.Provides [1, 2, 3, 4, 5]
      (framing.outputs (id []) (chunks narrow.limits.chunkSize [1, 2, 3, 4, 5])) ∧
    ∃ ended exchanges held, ((cipherAll .encrypt (.ofHandle (.secretKey .aes) 7)
        [1, 2, 3, 4, 5]).perform narrow ⟨0x1081, none⟩).run framing.asToken [] =
        ((.ok [1, 2, 3, 4, 5, 3, 3, 3], ⟨ended, ⟨0x1081, none⟩⟩), exchanges, held) ∧
      ended.phase .encrypt = .finalized ∧
      acceptedInputs .encrypt exchanges = [[1, 2], [3, 4], [5]] := by
  have hpieces : chunks narrow.limits.chunkSize [1, 2, 3, 4, 5] = [[1, 2], [3, 4], [5]] := by
    simp [chunks, narrow, Session.ofHandle, StreamLimits.chunkSize]
  have hroom : ∀ output ∈ framing.outputs (id [])
      (chunks narrow.limits.chunkSize [1, 2, 3, 4, 5]),
      output.length ≤ 16 * narrow.limits.scratchSize := by
    rw [hpieces]
    decide
  have hmemory : narrow.limits.Provides [1, 2, 3, 4, 5]
      (framing.outputs (id []) (chunks narrow.limits.chunkSize [1, 2, 3, 4, 5])) := by
    rw [hpieces]
    exact StreamLimits.provides_of_le (by decide) (by decide)
  have hfirst : ((startWith .encrypt (.ofHandle (.secretKey .aes) 7)).perform narrow
      ⟨0x1081, none⟩).run framing.asToken [] =
      ((.ok (), ⟨narrow.withOperation .encrypt (.initialized ⟨0x1081, none⟩ (some 7)),
        ⟨0x1081, none⟩⟩),
        [⟨.start .encrypt 1 ⟨0x1081, .none⟩ (some 7), ⟨.ok (), .none⟩⟩], []) := rfl
  refine ⟨hroom, hmemory, ?_⟩
  obtain ⟨ended, rest, held, hrun, hphase, hinputs, -⟩ :=
    cipherAll_outputs (framing.asToken_streams .encrypt narrow.handle) hfirst hroom hmemory
  rw [hpieces] at hrun hinputs
  exact ⟨ended, _, held, hrun, hphase, hinputs⟩

end Action

end Cryptoki
