import Cryptoki.Session.Action

/-! Encryption and decryption: into a buffer of the caller call by call, or a whole text at once. -/
namespace Cryptoki

/-- The most bytes that a buffer may have. A call that asks for more does not come back. Here every
call does, since a list may have any length: what is said of a call is so as long as its buffers stay
within this. -/
def maxBuffer : Nat := UInt64.size / 2 - 1

/-- A buffer that outputs are added to, with the room that was set aside for them. -/
structure OutputBuffer where
  bytes : Bytes
  capacity : Nat
  fits : bytes.length ≤ capacity

namespace OutputBuffer

def ofCapacity (n : Nat) : OutputBuffer := ⟨[], n, Nat.zero_le n⟩

/-- Where there is too little room it is doubled, or made as large as it has to be if that is more. -/
def extend (b : OutputBuffer) (more : Bytes) : OutputBuffer :=
  let length := b.bytes.length + more.length
  ⟨b.bytes ++ more,
    if length ≤ b.capacity then b.capacity else max (max (2 * b.capacity) length) 8, by
      rw [List.length_append]
      split <;> omega⟩

end OutputBuffer

namespace Action

/-- Hands the token the buffer from an offset on, and takes what it writes there. -/
def deliver (offset : Nat) (call : Bytes → Talk Delivery) :
    StateT (Scene Bytes) Talk (Except Status Nat) := do
  let ⟨session, buffer⟩ ← get
  let window := buffer.drop offset
  let delivery ← call window
  set (Scene.mk session (buffer.take offset ++ overwrite window delivery.output))
  return delivery.outcome

/-- A call that writes into the buffer from an offset on. A count of more bytes than there were
room for ends the operation. -/
def writeFrom (direction : Direction) (last : Bool) (offset : Nat)
    (call : Handle → Bytes → Talk Delivery) : Action Bytes Nat := do
  let ⟨session, buffer⟩ ← get
  if offset ≤ buffer.length then
    let room := buffer.length - offset
    let written ← advance direction.kind last (deliver offset (call session.handle))
    if written ≤ room then return written
    else
      abandon direction.kind
      throw (.overreportedOutput written room)
  else throw (.invalidParameterLength .outputOffset buffer.length offset)

def cipherUpdate (direction : Direction) (input : Bytes) (offset : Nat) : Action Bytes Nat :=
  writeFrom direction false offset fun here window =>
    Talk.request (.cipherUpdate direction here input window)

def cipherFinal (direction : Direction) (offset : Nat) : Action Bytes Nat :=
  writeFrom direction true offset fun here window =>
    Talk.request (.cipherFinal direction here window)

/-- How often the buffer of a call may grow. -/
def maxGrowth : Nat := 4

def grownSize (size : Nat) : Nat := max (2 * size) 16

/-- A call that is made again with a larger buffer, filled with zeros, while the token asks for more
room. -/
def growing (call : Action Bytes Nat) : Nat → Action Bytes Nat
  | 0 => call
  | n + 1 => tryCatch call fun e => do
    if e = .deviceStatus Status.bufferTooSmall then
      setSubject (List.replicate (grownSize (← subject).length) 0)
      growing call n
    else throw e

/-- The output of a call into the buffer, from its start. -/
def collect (part : String) (call : Action Bytes Nat) : Action Bytes Bytes := do
  let written ← growing call maxGrowth
  let buffer ← subject
  if written ≤ buffer.length then return buffer.take written
  else throw (.other ("Failed to collect " ++ part ++ " output"))

/-- Adds the output of a chunk after the other, and of the final call. -/
def streamChunks (direction : Direction) : OutputBuffer → List Bytes → Action Bytes OutputBuffer
  | output, [] => do return output.extend (← collect "final" (cipherFinal direction 0))
  | output, c :: cs => do
    let piece ← collect "round" (cipherUpdate direction c 0)
    streamChunks direction (output.extend piece) cs

/-- An action after which the operation runs no more, however it went. -/
def abandoning (kind : OperationKind) (action : Action ω α) : Action ω α := ExceptT.mk do
  let outcome ← action.run
  let _ ← (abandon kind).run
  return outcome

/-- A whole text through an operation that was begun, in chunks that the token takes. The room set
aside for the output is that of the text and the slack. -/
def stream (direction : Direction) (data : Bytes) : Action ω Bytes := do
  let limits := (← session).limits
  let output := OutputBuffer.ofCapacity (limits.roomFor data.length)
  let scratch := List.replicate limits.scratchSize 0
  let (output, _) ← on scratch <|
    abandoning direction.kind (streamChunks direction output (chunks limits.chunkSize data))
  return output.bytes

def cipherAll (direction : Direction) (key : Object) (data : Bytes) : Action Mechanism Bytes := do
  startWith direction.kind key
  stream direction data

end Action

end Cryptoki
