import Cryptoki.Proofs.Session.Courses

/-! The memory for a whole text: what its buffers are given at first, and what they grow to. There is
enough where none of them ever has to be larger than a buffer may be. -/
namespace Cryptoki

namespace StreamLimits

variable {l : StreamLimits} {length : Nat}

theorem roomFor_of_lt (h : length + l.slack.toNat < UInt64.size) :
    l.roomFor length = length + l.slack.toNat := Nat.mod_eq_of_lt h

/-- A sum that begins at zero again is short of one whole turn. -/
theorem roomFor_of_le (hlength : length < UInt64.size)
    (h : UInt64.size ≤ length + l.slack.toNat) :
    l.roomFor length + UInt64.size = length + l.slack.toNat := by
  have hslack := l.slack.toNat_lt_size
  have hleft : length + l.slack.toNat - UInt64.size < UInt64.size := by omega
  rw [roomFor, Nat.mod_eq_sub_mod h, Nat.mod_eq_of_lt hleft, Nat.sub_add_cancel h]

/-- The room for a length is what it should be: it has all of the slack, and there are buffers of
that size. -/
structure Affords (l : StreamLimits) (length : Nat) : Prop where
  whole : l.roomFor length = length + l.slack.toNat
  fits : l.roomFor length ≤ maxBuffer

theorem maxBuffer_lt_size : maxBuffer < UInt64.size := by decide

theorem affords_iff : l.Affords length ↔ length + l.slack.toNat ≤ maxBuffer := by
  constructor
  · rintro ⟨hwhole, hfits⟩
    exact hwhole ▸ hfits
  · intro h
    have hwhole := roomFor_of_lt (Nat.lt_of_le_of_lt h maxBuffer_lt_size)
    exact ⟨hwhole, hwhole ▸ h⟩

instance : Decidable (l.Affords length) := decidable_of_iff _ affords_iff.symm

example : standard.Affords standard.chunkSize := by decide

/-- What else the room for a length can be: no size of a buffer, or smaller than either of the two
that were added. -/
theorem not_affords_iff (hlength : length < UInt64.size) :
    ¬ l.Affords length ↔ maxBuffer < l.roomFor length ∨
      (UInt64.size ≤ length + l.slack.toNat ∧ l.roomFor length < length ∧
        l.roomFor length < l.slack.toNat) := by
  have hslack := l.slack.toNat_lt_size
  have hmax := maxBuffer_lt_size
  rw [affords_iff]
  by_cases hover : UInt64.size ≤ length + l.slack.toNat
  · have hroom := roomFor_of_le hlength hover
    omega
  · have hroom := roomFor_of_lt (Nat.lt_of_not_le hover)
    omega

end StreamLimits

namespace OutputBuffer

def extendAll (b : OutputBuffer) (outputs : List Bytes) : OutputBuffer := outputs.foldl extend b

theorem extendAll_cons (b : OutputBuffer) (output : Bytes) (outputs : List Bytes) :
    b.extendAll (output :: outputs) = (b.extend output).extendAll outputs := rfl

theorem bytes_extendAll (b : OutputBuffer) (outputs : List Bytes) :
    (b.extendAll outputs).bytes = b.bytes ++ outputs.flatten := by
  induction outputs generalizing b with
  | nil => simp [extendAll]
  | cons output outputs ih =>
    rw [extendAll_cons, ih, List.flatten_cons, ← List.append_assoc]
    rfl

/-- A room that was doubled was too small, so that it is less than twice what is in it. -/
theorem capacity_extend_le (b : OutputBuffer) (more : Bytes) :
    (b.extend more).capacity ≤ max b.capacity (max (2 * (b.extend more).bytes.length) 8) := by
  simp only [extend, List.length_append]
  split <;> omega

theorem capacity_extendAll_le (b : OutputBuffer) (outputs : List Bytes) :
    (b.extendAll outputs).capacity ≤
      max b.capacity (max (2 * (b.extendAll outputs).bytes.length) 8) := by
  induction outputs generalizing b with
  | nil => exact Nat.le_max_left _ _
  | cons output outputs ih =>
    have hfirst := b.capacity_extend_le output
    have hrest := ih (b.extend output)
    have hbytes := congrArg List.length ((b.extend output).bytes_extendAll outputs)
    rw [List.length_append] at hbytes
    rw [extendAll_cons]
    omega

end OutputBuffer

namespace Action

/-- The size that a buffer grows to for an output, with so many tries to grow. -/
def enlarged : Nat → Nat → Nat → Nat
  | 0, size, _ => size
  | n + 1, size, need => if need ≤ size then size else enlarged n (grownSize size) need

theorem le_enlarged (n size need : Nat) : size ≤ enlarged n size need := by
  induction n generalizing size with
  | zero => exact Nat.le_refl size
  | succ n ih =>
    have hgrown := ih (grownSize size)
    simp only [enlarged, grownSize] at hgrown ⊢
    split <;> omega

/-- A size that was doubled was smaller than the output. -/
theorem enlarged_le (n size need : Nat) : enlarged n size need ≤ max size (max (2 * need) 16) := by
  induction n generalizing size with
  | zero => exact Nat.le_max_left _ _
  | succ n ih =>
    have hgrown := ih (grownSize size)
    simp only [enlarged, grownSize] at hgrown ⊢
    split <;> omega

/-- The size of the scratch buffer after some outputs, each of which has got the room that it
needs. -/
def scratchAfter (size : Nat) (outputs : List Bytes) : Nat :=
  outputs.foldl (fun size output => enlarged maxGrowth size output.length) size

theorem le_scratchAfter (size : Nat) (outputs : List Bytes) : size ≤ scratchAfter size outputs := by
  induction outputs generalizing size with
  | nil => exact Nat.le_refl size
  | cons output outputs ih => exact Nat.le_trans (le_enlarged _ _ _) (ih _)

theorem scratchAfter_le (size : Nat) (outputs : List Bytes) :
    scratchAfter size outputs ≤ max size (max (2 * outputs.flatten.length) 16) := by
  induction outputs generalizing size with
  | nil => exact Nat.le_max_left _ _
  | cons output outputs ih =>
    have hrest : scratchAfter size (output :: outputs) ≤
        max (enlarged maxGrowth size output.length) (max (2 * outputs.flatten.length) 16) := ih _
    have hfirst := enlarged_le maxGrowth size output.length
    rw [List.flatten_cons, List.length_append]
    omega

end Action

/-- There is memory for a whole text that has these outputs: both sums of sizes are what they should
be, and neither buffer grows to more than a buffer may have. -/
structure StreamLimits.Provides (l : StreamLimits) (data : Bytes) (outputs : List Bytes) :
    Prop where
  text : l.Affords data.length
  chunk : l.Affords l.chunkSize
  output : ((OutputBuffer.ofCapacity (l.roomFor data.length)).extendAll outputs).capacity ≤ maxBuffer
  scratch : Action.scratchAfter l.scratchSize outputs ≤ maxBuffer

/-- Memory for the two sizes and for twice the outputs is enough. -/
theorem StreamLimits.provides_of_le {l : StreamLimits} {data : Bytes} {outputs : List Bytes}
    (hsizes : max data.length l.chunkSize + l.slack.toNat ≤ maxBuffer)
    (houtputs : 2 * outputs.flatten.length ≤ maxBuffer) : l.Provides data outputs := by
  have htext : l.Affords data.length := affords_iff.mpr (by omega)
  have hchunk : l.Affords l.chunkSize := affords_iff.mpr (by omega)
  have hleast : 16 ≤ maxBuffer := by decide
  refine ⟨htext, hchunk, ?_, ?_⟩
  · have hgrown := (OutputBuffer.ofCapacity (l.roomFor data.length)).capacity_extendAll_le outputs
    have hroom : (OutputBuffer.ofCapacity (l.roomFor data.length)).capacity ≤ maxBuffer :=
      htext.fits
    rw [OutputBuffer.bytes_extendAll] at hgrown
    simp only [OutputBuffer.ofCapacity, List.nil_append] at hgrown hroom ⊢
    omega
  · have hgrown := Action.scratchAfter_le l.scratchSize outputs
    have hroom : l.scratchSize ≤ maxBuffer := hchunk.fits
    omega

/-- The room that a write was given. -/
def Exchange.room? : Exchange → Option Nat
  | ⟨.cipherUpdate _ _ _ window, _⟩ | ⟨.cipherFinal _ _ window, _⟩ => some window.length
  | _ => none

/-- What a write that was accepted leaves at the start of its window, as far as it is counted. -/
def Delivery.taken? (delivery : Delivery) (window : Bytes) : Option Bytes :=
  match delivery.outcome with
  | .ok n => some ((overwrite window delivery.output).take n)
  | .error _ => none

def Exchange.taken? : Exchange → Option Bytes
  | ⟨.cipherUpdate _ _ _ window, delivery⟩ | ⟨.cipherFinal _ _ window, delivery⟩ =>
    delivery.taken? window
  | _ => none

/-- The outputs that were taken in some exchanges. -/
def takenOutputs (es : List Exchange) : List Bytes := es.filterMap Exchange.taken?

/-- A whole text with these exchanges has stayed within memory. A copy of the output takes no more than
the buffer that it is in. -/
structure StreamLimits.InMemory (l : StreamLimits) (data : Bytes) (es : List Exchange) : Prop where
  text : l.Affords data.length
  chunk : l.Affords l.chunkSize
  output : ((OutputBuffer.ofCapacity (l.roomFor data.length)).extendAll
    (takenOutputs es)).capacity ≤ maxBuffer
  scratch : ∀ x ∈ es, ∀ room, x.room? = some room → room ≤ maxBuffer

end Cryptoki
