import Cryptoki.Mechanism.Returned
import Cryptoki.Proofs.Mechanism.NativeForm

/-! What a mechanism keeps of what a token writes through it. All else of it stays. -/
namespace Cryptoki

/-- A reply to a call with a mechanism, but for the result of the call. -/
structure MechanismReply where
  accepted : Bool
  write : MechanismWrite

def Mechanism.Reply.toMechanism {α : Type} (r : Mechanism.Reply α) : MechanismReply :=
  ⟨r.outcome.isOk, r.write⟩

section InPlace

/-- The bytes of a buffer after data was written at its start, as far as there is room. -/
structure InPlace (data before after : Bytes) : Prop where
  length : after.length = before.length
  written : ∀ i < before.length, ∀ h : i < data.length, after[i]? = some data[i]
  kept : ∀ i, data.length ≤ i → after[i]? = before[i]?

theorem inPlace_overwrite (data buffer : Bytes) : InPlace data buffer (overwrite buffer data) where
  length := length_overwrite buffer data
  written i hi h := by
    have hmin : i < min buffer.length data.length := Nat.lt_min.mpr ⟨hi, h⟩
    rw [overwrite, List.getElem?_append_left (by simpa using hmin), List.getElem?_take_of_lt hi,
      List.getElem?_eq_getElem h]
  kept i hi := by
    rcases Nat.lt_or_ge i buffer.length with hroom | hend
    · have htaken : (data.take buffer.length).length = data.length := by
        simp only [List.length_take]
        omega
      rw [overwrite, List.getElem?_append_right (by omega), htaken, List.getElem?_drop,
        Nat.add_sub_cancel' hi]
    · rw [List.getElem?_eq_none hend, List.getElem?_eq_none (by rwa [length_overwrite])]

end InPlace

section Fixed

def zeros (bs : Bytes) : Bytes := List.replicate bs.length 0

theorem zeros_overwrite (buffer data : Bytes) : zeros (overwrite buffer data) = zeros buffer := by
  rw [zeros, zeros, length_overwrite]

/-- What no token can change of a block: all but the version, the handles and the bytes of IVs. -/
def KeyMaterial.fixed (p : KeyMaterial) : KeyMaterial :=
  { p with
    returned := .ofBuffers (zeros p.returned.clientIv) (zeros p.returned.serverIv)
    iv_fits := by simpa [ReturnedKeys.Fits, ReturnedKeys.ofBuffers, zeros] using p.iv_fits }

def ParameterBlock.fixed : ParameterBlock → ParameterBlock
  | .masterKeyDerive p => .masterKeyDerive (.make p.random)
  | .tls12MasterKeyDerive p prf => .tls12MasterKeyDerive (.make p.random) prf
  | .keyMaterial p => .keyMaterial p.fixed
  | .tls12KeyMaterial p prf => .tls12KeyMaterial p.fixed prf
  | .initializationVector iv => .initializationVector (zeros iv)
  | b => b

def Mechanism.fixed (m : Mechanism) : Mechanism :=
  { m with parameters := m.parameters.map ParameterBlock.fixed }

theorem Mechanism.family?_fixed (m : Mechanism) : m.fixed.family? = m.family? := by
  obtain ⟨id, _ | b⟩ := m
  · rfl
  · cases b <;> rfl

def ParameterBlock.keyMaterial? : ParameterBlock → Option KeyMaterial
  | .keyMaterial p | .tls12KeyMaterial p _ => some p
  | _ => none

def Mechanism.keyMaterial? (m : Mechanism) : Option KeyMaterial :=
  m.parameters.bind ParameterBlock.keyMaterial?

theorem Mechanism.keyMaterial?_fixed (m : Mechanism) :
    m.fixed.keyMaterial? = m.keyMaterial?.map KeyMaterial.fixed := by
  obtain ⟨id, _ | b⟩ := m
  · rfl
  · cases b <;> rfl

/-- Both buffers for IVs stay as long as the size in bits says. -/
theorem Mechanism.ivs_of_fixed {m m' : Mechanism} (h : m'.fixed = m.fixed) {p : KeyMaterial}
    (hp : m'.keyMaterial? = some p) : ∃ q, m.keyMaterial? = some q ∧
      p.returned.clientIv.length = q.ivBits.toNat / 8 ∧
      p.returned.serverIv.length = q.ivBits.toNat / 8 := by
  have hkeys : m'.keyMaterial?.map KeyMaterial.fixed = m.keyMaterial?.map KeyMaterial.fixed := by
    rw [← keyMaterial?_fixed, h, keyMaterial?_fixed]
  rw [hp] at hkeys
  obtain ⟨q, hq, hfixed⟩ := Option.map_eq_some_iff.mp hkeys.symm
  have hbits : q.fixed.ivBits = p.fixed.ivBits := by rw [hfixed]
  replace hbits : q.ivBits = p.ivBits := hbits
  obtain ⟨hclient, hserver⟩ := p.iv_fits
  refine ⟨q, hq, ?_, ?_⟩ <;> rw [hbits] <;> omega

end Fixed

section Blank

def blanked (pointer : Option Bytes) : Option Bytes := pointer.map zeros

def NativeKeyMaterial.blank (k : NativeKeyMaterial) : NativeKeyMaterial :=
  { k with
    returned := { k.returned with
      clientIv := blanked k.returned.clientIv
      serverIv := blanked k.returned.serverIv } }

/-- The native form without the bytes of the IVs that a token may write. -/
def NativeParameters.blank : NativeParameters → NativeParameters
  | .bytes iv => .bytes { iv with pointer := blanked iv.pointer }
  | .keyMaterial k => .keyMaterial k.blank
  | .tls12KeyMaterial k prf => .tls12KeyMaterial k.blank prf
  | n => n

def NativeMechanism.blank (n : NativeMechanism) : NativeMechanism :=
  { n with parameters := n.parameters.blank }

theorem pointerTo_zeros (bs : Bytes) : pointerTo (zeros bs) = blanked (pointerTo bs) := by
  by_cases h : bs = [] <;> simp [pointerTo, blanked, zeros, h]

theorem KeyMaterial.toNative_fixed (p : KeyMaterial) : p.fixed.toNative = p.toNative.blank := by
  have hclient := pointerTo_zeros p.returned.clientIv
  have hserver := pointerTo_zeros p.returned.serverIv
  simp only [fixed, toNative, NativeKeyMaterial.blank, ReturnedKeys.ofBuffers, hclient, hserver]

theorem ParameterBlock.toNative_fixed (b : ParameterBlock) :
    b.fixed.toNative = b.toNative.blank := by
  cases b with
  | keyMaterial p => exact congrArg NativeParameters.keyMaterial p.toNative_fixed
  | tls12KeyMaterial p prf =>
    exact congrArg (NativeParameters.tls12KeyMaterial · prf) p.toNative_fixed
  | initializationVector iv =>
    have hlength : (zeros iv).length = iv.length := List.length_replicate
    simp only [fixed, toNative, NativeParameters.blank, Buffer.ofBytes, pointerTo_zeros, hlength]
  | cbcEncryptData p =>
    have hfixed : (cbcEncryptData p).fixed = .cbcEncryptData p := rfl
    rcases p.toNative_cases with h | h <;> · rw [hfixed, h]; rfl
  | _ => rfl

theorem Mechanism.nativeForm_fixed (m : Mechanism) : m.fixed.nativeForm = m.nativeForm.blank := by
  obtain ⟨id, _ | b⟩ := m
  · rfl
  · exact congrArg (NativeMechanism.mk id) b.toNative_fixed

/-- What is fixed of a mechanism decides what it is marshalled to, but for the bytes of IVs. -/
theorem Mechanism.toNative_fixed (m : Mechanism) (host : HostLayouts) :
    m.fixed.toNative host = (m.toNative host).map NativeMechanism.blank := by
  have hid : m.fixed.id = m.id := rfl
  cases h : m.toNative host with
  | error e =>
    rw [toNative_eq_error_iff] at h
    exact toNative_eq_error_iff.mpr (by rwa [m.family?_fixed, hid])
  | ok native =>
    obtain ⟨hadmits, hsupports, rfl⟩ := toNative_eq_ok_iff.mp h
    refine toNative_eq_ok_iff.mpr ⟨?_, ?_, m.nativeForm_fixed⟩
    · rwa [m.family?_fixed, hid]
    · rwa [m.family?_fixed]

end Blank

section Reflection

def KeyHandles.toList (h : KeyHandles) : List Handle :=
  [h.clientMac, h.serverMac, h.clientKey, h.serverKey]

theorem validHandle?_eq_some_iff {written h : Handle} :
    validHandle? written = some h ↔ written = h ∧ h ≠ 0 := by
  by_cases hzero : written = 0
  · simp only [validHandle?, hzero, if_pos]
    constructor
    · rintro ⟨⟩
    · rintro ⟨rfl, h⟩
      exact absurd rfl h
  · simp only [validHandle?, hzero, if_false, Option.some.injEq]
    constructor
    · rintro rfl
      exact ⟨rfl, hzero⟩
    · exact And.left

namespace ReturnedKeys

def handles (r : ReturnedKeys) : List (Option Handle) :=
  [r.clientMac, r.serverMac, r.clientKey, r.serverKey]

/-- IVs are written in any case. Handles are kept of an accepted call only, and only valid ones. -/
structure Reflects (r : MechanismReply) (before after : ReturnedKeys) : Prop where
  clientIv : InPlace r.write.clientIv before.clientIv after.clientIv
  serverIv : InPlace r.write.serverIv before.serverIv after.serverIv
  accepted : r.accepted = true →
    List.Forall₂ (fun kept written => ∀ h, kept = some h ↔ written = h ∧ h ≠ 0)
      after.handles (r.write.handles.getD .zero).toList
  refused : r.accepted = false → after.handles = before.handles

def answered (keys : ReturnedKeys) (r : MechanismReply) : ReturnedKeys :=
  if r.accepted then (keys.writeIvs r.write).takeHandles (r.write.handles.getD .zero)
  else keys.writeIvs r.write

theorem handles_takeHandles (keys : ReturnedKeys) (written : KeyHandles) :
    List.Forall₂ (fun kept written => ∀ h, kept = some h ↔ written = h ∧ h ≠ 0)
      (keys.takeHandles written).handles written.toList := by
  have hmap : (keys.takeHandles written).handles = written.toList.map validHandle? := rfl
  rw [hmap, List.forall₂_map_left_iff, List.forall₂_same]
  exact fun _ _ _ => validHandle?_eq_some_iff

theorem reflects_answered (keys : ReturnedKeys) (r : MechanismReply) :
    Reflects r keys (keys.answered r) := by
  have hclient := inPlace_overwrite r.write.clientIv keys.clientIv
  have hserver := inPlace_overwrite r.write.serverIv keys.serverIv
  cases haccepted : r.accepted with
  | true =>
    have hkeys : keys.answered r =
        (keys.writeIvs r.write).takeHandles (r.write.handles.getD .zero) := if_pos haccepted
    rw [hkeys]
    refine ⟨hclient, hserver, fun _ => handles_takeHandles _ _, fun h => ?_⟩
    cases haccepted.symm.trans h
  | false =>
    have hkeys : keys.answered r = keys.writeIvs r.write := if_neg (by simp [haccepted])
    rw [hkeys]
    refine ⟨hclient, hserver, fun h => ?_, fun _ => rfl⟩
    cases haccepted.symm.trans h

end ReturnedKeys

theorem KeyMaterial.fixed_writeIvs (p : KeyMaterial) (w : MechanismWrite) :
    (p.writeIvs w).fixed = p.fixed := by
  have hclient := zeros_overwrite p.returned.clientIv w.clientIv
  have hserver := zeros_overwrite p.returned.serverIv w.serverIv
  simp only [fixed, writeIvs, ReturnedKeys.writeIvs, hclient, hserver]

namespace ParameterBlock

/-- The block after a call that the token has answered. -/
def answered (b : ParameterBlock) (r : MechanismReply) : ParameterBlock :=
  if r.accepted then (b.written r.write).completed r.write else b.written r.write

/-- An IV that is all there is of a block. -/
def iv? : ParameterBlock → Option Bytes
  | .initializationVector iv => some iv
  | _ => none

theorem fixed_writeOutputs (b : ParameterBlock) (w : MechanismWrite) :
    (b.writeOutputs w).fixed = b.fixed := by
  cases b with
  | keyMaterial p => exact congrArg ParameterBlock.keyMaterial (p.fixed_writeIvs w)
  | tls12KeyMaterial p prf =>
    exact congrArg (ParameterBlock.tls12KeyMaterial · prf) (p.fixed_writeIvs w)
  | initializationVector iv =>
    exact congrArg ParameterBlock.initializationVector (zeros_overwrite iv w.bytes)
  | _ => rfl

theorem writeInputs_none (b : ParameterBlock) : b.writeInputs .none = b := by
  have hrandom : ∀ r : RandomData, r.written .none = r := by
    intro r
    simp only [RandomData.written, InputWrite.none, overwrite_nil]
  cases b with
  | randomData r => exact congrArg ParameterBlock.randomData (hrandom r)
  | masterKeyDerive p | tls12MasterKeyDerive p prf =>
    simp only [writeInputs, MasterKeyDerivation.written, hrandom]
  | keyMaterial p | tls12KeyMaterial p prf =>
    simp only [writeInputs, KeyMaterial.written, hrandom]
  | cbcEncryptData p =>
    simp only [writeInputs, CbcEncryptData.written, InputWrite.none, overwrite_nil]
  | rsaOaep p =>
    simp only [writeInputs, RsaOaep.written, InputWrite.none, overwrite_nil, Option.map_id']
  | gcm p => simp only [writeInputs, Gcm.written, InputWrite.none, overwrite_nil]
  | ccm p => simp only [writeInputs, Ccm.written, InputWrite.none, overwrite_nil]
  | _ => rfl

/-- A token that writes outputs only. -/
theorem fixed_written (b : ParameterBlock) {w : MechanismWrite} (h : w.inputs = .none) :
    (b.written w).fixed = b.fixed := by
  rw [written, h, writeInputs_none, fixed_writeOutputs]

theorem fixed_completed (b : ParameterBlock) (w : MechanismWrite) :
    (b.completed w).fixed = b.fixed := by
  cases b <;> rfl

variable (b : ParameterBlock) (r : MechanismReply)

theorem fixed_answered (h : r.write.inputs = .none) : (b.answered r).fixed = b.fixed := by
  rw [answered]
  split
  · rw [fixed_completed, b.fixed_written h]
  · exact b.fixed_written h

theorem negotiated?_answered : (b.answered r).negotiated? =
    b.negotiated?.map fun v => if r.accepted then r.write.version.getD .zero else v := by
  cases haccepted : r.accepted <;> rw [answered, haccepted] <;> cases b <;> rfl

theorem returnedKeys?_answered :
    (b.answered r).returnedKeys? = b.returnedKeys?.map (·.answered r) := by
  simp only [answered, ReturnedKeys.answered]
  cases r.accepted <;> cases b <;> rfl

theorem iv?_answered : (b.answered r).iv? = b.iv?.map (overwrite · r.write.bytes) := by
  rw [answered]
  cases r.accepted <;> cases b <;> rfl

end ParameterBlock

theorem rel_map {α : Type} {R : α → α → Prop} {f : α → α} (h : ∀ a, R a (f a)) (x : Option α) :
    Option.Rel R x (x.map f) := by
  cases x with
  | none => exact .none
  | some a => exact .some (h a)

namespace Mechanism

/-- The mechanism after a call that the token has answered. -/
def answered (m : Mechanism) (r : MechanismReply) : Mechanism :=
  { m with parameters := m.parameters.map (·.answered r) }

def negotiated? (m : Mechanism) : Option Version := m.parameters.bind ParameterBlock.negotiated?

def returnedKeys? (m : Mechanism) : Option ReturnedKeys :=
  m.parameters.bind ParameterBlock.returnedKeys?

def iv? (m : Mechanism) : Option Bytes := m.parameters.bind ParameterBlock.iv?

/-- What a reply of the token makes of a mechanism. A version is kept of an accepted call only, and
is zero if the token has written none. -/
structure Reflects (r : MechanismReply) (before after : Mechanism) : Prop where
  fixed : after.fixed = before.fixed
  version : after.negotiated? =
    before.negotiated?.map fun v => if r.accepted then r.write.version.getD .zero else v
  keys : Option.Rel (ReturnedKeys.Reflects r) before.returnedKeys? after.returnedKeys?
  iv : Option.Rel (InPlace r.write.bytes) before.iv? after.iv?

theorem reflects_answered (m : Mechanism) {r : MechanismReply} (h : r.write.inputs = .none) :
    Reflects r m (m.answered r) := by
  obtain ⟨id, _ | b⟩ := m
  · exact ⟨rfl, rfl, .none, .none⟩
  · refine ⟨?_, b.negotiated?_answered r, ?_, ?_⟩
    · exact congrArg (fun p => Mechanism.mk id (some p)) (b.fixed_answered r h)
    · have hkeys := rel_map (fun keys => keys.reflects_answered r) b.returnedKeys?
      rwa [← b.returnedKeys?_answered r] at hkeys
    · have hiv := rel_map (fun iv => inPlace_overwrite r.write.bytes iv) b.iv?
      rwa [← b.iv?_answered r] at hiv

theorem answered_of_ok {α : Type} {m : Mechanism} {r : Reply α} {a : α} (h : r.outcome = .ok a) :
    m.answered r.toMechanism = (m.written r.write).completed r.write := by
  simp [answered, written, completed, Reply.toMechanism, h, Except.isOk, Except.toBool,
    ParameterBlock.answered, Function.comp_def]

theorem answered_of_error {α : Type} {m : Mechanism} {r : Reply α} {s : Status}
    (h : r.outcome = .error s) : m.answered r.toMechanism = m.written r.write := by
  simp [answered, written, Reply.toMechanism, h, Except.isOk, Except.toBool,
    ParameterBlock.answered]

end Mechanism

end Reflection

end Cryptoki
