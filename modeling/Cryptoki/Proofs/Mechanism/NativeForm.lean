import Cryptoki.Proofs.Mechanism.IvBuffers
import Cryptoki.Proofs.Mechanism.Marshalling
import Mathlib.Data.List.Forall2

/-! The native form tells all that a caller put into a mechanism: a block that has the same inputs
can be made from it. -/
namespace Cryptoki

theorem RandomData.make_parts (r : RandomData) : RandomData.make r.client r.server = .ok r := by
  rw [make, dif_neg r.client_ne, dif_neg r.server_ne]

theorem KeyMaterial.make_of_fits {macBits keyBits ivBits : Word} {isExport : Bool}
    {random : RandomData} {returned : ReturnedKeys} (h : returned.Fits ivBits) :
    KeyMaterial.make macBits keyBits ivBits isExport random returned =
      .ok ⟨macBits, keyBits, ivBits, isExport, random, returned, h⟩ := by
  rw [make, ReturnedKeys.checkBuffers_of_fits h]
  rfl

theorem CbcEncryptData.make_parts (p : CbcEncryptData) : CbcEncryptData.make p.iv p.data = .ok p :=
  dif_pos p.iv_length

theorem Gcm.make_parts (p : Gcm) : Gcm.make p.iv p.aad p.tagBits = .ok p := by
  rw [make, dif_pos ⟨p.tag_le, p.tag_whole⟩, dif_neg p.iv_ne]

theorem Ccm.make_parts (p : Ccm) : Ccm.make p.dataLength p.nonce p.aad p.macLength = .ok p := by
  rw [make, dif_pos p.nonce_length, dif_pos ⟨p.mac_range, p.mac_even⟩]

/-- The layout of a block for key derivation by encryption is one of two. -/
theorem CbcEncryptData.toNative_cases (p : CbcEncryptData) :
    (ParameterBlock.cbcEncryptData p).toNative = .desCbcEncryptData p.iv (.ofBytes p.data) ∨
      (ParameterBlock.cbcEncryptData p).toNative = .aesCbcEncryptData p.iv (.ofBytes p.data) := by
  rw [ParameterBlock.toNative]
  split
  · exact .inl rfl
  · exact .inr rfl

section Inputs

/-- The block without what a token returned through it, but for the bytes of the IVs. -/
def KeyMaterial.inputs (p : KeyMaterial) : KeyMaterial :=
  { p with
    returned := .ofBuffers p.returned.clientIv p.returned.serverIv
    iv_fits := p.iv_fits }

def ParameterBlock.inputs : ParameterBlock → ParameterBlock
  | .masterKeyDerive p => .masterKeyDerive (.make p.random)
  | .tls12MasterKeyDerive p prf => .tls12MasterKeyDerive (.make p.random) prf
  | .keyMaterial p => .keyMaterial p.inputs
  | .tls12KeyMaterial p prf => .tls12KeyMaterial p.inputs prf
  | b => b

def Mechanism.inputs (m : Mechanism) : Mechanism :=
  { m with parameters := m.parameters.map ParameterBlock.inputs }

/-- What a token returns makes no difference to the next native form. -/
theorem ParameterBlock.toNative_inputs (b : ParameterBlock) : b.inputs.toNative = b.toNative := by
  cases b <;> rfl

end Inputs

section Following

/-- What is pointed to, in place of the pointer: the null pointer points to no bytes. -/
def pointee (pointer : Option Bytes) : Option Bytes := some (pointer.getD [])

def Buffer.followed (b : Buffer) : Buffer := { b with pointer := pointee b.pointer }

def NativeRandom.followed (r : NativeRandom) : NativeRandom :=
  ⟨r.client.followed, r.server.followed⟩

def NativeKeyMaterial.followed (k : NativeKeyMaterial) : NativeKeyMaterial :=
  { k with
    random := k.random.followed
    returned := { k.returned with
      clientIv := pointee k.returned.clientIv
      serverIv := pointee k.returned.serverIv } }

/-- The same layout, numbers and lengths, with what is pointed to in place of the pointers. -/
def NativeParameters.followed : NativeParameters → NativeParameters
  | .none => .none
  | .version v => .version v
  | .bytes iv => .bytes iv.followed
  | .randomData r => .randomData r.followed
  | .masterKeyDerive r v => .masterKeyDerive r.followed v
  | .tls12MasterKeyDerive r v prf => .tls12MasterKeyDerive r.followed v prf
  | .keyMaterial k => .keyMaterial k.followed
  | .tls12KeyMaterial k prf => .tls12KeyMaterial k.followed prf
  | .desCbcEncryptData iv data => .desCbcEncryptData iv data.followed
  | .aesCbcEncryptData iv data => .aesCbcEncryptData iv data.followed
  | .rsaOaep hash mgf source label => .rsaOaep hash mgf source label.followed
  | .rsaPss hash mgf saltLength => .rsaPss hash mgf saltLength
  | .gcm iv ivBits aad tagBits => .gcm iv.followed ivBits aad.followed tagBits
  | .ccm dataLength nonce aad macLength => .ccm dataLength nonce.followed aad.followed macLength

def NativeMechanism.followed (n : NativeMechanism) : NativeMechanism :=
  { n with parameters := n.parameters.followed }

end Following

section Reading

def NativeRandom.read (r : NativeRandom) : Except Error RandomData :=
  RandomData.make r.client.contents r.server.contents

def NativeKeyMaterial.read (k : NativeKeyMaterial) : Except Error KeyMaterial := do
  let random ← k.random.read
  KeyMaterial.make k.macBits k.keyBits k.ivBits k.isExport random
    (.ofBuffers (k.returned.clientIv.getD []) (k.returned.serverIv.getD []))

/-- The parameters made anew from their native form. -/
def NativeParameters.read : NativeParameters → Except Error (Option ParameterBlock)
  | .none => return Option.none
  | .version v => return some (.version v)
  | .bytes iv => return some (.initializationVector iv.contents)
  | .randomData r => return some (.randomData (← r.read))
  | .masterKeyDerive r _ => return some (.masterKeyDerive (.make (← r.read)))
  | .tls12MasterKeyDerive r _ prf => return some (.tls12MasterKeyDerive (.make (← r.read)) prf)
  | .keyMaterial k => return some (.keyMaterial (← k.read))
  | .tls12KeyMaterial k prf => return some (.tls12KeyMaterial (← k.read) prf)
  | .desCbcEncryptData iv data | .aesCbcEncryptData iv data =>
    return some (.cbcEncryptData (← CbcEncryptData.make iv data.contents))
  | .rsaOaep hash mgf source label =>
    return some (.rsaOaep ⟨hash, mgf, if source = 1 then some label.contents else Option.none⟩)
  | .rsaPss hash mgf saltLength => return some (.rsaPss ⟨hash, mgf, saltLength⟩)
  | .gcm iv _ aad tagBits => return some (.gcm (← Gcm.make iv.contents aad.contents tagBits))
  | .ccm dataLength nonce aad macLength =>
    return some (.ccm (← Ccm.make dataLength nonce.contents aad.contents macLength))

/-- To read a native form is to follow its pointers. -/
theorem NativeParameters.read_followed (n : NativeParameters) : n.followed.read = n.read := by
  cases n <;> rfl

theorem contents_pointerTo (bs : Bytes) : (pointerTo bs).getD [] = bs :=
  Buffer.contents_ofBytes bs

theorem NativeRandom.read_toNative (r : RandomData) : r.toNative.read = .ok r := by
  have hmake := r.make_parts
  simpa [NativeRandom.read, RandomData.toNative, Buffer.contents_ofBytes] using hmake

theorem NativeKeyMaterial.read_toNative (p : KeyMaterial) : p.toNative.read = .ok p.inputs := by
  have hrandom : p.toNative.random.read = .ok p.random := NativeRandom.read_toNative p.random
  have hclient : p.toNative.returned.clientIv.getD [] = p.returned.clientIv := contents_pointerTo _
  have hserver : p.toNative.returned.serverIv.getD [] = p.returned.serverIv := contents_pointerTo _
  have hfits : (ReturnedKeys.ofBuffers p.returned.clientIv p.returned.serverIv).Fits p.ivBits :=
    p.iv_fits
  rw [NativeKeyMaterial.read, hrandom, hclient, hserver]
  exact KeyMaterial.make_of_fits hfits

theorem read_label (label : Option Bytes) :
    (if labelSource label = 1 then some (Buffer.ofBytes (label.getD [])).contents else none) =
      label := by
  cases label with
  | none => rfl
  | some bs => exact congrArg some (Buffer.contents_ofBytes bs)

/-- The checks of blocks pass again. What the block is made into has the same inputs. -/
theorem NativeParameters.read_toNative (b : ParameterBlock) :
    b.toNative.read = .ok (some b.inputs) := by
  cases b with
  | version v => rfl
  | randomData r =>
    simp only [ParameterBlock.toNative, read, NativeRandom.read_toNative]
    rfl
  | masterKeyDerive p =>
    simp only [ParameterBlock.toNative, read, NativeRandom.read_toNative]
    rfl
  | tls12MasterKeyDerive p prf =>
    simp only [ParameterBlock.toNative, read, NativeRandom.read_toNative]
    rfl
  | keyMaterial p =>
    simp only [ParameterBlock.toNative, read, NativeKeyMaterial.read_toNative]
    rfl
  | tls12KeyMaterial p prf =>
    simp only [ParameterBlock.toNative, read, NativeKeyMaterial.read_toNative]
    rfl
  | initializationVector iv =>
    simp only [ParameterBlock.toNative, read, Buffer.contents_ofBytes]
    rfl
  | cbcEncryptData p =>
    have hmake : (CbcEncryptData.make p.iv (Buffer.ofBytes p.data).contents) = .ok p := by
      rw [Buffer.contents_ofBytes, p.make_parts]
    rcases p.toNative_cases with h | h <;> · rw [h, read, hmake]; rfl
  | rsaOaep p =>
    simp only [ParameterBlock.toNative, read, read_label]
    rfl
  | rsaPss p => rfl
  | gcm p =>
    simp only [ParameterBlock.toNative, read, Buffer.contents_ofBytes, p.make_parts]
    rfl
  | ccm p =>
    simp only [ParameterBlock.toNative, read, Buffer.contents_ofBytes, p.make_parts]
    rfl

end Reading

section Layout

/-- A pointer and a length as they are for the bytes. -/
structure Buffer.Holds (b : Buffer) (bs : Bytes) : Prop where
  null : b.pointer = none ↔ bs = []
  contents : b.contents = bs
  length : b.length = bs.length

theorem Buffer.ofBytes_holds (bs : Bytes) : (Buffer.ofBytes bs).Holds bs where
  null := by by_cases h : bs = [] <;> simp [ofBytes, pointerTo, h]
  contents := contents_ofBytes bs
  length := rfl

def NativeRandom.buffers (r : NativeRandom) : List Buffer := [r.client, r.server]

/-- The IVs that a token returns have their length in bits. -/
def NativeKeyMaterial.buffers (k : NativeKeyMaterial) : List Buffer :=
  k.random.buffers ++
    [⟨k.returned.clientIv, k.ivBits.toNat / 8⟩, ⟨k.returned.serverIv, k.ivBits.toNat / 8⟩]

/-- All pointers to bytes in a native form, with their lengths. -/
def NativeParameters.buffers : NativeParameters → List Buffer
  | .none | .version _ | .rsaPss _ _ _ => []
  | .bytes iv => [iv]
  | .randomData r | .masterKeyDerive r _ | .tls12MasterKeyDerive r _ _ => r.buffers
  | .keyMaterial k | .tls12KeyMaterial k _ => k.buffers
  | .desCbcEncryptData _ data | .aesCbcEncryptData _ data => [data]
  | .rsaOaep _ _ _ label => [label]
  | .gcm iv _ aad _ => [iv, aad]
  | .ccm _ nonce aad _ => [nonce, aad]

def RandomData.buffers (r : RandomData) : List Bytes := [r.client, r.server]

def KeyMaterial.buffers (p : KeyMaterial) : List Bytes :=
  p.random.buffers ++ [p.returned.clientIv, p.returned.serverIv]

/-- The bytes that a native form points to. -/
def ParameterBlock.buffers : ParameterBlock → List Bytes
  | .version _ | .rsaPss _ => []
  | .initializationVector iv => [iv]
  | .randomData r => r.buffers
  | .masterKeyDerive p | .tls12MasterKeyDerive p _ => p.random.buffers
  | .keyMaterial p | .tls12KeyMaterial p _ => p.buffers
  | .cbcEncryptData p => [p.data]
  | .rsaOaep p => [p.source.getD []]
  | .gcm p => [p.iv, p.aad]
  | .ccm p => [p.nonce, p.aad]

/-- The version that a token is to return. -/
def NativeParameters.version? : NativeParameters → Option Version
  | .masterKeyDerive _ v | .tls12MasterKeyDerive _ v _ => some v
  | _ => Option.none

/-- The handles that a token is to return. -/
def NativeParameters.handles? : NativeParameters → Option KeyHandles
  | .keyMaterial k | .tls12KeyMaterial k _ => some k.returned.handles
  | _ => Option.none

/-- A native form that is as it should be for parameters: pointers and lengths are right, and what a
token is to return is zero. -/
structure NativeParameters.LaysOut (n : NativeParameters) (b : Option ParameterBlock) : Prop where
  null : n.isNull = true ↔ n.size = 0
  buffers : List.Forall₂ Buffer.Holds n.buffers (b.elim [] ParameterBlock.buffers)
  ivBits : ∀ iv ivBits aad tagBits, n = .gcm iv ivBits aad tagBits → ivBits = 8 * iv.length
  version : n.version? = (b.bind ParameterBlock.negotiated?).map fun _ => .zero
  handles : n.handles? = (b.bind ParameterBlock.returnedKeys?).map fun _ => .zero

theorem RandomData.toNative_holds (r : RandomData) :
    List.Forall₂ Buffer.Holds r.toNative.buffers r.buffers :=
  .cons (Buffer.ofBytes_holds _) (.cons (Buffer.ofBytes_holds _) .nil)

theorem Buffer.holds_of_bits {bs : Bytes} {bits : Word} (h : 8 * bs.length = bits.toNat) :
    Buffer.Holds ⟨pointerTo bs, bits.toNat / 8⟩ bs := by
  have hlength : bits.toNat / 8 = bs.length := by omega
  rw [hlength]
  exact Buffer.ofBytes_holds bs

theorem KeyMaterial.toNative_holds (p : KeyMaterial) :
    List.Forall₂ Buffer.Holds p.toNative.buffers p.buffers := by
  obtain ⟨hclient, hserver⟩ := p.iv_fits
  refine List.rel_append p.random.toNative_holds ?_
  exact .cons (Buffer.holds_of_bits hclient) (.cons (Buffer.holds_of_bits hserver) .nil)

theorem ParameterBlock.toNative_holds (b : ParameterBlock) :
    List.Forall₂ Buffer.Holds b.toNative.buffers b.buffers := by
  have hsingle : ∀ bs, List.Forall₂ Buffer.Holds [.ofBytes bs] [bs] := fun bs =>
    .cons (Buffer.ofBytes_holds bs) .nil
  have hpair : ∀ as bs, List.Forall₂ Buffer.Holds [.ofBytes as, .ofBytes bs] [as, bs] :=
    fun as bs => .cons (Buffer.ofBytes_holds as) (hsingle bs)
  cases b with
  | version v => exact .nil
  | randomData r => exact r.toNative_holds
  | masterKeyDerive p => exact p.random.toNative_holds
  | tls12MasterKeyDerive p prf => exact p.random.toNative_holds
  | keyMaterial p => exact p.toNative_holds
  | tls12KeyMaterial p prf => exact p.toNative_holds
  | initializationVector iv => exact hsingle iv
  | cbcEncryptData p =>
    rcases p.toNative_cases with h | h <;> · rw [h]; exact hsingle p.data
  | rsaOaep p => exact hsingle _
  | rsaPss p => exact .nil
  | gcm p => exact hpair p.iv p.aad
  | ccm p => exact hpair p.nonce p.aad

/-- The pointer to the parameters is null where they take no bytes. -/
theorem NativeParameters.isNull_iff {n : NativeParameters} {held : List Bytes}
    (h : List.Forall₂ Buffer.Holds n.buffers held) : n.isNull = true ↔ n.size = 0 := by
  cases n with
  | none => simp [isNull, size]
  | bytes iv =>
    obtain ⟨bs, -, hiv, -, -⟩ := List.forall₂_cons_left_iff.mp h
    have hnull : iv.pointer = Option.none ↔ iv.length = 0 := by
      rw [hiv.null, hiv.length, List.length_eq_zero_iff]
    simpa [isNull, size] using hnull
  | _ => simp [isNull, size]

theorem ParameterBlock.ivBits_toNative {b : ParameterBlock} {iv aad : Buffer} {ivBits : Nat}
    {tagBits : Word} (h : b.toNative = .gcm iv ivBits aad tagBits) : ivBits = 8 * iv.length := by
  cases b with
  | gcm p =>
    cases h
    rfl
  | cbcEncryptData p =>
    rcases p.toNative_cases with hp | hp <;> cases hp.symm.trans h
  | _ => cases h

theorem ParameterBlock.version?_toNative (b : ParameterBlock) :
    b.toNative.version? = b.negotiated?.map fun _ => .zero := by
  cases b with
  | cbcEncryptData p => rcases p.toNative_cases with h | h <;> · rw [h]; rfl
  | _ => rfl

theorem ParameterBlock.handles?_toNative (b : ParameterBlock) :
    b.toNative.handles? = b.returnedKeys?.map fun _ => .zero := by
  cases b with
  | cbcEncryptData p => rcases p.toNative_cases with h | h <;> · rw [h]; rfl
  | _ => rfl

theorem ParameterBlock.laysOut (b : ParameterBlock) : b.toNative.LaysOut (some b) where
  null := NativeParameters.isNull_iff b.toNative_holds
  buffers := b.toNative_holds
  ivBits _ _ _ _ h := ivBits_toNative h
  version := b.version?_toNative
  handles := b.handles?_toNative

end Layout

namespace Mechanism

theorem nativeForm_laysOut (m : Mechanism) : m.nativeForm.parameters.LaysOut m.parameters := by
  obtain ⟨id, _ | b⟩ := m
  · refine ⟨?_, .nil, ?_, rfl, rfl⟩
    · simp [nativeForm, NativeParameters.isNull, NativeParameters.size]
    · rintro _ _ _ _ ⟨⟩
  · exact b.laysOut

theorem read_nativeForm (m : Mechanism) :
    m.nativeForm.parameters.read = .ok m.inputs.parameters := by
  obtain ⟨id, _ | b⟩ := m
  · rfl
  · exact NativeParameters.read_toNative b

theorem nativeForm_inputs (m : Mechanism) : m.inputs.nativeForm = m.nativeForm := by
  obtain ⟨id, _ | b⟩ := m
  · rfl
  · exact congrArg (NativeMechanism.mk id) b.toNative_inputs

/-- Where two mechanisms have native forms, these are the same but for their pointers, and point to
the same bytes, if the inputs of the mechanisms are the same, and only then. The pointers and the
lengths are right, and what a token is to return is zero, whatever was returned before. -/
theorem toNative_faithful {m₁ m₂ : Mechanism} {host₁ host₂ : HostLayouts}
    {n₁ n₂ : NativeMechanism} (h₁ : m₁.toNative host₁ = .ok n₁) (h₂ : m₂.toNative host₂ = .ok n₂) :
    (n₁.followed = n₂.followed ↔ m₁.inputs = m₂.inputs) ∧
      n₁.parameters.LaysOut m₁.parameters := by
  obtain ⟨-, -, rfl⟩ := toNative_eq_ok_iff.mp h₁
  obtain ⟨-, -, rfl⟩ := toNative_eq_ok_iff.mp h₂
  refine ⟨⟨fun h => ?_, fun h => ?_⟩, m₁.nativeForm_laysOut⟩
  · have hid : m₁.id = m₂.id := congrArg NativeMechanism.id h
    have hfollowed : m₁.nativeForm.parameters.followed = m₂.nativeForm.parameters.followed :=
      congrArg NativeMechanism.parameters h
    -- Nothing is read of a pointer but what it points to.
    have hread : m₁.nativeForm.parameters.read = m₂.nativeForm.parameters.read := by
      rw [← NativeParameters.read_followed, hfollowed, NativeParameters.read_followed]
    rw [read_nativeForm, read_nativeForm] at hread
    have hinputs : m₁.inputs.parameters = m₂.inputs.parameters := Except.ok.inj hread
    calc m₁.inputs = ⟨m₁.id, m₁.inputs.parameters⟩ := rfl
      _ = ⟨m₂.id, m₂.inputs.parameters⟩ := by rw [hid, hinputs]
      _ = m₂.inputs := rfl
  · rw [← nativeForm_inputs m₁, h, nativeForm_inputs]

/-- No label and an empty one are told apart, though there is nothing to point to. -/
theorem toNative_faithful_label : ∃ n₁ n₂,
    (Mechanism.mk 0x9 (some (.rsaOaep ⟨0x250, 2, none⟩))).toNative .empty = .ok n₁ ∧
    (Mechanism.mk 0x9 (some (.rsaOaep ⟨0x250, 2, some []⟩))).toNative .full = .ok n₂ ∧
    n₁.parameters.buffers = n₂.parameters.buffers ∧ n₁.followed ≠ n₂.followed := by
  let unlabelled : Mechanism := ⟨0x9, some (.rsaOaep ⟨0x250, 2, none⟩)⟩
  let labelled : Mechanism := ⟨0x9, some (.rsaOaep ⟨0x250, 2, some []⟩)⟩
  have h₁ : unlabelled.toNative .empty = .ok unlabelled.nativeForm := rfl
  have h₂ : labelled.toNative .full = .ok labelled.nativeForm := rfl
  refine ⟨_, _, h₁, h₂, rfl, fun h => ?_⟩
  have hinputs := (toNative_faithful h₁ h₂).1.mp h
  exact absurd hinputs (by decide)

end Mechanism

end Cryptoki
