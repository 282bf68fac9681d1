import Cryptoki.Mechanism.Parameters

/-! Mechanisms as a token gets them: fixed layouts whose fields are numbers and pointers to buffers.
Before a call the fields that a token writes are zero. -/
namespace Cryptoki

/-- A pointer with the length of what it points to. Nothing is pointed to when there is nothing. -/
structure Buffer where
  pointer : Option Bytes
  length : Nat
  deriving DecidableEq

/-- A pointer to the bytes; the null pointer if there are none. -/
def pointerTo (bs : Bytes) : Option Bytes := if bs = [] then none else some bs

namespace Buffer

def ofBytes (bs : Bytes) : Buffer := ⟨pointerTo bs, bs.length⟩

def contents (b : Buffer) : Bytes := b.pointer.getD []

theorem contents_ofBytes (bs : Bytes) : (ofBytes bs).contents = bs := by
  by_cases h : bs = [] <;> simp [ofBytes, pointerTo, contents, h]

theorem ofBytes_injective {a b : Bytes} (h : ofBytes a = ofBytes b) : a = b := by
  rw [← contents_ofBytes a, h, contents_ofBytes]

end Buffer

structure NativeRandom where
  client : Buffer
  server : Buffer
  deriving DecidableEq

def RandomData.toNative (r : RandomData) : NativeRandom := ⟨.ofBytes r.client, .ofBytes r.server⟩

/-- The handles of the keys that a derivation returns; zero is no handle. -/
structure KeyHandles where
  clientMac : Handle
  serverMac : Handle
  clientKey : Handle
  serverKey : Handle
  deriving DecidableEq

def KeyHandles.zero : KeyHandles := ⟨0, 0, 0, 0⟩

structure NativeReturnedKeys where
  handles : KeyHandles
  clientIv : Option Bytes
  serverIv : Option Bytes
  deriving DecidableEq

structure NativeKeyMaterial where
  macBits : Word
  keyBits : Word
  ivBits : Word
  isExport : Bool
  random : NativeRandom
  returned : NativeReturnedKeys
  deriving DecidableEq

def KeyMaterial.toNative (p : KeyMaterial) : NativeKeyMaterial :=
  ⟨p.macBits, p.keyBits, p.ivBits, p.isExport, p.random.toNative,
    ⟨.zero, pointerTo p.returned.clientIv, pointerTo p.returned.serverIv⟩⟩

/-- One constructor for each layout. -/
inductive NativeParameters where
  | none
  | version (v : Version)
  | bytes (iv : Buffer)
  | randomData (random : NativeRandom)
  | masterKeyDerive (random : NativeRandom) (version : Version)
  | tls12MasterKeyDerive (random : NativeRandom) (version : Version) (prf : Word)
  | keyMaterial (k : NativeKeyMaterial)
  | tls12KeyMaterial (k : NativeKeyMaterial) (prf : Word)
  | desCbcEncryptData (iv : Bytes) (data : Buffer)
  | aesCbcEncryptData (iv : Bytes) (data : Buffer)
  | rsaOaep (hash mgf source : Word) (label : Buffer)
  | rsaPss (hash mgf saltLength : Word)
  | gcm (iv : Buffer) (ivBits : Nat) (aad : Buffer) (tagBits : Word)
  | ccm (dataLength : Word) (nonce aad : Buffer) (macLength : Word)
  deriving DecidableEq

namespace NativeParameters

def layout : NativeParameters → String
  | .none => "none"
  | .version _ => "CK_VERSION"
  | .bytes _ => "bytes"
  | .randomData _ => "CK_SSL3_RANDOM_DATA"
  | .masterKeyDerive _ _ => "CK_SSL3_MASTER_KEY_DERIVE_PARAMS"
  | .tls12MasterKeyDerive _ _ _ => "CK_TLS12_MASTER_KEY_DERIVE_PARAMS"
  | .keyMaterial _ => "CK_SSL3_KEY_MAT_PARAMS"
  | .tls12KeyMaterial _ _ => "CK_TLS12_KEY_MAT_PARAMS"
  | .desCbcEncryptData _ _ => "CK_DES_CBC_ENCRYPT_DATA_PARAMS"
  | .aesCbcEncryptData _ _ => "CK_AES_CBC_ENCRYPT_DATA_PARAMS"
  | .rsaOaep _ _ _ _ => "CK_RSA_PKCS_OAEP_PARAMS"
  | .rsaPss _ _ _ => "CK_RSA_PKCS_PSS_PARAMS"
  | .gcm _ _ _ _ => "CK_GCM_PARAMS"
  | .ccm _ _ _ _ => "CK_CCM_PARAMS"

/-- The bytes that the parameters themselves take, without what their pointers point to. -/
def size : NativeParameters → Nat
  | .none => 0
  | .version _ => 2
  | .bytes iv => iv.length
  | .randomData _ => 32
  | .masterKeyDerive _ _ => 40
  | .tls12MasterKeyDerive _ _ _ => 48
  | .keyMaterial _ => 72
  | .tls12KeyMaterial _ _ => 80
  | .desCbcEncryptData _ _ => 24
  | .aesCbcEncryptData _ _ => 32
  | .rsaOaep _ _ _ _ => 40
  | .rsaPss _ _ _ => 24
  | .gcm _ _ _ _ => 48
  | .ccm _ _ _ _ => 48

/-- Whether the pointer to the parameters is null. -/
def isNull : NativeParameters → Bool
  | .none => true
  | .bytes iv => iv.pointer.isNone
  | _ => false

/-- The bytes of parameters that are bare bytes. -/
def bytes? : NativeParameters → Option Bytes
  | .bytes iv => some iv.contents
  | _ => Option.none

end NativeParameters

/-- The source of a label that is given, and that of one that is not. -/
def labelSource (label : Option Bytes) : Word := if label.isSome then 1 else 0

/-- Blocks for key derivation by encryption take the layout of their cipher, which the length of the
IV tells. The bits of a GCM IV are counted without a bound: a machine counts them in a word, which is
the same for an IV of fewer than 2^61 bytes. -/
def ParameterBlock.toNative : ParameterBlock → NativeParameters
  | .version v => .version v
  | .randomData r => .randomData r.toNative
  | .masterKeyDerive p => .masterKeyDerive p.random.toNative .zero
  | .tls12MasterKeyDerive p prf => .tls12MasterKeyDerive p.random.toNative .zero prf
  | .keyMaterial p => .keyMaterial p.toNative
  | .tls12KeyMaterial p prf => .tls12KeyMaterial p.toNative prf
  | .initializationVector iv => .bytes (.ofBytes iv)
  | .cbcEncryptData p =>
    if p.iv.length = 8 then .desCbcEncryptData p.iv (.ofBytes p.data)
    else .aesCbcEncryptData p.iv (.ofBytes p.data)
  | .rsaOaep p => .rsaOaep p.hash p.mgf (labelSource p.source) (.ofBytes (p.source.getD []))
  | .rsaPss p => .rsaPss p.hash p.mgf p.saltLength
  | .gcm p => .gcm (.ofBytes p.iv) (8 * p.iv.length) (.ofBytes p.aad) p.tagBits
  | .ccm p => .ccm p.dataLength (.ofBytes p.nonce) (.ofBytes p.aad) p.macLength

/-- For a GCM IV whose bits fit into a word, they are what the word comes to. -/
theorem ParameterBlock.toNative_gcm {p : Gcm} (h : 8 * p.iv.length < UInt64.size) :
    (gcm p).toNative = .gcm (.ofBytes p.iv) (8 * UInt64.ofNat p.iv.length).toNat (.ofBytes p.aad)
      p.tagBits := by
  have hlength : p.iv.length < UInt64.size := by omega
  have hbits : (8 * UInt64.ofNat p.iv.length).toNat = 8 * p.iv.length := by
    rw [UInt64.toNat_mul, UInt64.toNat_ofNat_of_lt' hlength]
    exact Nat.mod_eq_of_lt h
  rw [hbits]
  rfl

structure NativeMechanism where
  id : Word
  parameters : NativeParameters
  deriving DecidableEq

def NativeMechanism.debug (m : NativeMechanism) : String :=
  Layout.record "WireMechanism" [("mechanism", Layout.word m.id), ("params", m.parameters.layout)]

end Cryptoki
