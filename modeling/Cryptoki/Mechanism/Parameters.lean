import Cryptoki.Error
import Cryptoki.Version

/-! Mechanism parameters: blocks that are checked when they are made, and then only change in what a
token returns through them. -/
namespace Cryptoki

/-- The nonces of the two sides of a handshake. -/
structure RandomData where
  client : Bytes
  server : Bytes
  client_ne : client ≠ []
  server_ne : server ≠ []
  deriving DecidableEq

def RandomData.make (client server : Bytes) : Except Error RandomData :=
  if hc : client = [] then .error (.invalidParameterLength .clientRandom 32 0)
  else if hs : server = [] then .error (.invalidParameterLength .serverRandom 32 0)
  else .ok ⟨client, server, hc, hs⟩

/-- The version is the one a token reports. -/
structure MasterKeyDerivation where
  random : RandomData
  version : Version
  deriving DecidableEq

def MasterKeyDerivation.make (random : RandomData) : MasterKeyDerivation := ⟨random, .zero⟩

/-- What a key-and-MAC derivation returns: handles of keys, and IVs in buffers of the caller. -/
structure ReturnedKeys where
  clientMac : Option Handle
  serverMac : Option Handle
  clientKey : Option Handle
  serverKey : Option Handle
  clientIv : Bytes
  serverIv : Bytes
  deriving DecidableEq

namespace ReturnedKeys

def ofBuffers (clientIv serverIv : Bytes) : ReturnedKeys :=
  ⟨none, none, none, none, clientIv, serverIv⟩

def ofLength (n : Nat) : ReturnedKeys :=
  ofBuffers (List.replicate n 0) (List.replicate n 0)

/-- Both buffers hold as many bits as the IVs have. -/
def Fits (r : ReturnedKeys) (ivBits : Word) : Prop :=
  8 * r.clientIv.length = ivBits.toNat ∧ 8 * r.serverIv.length = ivBits.toNat

/-- The size in bits is looked at first, then the buffer of the client. -/
def checkBuffers (r : ReturnedKeys) (ivBits : Word) : Except Error (PLift (r.Fits ivBits)) :=
  if hb : ivBits % 8 = 0 then
    if hc : r.clientIv.length = ivBits.toNat / 8 then
      if hs : r.serverIv.length = ivBits.toNat / 8 then
        have : ivBits.toNat % 8 = 0 := by simpa using congrArg UInt64.toNat hb
        .ok ⟨by constructor <;> omega⟩
      else .error (.invalidParameterLength .serverIvBuffer (ivBits.toNat / 8) r.serverIv.length)
    else .error (.invalidParameterLength .clientIvBuffer (ivBits.toNat / 8) r.clientIv.length)
  else
    .error (.invalidParameterLength .ivSizeInBits (ivBits + (8 - ivBits % 8)).toNat ivBits.toNat)

end ReturnedKeys

structure KeyMaterial where
  macBits : Word
  keyBits : Word
  ivBits : Word
  isExport : Bool
  random : RandomData
  returned : ReturnedKeys
  iv_fits : returned.Fits ivBits

instance : DecidableEq KeyMaterial := fun a b =>
  if h : a.macBits = b.macBits ∧ a.keyBits = b.keyBits ∧ a.ivBits = b.ivBits ∧
      a.isExport = b.isExport ∧ a.random = b.random ∧ a.returned = b.returned then
    isTrue (by cases a; cases b; simp_all)
  else isFalse (by rintro rfl; simp at h)

def KeyMaterial.make (macBits keyBits ivBits : Word) (isExport : Bool) (random : RandomData)
    (returned : ReturnedKeys) : Except Error KeyMaterial :=
  (returned.checkBuffers ivBits).map fun h =>
    ⟨macBits, keyBits, ivBits, isExport, random, returned, h.down⟩

/-- An IV of eight or sixteen bytes, whose length tells the cipher, and the data to encrypt. -/
structure CbcEncryptData where
  iv : Bytes
  data : Bytes
  iv_length : iv.length = 8 ∨ iv.length = 16
  deriving DecidableEq

def CbcEncryptData.make (iv data : Bytes) : Except Error CbcEncryptData :=
  if h : iv.length = 8 ∨ iv.length = 16 then .ok ⟨iv, data, h⟩
  else .error (.invalidParameterLength .cbcEncryptDataIv 16 iv.length)

/-- A label that is not there and an empty one are two things. -/
structure RsaOaep where
  hash : Word
  mgf : Word
  source : Option Bytes
  deriving DecidableEq

structure RsaPss where
  hash : Word
  mgf : Word
  saltLength : Word
  deriving DecidableEq

structure Gcm where
  iv : Bytes
  aad : Bytes
  tagBits : Word
  tag_le : tagBits.toNat ≤ 128
  tag_whole : tagBits.toNat % 8 = 0
  iv_ne : iv ≠ []
  deriving DecidableEq

def Gcm.make (iv aad : Bytes) (tagBits : Word) : Except Error Gcm :=
  if ht : tagBits.toNat ≤ 128 ∧ tagBits.toNat % 8 = 0 then
    if hi : iv = [] then .error (.invalidParameterLength .gcmIv 12 0)
    else .ok ⟨iv, aad, tagBits, ht.1, ht.2, hi⟩
  else .error (.invalidParameterLength .gcmTag 16 (tagBits.toNat / 8))

structure Ccm where
  dataLength : Word
  nonce : Bytes
  aad : Bytes
  macLength : Word
  nonce_length : 7 ≤ nonce.length ∧ nonce.length ≤ 13
  mac_range : 4 ≤ macLength.toNat ∧ macLength.toNat ≤ 16
  mac_even : macLength.toNat % 2 = 0
  deriving DecidableEq

/-- The number of the range nearest to a number. -/
def clamp (low high n : Nat) : Nat := max low (min high n)

def Ccm.make (dataLength : Word) (nonce aad : Bytes) (macLength : Word) : Except Error Ccm :=
  if hn : 7 ≤ nonce.length ∧ nonce.length ≤ 13 then
    if hm : (4 ≤ macLength.toNat ∧ macLength.toNat ≤ 16) ∧ macLength.toNat % 2 = 0 then
      .ok ⟨dataLength, nonce, aad, macLength, hn, hm.1, hm.2⟩
    else
      .error (.invalidParameterLength .ccmMac (clamp 4 16 macLength.toNat / 2 * 2) macLength.toNat)
  else .error (.invalidParameterLength .ccmNonce (clamp 7 13 nonce.length) nonce.length)

/-- One constructor for each family. -/
inductive ParameterBlock where
  | version (v : Version)
  | randomData (r : RandomData)
  | masterKeyDerive (p : MasterKeyDerivation)
  | tls12MasterKeyDerive (p : MasterKeyDerivation) (prf : Word)
  | keyMaterial (p : KeyMaterial)
  | tls12KeyMaterial (p : KeyMaterial) (prf : Word)
  | initializationVector (iv : Bytes)
  | cbcEncryptData (p : CbcEncryptData)
  | rsaOaep (p : RsaOaep)
  | rsaPss (p : RsaPss)
  | gcm (p : Gcm)
  | ccm (p : Ccm)
  deriving DecidableEq

namespace ParameterBlock

/-- Handshakes of this version have no export ciphers. -/
def makeTls12KeyMaterial (macBits keyBits ivBits : Word) (random : RandomData)
    (returned : ReturnedKeys) (prf : Word) : Except Error ParameterBlock :=
  (KeyMaterial.make macBits keyBits ivBits false random returned).map (.tls12KeyMaterial · prf)

def family : ParameterBlock → ParameterFamily
  | .version _ => .version
  | .randomData _ => .randomData
  | .masterKeyDerive _ => .masterKeyDerive
  | .tls12MasterKeyDerive _ _ => .tls12MasterKeyDerive
  | .keyMaterial _ => .keyMaterial
  | .tls12KeyMaterial _ _ => .tls12KeyMaterial
  | .initializationVector _ => .initializationVector
  | .cbcEncryptData _ => .cbcEncryptData
  | .rsaOaep _ => .rsaOaep
  | .rsaPss _ => .rsaPss
  | .gcm _ => .gcm
  | .ccm _ => .ccm

def returnedKeys? : ParameterBlock → Option ReturnedKeys
  | .keyMaterial p | .tls12KeyMaterial p _ => some p.returned
  | _ => none

/-- The version that a master key derivation returned. -/
def negotiated? : ParameterBlock → Option Version
  | .masterKeyDerive p | .tls12MasterKeyDerive p _ => some p.version
  | _ => none

end ParameterBlock

/-- A mechanism code, and parameters if it has some. -/
structure Mechanism where
  id : Word
  parameters : Option ParameterBlock
  deriving DecidableEq

namespace Mechanism

/-- The parameters must be those that the mechanism expects. -/
def validate (m : Mechanism) : Except Error Unit :=
  let actual := m.parameters.map ParameterBlock.family
  if (expectedParameters m.id).admits actual then .ok ()
  else .error (.parameterMismatch m.id (expectedParameters m.id) actual)

end Mechanism

end Cryptoki
