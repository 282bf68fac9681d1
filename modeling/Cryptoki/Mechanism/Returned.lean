import Cryptoki.Mechanism.Host

/-! What a token writes through the pointers of a mechanism, and what of it the mechanism keeps. -/
namespace Cryptoki

/-- What a token writes to buffers that it should only read. The pointers to them do not keep it from
writing there. -/
structure InputWrite where
  clientRandom : Bytes
  serverRandom : Bytes
  /-- Written to the IV of GCM, or to the nonce of CCM. -/
  nonce : Bytes
  aad : Bytes
  /-- Written to the data to encrypt, or to the label of OAEP. -/
  data : Bytes
  deriving DecidableEq

def InputWrite.none : InputWrite := ⟨[], [], [], [], []⟩

/-- Buffers are written from their start, and only as far as they reach. -/
structure MechanismWrite where
  version : Option Version
  handles : Option KeyHandles
  clientIv : Bytes
  serverIv : Bytes
  bytes : Bytes
  inputs : InputWrite
  deriving DecidableEq

def MechanismWrite.none : MechanismWrite := ⟨.none, .none, [], [], [], .none⟩

/-- Zero is the handle of no object. -/
def validHandle? (h : Handle) : Option Handle := if h = 0 then none else some h

namespace ReturnedKeys

def writeIvs (r : ReturnedKeys) (w : MechanismWrite) : ReturnedKeys :=
  { r with clientIv := overwrite r.clientIv w.clientIv, serverIv := overwrite r.serverIv w.serverIv }

def takeHandles (r : ReturnedKeys) (h : KeyHandles) : ReturnedKeys :=
  { r with
    clientMac := validHandle? h.clientMac
    serverMac := validHandle? h.serverMac
    clientKey := validHandle? h.clientKey
    serverKey := validHandle? h.serverKey }

end ReturnedKeys

def RandomData.written (r : RandomData) (w : InputWrite) : RandomData :=
  ⟨overwrite r.client w.clientRandom, overwrite r.server w.serverRandom,
    overwrite_ne_nil r.client_ne _, overwrite_ne_nil r.server_ne _⟩

def MasterKeyDerivation.written (p : MasterKeyDerivation) (w : InputWrite) : MasterKeyDerivation :=
  { p with random := p.random.written w }

namespace KeyMaterial

def written (p : KeyMaterial) (w : InputWrite) : KeyMaterial :=
  { p with random := p.random.written w }

def writeIvs (p : KeyMaterial) (w : MechanismWrite) : KeyMaterial :=
  { p with
    returned := p.returned.writeIvs w
    iv_fits := by
      have h := p.iv_fits
      simpa [ReturnedKeys.Fits, ReturnedKeys.writeIvs, length_overwrite] using h }

def takeHandles (p : KeyMaterial) (h : KeyHandles) : KeyMaterial :=
  { p with returned := p.returned.takeHandles h, iv_fits := p.iv_fits }

end KeyMaterial

/-- The IV is not in a buffer: the native form has a copy of it. -/
def CbcEncryptData.written (p : CbcEncryptData) (w : InputWrite) : CbcEncryptData :=
  { p with data := overwrite p.data w.data }

def RsaOaep.written (p : RsaOaep) (w : InputWrite) : RsaOaep :=
  { p with source := p.source.map (overwrite · w.data) }

def Gcm.written (p : Gcm) (w : InputWrite) : Gcm :=
  { p with
    iv := overwrite p.iv w.nonce
    aad := overwrite p.aad w.aad
    iv_ne := overwrite_ne_nil p.iv_ne _ }

def Ccm.written (p : Ccm) (w : InputWrite) : Ccm :=
  { p with
    nonce := overwrite p.nonce w.nonce
    aad := overwrite p.aad w.aad
    nonce_length := by simpa only [length_overwrite] using p.nonce_length }

namespace ParameterBlock

def writeInputs (w : InputWrite) : ParameterBlock → ParameterBlock
  | .randomData r => .randomData (r.written w)
  | .masterKeyDerive p => .masterKeyDerive (p.written w)
  | .tls12MasterKeyDerive p prf => .tls12MasterKeyDerive (p.written w) prf
  | .keyMaterial p => .keyMaterial (p.written w)
  | .tls12KeyMaterial p prf => .tls12KeyMaterial (p.written w) prf
  | .cbcEncryptData p => .cbcEncryptData (p.written w)
  | .rsaOaep p => .rsaOaep (p.written w)
  | .gcm p => .gcm (p.written w)
  | .ccm p => .ccm (p.written w)
  | b => b

def writeOutputs (w : MechanismWrite) : ParameterBlock → ParameterBlock
  | .keyMaterial p => .keyMaterial (p.writeIvs w)
  | .tls12KeyMaterial p prf => .tls12KeyMaterial (p.writeIvs w) prf
  | .initializationVector iv => .initializationVector (overwrite iv w.bytes)
  | b => b

/-- The block after a call: the token writes to its buffers in place, whether it accepts the call or
not. -/
def written (w : MechanismWrite) (b : ParameterBlock) : ParameterBlock :=
  (b.writeInputs w.inputs).writeOutputs w

/-- The block after a call that was accepted: the version and the handles are as the token left
them in the native form, where they were zero. -/
def completed (w : MechanismWrite) : ParameterBlock → ParameterBlock
  | .masterKeyDerive p => .masterKeyDerive { p with version := w.version.getD .zero }
  | .tls12MasterKeyDerive p prf =>
    .tls12MasterKeyDerive { p with version := w.version.getD .zero } prf
  | .keyMaterial p => .keyMaterial (p.takeHandles (w.handles.getD .zero))
  | .tls12KeyMaterial p prf => .tls12KeyMaterial (p.takeHandles (w.handles.getD .zero)) prf
  | b => b

theorem family_written (w : MechanismWrite) (b : ParameterBlock) :
    (b.written w).family = b.family := by
  cases b <;> rfl

theorem family_completed (w : MechanismWrite) (b : ParameterBlock) :
    (b.completed w).family = b.family := by
  cases b <;> rfl

end ParameterBlock

namespace Mechanism

def written (m : Mechanism) (w : MechanismWrite) : Mechanism :=
  { m with parameters := m.parameters.map (·.written w) }

def completed (m : Mechanism) (w : MechanismWrite) : Mechanism :=
  { m with parameters := m.parameters.map (·.completed w) }

/-- What a call with a mechanism gives back. -/
structure Reply (α : Type) where
  outcome : Except Status α
  write : MechanismWrite

/-- A call with a mechanism: its outcome, and the mechanism as the call leaves it. Nothing is called
if the mechanism has no native form. -/
def use [Monad m] (mechanism : Mechanism) (host : HostLayouts)
    (call : NativeMechanism → m (Reply α)) : m (Except Error α × Mechanism) :=
  match mechanism.toNative host with
  | .error e => pure (.error e, mechanism)
  | .ok native => do
    let r ← call native
    let after := mechanism.written r.write
    match r.outcome with
    | .ok a => pure (.ok a, after.completed r.write)
    | .error s => pure (.error (.deviceStatus s), after)

end Mechanism

end Cryptoki
