import Cryptoki.Mechanism.Native

/-! The builders of native forms. Each one is for the blocks of some families and refuses the
others. -/
namespace Cryptoki

/-- The bytes as an array of a fixed length. -/
def arrayOf (n : Nat) (bs : Bytes) : Except Error Bytes :=
  if bs.length = n then .ok bs else .error (.conversion .arrayLength)

/-- The length of the IV tells the cipher, and the cipher the layout. -/
def CbcEncryptData.build (p : CbcEncryptData) : Except Error NativeParameters :=
  match p.iv.length with
  | 8 => return .desCbcEncryptData (← arrayOf 8 p.iv) (.ofBytes p.data)
  | 16 => return .aesCbcEncryptData (← arrayOf 16 p.iv) (.ofBytes p.data)
  | n => throw (.invalidParameterLength .cbcEncryptDataIv 16 n)

def ParameterBlock.build : ParameterBlock → Except Error NativeParameters
  | .cbcEncryptData p => p.build
  | block => .ok block.toNative

/-- Builds the layouts of some families. -/
structure NativeBuilder where
  name : String
  families : List ParameterFamily

namespace NativeBuilder

/-- The layouts that every host has. -/
def portable : NativeBuilder :=
  ⟨"portable", [.version, .randomData, .masterKeyDerive, .keyMaterial, .initializationVector,
    .cbcEncryptData, .rsaOaep, .rsaPss]⟩

def tls12MasterKeyDerive : NativeBuilder := ⟨"TLS 1.2 master key derive", [.tls12MasterKeyDerive]⟩

def tls12KeyMaterial : NativeBuilder := ⟨"TLS 1.2 key material", [.tls12KeyMaterial]⟩

def gcm : NativeBuilder := ⟨"GCM", [.gcm]⟩

def ccm : NativeBuilder := ⟨"CCM", [.ccm]⟩

/-- The builders that a host can provide, each under the family that it is asked for. -/
def registered : List (ParameterFamily × NativeBuilder) :=
  [(.tls12MasterKeyDerive, tls12MasterKeyDerive), (.tls12KeyMaterial, tls12KeyMaterial),
    (.gcm, gcm), (.ccm, ccm)]

def wrongFamily (builder : NativeBuilder) (f : ParameterFamily) : Error :=
  .other (builder.name ++ " layout requested for " ++ f.text ++ " parameters")

def build (builder : NativeBuilder) (block : ParameterBlock) : Except Error NativeParameters :=
  if block.family ∈ builder.families then block.build
  else .error (builder.wrongFamily block.family)

end NativeBuilder

end Cryptoki
