/-! The families of mechanism parameters. -/
namespace Cryptoki

inductive ParameterFamily where
  | version
  | randomData
  | masterKeyDerive
  | tls12MasterKeyDerive
  | keyMaterial
  | tls12KeyMaterial
  | initializationVector
  | cbcEncryptData
  | rsaOaep
  | rsaPss
  | gcm
  | ccm
  deriving DecidableEq, Repr

namespace ParameterFamily

def all : List ParameterFamily :=
  [.version, .randomData, .masterKeyDerive, .tls12MasterKeyDerive, .keyMaterial, .tls12KeyMaterial,
    .initializationVector, .cbcEncryptData, .rsaOaep, .rsaPss, .gcm, .ccm]

def text : ParameterFamily → String
  | .version => "version"
  | .randomData => "random_data"
  | .masterKeyDerive => "master_key_derive"
  | .tls12MasterKeyDerive => "tls12_master_key_derive"
  | .keyMaterial => "key_material"
  | .tls12KeyMaterial => "tls12_key_material"
  | .initializationVector => "initialization_vector"
  | .cbcEncryptData => "cbc_encrypt_data"
  | .rsaOaep => "rsa_oaep"
  | .rsaPss => "rsa_pss"
  | .gcm => "gcm"
  | .ccm => "ccm"

def debug : ParameterFamily → String
  | .version => "Version"
  | .randomData => "RandomData"
  | .masterKeyDerive => "MasterKeyDerive"
  | .tls12MasterKeyDerive => "Tls12MasterKeyDerive"
  | .keyMaterial => "KeyMaterial"
  | .tls12KeyMaterial => "Tls12KeyMaterial"
  | .initializationVector => "InitializationVector"
  | .cbcEncryptData => "CbcEncryptData"
  | .rsaOaep => "RsaOaep"
  | .rsaPss => "RsaPss"
  | .gcm => "Gcm"
  | .ccm => "Ccm"

def ofText? (s : String) : Option ParameterFamily := all.find? (·.text = s)

/-- The families whose native layout only some hosts provide. -/
def needsHost : ParameterFamily → Bool
  | .tls12MasterKeyDerive | .tls12KeyMaterial | .gcm | .ccm => true
  | _ => false

theorem mem_all (f : ParameterFamily) : f ∈ all := by
  cases f <;> decide

theorem ofText?_text (f : ParameterFamily) : ofText? f.text = some f := by
  cases f <;> decide

end ParameterFamily

/-- What a mechanism accepts as parameters. -/
inductive ParameterExpectation where
  | noParameters
  | family (f : ParameterFamily)
  | unchecked
  deriving DecidableEq, Repr

namespace ParameterExpectation

def text : ParameterExpectation → String
  | .noParameters => "no parameters"
  | .family f => f.text ++ " parameters"
  | .unchecked => "any parameters"

def debug : ParameterExpectation → String
  | .noParameters => "NoParameters"
  | .family f => "Family(" ++ f.debug ++ ")"
  | .unchecked => "Unchecked"

/-- Whether a block of the given family, or no block, is what is expected. -/
def admits : ParameterExpectation → Option ParameterFamily → Bool
  | .unchecked, _ => true
  | .noParameters, actual => actual = none
  | .family f, actual => actual = some f

end ParameterExpectation

end Cryptoki
