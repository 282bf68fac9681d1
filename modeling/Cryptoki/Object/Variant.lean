import Cryptoki.Attribute.Type

/-! The variants of token objects, their codes and the attributes that each of them declares. -/
namespace Cryptoki

inductive CertificateType where
  | x509
  deriving DecidableEq, Repr

inductive SecretKeyType where
  | genericSecret
  | aes
  | des
  | des2
  | des3
  | camellia
  deriving DecidableEq, Repr

inductive AsymmetricKeyType where
  | rsa
  | ec
  | dsa
  | dh
  | x942Dh
  deriving DecidableEq, Repr

inductive DomainParameterType where
  | dsa
  | dh
  | x942Dh
  deriving DecidableEq, Repr

inductive HardwareFeatureType where
  | clock
  | monotonicCounter
  | userInterface
  deriving DecidableEq, Repr

/-- A class together with, except for data objects, a subtype. -/
inductive ObjectVariant where
  | data
  | certificate (t : CertificateType)
  | secretKey (t : SecretKeyType)
  | publicKey (t : AsymmetricKeyType)
  | privateKey (t : AsymmetricKeyType)
  | domainParameters (t : DomainParameterType)
  | hardwareFeature (t : HardwareFeatureType)
  deriving DecidableEq, Repr

namespace CertificateType

def code : CertificateType → Word
  | .x509 => 0

def ofCode? (w : Word) : Option CertificateType :=
  if w = 0 then some .x509 else none

def name : CertificateType → String
  | .x509 => "X509"

end CertificateType

namespace SecretKeyType

def all : List SecretKeyType := [.genericSecret, .aes, .des, .des2, .des3, .camellia]

def code : SecretKeyType → Word
  | .genericSecret => 0x10
  | .aes => 0x1F
  | .des => 0x13
  | .des2 => 0x14
  | .des3 => 0x15
  | .camellia => 0x25

def ofCode? (w : Word) : Option SecretKeyType := all.find? (·.code = w)

def name : SecretKeyType → String
  | .genericSecret => "GenericSecret"
  | .aes => "Aes"
  | .des => "Des"
  | .des2 => "Des2"
  | .des3 => "Des3"
  | .camellia => "Camellia"

def attributes : SecretKeyType → List AttributeType
  | .genericSecret | .aes | .camellia => [.value, .valueLen]
  | .des | .des2 | .des3 => [.value]

end SecretKeyType

namespace AsymmetricKeyType

def all : List AsymmetricKeyType := [.rsa, .ec, .dsa, .dh, .x942Dh]

def code : AsymmetricKeyType → Word
  | .rsa => 0
  | .ec => 3
  | .dsa => 1
  | .dh => 2
  | .x942Dh => 4

def ofCode? (w : Word) : Option AsymmetricKeyType := all.find? (·.code = w)

def name : AsymmetricKeyType → String
  | .rsa => "Rsa"
  | .ec => "Ec"
  | .dsa => "Dsa"
  | .dh => "Dh"
  | .x942Dh => "X942Dh"

def publicAttributes : AsymmetricKeyType → List AttributeType
  | .rsa => [.modulus, .modulusBits, .publicExponent]
  | .ec => [.ecParams, .ecPoint]
  | .dsa | .x942Dh => [.prime, .subprime, .base, .value]
  | .dh => [.prime, .base, .value]

def privateAttributes : AsymmetricKeyType → List AttributeType
  | .rsa =>
    [.modulus, .publicExponent, .privateExponent, .prime1, .prime2, .exponent1, .exponent2,
      .coefficient]
  | .ec => [.ecParams, .value]
  | .dsa | .x942Dh => [.prime, .subprime, .base, .value]
  | .dh => [.prime, .base, .value, .valueBits]

end AsymmetricKeyType

namespace DomainParameterType

def all : List DomainParameterType := [.dsa, .dh, .x942Dh]

def code : DomainParameterType → Word
  | .dsa => 1
  | .dh => 2
  | .x942Dh => 4

def ofCode? (w : Word) : Option DomainParameterType := all.find? (·.code = w)

def name : DomainParameterType → String
  | .dsa => "Dsa"
  | .dh => "Dh"
  | .x942Dh => "X942Dh"

def attributes : DomainParameterType → List AttributeType
  | .dsa => [.prime, .subprime, .base, .primeBits]
  | .dh => [.prime, .base, .primeBits]
  | .x942Dh => [.prime, .base, .subprime, .primeBits, .subPrimeBits]

end DomainParameterType

namespace HardwareFeatureType

def all : List HardwareFeatureType := [.clock, .monotonicCounter, .userInterface]

def code : HardwareFeatureType → Word
  | .clock => 2
  | .monotonicCounter => 1
  | .userInterface => 3

def ofCode? (w : Word) : Option HardwareFeatureType := all.find? (·.code = w)

def name : HardwareFeatureType → String
  | .clock => "Clock"
  | .monotonicCounter => "MonotonicCounter"
  | .userInterface => "UserInterface"

def attributes : HardwareFeatureType → List AttributeType
  | .clock => [.value]
  | .monotonicCounter => [.resetOnInit, .hasReset, .value]
  | .userInterface =>
    [.pixelX, .pixelY, .resolution, .charRows, .charColumns, .bitsPerPixel, .charSets,
      .encodingMethods, .mimeTypes]

end HardwareFeatureType

namespace ObjectVariant

def storageAttributes : List AttributeType :=
  [.objectClass, .token, .isPrivate, .modifiable, .label, .copyable, .destroyable]

def dataAttributes : List AttributeType := [.application, .objectId, .value]

def certificateAttributes : List AttributeType :=
  [.certificateType, .trusted, .certificateCategory, .checkValue, .startDate, .endDate]

def x509Attributes : List AttributeType :=
  [.subject, .id, .issuer, .serialNumber, .value, .url, .hashOfSubjectPublicKey,
    .hashOfIssuerPublicKey, .javaMidpSecurityDomain, .nameHashAlgorithm]

def keyAttributes : List AttributeType :=
  [.keyType, .id, .startDate, .endDate, .derive, .isLocal, .keyGenMechanism, .allowedMechanisms]

def secretKeyAttributes : List AttributeType :=
  [.sensitive, .encrypt, .decrypt, .sign, .verify, .wrap, .unwrap, .extractable, .alwaysSensitive,
    .neverExtractable, .checkValue, .wrapWithTrusted, .trusted, .wrapTemplate, .unwrapTemplate,
    .deriveTemplate]

def publicKeyAttributes : List AttributeType :=
  [.subject, .encrypt, .verify, .verifyRecover, .wrap, .trusted, .wrapTemplate, .publicKeyInfo]

def privateKeyAttributes : List AttributeType :=
  [.subject, .sensitive, .decrypt, .sign, .signRecover, .unwrap, .extractable, .alwaysSensitive,
    .neverExtractable, .wrapWithTrusted, .unwrapTemplate, .alwaysAuthenticate, .publicKeyInfo]

def domainAttributes : List AttributeType := [.keyType, .isLocal]

def hardwareAttributes : List AttributeType := [.objectClass, .hwFeatureType]

/-- The code of the class. -/
def classCode : ObjectVariant → Word
  | .data => 0
  | .certificate _ => 1
  | .publicKey _ => 2
  | .privateKey _ => 3
  | .secretKey _ => 4
  | .hardwareFeature _ => 5
  | .domainParameters _ => 6

/-- The code of the subtype, which only data objects lack. -/
def subtypeCode : ObjectVariant → Option Word
  | .data => none
  | .certificate t => some t.code
  | .secretKey t => some t.code
  | .publicKey t | .privateKey t => some t.code
  | .domainParameters t => some t.code
  | .hardwareFeature t => some t.code

/-- The attribute that holds the subtype of objects of a class. -/
def subtypeAttributeOf (objectClass : Word) : Option AttributeType :=
  if objectClass = 1 then some .certificateType
  else if objectClass = 2 ∨ objectClass = 3 ∨ objectClass = 4 ∨ objectClass = 6 then some .keyType
  else if objectClass = 5 then some .hwFeatureType
  else none

def subtypeAttribute (v : ObjectVariant) : Option AttributeType := subtypeAttributeOf v.classCode

/-- The variant with the given codes; data objects take any subtype or none. -/
def ofCodes? (objectClass : Word) (subtype : Option Word) : Option ObjectVariant :=
  if objectClass = 0 then some .data
  else do
    let code ← subtype
    if objectClass = 1 then (CertificateType.ofCode? code).map .certificate
    else if objectClass = 2 then (AsymmetricKeyType.ofCode? code).map .publicKey
    else if objectClass = 3 then (AsymmetricKeyType.ofCode? code).map .privateKey
    else if objectClass = 4 then (SecretKeyType.ofCode? code).map .secretKey
    else if objectClass = 5 then (HardwareFeatureType.ofCode? code).map .hardwareFeature
    else if objectClass = 6 then (DomainParameterType.ofCode? code).map .domainParameters
    else none

/-- Whether an attribute of this type tells the variant, so that its value is fixed. -/
def isIdentity (v : ObjectVariant) (t : AttributeType) : Bool :=
  t = .objectClass || v.subtypeAttribute = some t

/-- The groups that a variant declares; a type may stand in two of them. -/
def attributeGroups : ObjectVariant → List (List AttributeType)
  | .data => [storageAttributes, dataAttributes]
  | .certificate .x509 => [storageAttributes, certificateAttributes, x509Attributes]
  | .secretKey t => [storageAttributes, keyAttributes, secretKeyAttributes, t.attributes]
  | .publicKey t => [storageAttributes, keyAttributes, publicKeyAttributes, t.publicAttributes]
  | .privateKey t => [storageAttributes, keyAttributes, privateKeyAttributes, t.privateAttributes]
  | .domainParameters t => [storageAttributes, domainAttributes, t.attributes]
  | .hardwareFeature t => [hardwareAttributes, t.attributes]

/-- The declared types in order, each at its first place. -/
def declared (v : ObjectVariant) : List AttributeType := v.attributeGroups.flatten.eraseDups

def text : ObjectVariant → String
  | .data => "data object"
  | .certificate t => t.name ++ " certificate"
  | .secretKey t => t.name ++ " secret key"
  | .publicKey t => t.name ++ " public key"
  | .privateKey t => t.name ++ " private key"
  | .domainParameters t => t.name ++ " domain parameters"
  | .hardwareFeature t => t.name ++ " hardware feature"

def debug : ObjectVariant → String
  | .data => "Data"
  | .certificate t => "Certificate(" ++ t.name ++ ")"
  | .secretKey t => "SecretKey(" ++ t.name ++ ")"
  | .publicKey t => "PublicKey(" ++ t.name ++ ")"
  | .privateKey t => "PrivateKey(" ++ t.name ++ ")"
  | .domainParameters t => "DomainParameters(" ++ t.name ++ ")"
  | .hardwareFeature t => "HardwareFeature(" ++ t.name ++ ")"

end ObjectVariant

end Cryptoki
