import Cryptoki.Text.Hex

/-! The attribute types that are known: codes, names and the kind of value each one holds. -/
namespace Cryptoki

/-- The shape of the value an attribute type holds. -/
inductive AttributeKind where
  | bool
  | ulong
  | bytes
  | date
  | mechanismArray
  | attributeArray
  deriving DecidableEq, Repr

def AttributeKind.name : AttributeKind → String
  | .bool => "Bool"
  | .ulong => "Ulong"
  | .bytes => "Bytes"
  | .date => "Date"
  | .mechanismArray => "MechanismArray"
  | .attributeArray => "AttributeArray"

/-- The kinds with an empty value of their own, which stands for a value of no bytes. -/
def AttributeKind.isSequence : AttributeKind → Bool
  | .bytes | .mechanismArray | .attributeArray => true
  | .bool | .ulong | .date => false

inductive AttributeType where
  | objectClass
  | token
  | isPrivate
  | label
  | application
  | value
  | objectId
  | certificateType
  | issuer
  | serialNumber
  | trusted
  | certificateCategory
  | javaMidpSecurityDomain
  | url
  | hashOfSubjectPublicKey
  | hashOfIssuerPublicKey
  | nameHashAlgorithm
  | checkValue
  | keyType
  | subject
  | id
  | sensitive
  | encrypt
  | decrypt
  | wrap
  | unwrap
  | sign
  | signRecover
  | verify
  | verifyRecover
  | derive
  | startDate
  | endDate
  | modulus
  | modulusBits
  | publicExponent
  | privateExponent
  | prime1
  | prime2
  | exponent1
  | exponent2
  | coefficient
  | publicKeyInfo
  | prime
  | subprime
  | base
  | primeBits
  | subPrimeBits
  | valueBits
  | valueLen
  | extractable
  | isLocal
  | neverExtractable
  | alwaysSensitive
  | keyGenMechanism
  | modifiable
  | copyable
  | destroyable
  | ecParams
  | ecPoint
  | alwaysAuthenticate
  | wrapWithTrusted
  | wrapTemplate
  | unwrapTemplate
  | deriveTemplate
  | hwFeatureType
  | resetOnInit
  | hasReset
  | pixelX
  | pixelY
  | resolution
  | charRows
  | charColumns
  | bitsPerPixel
  | charSets
  | encodingMethods
  | mimeTypes
  | allowedMechanisms
  deriving DecidableEq, Repr

namespace AttributeType

def all : List AttributeType :=
  [.objectClass, .token, .isPrivate, .label, .application, .value, .objectId, .certificateType,
    .issuer, .serialNumber, .trusted, .certificateCategory, .javaMidpSecurityDomain, .url,
    .hashOfSubjectPublicKey, .hashOfIssuerPublicKey, .nameHashAlgorithm, .checkValue, .keyType,
    .subject, .id, .sensitive, .encrypt, .decrypt, .wrap, .unwrap, .sign, .signRecover, .verify,
    .verifyRecover, .derive, .startDate, .endDate, .modulus, .modulusBits, .publicExponent,
    .privateExponent, .prime1, .prime2, .exponent1, .exponent2, .coefficient, .publicKeyInfo,
    .prime, .subprime, .base, .primeBits, .subPrimeBits, .valueBits, .valueLen, .extractable,
    .isLocal, .neverExtractable, .alwaysSensitive, .keyGenMechanism, .modifiable, .copyable,
    .destroyable, .ecParams, .ecPoint, .alwaysAuthenticate, .wrapWithTrusted, .wrapTemplate,
    .unwrapTemplate, .deriveTemplate, .hwFeatureType, .resetOnInit, .hasReset, .pixelX, .pixelY,
    .resolution, .charRows, .charColumns, .bitsPerPixel, .charSets, .encodingMethods, .mimeTypes,
    .allowedMechanisms]

def code : AttributeType → Word
  | .objectClass => 0x0
  | .token => 0x1
  | .isPrivate => 0x2
  | .label => 0x3
  | .application => 0x10
  | .value => 0x11
  | .objectId => 0x12
  | .certificateType => 0x80
  | .issuer => 0x81
  | .serialNumber => 0x82
  | .trusted => 0x86
  | .certificateCategory => 0x87
  | .javaMidpSecurityDomain => 0x88
  | .url => 0x89
  | .hashOfSubjectPublicKey => 0x8A
  | .hashOfIssuerPublicKey => 0x8B
  | .nameHashAlgorithm => 0x8C
  | .checkValue => 0x90
  | .keyType => 0x100
  | .subject => 0x101
  | .id => 0x102
  | .sensitive => 0x103
  | .encrypt => 0x104
  | .decrypt => 0x105
  | .wrap => 0x106
  | .unwrap => 0x107
  | .sign => 0x108
  | .signRecover => 0x109
  | .verify => 0x10A
  | .verifyRecover => 0x10B
  | .derive => 0x10C
  | .startDate => 0x110
  | .endDate => 0x111
  | .modulus => 0x120
  | .modulusBits => 0x121
  | .publicExponent => 0x122
  | .privateExponent => 0x123
  | .prime1 => 0x124
  | .prime2 => 0x125
  | .exponent1 => 0x126
  | .exponent2 => 0x127
  | .coefficient => 0x128
  | .publicKeyInfo => 0x129
  | .prime => 0x130
  | .subprime => 0x131
  | .base => 0x132
  | .primeBits => 0x133
  | .subPrimeBits => 0x134
  | .valueBits => 0x160
  | .valueLen => 0x161
  | .extractable => 0x162
  | .isLocal => 0x163
  | .neverExtractable => 0x164
  | .alwaysSensitive => 0x165
  | .keyGenMechanism => 0x166
  | .modifiable => 0x170
  | .copyable => 0x171
  | .destroyable => 0x172
  | .ecParams => 0x180
  | .ecPoint => 0x181
  | .alwaysAuthenticate => 0x202
  | .wrapWithTrusted => 0x210
  | .wrapTemplate => 0x40000211
  | .unwrapTemplate => 0x40000212
  | .deriveTemplate => 0x40000213
  | .hwFeatureType => 0x300
  | .resetOnInit => 0x301
  | .hasReset => 0x302
  | .pixelX => 0x400
  | .pixelY => 0x401
  | .resolution => 0x402
  | .charRows => 0x403
  | .charColumns => 0x404
  | .bitsPerPixel => 0x406
  | .charSets => 0x480
  | .encodingMethods => 0x481
  | .mimeTypes => 0x482
  | .allowedMechanisms => 0x40000600

def name : AttributeType → String
  | .objectClass => "CKA_CLASS"
  | .token => "CKA_TOKEN"
  | .isPrivate => "CKA_PRIVATE"
  | .label => "CKA_LABEL"
  | .application => "CKA_APPLICATION"
  | .value => "CKA_VALUE"
  | .objectId => "CKA_OBJECT_ID"
  | .certificateType => "CKA_CERTIFICATE_TYPE"
  | .issuer => "CKA_ISSUER"
  | .serialNumber => "CKA_SERIAL_NUMBER"
  | .trusted => "CKA_TRUSTED"
  | .certificateCategory => "CKA_CERTIFICATE_CATEGORY"
  | .javaMidpSecurityDomain => "CKA_JAVA_MIDP_SECURITY_DOMAIN"
  | .url => "CKA_URL"
  | .hashOfSubjectPublicKey => "CKA_HASH_OF_SUBJECT_PUBLIC_KEY"
  | .hashOfIssuerPublicKey => "CKA_HASH_OF_ISSUER_PUBLIC_KEY"
  | .nameHashAlgorithm => "CKA_NAME_HASH_ALGORITHM"
  | .checkValue => "CKA_CHECK_VALUE"
  | .keyType => "CKA_KEY_TYPE"
  | .subject => "CKA_SUBJECT"
  | .id => "CKA_ID"
  | .sensitive => "CKA_SENSITIVE"
  | .encrypt => "CKA_ENCRYPT"
  | .decrypt => "CKA_DECRYPT"
  | .wrap => "CKA_WRAP"
  | .unwrap => "CKA_UNWRAP"
  | .sign => "CKA_SIGN"
  | .signRecover => "CKA_SIGN_RECOVER"
  | .verify => "CKA_VERIFY"
  | .verifyRecover => "CKA_VERIFY_RECOVER"
  | .derive => "CKA_DERIVE"
  | .startDate => "CKA_START_DATE"
  | .endDate => "CKA_END_DATE"
  | .modulus => "CKA_MODULUS"
  | .modulusBits => "CKA_MODULUS_BITS"
  | .publicExponent => "CKA_PUBLIC_EXPONENT"
  | .privateExponent => "CKA_PRIVATE_EXPONENT"
  | .prime1 => "CKA_PRIME_1"
  | .prime2 => "CKA_PRIME_2"
  | .exponent1 => "CKA_EXPONENT_1"
  | .exponent2 => "CKA_EXPONENT_2"
  | .coefficient => "CKA_COEFFICIENT"
  | .publicKeyInfo => "CKA_PUBLIC_KEY_INFO"
  | .prime => "CKA_PRIME"
  | .subprime => "CKA_SUBPRIME"
  | .base => "CKA_BASE"
  | .primeBits => "CKA_PRIME_BITS"
  | .subPrimeBits => "CKA_SUB_PRIME_BITS"
  | .valueBits => "CKA_VALUE_BITS"
  | .valueLen => "CKA_VALUE_LEN"
  | .extractable => "CKA_EXTRACTABLE"
  | .isLocal => "CKA_LOCAL"
  | .neverExtractable => "CKA_NEVER_EXTRACTABLE"
  | .alwaysSensitive => "CKA_ALWAYS_SENSITIVE"
  | .keyGenMechanism => "CKA_KEY_GEN_MECHANISM"
  | .modifiable => "CKA_MODIFIABLE"
  | .copyable => "CKA_COPYABLE"
  | .destroyable => "CKA_DESTROYABLE"
  | .ecParams => "CKA_EC_PARAMS"
  | .ecPoint => "CKA_EC_POINT"
  | .alwaysAuthenticate => "CKA_ALWAYS_AUTHENTICATE"
  | .wrapWithTrusted => "CKA_WRAP_WITH_TRUSTED"
  | .wrapTemplate => "CKA_WRAP_TEMPLATE"
  | .unwrapTemplate => "CKA_UNWRAP_TEMPLATE"
  | .deriveTemplate => "CKA_DERIVE_TEMPLATE"
  | .hwFeatureType => "CKA_HW_FEATURE_TYPE"
  | .resetOnInit => "CKA_RESET_ON_INIT"
  | .hasReset => "CKA_HAS_RESET"
  | .pixelX => "CKA_PIXEL_X"
  | .pixelY => "CKA_PIXEL_Y"
  | .resolution => "CKA_RESOLUTION"
  | .charRows => "CKA_CHAR_ROWS"
  | .charColumns => "CKA_CHAR_COLUMNS"
  | .bitsPerPixel => "CKA_BITS_PER_PIXEL"
  | .charSets => "CKA_CHAR_SETS"
  | .encodingMethods => "CKA_ENCODING_METHODS"
  | .mimeTypes => "CKA_MIME_TYPES"
  | .allowedMechanisms => "CKA_ALLOWED_MECHANISMS"

def kind : AttributeType → AttributeKind
  | .objectClass | .certificateType | .certificateCategory | .javaMidpSecurityDomain |
    .nameHashAlgorithm | .keyType | .modulusBits | .primeBits | .subPrimeBits | .valueBits |
    .valueLen | .keyGenMechanism | .hwFeatureType | .pixelX | .pixelY | .resolution | .charRows |
    .charColumns | .bitsPerPixel => .ulong
  | .startDate | .endDate => .date
  | .allowedMechanisms => .mechanismArray
  | .wrapTemplate | .unwrapTemplate | .deriveTemplate => .attributeArray
  | .label | .application | .value | .objectId | .issuer | .serialNumber | .url |
    .hashOfSubjectPublicKey | .hashOfIssuerPublicKey | .checkValue | .subject | .id | .modulus |
    .publicExponent | .privateExponent | .prime1 | .prime2 | .exponent1 | .exponent2 |
    .coefficient | .publicKeyInfo | .prime | .subprime | .base | .ecParams | .ecPoint |
    .charSets | .encodingMethods | .mimeTypes => .bytes
  | .token | .isPrivate | .trusted | .sensitive | .encrypt | .decrypt | .wrap | .unwrap | .sign |
    .signRecover | .verify | .verifyRecover | .derive | .extractable | .isLocal |
    .neverExtractable | .alwaysSensitive | .modifiable | .copyable | .destroyable |
    .alwaysAuthenticate | .wrapWithTrusted | .resetOnInit | .hasReset => .bool

def ofCode? (w : Word) : Option AttributeType := all.find? (·.code = w)

end AttributeType

/-- The text of a code without a name: its offset from the vendor codes, or its digits. -/
def unnamedCode (group : String) (w : Word) : String :=
  if w &&& 0x80000000 = 0x80000000 then group ++ "_VENDOR_DEFINED+" ++ hexOfWord (w &&& ~~~0x80000000)
  else hexOfWord w

def attributeName (w : Word) : String :=
  match AttributeType.ofCode? w with
  | some t => t.name
  | none => unnamedCode "CKA" w

end Cryptoki
