import Cryptoki.Attribute.Type
import Cryptoki.Mechanism.Family

/-! The mechanisms that are known, with what each one expects as parameters. -/
namespace Cryptoki

/-- Code, name and expectation of every mechanism that is known. -/
def mechanisms : List (Word × String × ParameterExpectation) :=
  [(0x0, "CKM_RSA_PKCS_KEY_PAIR_GEN", .noParameters), (0x1, "CKM_RSA_PKCS", .noParameters),
    (0x3, "CKM_RSA_X_509", .noParameters), (0x6, "CKM_SHA1_RSA_PKCS", .noParameters),
    (0x40, "CKM_SHA256_RSA_PKCS", .noParameters), (0x41, "CKM_SHA384_RSA_PKCS", .noParameters),
    (0x42, "CKM_SHA512_RSA_PKCS", .noParameters), (0x9, "CKM_RSA_PKCS_OAEP", .family .rsaOaep),
    (0xD, "CKM_RSA_PKCS_PSS", .family .rsaPss), (0xE, "CKM_SHA1_RSA_PKCS_PSS", .family .rsaPss),
    (0x43, "CKM_SHA256_RSA_PKCS_PSS", .family .rsaPss),
    (0x44, "CKM_SHA384_RSA_PKCS_PSS", .family .rsaPss),
    (0x45, "CKM_SHA512_RSA_PKCS_PSS", .family .rsaPss),
    (0x10, "CKM_DSA_KEY_PAIR_GEN", .noParameters), (0x11, "CKM_DSA", .noParameters),
    (0x20, "CKM_DH_PKCS_KEY_PAIR_GEN", .noParameters),
    (0x1040, "CKM_EC_KEY_PAIR_GEN", .noParameters), (0x1041, "CKM_ECDSA", .noParameters),
    (0x1044, "CKM_ECDSA_SHA256", .noParameters),
    (0x350, "CKM_GENERIC_SECRET_KEY_GEN", .noParameters), (0x210, "CKM_MD5", .noParameters),
    (0x220, "CKM_SHA_1", .noParameters), (0x250, "CKM_SHA256", .noParameters),
    (0x260, "CKM_SHA384", .noParameters), (0x270, "CKM_SHA512", .noParameters),
    (0x221, "CKM_SHA_1_HMAC", .noParameters), (0x251, "CKM_SHA256_HMAC", .noParameters),
    (0x120, "CKM_DES_KEY_GEN", .noParameters), (0x121, "CKM_DES_ECB", .noParameters),
    (0x122, "CKM_DES_CBC", .family .initializationVector),
    (0x125, "CKM_DES_CBC_PAD", .family .initializationVector),
    (0x131, "CKM_DES3_KEY_GEN", .noParameters), (0x132, "CKM_DES3_ECB", .noParameters),
    (0x133, "CKM_DES3_CBC", .family .initializationVector),
    (0x136, "CKM_DES3_CBC_PAD", .family .initializationVector),
    (0x1080, "CKM_AES_KEY_GEN", .noParameters), (0x1081, "CKM_AES_ECB", .noParameters),
    (0x1083, "CKM_AES_MAC", .noParameters), (0x108A, "CKM_AES_CMAC", .noParameters),
    (0x1082, "CKM_AES_CBC", .family .initializationVector),
    (0x1085, "CKM_AES_CBC_PAD", .family .initializationVector),
    (0x2104, "CKM_AES_OFB", .family .initializationVector),
    (0x2107, "CKM_AES_CFB128", .family .initializationVector),
    (0x1087, "CKM_AES_GCM", .family .gcm), (0x1088, "CKM_AES_CCM", .family .ccm),
    (0x1101, "CKM_DES_CBC_ENCRYPT_DATA", .family .cbcEncryptData),
    (0x1103, "CKM_DES3_CBC_ENCRYPT_DATA", .family .cbcEncryptData),
    (0x1105, "CKM_AES_CBC_ENCRYPT_DATA", .family .cbcEncryptData),
    (0x370, "CKM_SSL3_PRE_MASTER_KEY_GEN", .family .version),
    (0x374, "CKM_TLS_PRE_MASTER_KEY_GEN", .family .version),
    (0x371, "CKM_SSL3_MASTER_KEY_DERIVE", .family .masterKeyDerive),
    (0x375, "CKM_TLS_MASTER_KEY_DERIVE", .family .masterKeyDerive),
    (0x372, "CKM_SSL3_KEY_AND_MAC_DERIVE", .family .keyMaterial),
    (0x376, "CKM_TLS_KEY_AND_MAC_DERIVE", .family .keyMaterial),
    (0x3E0, "CKM_TLS12_MASTER_KEY_DERIVE", .family .tls12MasterKeyDerive),
    (0x3E1, "CKM_TLS12_KEY_AND_MAC_DERIVE", .family .tls12KeyMaterial)]

/-- Mechanisms that are not known, those of vendors among them, take any block or none. -/
def expectedParameters (mechanism : Word) : ParameterExpectation :=
  match mechanisms.lookup mechanism with
  | some (_, expectation) => expectation
  | none => .unchecked

def mechanismName (mechanism : Word) : String :=
  match mechanisms.lookup mechanism with
  | some (name, _) => name
  | none => unnamedCode "CKM" mechanism

end Cryptoki
