import Cryptoki.Mechanism.Parameters

/-! The text of mechanisms. Buffers are shown by their first bytes and their length. -/
namespace Cryptoki

def Version.debug (v : Version) : String :=
  Layout.record "VersionParams"
    [("major", decimal v.major.toNat), ("minor", decimal v.minor.toNat)]

def RandomData.debug (r : RandomData) : String :=
  Layout.record "RandomDataParams"
    [("client_random", preview r.client), ("server_random", preview r.server)]

def MasterKeyDerivation.fields (p : MasterKeyDerivation) : List (String × String) :=
  [("random_info", p.random.debug), ("version", p.version.debug)]

def ReturnedKeys.debug (r : ReturnedKeys) : String :=
  let handle (h : Option Handle) := Layout.option (h.map Layout.word)
  Layout.record "KeyMaterialOut"
    [("client_mac_secret", handle r.clientMac), ("server_mac_secret", handle r.serverMac),
      ("client_key", handle r.clientKey), ("server_key", handle r.serverKey),
      ("client_iv", preview r.clientIv), ("server_iv", preview r.serverIv)]

def KeyMaterial.fields (p : KeyMaterial) : List (String × String) :=
  [("mac_size_bits", Layout.word p.macBits), ("key_size_bits", Layout.word p.keyBits),
    ("iv_size_bits", Layout.word p.ivBits), ("is_export", Layout.bool p.isExport),
    ("random_info", p.random.debug), ("returned", p.returned.debug)]

namespace ParameterBlock

def content : ParameterBlock → String
  | .version v => v.debug
  | .randomData r => r.debug
  | .masterKeyDerive p => Layout.record "MasterKeyDeriveParams" p.fields
  | .tls12MasterKeyDerive p prf =>
    Layout.record "Tls12MasterKeyDeriveParams" (p.fields ++ [("prf_hash_mechanism", Layout.word prf)])
  | .keyMaterial p => Layout.record "KeyMaterialParams" p.fields
  | .tls12KeyMaterial p prf =>
    Layout.record "Tls12KeyMaterialParams" (p.fields ++ [("prf_hash_mechanism", Layout.word prf)])
  | .initializationVector iv => Layout.record "IvParams" [("iv", preview iv)]
  | .cbcEncryptData p =>
    Layout.record "CbcEncryptDataParams" [("iv", preview p.iv), ("data", preview p.data)]
  | .rsaOaep p =>
    Layout.record "RsaOaepParams" [("hash", quoted (mechanismName p.hash)),
      ("mgf", Layout.word p.mgf), ("source_data", Layout.option (p.source.map preview))]
  | .rsaPss p =>
    Layout.record "RsaPssParams" [("hash", Layout.word p.hash), ("mgf", Layout.word p.mgf),
      ("salt_length", Layout.word p.saltLength)]
  | .gcm p =>
    Layout.record "GcmParams" [("iv", preview p.iv), ("aad", preview p.aad),
      ("tag_bits", Layout.word p.tagBits)]
  | .ccm p =>
    Layout.record "CcmParams" [("data_len", Layout.word p.dataLength),
      ("nonce", preview p.nonce), ("aad", preview p.aad), ("mac_len", Layout.word p.macLength)]

def debug (b : ParameterBlock) : String := Layout.tagged b.family.debug b.content

end ParameterBlock

namespace Mechanism

def debug (m : Mechanism) : String :=
  Layout.record "Mechanism" [("id", Layout.word m.id),
    ("parameters", Layout.option (m.parameters.map ParameterBlock.debug))]

def text (m : Mechanism) : String :=
  mechanismName m.id ++ match m.parameters with
    | none => ""
    | some b => " (" ++ b.debug ++ ")"

end Mechanism

end Cryptoki
