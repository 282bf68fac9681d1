import Cryptoki.Word

/-! What a token tells about one of its mechanisms. -/
namespace Cryptoki

inductive MechanismFlag where
  | hardware
  | encrypt
  | decrypt
  | digest
  | sign
  | signRecover
  | verify
  | verifyRecover
  | generate
  | generateKeyPair
  | wrap
  | unwrap
  | derive
  deriving DecidableEq, Repr

namespace MechanismFlag

def all : List MechanismFlag :=
  [.hardware, .encrypt, .decrypt, .digest, .sign, .signRecover, .verify, .verifyRecover, .generate,
    .generateKeyPair, .wrap, .unwrap, .derive]

def mask : MechanismFlag → Word
  | .hardware => 0x1
  | .encrypt => 0x100
  | .decrypt => 0x200
  | .digest => 0x400
  | .sign => 0x800
  | .signRecover => 0x1000
  | .verify => 0x2000
  | .verifyRecover => 0x4000
  | .generate => 0x8000
  | .generateKeyPair => 0x10000
  | .wrap => 0x20000
  | .unwrap => 0x40000
  | .derive => 0x80000

def name : MechanismFlag → String
  | .hardware => "is_hardware"
  | .encrypt => "can_encrypt"
  | .decrypt => "can_decrypt"
  | .digest => "can_digest"
  | .sign => "can_sign"
  | .signRecover => "can_sign_recover"
  | .verify => "can_verify"
  | .verifyRecover => "can_verify_recover"
  | .generate => "can_generate"
  | .generateKeyPair => "can_generate_key_pair"
  | .wrap => "can_wrap"
  | .unwrap => "can_unwrap"
  | .derive => "can_derive"

end MechanismFlag

/-- The key sizes that a mechanism takes, and what it can do. -/
structure MechanismInfo where
  minKeySize : Word
  maxKeySize : Word
  flags : Word
  deriving DecidableEq

namespace MechanismInfo

def has (i : MechanismInfo) (f : MechanismFlag) : Bool := hasFlag i.flags f.mask

def flagsSet (i : MechanismInfo) : List MechanismFlag := MechanismFlag.all.filter i.has

end MechanismInfo

end Cryptoki
