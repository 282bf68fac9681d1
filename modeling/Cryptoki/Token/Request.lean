import Cryptoki.Mechanism.Returned
import Cryptoki.Object.Readout
import Cryptoki.Snapshot.MechanismInfo
import Cryptoki.Snapshot.ModuleInfo
import Cryptoki.Snapshot.SessionInfo
import Cryptoki.Snapshot.TokenInfo

/-! The calls that a token takes, and what it answers to each of them. -/
namespace Cryptoki

/-- What a call gives back that writes to a buffer: how many bytes it says it wrote, and what it did
write, from the start of the buffer. -/
structure Delivery where
  outcome : Except Status Nat
  output : Bytes

inductive Request where
  | readAttributes (session object : Handle) (types : List Word)
  | createObject (session : Handle) (template : List WireAttribute)
  | generateKey (session : Handle) (mechanism : NativeMechanism) (template : List WireAttribute)
  | generateKeyPair (session : Handle) (mechanism : NativeMechanism)
      (publicTemplate privateTemplate : List WireAttribute)
  | deriveKey (session : Handle) (mechanism : NativeMechanism) (base : Handle)
      (template : List WireAttribute)
  | destroyObject (session object : Handle)
  | start (kind : OperationKind) (session : Handle) (mechanism : NativeMechanism)
      (key : Option Handle)
  | cipherUpdate (direction : Direction) (session : Handle) (input window : Bytes)
  | cipherFinal (direction : Direction) (session : Handle) (window : Bytes)
  | absorb (absorber : Absorber) (session : Handle) (data : Bytes)
  | signFinal (session : Handle)
  | verifyFinal (session : Handle) (signature : Bytes)
  | digestFinal (session : Handle)
  | sessionInfo (session : Handle)
  | tokenInfo (slot : Word)
  | mechanismInfo (slot mechanism : Word)
  | moduleInfo
  deriving DecidableEq

namespace Request

@[reducible]
def Answer : Request → Type
  | .readAttributes _ _ _ => Except Status (List Readout)
  | .createObject _ _ => Except Status Handle
  | .generateKey _ _ _ => Mechanism.Reply Handle
  | .generateKeyPair _ _ _ _ => Mechanism.Reply (Handle × Handle)
  | .deriveKey _ _ _ _ => Mechanism.Reply (Option Handle)
  | .destroyObject _ _ => Except Status Unit
  | .start _ _ _ _ => Mechanism.Reply Unit
  | .cipherUpdate _ _ _ _ => Delivery
  | .cipherFinal _ _ _ => Delivery
  | .absorb _ _ _ => Except Status Unit
  | .signFinal _ => Except Status Bytes
  | .verifyFinal _ _ => Except Status Unit
  | .digestFinal _ => Except Status Bytes
  | .sessionInfo _ => Except Status NativeSessionInfo
  | .tokenInfo _ => Except Status NativeTokenInfo
  | .mechanismInfo _ _ => Except Status MechanismInfo
  | .moduleInfo => Except Status NativeModuleInfo

/-- The name of the call that a request makes. -/
def name : Request → String
  | .readAttributes _ _ _ => "get_attribute_values"
  | .createObject _ _ => "create_object"
  | .generateKey _ _ _ => "generate_key"
  | .generateKeyPair _ _ _ _ => "generate_key_pair"
  | .deriveKey _ _ _ _ => "derive_key"
  | .destroyObject _ _ => "destroy_object"
  | .start kind _ _ _ => kind.verb ++ "_init"
  | .cipherUpdate direction _ _ _ => direction.kind.verb ++ "_update"
  | .cipherFinal direction _ _ => direction.kind.verb ++ "_final"
  | .absorb absorber _ _ => absorber.kind.verb ++ "_update"
  | .signFinal _ => "sign_final"
  | .verifyFinal _ _ => "verify_final"
  | .digestFinal _ => "digest_final"
  | .sessionInfo _ => "get_session_info"
  | .tokenInfo _ => "get_token_info"
  | .mechanismInfo _ _ => "get_mechanism_info"
  | .moduleInfo => "get_info"

/-- The kind of operation that a request belongs to. -/
def kind? : Request → Option OperationKind
  | .start kind _ _ _ => some kind
  | .cipherUpdate direction _ _ _ | .cipherFinal direction _ _ => some direction.kind
  | .absorb absorber _ _ => some absorber.kind
  | .signFinal _ => some .sign
  | .verifyFinal _ _ => some .verify
  | .digestFinal _ => some .digest
  | _ => none

end Request

end Cryptoki
