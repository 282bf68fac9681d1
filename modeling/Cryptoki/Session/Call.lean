import Cryptoki.Session.Absorb
import Cryptoki.Session.Cipher
import Cryptoki.Session.Objects
import Cryptoki.Session.Snapshots

/-! The calls of a session, each with what the caller gives it. -/
namespace Cryptoki

/-- Of the calls that begin an operation, only those of digests take no key. -/
inductive Call where
  | start (kind : OperationKind) (mechanism : Mechanism) (key : Object)
  | startDigest (mechanism : Mechanism)
  | cipherUpdate (direction : Direction) (input buffer : Bytes) (offset : Nat)
  | cipherFinal (direction : Direction) (buffer : Bytes) (offset : Nat)
  | cipherAll (direction : Direction) (mechanism : Mechanism) (key : Object) (data : Bytes)
  | absorb (absorber : Absorber) (data : Bytes)
  | signFinal
  | verifyFinal (signature : Bytes)
  | digestFinal
  | sign (mechanism : Mechanism) (key : Object) (data : Bytes)
  | verify (mechanism : Mechanism) (key : Object) (data signature : Bytes)
  | digest (mechanism : Mechanism) (data : Bytes)
  | reset (kind : OperationKind)
  | createObject (template : Object)
  | generateKey (mechanism : Mechanism) (template : Object)
  | generateKeyPair (mechanism : Mechanism) (publicTemplate privateTemplate : Object)
  | deriveKey (mechanism : Mechanism) (base template : Object)
  | destroyObject (object : Object)
  | refreshObject (object : Object)
  | readObject (handle : Handle)
  | sessionInfo
  | tokenInfo
  | mechanismInfo (mechanism : Word)
  | moduleInfo

namespace Call

/-- What the caller lends the call, to be changed. -/
@[reducible]
def Subject : Call → Type
  | .start _ _ _ | .startDigest _ | .cipherAll _ _ _ _ | .sign _ _ _ | .verify _ _ _ _
  | .digest _ _ | .generateKey _ _ | .generateKeyPair _ _ _ | .deriveKey _ _ _ => Mechanism
  | .cipherUpdate _ _ _ _ | .cipherFinal _ _ _ => Bytes
  | .destroyObject _ | .refreshObject _ => Object
  | .absorb _ _ | .signFinal | .verifyFinal _ | .digestFinal | .reset _ | .createObject _
  | .readObject _ | .sessionInfo | .tokenInfo | .mechanismInfo _ | .moduleInfo => Unit

@[reducible]
def Result : Call → Type
  | .start _ _ _ | .startDigest _ | .absorb _ _ | .reset _ | .destroyObject _ | .refreshObject _ =>
    Unit
  | .cipherUpdate _ _ _ _ | .cipherFinal _ _ _ => Nat
  | .cipherAll _ _ _ _ | .signFinal | .digestFinal | .sign _ _ _ | .digest _ _ => Bytes
  | .verifyFinal _ | .verify _ _ _ _ => Bool
  | .createObject _ | .generateKey _ _ | .readObject _ => Object
  | .generateKeyPair _ _ _ => Action.KeyPair
  | .deriveKey _ _ _ => Option Object
  | .sessionInfo => SessionInfo
  | .tokenInfo => TokenInfo
  | .mechanismInfo _ => MechanismInfo
  | .moduleInfo => ModuleInfo

def subject : (call : Call) → call.Subject
  | .start _ mechanism _ | .startDigest mechanism | .cipherAll _ mechanism _ _
  | .sign mechanism _ _ | .verify mechanism _ _ _ | .digest mechanism _ | .generateKey mechanism _
  | .generateKeyPair mechanism _ _ | .deriveKey mechanism _ _ => mechanism
  | .cipherUpdate _ _ buffer _ | .cipherFinal _ buffer _ => buffer
  | .destroyObject object | .refreshObject object => object
  | .absorb _ _ | .signFinal | .verifyFinal _ | .digestFinal | .reset _ | .createObject _
  | .readObject _ | .sessionInfo | .tokenInfo | .mechanismInfo _ | .moduleInfo => ()

def action : (call : Call) → Action call.Subject call.Result
  | .start kind _ key => Action.startWith kind key
  | .startDigest _ => Action.start .digest none
  | .cipherUpdate direction input _ offset => Action.cipherUpdate direction input offset
  | .cipherFinal direction _ offset => Action.cipherFinal direction offset
  | .cipherAll direction _ key data => Action.cipherAll direction key data
  | .absorb absorber data => Action.absorb absorber data
  | .signFinal => Action.signFinal
  | .verifyFinal signature => Action.verifyFinal signature
  | .digestFinal => Action.digestFinal
  | .sign _ key data => Action.sign key data
  | .verify _ key data signature => Action.verify key data signature
  | .digest _ data => Action.digest data
  | .reset kind => Action.reset kind
  | .createObject template => Action.createObject template
  | .generateKey _ template => Action.generateKey template
  | .generateKeyPair _ publicTemplate privateTemplate =>
    Action.generateKeyPair publicTemplate privateTemplate
  | .deriveKey _ base template => Action.deriveKey base template
  | .destroyObject _ => Action.destroyObject
  | .refreshObject _ => Action.refreshObject
  | .readObject handle => Action.readObject handle
  | .sessionInfo => Action.sessionInfo
  | .tokenInfo => Action.tokenInfo
  | .mechanismInfo mechanism => Action.mechanismInfo mechanism
  | .moduleInfo => Action.moduleInfo

/-- The call in a session with a token. -/
def run (token : Token σ) (call : Call) (session : Session) (t : σ) :
    (Except Error call.Result × Scene call.Subject) × List Exchange × σ :=
  (call.action.perform session call.subject).run token t

end Call

end Cryptoki
