import Cryptoki.Token.Talk

/-! Tokens that follow a script: responses prepared beforehand and taken in order, whatever is asked.
When the script has ended, no function is supported. -/
namespace Cryptoki

/-- What is written to a buffer: the output that is given, or the input with each byte changed. -/
inductive ScriptedOutput where
  | fixed (output : Bytes)
  | masked (mask : UInt8)
  deriving DecidableEq

/-- One response for all requests: each takes from it what it asks for. -/
structure Response where
  refusal : Option Status
  write : MechanismWrite
  /-- The answer to any read of attributes, where it is not looked up by type. -/
  readouts : Option (List Readout)
  known : List Readout
  missing : Status × RawValue
  handle : Option Handle
  handles : Handle × Handle
  output : ScriptedOutput
  /-- The count to report for what is written, where it is not the true one. -/
  report : Option Nat
  sessionInfo : NativeSessionInfo
  tokenInfo : NativeTokenInfo
  mechanismInfo : MechanismInfo
  moduleInfo : NativeModuleInfo

namespace Response

def outcome (p : Response) (a : α) : Except Status α :=
  match p.refusal with
  | some s => .error s
  | none => .ok a

def reply (p : Response) (a : α) : Mechanism.Reply α := ⟨p.outcome a, p.write⟩

def readout (p : Response) (type : Word) : Readout :=
  (p.known.find? (·.type = type)).getD ⟨type, p.missing.1, p.missing.2⟩

def outputFor (p : Response) (input : Bytes) : Bytes :=
  match p.output with
  | .fixed output => output
  | .masked mask => input.map (· ^^^ mask)

/-- Whether the output does not fit into the room, so that the response stays for another call. -/
def overflows (p : Response) (input : Bytes) (room : Nat) : Bool :=
  p.refusal.isNone && p.report.isNone && room < (p.outputFor input).length

def delivery (p : Response) (input : Bytes) (room : Nat) : Delivery :=
  if p.overflows input room then ⟨.error Status.bufferTooSmall, []⟩
  else match p.refusal with
    | some s => ⟨.error s, []⟩
    | none => ⟨.ok (p.report.getD (p.outputFor input).length), p.outputFor input⟩

def answer (p : Response) : (r : Request) → r.Answer
  | .readAttributes _ _ types => p.outcome (p.readouts.getD (types.map p.readout))
  | .createObject _ _ => p.outcome (p.handle.getD 0)
  | .generateKey _ _ _ => p.reply (p.handle.getD 0)
  | .generateKeyPair _ _ _ _ => p.reply p.handles
  | .deriveKey _ _ _ _ => p.reply p.handle
  | .destroyObject _ _ => p.outcome ()
  | .start _ _ _ _ => p.reply ()
  | .cipherUpdate _ _ input window => p.delivery input window.length
  | .cipherFinal _ _ window => p.delivery [] window.length
  | .absorb _ _ _ => p.outcome ()
  | .signFinal _ => p.outcome (p.outputFor [])
  | .verifyFinal _ _ => p.outcome ()
  | .digestFinal _ => p.outcome (p.outputFor [])
  | .sessionInfo _ => p.outcome p.sessionInfo
  | .tokenInfo _ => p.outcome p.tokenInfo
  | .mechanismInfo _ _ => p.outcome p.mechanismInfo
  | .moduleInfo => p.outcome p.moduleInfo

def isKeptBy (p : Response) : Request → Bool
  | .cipherUpdate _ _ input window => p.overflows input window.length
  | .cipherFinal _ _ window => p.overflows [] window.length
  | _ => false

end Response

/-- The answer of a token that refuses a request and writes nothing. -/
def Request.refuse (s : Status) : (r : Request) → r.Answer
  | .readAttributes _ _ _ => .error s
  | .createObject _ _ => .error s
  | .generateKey _ _ _ => ⟨.error s, .none⟩
  | .generateKeyPair _ _ _ _ => ⟨.error s, .none⟩
  | .deriveKey _ _ _ _ => ⟨.error s, .none⟩
  | .destroyObject _ _ => .error s
  | .start _ _ _ _ => ⟨.error s, .none⟩
  | .cipherUpdate _ _ _ _ => ⟨.error s, []⟩
  | .cipherFinal _ _ _ => ⟨.error s, []⟩
  | .absorb _ _ _ => .error s
  | .signFinal _ => .error s
  | .verifyFinal _ _ => .error s
  | .digestFinal _ => .error s
  | .sessionInfo _ => .error s
  | .tokenInfo _ => .error s
  | .mechanismInfo _ _ => .error s
  | .moduleInfo => .error s

/-- Responses, each with how many calls it still serves. -/
abbrev Script := List (Response × Nat)

namespace Script

/-- The script after its first response served a call. -/
def advance : Script → Script
  | [] => []
  | (p, uses) :: rest => if 1 < uses then (p, uses - 1) :: rest else rest

def token : Token Script where
  answer r script :=
    match script with
    | [] => (r.refuse Status.functionNotSupported, [])
    | (p, uses) :: rest =>
      (p.answer r, if p.isKeptBy r then (p, uses) :: rest else advance ((p, uses) :: rest))

end Script

end Cryptoki
