import Cryptoki.Text.Layout

/-! What a token tells about a session. -/
namespace Cryptoki

inductive SessionState where
  | roPublic
  | roUser
  | rwPublic
  | rwUser
  | rwSecurityOfficer
  | unknown (code : Word)
  deriving DecidableEq, Repr

namespace SessionState

def ofCode (code : Word) : SessionState :=
  if code = 0 then .roPublic
  else if code = 1 then .roUser
  else if code = 2 then .rwPublic
  else if code = 3 then .rwUser
  else if code = 4 then .rwSecurityOfficer
  else .unknown code

def isUnknown : SessionState → Bool
  | .unknown _ => true
  | _ => false

def text : SessionState → String
  | .roPublic => "CKS_RO_PUBLIC_SESSION"
  | .roUser => "CKS_RO_USER_FUNCTIONS"
  | .rwPublic => "CKS_RW_PUBLIC_SESSION"
  | .rwUser => "CKS_RW_USER_FUNCTIONS"
  | .rwSecurityOfficer => "CKS_RW_SO_FUNCTIONS"
  | .unknown code => "unknown session state " ++ hexOfWord code

def debug : SessionState → String
  | .roPublic => "RoPublic"
  | .roUser => "RoUser"
  | .rwPublic => "RwPublic"
  | .rwUser => "RwUser"
  | .rwSecurityOfficer => "RwSecurityOfficer"
  | .unknown code => Layout.tagged "Unknown" (Layout.word code)

end SessionState

inductive SessionFlag where
  | readWrite
  | serial
  deriving DecidableEq, Repr

namespace SessionFlag

def all : List SessionFlag := [.readWrite, .serial]

def mask : SessionFlag → Word
  | .readWrite => 0x2
  | .serial => 0x4

def name : SessionFlag → String
  | .readWrite => "is_read_write"
  | .serial => "is_serial"

end SessionFlag

structure NativeSessionInfo where
  slot : Word
  state : Word
  flags : Word
  deviceError : Word
  deriving DecidableEq

structure SessionInfo where
  slot : Word
  state : SessionState
  flags : Word
  deviceError : Word
  deriving DecidableEq

namespace SessionInfo

def ofNative (n : NativeSessionInfo) : SessionInfo :=
  ⟨n.slot, .ofCode n.state, n.flags, n.deviceError⟩

def has (i : SessionInfo) (f : SessionFlag) : Bool := hasFlag i.flags f.mask

def flagsSet (i : SessionInfo) : List SessionFlag := SessionFlag.all.filter i.has

def text (i : SessionInfo) : String :=
  "slot " ++ Layout.word i.slot ++ ": " ++ i.state.text ++ " (" ++
    (if i.has .readWrite then "rw" else "ro") ++ "), device error " ++ hexOfWord i.deviceError

end SessionInfo

end Cryptoki
