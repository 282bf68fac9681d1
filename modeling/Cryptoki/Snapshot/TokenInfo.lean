import Cryptoki.Date
import Cryptoki.Snapshot.Counter
import Cryptoki.Text.Padded
import Cryptoki.Version

/-! What a token tells about itself. -/
namespace Cryptoki

inductive TokenFlag where
  | rng
  | writeProtected
  | loginRequired
  | userPinInitialized
  | restoreKeyNotNeeded
  | clockOnToken
  | protectedAuthenticationPath
  | dualCryptoOperations
  | tokenInitialized
  | userPinCountLow
  | userPinFinalTry
  | userPinLocked
  | userPinToBeChanged
  | soPinCountLow
  | soPinFinalTry
  | soPinLocked
  | soPinToBeChanged
  | errorState
  deriving DecidableEq, Repr

namespace TokenFlag

def all : List TokenFlag :=
  [.rng, .writeProtected, .loginRequired, .userPinInitialized, .restoreKeyNotNeeded, .clockOnToken,
    .protectedAuthenticationPath, .dualCryptoOperations, .tokenInitialized, .userPinCountLow,
    .userPinFinalTry, .userPinLocked, .userPinToBeChanged, .soPinCountLow, .soPinFinalTry,
    .soPinLocked, .soPinToBeChanged, .errorState]

def mask : TokenFlag → Word
  | .rng => 0x1
  | .writeProtected => 0x2
  | .loginRequired => 0x4
  | .userPinInitialized => 0x8
  | .restoreKeyNotNeeded => 0x20
  | .clockOnToken => 0x40
  | .protectedAuthenticationPath => 0x100
  | .dualCryptoOperations => 0x200
  | .tokenInitialized => 0x400
  | .userPinCountLow => 0x10000
  | .userPinFinalTry => 0x20000
  | .userPinLocked => 0x40000
  | .userPinToBeChanged => 0x80000
  | .soPinCountLow => 0x100000
  | .soPinFinalTry => 0x200000
  | .soPinLocked => 0x400000
  | .soPinToBeChanged => 0x800000
  | .errorState => 0x1000000

def name : TokenFlag → String
  | .rng => "has_rng"
  | .writeProtected => "is_write_protected"
  | .loginRequired => "is_login_required"
  | .userPinInitialized => "is_user_pin_initialized"
  | .restoreKeyNotNeeded => "is_restore_key_not_needed"
  | .clockOnToken => "has_clock_on_token"
  | .protectedAuthenticationPath => "has_protected_authentication_path"
  | .dualCryptoOperations => "supports_dual_crypto_operations"
  | .tokenInitialized => "is_token_initialized"
  | .userPinCountLow => "is_user_pin_count_low"
  | .userPinFinalTry => "is_user_pin_final_try"
  | .userPinLocked => "is_user_pin_locked"
  | .userPinToBeChanged => "is_user_pin_to_be_changed"
  | .soPinCountLow => "is_so_pin_count_low"
  | .soPinFinalTry => "is_so_pin_final_try"
  | .soPinLocked => "is_so_pin_locked"
  | .soPinToBeChanged => "is_so_pin_to_be_changed"
  | .errorState => "is_in_error_state"

end TokenFlag

structure NativeTokenInfo where
  label : Bytes
  manufacturer : Bytes
  model : Bytes
  serial : Bytes
  flags : Word
  maxSessions : Word
  sessions : Word
  maxRwSessions : Word
  rwSessions : Word
  maxPinLength : Word
  minPinLength : Word
  totalPublicMemory : Word
  freePublicMemory : Word
  totalPrivateMemory : Word
  freePrivateMemory : Word
  hardware : Version
  firmware : Version
  utcTime : Bytes
  deriving DecidableEq

structure TokenInfo where
  label : String
  manufacturer : String
  model : String
  serial : String
  flags : Word
  maxSessions : Counter
  sessions : Counter
  maxRwSessions : Counter
  rwSessions : Counter
  maxPinLength : Word
  minPinLength : Word
  totalPublicMemory : Counter
  freePublicMemory : Counter
  totalPrivateMemory : Counter
  freePrivateMemory : Counter
  hardware : Version
  firmware : Version
  utcTime : Option DateTime
  deriving DecidableEq

/-- A decimal numeral: at least one digit, before which a plus sign may stand. -/
def numeral? (bs : Bytes) : Option Nat :=
  let digits := if bs.head? = some 43 then bs.tail else bs
  if digits = [] then none else digitsValue? digits

/-- The clock of a token, `YYYYMMDDhhmmss`; what follows does not matter. -/
def DateTime.ofClock? (field : Bytes) : Option DateTime :=
  if 14 ≤ field.length then do
    let part (start size : Nat) := numeral? ((field.drop start).take size)
    let year ← part 0 4
    let month ← part 4 2
    let day ← part 6 2
    let date ← (Date.ofCalendar year month day).toOption
    let hour ← part 8 2
    let minute ← part 10 2
    let second ← part 12 2
    let time ← TimeOfDay.ofClock? hour minute second
    return ⟨date, time⟩
  else none

namespace TokenInfo

def ofNative (n : NativeTokenInfo) : TokenInfo where
  label := paddedText n.label
  manufacturer := paddedText n.manufacturer
  model := paddedText n.model
  serial := paddedText n.serial
  flags := n.flags
  maxSessions := .ofLimit n.maxSessions
  sessions := .ofCount n.sessions
  maxRwSessions := .ofLimit n.maxRwSessions
  rwSessions := .ofCount n.rwSessions
  maxPinLength := n.maxPinLength
  minPinLength := n.minPinLength
  totalPublicMemory := .ofCount n.totalPublicMemory
  freePublicMemory := .ofCount n.freePublicMemory
  totalPrivateMemory := .ofCount n.totalPrivateMemory
  freePrivateMemory := .ofCount n.freePrivateMemory
  hardware := n.hardware
  firmware := n.firmware
  utcTime := if hasFlag n.flags TokenFlag.clockOnToken.mask then DateTime.ofClock? n.utcTime
    else none

def has (i : TokenInfo) (f : TokenFlag) : Bool := hasFlag i.flags f.mask

def flagsSet (i : TokenInfo) : List TokenFlag := TokenFlag.all.filter i.has

def text (i : TokenInfo) : String :=
  i.label ++ " (" ++ i.manufacturer ++ " " ++ i.model ++ ", serial " ++ i.serial ++ ")\n" ++
  "  sessions: " ++ i.sessions.text ++ " of " ++ i.maxSessions.text ++
    ", rw sessions: " ++ i.rwSessions.text ++ " of " ++ i.maxRwSessions.text ++ "\n" ++
  "  public memory: " ++ i.freePublicMemory.text ++ " free of " ++ i.totalPublicMemory.text ++
    ", private memory: " ++ i.freePrivateMemory.text ++ " free of " ++ i.totalPrivateMemory.text ++
    "\n" ++
  "  hardware " ++ i.hardware.text ++ ", firmware " ++ i.firmware.text

end TokenInfo

end Cryptoki
