/-! The kinds of operation that take more than one call. -/
namespace Cryptoki

inductive OperationKind where
  | encrypt
  | decrypt
  | sign
  | verify
  | digest
  deriving DecidableEq, Repr

def OperationKind.name : OperationKind → String
  | .encrypt => "Encrypt"
  | .decrypt => "Decrypt"
  | .sign => "Sign"
  | .verify => "Verify"
  | .digest => "Digest"

/-- The first word of the names of its calls. -/
def OperationKind.verb : OperationKind → String
  | .encrypt => "encrypt"
  | .decrypt => "decrypt"
  | .sign => "sign"
  | .verify => "verify"
  | .digest => "digest"

def OperationKind.all : List OperationKind := [.encrypt, .decrypt, .sign, .verify, .digest]

def OperationKind.ofVerb? (s : String) : Option OperationKind :=
  OperationKind.all.find? (·.verb = s)

/-- The two kinds that turn their input into output as it comes. -/
inductive Direction where
  | encrypt
  | decrypt
  deriving DecidableEq, Repr

def Direction.kind : Direction → OperationKind
  | .encrypt => .encrypt
  | .decrypt => .decrypt

/-- The three kinds that take all their input in before they answer. -/
inductive Absorber where
  | sign
  | verify
  | digest
  deriving DecidableEq, Repr

def Absorber.kind : Absorber → OperationKind
  | .sign => .sign
  | .verify => .verify
  | .digest => .digest

end Cryptoki
