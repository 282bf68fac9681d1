import Cryptoki.Operation.Basic

/-! Sessions with a token: a handle on a slot, and one operation of each kind. -/
namespace Cryptoki

/-- How much a token takes in one call of a stream, and how much more may come back from it. -/
structure StreamLimits where
  maxChunk : Word
  slack : Word
  deriving DecidableEq

namespace StreamLimits

/-- The limits for tokens of which none are known. -/
def standard : StreamLimits := ⟨4096, 32⟩

/-- A limit of zero lets single bytes pass. -/
def chunkSize (l : StreamLimits) : Nat := max l.maxChunk.toNat 1

/-- The room for a length and the slack on top of it. They are added as words, so that a sum beyond
the last word begins at zero again. -/
def roomFor (l : StreamLimits) (length : Nat) : Nat := (length + l.slack.toNat) % UInt64.size

/-- The room for the output of one call, as long as the token asks for no more. -/
def scratchSize (l : StreamLimits) : Nat := l.roomFor l.chunkSize

def debug (l : StreamLimits) : String :=
  Layout.record "HsmCapabilities"
    [("max_stream_chunk", Layout.word l.maxChunk), ("output_slack", Layout.word l.slack)]

end StreamLimits

structure Operations where
  encrypt : Operation
  decrypt : Operation
  sign : Operation
  verify : Operation
  digest : Operation
  deriving DecidableEq

namespace Operations

def idle : Operations :=
  ⟨.uninitialized, .uninitialized, .uninitialized, .uninitialized, .uninitialized⟩

def get (os : Operations) : OperationKind → Operation
  | .encrypt => os.encrypt
  | .decrypt => os.decrypt
  | .sign => os.sign
  | .verify => os.verify
  | .digest => os.digest

def set (os : Operations) (o : Operation) : OperationKind → Operations
  | .encrypt => { os with encrypt := o }
  | .decrypt => { os with decrypt := o }
  | .sign => { os with sign := o }
  | .verify => { os with verify := o }
  | .digest => { os with digest := o }

@[simp]
theorem get_set (os : Operations) (o : Operation) (k : OperationKind) : (os.set o k).get k = o := by
  cases k <;> rfl

theorem get_set_of_ne (os : Operations) (o : Operation) {j k : OperationKind} (h : j ≠ k) :
    (os.set o k).get j = os.get j := by
  cases j <;> cases k <;> first | rfl | exact absurd rfl h

@[simp]
theorem set_get (os : Operations) (k : OperationKind) : os.set (os.get k) k = os := by
  cases k <;> rfl

@[simp]
theorem set_set (os : Operations) (o p : Operation) (k : OperationKind) :
    (os.set o k).set p k = os.set p k := by
  cases k <;> rfl

end Operations

structure Session where
  handle : Handle
  slot : Word
  limits : StreamLimits
  host : HostLayouts
  operations : Operations
  deriving DecidableEq

namespace Session

/-- A session in which no operation was begun. -/
def ofHandle (handle : Handle) (slot : Word) (limits : StreamLimits) (host : HostLayouts) :
    Session :=
  ⟨handle, slot, limits, host, .idle⟩

def operation (s : Session) (k : OperationKind) : Operation := s.operations.get k

def withOperation (s : Session) (k : OperationKind) (o : Operation) : Session :=
  { s with operations := s.operations.set o k }

def phase (s : Session) (k : OperationKind) : Phase := (s.operation k).phase

theorem phase_eq_initialized_iff {s : Session} {k : OperationKind} :
    s.phase k = .initialized ↔ (s.operation k).isActive = true :=
  (Operation.isActive_iff _).symm

@[simp]
theorem handle_withOperation (s : Session) (k : OperationKind) (o : Operation) :
    (s.withOperation k o).handle = s.handle := rfl

@[simp]
theorem limits_withOperation (s : Session) (k : OperationKind) (o : Operation) :
    (s.withOperation k o).limits = s.limits := rfl

@[simp]
theorem operation_withOperation (s : Session) (k : OperationKind) (o : Operation) :
    (s.withOperation k o).operation k = o := Operations.get_set s.operations o k

theorem isActive_initialized (s : Session) (k : OperationKind) (m : Mechanism)
    (key : Option Handle) :
    ((s.withOperation k (.initialized m key)).operation k).isActive = true := by
  rw [operation_withOperation]
  rfl

theorem operation_withOperation_of_ne (s : Session) (o : Operation) {j k : OperationKind}
    (h : j ≠ k) : (s.withOperation k o).operation j = s.operation j :=
  Operations.get_set_of_ne s.operations o h

@[simp]
theorem withOperation_withOperation (s : Session) (k : OperationKind) (o p : Operation) :
    (s.withOperation k o).withOperation k p = s.withOperation k p := by
  simp [withOperation]

@[simp]
theorem withOperation_operation (s : Session) (k : OperationKind) :
    s.withOperation k (s.operation k) = s := by
  simp [withOperation, operation]

def debug (s : Session) : String :=
  Layout.openRecord "Session"
    [("handle", Layout.word s.handle), ("slot_id", Layout.word s.slot),
      ("capabilities", s.limits.debug), ("host", s.host.debug)]

end Session

end Cryptoki
