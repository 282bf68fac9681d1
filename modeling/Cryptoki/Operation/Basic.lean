import Cryptoki.Mechanism.Returned

/-! Operations of many calls: begun by a first call, ended by a final one or by a failure. What may be
called depends on the phase alone. -/
namespace Cryptoki

inductive Phase where
  | uninitialized
  | initialized
  | finalized
  deriving DecidableEq, Repr

def Phase.name : Phase → String
  | .uninitialized => "Uninitialized"
  | .initialized => "Initialized"
  | .finalized => "Finalized"

/-- What is recorded of an operation. An operation that was begun keeps its mechanism and its key, also
when it has ended. -/
structure Operation where
  mechanism? : Option Mechanism
  key? : Option Handle
  phase : Phase
  deriving DecidableEq

namespace Operation

def uninitialized : Operation := ⟨none, none, .uninitialized⟩

def initialized (mechanism : Mechanism) (key : Option Handle) : Operation :=
  ⟨some mechanism, key, .initialized⟩

def finalized (mechanism : Mechanism) (key : Option Handle) : Operation :=
  ⟨some mechanism, key, .finalized⟩

def isActive (o : Operation) : Bool := o.phase = .initialized

/-- Ends a running operation; any other is left as it is. -/
def abandon (o : Operation) : Operation :=
  if o.isActive then { o with phase := .finalized } else o

/-- Begins an operation with a call. Where the mechanism has no native form, or where an operation
runs, there is no call; where the token refuses, the operation is as before. -/
def start [Monad m] (o : Operation) (kind : OperationKind) (mechanism : Mechanism)
    (key : Option Handle) (host : HostLayouts) (call : NativeMechanism → m (Mechanism.Reply Unit)) :
    m (Except Error Unit × Operation × Mechanism) :=
  if o.isActive then pure (.error (.operationAlreadyActive kind), o, mechanism)
  else do
    let (outcome, mechanism) ← mechanism.use host call
    match outcome with
    | .ok () => pure (.ok (), .initialized mechanism key, mechanism)
    | .error e => pure (.error e, o, mechanism)

/-- What the outcome of a call does to a running operation. A buffer that was too small lets it run,
so that the call may be made again with a larger one; any other failure ends it. -/
def settle (o : Operation) (last : Bool) : Except Status α → Except Error α × Operation
  | .ok a => (.ok a, if last then o.abandon else o)
  | .error s => (.error (.deviceStatus s), if s = Status.bufferTooSmall then o else o.abandon)

/-- A call of a running operation; the final one ends it. Where none runs there is no call. -/
def advance [Monad m] (o : Operation) (kind : OperationKind) (last : Bool)
    (call : m (Except Status α)) : m (Except Error α × Operation) :=
  if o.isActive then o.settle last <$> call
  else pure (.error (.operationNotActive kind), o)

def update [Monad m] (o : Operation) (kind : OperationKind) (call : m (Except Status α)) :
    m (Except Error α × Operation) := o.advance kind false call

def finish [Monad m] (o : Operation) (kind : OperationKind) (call : m (Except Status α)) :
    m (Except Error α × Operation) := o.advance kind true call

@[simp]
theorem phase_uninitialized : uninitialized.phase = .uninitialized := rfl

@[simp]
theorem phase_initialized (m : Mechanism) (key : Option Handle) :
    (initialized m key).phase = .initialized := rfl

@[simp]
theorem phase_finalized (m : Mechanism) (key : Option Handle) :
    (finalized m key).phase = .finalized := rfl

@[simp]
theorem abandon_initialized (m : Mechanism) (key : Option Handle) :
    (initialized m key).abandon = finalized m key := rfl

@[simp]
theorem abandon_finalized (m : Mechanism) (key : Option Handle) :
    (finalized m key).abandon = finalized m key := rfl

theorem isActive_iff (o : Operation) : o.isActive = true ↔ o.phase = .initialized := by
  simp [isActive]

theorem mechanism?_abandon (o : Operation) : o.abandon.mechanism? = o.mechanism? := by
  unfold abandon
  split <;> rfl

theorem key?_abandon (o : Operation) : o.abandon.key? = o.key? := by
  unfold abandon
  split <;> rfl

theorem phase_abandon {o : Operation} (h : o.isActive = true) : o.abandon.phase = .finalized := by
  rw [abandon, if_pos h]

theorem abandon_of_not_isActive {o : Operation} (h : o.isActive = false) : o.abandon = o := by
  rw [abandon, h, if_neg Bool.false_ne_true]

theorem not_isActive_abandon (o : Operation) : o.abandon.isActive = false := by
  cases h : o.isActive with
  | true => simp [isActive, phase_abandon h]
  | false => rw [abandon_of_not_isActive h, h]

@[simp]
theorem abandon_abandon (o : Operation) : o.abandon.abandon = o.abandon :=
  abandon_of_not_isActive o.not_isActive_abandon

/-- Ending an operation does not undo that it was begun. -/
theorem phase_abandon_eq_uninitialized_iff (o : Operation) :
    o.abandon.phase = .uninitialized ↔ o.phase = .uninitialized := by
  cases h : o.isActive with
  | true => simp [phase_abandon h, (o.isActive_iff).mp h]
  | false => rw [abandon_of_not_isActive h]

end Operation

end Cryptoki
