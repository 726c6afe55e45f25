/-!
# How an operation can stop

Most operations stop with an error that their caller handles. Two things are not such errors: a sum
of addresses that leaves the 64-bit range, and room for more bytes than a process can hold. They
stop the process in which they happen.
-/

namespace CodeVault

/-- Why a process stops, whoever called it. -/
inductive Halt where
  | overflow
  | oversize
  deriving DecidableEq, Repr

/-- What a process says that stops. -/
def Halt.message : Halt → String
  | overflow => "attempt to add with overflow"
  | oversize => "capacity overflow"

/-- An operation stopped with an error, or the process stopped in it. -/
inductive Fault (ε : Type) where
  | error (cause : ε)
  | halt (why : Halt)
  deriving DecidableEq, Repr

/-- The same fault with its error read as another kind of error. -/
def Fault.map {ε φ : Type} (f : ε → φ) : Fault ε → Fault φ
  | .error cause => .error (f cause)
  | .halt why => .halt why

/-- An action that stops with errors only, among actions that may stop the process too. -/
def liftFault {ε σ α : Type} (action : EStateM ε σ α) : EStateM (Fault ε) σ α := fun s =>
  match action s with
  | .ok a s => .ok a s
  | .error e s => .error (.error e) s

instance {ε σ : Type} : MonadLift (EStateM ε σ) (EStateM (Fault ε) σ) := ⟨liftFault⟩

/-- An outcome that does not depend on the state, as an action. -/
def ofOutcome {ε σ α : Type} (outcome : Except ε α) : EStateM ε σ α := fun s =>
  match outcome with
  | .ok a => .ok a s
  | .error e => .error e s

/-- A value that is missing only if an address sum left the 64-bit range. -/
def orOverflow {ε α : Type} : Option α → Except (Fault ε) α
  | some a => .ok a
  | none => .error (.halt .overflow)

/-- An outcome whose errors are read as another kind of error. -/
def liftError {ε φ α : Type} (f : ε → φ) : Except ε α → Except (Fault φ) α
  | .ok a => .ok a
  | .error e => .error (.error (f e))

end CodeVault
