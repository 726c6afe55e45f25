/-!
# The reader gate

Readers of a container run without locks. Before it is taken away, a closer stops new readers and
waits until those inside have left. One signed counter says it all:

* `n ≥ 0`: the gate is open and `n` readers are inside;
* `-(n + 1)`: the gate is closing and `n` readers are still inside;
* `-1`: the gate is closed and nobody is inside.

Each operation is a loop that reads the counter, computes the next value, and installs it if the
counter still has the value read. The next values are `admit?`, `release?` and `shut?`; on one
thread the loop ends at once (`enter`, `exit`, `close`).
-/

namespace CodeVault

/-- The counter of a gate. -/
structure Gate where
  counter : Int
  deriving DecidableEq, Repr

namespace Gate

/-! ## 1. The next value of the counter -/

/-- The counter of a gate that is closed and empty. -/
def closedCounter : Int := -1

/-- The counter with one reader more, while the gate is open. -/
def admit? (current : Int) : Option Int := if current < 0 then none else some (current + 1)

/-- The counter with one reader less, if one is inside. -/
def release? (current : Int) : Option Int :=
  if 0 < current then some (current - 1)
  else if current < closedCounter then some (current + 1)
  else none

/-- The counter of the gate closing, if it is open. -/
def shut? (current : Int) : Option Int := if current < 0 then none else some (-(current + 1))

/-- The number of readers inside. -/
def readers (current : Int) : Nat := if 0 ≤ current then current.toNat else (-(current + 1)).toNat

/-- What a process says that lets out a reader who is not inside. -/
def unmatchedExit : String := "reader gate exit without matching enter"

/-! ## 2. Operations on one thread -/

/-- An open gate with nobody inside. -/
def opened : Gate := ⟨0⟩

/-- Lets a reader in, if the gate is open. -/
def enter (gate : Gate) : Bool × Gate :=
  match admit? gate.counter with
  | some next => (true, ⟨next⟩)
  | none => (false, gate)

/-- Lets a reader out; nothing if nobody is inside. -/
def exit? (gate : Gate) : Option Gate := (release? gate.counter).map Gate.mk

/-- Stops new readers, and says whether this call did. The closer then waits for `isDrained`. -/
def beginClose (gate : Gate) : Bool × Gate :=
  match shut? gate.counter with
  | some next => (true, ⟨next⟩)
  | none => (false, gate)

/-- Whether the gate is closed and nobody is inside, so that a closer need not wait any longer. -/
def isDrained (gate : Gate) : Bool := gate.counter == closedCounter

/-- The number of readers inside. -/
def activeReaders (gate : Gate) : Nat := readers gate.counter

/-- **A reader who was let in can leave, and leaves the gate as it was.** -/
theorem exit?_enter {gate : Gate} (h : gate.enter.1 = true) : gate.enter.2.exit? = some gate := by
  obtain ⟨counter⟩ := gate
  unfold enter admit? at *
  by_cases hneg : counter < 0
  · simp [hneg] at h
  · have hpos : 0 < counter + 1 := by omega
    simp [hneg, exit?, release?, hpos]

end Gate

/-! ## 3. A value behind a gate -/

/-- A value that readers look at through a gate and that a closer takes away. -/
structure Guarded (α : Type) where
  gate : Gate
  value : Option α
  deriving DecidableEq, Repr

namespace Guarded

variable {α : Type}

/-- A value, or none, behind an open gate. -/
def ofOption (value : Option α) : Guarded α := ⟨.opened, value⟩

/-- Lets a reader in who then holds the value; without a value the reader leaves at once. -/
def enter (guarded : Guarded α) : Option α × Guarded α :=
  match guarded.gate.enter with
  | (false, _) => (none, guarded)
  | (true, gate) =>
    match guarded.value with
    | some value => (some value, { guarded with gate })
    | none => (none, { guarded with gate := gate.exit?.getD gate })

/-- Lets a reader out. -/
def leave (guarded : Guarded α) : Guarded α :=
  { guarded with gate := guarded.gate.exit?.getD guarded.gate }

/-- Stops new readers, and says whether this call did. -/
def beginClose (guarded : Guarded α) : Bool × Guarded α :=
  let (first, gate) := guarded.gate.beginClose
  (first, { guarded with gate })

/-- What a closer gets once the gate has drained: the value, if this closer stopped the readers. -/
def take (first : Bool) (guarded : Guarded α) : Option α × Guarded α :=
  if first then (guarded.value, { guarded with value := none }) else (none, guarded)

/-- A guarded value as reports show it. -/
def text (guarded : Guarded α) : String :=
  "Guarded \x7b gate: ReaderGate \x7b state: " ++ toString guarded.gate.counter ++ " \x7d, .. \x7d"

end Guarded

end CodeVault
