import CodeVault.Session.Close

/-!
# Machines

A machine has files, processes, and the sessions that the processes have opened, each under a
number.

* all sessions of one process share its symbol table: what one of them loads or interns, the others
  see;
* all processes share the files: what one session writes, a later session may load;
* what is meant for a session is refused if no session has the number: none was started under it,
  its start stopped, or it was dropped.
-/

namespace CodeVault

/-- A session, and the place of its process among those of the machine. -/
structure OpenedSession where
  place : Nat
  session : Session

/-- The files, processes and sessions of a machine. -/
structure Machine where
  files : FileStore
  processes : Array LiveProcess
  sessions : List (Nat × OpenedSession)

/-- An action on a machine. What it changed before it stopped stays changed. An action that ends
    without a value and without a stop is refused: no session has the number that it is for. -/
abbrev MachineM := EStateM (Option Stop) Machine

namespace Machine

/-! ## 1. Sessions by number -/

/-- The machine without a session. -/
def forget (machine : Machine) (number : Nat) : Machine :=
  { machine with sessions := machine.sessions.filter (·.1 != number) }

/-- The machine with a session under a number, in place of one that was there. -/
def put (machine : Machine) (number : Nat) (opened : OpenedSession) : Machine :=
  { machine with sessions := (number, opened) :: (machine.forget number).sessions }

/-- The session under a number, with its process. -/
def find? (machine : Machine) (number : Nat) : Option (LiveProcess × OpenedSession) := do
  let opened ← machine.sessions.lookup number
  let process ← machine.processes[opened.place]?
  return (process, opened)

/-- The machine with other symbols in one process. -/
def setSymbols (machine : Machine) (place : Nat) (symbols : SymbolTable) : Machine :=
  { machine with processes := machine.processes.modify place ({ · with symbols }) }

/-- Acts in the session under a number; refused if there is none. -/
def inSession {α : Type} (number : Nat) (action : LiveProcess → SessionM α) : MachineM α :=
  fun machine =>
    match machine.find? number with
    | none => .error none machine
    | some (process, opened) =>
      match action process opened.session with
      | .ok a session => .ok a (machine.put number { opened with session })
      | .error stop session => .error (some stop) (machine.put number { opened with session })

/-! ## 2. Closing, dropping and opening -/

/-- Closes the session under a number, and answers the path that was written; refused if there is
    none. -/
def close (number : Nat) (now : UInt64) : MachineM (Option String) := fun machine =>
  match machine.find? number with
  | none => .error none machine
  | some (process, opened) =>
    match Session.close process.symbols now ⟨opened.session, machine.files⟩ with
    | .ok path after =>
      .ok path ({ machine with files := after.files }.put number
        { opened with session := after.session })
    | .error stop after =>
      .error (some stop)
        ({ machine with files := after.files }.put number { opened with session := after.session })

/-- Drops the session under a number, and answers whether there was one. -/
def drop (number : Nat) (now : UInt64) : MachineM Bool := fun machine =>
  match machine.find? number with
  | none => .ok false machine
  | some (process, opened) =>
    match Session.drop process.symbols now ⟨opened.session, machine.files⟩ with
    | .ok () after => .ok true { machine.forget number with files := after.files }
    | .error stop after => .error (some stop) { machine.forget number with files := after.files }

/-- Opens a session in a process, and answers it. A session that had the number is dropped first. -/
def start (number place : Nat) (config : Config) (fingerprint : Fingerprint) (now : UInt64) :
    MachineM (Option Session) := do
  let _ ← drop number now
  fun machine =>
    match machine.processes[place]? with
    | none => .ok none machine
    | some process =>
      match Session.start machine.files config fingerprint process.symbols with
      | .ok (session, symbols) =>
        .ok (some session) ((machine.setSymbols place symbols).put number ⟨place, session⟩)
      | .error stop => .error (some stop) machine

/-! ## 3. Strings -/

/-- Interns a string in a process, and answers its id; nothing without such a process. -/
def intern (place : Nat) (pointer : Address) (text : CText) :
    EStateM SymbolError Machine (Option Nat) := fun machine =>
  match machine.processes[place]? with
  | none => .ok none machine
  | some process =>
    match process.symbols.intern pointer text with
    | .ok (id, symbols) => .ok (some id) (machine.setSymbols place symbols)
    | .error e => .error e machine

end Machine

end CodeVault
