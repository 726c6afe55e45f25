import CodeVault.Proofs.Session.Runs
import CodeVault.Proofs.Symbol.Loads
import CodeVault.Session.Machine

/-!
# What a machine does to one of its sessions

* `Machine.Move` is what may happen on a machine, with any number of processes and sessions;
* a session that is started reaches another by the symbols of their process only, in which it loads
  the strings of its container (`follows_start`);
* **whatever happens on a machine, a session that stays open in it makes a run, and the symbols of
  its process take events** (`follows_run`).
-/

namespace CodeVault.Machine

open Session

/-! ## 1. Moves -/

/-- What may happen on a machine: somebody changes a file, the symbols of a process change, or a
    session is started, asked for something, closed or dropped. -/
inductive Move where
  | files (files : FileStore)
  | symbols (place : Nat) (event : SymbolEvent)
  | start (number place : Nat) (config : Config) (fingerprint : Fingerprint) (now : UInt64)
  | call (number : Nat) (call : Call)
  | close (number : Nat) (now : UInt64)
  | drop (number : Nat) (now : UInt64)

/-- Whether a move leaves the session under a number open. -/
def Move.Spares (number : Nat) : Move → Prop
  | .start other _ _ _ _ | .close other _ | .drop other _ => number ≠ other
  | _ => True

/-- The machine after a move, whatever its outcome. -/
def after (machine : Machine) : Move → Machine
  | .files files => { machine with files }
  | .symbols place event =>
    match machine.processes[place]? with
    | some process => machine.setSymbols place (process.symbols.apply event)
    | none => machine
  | .start number place config fingerprint now =>
    stateOf (start number place config fingerprint now machine)
  | .call number call =>
    stateOf (machine.inSession number fun process session => .ok () (session.after process call))
  | .close number now => stateOf (close number now machine)
  | .drop number now => stateOf (drop number now machine)

/-- The machine after moves. -/
def run (machine : Machine) (moves : List Move) : Machine := moves.foldl after machine

/-- The list of strings that a move loads in the process at a place. -/
def loaded? (machine : Machine) (place : Nat) : Move → Option (List CText)
  | .symbols other event =>
    if other = place then (machine.processes[place]?).bind (·.symbols.loaded? event) else none
  | .start number other config fingerprint now =>
    match start number other config fingerprint now machine with
    | .ok (some session) _ =>
      if other = place then session.container.bind (·.strings.toOption) else none
    | _ => none
  | _ => none

/-- The lists that are loaded in the process at a place in the course of moves. -/
def loads (machine : Machine) (place : Nat) : List Move → List (List CText)
  | [] => []
  | move :: moves => (machine.loaded? place move).toList ++ (machine.after move).loads place moves

/-! ## 2. Sessions by number -/

variable {machine : Machine} {number other place : Nat} {process : LiveProcess}
  {opened : OpenedSession}

theorem find?_eq_some : machine.find? number = some (process, opened) ↔
    machine.sessions.lookup number = some opened ∧
      machine.processes[opened.place]? = some process := by
  simp only [find?, bind, Option.bind_eq_some_iff, pure, Option.some.injEq, Prod.mk.injEq]
  constructor
  · rintro ⟨_, hopened, _, hprocess, rfl, rfl⟩
    exact ⟨hopened, hprocess⟩
  · rintro ⟨hopened, hprocess⟩
    exact ⟨_, hopened, _, hprocess, rfl, rfl⟩

theorem find?_forget_of_ne (hne : number ≠ other) :
    (machine.forget other).find? number = machine.find? number := by
  simp only [find?, forget, lookup_filter_of_ne hne]

theorem find?_put_of_ne (hne : number ≠ other) :
    (machine.put other opened).find? number = machine.find? number := by
  simp only [find?, put, forget, List.lookup_cons, beq_eq_false_iff_ne.2 hne,
    lookup_filter_of_ne hne]

theorem find?_put_self (h : machine.processes[opened.place]? = some process) :
    (machine.put number opened).find? number = some (process, opened) :=
  find?_eq_some.2 ⟨List.lookup_cons_self, h⟩

/-- Other symbols in a process are seen by its sessions, and by no others. -/
theorem find?_setSymbols (h : machine.find? number = some (process, opened))
    (symbols : SymbolTable) :
    (machine.setSymbols other symbols).find? number =
      some (if other = opened.place then { process with symbols } else process, opened) := by
  obtain ⟨hopened, hprocess⟩ := find?_eq_some.1 h
  refine find?_eq_some.2 ⟨hopened, ?_⟩
  show (machine.processes.modify other _)[opened.place]? = _
  rw [Array.getElem?_modify, hprocess]
  split <;> rfl

/-- Dropping a session leaves all others alone. -/
theorem drop_spares (hne : number ≠ other) (now : UInt64) :
    (stateOf (drop other now machine)).find? number = machine.find? number := by
  unfold drop
  split
  · rfl
  · split
    · exact find?_forget_of_ne hne
    · exact find?_forget_of_ne hne

theorem processes_drop (number : Nat) (now : UInt64) :
    (stateOf (drop number now machine)).processes = machine.processes := by
  unfold drop
  split
  · rfl
  · split <;> rfl

theorem processes_close (number : Nat) (now : UInt64) :
    (stateOf (close number now machine)).processes = machine.processes := by
  unfold close
  split
  · rfl
  · split <;> rfl

/-- Closing a session leaves all others alone. -/
theorem close_spares (hne : number ≠ other) (now : UInt64) :
    (stateOf (close other now machine)).find? number = machine.find? number := by
  unfold close
  split
  · rfl
  · split
    · exact find?_put_of_ne hne
    · exact find?_put_of_ne hne

/-- **What can come of starting a session.** The session that had the number is dropped, and that
    may be all, be it that the process stops or that there is none; otherwise the new one has the
    number, and its process the symbols that go with it. -/
theorem start_outcomes (machine : Machine) (number place : Nat) (config : Config)
    (fingerprint : Fingerprint) (now : UInt64) :
    let dropped := stateOf (drop number now machine)
    let done := start number place config fingerprint now machine
    (∃ stop, done = .error stop dropped) ∨ done = .ok none dropped ∨
      ∃ starter session symbols, dropped.processes[place]? = some starter ∧
        Session.start dropped.files config fingerprint starter.symbols = .ok (session, symbols) ∧
        done = .ok (some session) ((dropped.setSymbols place symbols).put number
          ⟨place, session⟩) := by
  simp only [start, bind, EStateM.bind]
  cases drop number now machine with
  | error stop dropped => exact .inl ⟨stop, rfl⟩
  | ok was dropped =>
    simp only [stateOf_ok]
    cases hhome : dropped.processes[place]? with
    | none => exact .inr (.inl rfl)
    | some starter =>
      cases hstart : Session.start dropped.files config fingerprint starter.symbols with
      | error stop =>
        simp only [hstart]
        exact .inl ⟨_, rfl⟩
      | ok started =>
        simp only [hstart]
        exact .inr (.inr ⟨starter, started.1, started.2, rfl, hstart, rfl⟩)

/-- A session that was started, with its process as it was before, but for the symbols. -/
theorem start_ok {config : Config} {fingerprint : Fingerprint} {now : UInt64} {session : Session}
    {after : Machine} (h : start number place config fingerprint now machine =
      .ok (some session) after) :
    ∃ files starter symbols, machine.processes[place]? = some starter ∧
      Session.start files config fingerprint starter.symbols = .ok (session, symbols) ∧
      after.find? number = some ({ starter with symbols }, ⟨place, session⟩) := by
  rcases start_outcomes machine number place config fingerprint now with
    ⟨stop, hdone⟩ | hdone | ⟨starter, started, symbols, hhome, hstart, hdone⟩
  · cases hdone.symm.trans h
  · cases hdone.symm.trans h
  · cases hdone.symm.trans h
    refine ⟨_, starter, symbols, processes_drop number now ▸ hhome, hstart, find?_put_self ?_⟩
    show ((stateOf (drop number now machine)).processes.modify place _)[place]? = _
    rw [Array.getElem?_modify, if_pos rfl, hhome]
    rfl

theorem start_of_ok {config : Config} {fingerprint : Fingerprint} {session : Session}
    {symbols : SymbolTable} (now : UInt64) (hfree : machine.find? number = none)
    (hhome : machine.processes[place]? = some process)
    (hstart : Session.start machine.files config fingerprint process.symbols =
      .ok (session, symbols)) :
    start number place config fingerprint now machine
      = .ok (some session) ((machine.setSymbols place symbols).put number ⟨place, session⟩) := by
  simp only [start, drop, bind, EStateM.bind, hfree, hhome, hstart]

/-- **An action is refused exactly if no session has the number**, and then changes nothing. -/
theorem inSession_refused_iff {α : Type} {action : LiveProcess → SessionM α} {after : Machine} :
    machine.inSession number action = .error none after ↔
      machine.find? number = none ∧ after = machine := by
  unfold inSession
  cases machine.find? number with
  | none => simp [eq_comm]
  | some found =>
    dsimp only
    split <;> simp

/-- What is done in a session. -/
theorem inSession_ok {α : Type} {action : LiveProcess → SessionM α} {a : α} {after : Machine}
    (h : machine.inSession number action = .ok a after) :
    ∃ process opened session, machine.find? number = some (process, opened) ∧
      action process opened.session = .ok a session ∧
      after = machine.put number { opened with session } := by
  unfold inSession at h
  split at h
  · cases h
  · rename_i process opened hfind
    split at h
    · rename_i hrun
      cases h
      exact ⟨process, opened, _, hfind, hrun, rfl⟩
    · cases h

theorem inSession_of_ok {α : Type} {action : LiveProcess → SessionM α} {a : α} {session : Session}
    (hfind : machine.find? number = some (process, opened))
    (hrun : action process opened.session = .ok a session) :
    machine.inSession number action = .ok a (machine.put number { opened with session }) := by
  simp only [inSession, hfind, hrun]

/-- What closing a session has written. -/
theorem close_ok {now : UInt64} {path : String} {after : Machine}
    (h : close number now machine = .ok (some path) after) :
    ∃ process opened closing, machine.find? number = some (process, opened) ∧
      Session.close process.symbols now ⟨opened.session, machine.files⟩ = .ok (some path) closing ∧
      after.files = closing.files := by
  unfold close at h
  split at h
  · cases h
  · rename_i process opened hfind
    split at h
    · rename_i closing hclose
      cases h
      exact ⟨process, opened, closing, hfind, hclose, rfl⟩
    · cases h

theorem close_of_ok {now : UInt64} {path : Option String} {closing : Closing}
    (hfind : machine.find? number = some (process, opened))
    (hclose : Session.close process.symbols now ⟨opened.session, machine.files⟩ =
      .ok path closing) :
    close number now machine = .ok path
      ({ machine with files := closing.files }.put number
        { opened with session := closing.session }) := by
  simp only [close, hfind, hclose]

/-- The machine that closing a session leaves, with whatever outcome. -/
theorem stateOf_close (hfind : machine.find? number = some (process, opened)) (now : UInt64) :
    let closing := stateOf (Session.close process.symbols now ⟨opened.session, machine.files⟩)
    stateOf (close number now machine) =
      { machine with files := closing.files }.put number
        { opened with session := closing.session } := by
  simp only [close, hfind]
  split
  all_goals
    rename_i hrun
    rw [hrun]
    rfl

/-- The machine that dropping a session leaves, with whatever outcome. -/
theorem stateOf_drop (hfind : machine.find? number = some (process, opened)) (now : UInt64) :
    stateOf (drop number now machine) =
      { machine.forget number with
        files :=
          (stateOf (Session.drop process.symbols now ⟨opened.session, machine.files⟩)).files } := by
  simp only [drop, hfind]
  split
  all_goals
    rename_i hrun
    rw [hrun]
    rfl

/-- The machine that opening a session leaves, with whatever outcome: that without the session that
    had the number, and with the new one if it was started. -/
theorem stateOf_start (machine : Machine) (number place : Nat) (config : Config)
    (fingerprint : Fingerprint) (now : UInt64) :
    let dropped := stateOf (drop number now machine)
    let left := stateOf (start number place config fingerprint now machine)
    left = dropped ∨ ∃ starter session symbols, dropped.processes[place]? = some starter ∧
      Session.start dropped.files config fingerprint starter.symbols = .ok (session, symbols) ∧
      left = (dropped.setSymbols place symbols).put number ⟨place, session⟩ := by
  rcases start_outcomes machine number place config fingerprint now with
    ⟨stop, hdone⟩ | hdone | ⟨starter, session, symbols, hhome, hstart, hdone⟩
  · exact .inl (congrArg stateOf hdone)
  · exact .inl (congrArg stateOf hdone)
  · exact .inr ⟨starter, session, symbols, hhome, hstart, congrArg stateOf hdone⟩

/-! ## 3. Runs -/

/-- A machine on which a session is what it is after a run, and its process has the symbols that it
    has after events, in which lists were loaded. -/
def Follows (machine : Machine) (number place : Nat) (process : LiveProcess) (history : History)
    (lists : List (List CText)) : Prop :=
  ∃ events calls,
    machine.find? number = some ({ process with symbols := process.symbols.after events },
      ⟨place, (history.run calls).session⟩) ∧
    process.symbols.loads events = lists

section Moves

variable {history : History}

/-- What changes nothing in the process nor in the session. -/
theorem follows_of_find? (h : machine.find? number = some (process, ⟨place, history.session⟩)) :
    machine.Follows number place process history [] :=
  ⟨[], [], h, rfl⟩

/-- The symbols of a process after a session was started in it: with the strings of its container,
    or as they were. -/
theorem symbols_of_start {files : FileStore} {config : Config} {fingerprint : Fingerprint}
    {before symbols : SymbolTable} {session : Session}
    (h : Session.start files config fingerprint before = .ok (session, symbols)) :
    ∃ events, symbols = before.after events ∧
      before.loads events = (session.container.bind (·.strings.toOption)).toList := by
  rcases (opened_of_start h).source with
    ⟨hnone, -, rfl⟩ | ⟨container, strings, hsome, -, hstrings, hload⟩
  · exact ⟨[], rfl, by rw [hnone]; rfl⟩
  · refine ⟨[.loaded strings], ?_, ?_⟩
    · simp only [SymbolTable.after_cons, SymbolTable.after_nil, SymbolTable.apply, hload]
    · simp [SymbolTable.loads, SymbolTable.loaded?, hload, hsome, hstrings, Except.isOk,
        Except.toBool, Except.toOption]

/-- **Another session that is started reaches a session by the strings that it loads**, if they are
    in the same process. -/
theorem follows_start (hne : number ≠ other)
    (hfind : machine.find? number = some (process, ⟨place, history.session⟩)) (home : Nat)
    (config : Config) (fingerprint : Fingerprint) (now : UInt64) :
    (machine.after (.start other home config fingerprint now)).Follows number place process history
      (machine.loaded? place (.start other home config fingerprint now)).toList := by
  have hfound := (drop_spares hne now).trans hfind
  rcases start_outcomes machine other home config fingerprint now with
    ⟨stop, hdone⟩ | hdone | ⟨starter, session, symbols, hhome, hstart, hdone⟩
  · simp only [after, loaded?, hdone]
    exact follows_of_find? hfound
  · simp only [after, loaded?, hdone]
    exact follows_of_find? hfound
  · have hput : (((stateOf (drop other now machine)).setSymbols home symbols).put other
        ⟨home, session⟩).find? number
        = _ := (find?_put_of_ne hne).trans (find?_setSymbols hfound symbols)
    simp only [after, loaded?, hdone]
    by_cases hplace : home = place
    · subst hplace
      cases hhome.symm.trans (find?_eq_some.1 hfound).2
      obtain ⟨events, rfl, hloads⟩ := symbols_of_start hstart
      refine ⟨events, [], hput.trans ?_, by rw [hloads, if_pos rfl]⟩
      rw [if_pos rfl]
      rfl
    · rw [if_neg hplace] at hput ⊢
      exact follows_of_find? hput

/-- What changes the symbols of a process. -/
theorem follows_symbols (hfind : machine.find? number = some (process, ⟨place, history.session⟩))
    (home : Nat) (event : SymbolEvent) :
    (machine.after (.symbols home event)).Follows number place process history
      (machine.loaded? place (.symbols home event)).toList := by
  have hhere := (find?_eq_some.1 hfind).2
  by_cases hplace : home = place
  · subst hplace
    simp only [after, loaded?, hhere, if_true, Option.bind_some]
    refine ⟨[event], [], ?_, by simp [SymbolTable.loads]⟩
    rw [find?_setSymbols hfind, if_pos rfl]
    rfl
  · simp only [after, loaded?, hplace, if_false]
    refine follows_of_find? ?_
    split
    · rw [find?_setSymbols hfind, if_neg hplace]
    · exact hfind

/-- **A call of a session is a step of its history**, and one of another session is none. -/
theorem follows_call (hfind : machine.find? number = some (process, ⟨place, history.session⟩))
    (call : Call) :
    (machine.after (.call other call)).Follows number place process history [] := by
  simp only [after, inSession]
  by_cases hsame : other = number
  · subst hsame
    rw [hfind]
    exact ⟨[], [(process, call)], find?_put_self (find?_eq_some.1 hfind).2, rfl⟩
  · refine follows_of_find? ?_
    split
    · exact hfind
    · exact (find?_put_of_ne (Ne.symm hsame)).trans hfind

/-- The machine after a session has stored something. -/
theorem find?_put_store {artifact : Artifact} {id : EntryId} {last : Session}
    (hprocess : machine.processes[place]? = some process)
    (hstore : store process artifact history.session = .ok id last) :
    (machine.put number ⟨place, last⟩).find? number
      = some (process, ⟨place, (history.step (process, .store artifact)).session⟩) := by
  have hafter : (history.step (process, .store artifact)).session = last := by
    simp only [History.step, Session.after, hstore, stateOf_ok]
  rw [hafter]
  exact find?_put_self hprocess

/-- **A move that leaves a session open is followed.** -/
theorem follows_after {move : Move} (hspares : move.Spares number)
    (hfind : machine.find? number = some (process, ⟨place, history.session⟩)) :
    (machine.after move).Follows number place process history
      (machine.loaded? place move).toList := by
  cases move with
  | files files => exact follows_of_find? hfind
  | symbols home event => exact follows_symbols hfind home event
  | start other home config fingerprint now =>
    exact follows_start hspares hfind home config fingerprint now
  | call other call => exact follows_call hfind call
  | close other now => exact follows_of_find? ((close_spares hspares now).trans hfind)
  | drop other now => exact follows_of_find? ((drop_spares hspares now).trans hfind)

/-- **Whatever happens on a machine, a session that stays open in it makes a run, and the symbols of
    its process take events**, in which the lists are loaded that the moves have loaded there. -/
theorem follows_run {moves : List Move} (hspares : ∀ move ∈ moves, move.Spares number)
    (hfind : machine.find? number = some (process, ⟨place, history.session⟩)) :
    (machine.run moves).Follows number place process history (machine.loads place moves) := by
  induction moves generalizing machine process history with
  | nil => exact follows_of_find? hfind
  | cons move moves ih =>
    obtain ⟨hspare, hspares⟩ := List.forall_mem_cons.1 hspares
    obtain ⟨first, calls, hafter, hfirst⟩ := follows_after hspare hfind
    obtain ⟨others, more, hrun, hothers⟩ := ih hspares hafter
    refine ⟨first ++ others, calls ++ more, ?_, ?_⟩
    · rw [History.run_append]
      rw [SymbolTable.after_append]
      exact hrun
    · rw [SymbolTable.loads_append, hfirst, hothers]
      rfl

end Moves

end CodeVault.Machine
