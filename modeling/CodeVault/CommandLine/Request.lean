/-!
# Requests

What the arguments of a command line ask for.

* a command is one word, and its options and its path follow in any order; how much is logged may be
  said before and after it (`Cluster`);
* arguments are taken one after the other: the first that asks for help or the version decides, and
  the first that is not understood makes the whole line refused;
* after `--` nothing is an option any more.
-/

namespace CodeVault.CommandLine

/-! ## 1. Requests -/

/-- What a command line asks to be done with containers. -/
inductive Command where
  | inspect (path : String) (json : Bool)
  | verify (path : String)
  | showConfig (app : Option String)
  deriving DecidableEq, Repr

/-- What a command line asks for. -/
inductive Request where
  | run (command : Command)
  | help
  | version
  deriving DecidableEq, Repr

/-- The words that commands are asked for by. -/
inductive Verb where
  | inspect
  | verify
  | config
  deriving DecidableEq, Repr

namespace Verb

/-- Every command word. -/
def all : List Verb := [.inspect, .verify, .config]

/-- The word of a command. -/
def word : Verb → String
  | inspect => "inspect"
  | verify => "verify"
  | config => "config"

/-- The command of a word. -/
def ofWord? (word : String) : Option Verb := all.find? (·.word == word)

end Verb

/-- What the arguments behind a command word have given so far. -/
structure Given where
  path : Option String
  json : Bool
  app : Option String
  deriving DecidableEq, Repr

namespace Given

/-- Nothing given. -/
def nothing : Given := ⟨none, false, none⟩

/-- One more argument that is no option: a path that is not empty, once, for a command that has
    one. -/
def addPath? (verb : Verb) (given : Given) (value : String) : Option Given :=
  if verb = .config ∨ given.path.isSome ∨ value = "" then none
  else some { given with path := some value }

/-- The option of JSON output, once, for the command that has it. -/
def addJson? (verb : Verb) (given : Given) : Option Given :=
  if verb = .inspect ∧ given.json = false then some { given with json := true } else none

/-- The name of an application, once, for the command that has one. -/
def addApp? (verb : Verb) (given : Given) (value : String) : Option Given :=
  if verb = .config ∧ given.app.isNone then some { given with app := some value } else none

/-- The command, if all that it needs was given. -/
def command? (verb : Verb) (given : Given) : Option Command :=
  match verb with
  | .inspect => given.path.map (.inspect · given.json)
  | .verify => given.path.map .verify
  | .config => some (.showConfig given.app)

end Given

/-! ## 2. Single arguments -/

/-- What a cluster of one-letter options says: that more is logged, or what is asked for instead. -/
inductive Cluster where
  | verbose
  | asks (request : Request)
  deriving DecidableEq, Repr

/-- The meaning of one-letter options behind one `-`; the version may be asked for only before a
    command word (`top`). -/
def cluster? (top : Bool) : List Char → Option Cluster
  | [] => some .verbose
  | 'v' :: rest => cluster? top rest
  | 'h' :: _ => some (.asks .help)
  | 'V' :: _ => if top then some (.asks .version) else none
  | _ => none

/-- What one argument is, in front of those that follow. -/
inductive Argument where
  | endOfOptions
  | long (name : String) (value : Option String)
  | short (letters : List Char)
  | plain (value : String)
  deriving DecidableEq, Repr

/-- An option of more letters, with what follows its first `=`. -/
def longOption (cs : List Char) : Argument :=
  let name := String.ofList (cs.takeWhile (· != '='))
  match cs.dropWhile (· != '=') with
  | [] => .long name none
  | _ :: value => .long name (some (String.ofList value))

/-- Reads one argument; a `-` alone is no option. -/
def Argument.ofText (text : String) : Argument :=
  match text.toList with
  | ['-', '-'] => .endOfOptions
  | '-' :: '-' :: rest => longOption rest
  | '-' :: c :: rest => .short (c :: rest)
  | _ => .plain text

/-! ## 3. Whole lines -/

/-- Takes arguments none of which is an option. -/
def plainArguments (verb : Verb) (given : Given) (arguments : List String) : Option Request :=
  ((arguments.foldlM (Given.addPath? verb) given).bind (Given.command? verb)).map .run

/-- Takes the arguments behind a command word. The name of an application may be the next argument,
    unless that is an option. -/
def commandArguments (verb : Verb) (given : Given) : List String → Option Request
  | [] => (given.command? verb).map .run
  | text :: rest =>
    match Argument.ofText text with
    | .endOfOptions => plainArguments verb given rest
    | .plain value => (given.addPath? verb value).bind (commandArguments verb · rest)
    | .short letters =>
      match cluster? false letters with
      | some .verbose => commandArguments verb given rest
      | some (.asks request) => some request
      | none => none
    | .long "verbose" none => commandArguments verb given rest
    | .long "help" none => some .help
    | .long "json" none => (given.addJson? verb).bind (commandArguments verb · rest)
    | .long "app" (some value) => (given.addApp? verb value).bind (commandArguments verb · rest)
    | .long "app" none =>
      match rest with
      | [] => none
      | next :: rest =>
        match Argument.ofText next with
        | .plain value => (given.addApp? verb value).bind (commandArguments verb · rest)
        | _ => none
    | .long _ _ => none

/-- What follows the word `help`: nothing, itself, or one command word. -/
def helpArguments : List String → Option Request
  | [] => some .help
  | [word] => if word = "help" ∨ (Verb.ofWord? word).isSome then some .help else none
  | _ => none

/-- The request of a command line, if it is understood. -/
def request? : List String → Option Request
  | [] => none
  | text :: rest =>
    match Argument.ofText text with
    | .plain "help" => helpArguments rest
    | .plain word => (Verb.ofWord? word).bind (commandArguments · .nothing rest)
    | .short letters =>
      match cluster? true letters with
      | some .verbose => request? rest
      | some (.asks request) => some request
      | none => none
    | .long "verbose" none => request? rest
    | .long "help" none => some .help
    | .long "version" none => some .version
    | _ => none

end CodeVault.CommandLine
