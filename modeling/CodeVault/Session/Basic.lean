import CodeVault.Artifact.Read
import CodeVault.Artifact.Write
import CodeVault.Config.Basic
import CodeVault.Container.Layout
import CodeVault.Counters
import CodeVault.FileStore

/-!
# Sessions

A session is the use that one process makes of a cache: the container that was loaded, the arena
that new artifacts are written to, the index over both, and the policy for failures.

* the failures of one artifact are answered to the caller and nothing else comes of them;
* a failure of the cache as a whole disables the session for good (`failed`);
* data that do not fit the process at all stop the process, and a strict policy does so for
  everything but a failed look-up (`report`).
-/

namespace CodeVault

/-! ## 1. States and outcomes -/

/-- What a session is open for. -/
inductive SessionState where
  | closed
  | openForRead
  | openForWrite
  | openForBoth
  deriving DecidableEq, Repr

namespace SessionState

/-- Whether artifacts can be loaded. -/
def canRead : SessionState → Bool
  | openForRead | openForBoth => true
  | _ => false

/-- Whether artifacts can be stored. -/
def canWrite : SessionState → Bool
  | openForWrite | openForBoth => true
  | _ => false

/-- The state of a session that may read and write as given. -/
def ofAccess (readable writable : Bool) : SessionState :=
  match readable, writable with
  | true, true => openForBoth
  | true, false => openForRead
  | false, true => openForWrite
  | false, false => closed

/-- The name of a state. -/
def name : SessionState → String
  | closed => "Closed"
  | openForRead => "OpenForRead"
  | openForWrite => "OpenForWrite"
  | openForBoth => "OpenForBoth"

end SessionState

/-- The operations whose failures the policy is applied to. -/
inductive Operation where
  | opening
  | storing
  | loading
  | finalizing
  deriving DecidableEq, Repr

/-- The name of an operation in messages. -/
def Operation.name : Operation → String
  | opening => "open"
  | storing => "store"
  | loading => "load"
  | finalizing => "finalize"

/-- How an operation of a session ends without a value: with an error for the caller, or by stopping
    the process, by itself or because the policy says so. -/
inductive Stop where
  | error (cause : CacheError)
  | halt (why : Halt)
  | reported (operation : Operation) (cause : CacheError)
  deriving DecidableEq, Repr

namespace Stop

/-- What a process says that stops; an error for the caller does not stop it. -/
def processMessage? : Stop → Option String
  | error _ => none
  | halt why => some why.message
  | reported operation cause => some s!"code cache {operation.name} failed: {cause.message}"

end Stop

/-! ## 2. Sessions -/

/-- A session of a process. The container and the arena are there while the session is open for
    reading and for writing. -/
structure Session where
  config : Config
  fingerprint : Fingerprint
  container : Option Container
  arena : Option Arena
  index : EntryIndex
  state : SessionState
  failed : Bool
  counters : Counters

/-- An operation of a session. What it changed before it stopped stays changed. -/
abbrev SessionM := EStateM Stop Session

namespace Session

/-- A session in which nothing has been opened. -/
def unopened (config : Config) (fingerprint : Fingerprint) : Session :=
  ⟨config, fingerprint, none, none, .empty, .closed, false, .zero⟩

/-- Whether the policy stops the process because of an error. -/
def mustStop (config : Config) (cause : CacheError) : Bool :=
  cause.severity == .fatal || (config.strict && !cause.isLookupFailure)

/-- Applies the policy to an error: the process stops, or the session is disabled, or nothing. -/
def report (operation : Operation) (cause : CacheError) : SessionM Unit := fun session =>
  if mustStop session.config cause then .error (.reported operation cause) session
  else if cause.severity = .cache then .ok () { session with failed := true }
  else .ok () session

/-- Applies the policy to an error, and if the process goes on, answers the error. -/
def reportAndFail {α : Type} (operation : Operation) (cause : CacheError) : SessionM α := do
  report operation cause
  throw (.error cause)

/-! ## 3. Opening -/

/-- The container at a path with its index, and the symbol table with its strings; nothing if there
    is no such file. -/
def loadContainer (files : FileStore) (path : String) (fingerprint : Fingerprint)
    (symbols : SymbolTable) :
    Except CacheError (Option (Container × EntryIndex × SymbolTable)) :=
  match files.map path with
  | .error .notFound => .ok none
  | .error cause => .error (.io path cause)
  | .ok bytes => do
    let container ← Container.ofBytes bytes
    fingerprint.verify container.header.fingerprint
    let index ← container.loadIndex
    let strings ← container.strings
    match symbols.loadStrings strings with
    | .ok symbols => return some (container, index, symbols)
    | .error cause => throw (.stringSeed cause)

/-- The session in which the container to be reused has been loaded, as far as there is one and it
    is usable, and the symbol table afterwards. -/
def openForReading (files : FileStore) (symbols : SymbolTable) (session : Session) :
    Except Stop (Session × SymbolTable) :=
  match session.config.loadPath with
  | none => .ok (session, symbols)
  | some path =>
    match loadContainer files path session.fingerprint symbols with
    | .ok none => .ok (session, symbols)
    | .ok (some (container, index, symbols)) =>
      .ok ({ session with container := some container, index }, symbols)
    | .error cause =>
      match report .opening cause session with
      | .ok () session => .ok (session, symbols)
      | .error stop _ => .error stop

/-- The session in which new artifacts can be written, if the policy asks for it. -/
def openForWriting (session : Session) : Session :=
  if session.config.storePath.isSome && !session.failed then
    { session with arena := some (.ofCapacity session.config.capacity) }
  else session

/-- Starts a session as the policy asks. Answers the session and the symbol table of the process,
    which has got the strings of the container. -/
def start (files : FileStore) (config : Config) (fingerprint : Fingerprint)
    (symbols : SymbolTable) : Except Stop (Session × SymbolTable) := do
  let (session, symbols) ← (unopened config fingerprint).openForReading files symbols
  let session := session.openForWriting
  return ({ session with
    state := .ofAccess session.container.isSome session.arena.isSome }, symbols)

/-! ## 4. Storing -/

/-- The entry of an artifact that was written. -/
def entryOf (offline : Bool) (artifact : Artifact) (layout : PayloadLayout) : Entry :=
  let compile := artifact.compile
  { kind := artifact.kind
    id := artifact.id
    offset := UInt32.ofNat layout.offset
    size := UInt32.ofNat layout.size
    nameOffset := layout.nameOffset
    nameSize := layout.nameSize
    codeOffset := layout.codeOffset
    codeSize := layout.codeSize
    level := compile.level
    compileId := compile.compileId
    decompile := compile.decompile
    inlinedBytecodes := compile.inlinedBytecodes
    flags := { EntryFlags.none with
      forPreload := compile.forPreload
      initBarriers := compile.initBarriers
      ignoreDecompile := offline && artifact.kind == .code }
    next := none }

/-- Writes an artifact and adds its entry to the index. Without an entry nothing of the artifact
    stays. -/
def writeEntry (process : LiveProcess) (offline : Bool) (artifact : Artifact) (index : EntryIndex) :
    Encoding (EntryId × EntryIndex) := do
  if artifact.kind = .none then throw (.error (.malformed .withoutKind))
  let layout ← Context.writeArtifact ⟨process, artifact.compile.forPreload⟩ artifact
  if wordSpace ≤ layout.offset then throw (.error (.layout (.arenaOffset layout.offset)))
  if wordSpace ≤ layout.size then throw (.error (.layout (.artifactSize layout.size)))
  fun arena =>
    match index.addEntry (entryOf offline artifact layout) arena with
    | .ok added after => .ok added after
    | .error cause after => .error (.error cause) (after.truncate layout.offset)

/-- Stores an artifact and answers the id of its entry. -/
def store (process : LiveProcess) (artifact : Artifact) : SessionM EntryId := fun session =>
  if session.failed then .error (.error .disabled) session
  else match session.arena with
    | none => .error (.error (.notOpen .write)) session
    | some arena =>
      match writeEntry process session.config.offline artifact session.index arena with
      | .ok (id, index) arena =>
        .ok id { session with
          arena := some arena
          index
          counters := session.counters.recordStore artifact.kind }
      | .error (.halt why) arena => .error (.halt why) { session with arena := some arena }
      | .error (.error cause) arena =>
        reportAndFail .storing cause { session with
          arena := some arena
          counters := session.counters.recordStoreFailure }

/-! ## 5. Finding and loading -/

/-- The entry of the loaded container that answers a query, and the session afterwards. -/
def find (query : Query) (session : Session) : Option EntryId × Session :=
  if session.failed || session.container.isNone then (none, session)
  else
    let hit := session.index.find? query
    (hit, { session with counters := session.counters.recordLookup hit.isSome })

/-- The entry of an id. -/
def entry? (session : Session) (id : EntryId) : Option Entry := session.index.get? id

/-- The bytes of an entry. -/
def payload? (session : Session) (id : EntryId) (entry : Entry) : Option Bytes :=
  match id with
  | .loaded _ => do ((← session.container).payload entry).toOption
  | .stored _ => do (← session.arena).bytes.slice? entry.offset.toNat entry.size.toNat

/-- The name of the artifact of an id. -/
def name? (session : Session) (id : EntryId) : Option String := do
  let entry ← session.entry? id
  (Payload.peekName (← session.payload? id entry) entry).toOption

/-- The artifact of an entry of the loaded container. -/
def readEntry (process : LiveProcess) (container : Container) (entry : Entry) :
    Except (Fault CacheError) Artifact :=
  match container.payload entry with
  | .error cause => .error (.error cause)
  | .ok payload => Context.readArtifact ⟨process, entry.flags.forPreload⟩ payload entry

/-- Loads the artifact of an entry of the loaded container. An entry that fails is not tried again
    in this run. -/
def load (process : LiveProcess) (id : EntryId) : SessionM Artifact := fun session =>
  match id with
  | .stored _ => .error (.error (.notOpen .loadingStored)) session
  | .loaded _ =>
    if session.failed then .error (.error .disabled) session
    else match session.container with
      | none => .error (.error (.notOpen .read)) session
      | some container =>
        match session.index.get? id with
        | none => reportAndFail .loading (.corrupt (.missingEntry id)) session
        | some entry =>
          if entry.flags.loadFail then .error (.error (.previouslyFailed entry.id)) session
          else match readEntry process container entry with
            | .ok artifact =>
              .ok artifact { session with
                index := session.index.markLoaded id
                counters := session.counters.recordLoad }
            | .error (.halt why) => .error (.halt why) session
            | .error (.error cause) =>
              reportAndFail .loading cause { session with
                index := session.index.markLoadFail id
                counters := session.counters.recordLoadFailure }

/-- Finds and loads an artifact; an error of the load is a miss. -/
def lookup (process : LiveProcess) (query : Query) : SessionM (Option Artifact) := fun session =>
  match session.find query with
  | (none, session) => .ok none session
  | (some id, session) =>
    match load process id session with
    | .ok artifact session => .ok (some artifact) session
    | .error (.error _) session => .ok none session
    | .error stop session => .error stop session

/-- The entrant entries that the loaded container lists for installation before their first call. -/
def preloadEntries (session : Session) : List EntryId :=
  if !session.config.preload || session.failed || session.container.isNone then []
  else (session.index.preload.toList.map fun i => EntryId.loaded i.toNat).filter fun id =>
    (session.index.get? id).any (·.isEntrant)

/-- Takes an entry and those linked behind it out of use. Answers how many entries changed. -/
def invalidate (id : EntryId) (session : Session) : Nat × Session :=
  let (changed, index) := session.index.invalidate id
  (changed, { session with index, counters := session.counters.recordInvalidations changed })

/-- The header of the loaded container. -/
def loadedHeader? (session : Session) : Option Header := session.container.map (·.header)

/-- A session as reports show it. -/
def text (session : Session) : String :=
  "CodeCache \x7b config: " ++ session.config.text
    ++ s!", state: {session.state.name}, failed: {session.failed}" ++ ", .. \x7d"

end Session

end CodeVault
