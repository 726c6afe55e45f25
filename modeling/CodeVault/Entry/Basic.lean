import CodeVault.Text.Hexadecimal

/-!
# Entries

An entry describes one artifact of a container, or one written in this run.

* what an entry holds is its kind; what happened to it in this run, and what it is good for, are
  flags;
* `Entry.answers` is the predicate of a look-up;
* `next` links an entry to the one that is invalidated together with it; it lives for one run.
-/

namespace CodeVault

/-! ## 1. Kinds -/

/-- What an entry holds. -/
inductive EntryKind where
  | none
  | adapter
  | stub
  | sharedBlob
  | tier1Blob
  | tier2Blob
  | code
  deriving DecidableEq, Repr

namespace EntryKind

/-- Every kind, by its code. -/
def all : List EntryKind := [.none, .adapter, .stub, .sharedBlob, .tier1Blob, .tier2Blob, .code]

/-- The number of a kind in a container. -/
def number : EntryKind → Nat
  | none => 0
  | adapter => 1
  | stub => 2
  | sharedBlob => 3
  | tier1Blob => 4
  | tier2Blob => 5
  | code => 6

/-- The kind of a number. -/
def ofNumber? (n : Nat) : Option EntryKind := all.find? (·.number == n)

/-- Whether a kind is one of the blobs. -/
def isBlob : EntryKind → Bool
  | sharedBlob | tier1Blob | tier2Blob => true
  | _ => false

/-- The name of a kind. -/
def name : EntryKind → String
  | none => "none"
  | adapter => "adapter"
  | stub => "stub"
  | sharedBlob => "shared-blob"
  | tier1Blob => "tier1-blob"
  | tier2Blob => "tier2-blob"
  | code => "code"

/-- The name of a kind in machine-readable reports. -/
def variantName : EntryKind → String
  | none => "None"
  | adapter => "Adapter"
  | stub => "Stub"
  | sharedBlob => "SharedBlob"
  | tier1Blob => "Tier1Blob"
  | tier2Blob => "Tier2Blob"
  | code => "Code"

theorem ofNumber?_number (kind : EntryKind) : ofNumber? kind.number = some kind := by
  cases kind <;> rfl

theorem number_of_ofNumber? {n : Nat} {kind : EntryKind} (h : ofNumber? n = some kind) :
    kind.number = n := by
  simpa using List.find?_some h

theorem number_le (kind : EntryKind) : kind.number ≤ 6 := by
  cases kind <;> decide

end EntryKind

/-! ## 2. Flags -/

/-- What an entry is good for and what happened to it in this run; `others` are the bits above,
    which mean nothing. -/
structure EntryFlags where
  notEntrant : Bool
  loaded : Bool
  loadFail : Bool
  forPreload : Bool
  initBarriers : Bool
  ignoreDecompile : Bool
  others : Nat
  deriving DecidableEq, Repr

namespace EntryFlags

/-- No flag at all. -/
def none : EntryFlags := ⟨false, false, false, false, false, false, 0⟩

/-- The flags that describe the artifact; the rest describes this run's use of it, or nothing. -/
def persistent (flags : EntryFlags) : EntryFlags :=
  { flags with loaded := false, loadFail := false, others := 0 }

/-- The flags in the order of their bits, each with its name. -/
def named (flags : EntryFlags) : List (String × Bool) :=
  [("NOT_ENTRANT", flags.notEntrant), ("LOADED", flags.loaded), ("LOAD_FAIL", flags.loadFail),
   ("FOR_PRELOAD", flags.forPreload), ("HAS_INIT_BARRIERS", flags.initBarriers),
   ("IGNORE_DECOMPILE", flags.ignoreDecompile)]

/-- The word of the flags, the first flag in the lowest bit. -/
def toNat (flags : EntryFlags) : Nat :=
  flags.notEntrant.toNat + 2 * flags.loaded.toNat + 4 * flags.loadFail.toNat
    + 8 * flags.forPreload.toNat + 16 * flags.initBarriers.toNat + 32 * flags.ignoreDecompile.toNat
    + 64 * flags.others

/-- The flags of a word. -/
def ofNat (bits : Nat) : EntryFlags :=
  ⟨bits % 2 == 1, bits / 2 % 2 == 1, bits / 4 % 2 == 1, bits / 8 % 2 == 1, bits / 16 % 2 == 1,
   bits / 32 % 2 == 1, bits / 64⟩

/-- A bit that is read from a number is the bit that was put there. -/
theorem beq_one_of_eq {n : Nat} {bit : Bool} (h : n = bit.toNat) : (n == 1) = bit := by
  subst h
  cases bit <;> rfl

/-- **The word of flags stands for these flags.** -/
theorem ofNat_toNat (flags : EntryFlags) : ofNat flags.toNat = flags := by
  obtain ⟨a, b, c, d, e, f, others⟩ := flags
  have ha := a.toNat_lt
  have hb := b.toNat_lt
  have hc := c.toNat_lt
  have hd := d.toNat_lt
  have he := e.toNat_lt
  have hf := f.toNat_lt
  simp only [ofNat, toNat, EntryFlags.mk.injEq]
  refine ⟨beq_one_of_eq ?_, beq_one_of_eq ?_, beq_one_of_eq ?_, beq_one_of_eq ?_, beq_one_of_eq ?_,
    beq_one_of_eq ?_, ?_⟩ <;> omega

/-- The flags as messages show them: the names, and the other bits together as one number. -/
def text (flags : EntryFlags) : String :=
  let known := (flags.named.filter (·.2)).map (·.1)
  let all := if flags.others = 0 then known else known ++ [hexadecimal (64 * flags.others)]
  if all.isEmpty then "EntryFlags(0x0)" else "EntryFlags(" ++ " | ".intercalate all ++ ")"

end EntryFlags

/-! ## 3. Entries -/

/-- A name for an entry: one of the container that was loaded, or one written in this run. -/
inductive EntryId where
  | loaded (index : Nat)
  | stored (index : Nat)
  deriving DecidableEq, Repr

/-- An entry's name in messages. -/
def EntryId.text : EntryId → String
  | loaded index => s!"Loaded({index})"
  | stored index => s!"Stored({index})"

/-- The descriptor of one artifact. The offsets of the name and of the code count from `offset`, the
    start of the artifact. -/
structure Entry where
  kind : EntryKind
  id : UInt32
  offset : UInt32
  size : UInt32
  nameOffset : UInt32
  nameSize : UInt32
  codeOffset : UInt32
  codeSize : UInt32
  level : UInt8
  compileId : UInt32
  decompile : UInt32
  inlinedBytecodes : UInt32
  flags : EntryFlags
  next : Option EntryId
  deriving DecidableEq, Repr

/-- What a look-up asks for. -/
structure Query where
  kind : EntryKind
  id : UInt32
  level : UInt8
  decompile : UInt32
  deriving DecidableEq, Repr

namespace Entry

/-- The entry of a kind and an id with nothing else known. -/
def blank (kind : EntryKind) (id : UInt32) : Entry :=
  ⟨kind, id, 0, 0, 0, 0, 0, 0, 0, 0, 0, 0, .none, none⟩

/-- Whether the entry may still be entered. -/
def isEntrant (entry : Entry) : Bool := !entry.flags.notEntrant

/-- Whether the entry answers a query. What failed to load in this run never does. Compiled code
    must besides be entrant, free of barriers, of the level asked for and, unless it was made
    offline, of the decompile count asked for. -/
def answers (entry : Entry) (query : Query) : Bool :=
  entry.kind == query.kind && entry.id == query.id && !entry.flags.loadFail &&
    (query.kind != .code ||
      (entry.isEntrant && !entry.flags.initBarriers && entry.level == query.level &&
        (entry.flags.ignoreDecompile || entry.decompile == query.decompile)))

/-- The entry as it would be in a container: run-local flags and links left out. -/
def persisted (entry : Entry) : Entry :=
  { entry with flags := entry.flags.persistent, next := none }

end Entry

end CodeVault
