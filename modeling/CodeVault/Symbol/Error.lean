import CodeVault.Address
import CodeVault.Symbol.Bucket

/-!
# What can go wrong with symbols

Each constructor is one cause. Some causes concern only the artifact at hand; the others mean that
the table was built in a way that does not fit the data (`isFatal`).
-/

namespace CodeVault

/-- The batch of addresses that a phase installs. -/
inductive Batch where
  | early
  | runtime
  | tier (tier : Tier)
  deriving DecidableEq, Repr

/-- The name of a batch in messages. -/
def Batch.name : Batch → String
  | early => "early"
  | runtime => "runtime"
  | tier .one => "tier 1 blob"
  | tier .two => "tier 2 blob"

/-- Why a symbol table refuses. -/
inductive SymbolError where
  | phaseOrder (found : Phase) (requested : Batch)
  | bucketFull (bucket : Bucket)
  | ambiguous (addr : Address) (first second : Bucket)
  | incomplete (addr : Address) (phase : Phase)
  | unknownAddress (addr : Address)
  | notInstalled (id : Nat) (phase : Phase)
  | unknownId (id : Nat)
  | stringTableFull
  | anchorOutOfRange (distance : Nat)
  | stringIdConflict (index : Nat)
  deriving DecidableEq, Repr

namespace SymbolError

/-- The name of a cause. -/
def name : SymbolError → String
  | phaseOrder .. => "PhaseOrder"
  | bucketFull _ => "BucketFull"
  | ambiguous .. => "Ambiguous"
  | incomplete .. => "Incomplete"
  | unknownAddress _ => "UnknownAddress"
  | notInstalled .. => "NotInstalled"
  | unknownId _ => "UnknownId"
  | stringTableFull => "StringTableFull"
  | anchorOutOfRange _ => "AnchorOutOfRange"
  | stringIdConflict _ => "StringIdConflict"

/-- The wording of a refusal. -/
def message : SymbolError → String
  | phaseOrder found requested =>
    s!"cannot install {requested.name} addresses while the table is in phase {found.name}"
  | bucketFull bucket => s!"{bucket.name} bucket is full ({bucket.max} addresses)"
  | ambiguous addr first second =>
    s!"address {addr.text} is registered in both {first.name} and {second.name}"
  | incomplete addr phase =>
    s!"address {addr.text} is not known while the table is in phase {phase.name}"
  | unknownAddress addr => s!"address {addr.text} is missing from the symbol table"
  | notInstalled id phase =>
    s!"symbol id {id} is not installed while the table is in phase {phase.name}"
  | unknownId id => s!"symbol id {id} does not name any address"
  | stringTableFull => s!"interned string table is full ({maxStrings} strings)"
  | anchorOutOfRange distance =>
    s!"anchor offset {hexadecimal distance} exceeds the encodable range"
  | stringIdConflict index =>
    s!"loaded string {index} differs from the one already pinned at that id"

/-- Whether the table does not fit the data at all; other causes concern one artifact, or may
    pass. -/
def isFatal : SymbolError → Bool
  | incomplete .. | notInstalled .. | stringTableFull | stringIdConflict _ => false
  | _ => true

end SymbolError

end CodeVault
