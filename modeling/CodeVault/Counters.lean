import CodeVault.Decimal
import CodeVault.Entry.Basic

/-!
# Counters of a run

What a cache did in one run: how much it stored, by kind, how often it was asked, and what came of
that.
-/

namespace CodeVault

/-- The counters of a run. -/
structure Counters where
  stored : Nat
  storeFailures : Nat
  storedStubs : Nat
  storedBlobs : Nat
  storedAdapters : Nat
  storedCode : Nat
  lookups : Nat
  hits : Nat
  loads : Nat
  loadFailures : Nat
  invalidations : Nat
  deriving DecidableEq, Repr

namespace Counters

/-- The counters of a run that has just begun. -/
def zero : Counters := ⟨0, 0, 0, 0, 0, 0, 0, 0, 0, 0, 0⟩

/-- An artifact of a kind was stored. -/
def recordStore (counters : Counters) (kind : EntryKind) : Counters :=
  let counters := { counters with stored := counters.stored + 1 }
  match kind with
  | .stub => { counters with storedStubs := counters.storedStubs + 1 }
  | .adapter => { counters with storedAdapters := counters.storedAdapters + 1 }
  | .code => { counters with storedCode := counters.storedCode + 1 }
  | .sharedBlob | .tier1Blob | .tier2Blob =>
    { counters with storedBlobs := counters.storedBlobs + 1 }
  | .none => counters

/-- An artifact could not be stored. -/
def recordStoreFailure (counters : Counters) : Counters :=
  { counters with storeFailures := counters.storeFailures + 1 }

/-- The cache was asked for an entry, and had it or not. -/
def recordLookup (counters : Counters) (hit : Bool) : Counters :=
  { counters with lookups := counters.lookups + 1, hits := counters.hits + hit.toNat }

/-- An artifact was loaded. -/
def recordLoad (counters : Counters) : Counters := { counters with loads := counters.loads + 1 }

/-- An artifact could not be loaded. -/
def recordLoadFailure (counters : Counters) : Counters :=
  { counters with loadFailures := counters.loadFailures + 1 }

/-- Entries were taken out of use. Many may be counted at once, so this counter is the one that can
    reach the end of its 64 bits, where it starts again. -/
def recordInvalidations (counters : Counters) (count : Nat) : Counters :=
  { counters with invalidations := (UInt64.ofNat (counters.invalidations + count)).toNat }

/-- The share of look-ups that hit. -/
def hitRateText (counters : Counters) : String := shareText counters.hits counters.lookups

end Counters

end CodeVault
