import CodeVault.Proofs.Arena.Refused
import CodeVault.Proofs.Arena.Room
import CodeVault.Proofs.Artifact.RoundTrip
import CodeVault.Proofs.Session.Moves

/-!
# The payloads of a run in its arena

* `EntryIndex.Packed`: the entries of this run have a slot each and their payloads lie one behind
  the other, each at a boundary, below the next byte to be written, which never reaches the slots;
* what fails in the middle of an artifact leaves this as it is (`fits_of_writeEntry_error`), and so
  does every call (`packed_after`);
* **the payload of an artifact stays where it was stored, with the bytes that were stored**
  (`payloads_stay_packed`).
-/

namespace CodeVault

open Arena Bytes

/-! ## 1. Payloads in an arena -/

/-- A payload takes room. -/
theorem Artifact.size_payload_pos (artifact : Artifact) (encoded : Encoded) :
    0 < (artifact.payload encoded).size := by
  simp only [payload, tableBytes, Array.size_append, size_ofU32]
  omega

/-- The entries of this run and their payloads in an arena of that capacity. -/
structure EntryIndex.Packed (capacity : Nat) (index : EntryIndex) (arena : Arena) : Prop where
  fits : arena.Fits capacity (Entry.encodedSize * index.stored.size)
  aligned : ∀ ⦃i : Nat⦄ ⦃entry : Entry⦄, index.stored[i]? = some entry →
    entry.offset.toNat % dataAlignment = 0
  nonempty : ∀ ⦃i : Nat⦄ ⦃entry : Entry⦄, index.stored[i]? = some entry → 0 < entry.size.toNat
  below : ∀ ⦃i : Nat⦄ ⦃entry : Entry⦄, index.stored[i]? = some entry →
    entry.offset.toNat + entry.size.toNat ≤ arena.position
  ascending : ∀ ⦃i j : Nat⦄ ⦃earlier later : Entry⦄, i < j → index.stored[i]? = some earlier →
    index.stored[j]? = some later → earlier.offset.toNat + earlier.size.toNat ≤ later.offset.toNat
  count_le : index.stored.size ≤ arena.position

namespace EntryIndex

variable {capacity : Nat} {index : EntryIndex} {arena after : Arena}

/-- Nothing is in an arena that was just made. -/
theorem packed_ofCapacity (capacity : Nat) (hstored : index.stored = #[]) :
    index.Packed capacity (.ofCapacity capacity) := by
  have hnone : ∀ i : Nat, index.stored[i]? = none := fun i => by
    rw [hstored]
    rfl
  refine ⟨?_, fun i entry h => ?_, fun i entry h => ?_, fun i entry h => ?_,
    fun i j entry _ _ h => ?_, ?_⟩
  · rw [hstored]
    exact fits_ofCapacity capacity
  · cases (hnone i).symm.trans h
  · cases (hnone i).symm.trans h
  · cases (hnone i).symm.trans h
  · cases (hnone i).symm.trans h
  · rw [hstored]
    exact Nat.zero_le _

/-- Flags and links say nothing about where payloads are. -/
theorem Packed.of_evolves {failing : Option EntryId} {now : EntryIndex}
    (h : index.Packed capacity arena) (hevolves : index.Evolves failing now)
    (hsize : now.stored.size = index.stored.size) :
    now.Packed capacity arena := by
  -- Every entry has the place that one had before.
  have hbefore : ∀ ⦃i : Nat⦄ ⦃entry : Entry⦄, now.stored[i]? = some entry →
      ∃ old, index.stored[i]? = some old ∧
      entry.offset = old.offset ∧ entry.size = old.size := by
    intro i entry hentry
    have hlt : i < index.stored.size := hsize ▸ (Array.getElem?_eq_some_iff.1 hentry).1
    have hold : index.get? (.stored i) = some index.stored[i] := Array.getElem?_eq_getElem hlt
    obtain ⟨other, hother, hbecame, -⟩ := hevolves.entries hold
    cases hentry.symm.trans hother
    exact ⟨_, hold, by rw [hbecame.same], by rw [hbecame.same]⟩
  refine ⟨hsize ▸ h.fits, fun i entry hentry => ?_, fun i entry hentry => ?_,
    fun i entry hentry => ?_, fun i j earlier later hlt hearlier hlater => ?_, hsize ▸ h.count_le⟩
  · obtain ⟨old, hold, hoffset, -⟩ := hbefore hentry
    exact hoffset ▸ h.aligned hold
  · obtain ⟨old, hold, -, hsize⟩ := hbefore hentry
    exact hsize ▸ h.nonempty hold
  · obtain ⟨old, hold, hoffset, hsize⟩ := hbefore hentry
    rw [hoffset, hsize]
    exact h.below hold
  · obtain ⟨first, hfirst, hoffset, hsize⟩ := hbefore hearlier
    obtain ⟨second, hsecond, hplace, -⟩ := hbefore hlater
    rw [hoffset, hsize, hplace]
    exact h.ascending hlt hfirst hsecond

/-- More bytes behind the payloads. -/
theorem Packed.grow (h : index.Packed capacity arena)
    (hfits : after.Fits capacity (Entry.encodedSize * index.stored.size))
    (hle : arena.position ≤ after.position) :
    index.Packed capacity after :=
  ⟨hfits, h.aligned, h.nonempty, fun _ _ hentry => Nat.le_trans (h.below hentry) hle, h.ascending,
    Nat.le_trans h.count_le hle⟩

/-- **One more payload at the next boundary**, behind all others, with a slot for its entry. -/
theorem Packed.push {entry : Entry} {payload : Bytes} (h : index.Packed capacity arena)
    (hfits : after.Fits capacity (Entry.encodedSize * index.stored.size + Entry.encodedSize))
    (hbytes : after.bytes = arena.bytes ++ zeros (paddingAfter arena.position) ++ payload)
    (hoffset : entry.offset.toNat = alignUp arena.position)
    (hsize : entry.size.toNat = payload.size) (hpayload : 0 < payload.size) :
    Packed capacity { index with stored := index.stored.push entry } after := by
  have hle := le_alignUp arena.position
  have hposition : after.position = alignUp arena.position + payload.size := by
    rw [position, hbytes, Array.size_append, Array.size_append, size_zeros, alignUp_eq]
    rfl
  have hcases : ∀ ⦃i : Nat⦄ ⦃found : Entry⦄, (index.stored.push entry)[i]? = some found →
      index.stored[i]? = some found ∨ i = index.stored.size ∧ found = entry := by
    intro i found hfound
    rw [Array.getElem?_push] at hfound
    split at hfound
    · cases hfound
      exact .inr ⟨‹_›, rfl⟩
    · exact .inl hfound
  refine ⟨?_, fun i found hfound => ?_, fun i found hfound => ?_, fun i found hfound => ?_,
    fun i j earlier later hlt hearlier hlater => ?_, ?_⟩
  · show after.Fits capacity (Entry.encodedSize * (index.stored.push entry).size)
    rw [Array.size_push, Nat.mul_add_one]
    exact hfits
  · rcases hcases hfound with hold | ⟨-, rfl⟩
    · exact h.aligned hold
    · rw [hoffset, alignUp_mod]
  · rcases hcases hfound with hold | ⟨-, rfl⟩
    · exact h.nonempty hold
    · exact hsize ▸ hpayload
  · rcases hcases hfound with hold | ⟨-, rfl⟩
    · have := h.below hold
      omega
    · omega
  · rcases hcases hearlier with hold | ⟨rfl, rfl⟩
    · rcases hcases hlater with hother | ⟨-, rfl⟩
      · exact h.ascending hlt hold hother
      · have := h.below hold
        omega
    · have hbound : j < (index.stored.push earlier).size := (Array.getElem?_eq_some_iff.1 hlater).1
      rw [Array.size_push] at hbound
      omega
  · have := h.count_le
    show (index.stored.push entry).size ≤ after.position
    rw [Array.size_push]
    omega

end EntryIndex

namespace Session

open EntryIndex

variable {process : LiveProcess} {offline : Bool} {artifact : Artifact} {capacity slots : Nat}
  {index : EntryIndex} {arena after : Arena} {session opened : Session}

/-! ## 2. Storing -/

/-- An entry that was written has taken one slot. -/
theorem fits_of_writeEntry_ok {added : EntryId × EntryIndex} (h : arena.Fits capacity slots)
    (hrun : writeEntry process offline artifact index arena = .ok added after) :
    after.Fits capacity (slots + Entry.encodedSize) := by
  obtain ⟨-, layout, written, hwrite, -, -, hadd⟩ := writeEntry_added hrun
  obtain ⟨-, -, -, place, hreserve⟩ := EntryIndex.addEntry_ok hadd
  exact ((Context.preserves_writeArtifact outlasts_fits).ok h hwrite).reserveTail hreserve

/-- The slot of an entry is refused where there is no room for it, and the entry where there are too
    many. -/
theorem addEntry_error {entry : Entry} {cause : CacheError}
    (h : index.addEntry entry arena = .error cause after) :
    (∃ failed, after = { arena with failed }) ∨ wordSpace ≤ index.stored.size := by
  rcases bind_error h with hreserve | ⟨place, middle, -, hrest⟩
  · rcases bind_error hreserve with hensure | ⟨_, _, -, hcarve⟩
    · exact .inl (ensure_error hensure).2
    · cases hcarve
  · rcases refusal_error (u := ()) hrest with ⟨hmany, -⟩ | ⟨-, hpure⟩
    · exact .inr hmany
    · cases hpure

/-- **A failure in the middle of an artifact takes no slot**, wherever it is. There are never too
    many entries for one more: before that their payloads are too far up. -/
theorem fits_of_writeEntry_error {fault : Fault CacheError} (h : arena.Fits capacity slots)
    (hcount : index.stored.size ≤ arena.position)
    (hrun : writeEntry process offline artifact index arena = .error fault after) :
    after.Fits capacity slots := by
  unfold writeEntry at hrun
  rcases refusal_error (u := ()) hrun with ⟨-, rfl⟩ | ⟨-, hrun⟩
  · exact h
  rcases bind_error hrun with hwrite | ⟨layout, written, hwrite, hrun⟩
  · exact (Context.preserves_writeArtifact outlasts_fits).error h hwrite
  have hwritten : written.Fits capacity slots :=
    (Context.preserves_writeArtifact outlasts_fits).ok h hwrite
  rcases refusal_error (u := ()) hrun with ⟨-, rfl⟩ | ⟨hoffset, hrun⟩
  · exact hwritten
  rcases refusal_error (u := ()) hrun with ⟨-, rfl⟩ | ⟨-, hrun⟩
  · exact hwritten
  cases hadd : index.addEntry (entryOf offline artifact layout) written with
  | ok added last =>
    simp only [hadd] at hrun
    cases hrun
  | error cause last =>
    simp only [hadd] at hrun
    cases hrun
    rcases addEntry_error hadd with ⟨failed, rfl⟩ | hmany
    · exact fits_truncate ⟨hwritten.capacity_eq, hwritten.tail_eq, hwritten.room⟩
    · obtain ⟨encoded, -, -, hdescribes⟩ := Context.writeArtifact_ok hwrite
      have hle := le_alignUp arena.position
      rw [hdescribes.offset] at hoffset
      omega

/-- **The payloads stay packed whatever comes of storing an artifact.** -/
theorem packed_store (harena : session.arena = some arena) (h : session.index.Packed capacity arena)
    (artifact : Artifact) :
    ∃ grown, (stateOf (store process artifact session)).arena = some grown ∧
      (stateOf (store process artifact session)).index.Packed capacity grown := by
  rcases store_outcomes process session artifact with
    ⟨other, after, id, index, hother, hwrite, hstore⟩ | ⟨stop, hstore⟩ |
    ⟨stop, other, fault, grown, failed, counters, hother, hwrite, -, -, hstore⟩
  · cases harena.symm.trans hother
    obtain ⟨layout, payload, hstored, rfl, rfl⟩ := writeEntry_ok hwrite
    obtain ⟨encoded, -, rfl⟩ := hstored.encodes
    rw [hstore]
    refine ⟨after, rfl, h.push (fits_of_writeEntry_ok h.fits hwrite) hstored.bytes ?_ ?_
      (artifact.size_payload_pos encoded)⟩
    · rw [linked_eq]
      exact (toNat_ofNat_of_lt_wordSpace hstored.offset_lt).trans hstored.describes.offset
    · rw [linked_eq]
      exact (toNat_ofNat_of_lt_wordSpace hstored.size_lt).trans hstored.describes.size
  · rw [hstore]
    exact ⟨arena, harena, h⟩
  · cases harena.symm.trans hother
    rw [hstore]
    have hgrown : PartAt grown.bytes 0 arena.bytes := keeps_writeEntry.error (partAt_self _) hwrite
    have hle := hgrown.le
    rw [Nat.zero_add] at hle
    exact ⟨grown, rfl, h.grow (fits_of_writeEntry_error h.fits h.count_le hwrite) hle⟩

/-! ## 3. Runs -/

/-- A session that was started for writing has an arena of the capacity that the policy asks for. -/
theorem arena_of_start {files : FileStore} {config : Config} {fingerprint : Fingerprint}
    {known symbols : SymbolTable}
    (h : Session.start files config fingerprint known = .ok (session, symbols))
    (hwrites : session.arena.isSome = true) :
    session.arena = some (.ofCapacity config.capacity) := by
  obtain ⟨failed, container, index, rfl, -⟩ := start_parts h
  dsimp only at hwrites ⊢
  split at hwrites
  · rename_i hquiet
    rw [if_pos hquiet]
  · cases hwrites

/-- **The payloads stay packed whatever is asked of a session.** -/
theorem packed_after (harena : session.arena = some arena) (h : session.index.Packed capacity arena)
    (call : Call) :
    ∃ grown, (session.after process call).arena = some grown ∧
      (session.after process call).index.Packed capacity grown := by
  have hsteps := steps_after process session call
  -- A call that stores nothing leaves the arena, and the entries of this run where they are.
  have hquiet : (session.after process call).arena = session.arena →
      session.deposited? process call = none →
      ∃ grown, (session.after process call).arena = some grown ∧
        (session.after process call).index.Packed capacity grown := by
    intro hsame hnone
    have hsize := hsteps.stored
    rw [hnone] at hsize
    exact ⟨arena, hsame.trans harena, h.of_evolves hsteps.index hsize⟩
  cases call with
  | store artifact => exact packed_store harena h artifact
  | find query =>
    obtain ⟨counters, hfound⟩ := session.find_eq query
    exact hquiet (by rw [Session.after, hfound]) rfl
  | load id =>
    obtain ⟨index, failed, counters, -, hload⟩ := stateOf_load process session id
    exact hquiet (by rw [Session.after, hload]) rfl
  | lookup query =>
    rcases lookup_cases process session query with
      ⟨counters, hlookup, -⟩ | ⟨id, counted, hlookup, -⟩
    · exact hquiet (by rw [Session.after, hlookup]) rfl
    · obtain ⟨index, failed, counters, -, hload⟩ :=
        stateOf_load process { session with counters := counted } id
      exact hquiet (by rw [Session.after, hlookup, hload]) rfl
  | preloadEntries => exact hquiet rfl rfl
  | invalidate id => exact hquiet rfl rfl

theorem packed_history (harena : opened.arena = some arena) (h : opened.index.Packed capacity arena)
    (calls : List (LiveProcess × Call)) :
    ∃ grown, (opened.history calls).session.arena = some grown ∧
      (opened.history calls).session.index.Packed capacity grown := by
  induction calls using List.reverseRecOn with
  | nil => exact ⟨arena, harena, h⟩
  | append_singleton calls call ih =>
    obtain ⟨before, hbefore, hpacked⟩ := ih
    rw [history_append]
    exact packed_after hbefore hpacked call.2

/-- An entry of this run is one that was stored in it. -/
theorem store_of_stored (hstored : opened.index.stored = #[]) (calls : List (LiveProcess × Call))
    {i : Nat} (hi : i < (opened.history calls).session.index.stored.size) :
    ∃ earlier process artifact later last, calls = earlier ++ (process, .store artifact) :: later ∧
      store process artifact (opened.history earlier).session = .ok (.stored i) last := by
  induction calls using List.reverseRecOn with
  | nil =>
    have hnone : i < opened.index.stored.size := hi
    rw [hstored] at hnone
    exact absurd hnone (Nat.not_lt_zero i)
  | append_singleton calls call ih =>
    by_cases hold : i < (opened.history calls).session.index.stored.size
    · obtain ⟨earlier, process, artifact, later, last, rfl, hstore⟩ := ih hold
      exact ⟨earlier, process, artifact, later ++ [call], last, by simp, hstore⟩
    -- What was not there before the last call was stored by it.
    rw [history_append] at hi
    have hsteps := steps_after call.1 (opened.history calls).session call.2
    have hsize : i < (opened.history calls).session.index.stored.size +
        ((opened.history calls).session.deposited? call.1 call.2).toList.length :=
          hsteps.stored ▸ hi
    cases hdeposited : (opened.history calls).session.deposited? call.1 call.2 with
    | none =>
      rw [hdeposited] at hsize
      exact absurd hsize hold
    | some id =>
      rw [hdeposited] at hsize
      simp only [Option.toList_some, List.length_singleton] at hsize
      obtain ⟨artifact, -, -, -, -, -, hcall, -, hid, -⟩ := stored_of_deposited? hdeposited
      have hlast : i = (opened.history calls).session.index.stored.size := by omega
      rw [hcall, hid, ← hlast] at hdeposited
      refine ⟨calls, call.1, artifact, [], _, ?_, store_of_deposited? hdeposited⟩
      rw [← hcall]

/-- What a call has stored: the bytes that it has put behind those of the arena, at the place that
    the entry says. -/
structure Deposit (before after : Session) (id : EntryId) (entry : Entry)
    (payload : Bytes) : Prop where
  there : after.entry? id = some entry
  written : ∃ arena grown, before.arena = some arena ∧ after.arena = some grown ∧
    grown.bytes = arena.bytes ++ zeros (paddingAfter arena.position) ++ payload ∧
    entry.offset.toNat = alignUp arena.position
  size : entry.size.toNat = payload.size

/-- **The payload of an artifact stays where it was stored, with the bytes that were stored**, and
    the name in it is the artifact's. -/
theorem stays_of_store {last : Session} {id : EntryId} {history : History}
    (hstore : store process artifact history.session = .ok id last)
    (later : List (LiveProcess × Call)) :
    ∃ entry payload now, Deposit history.session last id entry payload ∧
      (history.run ((process, .store artifact) :: later)).session.entry? id = some now ∧
      entry.Became now ∧
      (history.run ((process, .store artifact) :: later)).session.payload? id now = some payload ∧
      (history.run ((process, .store artifact) :: later)).session.name? id =
        some artifact.name := by
  have hafter : (history.step (process, .store artifact)).session = last := by
    show stateOf (store process artifact history.session) = last
    rw [hstore]
    rfl
  obtain ⟨arena, grown, layout, payload, counters, harena, hstored, rfl, hlast⟩ := store_ok hstore
  obtain ⟨entry, hentry, hpayload, -, -⟩ := payload?_depositing hstored counters
  have hlinked : entry =
      history.session.index.linked (entryOf history.session.config.offline artifact layout) :=
    Option.some.inj (hentry.symm.trans Array.getElem?_push_size)
  rw [← hlast] at hentry hpayload
  have hthere : (history.step (process, .store artifact)).session.entry? (.stored _) = some entry :=
    hafter ▸ hentry
  obtain ⟨now, hnow, hbecame, hread⟩ := History.payload?_run hthere (hafter ▸ hpayload) later
  refine ⟨entry, payload, now,
    ⟨hentry, ⟨arena, grown, harena, by rw [hlast]; rfl, hstored.bytes, ?_⟩, ?_⟩, hnow,
    hbecame, hread, ?_⟩
  · rw [hlinked, linked_eq]
    exact (toNat_ofNat_of_lt_wordSpace hstored.offset_lt).trans hstored.describes.offset
  · rw [hlinked, linked_eq]
    exact (toNat_ofNat_of_lt_wordSpace hstored.size_lt).trans hstored.describes.size
  · obtain ⟨encoded, hencodes, rfl⟩ := hstored.encodes
    have hname : Payload.peekName (artifact.payload encoded) now = .ok artifact.name := by
      rw [hbecame.same, hlinked, linked_eq]
      exact Context.peekName_of_encodes hencodes hstored.describes history.session.config.offline
    refine Option.bind_eq_some_iff.2 ⟨now, hnow, Option.bind_eq_some_iff.2 ⟨_, hread, ?_⟩⟩
    rw [hname]
    rfl

/-- **What is stored stays where it is as long as a session is open**, whatever is asked of it, by
    whatever processes, and whatever comes of that. Bytes and slots fit into the arena, and there
    are as many slots as entries; the payloads lie one behind the other at boundaries, in the order
    in which they were stored, below the next byte to be written. Each entry of this run is one that
    a call has stored; its payload is still what that call has written, and the name in it that of
    the artifact. -/
theorem payloads_stay_packed {files : FileStore} {config : Config} {fingerprint : Fingerprint}
    {known symbols : SymbolTable} {calls : List (LiveProcess × Call)}
    (hstart : Session.start files config fingerprint known = .ok (opened, symbols))
    (hwrites : opened.arena.isSome = true) :
    (∃ arena, (opened.history calls).session.arena = some arena ∧
      (opened.history calls).session.index.Packed config.capacity arena) ∧
    (∀ i < (opened.history calls).session.index.stored.size, ∃ earlier process artifact later last,
      calls = earlier ++ (process, .store artifact) :: later ∧
        store process artifact (opened.history earlier).session = .ok (.stored i) last) ∧
    ∀ earlier process artifact later id last,
      calls = earlier ++ (process, .store artifact) :: later →
      store process artifact (opened.history earlier).session = .ok id last →
      ∃ entry payload now, Deposit (opened.history earlier).session last id entry payload ∧
        (opened.history calls).session.entry? id = some now ∧ entry.Became now ∧
        (opened.history calls).session.payload? id now = some payload ∧
        (opened.history calls).session.name? id = some artifact.name := by
  have hstored := (opened_of_start hstart).stored
  refine ⟨?_, fun i hi => store_of_stored hstored calls hi, ?_⟩
  · exact packed_history (arena_of_start hstart hwrites) (packed_ofCapacity _ hstored) calls
  · rintro earlier process artifact later id last rfl hstore
    rw [history_append]
    exact stays_of_store hstore later

/-! An example: a stub is stored, a second one is refused in the middle of its relocations, the
first is invalidated, and it is stored again. -/

/-- A stub with a relocation behind the end of its code. -/
def overlongStub : Artifact :=
  { Context.selfCallingStub with
    sections :=
      ⟨.empty .consts, ⟨.insts, 8192, zeros 16, 16, [⟨.runtimeCall, 40, 0, .address 8196⟩]⟩,
        .empty .stubs⟩ }

/-- What is asked of the session. -/
def storing : List (LiveProcess × Call) :=
  ([.store Context.selfCallingStub, .store overlongStub, .invalidate (.stored 0),
    .store Context.selfCallingStub] : List Call).map (Context.internedOnce, ·)

theorem payloads_stay_packed_storing :
    Session.start (fileAtApp preloadImage) updating plain idle = .ok (updated, idle) ∧
      updated.arena.isSome = true ∧ (updated.history storing).session.index.stored.size = 2 ∧
      (∃ arena, (updated.history storing).session.arena = some arena ∧
        (updated.history storing).session.index.Packed 1024 arena) ∧
      ∃ earlier artifact now, (∃ process later,
        storing = earlier ++ (process, .store artifact) :: later) ∧
        (updated.history storing).session.entry? (.stored 1) = some now ∧
        (updated.history storing).session.name? (.stored 1) = some artifact.name := by
  have hsize : (updated.history storing).session.index.stored.size = 2 := by decide +kernel
  obtain ⟨hpacked, hown, hstays⟩ :=
    @payloads_stay_packed updated _ _ _ _ _ storing start_updating rfl
  obtain ⟨earlier, process, artifact, later, last, hcalls, hstore⟩ := hown 1 (by omega)
  obtain ⟨entry, payload, now, -, hnow, -, -, hname⟩ := hstays _ _ _ _ _ _ hcalls hstore
  exact ⟨start_updating, rfl, hsize, hpacked, earlier, artifact, now, ⟨process, later, hcalls⟩,
    hnow, hname⟩

end Session

end CodeVault
