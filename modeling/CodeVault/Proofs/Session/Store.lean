import CodeVault.Proofs.Artifact.Payload
import CodeVault.Proofs.Index.Flags
import CodeVault.Session.Basic

/-!
# Storing an artifact

* **an artifact that is stored gets the next id of this run, and its payload stands behind
  everything written before** (`writeEntry_ok`);
* whatever comes of it, everything written before stays (`keeps_writeEntry`).
-/

namespace CodeVault.Session

open Arena Bytes

variable {process : LiveProcess} {offline : Bool} {artifact : Artifact} {index : EntryIndex}
  {arena after : Arena} {base : Bytes}

/-- What is known of an entry that was stored: where its payload is, and what it holds. -/
structure Stored (process : LiveProcess) (offline : Bool) (artifact : Artifact)
    (arena after : Arena) (layout : PayloadLayout) (payload : Bytes) : Prop where
  kind : artifact.kind ≠ .none
  encodes : ∃ encoded, Context.Encodes ⟨process, artifact.compile.forPreload⟩ artifact encoded ∧
    payload = artifact.payload encoded
  bytes : after.bytes = arena.bytes ++ zeros (paddingAfter arena.position) ++ payload
  describes : Context.Describes layout (alignUp arena.position) artifact payload
  offset_lt : layout.offset < wordSpace
  size_lt : layout.size < wordSpace

/-- The payload stands where the entry says. -/
theorem Stored.partAt {layout : PayloadLayout} {payload : Bytes}
    (h : Stored process offline artifact arena after layout payload) :
    PartAt after.bytes layout.offset payload := by
  have hsize : (arena.bytes ++ zeros (paddingAfter arena.position)).size = layout.offset := by
    rw [Array.size_append, size_zeros, h.describes.offset, alignUp_eq, position]
  rw [h.bytes, ← hsize]
  exact ⟨_, #[], by rw [Array.append_empty], rfl⟩

/-- An artifact that is stored was written, at a place and with a size that fit words, and its entry
    was added. -/
theorem writeEntry_added {added : EntryId × EntryIndex}
    (h : writeEntry process offline artifact index arena = .ok added after) :
    artifact.kind ≠ .none ∧ ∃ layout written,
      Context.writeArtifact ⟨process, artifact.compile.forPreload⟩ artifact arena =
        .ok layout written ∧
      layout.offset < wordSpace ∧ layout.size < wordSpace ∧
      index.addEntry (entryOf offline artifact layout) written = .ok added after := by
  unfold writeEntry at h
  obtain ⟨hkind, h⟩ := (refusal_eq_ok (u := ())).1 h
  obtain ⟨layout, written, hwrite, h⟩ := bind_ok h
  obtain ⟨hoffset, h⟩ := (refusal_eq_ok (u := ())).1 h
  obtain ⟨hsize, h⟩ := (refusal_eq_ok (u := ())).1 h
  refine ⟨hkind, layout, written, hwrite, Nat.not_le.1 hoffset, Nat.not_le.1 hsize, ?_⟩
  cases hadd : index.addEntry (entryOf offline artifact layout) written with
  | error cause last =>
    simp only [hadd] at h
    cases h
  | ok added last =>
    simp only [hadd] at h
    cases h
    rfl

/-- **An artifact that is stored gets the next id, and its payload stands behind everything written
    before.** -/
theorem writeEntry_ok {id : EntryId} {index' : EntryIndex}
    (h : writeEntry process offline artifact index arena = .ok (id, index') after) :
    ∃ layout payload, Stored process offline artifact arena after layout payload ∧
      id = .stored index.stored.size ∧
      index' = { index with
        stored := index.stored.push (index.linked (entryOf offline artifact layout)) } := by
  obtain ⟨hkind, layout, written, hwrite, hoffset, hsize, hadd⟩ := writeEntry_added h
  obtain ⟨encoded, hencodes, hbytes, hdescribes⟩ := Context.writeArtifact_ok hwrite
  obtain ⟨hid, hindex, -, place, hreserve⟩ := EntryIndex.addEntry_ok hadd
  obtain ⟨-, rfl⟩ := reserveTail_ok hreserve
  exact ⟨layout, artifact.payload encoded,
    ⟨hkind, ⟨encoded, hencodes, rfl⟩, hbytes, hdescribes, hoffset, hsize⟩, hid, hindex⟩

theorem keeps_addEntry (entry : Entry) : Keeps base (index.addEntry entry) := by
  unfold EntryIndex.addEntry
  refine Preserves.bind ?_ fun _ => Preserves.unless (u := ()) (preserves_pure _)
  exact (preserves_ensure (fun _ _ h => h) _).bind fun _ _ h => h

/-- An entry that is refused takes the payload behind the base with it. -/
theorem keeps_addLast {entry : Entry} {offset : Nat} (hle : base.size ≤ offset) :
    Keeps base (fun arena =>
      match index.addEntry entry arena with
      | .ok added after => .ok added after
      | .error cause after => .error (.error cause) (after.truncate offset) :
        Encoding (EntryId × EntryIndex)) := by
  intro arena harena
  have hkept : PartAt (stateOf (index.addEntry entry arena)).bytes 0 base :=
    keeps_addEntry entry harena
  cases hadd : index.addEntry entry arena with
  | ok added last =>
    rw [hadd] at hkept
    simp only [hadd]
    exact hkept
  | error cause last =>
    rw [hadd] at hkept
    simp only [hadd]
    exact partAt_truncate hkept hle

/-- **Whatever comes of storing an artifact, everything written before stays.** -/
theorem keeps_writeEntry : Keeps base (writeEntry process offline artifact index) := by
  unfold writeEntry
  refine Preserves.unless (u := ())
    (Preserves.bind_ok (Context.preserves_writeArtifact outlasts_base) ?_)
  intro arena written layout hbase hwrite hwritten
  obtain ⟨encoded, -, hbytes, hdescribes⟩ := Context.writeArtifact_ok hwrite
  have hle : base.size ≤ layout.offset := by
    have h1 := hbase.le
    have h2 : arena.bytes.size ≤ alignUp arena.position := le_alignUp _
    rw [hdescribes.offset]
    omega
  refine (?_ : Keeps base _) hwritten
  refine Preserves.unless (u := ()) ?_
  refine Preserves.unless (u := ()) ?_
  exact keeps_addLast hle

end CodeVault.Session
