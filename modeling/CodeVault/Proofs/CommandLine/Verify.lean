import CodeVault.CommandLine.Answer
import CodeVault.Proofs.Outcome

/-!
# What the check of a container accepts

* `Passes`: the bytes are a container, its tables can be read and fit together, and so do the name
  and the section descriptors of every entry;
* **the check ends with 0 exactly for a path at which such bytes are** (`verify_exitCode_iff`), and
  says how many entries there are (`Passes.verify`).
-/

namespace CodeVault.CommandLine

variable {host : Host} {path : String} {image : Bytes} {container : Container}
  {entries : List Entry}

/-! ## 1. The parts of the check -/

theorem orFail_eq_ok {α : Type} {x : Except CacheError α} {a : α} :
    orFail x = .ok a ↔ x = .ok a := by
  cases x <;> simp [orFail]

theorem orFailWith_eq_ok {α : Type} {summary : String} {x : Except CacheError α} {a : α} :
    orFailWith summary x = .ok a ↔ x = .ok a := by
  cases x <;> simp [orFailWith]

/-- A container is opened where the host has its bytes. -/
theorem openContainer_eq_ok : openContainer host path = .ok container ↔
    ∃ image, host.read path = .ok image ∧ Container.ofBytes image = .ok container := by
  rw [openContainer, orFailWith_eq_ok]
  cases host.read path with
  | ok image => simp
  | error cause => simp [throw, throwThe, MonadExceptOf.throw]

/-- **The tables are accepted exactly when the strings can be read and a process can load the
    index.** -/
theorem readTables_eq_ok : readTables container = .ok entries ↔
    container.entries = .ok entries ∧ (∃ strings, container.strings = .ok strings) ∧
      ∃ index, container.loadIndex = .ok index := by
  simp only [readTables, Container.loadIndex, except_bind_eq_ok, orFail_eq_ok, orFailWith_eq_ok]
  constructor
  · rintro ⟨read, hentries, strings, hstrings, keys, hkeys, preload, hpreload, index, hindex, hdone⟩
    cases hdone
    exact ⟨hentries, ⟨strings, hstrings⟩, index, entries, hentries, keys, hkeys, preload,
      hpreload, hindex⟩
  · rintro ⟨hentries, ⟨strings, hstrings⟩, index, read, hread, keys, hkeys, preload,
      hpreload, hindex⟩
    cases hread.symm.trans hentries
    exact ⟨entries, hentries, strings, hstrings, keys, hkeys, preload, hpreload, index, hindex, rfl⟩

/-- An entry is in order when its bytes are there, with a name and section descriptors in them. -/
theorem verifyEntry_eq_ok {entry : Entry} {u : Unit} : verifyEntry container entry = .ok u ↔
    ∃ payload name descriptors, container.payload entry = .ok payload ∧
      Payload.peekName payload entry = .ok name ∧
        Payload.peekSections payload entry = .ok descriptors := by
  simp only [verifyEntry, except_bind_eq_ok]
  constructor
  · rintro ⟨payload, hpayload, name, hname, descriptors, hdescriptors, -⟩
    exact ⟨payload, name, descriptors, hpayload, hname, hdescriptors⟩
  · rintro ⟨payload, name, descriptors, hpayload, hname, hdescriptors⟩
    exact ⟨payload, hpayload, name, hname, descriptors, hdescriptors, rfl⟩

/-- **No entry is damaged exactly when all are in order.** -/
theorem damaged_eq_nil :
    damaged container entries = [] ↔ ∀ entry ∈ entries, verifyEntry container entry = .ok () := by
  simp only [damaged, List.filterMap_eq_nil_iff]
  constructor
  · intro h entry hmem
    obtain ⟨place, hplace⟩ := List.getElem?_of_mem hmem
    have hnone := h (entry, place) (List.mk_mem_zipIdx_iff_getElem?.2 hplace)
    cases hverify : verifyEntry container entry with
    | ok u => rfl
    | error cause =>
      simp only [hverify] at hnone
      cases hnone
  · rintro h ⟨entry, place⟩ hmem
    simp only [h entry (List.mem_of_getElem? (List.mk_mem_zipIdx_iff_getElem?.1 hmem))]

/-! ## 2. The check -/

/-- Bytes that pass the check: they are a container, whose entries, strings and index can be read,
    and each entry is in order. -/
structure Passes (image : Bytes) (container : Container) (entries : List Entry) : Prop where
  accepted : Container.ofBytes image = .ok container
  tables : container.entries = .ok entries
  strings : ∃ strings, container.strings = .ok strings
  index : ∃ index, container.loadIndex = .ok index
  intact : ∀ entry ∈ entries, verifyEntry container entry = .ok ()

/-- **Bytes that pass the check are said to be in order**, with the number of their entries. -/
theorem Passes.verify (h : Passes image container entries) (hread : host.read path = .ok image) :
    CommandLine.verify host path = .success s!"ok {path} ({entries.length} entries)\n" := by
  have hopen : openContainer host path = .ok container :=
    openContainer_eq_ok.2 ⟨image, hread, h.accepted⟩
  have htables : readTables container = .ok entries :=
    readTables_eq_ok.2 ⟨h.tables, h.strings, h.index⟩
  simp only [CommandLine.verify, hopen, htables, bind, Except.bind, pure, Except.pure,
    damaged_eq_nil.2 h.intact]

/-- **The check ends with 0 exactly for a path at which bytes are that pass it.** -/
theorem verify_exitCode_iff : (verify host path).exitCode = 0 ↔
    ∃ image container entries, host.read path = .ok image ∧ Passes image container entries := by
  constructor
  · intro h
    unfold verify at h
    split at h
    · cases h
    · rename_i container entries hread
      obtain ⟨opened, hopen, hread⟩ := except_bind_eq_ok.1 hread
      obtain ⟨read, htables, hdone⟩ := except_bind_eq_ok.1 hread
      cases hdone
      obtain ⟨image, himage, haccepted⟩ := openContainer_eq_ok.1 hopen
      obtain ⟨hentries, hstrings, hindex⟩ := readTables_eq_ok.1 htables
      split at h
      · rename_i hdamaged
        exact ⟨image, container, entries, himage, haccepted, hentries, hstrings, hindex,
          damaged_eq_nil.1 hdamaged⟩
      · cases h
  · rintro ⟨image, container, entries, hread, hpasses⟩
    rw [hpasses.verify hread]
    rfl

end CodeVault.CommandLine
