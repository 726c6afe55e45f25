import CodeVault.Proofs.Lists
import CodeVault.Proofs.Outcome
import CodeVault.Session.Close

/-!
# Files that were replaced

* what was put at a place is there, and nothing else has changed (`node?_put_self`,
  `node?_put_of_ne`);
* a path that leads to no directory still leads to the same place once something has been put there,
  as all places on the way are directories (`walk_put`);
* **a file that was put at a path is read from there** (`map_replace`, `map_persist`);
* `Holds`: what is true of the bytes of all files stays true of them if it is true of what is put
  (`Holds.replace`, `holds_persist`), as making directories changes no file.
-/

namespace CodeVault

namespace FileStore

/-! ## 1. Replacing a file -/

theorem node?_put_self {files : FileStore} {place : List String} {node : Node}
    (hroot : place ≠ []) :
    (files.put place node).node? place = some node := by
  rw [node?, if_neg hroot, put, List.lookup_cons_self]

theorem node?_put_of_ne {files : FileStore} {place other : List String} {node : Node}
    (hne : other ≠ place) : (files.put place node).node? other = files.node? other := by
  simp only [node?, put, List.lookup_cons, beq_eq_false_iff_ne.2 hne, lookup_filter_of_ne hne]

/-- **The way to a place that is no directory stays as it was.** -/
theorem walk_put {files : FileStore} {place start there : List String} {names : List String}
    {node : Node} (hfree : files.node? place ≠ some .directory)
    (h : files.walk start names = .ok there) :
    (files.put place node).walk start names = .ok there := by
  induction names generalizing start with
  | nil => exact h
  | cons name names ih =>
    unfold walk at h ⊢
    cases hnode : files.node? start with
    | none => simp [hnode] at h
    | some found =>
      cases found with
      | file bytes => simp [hnode] at h
      | device => simp [hnode] at h
      | directory =>
        have hne : start ≠ place := by
          rintro rfl
          exact hfree hnode
        rw [node?_put_of_ne hne, hnode]
        simp only [hnode] at h
        split at h
        · cases h
        · rename_i hshort
          rw [if_neg hshort]
          split at h
          · rename_i hup
            rw [if_pos hup]
            exact ih h
          · rename_i hdown
            rw [if_neg hdown]
            exact ih h

theorem locate_put {files : FileStore} {path : String} {place there : List String} {node : Node}
    (hfree : files.node? place ≠ some .directory) (h : files.locate path = .ok there) :
    (files.put place node).locate path = .ok there := by
  obtain ⟨names, hnames, hwalk⟩ := except_bind_eq_ok.1 h
  exact except_bind_eq_ok.2 ⟨names, hnames, walk_put hfree hwalk⟩

/-- What a replacement does: the path is one of a file, leads to no directory, and has the bytes
    now. -/
theorem replace_ok {files after : FileStore} {path : String} {bytes : Bytes}
    (h : files.replace path bytes = .ok after) :
    Path.mustBeDirectory path = false ∧ ∃ place, files.locate path = .ok place ∧
      files.node? place ≠ some .directory ∧ after = files.put place (.file bytes) := by
  simp only [replace] at h
  by_cases hnul : Path.hasNul path = true
  · simp only [hnul, if_true] at h
    cases h
  · simp only [hnul] at h
    by_cases hname : Path.isNameless path = true
    · simp only [hname, if_true] at h
      obtain ⟨_, -, h⟩ := except_bind_eq_ok.1 h
      cases h
    · simp only [hname] at h
      obtain ⟨place, hplace, h⟩ := except_bind_eq_ok.1 h
      by_cases hslash : path.endsWith "/" = true
      · simp only [hslash, if_true] at h
        cases h
      · simp only [hslash] at h
        by_cases hfree : files.node? place = some .directory
        · simp only [hfree, if_true] at h
          cases h
        · simp only [hfree, if_false] at h
          cases h
          refine ⟨?_, place, hplace, hfree, rfl⟩
          simp [Path.mustBeDirectory, hslash, hname]

/-- **A file that was put at a path is read from there.** -/
theorem map_replace {files after : FileStore} {path : String} {bytes : Bytes}
    (h : files.replace path bytes = .ok after) : after.map path = .ok bytes := by
  obtain ⟨hend, place, hplace, hfree, rfl⟩ := replace_ok h
  have hroot : place ≠ [] := by
    rintro rfl
    exact hfree rfl
  have hfind : (files.put place (.file bytes)).find path = .ok (.file bytes) := by
    refine except_bind_eq_ok.2 ⟨place, locate_put hfree hplace, ?_⟩
    rw [node?_put_self hroot]
    simp only [hend, Bool.false_eq_true, if_false]
    rfl
  exact except_bind_eq_ok.2 ⟨_, hfind, rfl⟩

/-! ## 2. What all files hold -/

/-- Every file holds such bytes. -/
def Holds (holds : Bytes → Prop) (files : FileStore) : Prop :=
  ∀ place bytes, (place, Node.file bytes) ∈ files.nodes → holds bytes

variable {holds : Bytes → Prop}

/-- What is read from a path is in some file. -/
theorem Holds.of_map {files : FileStore} {path : String} {bytes : Bytes} (h : files.Holds holds)
    (hmap : files.map path = .ok bytes) : holds bytes := by
  obtain ⟨node, hfind, hmap⟩ := except_bind_eq_ok.1 hmap
  cases node with
  | directory => cases hmap
  | device => cases hmap
  | file found =>
    cases hmap
    obtain ⟨place, -, hfind⟩ := except_bind_eq_ok.1 hfind
    cases hnode : files.node? place with
    | none =>
      simp only [hnode] at hfind
      cases hfind
    | some node =>
      have hfile : node = .file bytes := by
        cases node with
        | directory =>
          simp only [hnode] at hfind
          cases hfind
        | file other =>
          simp only [hnode] at hfind
          split at hfind <;> cases hfind
          rfl
        | device =>
          simp only [hnode] at hfind
          split at hfind <;> cases hfind
      subst hfile
      unfold node? at hnode
      split at hnode
      · cases hnode
      · exact h place bytes (mem_of_lookup hnode)

theorem Holds.put {files : FileStore} {place : List String} {node : Node} (h : files.Holds holds)
    (hnode : ∀ bytes, node = .file bytes → holds bytes) : (files.put place node).Holds holds := by
  intro other bytes hmem
  rcases List.mem_cons.1 hmem with heq | hold
  · cases heq
    exact hnode bytes rfl
  · exact h other bytes (List.mem_of_mem_filter hold)

/-- Directories are no files. -/
theorem preserves_makeDirectory (place names : List String) :
    Preserves (Holds holds) (makeDirectory place names) := by
  intro files h
  unfold makeDirectory
  split
  · exact h
  · split
    · exact h.put fun bytes hfile => nomatch hfile
    · exact h
    · exact h
    · exact h

theorem preserves_makeMissing (place names : List String) :
    Preserves (Holds holds) (makeMissing place names) := by
  induction names with
  | nil => exact preserves_pure ()
  | cons name above ih =>
    intro files h
    have hmade : Holds holds (stateOf (makeDirectory place (name :: above).reverse files)) :=
      preserves_makeDirectory place (name :: above).reverse h
    simp only [makeMissing]
    split
    · rename_i between hrun
      rw [hrun] at hmade
      exact (ih.bind fun _ => preserves_makeDirectory place (name :: above).reverse) hmade
    · exact hmade

theorem preserves_makeDirectories (path : String) :
    Preserves (Holds holds) (makeDirectories path) := by
  intro files h
  unfold makeDirectories
  split
  · exact h
  · exact preserves_makeMissing _ _ h

theorem Holds.replace {files after : FileStore} {path : String} {bytes : Bytes}
    (h : files.Holds holds) (hbytes : holds bytes) (hrun : files.replace path bytes = .ok after) :
    after.Holds holds := by
  obtain ⟨-, place, -, -, rfl⟩ := replace_ok hrun
  refine h.put fun other hother => ?_
  cases hother
  exact hbytes

end FileStore

/-- Putting a container at a path, with whatever outcome, leaves files that hold such bytes. -/
theorem Session.holds_persist {holds : Bytes → Prop} {path : String} {image : Bytes}
    {files : FileStore} (h : files.Holds holds) (himage : holds image) :
    (Session.persist path image files).2.Holds holds := by
  unfold Session.persist
  extract_lets directory
  have hmade := FileStore.preserves_makeDirectories directory h
  split
  · rename_i hrun
    rw [hrun] at hmade
    exact hmade
  · rename_i hrun
    rw [hrun] at hmade
    split
    · exact hmade
    · rename_i hreplace
      exact FileStore.Holds.replace hmade himage hreplace

/-- **A container that was put at a path is read from there.** -/
theorem Session.map_persist {path : String} {image : Bytes} {files after : FileStore}
    (h : Session.persist path image files = (.ok (), after)) : after.map path = .ok image := by
  unfold persist at h
  extract_lets directory at h
  split at h
  · cases h
  · split at h
    · cases h
    · rename_i hreplace
      cases h
      exact FileStore.map_replace hreplace

end CodeVault
