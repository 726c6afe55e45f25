import CodeVault.Path

/-!
# Containers of applications

Where the container of an application is, and with which others it shares its place.

* a name under a directory stands behind what precedes it there (`join_eq_append`, `split_append`);
* `HasStem name stem`: `stem` is the name up to its last dot, if something precedes that dot, and
  else the whole name;
* another extension takes the place of what follows the stem (`withExtension_append`); but of a name
  with the stem `.` it leaves `..`, the directory above (`withExtension_dot`);
* **two applications share a container exactly if their names have the same stem**, and a container
  is in the directory itself exactly if that stem is not `.` (`containerPath_shared_iff`).
-/

namespace CodeVault.Path

variable {root before name stem extension : List Char}

/-! ## 1. Names under a directory -/

/-- What can stand for one step of a path. -/
structure IsName (name : List Char) : Prop where
  ne_nil : name ≠ []
  no_slash : '/' ∉ name
  ne_dot : name ≠ ['.']
  ne_dots : name ≠ ['.', '.']

/-- The path leads from the directory to something in it. -/
def IsChild (root path : List Char) : Prop := ∃ name, IsName name ∧ path = join root name

/-- What can precede the last name of a path. -/
def IsFront (before : List Char) : Prop := before = [] ∨ ∃ directory, before = directory ++ ['/']

theorem isFront_join_nil (root : List Char) : IsFront (join root []) := by
  unfold join
  split
  · rename_i hslash
    cases hslash
  · split
    · exact .inl rfl
    · rename_i hlast
      obtain ⟨directory, rfl⟩ := List.getLast?_eq_some_iff.1 hlast
      exact .inr ⟨directory, List.append_nil _⟩
    · exact .inr ⟨root, rfl⟩

/-- **What is joined to a directory stands behind what precedes it there**, whatever it is. -/
theorem join_eq_append (hname : '/' ∉ name) : join root name = join root [] ++ name := by
  unfold join
  split
  · exact absurd List.mem_cons_self hname
  · cases root.getLast? with
    | none => rfl
    | some last =>
      split <;> simp

/-- Whatever is no `.` counts in full at the end of a path. -/
theorem dropTail_reverse_append (hne : name ≠ []) (hslash : '/' ∉ name) (hdot : name ≠ ['.'])
    (rest : List Char) :
    dropTail (name.reverse ++ rest) = name.reverse ++ rest := by
  rw [← List.mem_reverse] at hslash
  cases hback : name.reverse with
  | nil => exact absurd (List.reverse_eq_nil_iff.1 hback) hne
  | cons last front =>
    rw [hback, List.mem_cons, not_or] at hslash
    cases front with
    | nil =>
      have hlast : last ≠ '.' := by
        rintro rfl
        exact hdot (List.reverse_eq_iff.1 hback)
      exact dropTail.eq_3 _ (fun _ h => hslash.1 (List.cons.inj h).1.symm) fun _ h =>
        hlast (List.cons.inj h).1
    | cons other front =>
      have hother : other ≠ '/' := fun h => hslash.2 (h ▸ List.mem_cons_self)
      exact dropTail.eq_3 _ (fun _ h => hslash.1 (List.cons.inj h).1.symm) fun _ h =>
        hother (List.cons.inj (List.cons.inj h).2).1

/-- **A path is what precedes its last name, and that name.** -/
theorem split_append (hfront : IsFront before) (hne : name ≠ []) (hslash : '/' ∉ name)
    (hdot : name ≠ ['.']) :
    split (before ++ name) = (before, name) := by
  have hall : ∀ c ∈ name.reverse, (c != '/') = true := by
    intro c hc
    rw [bne_iff_ne]
    rintro rfl
    exact hslash (List.mem_reverse.1 hc)
  simp only [split, List.reverse_append, dropTail_reverse_append hne hslash hdot,
    List.dropWhile_append_of_pos hall, List.takeWhile_append_of_pos hall]
  obtain rfl | ⟨directory, rfl⟩ := hfront <;> simp

theorem fileName?_append (hfront : IsFront before) (hname : IsName name) :
    fileName? (before ++ name) = some name := by
  rw [fileName?, split_append hfront hname.ne_nil hname.no_slash hname.ne_dot]
  exact if_neg (by simp [hname.ne_nil, hname.ne_dot, hname.ne_dots])

theorem fileName?_append_dots (hfront : IsFront before) :
    fileName? (before ++ ['.', '.']) = none := by
  rw [fileName?, split_append hfront (by decide) (by decide) (by decide)]
  rfl

/-! ## 2. Stems -/

/-- `stem` is the name up to its last dot, if something precedes that dot, and else the whole
    name. -/
inductive HasStem : List Char → List Char → Prop where
  | whole {name : List Char} (no_dot : '.' ∉ name.tail) : HasStem name name
  | cut {stem extension : List Char} (ne_nil : stem ≠ []) (no_dot : '.' ∉ extension) :
      HasStem (stem ++ '.' :: extension) stem

theorem exists_hasStem (name : List Char) : ∃ stem, HasStem name stem := by
  by_cases hdot : '.' ∈ name
  · obtain ⟨back, front, hback, hlast⟩ := List.eq_append_cons_of_mem (List.mem_reverse.2 hdot)
    rw [← List.mem_reverse] at hlast
    have hname : name = front.reverse ++ '.' :: back.reverse := by
      rw [← List.reverse_reverse name, hback]
      simp
    by_cases hfront : front.reverse = []
    · rw [hname, hfront]
      exact ⟨_, .whole hlast⟩
    · rw [hname]
      exact ⟨_, .cut hfront hlast⟩
  · exact ⟨name, .whole fun h => hdot (List.mem_of_mem_tail h)⟩

/-- The characters before the last dot. -/
theorem stem_append (hext : '.' ∉ extension) :
    Path.stem (stem ++ '.' :: extension) = if stem = [] then '.' :: extension else stem := by
  have hall : ∀ c ∈ extension.reverse, (c != '.') = true := by
    intro c hc
    rw [bne_iff_ne]
    rintro rfl
    exact hext (List.mem_reverse.1 hc)
  have hback : (stem ++ '.' :: extension).reverse = extension.reverse ++ '.' :: stem.reverse := by
    simp
  rw [Path.stem, if_pos (by simp), hback, List.dropWhile_append_of_pos hall]
  cases stem <;> simp

/-- **A name has one stem.** -/
theorem HasStem.stem_eq (h : HasStem name stem) : Path.stem name = stem := by
  cases h with
  | whole hdot =>
    cases name with
    | nil => rfl
    | cons first rest =>
      by_cases hfirst : first = '.'
      · subst hfirst
        have hstem := @stem_append [] rest hdot
        simpa using hstem
      · have hnone : '.' ∉ first :: rest := List.not_mem_cons_of_ne_of_not_mem (Ne.symm hfirst) hdot
        exact if_neg hnone
  | cut hne hext => rw [stem_append hext, if_neg hne]

/-! ## 3. Another extension -/

/-- An extension is cut off the end of a path, but not the dot before it. -/
theorem withoutExtension_append (hfront : IsFront before) (hne : stem ≠ []) (hext : '.' ∉ extension)
    (hname : IsName (stem ++ '.' :: extension)) :
    withoutExtension (before ++ (stem ++ '.' :: extension)) = before ++ (stem ++ ['.']) := by
  have hextension : Path.extension (stem ++ '.' :: extension) = extension := by
    rw [Path.extension, (HasStem.cut hne hext).stem_eq]
    simp
  have hparts : before ++ (stem ++ '.' :: extension) = before ++ (stem ++ ['.']) ++ extension := by
    simp
  simp only [withoutExtension, fileName?_append hfront hname, hextension]
  rw [hparts, List.length_append, Nat.add_sub_cancel]
  exact List.take_left

/-- **The extension replaces what follows the stem.** -/
theorem withExtension_append (hfront : IsFront before) (hname : IsName name)
    (hstem : HasStem name stem) (hdot : stem ≠ ['.']) :
    withExtension (before ++ name) extension = before ++ (stem ++ '.' :: extension) := by
  cases hstem with
  | whole hwhole =>
    have hnone : Path.extension name = [] := by
      rw [Path.extension, (HasStem.whole hwhole).stem_eq]
      exact List.drop_of_length_le (Nat.le_succ _)
    have hshort : withoutExtension (before ++ name) = before ++ name := by
      simp only [withoutExtension, fileName?_append hfront hname, hnone]
      exact List.take_length
    simp only [withExtension, hshort, fileName?_append hfront hname, (HasStem.whole hwhole).stem_eq,
      split_append hfront hname.ne_nil hname.no_slash hname.ne_dot, List.append_assoc]
  | cut hne hold =>
    have hshort := withoutExtension_append hfront hne hold hname
    have hslash : '/' ∉ stem ++ ['.'] := by
      have := hname.no_slash
      simp_all
    have hrest : IsName (stem ++ ['.']) :=
      ⟨by simp, hslash, by simpa using hne, fun hdots => hdot (List.append_inj_left' hdots rfl)⟩
    have hstem : Path.stem (stem ++ ['.']) = stem := (HasStem.cut hne List.not_mem_nil).stem_eq
    simp only [withExtension, hshort, fileName?_append hfront hrest, hstem,
      split_append hfront hrest.ne_nil hrest.no_slash hrest.ne_dot, List.append_assoc]

/-- **Of a name with the stem `.` the cut leaves `..`**, and nothing is added to that. -/
theorem withExtension_dot (hfront : IsFront before) (hname : IsName name)
    (hstem : HasStem name ['.']) :
    withExtension (before ++ name) extension = before ++ ['.', '.'] := by
  cases hstem with
  | whole => exact absurd rfl hname.ne_dot
  | @cut _ old hne hold =>
    have hshort : withoutExtension (before ++ (['.'] ++ '.' :: old)) = before ++ ['.', '.'] :=
      withoutExtension_append hfront hne hold hname
    simp only [withExtension, hshort, fileName?_append_dots hfront]

/-! ## 4. Containers -/

/-- What an application's container is called under its directory. -/
def containerName (stem : List Char) : List Char :=
  if stem = ['.'] then ['.', '.'] else stem ++ '.' :: containerExtension

theorem containerName_inj {stem other : List Char} :
    containerName stem = containerName other ↔ stem = other := by
  refine ⟨fun h => ?_, congrArg containerName⟩
  unfold containerName at h
  split at h <;> split at h
  · simp_all
  · simpa [containerExtension] using congrArg List.length h
  · simpa [containerExtension] using congrArg List.length h
  · exact List.append_inj_left' h rfl

theorem isName_containerName (hslash : '/' ∉ stem) :
    IsName (containerName stem) ↔ stem ≠ ['.'] := by
  unfold containerName
  split
  · rename_i hdot
    exact iff_of_false (fun h => h.ne_dots rfl) (not_not_intro hdot)
  · rename_i hdot
    refine iff_of_true ⟨by simp, by simp [containerExtension, hslash], fun h => ?_, fun h => ?_⟩
      hdot
    · simpa [containerExtension] using congrArg List.length h
    · simpa [containerExtension] using congrArg List.length h

theorem HasStem.slash_not_mem (h : HasStem name stem) (hslash : '/' ∉ name) : '/' ∉ stem := by
  cases h with
  | whole => exact hslash
  | cut => exact fun hmem => hslash (List.mem_append_left _ hmem)

/-- **The container of an application is called after the stem of its name.** -/
theorem containerPath_eq {root app : String} (happ : IsName app.toList)
    (hstem : HasStem app.toList stem) :
    (containerPath root app).toList = join root.toList [] ++ containerName stem := by
  rw [containerPath, String.toList_ofList, join_eq_append happ.no_slash, containerName]
  by_cases hdot : stem = ['.']
  · subst hdot
    exact withExtension_dot (isFront_join_nil _) happ hstem
  · rw [if_neg hdot]
    exact withExtension_append (isFront_join_nil _) happ hstem hdot

/-- **Which applications share a container, and where it is.** Two applications, each named by one
    step of a path, share one exactly if their names are the same up to their last dots; and the
    container of an application is in the directory itself exactly if its name, up to its last dot,
    is not a single dot. -/
theorem containerPath_shared_iff {root a b : String} (ha : IsName a.toList) (hb : IsName b.toList) :
    (containerPath root a = containerPath root b ↔
      ∃ stem, HasStem a.toList stem ∧ HasStem b.toList stem) ∧
    (IsChild root.toList (containerPath root a).toList ↔ ¬HasStem a.toList ['.']) := by
  obtain ⟨stem, hstem⟩ := exists_hasStem a.toList
  obtain ⟨other, hother⟩ := exists_hasStem b.toList
  refine ⟨?_, ?_⟩
  · rw [← String.toList_inj, containerPath_eq ha hstem, containerPath_eq hb hother,
      List.append_cancel_left_eq, containerName_inj]
    constructor
    · rintro rfl
      exact ⟨stem, hstem, hother⟩
    · rintro ⟨shared, ha', hb'⟩
      rw [← hstem.stem_eq, ha'.stem_eq, ← hother.stem_eq, hb'.stem_eq]
  · have hdot : HasStem a.toList ['.'] ↔ stem = ['.'] :=
      ⟨fun h => hstem.stem_eq.symm.trans h.stem_eq, fun h => h ▸ hstem⟩
    rw [hdot, ← ne_eq, ← isName_containerName (hstem.slash_not_mem ha.no_slash),
      containerPath_eq ha hstem]
    constructor
    · rintro ⟨name, hname, hpath⟩
      rw [join_eq_append hname.no_slash, List.append_cancel_left_eq] at hpath
      exact hpath ▸ hname
    · exact fun hname => ⟨_, hname, (join_eq_append hname.no_slash).symm⟩

/-- Two versions of one application, and one with a name that has two dots in front. -/
theorem containerPath_shared_versions :
    containerPath "/var/cache" "shop.v1" = containerPath "/var/cache" "shop.v2" ∧
    ¬IsChild "/var/cache".toList (containerPath "/var/cache" "..shop").toList := by
  have hfirst : IsName "shop.v1".toList := ⟨by decide, by decide, by decide, by decide⟩
  have hsecond : IsName "shop.v2".toList := ⟨by decide, by decide, by decide, by decide⟩
  have hdots : IsName "..shop".toList := ⟨by decide, by decide, by decide, by decide⟩
  have hshop : "shop".toList ≠ [] := by decide
  refine ⟨(containerPath_shared_iff hfirst hsecond).1.2 ⟨"shop".toList, ?_, ?_⟩, ?_⟩
  · exact @HasStem.cut "shop".toList "v1".toList hshop (by decide)
  · exact @HasStem.cut "shop".toList "v2".toList hshop (by decide)
  · refine mt (containerPath_shared_iff hdots hdots).2.1 (not_not_intro ?_)
    exact @HasStem.cut ['.'] "shop".toList (by decide) (by decide)

end CodeVault.Path
