import CodeVault.Proofs.Session.Ended
import CodeVault.Proofs.Session.Lookup

/-!
# Containers of other fingerprints

* a fingerprint is refused for the first field in which it differs from that of the process, in a
  fixed order; if only all flag bits together differ, they do in one without a name
  (`verify_of_ne`);
* what a session shows of a container is that of its load path, with the fingerprint of the process,
  at its start and ever after (`Visible`, `fingerprint_of_visible`);
* **a container of another fingerprint disables the session before anything of it is taken in**
  (`start_gated`).
-/

namespace CodeVault

/-! ## 1. Fingerprints -/

namespace Fingerprint

variable {cached current : Fingerprint} {field : Field}

/-- A field is the first one in which two fingerprints differ, in the order in which they are
    compared. -/
def DiffersFirst (a b : Fingerprint) (field : Field) : Prop :=
  field.value a ≠ field.value b ∧ ∃ earlier later,
    [.collector, .oopShift, .klassShift, .objectAlignment, .paddingWidth, .flag 0, .flag 1,
      .flag 2, .flag 3, .flag 4, .flag 5, .flag 6, .flag 7, .bits] = earlier ++ field :: later ∧
    ∀ other ∈ earlier, other.value a = other.value b

/-- What the search for a difference finds is the first one. -/
theorem differsFirst_of_firstDifference? {a b : Fingerprint}
    (h : a.firstDifference? b = some field) :
    a.DiffersFirst b field := by
  obtain ⟨hdiffers, earlier, later, hall, hsame⟩ := List.find?_eq_some_iff_append.1 h
  refine ⟨by simpa using hdiffers, earlier, later, hall, fun other hother => ?_⟩
  simpa using hsame other hother

/-- If all flag bits together are the first difference, there is one in a bit without a name. -/
theorem exists_bit_of_differsFirst {a b : Fingerprint} (h : a.DiffersFirst b .bits) :
    ∃ bit, namedFlags ≤ bit ∧ a.hasFlag bit ≠ b.hasFlag bit := by
  obtain ⟨hdiffers, earlier, later, hall, hsame⟩ := h
  obtain ⟨bit, hbit⟩ : ∃ bit, a.hasFlag bit ≠ b.hasFlag bit := by
    refine Classical.byContradiction fun hnone => hdiffers (Nat.eq_of_testBit_eq fun bit => ?_)
    exact Classical.byContradiction fun hbit => hnone ⟨bit, hbit⟩
  refine ⟨bit, Nat.le_of_not_lt fun hnamed => hbit ?_, hbit⟩
  -- The fields before `bits` are those that are not `bits`, so the flag is among them.
  have hbefore : ∀ other ∈ earlier, (other != .bits) = true := by
    intro other hother
    rw [bne_iff_ne]
    rintro rfl
    exact hdiffers (hsame .bits hother)
  have hearlier : Field.all.takeWhile (· != .bits) = earlier := by
    have hfields : Field.all = earlier ++ .bits :: later := hall
    rw [hfields, List.takeWhile_append_of_pos hbefore, List.takeWhile_cons_of_neg (by decide),
      List.append_nil]
  have hflags : ∀ bit < namedFlags, Field.flag bit ∈ Field.all.takeWhile (· != .bits) := by decide
  have hvalue : (a.hasFlag bit).toNat = (b.hasFlag bit).toNat :=
    hsame (.flag bit) (hearlier ▸ hflags bit hnamed)
  revert hvalue
  cases a.hasFlag bit <;> cases b.hasFlag bit <;> decide

/-- **A fingerprint that differs is refused for the first difference.** -/
theorem verify_of_ne (hne : cached ≠ current) :
    ∃ field, current.verify cached = .error (.fingerprintMismatch field cached current) ∧
      cached.DiffersFirst current field ∧
      (field = .bits → ∃ bit, namedFlags ≤ bit ∧ cached.hasFlag bit ≠ current.hasFlag bit) := by
  cases hfirst : cached.firstDifference? current with
  | none => exact absurd (firstDifference?_eq_none.1 hfirst) hne
  | some field =>
    have hdiffers := differsFirst_of_firstDifference? hfirst
    refine ⟨field, by simp only [verify, hfirst], hdiffers, ?_⟩
    rintro rfl
    exact exists_bit_of_differsFirst hdiffers

theorem eq_of_verify (h : current.verify cached = .ok ()) : cached = current := by
  by_contra hne
  obtain ⟨field, hrefused, -⟩ := verify_of_ne hne
  cases hrefused.symm.trans h

end Fingerprint

/-! ## 2. What is visible -/

namespace Session

variable {files : FileStore} {config : Config} {fingerprint : Fingerprint}
  {known symbols : SymbolTable} {opened now session : Session}

/-- A session shows something of a container: its header, an entry that is found, an artifact that
    is loaded, or an entry to be installed before its first call. -/
inductive Visible (session : Session) : Prop where
  | header (header : Header) (h : session.loadedHeader? = some header)
  | found (query : Query) (id : EntryId) (h : (session.find query).1 = some id)
  | loaded (process : LiveProcess) (id : EntryId) (artifact : Artifact) (after : Session)
      (h : load process id session = .ok artifact after)
  | preload (id : EntryId) (h : id ∈ session.preloadEntries)

/-- A session shows nothing without a container. -/
theorem container_of_visible (h : session.Visible) :
    ∃ container, session.container = some container := by
  cases hcontainer : session.container with
  | some container => exact ⟨container, rfl⟩
  | none =>
    cases h with
    | header header hheader =>
      rw [loadedHeader?, hcontainer] at hheader
      cases hheader
    | found query id hfound =>
      simp only [find, hcontainer, Option.isNone_none, Bool.or_true, if_true] at hfound
      cases hfound
    | loaded process id artifact after hload =>
      rcases load_cases process session id with
        ⟨stop, -, hstop⟩ | ⟨container, -, -, -, -, hsome, -⟩ | ⟨cause, hread, -⟩
      · cases hstop.symm.trans hload
      · cases hcontainer.symm.trans hsome
      · simp only [cannotRead, hcontainer] at hread
        cases hread
    | preload id hmem =>
      simp only [preloadEntries, hcontainer, Option.isNone_none, Bool.or_true, if_true] at hmem
      cases hmem

/-- **What a session shows is of the file at its load path, with the fingerprint of the
    process.** -/
theorem fingerprint_of_visible
    (hstart : Session.start files config fingerprint known = .ok (opened, symbols))
    (hmoves : opened.Moves now) (h : now.Visible) :
    ∃ path image container, config.loadPath = some path ∧ files.map path = .ok image ∧
      Container.ofBytes image = .ok container ∧ container.header.fingerprint = fingerprint := by
  obtain ⟨shown, hshown⟩ := container_of_visible h
  have hfirst := (onward_of_moves hmoves).of_container hshown
  rcases start_cases hstart with ⟨hnone, -⟩ | ⟨path, container, hpath, -, -, hload⟩
  · cases hnone.symm.trans hfirst
  · obtain ⟨image, _, hfile, haccepted, hverified, -⟩ := loadContainer_eq_some.1 hload
    exact ⟨path, image, container, hpath, hfile, haccepted, Fingerprint.eq_of_verify hverified⟩

/-! ## 3. Other fingerprints -/

/-- A container whose fingerprint is refused is not loaded. -/
theorem loadContainer_of_verify_error {path : String} {image : Bytes} {container : Container}
    {cause : CacheError} (hfile : files.map path = .ok image)
    (haccepted : Container.ofBytes image = .ok container)
    (hrefused : fingerprint.verify container.header.fingerprint = .error cause) :
    loadContainer files path fingerprint known = .error cause := by
  simp only [loadContainer, hfile, haccepted, hrefused, bind, Except.bind]

/-- **A container of another fingerprint is shut out**, if the policy is lenient. Whatever a session
    shows, at any time, is of the file at its load path, whose fingerprint is that of the process.
    If the file there is a container of another one, it is refused for the first difference, and the
    session is started without it: no string of it gets to the symbols, and the session is disabled,
    and stays so whatever happens to it. -/
theorem start_gated (hstrict : config.strict = false) :
    (∀ opened symbols now, Session.start files config fingerprint known = .ok (opened, symbols) →
      opened.Moves now → now.Visible →
        ∃ path image container, config.loadPath = some path ∧ files.map path = .ok image ∧
          Container.ofBytes image = .ok container ∧ container.header.fingerprint = fingerprint) ∧
    ∀ path image container, config.loadPath = some path → files.map path = .ok image →
      Container.ofBytes image = .ok container → container.header.fingerprint ≠ fingerprint →
        (∃ field, fingerprint.verify container.header.fingerprint =
            .error (.fingerprintMismatch field container.header.fingerprint fingerprint) ∧
          container.header.fingerprint.DiffersFirst fingerprint field ∧
          (field = .bits → ∃ bit, namedFlags ≤ bit ∧
            container.header.fingerprint.hasFlag bit ≠ fingerprint.hasFlag bit)) ∧
        ∃ opened, Session.start files config fingerprint known = .ok (opened, known) ∧
          ∀ now, opened.Moves now → now.Disabled := by
  refine ⟨fun opened symbols now hstart hmoves h => fingerprint_of_visible hstart hmoves h, ?_⟩
  intro path image container hpath hfile haccepted hne
  obtain ⟨field, hrefused, hdiffers⟩ := Fingerprint.verify_of_ne hne
  refine ⟨⟨field, hrefused, hdiffers⟩, _,
    start_of_error hstrict hpath (loadContainer_of_verify_error hfile haccepted hrefused) rfl, ?_⟩
  exact fun now hnow => disabled_of_failed ((onward_of_moves hnow).failed rfl)

/-! An example: a process whose flags have a bit without a name, and a container made without it. -/

/-- A fingerprint with a flag that has no name. -/
def flagged : Fingerprint := { plain with flags := 256 }

theorem start_gated_flagged :
    ∃ opened, Session.start (fileAtApp preloadImage) updating flagged idle = .ok (opened, idle) ∧
      opened.Disabled ∧
      ∃ field, flagged.verify plain = .error (.fingerprintMismatch field plain flagged) ∧
        plain.DiffersFirst flagged field := by
  have hheader : Header.decode preloadImage = .ok preloadContainer.header := by decide +kernel
  have haccepted : Container.ofBytes preloadImage = .ok preloadContainer :=
    except_bind_eq_ok.2 ⟨_, hheader, rfl⟩
  have hgated := @start_gated (fileAtApp preloadImage) updating flagged idle rfl
  obtain ⟨⟨field, hrefused, hdiffers, -⟩, opened, hstart, hdisabled⟩ :=
    hgated.2 "app" preloadImage preloadContainer rfl (map_fileAtApp _) haccepted (by decide)
  exact ⟨opened, hstart, hdisabled opened .refl, field, hrefused, hdiffers⟩

end Session

end CodeVault
