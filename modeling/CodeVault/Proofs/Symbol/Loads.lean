import CodeVault.Proofs.Symbol.Runs

/-!
# What ids of strings denote later

Ids of strings are written down with code, and strings of earlier runs may be loaded afterwards.

* what came from an earlier run stays at its id, and in front of all others
  (`text?_after_of_lt_pinned`, `texts_after_load`);
* a string that was interned here only moves to greater ids (`exists_le_of_text?_after`);
* **an id in use at one time keeps its string exactly when the lists that are loaded later leave it
  there** (`text?_after_iff`).
-/

namespace CodeVault.SymbolTable

/-! ## 1. Lists that are loaded -/

/-- The list that an event loads, if it is not refused. -/
def loaded? (table : SymbolTable) : SymbolEvent → Option (List CText)
  | .loaded strings => if (table.loadStrings strings).isOk then some strings else none
  | _ => none

/-- The lists that are loaded in the course of events, those refused left out. -/
def loads (table : SymbolTable) : List SymbolEvent → List (List CText)
  | [] => []
  | event :: events => (table.loaded? event).toList ++ (table.apply event).loads events

theorem loads_append (table : SymbolTable) (earlier later : List SymbolEvent) :
    table.loads (earlier ++ later) = table.loads earlier ++ (table.after earlier).loads later := by
  induction earlier generalizing table with
  | nil => rfl
  | cons event earlier ih =>
    simp only [List.cons_append, loads, ih, after_cons, List.append_assoc]

theorem load_of_loaded? {table : SymbolTable} {event : SymbolEvent} {strings : List CText}
    (h : table.loaded? event = some strings) :
    table.strings.load strings = .ok (table.apply event).strings := by
  cases event with
  | installed installation => cases h
  | interned pointer text => cases h
  | loaded list =>
    cases hrun : table.strings.load list with
    | ok after =>
      have hok : table.loadStrings list = .ok { table with strings := after } := by
        simp only [loadStrings, hrun]
      simp only [loaded?, hok, Except.isOk, Except.toBool, if_true, Option.some.injEq] at h
      subst h
      simp only [apply, hok, hrun]
    | error e => simp [loaded?, loadStrings, hrun, Except.isOk, Except.toBool] at h

/-- **What loads nothing only adds strings at the end.** -/
theorem texts_apply_of_quiet {table : SymbolTable} {event : SymbolEvent}
    (h : table.loaded? event = none) :
    (table.apply event).strings.pinned = table.strings.pinned ∧
      ∃ more, (table.apply event).strings.texts = table.strings.texts ++ more := by
  have hnone : table.strings.texts = table.strings.texts ++ [] := (List.append_nil _).symm
  cases event with
  | installed installation =>
    simp only [apply, install]
    cases AddressTable.install installation table.addresses <;> exact ⟨rfl, [], hnone⟩
  | interned pointer text =>
    cases hrun : table.strings.intern pointer text with
    | ok result =>
      simp only [apply, intern, hrun]
      obtain ⟨hpinned, htexts | ⟨htexts, -⟩⟩ := StringTable.intern_ok hrun
      · exact ⟨hpinned, [], htexts.trans hnone⟩
      · exact ⟨hpinned, [text], htexts⟩
    | error e =>
      simp only [apply, intern, hrun, true_and]
      exact ⟨[], hnone⟩
  | loaded list =>
    cases hrun : table.strings.load list with
    | ok after => simp [loaded?, loadStrings, hrun, Except.isOk, Except.toBool] at h
    | error e =>
      simp only [apply, loadStrings, hrun, true_and]
      exact ⟨[], hnone⟩

/-- **What came from an earlier run stays at its id, whatever happens.** -/
theorem text?_after_of_lt_pinned {table : SymbolTable} (hsound : table.Sound)
    (events : List SymbolEvent) {i : Nat} (hi : i < table.strings.pinned) :
    (table.after events).strings.text? i = table.strings.text? i := by
  induction events generalizing table with
  | nil => rfl
  | cons event events ih =>
    have hstep : (table.apply event).strings.text? i = table.strings.text? i ∧
        i < (table.apply event).strings.pinned := by
      cases hloaded : table.loaded? event with
      | none =>
        obtain ⟨hpinned, more, htexts⟩ := texts_apply_of_quiet hloaded
        have hlt := Nat.lt_of_lt_of_le hi hsound.strings.pinned_le
        exact ⟨StringTable.text?_of_append htexts hlt, by omega⟩
      | some strings =>
        have hload := load_of_loaded? hloaded
        have hpinned := (StringTable.load_ok hload).1
        exact ⟨StringTable.text?_load_of_lt_pinned hsound.strings hload hi, by omega⟩
    rw [after_cons, ih (hsound.apply event) hstep.2, hstep.1]

/-! ## 2. Ids that keep their strings -/

/-- Ids stay in use, whatever happens. -/
theorem size_le_apply {table : SymbolTable} (hsound : table.Sound) (event : SymbolEvent) :
    table.strings.size ≤ (table.apply event).strings.size := by
  cases hloaded : table.loaded? event with
  | none =>
    obtain ⟨-, more, htexts⟩ := texts_apply_of_quiet hloaded
    rw [← StringTable.length_texts, ← StringTable.length_texts, htexts, List.length_append]
    exact Nat.le_add_right _ _
  | some strings => exact StringTable.size_le_load hsound.strings (load_of_loaded? hloaded)

/-- **An id that a list reaches denotes what the list has there**, once it was loaded. -/
theorem text?_after_of_loads {table : SymbolTable} (hsound : table.Sound)
    {events : List SymbolEvent} {strings : List CText} (hmem : strings ∈ table.loads events)
    {i : Nat} (hi : i < strings.length) :
    (table.after events).strings.text? i = strings[i]? := by
  induction events generalizing table with
  | nil => cases hmem
  | cons event events ih =>
    rcases List.mem_append.1 hmem with hnow | hlater
    · have hload := load_of_loaded? (Option.mem_toList.1 hnow)
      have hpinned := (StringTable.load_ok hload).1
      rw [after_cons, text?_after_of_lt_pinned (hsound.apply event) events (by omega),
        StringTable.text?_load hsound.strings hload hi]
    · exact ih (hsound.apply event) hlater

theorem pinned_after_le {table : SymbolTable} {events : List SymbolEvent} {i : Nat}
    (hi : table.strings.pinned ≤ i) (hshort : ∀ strings ∈ table.loads events, strings.length ≤ i) :
    (table.after events).strings.pinned ≤ i := by
  induction events generalizing table with
  | nil => exact hi
  | cons event events ih =>
    refine ih ?_ fun strings hmem => hshort strings (List.mem_append_right _ hmem)
    cases hloaded : table.loaded? event with
    | none =>
      rw [(texts_apply_of_quiet hloaded).1]
      exact hi
    | some strings =>
      have hlength := hshort strings (List.mem_append_left _ (Option.mem_toList.2 hloaded))
      rw [(StringTable.load_ok (load_of_loaded? hloaded)).1]
      exact Nat.max_le.2 ⟨hi, hlength⟩

/-- **A string that was interned here only moves to greater ids**, as long as no list reaches it. -/
theorem exists_le_of_text?_after {table : SymbolTable} (hsound : table.Sound)
    {events : List SymbolEvent} {i : Nat} {text : CText} (hi : i < table.strings.size)
    (hpinned : (table.after events).strings.pinned ≤ i)
    (htext : (table.after events).strings.text? i = some text) :
    ∃ earlier ≤ i, table.strings.pinned ≤ earlier ∧ table.strings.text? earlier = some text := by
  induction events generalizing table with
  | nil => exact ⟨i, Nat.le_refl _, hpinned, htext⟩
  | cons event events ih =>
    have hroom := Nat.lt_of_lt_of_le hi (size_le_apply hsound event)
    obtain ⟨earlier, hle, hbehind, hearlier⟩ := ih (hsound.apply event) hroom hpinned htext
    cases hloaded : table.loaded? event with
    | none =>
      obtain ⟨hsame, more, htexts⟩ := texts_apply_of_quiet hloaded
      rw [StringTable.text?_of_append htexts (by omega)] at hearlier
      exact ⟨earlier, hle, hsame ▸ hbehind, hearlier⟩
    | some strings =>
      obtain ⟨first, hle', hbehind', hfirst⟩ :=
        StringTable.exists_le_of_text?_load hsound.strings (load_of_loaded? hloaded)
          hbehind hearlier
      exact ⟨first, Nat.le_trans hle' hle, hbehind', hfirst⟩

/-- An id that keeps its string in the course of events, none of which reaches it, keeps it in the
    first. -/
theorem text?_apply_of_after {table : SymbolTable} (hsound : table.Sound) {event : SymbolEvent}
    {events : List SymbolEvent} {i : Nat} (hi : i < table.strings.size)
    (hshort : ∀ strings ∈ table.loads (event :: events), strings.length ≤ i)
    (hkept : (table.after (event :: events)).strings.text? i = table.strings.text? i) :
    (table.apply event).strings.text? i = table.strings.text? i := by
  cases hloaded : table.loaded? event with
  | none =>
    obtain ⟨-, more, htexts⟩ := texts_apply_of_quiet hloaded
    exact StringTable.text?_of_append htexts hi
  | some strings =>
    have hload := load_of_loaded? hloaded
    rcases Nat.lt_or_ge i table.strings.pinned with hlt | hge
    · exact StringTable.text?_load_of_lt_pinned hsound.strings hload hlt
    · obtain ⟨text, htext⟩ : ∃ text, table.strings.text? i = some text := by
        rw [← StringTable.length_texts] at hi
        exact ⟨_, (StringTable.text?_eq ..).trans (List.getElem?_eq_getElem hi)⟩
      have hroom := Nat.lt_of_lt_of_le hi (size_le_apply hsound event)
      have hpinned : (table.after (event :: events)).strings.pinned ≤ i :=
        pinned_after_le hge hshort
      obtain ⟨earlier, hle, hbehind, hearlier⟩ :=
        exists_le_of_text?_after (hsound.apply event) hroom hpinned (hkept.trans htext)
      obtain ⟨first, hle', hbehind', hfirst⟩ :=
        StringTable.exists_le_of_text?_load hsound.strings hload hbehind hearlier
      -- The string was at this id, and has not moved to a smaller one.
      have hsame := hsound.strings.eq_of_text? hbehind' hge hfirst htext
      obtain rfl : earlier = i := by omega
      rw [hearlier, htext]

/-- **An id that no list reaches keeps its string exactly when all lists hold only strings of
    smaller ids.** -/
theorem text?_after_iff_of_short {table : SymbolTable} (hsound : table.Sound)
    {events : List SymbolEvent} {i : Nat} (hi : i < table.strings.size)
    (hshort : ∀ strings ∈ table.loads events, strings.length ≤ i) :
    (table.after events).strings.text? i = table.strings.text? i ↔
      ∀ strings ∈ table.loads events, strings.Subperm (table.strings.texts.take i) := by
  induction events generalizing table with
  | nil => simp [loads]
  | cons event events ih =>
    have hroom := Nat.lt_of_lt_of_le hi (size_le_apply hsound event)
    have hlater := ih (hsound.apply event) hroom fun strings hmem =>
      hshort strings (List.mem_append_right _ hmem)
    -- If the first event keeps the id and what is below it, the question is left to those after it.
    have hrest : (table.apply event).strings.text? i = table.strings.text? i →
        ((table.apply event).strings.texts.take i).Perm (table.strings.texts.take i) →
        ((table.after (event :: events)).strings.text? i = table.strings.text? i ↔
          ∀ strings ∈ (table.apply event).loads events,
            strings.Subperm (table.strings.texts.take i)) := by
      intro hsame hperm
      rw [after_cons, ← hsame, hlater]
      exact forall₂_congr fun strings _ => hperm.subperm_left
    cases hloaded : table.loaded? event with
    | none =>
      obtain ⟨-, more, htexts⟩ := texts_apply_of_quiet hloaded
      simp only [loads, hloaded, Option.toList_none, List.nil_append]
      refine hrest (StringTable.text?_of_append htexts hi) ?_
      rw [htexts, List.take_append_of_le_length (by rw [StringTable.length_texts]; omega)]
    | some strings =>
      have hload := load_of_loaded? hloaded
      have hlength := hshort strings (List.mem_append_left _ (Option.mem_toList.2 hloaded))
      have hfirst := StringTable.text?_load_iff hsound.strings hload hi hlength
      simp only [loads, hloaded, Option.toList_some, List.singleton_append, List.forall_mem_cons]
      constructor
      · intro hkept
        have hsame := text?_apply_of_after hsound hi hshort hkept
        have hsmaller := hfirst.1 hsame
        exact ⟨hsmaller, (hrest hsame
          (StringTable.take_texts_perm hsound.strings hload hi hlength hsmaller)).1 hkept⟩
      · rintro ⟨hsmaller, hothers⟩
        exact (hrest (hfirst.2 hsmaller)
          (StringTable.take_texts_perm hsound.strings hload hi hlength hsmaller)).2 hothers

/-- **An id in use keeps its string in the course of events exactly when the lists that are loaded
    leave it there.** -/
theorem text?_after_iff {table : SymbolTable} (hsound : table.Sound) (events : List SymbolEvent)
    {i : Nat} (hi : i < table.strings.size) :
    (table.after events).strings.text? i = table.strings.text? i ↔
      table.strings.KeptBy (table.loads events) i := by
  constructor
  · intro hkept
    refine ⟨fun strings hmem hreach => ?_,
      fun hshort => (text?_after_iff_of_short hsound hi hshort).1 hkept⟩
    rw [← text?_after_of_loads hsound hmem hreach, hkept]
  · rintro ⟨hreached, hsmaller⟩
    by_cases hshort : ∀ strings ∈ table.loads events, strings.length ≤ i
    · exact (text?_after_iff_of_short hsound hi hshort).2 (hsmaller hshort)
    · obtain ⟨strings, hmem, hreach⟩ : ∃ strings ∈ table.loads events, i < strings.length := by
        simpa using hshort
      rw [text?_after_of_loads hsound hmem hreach, hreached strings hmem hreach]

/-- **Strings that were loaded stay in front of all others**, whatever happens afterwards. -/
theorem texts_after_load {before symbols : SymbolTable} {strings : List CText}
    (hbefore : before.Sound) (hload : before.loadStrings strings = .ok symbols)
    (events : List SymbolEvent) :
    ∃ rest, (symbols.after events).strings.texts = strings ++ rest := by
  have hsymbols : before.apply (.loaded strings) = symbols := by simp only [apply, hload]
  have hsound : symbols.Sound := hsymbols ▸ hbefore.apply (.loaded strings)
  have hstrings : before.strings.load strings = .ok symbols.strings := by
    unfold loadStrings at hload
    cases hrun : before.strings.load strings with
    | error cause => simp [hrun] at hload
    | ok after =>
      simp only [hrun, Except.ok.injEq] at hload
      rw [← hload]
  have hpinned := (StringTable.load_ok hstrings).1
  have hprefix : strings <+: (symbols.after events).strings.texts := by
    refine List.prefix_iff_getElem?.2 fun i hi => ?_
    rw [← StringTable.text?_eq, text?_after_of_lt_pinned hsound events (by omega),
      StringTable.text?_load hbefore.strings hstrings hi, List.getElem?_eq_getElem hi]
  obtain ⟨rest, hrest⟩ := hprefix
  exact ⟨rest, hrest.symm⟩

end CodeVault.SymbolTable
