import CodeVault.Proofs.Context.Shared

/-!
# Values carried to a process and back

A value of the base image is carried by a number: a type or a method by its distance, if that fits a
word, a string by its place among the archived ones, if that does. Every other type, method and
string is carried by name, and comes back if the resolver leads from what it says of the entity to
the entity.

* `BaseImage.Archives`: a string is numbered (`archives_iff`), and its number leads back to it
  (`stringAt?_of_stringIndex?`);
* `Context.Numbered` and `Context.Named`: a value is carried by a number, or can be carried by name;
* **values come back, in the one form or the other, and only look-ups fail**
  (`decodeValue_encodeValue`).
-/

namespace CodeVault

/-! ## 1. Archived strings -/

namespace BaseImage

variable {image : BaseImage} {string : ObjectHandle} {index : UInt32}

/-- The image has the string archived, at a place that fits a word. -/
structure Archives (image : BaseImage) (string : ObjectHandle) : Prop where
  mapped : image.isMapped = true
  near : ∃ place, place < wordSpace ∧ image.strings[place]? = some string

theorem stringIndex?_eq_some :
    image.stringIndex? string = some index ↔
      image.strings.findIdx? (· == string) = some index.toNat := by
  unfold stringIndex?
  cases image.strings.findIdx? (· == string) with
  | none => simp
  | some place =>
    dsimp only
    rw [word_eq_some, Option.some.injEq]

/-- **The place of a string leads back to it.** -/
theorem stringAt?_of_stringIndex? (h : image.stringIndex? string = some index) :
    image.stringAt? index = some string := by
  obtain ⟨hlt, hsame, -⟩ := List.findIdx?_eq_some_iff_getElem.1 (stringIndex?_eq_some.1 h)
  rw [stringAt?, List.getElem?_eq_getElem hlt, beq_iff_eq.1 hsame]

/-- **A string has a number exactly if it is archived at a place that fits a word**, be it there for
    the first time or again. -/
theorem archives_iff :
    image.Archives string ↔ image.isMapped = true ∧ ∃ index,
      image.stringIndex? string = some index := by
  constructor
  · rintro ⟨hmapped, place, hnear, hplace⟩
    refine ⟨hmapped, ?_⟩
    obtain ⟨hlt, hsame⟩ := List.getElem?_eq_some_iff.1 hplace
    -- The first place of the string is not behind this one.
    have hle : image.strings.findIdx (· == string) ≤ place :=
      Nat.le_of_not_lt fun hbehind =>
        Bool.eq_false_iff.1 (List.not_of_lt_findIdx hbehind) (beq_iff_eq.2 hsame)
    have hfits : image.strings.findIdx (· == string) < wordSpace := by omega
    refine ⟨UInt32.ofNat (image.strings.findIdx (· == string)), stringIndex?_eq_some.2 ?_⟩
    rw [UInt32.toNat_ofNat_of_lt' hfits, List.findIdx?_eq_some_iff_findIdx_eq]
    exact ⟨by omega, rfl⟩
  · rintro ⟨hmapped, index, h⟩
    exact ⟨hmapped, index.toNat, index.toNat_lt, stringAt?_of_stringIndex? h⟩

end BaseImage

/-! ## 2. How a value is carried -/

/-- A reference that names an entity of the base image by a number. -/
def Reference.isShared : Reference → Bool
  | sharedType _ | sharedMethod _ | sharedString _ => true
  | _ => false

/-- A number of a type or a method that leads to an address in the image. -/
def BaseImage.Reaches (image : BaseImage) (reference : Reference) : Prop :=
  ∀ resident distance, reference = Resident.reference resident distance → image.isMapped = true →
    ∃ a, image.contains a = true ∧ a.toNat = image.origin.toNat + distance.toNat

/-- What can go wrong with an entity that is described. -/
def LookupFailure.OfDescribing : LookupFailure → Prop
  | undescribable _ | hidden _ | nonBuiltinLoader _ => True
  | _ => False

namespace Context

variable {context : Context}

/-- A type that is described, may be named, has been linked, and is found by its name. -/
def Nameable (context : Context) (type : TypeHandle) : Prop :=
  ∃ info, context.process.resolver.describeType type = some info ∧ context.MayName info ∧
    info.state.isLinked = true ∧ context.process.resolver.findType info.name info.loader = some type

/-- A value that is carried by its number in the base image. -/
def Numbered (context : Context) : EmbeddedValue → Prop
  | .type handle => context.process.image.Numbers handle.address
  | .method handle => context.process.image.Numbers handle.address
  | .string handle => context.process.image.Archives handle
  | _ => False

/-- A value that can be carried without a number: what the resolver says of it leads it back. -/
def Named (context : Context) : EmbeddedValue → Prop
  | .type handle => context.Nameable handle
  | .method handle => ∃ info, context.process.resolver.describeMethod handle = some info ∧
      context.Nameable info.holder ∧
      context.process.resolver.findMethod info.holder info.name info.signature = some handle
  | .string handle => ∃ text, context.process.resolver.describeString handle = some text ∧
      context.process.resolver.internString text = some handle
  | _ => True

/-! ## 3. What goes wrong -/

theorem ofDescribing_of_describeType {handle : TypeHandle} {failure : LookupFailure}
    (h : context.describeType handle = .error failure) : failure.OfDescribing := by
  unfold describeType at h
  split at h
  · cases h
    trivial
  · rcases except_bind_eq_error.1 h with hcheck | ⟨_, -, hdone⟩
    · unfold checkType at hcheck
      split at hcheck
      · cases hcheck
        trivial
      · split at hcheck <;> cases hcheck
        trivial
    · cases hdone

theorem ofDescribing_of_describeMethod {handle : MethodHandle} {failure : LookupFailure}
    (h : context.describeMethod handle = .error failure) : failure.OfDescribing := by
  unfold describeMethod at h
  split at h
  · cases h
    trivial
  · rcases except_bind_eq_error.1 h with hholder | ⟨_, -, hdone⟩
    · exact ofDescribing_of_describeType hholder
    · cases hdone

theorem ofDescribing_of_describeString {handle : ObjectHandle} {failure : LookupFailure}
    (h : context.describeString handle = .error failure) : failure.OfDescribing := by
  unfold describeString at h
  split at h <;> cases h
  trivial

/-- **A value that is refused cannot be described, or must not be named.** -/
theorem ofDescribing_of_encodeValue {value : EmbeddedValue} {failure : LookupFailure}
    (h : context.encodeValue value = .error failure) : failure.OfDescribing := by
  cases value with
  | null | noData | primitive | systemLoader | platformLoader => cases h
  | type handle =>
    simp only [encodeValue] at h
    split at h
    · cases h
    · exact ofDescribing_of_describeType (except_map_eq_error.1 h)
  | method handle =>
    simp only [encodeValue] at h
    split at h
    · cases h
    · exact ofDescribing_of_describeMethod h
  | string handle =>
    simp only [encodeValue] at h
    split at h
    · split at h
      · cases h
      · exact ofDescribing_of_describeString h
    · exact ofDescribing_of_describeString h

/-! ## 4. There and back -/

/-- A value is carried by a reference: it is written as it, and found by it. -/
structure Carries (context : Context) (value : EmbeddedValue) (reference : Reference) : Prop where
  written : context.encodeValue value = .ok reference
  found : context.decodeValue reference = .ok value

/-- **An entity of the image comes back by its distance.** -/
theorem carries_of_numbers (resident : Resident) {a : Address}
    (h : context.process.image.Numbers a) :
    ∃ distance, context.Carries (resident.value a) (resident.reference distance) := by
  obtain ⟨distance, hdistance⟩ := BaseImage.numbers_iff.1 h
  obtain ⟨hcontains, hplace⟩ := BaseImage.distance?_eq_some.1 hdistance
  refine ⟨distance, encodeValue_eq_shared.2 hdistance, ?_⟩
  rw [decodeValue_shared]
  exact except_map_eq_ok.2
    ⟨a, sharedAddress_eq_ok.2 ⟨BaseImage.isMapped_of_contains hcontains, hplace⟩, rfl⟩

theorem carries_of_archives {handle : ObjectHandle} (h : context.process.image.Archives handle) :
    ∃ index, context.Carries (.string handle) (.sharedString index) := by
  obtain ⟨hmapped, index, hindex⟩ := BaseImage.archives_iff.1 h
  refine ⟨index, ?_, ?_⟩
  · simp only [encodeValue, hindex, hmapped, if_true]
  · simp only [decodeValue, sharedString, hmapped, if_true,
      BaseImage.stringAt?_of_stringIndex? hindex, liftError]

/-- A type that can be named is found by its description. -/
theorem resolveType_describeType {type : TypeHandle} (h : context.Nameable type) :
    ∃ descriptor, context.describeType type = .ok descriptor ∧
      context.resolveType descriptor = .ok type := by
  obtain ⟨info, hinfo, hmay, hlinked, hfind⟩ := h
  exact ⟨⟨info.name, info.loader⟩, describeType_eq_ok.2 ⟨info, hinfo, rfl, hmay⟩,
    resolveType_eq_ok.2 ⟨hfind, info, hinfo, hmay, hlinked⟩⟩

/-- **A value without a number comes back by name.** -/
theorem carries_of_named {value : EmbeddedValue} (hnumber : ¬context.Numbered value)
    (h : context.Named value) :
    ∃ reference, reference.isShared = false ∧ context.Carries value reference := by
  cases value with
  | null => exact ⟨.null, rfl, rfl, rfl⟩
  | noData => exact ⟨.noData, rfl, rfl, rfl⟩
  | primitive p => exact ⟨.primitive p, rfl, rfl, rfl⟩
  | systemLoader => exact ⟨.systemLoader, rfl, rfl, rfl⟩
  | platformLoader => exact ⟨.platformLoader, rfl, rfl, rfl⟩
  | type handle =>
    obtain ⟨descriptor, hdescribe, hresolve⟩ := resolveType_describeType h
    refine ⟨.type descriptor, rfl, ?_, ?_⟩
    · simp only [encodeValue, BaseImage.distance?_eq_none.2 hnumber, hdescribe, Except.map]
    · simp only [decodeValue, hresolve, Except.map, liftError]
  | method handle =>
    obtain ⟨info, hinfo, hholder, hfind⟩ := h
    obtain ⟨holder, hdescribe, hresolve⟩ := resolveType_describeType hholder
    refine ⟨.method ⟨holder, info.name, info.signature⟩, rfl, ?_, ?_⟩
    · simp only [encodeValue, BaseImage.distance?_eq_none.2 hnumber]
      exact describeMethod_eq_ok.2 ⟨info, holder, hinfo, hdescribe, rfl⟩
    · exact liftError_eq_ok.2 (resolveMethod_eq_ok.2 ⟨info.holder, handle, hresolve, hfind, rfl⟩)
  | string handle =>
    obtain ⟨text, htext, hintern⟩ := h
    have hdescribe := describeString_eq_ok.2 ⟨text, htext, rfl⟩
    refine ⟨.string text, rfl, ?_, liftError_eq_ok.2 (internString_eq_ok.2 ⟨handle, hintern, rfl⟩)⟩
    simp only [encodeValue]
    split
    · rename_i index hindex
      rw [if_neg fun hmapped => hnumber (BaseImage.archives_iff.2 ⟨hmapped, index, hindex⟩)]
      exact hdescribe
    · exact hdescribe

/-- **A value comes back as it was, by a number exactly if it has one.** That is so for every value
    with a number, whatever the resolver says, and for every other one if the resolver leads from
    the descriptions that it calls for back to what they describe, and the type that is named is
    linked and may be named. A value is refused only because it cannot be described or must not be
    named. No reference stops the process, unless it leads out of the image. -/
theorem decodeValue_encodeValue (context : Context) (value : EmbeddedValue) :
    (∀ failure, context.encodeValue value = .error failure → failure.OfDescribing) ∧
    (∀ reference fault, context.process.image.Reaches reference →
      context.decodeValue reference = .error fault → fault.IsError) ∧
    (context.Numbered value ∨ context.Named value →
      ∃ reference, context.encodeValue value = .ok reference ∧
        context.decodeValue reference = .ok value ∧
        (reference.isShared = true ↔ context.Numbered value)) := by
  refine ⟨fun failure => ofDescribing_of_encodeValue, fun reference fault hreaches hrefused => ?_,
    fun h => ?_⟩
  · refine isError_of_inRange (fun resident distance hsame hmapped => ?_) hrefused
    obtain ⟨a, -, hplace⟩ := hreaches resident distance hsame hmapped
    exact hplace ▸ a.toNat_lt
  · by_cases hnumber : context.Numbered value
    · have hcarried : ∃ reference, reference.isShared = true ∧ context.Carries value reference := by
        cases value with
        | null | noData | primitive | systemLoader | platformLoader => exact hnumber.elim
        | type handle =>
          obtain ⟨distance, hcarries⟩ := carries_of_numbers .type hnumber
          exact ⟨.sharedType distance, rfl, hcarries⟩
        | method handle =>
          obtain ⟨distance, hcarries⟩ := carries_of_numbers .method hnumber
          exact ⟨.sharedMethod distance, rfl, hcarries⟩
        | string handle =>
          obtain ⟨index, hcarries⟩ := carries_of_archives hnumber
          exact ⟨.sharedString index, rfl, hcarries⟩
      obtain ⟨reference, hshared, hcarries⟩ := hcarried
      exact ⟨reference, hcarries.written, hcarries.found, iff_of_true hshared hnumber⟩
    · obtain ⟨reference, hshared, hcarries⟩ := carries_of_named hnumber (h.resolve_left hnumber)
      exact ⟨reference, hcarries.written, hcarries.found,
        iff_of_false (Bool.eq_false_iff.1 hshared) hnumber⟩

/-! An example: an image too large for a word, with one string, and a type that lies too far behind
its start. -/

/-- A process that knows one type of its image, 2³² bytes behind the start, a method of this type
    outside the image, and two strings, one of them archived. -/
def wide : Context where
  process :=
    { symbols := SymbolTable.empty ⟨4096, 256⟩ fun serial => UInt64.ofNat (36864 + 16 * serial)
      image := .mapped 4096 8589934592 [⟨4112⟩]
      resolver :=
        { describeType := fun handle =>
            if handle.address = 4294971392 then some ⟨"Hall", .boot, .linked, false⟩ else none
          describeMethod := fun handle =>
            if handle.address = 281474976710656 then some ⟨⟨4294971392⟩, "size", "()I"⟩ else none
          describeString := fun handle => if handle.address = 281474976718848 then
            some "nave" else none
          findType := fun name loader => if name = "Hall" ∧ loader = .boot then
            some ⟨4294971392⟩ else none
          findMethod := fun holder name signature =>
            if holder.address = 4294971392 ∧ name = "size" ∧ signature = "()I" then
              some ⟨281474976710656⟩
            else none
          internString := fun text => if text = "nave" then some ⟨281474976718848⟩ else none } }
  forPreload := true

theorem decodeValue_encodeValue_wide :
    wide.Numbered (.type ⟨4112⟩) ∧ ¬wide.Numbered (.type ⟨4294971392⟩) ∧
    (∀ value ∈ [.type ⟨4112⟩, .type ⟨4294971392⟩, .method ⟨281474976710656⟩, .string ⟨4112⟩,
      .string ⟨281474976718848⟩],
      ∃ reference, wide.encodeValue value = .ok reference ∧ wide.decodeValue reference = .ok value ∧
        (reference.isShared = true ↔ wide.Numbered value)) ∧
    LookupFailure.OfDescribing (.undescribable .method) ∧
    Fault.IsError (Fault.error (LookupFailure.sharedStringMissing 1)) := by
  have hnear : wide.Numbered (.type ⟨4112⟩) := ⟨by decide, by decide⟩
  have hfar : ¬wide.Numbered (.type ⟨4294971392⟩) := fun h => absurd h.near (by decide)
  have htype : wide.Nameable ⟨4294971392⟩ :=
    ⟨⟨"Hall", .boot, .linked, false⟩, rfl, ⟨rfl, fun _ => by decide⟩, rfl, rfl⟩
  have hmethod : wide.Named (.method ⟨281474976710656⟩) :=
    ⟨⟨⟨4294971392⟩, "size", "()I"⟩, rfl, htype, rfl⟩
  have harchived : wide.Numbered (.string ⟨4112⟩) := ⟨by decide, 0, by decide, rfl⟩
  have hstring : wide.Named (.string ⟨281474976718848⟩) := ⟨"nave", rfl, rfl⟩
  refine ⟨hnear, hfar, ?_, (decodeValue_encodeValue wide (.method ⟨8⟩)).1 _ rfl, ?_⟩
  · intro value hvalue
    refine (decodeValue_encodeValue wide value).2.2 ?_
    simp only [List.mem_cons, List.not_mem_nil, or_false] at hvalue
    rcases hvalue with rfl | rfl | rfl | rfl | rfl
    · exact .inl hnear
    · exact .inr htype
    · exact .inr hmethod
    · exact .inl harchived
    · exact .inr hstring
  · refine (decodeValue_encodeValue wide .null).2.1 (.sharedString 1) _
      (fun resident distance hsame => ?_) rfl
    cases resident <;> cases hsame

end Context

end CodeVault
