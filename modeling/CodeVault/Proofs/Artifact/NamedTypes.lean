import CodeVault.Proofs.Artifact.Carried
import CodeVault.Proofs.Context.Naming

/-!
# Types by name

A reference names a type of itself, or as the holder of a method. Whether a type may be named is
asked where it is described and again where it is found, whatever way leads there: the table of
constants or a constant in the code, a type or a method.

* `Context.Names`: what is known of a type that a value was named by; `Context.Finds`: what is known
  of a type that was found by its name;
* **no payload that is written names a type that may not be named, and none that is read leads to
  one** (`named_types_safe`).
-/

namespace CodeVault

open Bytes

/-! ## 1. Types that are named -/

/-- The type that a reference names: of itself, or as the holder of a method. -/
def Reference.type? : Reference → Option TypeDescriptor
  | .type descriptor => some descriptor
  | .method descriptor => some descriptor.holder
  | _ => Option.none

/-- The type that a value is, or whose method it is. -/
def Resolver.holder? (resolver : Resolver) : EmbeddedValue → Option TypeHandle
  | .type handle => some handle
  | .method handle => (resolver.describeMethod handle).map (·.holder)
  | _ => none

namespace Context

variable {context : Context}

/-- A type that a reference names is that of the value, as it was described in this process, and may
    be named. -/
def Names (context : Context) (value : EmbeddedValue) (reference : Reference) : Prop :=
  ∀ type, reference.type? = some type → ∃ handle info,
    context.process.resolver.holder? value = some handle ∧
    context.process.resolver.describeType handle = some info ∧
    type = ⟨info.name, info.loader⟩ ∧ context.MayName info

/-- A type that a reference names is found in this process, where it may be named and has been
    linked. -/
def Finds (context : Context) (reference : Reference) : Prop :=
  ∀ type, reference.type? = some type → ∃ handle info,
    context.process.resolver.findType type.name type.loader = some handle ∧
    context.process.resolver.describeType handle = some info ∧
    context.MayName info ∧ (info.state = .linked ∨ info.state = .initialized)

/-- **What a value is written as names only a type that may be named.** -/
theorem names_of_encodeValue {value : EmbeddedValue} {reference : Reference}
    (h : context.encodeValue value = .ok reference) : context.Names value reference := by
  intro type htype
  cases value with
  | null | noData | systemLoader | platformLoader | primitive _ =>
    cases h
    cases htype
  | type handle =>
    simp only [encodeValue] at h
    split at h
    · cases h
      cases htype
    · obtain ⟨descriptor, hdescribe, rfl⟩ := except_map_eq_ok.1 h
      cases htype
      obtain ⟨info, hinfo, hname, hmay⟩ := describeType_eq_ok.1 hdescribe
      exact ⟨handle, info, rfl, hinfo, hname, hmay⟩
  | method handle =>
    simp only [encodeValue] at h
    split at h
    · cases h
      cases htype
    · obtain ⟨method, holder, hmethod, hdescribe, rfl⟩ := describeMethod_eq_ok.1 h
      cases htype
      obtain ⟨info, hinfo, hname, hmay⟩ := describeType_eq_ok.1 hdescribe
      exact ⟨method.holder, info,
        by simp only [Resolver.holder?, hmethod, Option.map_some], hinfo, hname, hmay⟩
  | string handle =>
    -- A string names no type, whether it is archived or not.
    have named : context.describeString handle = .ok reference → ∃ text, reference = .string text :=
      fun h => by
      obtain ⟨text, -, rfl⟩ := describeString_eq_ok.1 h
      exact ⟨text, rfl⟩
    have hstring : (∃ index, reference = .sharedString index) ∨ ∃ text,
        reference = .string text := by
      simp only [encodeValue] at h
      split at h
      · split at h
        · cases h
          exact .inl ⟨_, rfl⟩
        · exact .inr (named h)
      · exact .inr (named h)
    rcases hstring with ⟨_, rfl⟩ | ⟨_, rfl⟩ <;> cases htype

/-- **What a reference is read as leads only to a type that may be named and has been linked.** -/
theorem finds_of_decodes {reference : Reference} {value : EmbeddedValue}
    (h : context.Decodes reference value) : context.Finds reference := by
  intro type htype
  cases reference with
  | noData | null | systemLoader | platformLoader => cases htype
  | string _ | primitive _ | sharedType _ | sharedMethod _ | sharedString _ => cases htype
  | type descriptor =>
    cases htype
    obtain ⟨handle, hresolve, -⟩ := except_map_eq_ok.1 (liftError_eq_ok.1 h)
    obtain ⟨hfind, info, hinfo, hmay, hlinked⟩ := resolveType_eq_ok.1 hresolve
    exact ⟨handle, info, hfind, hinfo, hmay, TypeState.isLinked_iff.1 hlinked⟩
  | method descriptor =>
    cases htype
    obtain ⟨handle, hresolve, -⟩ := except_bind_eq_ok.1 (liftError_eq_ok.1 h)
    obtain ⟨hfind, info, hinfo, hmay, hlinked⟩ := resolveType_eq_ok.1 hresolve
    exact ⟨handle, info, hfind, hinfo, hmay, TypeState.isLinked_iff.1 hlinked⟩

/-! ## 2. Payloads -/

/-- **Types are carried by name only where that is safe.** The payload that is written of an
    artifact carries a reference for each of its values, and each type that one of them names was
    described as not hidden, and, for code that is installed before its first call, with another
    loader than a custom one. The references in a payload that is read stand for the values of the
    artifact, and each type that one of them names is found in this process, is described there as
    not hidden and linked or initialized, and, for code that is installed before its first call,
    with a builtin loader. -/
theorem named_types_safe (context : Context) :
    (∀ (artifact : Artifact) (arena after : Arena) (layout : PayloadLayout) (offline : Bool),
      context.writeArtifact artifact arena = .ok layout after →
      ∃ payload references, after.bytes.slice? layout.offset layout.size = some payload ∧
        Payload.references payload (Session.entryOf offline artifact layout) = .ok references ∧
        List.Forall₂ (fun value reference =>
          context.encodeValue value = .ok reference ∧ context.Names value reference)
          artifact.values references) ∧
    (∀ (payload : Bytes) (entry : Entry) (artifact : Artifact),
      context.readArtifact payload entry = .ok artifact →
      ∃ references, Payload.references payload entry = .ok references ∧
        List.Forall₂ (fun reference value =>
          context.decodeValue reference = .ok value ∧ context.Finds reference)
          references artifact.values) := by
  constructor
  · intro artifact arena after layout offline h
    obtain ⟨payload, references, hslice, hreferences, hencodes⟩ :=
      references_of_writeArtifact h offline
    exact ⟨payload, references, hslice, hreferences,
      hencodes.imp fun value reference hencode => ⟨hencode, names_of_encodeValue hencode⟩⟩
  · intro payload entry artifact h
    obtain ⟨references, hreferences, hdecodes⟩ := references_of_readArtifact h
    exact ⟨references, hreferences,
      hdecodes.imp fun reference value hdecode => ⟨hdecode, finds_of_decodes hdecode⟩⟩

/-- A process whose boot loader knows one type with one method. -/
def objectProcess : LiveProcess where
  symbols := SymbolTable.empty ⟨4096, 256⟩ fun serial => UInt64.ofNat (36864 + 16 * serial)
  image := .absent
  resolver :=
    { describeType := fun handle =>
        if handle.address = 4096 then some ⟨"Object", .boot, .initialized, false⟩ else none
      describeMethod := fun handle =>
        if handle.address = 8192 then some ⟨⟨4096⟩, "hash", "()I"⟩ else none
      describeString := fun _ => none
      findType := fun name loader => if name = "Object" ∧ loader = .boot then some ⟨4096⟩ else none
      findMethod := fun holder name _ =>
        if holder.address = 4096 ∧ name = "hash" then some ⟨8192⟩ else none
      internString := fun _ => none }

/-- A stub for installation before its first call, with the method in its code and the type in its
    table. -/
def objectStub : Artifact :=
  { Artifact.method "stub" 1 0 with
    kind := .stub
    sections := ⟨.empty .consts, ⟨.insts, 8192, zeros 16, 16,
      [⟨.metadata, 8, 0, .immediate (.method ⟨8192⟩)⟩]⟩, .empty .stubs⟩
    references := [.type ⟨4096⟩] }

theorem named_types_safe_objectStub :
    ∃ layout after payload,
      Context.writeArtifact ⟨objectProcess, true⟩ objectStub (.ofCapacity 512) = .ok layout after ∧
      after.bytes.slice? layout.offset layout.size = some payload ∧
      Payload.references payload (Session.entryOf false objectStub layout)
        = .ok [.type ⟨"Object", .boot⟩, .method ⟨⟨"Object", .boot⟩, "hash", "()I"⟩] ∧
      Context.Finds ⟨objectProcess, true⟩ (.type ⟨"Object", .boot⟩) ∧
      Context.Finds ⟨objectProcess, true⟩ (.method ⟨⟨"Object", .boot⟩, "hash", "()I"⟩) := by
  have hwritten :
      (match Context.writeArtifact ⟨objectProcess, true⟩ objectStub (.ofCapacity 512) with
      | .ok layout after => (do
        let payload ← after.bytes.slice? layout.offset layout.size
        let artifact ← (Context.readArtifact ⟨objectProcess, true⟩ payload
          (Session.entryOf false objectStub layout)).toOption
        some artifact.name) == some "stub"
      | .error _ _ => false) = true := by
    decide +kernel
  cases hrun : Context.writeArtifact ⟨objectProcess, true⟩ objectStub (.ofCapacity 512) with
  | error fault after =>
    rw [hrun] at hwritten
    cases hwritten
  | ok layout after =>
    obtain ⟨payload, references, hslice, hreferences, hnames⟩ :=
      (named_types_safe ⟨objectProcess, true⟩).1 _ _ _ _ false hrun
    simp only [hrun, hslice, Option.bind_eq_bind, Option.bind_some] at hwritten
    cases hread : Context.readArtifact ⟨objectProcess, true⟩ payload
        (Session.entryOf false objectStub layout) with
    | error fault =>
      rw [hread] at hwritten
      cases hwritten
    | ok artifact =>
      obtain ⟨others, hothers, hfinds⟩ := (named_types_safe ⟨objectProcess, true⟩).2 _ _ _ hread
      cases hreferences.symm.trans hothers
      have hvalues : objectStub.values = [.type ⟨4096⟩, .method ⟨8192⟩] := by decide
      rw [hvalues] at hnames
      obtain _ | ⟨⟨hfirst, -⟩, _ | ⟨⟨hsecond, -⟩, _ | _⟩⟩ := hnames
      cases hfirst
      cases hsecond
      obtain ⟨_, _, ⟨-, hfirst⟩, hfinds, -⟩ := List.forall₂_cons_left_iff.1 hfinds
      obtain ⟨_, _, ⟨-, hsecond⟩, -, -⟩ := List.forall₂_cons_left_iff.1 hfinds
      exact ⟨layout, after, payload, rfl, hslice, hreferences, hfirst, hsecond⟩

end Context

end CodeVault
