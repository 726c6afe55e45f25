import CodeVault.Context
import CodeVault.Proofs.Outcome

/-!
# Describing and finding entities

What the resolver of a process says of types, methods and strings, and what it finds by it, as far
as the context lets a type be named.

* `Context.MayName`: a type may be named (`checkType_ok`);
* when a type, a method or a string is described, and when one is found by its description, each as
  an equivalence (`describeType_eq_ok`, `resolveType_eq_ok`, `resolveMethod_eq_ok` and so on).
-/

namespace CodeVault

theorem Loader.isBuiltin_iff {loader : Loader} : loader.isBuiltin = true ↔ loader ≠ .custom := by
  cases loader <;> simp [isBuiltin]

theorem TypeState.isLinked_iff {state : TypeState} :
    state.isLinked = true ↔ state = .linked ∨ state = .initialized := by
  cases state <;> simp [isLinked]

namespace Context

variable {context : Context}

/-! ## 1. Types that may be named -/

/-- A type that may be named: it is not hidden, and, if the code is installed before its first call,
    its loader is there in every process. -/
structure MayName (context : Context) (info : TypeInfo) : Prop where
  visible : info.hidden = false
  builtin : context.forPreload = true → info.loader ≠ .custom

/-- **The check of a type accepts exactly what may be named.** -/
theorem checkType_ok {info : TypeInfo} {u : Unit} :
    context.checkType info = .ok u ↔ context.MayName info := by
  unfold checkType
  constructor
  · intro h
    split at h
    · cases h
    · rename_i hvisible
      split at h
      · cases h
      · rename_i hbuiltin
        refine ⟨by simpa using hvisible, fun hpreload => Loader.isBuiltin_iff.1 ?_⟩
        simpa [hpreload] using hbuiltin
  · rintro ⟨hvisible, hbuiltin⟩
    have hloader : (context.forPreload && !info.loader.isBuiltin) = false := by
      cases hpreload : context.forPreload with
      | false => rfl
      | true => simp [Loader.isBuiltin_iff.2 (hbuiltin hpreload)]
    simp [hvisible, hloader]

/-! ## 2. Descriptions -/

/-- **A type is described if the resolver knows it and it may be named.** -/
theorem describeType_eq_ok {handle : TypeHandle} {type : TypeDescriptor} :
    context.describeType handle = .ok type ↔
      ∃ info, context.process.resolver.describeType handle = some info ∧
        type = ⟨info.name, info.loader⟩ ∧ context.MayName info := by
  unfold describeType
  cases hinfo : context.process.resolver.describeType handle with
  | none => simp
  | some info =>
    constructor
    · intro h
      obtain ⟨_, hcheck, hdone⟩ := except_bind_eq_ok.1 h
      cases hdone
      exact ⟨info, rfl, rfl, checkType_ok.1 hcheck⟩
    · rintro ⟨_, hsome, rfl, hmay⟩
      cases hsome
      exact except_bind_eq_ok.2 ⟨(), checkType_ok.2 hmay, rfl⟩

/-- A method is described if the resolver knows it and its holder is described. -/
theorem describeMethod_eq_ok {handle : MethodHandle} {reference : Reference} :
    context.describeMethod handle = .ok reference ↔
      ∃ method holder, context.process.resolver.describeMethod handle = some method ∧
        context.describeType method.holder = .ok holder ∧
        reference = .method ⟨holder, method.name, method.signature⟩ := by
  unfold describeMethod
  cases hmethod : context.process.resolver.describeMethod handle with
  | none => simp
  | some method =>
    constructor
    · intro h
      obtain ⟨holder, hdescribe, hdone⟩ := except_bind_eq_ok.1 h
      cases hdone
      exact ⟨method, holder, rfl, hdescribe, rfl⟩
    · rintro ⟨_, holder, hsome, hdescribe, rfl⟩
      cases hsome
      exact except_bind_eq_ok.2 ⟨holder, hdescribe, rfl⟩

theorem describeString_eq_ok {handle : ObjectHandle} {reference : Reference} :
    context.describeString handle = .ok reference ↔
      ∃ text, context.process.resolver.describeString handle = some text ∧
        reference = .string text := by
  unfold describeString
  cases context.process.resolver.describeString handle with
  | none => simp
  | some text => simp [eq_comm]

/-! ## 3. Entities found by their descriptions -/

/-- **A type is found by its name if the resolver finds it, still knows it, and it may be named and
    was linked.** -/
theorem resolveType_eq_ok {type : TypeDescriptor} {handle : TypeHandle} :
    context.resolveType type = .ok handle ↔
      context.process.resolver.findType type.name type.loader = some handle ∧
      ∃ info, context.process.resolver.describeType handle = some info ∧ context.MayName info ∧
        info.state.isLinked = true := by
  unfold resolveType
  cases hfind : context.process.resolver.findType type.name type.loader with
  | none => simp
  | some found =>
    dsimp only
    cases hinfo : context.process.resolver.describeType found with
    | none =>
      simp only [reduceCtorEq, Option.some.injEq, false_iff]
      rintro ⟨rfl, _, hsome, -⟩
      cases hinfo.symm.trans hsome
    | some info =>
      constructor
      · intro h
        obtain ⟨_, hcheck, h⟩ := except_bind_eq_ok.1 h
        split at h
        · rename_i hlinked
          cases h
          exact ⟨rfl, info, hinfo, checkType_ok.1 hcheck, hlinked⟩
        · cases h
      · rintro ⟨hsame, other, hother, hmay, hlinked⟩
        cases hsame
        cases hinfo.symm.trans hother
        exact except_bind_eq_ok.2 ⟨(), checkType_ok.2 hmay, if_pos hlinked⟩

theorem resolveMethod_eq_ok {method : MethodDescriptor} {value : EmbeddedValue} :
    context.resolveMethod method = .ok value ↔
      ∃ holder found, context.resolveType method.holder = .ok holder ∧
        context.process.resolver.findMethod holder method.name method.signature = some found ∧
        value = .method found := by
  unfold resolveMethod
  rw [except_bind_eq_ok]
  refine exists_congr fun holder => ?_
  cases context.process.resolver.findMethod holder method.name method.signature with
  | none => simp
  | some found =>
    constructor
    · rintro ⟨hholder, hdone⟩
      cases hdone
      exact ⟨found, hholder, rfl, rfl⟩
    · rintro ⟨_, hholder, hsome, rfl⟩
      cases hsome
      exact ⟨hholder, rfl⟩

theorem internString_eq_ok {text : String} {value : EmbeddedValue} :
    context.internString text = .ok value ↔
      ∃ found, context.process.resolver.internString text = some found ∧ value = .string found := by
  unfold internString
  cases context.process.resolver.internString text with
  | none => simp
  | some found => simp [eq_comm]

end Context

end CodeVault
