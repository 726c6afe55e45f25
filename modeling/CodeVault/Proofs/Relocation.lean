import CodeVault.Proofs.Reference
import CodeVault.Proofs.Symbol.Runs
import CodeVault.Relocation.Codec
import Mathlib.Data.List.Forall2

/-!
# Relocations are bound again

The relocations of a section are read back, in the process that wrote them, as what they were,
except that a call to its own place comes back as such and a pointer to a string as the address of
the copy (`Context.rebound`).

* `Context.CodesRelocations` ties relocations to their auxiliary words and constants; writing
  produces these (`writeRelocations_ok`), and records and words are read back
  (`spells_readBindings`);
* **reading them binds the relocations again** (`spells_readRelocations`).
-/

namespace CodeVault

open Arena Bytes Cursor

/-! ## 1. Records -/

/-- The bytes of the record of a relocation. -/
def Relocation.recordBytes (relocation : Relocation) : Bytes :=
  #[UInt8.ofNat relocation.kind.code] ++
    (#[relocation.format] ++ (ofU16 0 ++ ofU32 relocation.offset))

@[simp] theorem Relocation.size_recordBytes (relocation : Relocation) :
    relocation.recordBytes.size = 8 := by
  simp [recordBytes]

/-- The kind of a relocation is found by the byte that was written for it. -/
theorem RelocationKind.ofCode?_byte (kind : RelocationKind) :
    ofCode? (UInt8.ofNat kind.code).toNat = some kind := by
  cases kind <;> rfl

namespace Context

variable {context : Context} {arena after : Arena}

/-- **A record that is written lies in its section.** -/
theorem writeRecord_ok {sectionSize : Nat} {relocation : Relocation} {u : Unit}
    (h : writeRecord sectionSize relocation arena = .ok u after) :
    insideSection relocation.offset sectionSize = true ∧
      after = arena.extend relocation.recordBytes := by
  obtain ⟨hinside, hrest⟩ := refusal_eq_ok.1 h
  refine ⟨by simpa using hinside, ?_⟩
  exact ((appends_write _).bind fun _ => (appends_write _).bind fun _ => (appends_write _).bind
    fun _ =>
    (appends_write _).bind_pure) hrest

/-- **A record in its section is read back.** -/
theorem spells_readRecord {sectionSize : Nat} {relocation : Relocation}
    (h : insideSection relocation.offset sectionSize = true) :
    Spells relocation.recordBytes (readRecord sectionSize)
      (relocation.kind, relocation.format, relocation.offset) := by
  refine (spells_readU8 _).bind ?_
  simp only [RelocationKind.ofCode?_byte]
  refine (spells_readU8 _).bind ((spells_readU16 0).bind ?_)
  refine (spells_readU32 relocation.offset).bind_nothing ?_
  simp only [h, Bool.not_true, Bool.false_eq_true, if_false]
  exact spells_pure _

/-! ## 2. What is written for relocations -/

/-- What is written for a relocation behind its record: its auxiliary word, and a constant. -/
abbrev Auxiliary := UInt32 × Option Reference

/-- A constant that can be read back, if there is one. -/
def Auxiliary.Legible (auxiliary : Auxiliary) : Prop :=
  ∀ reference, auxiliary.2 = some reference → reference.Legible

/-- The bytes of a constant, if there is one. -/
def constantBytes (auxiliary : Auxiliary) : Bytes := (auxiliary.2.map Reference.encode).getD #[]

/-- What is written for each of the relocations of a section that starts at `origin`. -/
def Coding (context : Context) (origin : Address) (referenceCount : Nat) :
    List Relocation → List Auxiliary → Prop :=
  List.Forall₂ fun relocation auxiliary =>
    context.auxiliary origin referenceCount relocation = .ok auxiliary

theorem writeAuxiliaries_ok {origin : Address} {referenceCount : Nat}
    {relocations : List Relocation} {constants : List Reference}
    (h : context.writeAuxiliaries origin referenceCount relocations arena = .ok constants after) :
    ∃ coding, context.Coding origin referenceCount relocations coding ∧
      constants = coding.filterMap (·.2) ∧
      after = arena.extend (join (coding.map fun auxiliary => ofU32 auxiliary.1)) := by
  induction relocations generalizing arena constants with
  | nil =>
    obtain ⟨rfl, rfl⟩ := pure_ok h
    exact ⟨[], .nil, rfl, by simp⟩
  | cons relocation relocations ih =>
    obtain ⟨⟨word, constant⟩, middle, hlink, hrest⟩ := bind_ok h
    obtain ⟨haux, rfl⟩ := ofOutcome_eq_ok.1 hlink
    obtain ⟨_, written, hword, hrest⟩ := bind_ok hrest
    obtain ⟨-, rfl⟩ := write_ok (lift_eq_ok.1 hword)
    obtain ⟨others, last, hothers, hdone⟩ := bind_ok hrest
    obtain ⟨rfl, rfl⟩ := pure_ok hdone
    obtain ⟨coding, hcoding, rfl, rfl⟩ := ih hothers
    refine ⟨(word, constant) :: coding, .cons haux hcoding, ?_, ?_⟩
    · cases constant <;> rfl
    · simp only [List.map_cons, join_cons, extend_extend]

/-- Everything that is known of the relocations of a section once they were written. -/
structure CodesRelocations (context : Context) (referenceCount : Nat) (part : CodeSection)
    (coding : List Auxiliary) : Prop where
  length_lt : part.relocations.length < wordSpace
  inside : ∀ relocation ∈ part.relocations, insideSection relocation.offset part.bytes.size = true
  codes : context.Coding part.origin referenceCount part.relocations coding
  legible : ∀ auxiliary ∈ coding, auxiliary.Legible

/-- The bytes of the relocations of a section. -/
def relocationBytes (part : CodeSection) (coding : List Auxiliary) : Bytes :=
  ofU32 (UInt32.ofNat part.relocations.length) ++ (ofU32 part.locsPoint ++
    (join (part.relocations.map Relocation.recordBytes) ++
      (join (coding.map fun auxiliary => ofU32 auxiliary.1) ++ join (coding.map constantBytes))))

/-- Constants are written one behind the other. -/
theorem join_constants (coding : List Auxiliary) :
    join ((coding.filterMap (·.2)).map Reference.encode) = join (coding.map constantBytes) := by
  induction coding with
  | nil => rfl
  | cons auxiliary coding ih =>
    obtain ⟨word, constant⟩ := auxiliary
    cases constant with
    | none => simpa [constantBytes] using ih
    | some reference => simpa [constantBytes] using congrArg (reference.encode ++ ·) ih

/-- **What is written for the relocations of a section codes them.** -/
theorem writeRelocations_ok {referenceCount : Nat} {part : CodeSection} {u : Unit}
    (h : context.writeRelocations referenceCount part arena = .ok u after) :
    ∃ coding, context.CodesRelocations referenceCount part coding ∧
      after = arena.extend (relocationBytes part coding) := by
  obtain ⟨hcount, hrest⟩ := refusal_eq_ok.1 h
  obtain ⟨_, a1, hlength, hrest⟩ := bind_ok hrest
  obtain ⟨-, rfl⟩ := write_ok (lift_eq_ok.1 hlength)
  obtain ⟨_, a2, hlocs, hrest⟩ := bind_ok hrest
  obtain ⟨-, rfl⟩ := write_ok (lift_eq_ok.1 hlocs)
  obtain ⟨_, a3, hrecords, hrest⟩ := bind_ok hrest
  obtain ⟨constants, a4, hwords, hconstants⟩ := bind_ok hrest
  obtain ⟨hinside, rfl⟩ :=
    forM_ok (fun _ _ _ _ hitem => writeRecord_ok (lift_eq_ok.1 hitem)) hrecords
  obtain ⟨coding, hcoding, rfl, rfl⟩ := writeAuxiliaries_ok hwords
  obtain ⟨hlegible, rfl⟩ := forM_ok (fun reference _ _ _ hitem =>
    And.comm.1 (reference.carries_write (lift_eq_ok.1 hitem))) hconstants
  refine ⟨coding, ⟨Nat.not_le.1 hcount, hinside, hcoding,
    fun auxiliary hmem reference hconstant => ?_⟩,
    ?_⟩
  · exact hlegible reference (List.mem_filterMap.2 ⟨auxiliary, hmem, hconstant⟩)
  simp only [extend_extend, relocationBytes, join_constants, Array.append_assoc]

/-! ## 3. Records and words -/

/-- What a relocation is bound by: its record, and its auxiliary word. -/
abbrev Binding := (RelocationKind × UInt8 × UInt32) × UInt32

/-- Reads what the relocations of a section are bound by, and the end of the range that they
    cover. -/
def readBindings (sectionSize : Nat) : Reading (List Binding × UInt32) := do
  let count ← Cursor.readCount relocationRecordSize
  let locsPoint ← Cursor.readU32
  let records ← Cursor.readMany (readRecord sectionSize) count
  let words ← Cursor.readMany Cursor.readU32 count
  return (records.zip words, locsPoint)

/-- **Relocations are bound one after the other once all records and words are read.** -/
theorem readRelocations_eq (referenceCount sectionSize : Nat) :
    context.readRelocations referenceCount sectionSize = (do
      let (bindings, locsPoint) ← (readBindings sectionSize : Decoding (List Binding × UInt32))
      let relocations ← context.bindAll referenceCount bindings
      return (relocations, locsPoint)) := by
  simp only [readBindings, lift_bind, lift_pure, bind_assoc, pure_bind]
  rfl

/-- What relocations are bound by: their records with their auxiliary words. -/
def bindings (relocations : List Relocation) (coding : List Auxiliary) : List Binding :=
  (relocations.map fun relocation => (relocation.kind, relocation.format, relocation.offset)).zip
    (coding.map (·.1))

/-- The bytes of the relocations of a section up to the constants. -/
def bindingBytes (part : CodeSection) (coding : List Auxiliary) : Bytes :=
  ofU32 (UInt32.ofNat part.relocations.length) ++ (ofU32 part.locsPoint ++
    (join (part.relocations.map Relocation.recordBytes) ++
      join (coding.map fun auxiliary => ofU32 auxiliary.1)))

theorem relocationBytes_eq (part : CodeSection) (coding : List Auxiliary) :
    relocationBytes part coding = bindingBytes part coding ++ join (coding.map constantBytes) := by
  simp only [relocationBytes, bindingBytes, Array.append_assoc]

/-- **What the relocations of a section are bound by is read back.** -/
theorem spells_readBindings {referenceCount : Nat} {part : CodeSection} {coding : List Auxiliary}
    (h : context.CodesRelocations referenceCount part coding) :
    Spells (bindingBytes part coding) (readBindings part.bytes.size)
      (bindings part.relocations coding, part.locsPoint) := by
  have hsame : part.relocations.length = coding.length := h.codes.length_eq
  have hrecords := spells_readMany fun relocation hmem =>
    spells_readRecord (h.inside relocation hmem)
  have hwords : Spells (join (coding.map fun auxiliary => ofU32 auxiliary.1))
      (readMany readU32 coding.length) (coding.map (·.1)) :=
    spells_readMany fun auxiliary _ => spells_readU32 auxiliary.1
  refine Spells.bind_readCount h.length_lt ?_ ?_
  · have hrecordBytes : (part.relocations.map Relocation.recordBytes).length * 8 ≤
        (join (part.relocations.map Relocation.recordBytes)).size :=
      length_mul_le_size_join (by simp)
    have hwordBytes : (coding.map fun auxiliary => ofU32 auxiliary.1).length * 4 ≤
        (join (coding.map fun auxiliary => ofU32 auxiliary.1)).size :=
      length_mul_le_size_join fun piece hmem => by
        obtain ⟨auxiliary, -, rfl⟩ := List.mem_map.1 hmem
        exact Nat.le_of_eq (size_ofU32 _).symm
    simp only [List.length_map] at hrecordBytes hwordBytes
    simp only [relocationRecordSize, Array.size_append]
    omega
  · refine (spells_readU32 part.locsPoint).bind (hrecords.bind ?_)
    rw [hsame]
    exact hwords.bind_pure

/-! ## 4. Binding again -/

/-- An embedded value that is found again, in the same process, by what was written for it. -/
def Restores (context : Context) (value : EmbeddedValue) : Prop :=
  ∃ reference, context.encodeValue value = .ok reference ∧ context.decodeValue reference = .ok value

/-- A relocation of a section that started at `origin`, as it is read back in the same process: a
    call to its own place is known as such, and a pointer to a string leads to the copy of the
    string. -/
def rebound (context : Context) (origin : Address) (relocation : Relocation) : Relocation :=
  { relocation with value := match relocation.value with
    | .address target =>
      if relocation.kind.isCall && origin.after? relocation.offset.toNat == some target then
        .selfReference
      else .address (context.process.symbols.strings.standIn target)
    | value => value }

theorem ne_marker {word : UInt32} (h : word.toNat < wordSpace - 1) : word ≠ relocationMarker := by
  rintro rfl
  exact absurd h (by decide)

/-- An address has the word of its symbol. -/
theorem symbolWord_eq_ok {target : Address} {word : UInt32} :
    context.symbolWord target = .ok word ↔
      ∃ symbol, context.process.symbols.symbolOf target = .ok symbol ∧
        symbol.toRaw? = some word := by
  unfold symbolWord
  cases context.process.symbols.symbolOf target with
  | error cause => simp
  | ok symbol => simp [orOverflow_eq_ok]

/-- An address has no word if it has no symbol, or if there is no word for its symbol. -/
theorem symbolWord_eq_error {target : Address} {fault : Fault CacheError} :
    context.symbolWord target = .error fault ↔
      (∃ cause, context.process.symbols.symbolOf target = .error cause ∧
        fault = .error (.symbol cause)) ∨
      ∃ symbol, context.process.symbols.symbolOf target = .ok symbol ∧ symbol.toRaw? = none ∧
        fault = .halt .overflow := by
  unfold symbolWord
  cases context.process.symbols.symbolOf target with
  | error cause => simp [eq_comm]
  | ok symbol => cases hraw : symbol.toRaw? <;> simp [orOverflow, hraw, eq_comm]

/-- **The word of a target** is the marker if the target is the place of the call itself, and else
    the word of its symbol. -/
theorem targetWord_eq_ok {origin target : Address} {relocation : Relocation} {word : UInt32} :
    context.targetWord origin relocation target = .ok word ↔
      relocation.kind.isCall = true ∧ origin.after? relocation.offset.toNat = some target ∧
        word = relocationMarker ∨
      (relocation.kind.isCall = true →
        ∃ site, origin.after? relocation.offset.toNat = some site ∧ target ≠ site) ∧
        context.symbolWord target = .ok word := by
  unfold targetWord
  cases relocation.kind.isCall with
  | false => simp
  | true =>
    cases origin.after? relocation.offset.toNat with
    | none => simp
    | some site =>
      by_cases hself : target = site
      · simp [hself, eq_comm]
      · simp [hself, Ne.symm hself]

/-- A target has no word if the place of the call is behind the last address, or if it has no word
    as an address. -/
theorem targetWord_eq_error {origin target : Address} {relocation : Relocation}
    {fault : Fault CacheError} :
    context.targetWord origin relocation target = .error fault ↔
      relocation.kind.isCall = true ∧ origin.after? relocation.offset.toNat = none ∧
      fault = .halt .overflow ∨
      (relocation.kind.isCall = true →
        ∃ site, origin.after? relocation.offset.toNat = some site ∧ target ≠ site) ∧
        context.symbolWord target = .error fault := by
  unfold targetWord
  cases relocation.kind.isCall with
  | false => simp
  | true =>
    cases origin.after? relocation.offset.toNat with
    | none => simp [eq_comm]
    | some site =>
      by_cases hself : target = site
      · simp [hself]
      · simp [hself]

/-- The word of a symbol leads back to what stands for the address. -/
theorem symbolWord_ok {target : Address} {word : UInt32} (hsound : context.process.symbols.Sound)
    (h : context.symbolWord target = .ok word) :
    word ≠ relocationMarker ∧ context.process.symbols.addressOf (Symbol.ofRaw word)
      = .ok (context.process.symbols.strings.standIn target) := by
  obtain ⟨symbol, hsymbol, hraw⟩ := symbolWord_eq_ok.1 h
  obtain ⟨hlt, hback⟩ := SymbolTable.addressOf_ofRaw hsound hsymbol hraw
  exact ⟨ne_marker hlt, hback⟩

/-- A word that is a symbol's is bound to what stands for the address. -/
theorem spells_symbol {referenceCount : Nat} {kind : RelocationKind} {target : Address}
    {word : UInt32} (hsound : context.process.symbols.Sound) (hkind : kind.operand = .target)
    (h : context.symbolWord target = .ok word) :
    Spells #[] (context.bindValue referenceCount kind word)
      (.address (context.process.symbols.strings.standIn target)) := by
  obtain ⟨hne, hback⟩ := symbolWord_ok hsound h
  simp only [bindValue, hkind, hne, if_false, hback]
  exact spells_pure _

/-- The marker behind a call is bound to the call's own place. -/
theorem spells_marker {referenceCount : Nat} {kind : RelocationKind}
    (hkind : kind.operand = .target) :
    Spells #[] (context.bindValue referenceCount kind relocationMarker) .selfReference := by
  simp only [bindValue, hkind, if_true]
  exact spells_pure _

/-- A constant that stands behind the words is found again. -/
theorem spells_readValue {value : EmbeddedValue} {reference : Reference}
    (hlegible : reference.Legible) (hencode : context.encodeValue value = .ok reference)
    (h : context.Restores value) :
    Spells reference.encode context.readValue value := by
  obtain ⟨other, hother, hdecode⟩ := h
  cases hencode.symm.trans hother
  refine (hlegible.lift).bind_nothing ?_
  simp only [hdecode]
  exact spells_pure value

/-- The word of an address is bound to what the address is bound to again. -/
theorem spells_target {origin target : Address} {referenceCount : Nat} {relocation : Relocation}
    {word : UInt32} (hsound : context.process.symbols.Sound)
    (hoperand : relocation.kind.operand = .target) (hval : relocation.value = .address target)
    (h : context.targetWord origin relocation target = .ok word) :
    Spells #[] (context.bindValue referenceCount relocation.kind word)
      (context.rebound origin relocation).value := by
  simp only [rebound, hval]
  rcases targetWord_eq_ok.1 h with ⟨hcall, hsite, rfl⟩ | ⟨helse, hsymbol⟩
  · simp only [hcall, hsite, beq_self_eq_true, Bool.and_self, if_true]
    exact spells_marker hoperand
  · have hother : (relocation.kind.isCall && origin.after? relocation.offset.toNat == some target) =
        false := by
      cases hcall : relocation.kind.isCall with
      | false => rfl
      | true =>
        obtain ⟨site, hsite, hne⟩ := helse hcall
        simpa [hsite] using Ne.symm hne
    simp only [hother, Bool.false_eq_true, if_false]
    exact spells_symbol hsound hoperand hsymbol

/-- **A relocation is bound again by its auxiliary word and its constant.** -/
theorem spells_bindValue {origin : Address} {referenceCount : Nat} {relocation : Relocation}
    {auxiliary : Auxiliary} (hsound : context.process.symbols.Sound)
    (hcount : referenceCount < wordSpace) (hlegible : auxiliary.Legible)
    (hvalue : ∀ value, relocation.value = .immediate value → context.Restores value)
    (h : context.auxiliary origin referenceCount relocation = .ok auxiliary) :
    Spells (constantBytes auxiliary) (context.bindValue referenceCount relocation.kind auxiliary.1)
      (context.rebound origin relocation).value := by
  unfold Context.auxiliary at h
  split at h
  · rename_i hoperand hval
    cases h
    simp only [bindValue, hoperand, rebound, hval]
    exact spells_pure _
  · rename_i hoperand hval
    cases h
    simp only [rebound, hval]
    exact spells_marker hoperand
  · rename_i target hoperand hval
    obtain ⟨word, hword, rfl⟩ := except_map_eq_ok.1 h
    exact spells_target hsound hoperand hval hword
  · rename_i value hoperand hval
    obtain ⟨reference, hencode, rfl⟩ := except_map_eq_ok.1 (liftError_eq_ok.1 h)
    simp only [bindValue, hoperand, if_true, rebound, hval]
    exact (spells_readValue (hlegible reference rfl) hencode (hvalue value hval)).bind_pure
  · rename_i offset hoperand hval
    cases h
    simp only [bindValue, hoperand, rebound, hval]
    exact spells_pure _
  · rename_i index hoperand hval
    split at h
    · rename_i hlt
      cases h
      have hne : index ≠ relocationMarker := ne_marker (by omega)
      simp only [bindValue, hoperand, hne, if_false, hlt, if_true, rebound, hval]
      exact spells_pure _
    · cases h
  · cases h

theorem spells_bindAll {origin : Address} {referenceCount : Nat} {relocations : List Relocation}
    {coding : List Auxiliary} (hsound : context.process.symbols.Sound)
    (hcount : referenceCount < wordSpace) (hlegible : ∀ auxiliary ∈ coding, auxiliary.Legible)
    (hvalues : ∀ relocation ∈ relocations, ∀ value, relocation.value = .immediate value →
      context.Restores value)
    (h : context.Coding origin referenceCount relocations coding) :
    Spells (join (coding.map constantBytes))
      (context.bindAll referenceCount (bindings relocations coding))
      (relocations.map (context.rebound origin)) := by
  induction h with
  | nil => exact spells_pure []
  | cons hfirst _ ih =>
    obtain ⟨hlegible, hothers⟩ := List.forall_mem_cons.1 hlegible
    obtain ⟨hvalue, hvalues⟩ := List.forall_mem_cons.1 hvalues
    exact (spells_bindValue hsound hcount hlegible hvalue hfirst).bind
      (ih hothers hvalues).bind_pure

/-- **The relocations of a section are read back and bound again.** -/
theorem spells_readRelocations {referenceCount : Nat} {part : CodeSection} {coding : List Auxiliary}
    (hsound : context.process.symbols.Sound) (hcount : referenceCount < wordSpace)
    (hvalues : ∀ relocation ∈ part.relocations, ∀ value, relocation.value = .immediate value →
      context.Restores value)
    (h : context.CodesRelocations referenceCount part coding) :
    Spells (relocationBytes part coding) (context.readRelocations referenceCount part.bytes.size)
      (part.relocations.map (context.rebound part.origin), part.locsPoint) := by
  rw [readRelocations_eq, relocationBytes_eq]
  exact (spells_readBindings h).lift.bind
    (spells_bindAll hsound hcount h.legible hvalues h.codes).bind_pure

/-! ## 5. What stays -/

variable {holds : Arena → Prop} {edge : Nat}

theorem preserves_writeAuxiliaries (h : Outlasts holds edge) (origin : Address)
    (referenceCount : Nat) (relocations : List Relocation) :
    Preserves holds (context.writeAuxiliaries origin referenceCount relocations) := by
  induction relocations with
  | nil => exact preserves_pure _
  | cons relocation relocations ih =>
    refine (preserves_ofOutcome _).bind fun _ => (h.write _).lift.bind fun _ => ?_
    exact ih.bind fun _ => preserves_pure _

/-- Writing relocations preserves what outlasts all writing. -/
theorem preserves_writeRelocations (h : Outlasts holds edge) (referenceCount : Nat)
    (part : CodeSection) :
    Preserves holds (context.writeRelocations referenceCount part) := by
  unfold Context.writeRelocations
  refine Preserves.unless (u := ()) ?_
  refine (h.write _).lift.bind fun _ => (h.write _).lift.bind fun _ => ?_
  refine (preserves_forM (fun relocation => Preserves.lift ?_) _).bind fun _ => ?_
  · unfold writeRecord
    refine Preserves.unless (u := ()) ?_
    refine (h.write _).bind fun _ => (h.write _).bind fun _ => (h.write _).bind fun _ => ?_
    exact (h.write _).bind fun _ => preserves_pure _
  · refine (preserves_writeAuxiliaries h _ _ _).bind fun _ => ?_
    exact preserves_forM (fun reference => (reference.preserves_write h).lift) _

end Context

end CodeVault
