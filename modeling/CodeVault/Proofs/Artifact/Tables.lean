import CodeVault.Artifact.Read
import CodeVault.Artifact.Write
import CodeVault.Proofs.Arena.Append

/-!
# Tables are read back

Blobs and lists are written with their length before them and are read back by it, when their items
are as long as the reader expects at least. So are the tables that a managed runtime needs of code
(`carries_writeTables`).
-/

namespace CodeVault.Artifact

open Arena Bytes Cursor

variable {α : Type} {holds : Arena → Prop} {edge : Nat}

/-! ## 1. Blobs and lists -/

theorem length32_eq_ok {part : Part} {length : Nat} {word : UInt32} :
    length32 part length = .ok word ↔ length < wordSpace ∧ word = UInt32.ofNat length := by
  unfold length32
  split
  · rename_i h
    simp [h, eq_comm]
  · rename_i h
    simp [h]

theorem writeCount_ok {part : Part} {length : Nat} {arena after : Arena} {u : Unit}
    (h : writeCount part length arena = .ok u after) :
    length < wordSpace ∧ after = arena.extend (ofU32 (UInt32.ofNat length)) := by
  obtain ⟨word, _, hlink, hrest⟩ := bind_ok h
  obtain ⟨hword, rfl⟩ := ofOutcome_eq_ok.1 hlink
  obtain ⟨hlt, rfl⟩ := length32_eq_ok.1 hword
  exact ⟨hlt, (appends_write _).bind_pure hrest⟩

theorem preserves_writeCount (h : Outlasts holds edge) (part : Part) (length : Nat) :
    Preserves holds (writeCount part length) :=
  (preserves_ofOutcome _).bind fun _ => (h.write _).bind fun _ => preserves_pure _

/-- Bytes with their length before them. -/
def blobBytes (bytes : Bytes) : Bytes := ofU32 (UInt32.ofNat bytes.size) ++ bytes

/-- The bytes of things with their number before them. -/
def listBytes (encode : α → Bytes) (items : List α) : Bytes :=
  ofU32 (UInt32.ofNat items.length) ++ join (items.map encode)

/-- **A blob that is written is read back.** -/
theorem carries_writeBlob (part : Part) (bytes : Bytes) :
    Carries (writeBlob part bytes) (blobBytes bytes) readBlob bytes := by
  intro arena after u h
  obtain ⟨_, middle, hcount, hrest⟩ := bind_ok h
  obtain ⟨hlt, rfl⟩ := writeCount_ok hcount
  have hafter := (appends_write bytes).bind_pure (f := fun _ => ()) hrest
  exact ⟨by rw [hafter, extend_extend, blobBytes], spells_readBlob hlt⟩

/-- **A list that is written is read back.** -/
theorem carries_writeList {item : α → Writing Unit} {encode : α → Bytes} {reader : Reading α}
    {minSize : Nat} (part : Part) (hleast : ∀ a, minSize ≤ (encode a).size)
    (h : ∀ a, Carries (item a) (encode a) reader a) (items : List α) :
    Carries (writeList part item items) (listBytes encode items) (readList minSize reader)
      items := by
  intro arena after u hrun
  obtain ⟨_, middle, hcount, hrest⟩ := bind_ok hrun
  obtain ⟨hlt, rfl⟩ := writeCount_ok hcount
  obtain ⟨hspells, rfl⟩ := forM_ok (fun a _ _ _ hitem => And.comm.1 (h a hitem)) hrest
  exact ⟨extend_extend .., spells_readList hlt hleast hspells⟩

theorem preserves_writeList (h : Outlasts holds edge) {item : α → Writing Unit} (part : Part)
    (hitem : ∀ a, Preserves holds (item a)) (items : List α) :
    Preserves holds (writeList part item items) :=
  (preserves_writeCount h part _).bind fun _ => preserves_forM hitem items

theorem preserves_writeBlob (h : Outlasts holds edge) (part : Part) (bytes : Bytes) :
    Preserves holds (writeBlob part bytes) :=
  (preserves_writeCount h part _).bind fun _ => (h.write _).bind fun _ => preserves_pure _

theorem carries_writeWord (v : UInt32) : Carries (writeWord v) (ofU32 v) readU32 v :=
  (carries_writeU32 v).map_write

theorem preserves_writeWord (h : Outlasts holds edge) (v : UInt32) :
    Preserves holds (writeWord v) :=
  (h.write _).bind fun _ => preserves_pure _

theorem size_listBytes_ofU32 (words : List UInt32) : 4 ≤ (listBytes ofU32 words).size := by
  simp only [listBytes, Array.size_append, size_ofU32]
  omega

/-! ## 2. The tables of the managed runtime -/

/-- The tables of an artifact. -/
def tables (artifact : Artifact) : Tables :=
  ⟨artifact.frame, artifact.oopMaps, artifact.pcDescriptors, artifact.scopes,
   artifact.exceptionHandlers, artifact.nullChecks⟩

/-- The bytes of the map of one place. -/
def oopMapBytes (map : OopMap) : Bytes := ofU32 map.pcOffset ++ listBytes ofU32 map.slots

/-- The bytes of the debug information of one place. -/
def pcDescriptorBytes (desc : PcDescriptor) : Bytes :=
  ofU32 desc.pcOffset ++ (ofU32 desc.scopeOffset.toUInt32 ++
    (ofU32 desc.objOffset.toUInt32 ++ ofU32 desc.flags))

/-- The bytes of the handler of one place. -/
def handlerBytes (handler : ExceptionHandler) : Bytes :=
  ofU32 handler.pcOffset ++ (ofU32 handler.handlerOffset ++ ofU32 handler.scopeDepth)

/-- The bytes of one null check. -/
def nullCheckBytes (check : NullCheck) : Bytes :=
  ofU32 check.execOffset ++ ofU32 check.continuationOffset

/-- The bytes of the tables of an artifact. -/
def tableBytes (artifact : Artifact) : Bytes :=
  ofU32 artifact.frame.frameSize ++ (listBytes ofU32 artifact.frame.entryOffsets ++
    (listBytes oopMapBytes artifact.oopMaps ++
      (listBytes pcDescriptorBytes artifact.pcDescriptors ++
      (blobBytes artifact.scopes ++ (listBytes handlerBytes artifact.exceptionHandlers ++
        listBytes nullCheckBytes artifact.nullChecks)))))

/-- **The tables of an artifact are read back.** -/
theorem carries_writeTables (artifact : Artifact) :
    Carries artifact.writeTables artifact.tableBytes readTables artifact.tables := by
  refine (carries_writeWord _).bind fun _ => ?_
  refine (carries_writeList _ (by simp) carries_writeWord _).bind fun _ => ?_
  refine (carries_writeList _ (fun map => ?_) (fun map => ?_) _).bind fun _ => ?_
  · have := size_listBytes_ofU32 map.slots
    simp only [oopMapBytes, Array.size_append, size_ofU32]
    omega
  · refine (carries_writeWord map.pcOffset).bind fun _ => ?_
    exact (carries_writeList _ (by simp) carries_writeWord map.slots).map_read
  refine (carries_writeList _ (by simp [pcDescriptorBytes]) (fun desc => ?_) _).bind fun _ => ?_
  · refine (carries_writeWord desc.pcOffset).bind fun _ => ?_
    refine (carries_writeI32 desc.scopeOffset).bind fun _ => ?_
    refine (carries_writeI32 desc.objOffset).bind fun _ => ?_
    exact (carries_writeWord desc.flags).map_read
  refine (carries_writeBlob _ _).bind fun _ => ?_
  refine (carries_writeList _ (by simp [handlerBytes]) (fun handler => ?_) _).bind fun _ => ?_
  · refine (carries_writeWord handler.pcOffset).bind fun _ => ?_
    refine (carries_writeWord handler.handlerOffset).bind fun _ => ?_
    exact (carries_writeWord handler.scopeDepth).map_read
  refine Carries.map_read (carries_writeList _ (by simp [nullCheckBytes]) (fun check => ?_) _)
  refine (carries_writeWord check.execOffset).bind fun _ => ?_
  exact (carries_writeWord check.continuationOffset).map_read

theorem preserves_writeTables (h : Outlasts holds edge) (artifact : Artifact) :
    Preserves holds artifact.writeTables := by
  have hword : ∀ v, Preserves holds (writeWord v) := preserves_writeWord h
  refine (hword _).bind fun _ => (preserves_writeList h _ hword _).bind fun _ => ?_
  refine (preserves_writeList h _ (fun map => ?_) _).bind fun _ => ?_
  · exact (hword _).bind fun _ => preserves_writeList h _ hword _
  refine (preserves_writeList h _ (fun desc => ?_) _).bind fun _ => ?_
  · exact (hword _).bind fun _ => (h.write _).bind fun _ => (h.write _).bind fun _ => hword _
  refine (preserves_writeBlob h _ _).bind fun _ => ?_
  refine (preserves_writeList h _ (fun handler => ?_) _).bind fun _ => ?_
  · exact (hword _).bind fun _ => (hword _).bind fun _ => hword _
  exact preserves_writeList h _ (fun check => (hword _).bind fun _ => hword _) _

end CodeVault.Artifact
