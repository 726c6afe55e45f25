import CodeVault.Proofs.Arena.Refused
import CodeVault.Proofs.Arena.Room

/-!
# Everything that is asked of an arena

An arena is used by requests for room, by requests that write over bytes or take them back, and by
nothing else.

* what may come of one request (`Outcome`, `outcome_perform`);
* `Disciplined`: bytes and slots fit, the bytes end below every slot, and each slot is below the
  earlier ones; every request keeps this (`Disciplined.step`);
* an arena is marked exactly if a request has exhausted it, and then it refuses every request for
  room and stays as it is (`perform_of_failed`);
* **this holds of an arena whatever was asked of it before** (`disciplined_throughout`).
-/

namespace CodeVault.Arena

open Bytes

variable {α : Type} {arena after : Arena} {capacity : Nat}

/-! ## 1. Requests -/

/-- What is asked of an arena. -/
inductive Request where
  | reserve (size : Nat)
  | write (data : Bytes)
  | writeU8 (value : UInt8)
  | writeU16 (value : UInt16)
  | writeU32 (value : UInt32)
  | writeI32 (value : Int32)
  | writeU64 (value : UInt64)
  | writeAddress (addr : Address)
  | writeString (text : String)
  | writeCString (text : String)
  | align
  | reserveTail (size : Nat)
  | patchU32 (pos : Nat) (value : UInt32)
  | truncate (position : Nat)

/-- Bytes that were carved off the high end. -/
structure Slot where
  offset : Nat
  size : Nat
  deriving DecidableEq, Repr

/-- An action that carves nothing off. -/
def carvingNone (action : Encoding α) : Encoding (List Slot) := do
  let _ ← action
  return []

namespace Request

/-- Does what is asked, and answers the slot that was carved off by it, if any. -/
def perform : Request → Encoding (List Slot)
  | .reserve size => carvingNone (Arena.reserve size)
  | .write data => carvingNone (Arena.write data : Writing Nat)
  | .writeU8 value => carvingNone (Arena.writeU8 value : Writing Nat)
  | .writeU16 value => carvingNone (Arena.writeU16 value : Writing Nat)
  | .writeU32 value => carvingNone (Arena.writeU32 value : Writing Nat)
  | .writeI32 value => carvingNone (Arena.writeI32 value : Writing Nat)
  | .writeU64 value => carvingNone (Arena.writeU64 value : Writing Nat)
  | .writeAddress addr => carvingNone (Arena.writeAddress addr : Writing Nat)
  | .writeString text => carvingNone (Arena.writeString text : Writing Nat)
  | .writeCString text => carvingNone (Arena.writeCString text : Writing (Nat × Nat))
  | .align => carvingNone (Arena.align : Writing Unit)
  | .reserveTail size => do
    let offset ← (Arena.reserveTail size : Writing Nat)
    return [⟨offset, size⟩]
  | .patchU32 pos value => carvingNone (Arena.patchU32 pos value)
  | .truncate position => carvingNone (modify (Arena.truncate position))

/-- Whether bytes that are there may be changed or taken back. -/
def rewrites : Request → Bool
  | .patchU32 _ _ | .truncate _ => true
  | _ => false

/-- Whether there has to be room: for all but taking bytes back, writing over them and aligning at a
    boundary. -/
def AsksForRoom (arena : Arena) : Request → Prop
  | .patchU32 _ _ | .truncate _ => False
  | .align => 0 < paddingAfter arena.position
  | _ => True

/-- Why a failed arena refuses a request for room: a text that no arena could take is refused for
    that. -/
def refusal : Request → CacheError
  | .writeString text =>
    if wordSpace ≤ (ofString text).size then .malformed (.longString (ofString text).size)
      else .arenaFailed
  | .writeCString text => if (ofString text).contains 0 then .malformed (.nulInName text)
      else .arenaFailed
  | _ => .arenaFailed

/-- What a request leaves of the bytes that are there: those before the position that is truncated
    to, those beside the word that is written over them, and else all of them. -/
def Leaves (before after : Bytes) : Request → Prop
  | .truncate position => after = before.extract 0 position
  | .patchU32 pos _ => after.size = before.size ∧ ∀ i, i < pos ∨ pos + 4 ≤ i →
      after[i]? = before[i]?
  | _ => PartAt after 0 before

end Request

/-- A request exhausts an arena. -/
def Exhausts (arena : Arena) (request : Request) : Prop :=
  ∃ cause : CacheError, cause.IsExhausted ∧ causeOf? (request.perform arena) = some (.error cause)

/-! ## 2. What may come of a request -/

/-- What may come of a request: bytes behind the others, a slot, bytes in the place of others, no
    change, or an arena that is marked, with a part of what was to be written. -/
inductive Outcome (request : Request) (arena : Arena) :
    EStateM.Result (Fault CacheError) Arena (List Slot) → Prop where
  | appended (data : Bytes) (room : data.size ≤ arena.remaining) : Outcome request arena
      (.ok [] (arena.extend data))
  | carved (size : Nat) (room : size ≤ arena.remaining) :
      Outcome request arena
        (.ok [⟨arena.capacity - (arena.tail + size), size⟩]
          { arena with tail := arena.tail + size })
  | rewritten (bytes : Bytes) (rewrites : request.rewrites = true)
      (size_le : bytes.size ≤ arena.position) :
      Outcome request arena (.ok [] { arena with bytes })
  | unchanged (fault : Fault CacheError) (other : ∀ cause, fault = .error cause →
      ¬cause.IsExhausted) :
      Outcome request arena (.error fault arena)
  | exhausted (cause : CacheError) (data : Bytes) (room : data.size ≤ arena.remaining)
      (full : cause.IsExhausted) :
      Outcome request arena (.error (.error cause) { arena.extend data with failed := true })

theorem carvingNone_of_ok {action : Encoding α} {a : α} (h : action arena = .ok a after) :
    carvingNone action arena = .ok [] after := by
  rw [carvingNone, bind_of_ok h]
  rfl

theorem carvingNone_of_error {action : Encoding α} {fault : Fault CacheError}
    (h : action arena = .error fault after) :
    carvingNone action arena = .error fault after := by
  rw [carvingNone, bind_of_error h]

/-- **What comes of writing bytes.** -/
theorem write_outcomes (data : Bytes) (arena : Arena) :
    (arena.failed = true ∧ write data arena = .error .arenaFailed arena) ∨
    (arena.failed = false ∧ data.size ≤ arena.remaining ∧
      write data arena = .ok arena.position (arena.extend data)) ∨
    write data arena = .error (.arenaExhausted data.size arena.remaining) { arena with
      failed := true } := by
  rcases ensure_cases data.size arena with
    ⟨hfailed, hensure⟩ | ⟨hsound, hroom, hensure⟩ | ⟨-, -, hensure⟩
  · exact .inl ⟨hfailed, bind_of_error hensure⟩
  · exact .inr (.inl ⟨hsound, hroom, bind_of_ok hensure⟩)
  · exact .inr (.inr (bind_of_error hensure))

section Outcomes

variable {request : Request}

theorem Outcome.refused {cause : CacheError} (h : ¬cause.IsExhausted) :
    Outcome request arena (.error (.error cause) arena) :=
  .unchanged _ fun _ hsame hexhausted => by
    cases hsame
    exact h hexhausted

/-- Room has run out, and nothing was written. -/
theorem Outcome.full (requested : Nat) :
    Outcome request arena (.error (.error (.arenaExhausted requested arena.remaining))
      { arena with failed := true }) := by
  have h : Outcome request arena (.error (.error (.arenaExhausted requested arena.remaining))
      { arena.extend #[] with failed := true }) := .exhausted _ #[] (Nat.zero_le _) ⟨_, _, rfl⟩
  rwa [extend_empty] at h

/-- An action that ends well, among requests. -/
theorem lifted_of_ok {action : Writing α} {a : α} (h : action arena = .ok a after) :
    carvingNone (action : Encoding α) arena = .ok [] after :=
  carvingNone_of_ok (lift_eq_ok.2 h)

theorem lifted_of_error {action : Writing α} {cause : CacheError}
    (h : action arena = .error cause after) :
    carvingNone (action : Encoding α) arena = .error (.error cause) after :=
  carvingNone_of_error (lift_eq_error.2 h)

/-- **What may come of a request that writes bytes at once.** -/
theorem outcome_of_write {action : Writing α} (data : Bytes) (f : Nat → α)
    (h : action arena = (do return f (← write data) : Writing α) arena) :
    Outcome request arena (carvingNone (action : Encoding α) arena) := by
  rcases write_outcomes data arena with ⟨-, hwrite⟩ | ⟨-, hroom, hwrite⟩ | hwrite
  · rw [lifted_of_error (h.trans (bind_of_error hwrite))]
    exact .refused plain_arenaFailed.1
  · rw [lifted_of_ok (h.trans (bind_of_ok hwrite))]
    exact .appended data hroom
  · rw [lifted_of_error (h.trans (bind_of_error hwrite))]
    exact .full _

theorem outcome_write (data : Bytes) :
    Outcome request arena (carvingNone (write data : Writing Nat) arena) :=
  outcome_of_write data id (congrFun (bind_pure (write data)).symm arena)

theorem outcome_reserve (size : Nat) :
    Outcome request arena (carvingNone (reserve size) arena) := by
  rcases ensure_cases size arena with ⟨-, hensure⟩ | ⟨-, hroom, hensure⟩ | ⟨-, -, hensure⟩
  · have hreserve : reserve size arena = .error (.error .arenaFailed) arena :=
      bind_of_error (lift_eq_error.2 hensure)
    rw [carvingNone_of_error hreserve]
    exact .refused plain_arenaFailed.1
  · have hhere : (get : Encoding Arena) arena = .ok arena arena := rfl
    by_cases hmax : maxBytes < arena.position + size
    · have hreserve : reserve size arena = .error (.halt .oversize) arena := by
        rw [reserve, bind_of_ok (lift_eq_ok.2 hensure), bind_of_ok hhere]
        simp only [hmax, if_true]
        rfl
      rw [carvingNone_of_error hreserve]
      exact .unchanged _ fun _ hsame => nomatch hsame
    · have hreserve : reserve size arena = .ok arena.position (arena.extend (zeros size)) := by
        rw [reserve, bind_of_ok (lift_eq_ok.2 hensure), bind_of_ok hhere]
        simp only [hmax, if_false]
        rfl
      rw [carvingNone_of_ok hreserve]
      exact .appended _ (by rwa [size_zeros])
  · have hreserve : reserve size arena = .error (.error (.arenaExhausted size arena.remaining))
        { arena with failed := true } := bind_of_error (lift_eq_error.2 hensure)
    rw [carvingNone_of_error hreserve]
    exact .full size

/-- A text may be written as far as its length, when room runs out. -/
theorem outcome_writeString (text : String) :
    Outcome request arena (carvingNone (writeString text : Writing Nat) arena) := by
  by_cases hlong : wordSpace ≤ (ofString text).size
  · have hwrite : writeString text arena =
        .error (.malformed (.longString (ofString text).size)) arena := by
      unfold writeString
      simp only [hlong, if_true]
      rfl
    rw [lifted_of_error hwrite]
    exact .refused (plain_malformed _).1
  · have hshort : writeString text arena = (do
        let offset ← writeU32 (UInt32.ofNat (ofString text).size)
        let _ ← write (ofString text)
        return offset : Writing Nat) arena := by
      unfold writeString
      simp only [hlong, if_false]
    rcases write_outcomes (ofU32 (UInt32.ofNat (ofString text).size)) arena with
      ⟨-, hlength⟩ | ⟨hsound, hroom, hlength⟩ | hlength
    · rw [lifted_of_error (hshort.trans (bind_of_error hlength))]
      exact .refused plain_arenaFailed.1
    · have hrest := hshort.trans (bind_of_ok hlength)
      rcases write_outcomes (ofString text)
        (arena.extend (ofU32 (UInt32.ofNat (ofString text).size))) with
        ⟨hfailed, htext⟩ | ⟨-, hroom', htext⟩ | htext
      · -- The length was written, so that the arena has not failed.
        exact absurd hfailed (Bool.eq_false_iff.1 hsound)
      · rw [lifted_of_ok (hrest.trans (bind_of_ok htext)), extend_extend]
        refine .appended _ ?_
        rw [remaining_extend] at hroom'
        rw [Array.size_append]
        omega
      · rw [lifted_of_error (hrest.trans (bind_of_error htext))]
        exact .exhausted _ _ hroom ⟨_, _, rfl⟩
    · rw [lifted_of_error (hshort.trans (bind_of_error hlength))]
      exact .full _

theorem outcome_writeCString (text : String) :
    Outcome request arena (carvingNone (writeCString text : Writing (Nat × Nat)) arena) := by
  by_cases hnul : (ofString text).contains 0 = true
  · have hwrite : writeCString text arena = .error (.malformed (.nulInName text)) arena := by
      unfold writeCString
      simp only [hnul, if_true]
      rfl
    rw [lifted_of_error hwrite]
    exact .refused (plain_malformed _).1
  · refine outcome_of_write ((ofString text).push 0)
      (fun offset => (offset, (ofString text).size + 1)) ?_
    unfold writeCString
    simp only [hnul, Bool.false_eq_true, if_false]

theorem outcome_align : Outcome request arena (carvingNone (align : Writing Unit) arena) := by
  have hhere : (get : Writing Arena) arena = .ok arena arena := rfl
  by_cases hpadding : 0 < paddingAfter arena.position
  · refine outcome_of_write (zeros (paddingAfter arena.position)) (fun _ => ()) ?_
    rw [align, bind_of_ok hhere]
    simp only [hpadding, if_true]
  · have halign : align arena = .ok () arena := by
      rw [align, bind_of_ok hhere]
      simp only [hpadding, if_false]
      rfl
    have hnone : Outcome request arena (.ok [] (arena.extend #[])) := .appended #[] (Nat.zero_le _)
    rw [lifted_of_ok halign]
    rwa [extend_empty] at hnone

theorem outcome_reserveTail (size : Nat) :
    Outcome request arena ((Request.reserveTail size).perform arena) := by
  rcases ensure_cases size arena with ⟨-, hensure⟩ | ⟨-, hroom, hensure⟩ | ⟨-, -, hensure⟩
  · have htail : reserveTail size arena = .error .arenaFailed arena := bind_of_error hensure
    rw [Request.perform, bind_of_error (lift_eq_error.2 htail)]
    exact .refused plain_arenaFailed.1
  · have htail : reserveTail size arena =
        .ok (arena.capacity - (arena.tail + size)) { arena with tail := arena.tail + size } :=
          bind_of_ok hensure
    rw [Request.perform, bind_of_ok (lift_eq_ok.2 htail)]
    exact .carved size hroom
  · have htail : reserveTail size arena =
        .error (.arenaExhausted size arena.remaining) { arena with failed := true } :=
          bind_of_error hensure
    rw [Request.perform, bind_of_error (lift_eq_error.2 htail)]
    exact .full size

theorem outcome_patchU32 (pos : Nat) (value : UInt32) :
    Outcome (.patchU32 pos value) arena (carvingNone (patchU32 pos value) arena) := by
  rcases patchU32_cases pos value arena with ⟨-, hpatch⟩ | ⟨-, -, hpatch⟩ | ⟨-, hend, hpatch⟩
  · rw [carvingNone_of_error hpatch]
    exact .unchanged _ fun _ hsame => nomatch hsame
  · rw [carvingNone_of_error hpatch]
    exact .refused (by rintro ⟨_, _, ⟨⟩⟩)
  · rw [carvingNone_of_ok hpatch]
    have hroom : pos + (ofU32 value).size ≤ arena.bytes.size := by rwa [size_ofU32]
    exact .rewritten _ rfl (Nat.le_of_eq (size_overwrite hroom))

/-- **What may come of a request.** -/
theorem outcome_perform (request : Request) (arena : Arena) :
    Outcome request arena (request.perform arena) := by
  cases request with
  | reserve size => exact outcome_reserve size
  | writeString text => exact outcome_writeString text
  | writeCString text => exact outcome_writeCString text
  | align => exact outcome_align
  | reserveTail size => exact outcome_reserveTail size
  | patchU32 pos value => exact outcome_patchU32 pos value
  | truncate position =>
    refine .rewritten (arena.bytes.extract 0 position) rfl ?_
    rw [Array.size_extract]
    exact Nat.le_trans (Nat.sub_le _ _) (Nat.min_le_right _ _)
  | write | writeU8 | writeU16 | writeU32 | writeI32 | writeU64 | writeAddress =>
    exact outcome_write _

/-! ## 3. What is left of the bytes, and the mark -/

/-- Bytes that were only appended to are still there. -/
theorem Outcome.partAt {result : EStateM.Result (Fault CacheError) Arena (List Slot)}
    (h : Outcome request arena result) (hkeeps : request.rewrites = false) :
    PartAt (stateOf result).bytes 0 arena.bytes := by
  cases h with
  | appended data => exact (partAt_self _).append_right data
  | carved | unchanged => exact partAt_self _
  | rewritten _ hrewrites => exact absurd hrewrites (Bool.eq_false_iff.1 hkeeps)
  | exhausted _ data => exact (partAt_self _).append_right data

/-- **The bytes that are there change only where a word is written over them, and go only where they
    are taken back.** -/
theorem leaves_perform (request : Request) (arena : Arena) :
    request.Leaves arena.bytes (stateOf (request.perform arena)).bytes := by
  cases request with
  | truncate position => rfl
  | patchU32 pos value =>
    have hrefused : ∀ {fault}, patchU32 pos value arena = .error fault arena →
        (Request.patchU32 pos value).Leaves arena.bytes
          (stateOf ((Request.patchU32 pos value).perform arena)).bytes := by
      intro fault hpatch
      have hperform : (Request.patchU32 pos value).perform arena = .error fault arena :=
        carvingNone_of_error hpatch
      rw [hperform]
      exact ⟨rfl, fun _ _ => rfl⟩
    rcases patchU32_cases pos value arena with ⟨-, hpatch⟩ | ⟨-, -, hpatch⟩ | ⟨-, hend, hpatch⟩
    · exact hrefused hpatch
    · exact hrefused hpatch
    · have hperform : (Request.patchU32 pos value).perform arena = .ok [] _ :=
        carvingNone_of_ok hpatch
      have hroom : pos + (ofU32 value).size ≤ arena.bytes.size := by rwa [size_ofU32]
      rw [hperform, stateOf_ok]
      exact ⟨size_overwrite hroom,
        fun i hi => getElem?_overwrite_outside hroom (by rwa [size_ofU32])⟩
  | reserve | write | writeU8 | writeU16 | writeU32 | writeI32 | writeU64 | writeAddress |
      writeString | writeCString
  | align | reserveTail => exact (outcome_perform _ arena).partAt rfl

/-- **An arena is marked by a request exactly if it was marked before or the request has exhausted
    it.** -/
theorem failed_perform (request : Request) (arena : Arena) :
    (stateOf (request.perform arena)).failed = true ↔
      arena.failed = true ∨ arena.Exhausts request := by
  have houtcome := outcome_perform request arena
  unfold Exhausts
  generalize request.perform arena = result at houtcome ⊢
  have hquiet : (∀ cause : CacheError, cause.IsExhausted → causeOf? result ≠ some (.error cause)) →
      ¬∃ cause : CacheError, cause.IsExhausted ∧ causeOf? result = some (.error cause) :=
    fun h ⟨cause, hfull, hcause⟩ => h cause hfull hcause
  cases houtcome with
  | appended | carved | rewritten =>
    exact ⟨.inl, fun h => h.resolve_right (hquiet fun _ _ hcause => nomatch hcause)⟩
  | unchanged fault hother =>
    refine ⟨.inl, fun h => h.resolve_right (hquiet fun cause hfull hcause => ?_)⟩
    exact hother cause (Option.some.inj hcause) hfull
  | exhausted cause _ _ hfull => exact ⟨fun _ => .inr ⟨cause, hfull, rfl⟩, fun _ => rfl⟩

/-- **An arena that is marked refuses every request for room, and stays as it is.** -/
theorem perform_of_failed (hfailed : arena.failed = true) (hasks : request.AsksForRoom arena) :
    request.perform arena = .error (.error request.refusal) arena := by
  have hensure : ∀ requested, ensure requested arena = .error .arenaFailed arena :=
    fun _ => if_pos hfailed
  have hwrite : ∀ data, write data arena = .error .arenaFailed arena :=
    fun data => bind_of_error (hensure data.size)
  cases request with
  | reserve size =>
    have hreserve : Arena.reserve size arena = .error (.error .arenaFailed) arena :=
      bind_of_error (lift_eq_error.2 (hensure size))
    exact carvingNone_of_error hreserve
  | write | writeU8 | writeU16 | writeU32 | writeI32 | writeU64 | writeAddress =>
    exact lifted_of_error (hwrite _)
  | writeString text =>
    refine lifted_of_error ?_
    unfold Arena.writeString Request.refusal
    by_cases hlong : wordSpace ≤ (ofString text).size
    · simp only [hlong, if_true]
      rfl
    · simp only [hlong, if_false]
      exact bind_of_error (hwrite _)
  | writeCString text =>
    refine lifted_of_error ?_
    unfold Arena.writeCString Request.refusal
    by_cases hnul : (ofString text).contains 0 = true
    · simp only [hnul, if_true]
      rfl
    · simp only [hnul, Bool.false_eq_true, if_false]
      exact bind_of_error (hwrite _)
  | align =>
    have hhere : (get : Writing Arena) arena = .ok arena arena := rfl
    have hpadding : 0 < paddingAfter arena.position := hasks
    refine lifted_of_error ?_
    rw [Arena.align, bind_of_ok hhere]
    simp only [hpadding, if_true]
    exact bind_of_error (hwrite _)
  | reserveTail size =>
    have htail : Arena.reserveTail size arena = .error .arenaFailed arena :=
      bind_of_error (hensure size)
    exact bind_of_error (lift_eq_error.2 htail)
  | patchU32 => exact hasks.elim
  | truncate => exact hasks.elim

end Outcomes

/-! ## 4. Uses of an arena -/

/-- An arena, and the slots that were carved off it so far, the first one first. -/
structure Use where
  arena : Arena
  slots : List Slot

namespace Use

/-- An arena of which nothing was asked yet. -/
def fresh (capacity : Nat) : Use := ⟨.ofCapacity capacity, []⟩

/-- The arena after one more request, whatever came of it, and the slots. -/
def step (use : Use) (request : Request) : Use :=
  match request.perform use.arena with
  | .ok slots after => ⟨after, use.slots ++ slots⟩
  | .error _ after => ⟨after, use.slots⟩

/-- The arena after requests, whatever came of them, and the slots. -/
def run (use : Use) (requests : List Request) : Use := requests.foldl step use

theorem arena_step (use : Use) (request : Request) :
    (use.step request).arena = stateOf (request.perform use.arena) := by
  unfold step
  cases request.perform use.arena <;> rfl

/-- Bytes and slots fit into the arena; the bytes end below every slot, and every slot ends below
    the earlier ones. -/
structure Disciplined (capacity : Nat) (use : Use) : Prop where
  fits : use.arena.Fits capacity use.arena.tail
  lowest : ∀ slot ∈ use.slots, capacity - use.arena.tail ≤ slot.offset ∧
    slot.offset + slot.size ≤ capacity
  descending : use.slots.Pairwise fun earlier later => later.offset + later.size ≤ earlier.offset

variable {use : Use}

theorem disciplined_fresh (capacity : Nat) : (fresh capacity).Disciplined capacity :=
  ⟨fits_ofCapacity capacity, (fun _ hmem => nomatch hmem), .nil⟩

/-- The next byte to be written is below every slot. -/
theorem Disciplined.position_le (h : use.Disciplined capacity) {slot : Slot}
    (hmem : slot ∈ use.slots) :
    use.arena.position ≤ slot.offset := by
  have hroom := h.fits.room
  have hlowest := (h.lowest slot hmem).1
  omega

/-- Other bytes that fit leave the slots where they are. -/
theorem Disciplined.of_same_tail (h : use.Disciplined capacity)
    (hcapacity : after.capacity = use.arena.capacity) (htail : after.tail = use.arena.tail)
    (hroom : after.position + use.arena.tail ≤ capacity) :
    Disciplined capacity ⟨after, use.slots⟩ := by
  refine ⟨⟨hcapacity.trans h.fits.capacity_eq, rfl, ?_⟩, ?_, h.descending⟩
  · rw [htail]
    exact hroom
  · rw [htail]
    exact h.lowest

/-- **Every request keeps bytes and slots apart.** -/
theorem Disciplined.step (h : use.Disciplined capacity) (request : Request) :
    (use.step request).Disciplined capacity := by
  have houtcome := outcome_perform request use.arena
  have hfits := h.fits.room
  unfold Use.step
  generalize request.perform use.arena = result at houtcome ⊢
  have hextend : ∀ data : Bytes, data.size ≤ use.arena.remaining →
      (use.arena.extend data).position + use.arena.tail ≤ capacity := by
    intro data hroom
    have := h.fits.of_remaining hroom
    rw [position_extend]
    omega
  cases houtcome with
  | appended data hroom =>
    dsimp only
    rw [List.append_nil]
    exact h.of_same_tail rfl rfl (hextend data hroom)
  | carved size hroom =>
    have hroom := h.fits.of_remaining hroom
    have hcapacity := h.fits.capacity_eq
    refine ⟨⟨hcapacity, rfl, ?_⟩, fun slot hmem => ?_, ?_⟩
    · show use.arena.position + (use.arena.tail + size) ≤ capacity
      omega
    · show capacity - (use.arena.tail + size) ≤ slot.offset ∧ _
      rcases List.mem_append.1 hmem with hold | hnew
      · have hlowest := h.lowest slot hold
        omega
      · cases List.mem_singleton.1 hnew
        dsimp only
        omega
    · refine List.pairwise_append.2 ⟨h.descending, List.pairwise_singleton _ _,
        fun earlier hearlier later hlater => ?_⟩
      have hlowest := (h.lowest earlier hearlier).1
      cases List.mem_singleton.1 hlater
      dsimp only
      omega
  | rewritten bytes _ hsize =>
    dsimp only
    rw [List.append_nil]
    refine h.of_same_tail rfl rfl ?_
    show bytes.size + use.arena.tail ≤ capacity
    omega
  | unchanged => exact h
  | exhausted _ data hroom => exact h.of_same_tail rfl rfl (hextend data hroom)

/-- **Bytes and slots stay apart whatever is asked.** -/
theorem Disciplined.run (h : use.Disciplined capacity) (requests : List Request) :
    (use.run requests).Disciplined capacity := by
  induction requests generalizing use with
  | nil => exact h
  | cons request requests ih => exact ih (h.step request)

/-- Slots that were carved off stay where they are. -/
theorem slots_step (use : Use) (request : Request) :
    ∃ slots, (use.step request).slots = use.slots ++ slots := by
  unfold step
  cases request.perform use.arena with
  | ok slots after => exact ⟨slots, rfl⟩
  | error fault after => exact ⟨[], (List.append_nil _).symm⟩

theorem slots_run (use : Use) (requests : List Request) :
    use.slots <+: (use.run requests).slots := by
  induction requests generalizing use with
  | nil => exact List.prefix_rfl
  | cons request requests ih =>
    obtain ⟨slots, hslots⟩ := use.slots_step request
    exact .trans ⟨slots, hslots.symm⟩ (ih (use.step request))

/-- **An arena is marked exactly if some request has exhausted it.** -/
theorem failed_run (use : Use) (requests : List Request) :
    (use.run requests).arena.failed = true ↔ use.arena.failed = true ∨
      ∃ earlier request later, requests = earlier ++ request :: later ∧
        (use.run earlier).arena.Exhausts request := by
  induction requests generalizing use with
  | nil =>
    refine ⟨.inl, fun h => h.resolve_right ?_⟩
    rintro ⟨earlier, request, later, hnil, -⟩
    cases earlier <;> cases hnil
  | cons request requests ih =>
    have hstep : (use.run (request :: requests)).arena.failed = true ↔ _ := ih (use.step request)
    rw [hstep, arena_step, failed_perform, or_assoc]
    refine or_congr_right ⟨?_, ?_⟩
    · rintro (hexhausts | ⟨earlier, later, rest, rfl, hexhausts⟩)
      · exact ⟨[], request, requests, rfl, hexhausts⟩
      · exact ⟨request :: earlier, later, rest, rfl, hexhausts⟩
    · rintro ⟨earlier, other, rest, hsplit, hexhausts⟩
      cases earlier with
      | nil =>
        cases hsplit
        exact .inl hexhausts
      | cons first earlier =>
        cases hsplit
        exact .inr ⟨earlier, other, rest, rfl, hexhausts⟩

end Use

/-- **An arena stays in order whatever was asked of it before**, and whatever came of that. Bytes
    and slots fit into it; every slot that was ever carved off is still there, in front of it are
    the later ones, and the next byte to be written is below all of them. A request leaves the bytes
    that are there, unless it is for writing over four of them or for taking bytes back. The arena
    is marked exactly if some request has exhausted it, and from then on every request for room is
    refused and leaves it as it is, however many bytes were taken back. -/
theorem disciplined_throughout (capacity : Nat) (requests : List Request) :
    let use := (Use.fresh capacity).run requests
    (use.Disciplined capacity ∧ ∀ slot ∈ use.slots, use.arena.position ≤ slot.offset) ∧
    (∀ more, use.slots <+: (use.run more).slots) ∧
    (∀ request : Request, request.Leaves use.arena.bytes (use.step request).arena.bytes) ∧
    (use.arena.failed = true ↔ ∃ earlier request later, requests = earlier ++ request :: later ∧
      ((Use.fresh capacity).run earlier).arena.Exhausts request) ∧
    (use.arena.failed = true → ∀ request : Request, request.AsksForRoom use.arena →
      request.perform use.arena = .error (.error request.refusal) use.arena) := by
  intro use
  have hdisciplined : use.Disciplined capacity := (Use.disciplined_fresh capacity).run requests
  refine ⟨⟨hdisciplined, fun slot hmem => hdisciplined.position_le hmem⟩, use.slots_run,
    fun request => ?_, ?_, fun hfailed request hasks => perform_of_failed hfailed hasks⟩
  · rw [Use.arena_step]
    exact leaves_perform request use.arena
  · rw [Use.failed_run]
    exact or_iff_right Bool.false_ne_true

/-! An example: two slots, and a text of which only the length finds room. -/

/-- What is asked of the arena. -/
def overfull : List Request :=
  [.reserveTail 8, .writeString "abc", .align, .reserveTail 4, .writeString "overlong", .truncate 0]

theorem disciplined_throughout_overfull :
    let use := (Use.fresh 24).run overfull
    use.slots = [⟨16, 8⟩, ⟨12, 4⟩] ∧ use.arena.position = 0 ∧ use.arena.failed = true ∧
      (Request.writeU8 7).perform use.arena = .error (.error .arenaFailed) use.arena := by
  intro use
  obtain ⟨-, -, -, -, hrefuses⟩ := disciplined_throughout 24 overfull
  have hfailed : use.arena.failed = true := by decide +kernel
  exact ⟨by decide +kernel, by decide +kernel, hfailed, hrefuses hfailed (.writeU8 7) trivial⟩

end CodeVault.Arena
