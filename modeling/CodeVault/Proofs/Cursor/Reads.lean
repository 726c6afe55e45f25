import CodeVault.Cursor
import CodeVault.Proofs.Bytes.Parts
import CodeVault.Proofs.Outcome

/-!
# What a reading action reads

* `Reads action data start a finish`: in `data` the action leads from one place to another and
  answers `a`;
* `Spells part action a`: wherever `part` stands, the action reads exactly it and answers `a`. This
  is the view for everything that does not ask where it is; it composes as parts do (`Spells.bind`);
* `Leads part action rest`: the same of an action that goes on as `rest`, which may be refused.
-/

namespace CodeVault.Cursor

open Bytes

variable {ε α β : Type} {data part : Bytes}

/-! ## 1. From place to place -/

/-- In `data` the action leads from `start` to `finish` and answers `a`. -/
def Reads (action : EStateM ε Cursor α) (data : Bytes) (start : Nat) (a : α)
    (finish : Nat) : Prop :=
  ∀ h : start ≤ data.size, ∃ h' : finish ≤ data.size,
    action ⟨data, start, h⟩ = .ok a ⟨data, finish, h'⟩

theorem reads_pure (a : α) (pos : Nat) : Reads (pure a : EStateM ε Cursor α) data pos a pos :=
  fun h => ⟨h, rfl⟩

theorem Reads.bind {x : EStateM ε Cursor α} {f : α → EStateM ε Cursor β} {s t u : Nat} {a : α}
    {b : β} (hx : Reads x data s a t) (hf : Reads (f a) data t b u) :
    Reads (x >>= f) data s b u := by
  intro h
  obtain ⟨ht, hxt⟩ := hx h
  obtain ⟨hu, hfu⟩ := hf ht
  exact ⟨hu, by rw [bind_of_ok hxt, hfu]⟩

/-- An action that asks where it is. -/
theorem Reads.bind_get {f : Cursor → EStateM ε Cursor β} {s u : Nat} {b : β}
    (hf : ∀ h : s ≤ data.size, Reads (f ⟨data, s, h⟩) data s b u) :
    Reads (get >>= f) data s b u := by
  intro h
  obtain ⟨hu, hfu⟩ := hf h h
  exact ⟨hu, by rw [← hfu]; rfl⟩

theorem Reads.lift {x : EStateM ε Cursor α} {s t : Nat} {a : α} (hx : Reads x data s a t) :
    Reads (liftM x : EStateM (Fault ε) Cursor α) data s a t := by
  intro h
  obtain ⟨ht, hxt⟩ := hx h
  exact ⟨ht, lift_eq_ok.2 hxt⟩

theorem reads_seek {pos target : Nat} (h : target ≤ data.size) :
    Reads (seek target) data pos () target := by
  intro hpos
  exact ⟨h, by rw [seek, dif_pos h]⟩

theorem reads_align {pos : Nat} (h : alignUp pos ≤ data.size) :
    Reads align data pos () (alignUp pos) :=
  Reads.bind_get fun _ => reads_seek h

/-- Running an action from a place on is what the action comes to there. -/
theorem runAt_eq {action : Reading α} {start : Nat} (hstart : start ≤ data.size) :
    runAt data start action = match action ⟨data, start, hstart⟩ with
      | .ok a _ => .ok a
      | .error e _ => .error e := by
  obtain ⟨_, hseek⟩ := (reads_seek hstart) (Nat.zero_le data.size)
  cases hrun : action ⟨data, start, hstart⟩ with
  | ok a after => simp only [runAt, ofBytes, bind_of_ok hseek, hrun]
  | error e after => simp only [runAt, ofBytes, bind_of_ok hseek, hrun]

theorem runAt_of_reads {action : Reading α} {start finish : Nat} {a : α}
    (hstart : start ≤ data.size) (h : Reads action data start a finish) :
    runAt data start action = .ok a := by
  obtain ⟨_, hrun⟩ := h hstart
  rw [runAt_eq hstart, hrun]

/-! ## 2. Parts -/

/-- Wherever `part` stands, the action reads exactly it and answers `a`. -/
def Spells (part : Bytes) (action : EStateM ε Cursor α) (a : α) : Prop :=
  ∀ ⦃data : Bytes⦄ ⦃pos : Nat⦄, PartAt data pos part → Reads action data pos a (pos + part.size)

theorem spells_pure (a : α) : Spells #[] (pure a : EStateM ε Cursor α) a :=
  fun _ pos _ => reads_pure a pos

/-- What a part spells is read from where it stands to where it ends. -/
theorem reads_of_partAt {action : EStateM ε Cursor α} {pos finish : Nat} {a : α}
    (hpart : PartAt data pos part) (hfinish : pos + part.size = finish) (h : Spells part action a) :
    Reads action data pos a finish :=
  hfinish ▸ h hpart

/-- **Parts one behind the other spell what the actions read one after the other.** -/
theorem Spells.bind {x : EStateM ε Cursor α} {f : α → EStateM ε Cursor β} {first second : Bytes}
    {a : α} {b : β} (hx : Spells first x a) (hf : Spells second (f a) b) :
    Spells (first ++ second) (x >>= f) b := by
  intro data pos h
  obtain ⟨h1, h2⟩ := partAt_append.1 h
  rw [Array.size_append, ← Nat.add_assoc]
  exact (hx h1).bind (hf h2)

/-- An action whose last link reads nothing. -/
theorem Spells.bind_nothing {x : EStateM ε Cursor α} {f : α → EStateM ε Cursor β} {a : α} {b : β}
    (hx : Spells part x a) (hf : Spells #[] (f a) b) : Spells part (x >>= f) b := by
  have := hx.bind hf
  rwa [Array.append_empty] at this

theorem Spells.bind_pure {x : EStateM ε Cursor α} {f : α → β} {a : α} (hx : Spells part x a) :
    Spells part (x >>= fun a => pure (f a)) (f a) :=
  hx.bind_nothing (spells_pure (f a))

theorem Spells.lift {x : EStateM ε Cursor α} {a : α} (hx : Spells part x a) :
    Spells part (liftM x : EStateM (Fault ε) Cursor α) a :=
  fun _ _ h => (hx h).lift

/-- Wherever `part` stands, the action reads exactly it and goes on as another, whatever that comes
    to. -/
def Leads (part : Bytes) (action rest : EStateM ε Cursor α) : Prop :=
  ∀ ⦃data : Bytes⦄ ⦃pos : Nat⦄, PartAt data pos part → ∀ h : pos ≤ data.size,
    ∃ h' : pos + part.size ≤ data.size, action ⟨data, pos, h⟩ = rest ⟨data, pos + part.size, h'⟩

theorem leads_self (action : EStateM ε Cursor α) :
    Leads #[] action action := fun _ _ _ h => ⟨h, rfl⟩

theorem Spells.leads {x : EStateM ε Cursor α} {f : α → EStateM ε Cursor β} {a : α}
    (hx : Spells part x a) : Leads part (x >>= f) (f a) := by
  intro data pos hpart h
  obtain ⟨h', hrun⟩ := hx hpart h
  exact ⟨h', bind_of_ok hrun⟩

theorem Spells.bind_leads {x : EStateM ε Cursor α} {f : α → EStateM ε Cursor β}
    {first second : Bytes} {rest : EStateM ε Cursor β} {a : α} (hx : Spells first x a)
    (hf : Leads second (f a) rest) :
    Leads (first ++ second) (x >>= f) rest := by
  intro data pos hpart h
  obtain ⟨h1, h2⟩ := partAt_append.1 hpart
  obtain ⟨hmiddle, hrun⟩ := hx h1 h
  obtain ⟨hlast, hrest⟩ := hf h2 hmiddle
  rw [Array.size_append, ← Nat.add_assoc]
  exact ⟨hlast, by rw [bind_of_ok hrun, hrest]⟩

/-- What is behind an action that stops is not done. -/
theorem Leads.bind_throw {x : EStateM ε Cursor α} {e : ε} (h : Leads part x (throw e))
    (f : α → EStateM ε Cursor β) : Leads part (x >>= f) (throw e) := by
  intro data pos hpart hpos
  obtain ⟨h', hrun⟩ := h hpart hpos
  exact ⟨h', bind_of_error hrun⟩

/-! ## 3. Words -/

theorem spells_readBytes (part : Bytes) : Spells part (readBytes part.size) part := by
  intro data pos h hpos
  exact ⟨h.le, by rw [readBytes, dif_pos h.le, h.extract]⟩

theorem spells_readU8 (v : UInt8) : Spells #[v] readU8 v := by
  have := (spells_readBytes #[v]).bind_pure (f := fun bytes => UInt8.ofNat bytes.toNat)
  rwa [ofNat_toNat_singleton] at this

theorem spells_readU16 (v : UInt16) : Spells (ofU16 v) readU16 v := by
  have := (spells_readBytes (ofU16 v)).bind_pure (f := fun bytes => UInt16.ofNat bytes.toNat)
  rwa [ofNat_toNat_ofU16, size_ofU16] at this

theorem spells_readU32 (v : UInt32) : Spells (ofU32 v) readU32 v := by
  have := (spells_readBytes (ofU32 v)).bind_pure (f := fun bytes => UInt32.ofNat bytes.toNat)
  rwa [ofNat_toNat_ofU32, size_ofU32] at this

theorem spells_readI32 (v : Int32) : Spells (ofU32 v.toUInt32) readI32 v := by
  have := (spells_readU32 v.toUInt32).bind_pure (f := UInt32.toInt32)
  rwa [Int32.toInt32_toUInt32] at this

theorem spells_readU64 (v : UInt64) : Spells (ofU64 v) readU64 v := by
  have := (spells_readBytes (ofU64 v)).bind_pure (f := fun bytes => UInt64.ofNat bytes.toNat)
  rwa [ofNat_toNat_ofU64, size_ofU64] at this

theorem spells_readAddress (a : Address) : Spells (ofU64 a) readAddress a := spells_readU64 a

/-! ## 4. Texts -/

/-- **The UTF-8 form of a text is read as the text.** -/
theorem decode_ofString (text : String) : Utf8.decode (ofString text) = .ok text := by
  have h : String.fromUTF8? ⟨text.toUTF8.data⟩ = some text := dif_pos text.isValidUTF8
  simp only [Utf8.decode, ofString, h]

/-- **Bytes that are read as a text are the bytes of the text.** -/
theorem ofString_of_decode {bytes : Bytes} {text : String} (h : Utf8.decode bytes = .ok text) :
    ofString text = bytes := by
  unfold Utf8.decode String.fromUTF8? at h
  split at h
  · rename_i hsome
    cases h
    split at hsome <;> cases hsome
    rfl
  · cases h

theorem spells_decodeText (text : String) : Spells #[] (decodeText (ofString text)) text := by
  rw [decodeText, decode_ofString]
  exact spells_pure text

theorem spells_readString {text : String} (h : (ofString text).size < wordSpace) :
    Spells (ofU32 (UInt32.ofNat (ofString text).size) ++ ofString text) readString text := by
  have hsize := toNat_ofNat_of_lt_wordSpace h
  refine (spells_readU32 _).bind ?_
  rw [hsize]
  exact (spells_readBytes (ofString text)).bind_nothing (spells_decodeText text)

/-- The first nul behind the start of a terminated text is the one that ends it. -/
theorem findByte?_of_partAt {data : Bytes} {pos : Nat} {text : CText}
    (h : PartAt data pos text.terminated) : data.findByte? 0 pos = some (pos + text.val.size) := by
  obtain ⟨before, rest, rfl, rfl⟩ := h
  have hnul : (before ++ text.terminated ++ rest)[before.size + text.val.size]? = some 0 := by
    simp [CText.terminated, Array.getElem?_append]
  have hclean : ∀ i, before.size ≤ i → i < before.size + text.val.size →
      (before ++ text.terminated ++ rest)[i]? ≠ some 0 := by
    intro i hle hlt hget
    have hin : i - before.size < text.val.size := by omega
    apply text.property
    have hin' : i < (before ++ text.terminated).size := by
      simp only [CText.terminated, Array.size_append, Array.size_push]
      omega
    rw [Array.getElem?_append_left hin', Array.getElem?_append_right hle, CText.terminated,
      Array.getElem?_push, if_neg (by omega)] at hget
    exact Array.mem_of_getElem? hget
  cases hfind : (before ++ text.terminated ++ rest).findByte? 0 before.size with
  | none => exact absurd hnul (findByte?_eq_none hfind _ (Nat.le_add_right _ _))
  | some found =>
    obtain ⟨hle, hat, hfirst⟩ := findByte?_eq_some hfind
    rcases Nat.lt_trichotomy found (before.size + text.val.size) with hlt | heq | hgt
    · exact absurd hat (hclean found hle hlt)
    · rw [heq]
    · exact absurd hnul (hfirst _ (Nat.le_add_right _ _) hgt)

/-- **A terminated text is read up to its nul, whatever follows.** -/
theorem spells_readTerminated (text : CText) : Spells text.terminated readTerminated text := by
  intro data pos h hpos
  have hfind := findByte?_of_partAt h
  have hsize : text.terminated.size = text.val.size + 1 := by simp [CText.terminated]
  have htext : data.extract pos (pos + text.val.size) = text.val := by
    rw [CText.terminated, Array.push_eq_append, partAt_append] at h
    exact h.1.extract
  have hle := h.le
  rw [hsize] at hle ⊢
  refine ⟨by omega, ?_⟩
  unfold readTerminated
  split
  · rename_i hnone
    rw [hfind] at hnone
    cases hnone
  · rename_i finish hsome
    simp only [hfind, Option.some.injEq] at hsome
    subst hsome
    simp only [htext, Nat.add_assoc]

theorem spells_readCString {text : String} (h : (0 : UInt8) ∉ ofString text) :
    Spells ((ofString text).push 0) readCString text :=
  (spells_readTerminated ⟨ofString text, h⟩).bind_nothing (spells_decodeText text)

/-! ## 5. Counts and lists -/

/-- A count is accepted where enough bytes follow. -/
theorem reads_readCount {minSize count pos : Nat} (hcount : count < wordSpace)
    (hpart : PartAt data pos (ofU32 (UInt32.ofNat count)))
    (hroom : pos + 4 + count * minSize ≤ data.size) :
    Reads (readCount minSize : Reading Nat) data pos count (pos + 4) := by
  have hread := spells_readU32 (UInt32.ofNat count) hpart
  rw [size_ofU32] at hread
  refine hread.bind ?_
  rw [toNat_ofNat_of_lt_wordSpace hcount]
  refine Reads.bind_get fun h => ?_
  have henough : ¬(Cursor.mk data (pos + 4) h).remaining < count * minSize := by
    simp only [Cursor.remaining]
    omega
  simp only [henough, if_false]
  exact reads_pure count (pos + 4)

/-- A first link that asks for `room` bytes behind what it reads. -/
theorem Spells.bind_room {x : EStateM ε Cursor α} {f : α → EStateM ε Cursor β}
    {first second : Bytes} {room : Nat} {a : α} {b : β}
    (hx : ∀ ⦃data pos⦄, PartAt data pos first → pos + first.size + room ≤ data.size →
      Reads x data pos a (pos + first.size))
    (hroom : room ≤ second.size) (hf : Spells second (f a) b) :
    Spells (first ++ second) (x >>= f) b := by
  intro data pos hpart
  have hle := hpart.le
  obtain ⟨hfirst, hrest⟩ := partAt_append.1 hpart
  rw [Array.size_append] at hle ⊢
  rw [← Nat.add_assoc]
  exact (hx hfirst (by omega)).bind (hf hrest)

/-- **A count with enough bytes behind it, and what is read behind it.** -/
theorem Spells.bind_readCount {minSize count : Nat} {f : Nat → Reading β} {b : β}
    (hcount : count < wordSpace) (hroom : count * minSize ≤ part.size)
    (h : Spells part (f count) b) :
    Spells (ofU32 (UInt32.ofNat count) ++ part) (readCount minSize >>= f) b := by
  refine Spells.bind_room (fun data pos hpart hle => ?_) hroom h
  rw [size_ofU32] at hle ⊢
  exact reads_readCount hcount hpart hle

/-- Pieces one behind the other spell a list of what they spell. -/
theorem spells_readMany {γ : Type} {item : Reading α} {encode : γ → Bytes} {answer : γ → α}
    {things : List γ} (h : ∀ thing ∈ things, Spells (encode thing) item (answer thing)) :
    Spells (join (things.map encode)) (readMany item things.length) (things.map answer) := by
  induction things with
  | nil => exact spells_pure []
  | cons thing things ih =>
    have hrest := ih fun other hmem => h other (List.mem_cons_of_mem thing hmem)
    exact (h thing List.mem_cons_self).bind hrest.bind_pure

/-- **A list is read back when its number fits a word and its pieces are of the size expected.** -/
theorem spells_readList {minSize : Nat} {item : Reading α} {encode : α → Bytes} {items : List α}
    (hcount : items.length < wordSpace) (hleast : ∀ a, minSize ≤ (encode a).size)
    (h : ∀ a ∈ items, Spells (encode a) item a) :
    Spells (ofU32 (UInt32.ofNat items.length) ++ join (items.map encode)) (readList minSize item)
      items := by
  have hroom : items.length * minSize ≤ (join (items.map encode)).size := by
    have : (items.map encode).length * minSize ≤ (join (items.map encode)).size :=
      length_mul_le_size_join (by simp [hleast])
    rwa [List.length_map] at this
  have hmany : Spells (join (items.map encode)) (readMany item items.length) (items.map id) :=
    spells_readMany h
  rw [List.map_id] at hmany
  exact Spells.bind_readCount hcount hroom hmany

theorem spells_readBlob {bytes : Bytes} (h : bytes.size < wordSpace) :
    Spells (ofU32 (UInt32.ofNat bytes.size) ++ bytes) readBlob bytes :=
  Spells.bind_readCount h (by omega) (spells_readBytes bytes)

end CodeVault.Cursor
