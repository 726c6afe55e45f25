import CodeVault.Container.Assembly
import CodeVault.Proofs.Container.Header
import CodeVault.Proofs.Container.ReadBack

/-!
# What is assembled is what was laid out

* `Comes`: what an action on an arena comes to, told by an outcome that knows of no arena. A link
  that ends well leaves no trace in it (`Comes.of_ok`), and one that does not ask for the state is a
  link of both (`Comes.of_outcome`);
* a container takes no more bytes than were asked for (`Layout.finish_le_estimate`), so there is
  room for every part, and every part starts where the layout has it (`comes_writeTable`,
  `comes_writeEntries`);
* **assembling a container in an arena comes to what laying it out comes to** (`assemble_eq`): the
  arena is never exhausted.
-/

namespace CodeVault

open Bytes Arena

variable {ε σ α β γ : Type}

/-! ## 1. Outcomes without a state -/

/-- What an action comes to, seen through what is made of its answer and of the state that it
    leaves. -/
def Comes (result : EStateM.Result ε σ α) (finish : α → σ → γ) (outcome : Except ε γ) : Prop :=
  outcome = match result with
    | .ok a s => .ok (finish a s)
    | .error e _ => .error e

section Comes

variable {finish : β → σ → γ} {s t : σ}

/-- A first link that ends well, and that the outcome does not know of. -/
theorem Comes.of_ok {x : EStateM ε σ α} {f : α → EStateM ε σ β} {a : α} {outcome : Except ε γ}
    (hx : x s = .ok a t) (hf : Comes (f a t) finish outcome) :
    Comes ((x >>= f) s) finish outcome := by
  rwa [bind_of_ok hx]

/-- **A first link that does not ask for the state.** -/
theorem Comes.of_outcome {o : Except ε α} {f : α → EStateM ε σ β} {k : α → Except ε γ}
    (hf : ∀ a, Comes (f a s) finish (k a)) : Comes ((ofOutcome o >>= f) s) finish (o >>= k) := by
  cases o with
  | ok a => exact hf a
  | error e => rfl

end Comes

theorem lift_of_error {x : EStateM ε σ α} {s t : σ} {e : ε} (h : x s = .error e t) :
    (liftM x : EStateM (Fault ε) σ α) s = .error (.error e) t := by
  show liftFault x s = _
  simp only [liftFault, h]

namespace Arena

variable {capacity : Nat} {action : Encoding α} {after : Arena}

theorem inNew_ok {a : α} (h : action (ofCapacity capacity) = .ok a after) :
    inNew capacity action = .ok (a, after.bytes) := by
  rw [inNew, h]

theorem inNew_error {fault : Fault CacheError}
    (h : action (ofCapacity capacity) = .error fault after) :
    inNew capacity action = .error fault := by
  rw [inNew, h]

end Arena

/-! ## 2. Room -/

theorem Layout.size_stringBytes (strings : List CText) :
    (stringBytes strings).size = stringRoom strings := by
  have hfrom : ∀ bytes : Bytes,
      (strings.foldl (fun bytes text => bytes ++ text.terminated) bytes).size =
      strings.foldl (fun size text => size + text.terminated.size) bytes.size := by
    induction strings with
    | nil => exact fun _ => rfl
    | cons text strings ih =>
      intro bytes
      rw [List.foldl_cons, ih, Array.size_append, List.foldl_cons]
  exact hfrom #[]

/-- **A container takes no more bytes than are asked for before it is laid out.** -/
theorem Layout.finish_le_estimate (strings : List CText) (merged : Merged) :
    (ofParts strings merged).finish ≤ estimate strings merged := by
  simp only [ofParts, estimate, size_stringBytes, Header.encodedSize, SearchKey.size,
    Entry.encodedSize, alignUp, dataAlignment]
  omega

/-- Every part of a container ends before the next one starts. -/
theorem Layout.places_le (strings : List CText) (merged : Merged) :
    (ofParts strings merged).preload ≤ (ofParts strings merged).search ∧
      (ofParts strings merged).search ≤ (ofParts strings merged).entries ∧
      (ofParts strings merged).entries ≤ (ofParts strings merged).payload ∧
      (ofParts strings merged).payload ≤ (ofParts strings merged).finish := by
  refine ⟨?_, ?_, ?_, Nat.le_add_right _ _⟩
  · exact Nat.le_trans (Nat.le_add_right _ _) (le_alignUp _)
  · exact Nat.le_trans (Nat.le_add_right _ _) (le_alignUp _)
  · exact Nat.le_trans (Nat.le_add_right _ _) (le_alignUp _)

namespace Container

/-! ## 3. Parts -/

variable {capacity : Nat} {before part : Bytes} {finish : β → Arena → γ}

/-- The place where the arena stands, which the outcome knows by itself. -/
theorem comes_here {f : UInt32 → Writing β} {k : UInt32 → Except CacheError γ} {place : Nat}
    (hplace : before.size = place) (hf : ∀ w, Comes (f w (filled capacity before)) finish (k w)) :
    Comes ((here >>= f) (filled capacity before)) finish (word place >>= k) := by
  subst hplace
  exact Comes.of_outcome (s := filled capacity before) hf

theorem comes_openRegion {f : Region → Writing β} {k : UInt32 → UInt32 → Except CacheError γ}
    {count place : Nat} (hplace : before.size = place)
    (hf : ∀ c w, Comes (f ⟨c, w⟩ (filled capacity before)) finish (k c w)) :
    Comes ((openRegion count >>= f) (filled capacity before)) finish
      (word count >>= fun c => word place >>= k c) := by
  rw [openRegion, bind_assoc]
  refine Comes.of_outcome fun c => ?_
  rw [bind_assoc]
  refine comes_here hplace fun w => ?_
  rw [pure_bind]
  exact hf c w

/-- Padded bytes behind a boundary end at the first boundary behind them. -/
theorem size_append_padded (hbefore : before.size % dataAlignment = 0) (part : Bytes) :
    (before ++ padded part).size = alignUp (before.size + part.size) := by
  rw [Array.size_append, size_padded, alignUp_add hbefore]

/-- **A table for which there is room stands at the end, filled up to a boundary**, where the next
    part is. -/
theorem comes_writeTable {encode : α → Bytes} {things : List α} {f : Unit → Writing β}
    {outcome : Except CacheError γ} {next : Nat} (hbefore : before.size % dataAlignment = 0)
    (hpart : join (things.map encode) = part) (hnext : alignUp (before.size + part.size) = next)
    (hroom : next ≤ capacity)
    (hf : ∀ behind, behind = before ++ padded part → behind.size = next →
      behind.size % dataAlignment = 0 →
      Comes (f () (filled capacity behind)) finish outcome) :
    Comes ((writeTable encode things >>= f) (filled capacity before)) finish outcome := by
  subst hpart hnext
  have hsize := size_append_padded hbefore (join (things.map encode))
  have hpadded : before.size + (padded (join (things.map encode))).size ≤ capacity := by
    rw [← Array.size_append, hsize]
    exact hroom
  have hitem : ∀ thing, Puts (do let _ ← write (encode thing) : Writing Unit) (encode thing) :=
    fun thing => (puts_write _).bind_pure
  obtain ⟨_, hthings⟩ := puts_forM hitem things (Nat.le_trans (le_alignUp _) hroom)
  have htable : writeTable encode things (filled capacity before) =
      .ok () (filled capacity (before ++ padded (join (things.map encode)))) := by
    rw [writeTable, bind_of_ok hthings]
    exact align_filled hbefore hpadded
  exact Comes.of_ok htable (hf _ rfl hsize (by rw [hsize]; exact alignUp_mod _))

/-- **Entries for which there is room stand at the end, placed and counted**, or one of them cannot
    be placed. -/
theorem comes_foldlM_writeEntry {payloadAt : Nat} {entries : List Entry} {counts : KindCounts}
    {f : KindCounts → Writing β} {k : List Entry → Except CacheError γ}
    (hroom : before.size + Entry.encodedSize * entries.length ≤ capacity)
    (hf : ∀ placed, placed.length = entries.length →
      Comes (f (entries.foldl (fun counts entry => counts.record entry.kind) counts)
        (filled capacity (before ++ entryBytes placed))) finish (k placed)) :
    Comes ((entries.foldlM (writeEntry payloadAt) counts >>= f) (filled capacity before)) finish
      (entries.mapM (rebase payloadAt) >>= k) := by
  induction entries generalizing counts before k with
  | nil =>
    have := hf [] rfl
    rwa [entryBytes, List.map_nil, join_nil, Array.append_empty] at this
  | cons entry entries ih =>
    rw [List.length_cons, Nat.mul_succ] at hroom
    simp only [List.foldlM_cons, List.mapM_cons, writeEntry, bind_assoc, pure_bind]
    refine Comes.of_outcome fun first => ?_
    have hfirst : before.size + first.encode.size ≤ capacity := by
      rw [Entry.size_encode]
      omega
    refine Comes.of_ok (write_filled hfirst) (ih ?_ fun placed hlength => ?_)
    · rw [Array.size_append, Entry.size_encode]
      omega
    · have := hf (first :: placed) (by rw [List.length_cons, List.length_cons, hlength])
      rwa [entryBytes, List.map_cons, join_cons, ← Array.append_assoc] at this

/-- **Entries and their bytes stand at the end**: the bytes where the entries, which are written
    before, say. -/
theorem comes_writeEntries {merged : Merged} {f : Region × KindCounts → Writing β}
    {place payloadAt : Nat} {k : UInt32 → UInt32 → List Entry → Except CacheError γ}
    (hplace : before.size = place) (hbefore : before.size % dataAlignment = 0)
    (hpayload : alignUp (place + Entry.encodedSize * merged.entries.size) = payloadAt)
    (hroom : payloadAt + merged.payload.size ≤ capacity)
    (hf : ∀ c w placed behind, behind = before ++ padded (entryBytes placed) ++ merged.payload →
      behind.size = payloadAt + merged.payload.size →
      Comes
        (f (⟨c, w⟩,
            merged.entries.toList.foldl (fun counts entry => counts.record entry.kind) .zero)
          (filled capacity behind)) finish (k c w placed)) :
    Comes ((writeEntries merged >>= f) (filled capacity before)) finish
      (word merged.entries.size >>= fun c => word place >>= fun w =>
        merged.entries.toList.mapM (rebase payloadAt) >>= k c w) := by
  subst hplace hpayload
  have hentries := le_alignUp (before.size + Entry.encodedSize * merged.entries.size)
  simp only [writeEntries, bind_assoc, pure_bind]
  refine Comes.of_ok (x := get) (t := filled capacity before)
    rfl (comes_openRegion rfl fun c w => ?_)
  refine comes_foldlM_writeEntry (by rw [Array.length_toList]; omega) fun placed hplaced => ?_
  have hsize : (entryBytes placed).size = Entry.encodedSize * merged.entries.size := by
    rw [entryBytes, size_join_map Entry.size_encode, hplaced, Array.length_toList]
  have hpadded := size_append_padded hbefore (entryBytes placed)
  rw [hsize] at hpadded
  refine Comes.of_ok (align_filled hbefore ?_)
    (Comes.of_ok (write_filled ?_) (hf c w placed _ rfl ?_))
  · rw [← Array.size_append, hpadded]
    omega
  · rwa [hpadded]
  · rw [Array.size_append, hpadded]

/-! ## 4. The whole -/

/-- Bytes at the front that are written over by as many. -/
theorem overwrite_front {front patch rest : Bytes} (h : patch.size = front.size) :
    (front ++ rest).overwrite 0 patch = patch ++ rest := by
  have hwritten : overwrite (#[] ++ front ++ rest) (#[] : Bytes).size patch =
      #[] ++ patch ++ rest :=
    overwrite_between h
  rwa [Array.empty_append, Array.empty_append] at hwritten

/-- **Writing the parts of a container comes to what laying them out comes to**, if there is
    room. -/
theorem comes_writeParts (strings : List CText) (merged : Merged) (fingerprint : Fingerprint)
    (now : UInt64) (hroom : (Layout.ofParts strings merged).finish ≤ capacity) :
    Comes (writeParts strings merged fingerprint now (filled capacity (zeros Header.encodedSize)))
      (fun header arena => arena.bytes.overwrite 0 header.encode)
        (build strings merged fingerprint now) := by
  obtain ⟨r1, r2, r3, r4⟩ := Layout.places_le strings merged
  have h1 : (zeros Header.encodedSize).size = (Layout.ofParts strings merged).strings :=
    size_zeros _
  have m1 : (zeros Header.encodedSize).size % dataAlignment = 0 := by
    rw [size_zeros]
    decide
  have n1 : alignUp ((zeros Header.encodedSize).size + (Layout.stringBytes strings).size) =
      (Layout.ofParts strings merged).preload := by
    rw [h1]
    rfl
  unfold writeParts build
  refine comes_openRegion h1 fun stringCount stringsAt => ?_
  refine comes_writeTable m1 (Laid.stringBytes_eq strings).symm n1 (by omega)
    fun before2 b2 h2 m2 => ?_
  have n2 : alignUp (before2.size + (preloadBytes merged).size) =
      (Layout.ofParts strings merged).search := by
    rw [h2, preloadBytes, size_join_words, Array.length_toList]
    rfl
  refine comes_openRegion h2 fun preloadCount preloadAt => ?_
  refine comes_writeTable m2 rfl n2 (by omega) fun before3 b3 h3 m3 => ?_
  have n3 : alignUp (before3.size + (searchBytes merged).size) =
      (Layout.ofParts strings merged).entries := by
    rw [h3, searchBytes, size_join_map SearchKey.size_encode]
    rfl
  refine comes_here h3 fun searchAt => ?_
  refine comes_writeTable m3 rfl n3 (by omega) fun before4 b4 h4 m4 => ?_
  refine comes_writeEntries h4 m4 rfl hroom fun entryCount entriesAt placed behind b5 h5 => ?_
  refine comes_here h5 fun size => ?_
  -- The header is as long as the bytes that were kept free for it.
  have hfront : ∀ header : Header, header.encode.size = (zeros Header.encodedSize).size :=
    fun header => by
    rw [Header.size_encode, size_zeros]
  subst b2 b3 b4 b5
  rw [toArray_words]
  simp only [Comes, filled, Array.append_assoc, overwrite_front (hfront _), toArray_flatMap, pure,
    EStateM.pure, Except.pure, entryBytes, Array.foldl_toList]

/-- **A container is assembled as it is laid out**: there is room for everything, and nothing else
    can fail. -/
theorem assemble_eq (strings : List CText) (merged : Merged) (fingerprint : Fingerprint)
    (now : UInt64) :
    assemble strings merged fingerprint now =
      liftError id (build strings merged fingerprint now) := by
  have hroom := Layout.finish_le_estimate strings merged
  have hreserve : (reserve Header.encodedSize : Encoding Nat)
      (ofCapacity (Layout.estimate strings merged)) =
      .ok 0 (filled (Layout.estimate strings merged) (zeros Header.encodedSize)) := by
    have hfront : (#[] : Bytes).size + Header.encodedSize ≤ Layout.estimate strings merged := by
      simp only [Layout.estimate, Array.size_empty]
      omega
    have := reserve_filled hfront (by decide)
    rwa [Array.empty_append] at this
  have hbuild := comes_writeParts strings merged fingerprint now hroom
  cases hparts : writeParts strings merged fingerprint now
      (filled (Layout.estimate strings merged) (zeros Header.encodedSize)) with
  | error cause after =>
    simp only [Comes, hparts] at hbuild
    rw [hbuild]
    have hwhole :=
      (bind_of_ok (f := fun _ => liftM (writeParts strings merged fingerprint now)) hreserve).trans
        (lift_of_error hparts)
    exact except_bind_eq_error.2 (.inl (inNew_error hwhole))
  | ok header after =>
    simp only [Comes, hparts] at hbuild
    rw [hbuild]
    have hwhole :=
      (bind_of_ok (f := fun _ => liftM (writeParts strings merged fingerprint now)) hreserve).trans
        (lift_eq_ok.2 hparts)
    have hfront : inNew Header.encodedSize header.write =
        .ok ((), (filled Header.encodedSize header.encode).bytes) :=
      inNew_ok header.write_ofCapacity
    have hlast : (inNew Header.encodedSize header.write >>= fun written =>
        (pure (after.bytes.overwrite 0 written.2) : Except (Fault CacheError) Bytes)) =
        .ok (after.bytes.overwrite 0 header.encode) := by
      rw [hfront]
      rfl
    exact except_bind_eq_ok.2 ⟨(header, after.bytes), inNew_ok hwhole, hlast⟩

end Container

end CodeVault
