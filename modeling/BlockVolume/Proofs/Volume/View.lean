import BlockVolume.Proofs.Volume.Step

/-!
# `Proofs.Volume.View` — files as their users see them

What a block holds for the users of a volume is the copy in the cache of the writer that has not written
it back yet, and otherwise the block on the device. The contents of a file are the bytes of its run seen
in this way, as many as its entry says.

## Contents
- **`Volume.current`**, **`Volume.contents`** and `splice`, a list with bytes laid over it.
- **`Sees`**: what users see of a block as a relation, for which steps are easier than for `current`.
- **`Step.get_eq`** and **`Step.contents_eq`**: a step that does not concern a file leaves it alone.
- **`contents_put`**: bytes that go into a cache are laid over the contents.
-/

namespace BlockVolume

open Space

/-! ## Bytes laid over a list -/

/-- `data` laid over `old` from `position` on, which lies in `old` or at its end. -/
def splice (old : List UInt8) (position : Nat) (data : List UInt8) : List UInt8 :=
  old.take position ++ data ++ old.drop (position + data.length)

variable {old data : List UInt8} {position : Nat}

theorem length_splice (h : position ≤ old.length) :
    (splice old position data).length = max old.length (position + data.length) := by
  simp only [splice, List.length_append, List.length_take, List.length_drop]
  omega

/-- A splice differs from the list before in the places of the new bytes. -/
theorem getElem?_splice (h : position ≤ old.length) (i : Nat) :
    (splice old position data)[i]? =
      if position ≤ i ∧ i < position + data.length then data[i - position]? else old[i]? := by
  unfold splice
  by_cases hlow : i < position
  · rw [if_neg (by omega), List.append_assoc, List.getElem?_append_left (by simp; omega),
      List.getElem?_take_of_lt hlow]
  · by_cases hhigh : i < position + data.length
    · rw [if_pos ⟨by omega, hhigh⟩, List.getElem?_append_left (by simp; omega),
        List.getElem?_append_right (by simp; omega), List.length_take, Nat.min_eq_left h]
    · rw [if_neg (by omega), List.getElem?_append_right (by simp; omega), List.getElem?_drop]
      congr 1
      simp only [List.length_append, List.length_take, Nat.min_eq_left h]
      omega

@[simp] theorem splice_nil (old : List UInt8) (position : Nat) : splice old position [] = old := by
  simp [splice]

/-- Laying bytes down behind each other is laying them down together. -/
theorem splice_splice (h : position ≤ old.length) (data' : List UInt8) :
    splice (splice old position data) (position + data.length) data' = splice old position (data ++ data') := by
  refine List.ext_getElem? ?_
  intro i
  rw [getElem?_splice (by rw [length_splice h]; omega), getElem?_splice h, getElem?_splice h,
    List.length_append]
  -- a byte is one of the first, one of the others, or as it was
  by_cases hi : position ≤ i ∧ i < position + (data.length + data'.length)
  · rw [if_pos hi]
    by_cases hd : i < position + data.length
    · rw [if_neg (by omega), if_pos ⟨hi.1, hd⟩, List.getElem?_append_left (by omega)]
    · rw [if_pos (by omega), List.getElem?_append_right (by omega)]
      congr 1
      omega
  · rw [if_neg hi, if_neg (by omega), if_neg (by omega)]

/-! ## Blocks and bytes -/

namespace Volume

variable {δ : Type} [BlockDevice δ] [LawfulDevice δ]

/-- Block `b` as the users of the volume see it. -/
def current (v : Volume δ) (b : Nat) : Block :=
  match v.handles.files.find? fun f => f.cache.pending? = some b with
  | some f => f.cache.data
  | none => content v.device b

/-- Byte `i` of the run of the entry in a slot. -/
def byteAt (v : Volume δ) (slot : Slot) (i : Nat) : UInt8 :=
  (v.current ((v.directory.get slot).firstBlock.toNat + i / blockSize)).byte (i % blockSize)

/-- The contents of the file in a slot. -/
def contents (v : Volume δ) (slot : Slot) : List UInt8 :=
  (List.range (v.directory.get slot).size.toNat).map (v.byteAt slot)

variable {v w : Volume δ} {slot : Slot}

@[simp] theorem length_contents (v : Volume δ) (slot : Slot) :
    (v.contents slot).length = (v.directory.get slot).size.toNat := by
  simp [contents]

theorem getElem?_contents (v : Volume δ) (slot : Slot) (i : Nat) :
    (v.contents slot)[i]? =
      if i < (v.directory.get slot).size.toNat then some (v.byteAt slot i) else none := by
  by_cases h : i < (v.directory.get slot).size.toNat
  · simp [contents, h]
  · simp [contents, h]

/-- What the open file at a place has to write to block `b`, if it has that block to write. -/
def pendingAt (v : Volume δ) (p : Place) (b : Nat) : Option Block :=
  (v.handles.fileAt? p).bind fun f => if f.cache.pending? = some b then some f.cache.data else none

omit [BlockDevice δ] [LawfulDevice δ] in
theorem pendingAt_eq_some {p : Place} {b : Nat} {x : Block} : v.pendingAt p b = some x ↔
    ∃ f, v.handles.fileAt? p = some f ∧ f.cache.pending? = some b ∧ f.cache.data = x := by
  simp only [pendingAt, Option.bind_eq_some_iff, Option.ite_none_right_eq_some, Option.some.injEq]

omit [BlockDevice δ] [LawfulDevice δ] in
/-- A file with another block in its cache, or a clean one, has nothing to write to block `b`. -/
theorem pendingAt_eq_none {p : Place} {b : Nat}
    (h : ∀ f, v.handles.fileAt? p = some f → f.cache.pending? ≠ some b) : v.pendingAt p b = none := by
  apply Option.eq_none_iff_forall_ne_some.mpr
  intro x hx
  obtain ⟨f, hf, hb, -⟩ := pendingAt_eq_some.mp hx
  exact h f hf hb

/-- `x` is what users see of block `b`: some open file has it to write to `b`, or none has anything and
the device holds it. -/
def Sees (v : Volume δ) (b : Nat) (x : Block) : Prop :=
  (∃ p, v.pendingAt p b = some x) ∨ ((∀ p, v.pendingAt p b = none) ∧ content v.device b = x)

theorem sees_current (v : Volume δ) (b : Nat) : v.Sees b (v.current b) := by
  unfold current
  split
  · rename_i f hf
    obtain ⟨p, hp⟩ := Pool.mem_files_iff.mp (List.mem_of_find?_eq_some hf)
    exact Or.inl ⟨p, pendingAt_eq_some.mpr ⟨f, hp, by simpa using List.find?_some hf, rfl⟩⟩
  · rename_i hnone
    refine Or.inr ⟨?_, rfl⟩
    intro p
    apply pendingAt_eq_none
    intro f hp
    simpa using List.find?_eq_none.mp hnone f (Pool.mem_files_iff.mpr ⟨p, hp⟩)

/-- In a sound volume at most one file has a block to write. -/
theorem pendingAt_unique (h : v.Sound) {p q : Place} {b : Nat} {x y : Block}
    (hp : v.pendingAt p b = some x) (hq : v.pendingAt q b = some y) : p = q := by
  obtain ⟨f, hf, hb, -⟩ := pendingAt_eq_some.mp hp
  obtain ⟨g, hg, hb', -⟩ := pendingAt_eq_some.mp hq
  exact h.pending_unique hf hg hb ((h.coherent hg).owned_of_pending hb')

/-- What users see of a block is one thing. -/
theorem Sees.eq {b : Nat} {x : Block} (hx : v.Sees b x) (h : v.Sound) : v.current b = x := by
  rcases hx with ⟨p, hp⟩ | ⟨hnone, rfl⟩ <;> rcases v.sees_current b with ⟨q, hq⟩ | ⟨hnone', hc⟩
  · obtain rfl := pendingAt_unique h hp hq
    exact Option.some.inj (hq.symm.trans hp)
  · rw [hnone' p] at hp
    cases hp
  · rw [hnone q] at hq
    cases hq
  · exact hc.symm

/-- What is in a cache is what users see of its block, whether it still has to be written back or not. -/
theorem current_of_cached (h : v.Sound) {p : Place} {f : OpenFile} {b : Nat}
    (hp : v.handles.fileAt? p = some f) (hb : f.cache.block = some b) : v.current b = f.cache.data := by
  have hc := h.coherent hp
  refine Sees.eq ?_ h
  cases hd : f.cache.dirty with
  | true => exact Or.inl ⟨p, pendingAt_eq_some.mpr ⟨f, hp, Cache.pending?_eq_some.mpr ⟨hd, hb⟩, rfl⟩⟩
  | false =>
    -- somebody else who has the block to write would have the file to himself
    refine Or.inr ⟨?_, (hc.clean hb hd).symm⟩
    intro q
    apply pendingAt_eq_none
    intro g hg hpend
    obtain rfl := h.pending_unique hg hp hpend (hc.owned hb)
    obtain rfl := Option.some.inj (hp.symm.trans hg)
    cases hd.symm.trans (Cache.pending?_eq_some.mp hpend).1

/-- Where no open file gains or loses anything to write and the device keeps the block, users see what
they saw. -/
theorem Sees.congr {b : Nat} {x : Block} (hx : v.Sees b x)
    (hpending : ∀ p, w.pendingAt p b = v.pendingAt p b) (hcontent : content w.device b = content v.device b) :
    w.Sees b x := by
  rcases hx with ⟨p, hp⟩ | ⟨hnone, hd⟩
  · exact Or.inl ⟨p, (hpending p).trans hp⟩
  · exact Or.inr ⟨fun p => (hpending p).trans (hnone p), hcontent.trans hd⟩

/-- The contents are decided by the size, the run, and what is seen of the blocks in it. -/
theorem contents_congr (h : v.Sound) (hsize : (w.directory.get slot).size = (v.directory.get slot).size)
    (hfirst : (v.directory.get slot).blocks.toNat ≠ 0 →
      (w.directory.get slot).firstBlock.toNat = (v.directory.get slot).firstBlock.toNat)
    (hcurrent : ∀ b, owns (v.directory.get slot) b = true → w.current b = v.current b) :
    w.contents slot = v.contents slot := by
  unfold contents
  rw [hsize]
  apply List.map_congr_left
  intro i hi
  have hi' := List.mem_range.mp hi
  have hle : (v.directory.get slot).size.toNat ≤ 512 * (v.directory.get slot).blocks.toNat :=
    h.allocated.size_le slot
  have hdiv : i / blockSize < (v.directory.get slot).blocks.toNat := by
    show i / 512 < _
    omega
  unfold byteAt
  rw [hfirst (by omega), hcurrent]
  exact owns_iff.mpr ⟨Nat.le_add_right _ _, by omega⟩

/-! ### The same blocks on another device -/

/-- A volume is as sound on a device that is like its own. -/
theorem Sound.alike (h : v.Sound) {d : δ} (hd : Alike v.device d) : Sound { v with device := d } :=
  h.of_device hd.info fun b _ => congrFun hd.content b

theorem current_alike {d : δ} (hd : Alike v.device d) (b : Nat) :
    current { v with device := d } b = v.current b := by
  unfold current
  rw [hd.content]

/-- And its files have the same contents there. -/
theorem contents_alike {d : δ} (hd : Alike v.device d) (slot : Slot) :
    contents { v with device := d } slot = v.contents slot := by
  unfold contents byteAt
  simp only [current_alike hd]

end Volume

/-! ## What a step changes -/

namespace Change

/-- Whether a change of this kind may change the contents of the file in a slot. -/
def alters (slot : Slot) : Change → Bool
  | put s => s = slot
  | remove s => s = slot
  | discard s => s = slot
  | clear => true
  | _ => false

/-- Whether a change of this kind may change the contents or the entry of the file in a slot. -/
def touches (slot : Slot) : Change → Bool
  | grow s => s = slot
  | c => c.alters slot

theorem alters_of_touches {slot : Slot} {c : Change} (h : c.touches slot = false) :
    c.alters slot = false := by
  cases c <;> first | exact h | rfl

end Change

namespace Volume

variable {δ : Type} [BlockDevice δ] [LawfulDevice δ] {v w : Volume δ} {slot : Slot} {c : Change}

omit [BlockDevice δ] [LawfulDevice δ] in
theorem pendingAt_editFile {p q : Place} {b : Nat} {f : OpenFile} {g : OpenFile → OpenFile} {d : δ}
    (hp : v.handles.fileAt? p = some f) : (editFile { v with device := d } p g).pendingAt q b =
      if q = p then (if (g f).cache.pending? = some b then some (g f).cache.data else none)
      else v.pendingAt q b := by
  unfold pendingAt editFile
  rw [Pool.fileAt?_modifyFile]
  by_cases hq : q = p
  · subst hq
    simp [hp]
  · simp [hq]

omit [BlockDevice δ] [LawfulDevice δ] in
theorem pendingAt_of_clean {p : Place} {f : OpenFile} (hp : v.handles.fileAt? p = some f)
    (hc : f.cache.dirty = false) (b : Nat) : v.pendingAt p b = none := by
  apply pendingAt_eq_none
  intro f' hf'
  obtain rfl := Option.some.inj (hp.symm.trans hf')
  simp [Cache.pending?, hc]

/-- The file at a place has nothing to write to the blocks of other files. -/
theorem pendingAt_of_other (h : v.Sound) {p : Place} {f : OpenFile} {b : Nat}
    (hp : v.handles.fileAt? p = some f) (hs : f.slot ≠ slot) (hb : owns (v.directory.get slot) b = true) :
    v.pendingAt p b = none := by
  apply pendingAt_eq_none
  intro f' hf' hpend
  obtain rfl := Option.some.inj (hp.symm.trans hf')
  exact hs (h.allocated.run_disjoint ((h.coherent hp).owned_of_pending hpend) hb)

/-- The file at one place is changed, and what it has to write to block `b` is not. -/
theorem Sees.of_edit {p : Place} {f : OpenFile} {g : OpenFile → OpenFile} {d : δ} {b : Nat} {x : Block}
    (hx : v.Sees b x) (hp : v.handles.fileAt? p = some f)
    (hkeep : (if (g f).cache.pending? = some b then some (g f).cache.data else none) = v.pendingAt p b)
    (hd : content d b = content v.device b) : (editFile { v with device := d } p g).Sees b x := by
  refine hx.congr ?_ hd
  intro q
  rw [pendingAt_editFile hp]
  by_cases hq : q = p
  · rw [if_pos hq, hkeep, hq]
  · rw [if_neg hq]

/-- A place is taken or emptied, and neither before nor after there is anything to write to block `b`. -/
theorem Sees.of_setPlace {p : Place} {s : PoolPlace} {b : Nat} {x : Block} (hx : v.Sees b x)
    (hbefore : v.pendingAt p b = none) (hafter : ∀ f, s.file = some f → f.cache.pending? ≠ some b) :
    Sees { v with handles := v.handles.setPlace p s } b x := by
  refine hx.congr ?_ rfl
  intro q
  by_cases hq : q = p
  · subst hq
    rw [hbefore]
    apply pendingAt_eq_none
    intro f hf
    rw [Pool.fileAt?_setPlace, if_pos rfl] at hf
    exact hafter f hf
  · unfold pendingAt
    rw [Pool.fileAt?_setPlace, if_neg hq]

/-- What was pending is on the device now. -/
theorem Sees.of_writeBack (h : v.Sound) {p : Place} {f : OpenFile} {b b' : Nat} {d : δ} {x : Block}
    (hx : v.Sees b x) (hp : v.handles.fileAt? p = some f) (hpend : f.cache.pending? = some b')
    (hd : content d = Function.update (content v.device) b' f.cache.data) :
    (editFile { v with device := d } p fun f => { f with cache := { f.cache with dirty := false } }).Sees
      b x := by
  by_cases hbb : b = b'
  · -- nobody but this file has anything to write to the block
    subst hbb
    have hat : v.pendingAt p b = some f.cache.data := pendingAt_eq_some.mpr ⟨f, hp, hpend, rfl⟩
    have hxf : x = f.cache.data := (hx.eq h).symm.trans (Sees.eq (Or.inl ⟨p, hat⟩) h)
    right
    constructor
    · intro q
      rw [pendingAt_editFile hp]
      by_cases hq : q = p
      · rw [if_pos hq]
        simp [Cache.pending?]
      · rw [if_neg hq]
        apply Option.eq_none_iff_forall_ne_some.mpr
        intro y hy
        exact hq (pendingAt_unique h hy hat)
    · show content d b = x
      rw [hd, Function.update_self, hxf]
  · have hnone : v.pendingAt p b = none := by
      apply pendingAt_eq_none
      intro f' hf' hf'b
      obtain rfl := Option.some.inj (hp.symm.trans hf')
      exact hbb (Option.some.inj (hf'b.symm.trans hpend))
    refine hx.of_edit hp ?_ ?_
    · rw [hnone]
      simp [Cache.pending?]
    · rw [hd, Function.update_of_ne hbb]

/-- A step leaves what users see of the blocks of a file that it does not alter. -/
theorem Step.sees (hs : Step c v w) (h : v.Sound) (hc : c.alters slot = false) {b : Nat}
    (hb : owns (v.directory.get slot) b = true) {x : Block} (hx : v.Sees b x) : w.Sees b x := by
  have hdata := (h.owned_bounds hb).1
  -- a step that changes one open file either leaves its cache clean, or is to another file
  cases hs with
  | store _ _ hd => exact hx.congr (fun _ => rfl) (hd b hdata)
  | fault _ hd => exact hx.congr (fun _ => rfl) (hd b hdata)
  | writeBack hp hpend _ hd => exact hx.of_writeBack h hp hpend hd
  | forget hp hclean =>
    refine hx.of_edit (d := v.device) hp ?_ rfl
    rw [pendingAt_of_clean hp hclean]
    simp [Cache.pending?, hclean]
  | load hp hclean _ _ hd =>
    refine hx.of_edit hp ?_ (congrFun hd b)
    rw [pendingAt_of_clean hp hclean]
    simp [Cache.pending?]
  | place hp _ =>
    refine hx.of_edit (d := v.device) hp ?_ rfl
    rw [pendingAt, hp]
    rfl
  | @put _ p f b' base bytes hp _ _ hown _ _ =>
    have hslot : f.slot ≠ slot := by simpa [Change.alters] using hc
    have hne : some b' ≠ some b := fun he =>
      hslot (h.allocated.run_disjoint hown ((Option.some.inj he) ▸ hb))
    have hedit : (editFile { v with device := v.device } p fun f => putFile f b' base bytes).Sees b x := by
      refine hx.of_edit hp ?_ rfl
      rw [pendingAt_of_other h hp hslot hb]
      exact if_neg hne
    exact hedit.congr (fun _ => rfl) rfl
  | acquire _ _ _ ha =>
    obtain ⟨hnone, -, rfl⟩ := Pool.acquire?_eq_some ha
    apply hx.of_setPlace (by rw [pendingAt, hnone]; rfl)
    intro f hf
    obtain rfl := Option.some.inj hf
    simp [OpenFile.start, Cache.empty, Cache.pending?]
  | release hr hclean =>
    obtain ⟨hf, rfl⟩ := Pool.release?_eq_some hr
    exact hx.of_setPlace (pendingAt_of_clean (Pool.fileAt?_of_file? hf) hclean b) fun _ hnone => by cases hnone
  | @discard _ _ f _ hr =>
    have hslot : f.slot ≠ slot := by simpa [Change.alters] using hc
    obtain ⟨hf, rfl⟩ := Pool.release?_eq_some hr
    have hnone := pendingAt_of_other h (Pool.fileAt?_of_file? hf) hslot hb
    exact hx.of_setPlace hnone fun _ hf' => by cases hf'
  | leave hclean =>
    refine hx.congr ?_ rfl
    intro q
    have hnone : v.pendingAt q b = none := by
      apply pendingAt_eq_none
      intro f hf
      simp [Cache.pending?, hclean q f hf]
    rw [hnone]
    simp [pendingAt]
  | clear => cases hc
  | _ => exact hx.congr (fun _ => rfl) rfl

theorem Step.current_eq (hs : Step c v w) (h : v.Sound) (hc : c.alters slot = false) {b : Nat}
    (hb : owns (v.directory.get slot) b = true) : w.current b = v.current b :=
  (hs.sees h hc hb (v.sees_current b)).eq (hs.sound h)

/-- **A step that does not touch a file leaves its entry.** -/
theorem Step.get_eq (hs : Step c v w) (hc : c.touches slot = false)
    (hused : (v.directory.get slot).isEmpty = false) : w.directory.get slot = v.directory.get slot := by
  cases hs with
  | @grow _ _ f _ _ _ _ =>
    have hne : f.slot ≠ slot := by simpa [Change.touches] using hc
    exact (Directory.get_set _ _ _ _).trans (if_neg (Ne.symm hne))
  | @put _ _ f _ _ _ _ _ _ _ _ _ =>
    have hne : f.slot ≠ slot := by simpa [Change.touches, Change.alters] using hc
    exact (Directory.get_set _ _ _ _).trans (if_neg (Ne.symm hne))
  | @insert _ _ _ slot' _ _ _ _ hfree =>
    have hne : slot ≠ slot' := by
      intro he
      rw [he, Directory.isEmpty_of_freeSlot? hfree] at hused
      cases hused
    exact (Directory.get_set _ _ _ _).trans (if_neg hne)
  | @remove _ _ slot' _ _ _ _ _ _ =>
    have hne : slot' ≠ slot := by simpa [Change.touches, Change.alters] using hc
    exact (Directory.get_set _ _ _ _).trans (if_neg (Ne.symm hne))
  | clear => cases hc
  | _ => rfl

/-- A step that does not alter a file leaves its size, and the beginning of its run. -/
theorem Step.run_eq (hs : Step c v w) (h : v.Sound) (hc : c.alters slot = false) :
    (w.directory.get slot).size = (v.directory.get slot).size ∧
      ((v.directory.get slot).blocks.toNat ≠ 0 →
        (w.directory.get slot).firstBlock.toNat = (v.directory.get slot).firstBlock.toNat) := by
  cases hs with
  | @grow _ _ f g _ _ hg =>
    obtain ⟨-, -, -, -, he⟩ := grow_eq_ok hg
    show ((v.directory.set f.slot g.entry).get slot).size = _ ∧ (_ →
      ((v.directory.set f.slot g.entry).get slot).firstBlock.toNat = _)
    rw [Directory.get_set]
    by_cases hslot : slot = f.slot
    · rw [if_pos hslot, hslot]
      exact ⟨he.size, he.first⟩
    · rw [if_neg hslot]
      exact ⟨rfl, fun _ => rfl⟩
  | @put _ _ f b _ bytes _ _ _ _ _ _ =>
    have hne : f.slot ≠ slot := by simpa [Change.alters] using hc
    have hget : (v.directory.set f.slot (putEntry (v.directory.get f.slot) (f.position + bytes.length))).get
        slot = v.directory.get slot := (Directory.get_set _ _ _ _).trans (if_neg (Ne.symm hne))
    exact ⟨congrArg Entry.size hget, fun _ => congrArg (fun e => e.firstBlock.toNat) hget⟩
  | @insert _ path kind slot' _ _ _ _ hfree =>
    show ((v.directory.set slot' (Entry.ofName path.text kind)).get slot).size = _ ∧ (_ →
      ((v.directory.set slot' (Entry.ofName path.text kind)).get slot).firstBlock.toNat = _)
    rw [Directory.get_set]
    by_cases hslot : slot = slot'
    · -- an unused slot has neither bytes nor blocks
      subst hslot
      have hk : (v.directory.get slot).kind = .empty := by
        simpa [Entry.isEmpty] using Directory.isEmpty_of_freeSlot? hfree
      have hblocks := h.allocated.blocks_of_not_file slot (by rw [hk]; decide)
      have hsize := h.allocated.size_le slot
      rw [hblocks, Nat.mul_zero] at hsize
      rw [if_pos rfl]
      exact ⟨UInt32.toNat_inj.mp (Nat.le_zero.mp hsize).symm, fun hne => absurd hblocks hne⟩
    · rw [if_neg hslot]
      exact ⟨rfl, fun _ => rfl⟩
  | @remove _ _ slot' _ _ _ _ _ _ =>
    have hne : slot' ≠ slot := by simpa [Change.alters] using hc
    have hget : (v.directory.set slot' Entry.unused).get slot = v.directory.get slot :=
      (Directory.get_set _ _ _ _).trans (if_neg (Ne.symm hne))
    exact ⟨congrArg Entry.size hget, fun _ => congrArg (fun e => e.firstBlock.toNat) hget⟩
  | clear => cases hc
  | _ => exact ⟨rfl, fun _ => rfl⟩

/-- **A step that does not alter a file leaves its contents.** -/
theorem Step.contents_eq (hs : Step c v w) (h : v.Sound) (hc : c.alters slot = false) :
    w.contents slot = v.contents slot := by
  obtain ⟨hsize, hfirst⟩ := hs.run_eq h hc
  exact contents_congr h hsize hfirst fun b hb => hs.current_eq h hc hb

/-- Steps that do not alter a file leave its contents. -/
theorem Trace.contents_eq {allowed : Change → Prop} (ht : Trace allowed v w) (h : v.Sound)
    (hc : ∀ c, allowed c → c.alters slot = false) : w.contents slot = v.contents slot := by
  induction ht with
  | refl => rfl
  | tail ht hs hallowed ih => rw [hs.contents_eq (ht.sound h) (hc _ hallowed), ih]

/-- Steps that do not touch a file leave its entry. -/
theorem Trace.get_eq {allowed : Change → Prop} (ht : Trace allowed v w)
    (hc : ∀ c, allowed c → c.touches slot = false) (hused : (v.directory.get slot).isEmpty = false) :
    w.directory.get slot = v.directory.get slot := by
  induction ht with
  | refl => rfl
  | tail _ hs hallowed ih => rw [hs.get_eq (hc _ hallowed) (ih ▸ hused), ih]

/-- Steps that do not touch a file leave what users see of its blocks. -/
theorem Trace.current_eq {allowed : Change → Prop} (ht : Trace allowed v w) (h : v.Sound)
    (hc : ∀ c, allowed c → c.touches slot = false) (hused : (v.directory.get slot).isEmpty = false) {b : Nat}
    (hb : owns (v.directory.get slot) b = true) : w.current b = v.current b := by
  induction ht with
  | refl => rfl
  | @tail x _ _ ht hs hallowed ih =>
    have hb' : owns (x.directory.get slot) b = true := by rw [ht.get_eq hc hused, hb]
    rw [hs.current_eq (ht.sound h) (Change.alters_of_touches (hc _ hallowed)) hb', ih]

/-! ## Bytes that go into a cache -/

section Put

variable {p : Place} {f : OpenFile} {b : Nat} {base : Block} {bytes : List UInt8}

/-- What the cache held before agrees with the block in the bytes that the file keeps there. -/
theorem Base.byte_eq (h : v.Sound) (hp : v.handles.fileAt? p = some f)
    (hbase : Base (v.directory.get f.slot) f b bytes.length base) {i : Nat}
    (hi : i < (v.directory.get f.slot).size.toNat) (hblock : i / blockSize = f.position / blockSize)
    (hout : ¬(f.position ≤ i ∧ i < f.position + bytes.length)) :
    base.byte (i % blockSize) = (v.current b).byte (i % blockSize) := by
  have hblock' : i / 512 = f.position / 512 := hblock
  cases hbase with
  | cached hb => rw [current_of_cached h hp hb]
  -- in the other cases the file keeps no byte of the block outside the bytes to come
  | fresh _ hle hmod =>
    have hmod' : f.position % 512 = 0 := hmod
    omega
  | whole _ _ hmod hlen =>
    have hmod' : f.position % 512 = 0 := hmod
    have hlen' : bytes.length = 512 := hlen
    omega

/-- The volume after bytes went at the position of the open file `f` at a place into block `b`. -/
def afterPut (v : Volume δ) (p : Place) (f : OpenFile) (b : Nat) (base : Block) (bytes : List UInt8) :
    Volume δ :=
  { v.editFile p fun f => putFile f b base bytes with
    directory := v.directory.set f.slot (putEntry (v.directory.get f.slot) (f.position + bytes.length)) }

omit [BlockDevice δ] [LawfulDevice δ] in
theorem get_afterPut : (v.afterPut p f b base bytes).directory.get f.slot =
    putEntry (v.directory.get f.slot) (f.position + bytes.length) :=
  (Directory.get_set _ _ _ _).trans (if_pos rfl)

omit [BlockDevice δ] [LawfulDevice δ] in
/-- The handle that bytes were written through stays open. -/
theorem file?_afterPut {hd : Handle} {f' : OpenFile} (hf : v.handles.file? hd = some f') :
    (v.afterPut hd.place f b base bytes).handles.file? hd = some (putFile f' b base bytes) := by
  unfold afterPut editFile
  rw [Pool.file?_modifyFile, if_pos rfl, hf, Option.map_some]

omit [BlockDevice δ] [LawfulDevice δ] in
/-- The file has the block to write now, and no other. -/
theorem pendingAt_afterPut (hp : v.handles.fileAt? p = some f) (q : Place) (b' : Nat) :
    (v.afterPut p f b base bytes).pendingAt q b' =
      if q = p then (if some b = some b' then some (base.overlay (f.position % blockSize) bytes) else none)
      else v.pendingAt q b' :=
  pendingAt_editFile (v := v) (g := fun f => putFile f b base bytes) (d := v.device) hp

/-- Users see the block as it is in the cache now. -/
theorem current_afterPut (hw : (v.afterPut p f b base bytes).Sound) (hp : v.handles.fileAt? p = some f) :
    (v.afterPut p f b base bytes).current b = base.overlay (f.position % blockSize) bytes := by
  refine Sees.eq (Or.inl ⟨p, ?_⟩) hw
  rw [pendingAt_afterPut hp, if_pos rfl, if_pos rfl]

/-- Users see every other block as before, since the cache had none of them to write back. -/
theorem current_afterPut_of_ne (hw : (v.afterPut p f b base bytes).Sound) (hp : v.handles.fileAt? p = some f)
    (hbase : Base (v.directory.get f.slot) f b bytes.length base) {b' : Nat} (hne : b' ≠ b) :
    (v.afterPut p f b base bytes).current b' = v.current b' := by
  have hnone : v.pendingAt p b' = none := by
    apply pendingAt_eq_none
    intro f' hf' hpend
    obtain rfl := Option.some.inj (hp.symm.trans hf')
    obtain ⟨hd, hblock⟩ := Cache.pending?_eq_some.mp hpend
    cases hbase with
    | cached hb => exact hne (Option.some.inj (hblock.symm.trans hb))
    | fresh hclean _ _ => cases hclean.symm.trans hd
    | whole _ hclean _ _ => cases hclean.symm.trans hd
  refine Sees.eq ((v.sees_current b').congr ?_ rfl) hw
  intro q
  rw [pendingAt_afterPut hp]
  by_cases hq : q = p
  · rw [if_pos hq, if_neg fun he => hne (Option.some.inj he).symm, hq, hnone]
  · rw [if_neg hq]

/-- Within the bytes that were put the run holds them. -/
theorem byteAt_afterPut (hw : (v.afterPut p f b base bytes).Sound) (hp : v.handles.fileAt? p = some f)
    (hb : b = (v.directory.get f.slot).firstBlock.toNat + f.position / blockSize)
    (hfit : f.position % blockSize + bytes.length ≤ blockSize) {i : Nat} (hlow : f.position ≤ i)
    (hhigh : i < f.position + bytes.length) :
    some ((v.afterPut p f b base bytes).byteAt f.slot i) = bytes[i - f.position]? := by
  have hfit' : f.position % 512 + bytes.length ≤ 512 := hfit
  have hblock : i / blockSize = f.position / blockSize := by
    show i / 512 = f.position / 512
    omega
  have hoff : f.position % blockSize ≤ i % blockSize ∧
      i % blockSize < f.position % blockSize + bytes.length ∧
      i % blockSize - f.position % blockSize = i - f.position := by
    show f.position % 512 ≤ i % 512 ∧ i % 512 < f.position % 512 + bytes.length ∧
      i % 512 - f.position % 512 = i - f.position
    omega
  have hlt : i - f.position < bytes.length := by omega
  rw [byteAt, get_afterPut]
  show some (((v.afterPut p f b base bytes).current
    ((v.directory.get f.slot).firstBlock.toNat + i / blockSize)).byte (i % blockSize)) = _
  rw [hblock, ← hb, current_afterPut hw hp, Block.byte_overlay _ _ _ (Nat.mod_lt _ (by decide)),
    if_pos ⟨hoff.1, hoff.2.1⟩, hoff.2.2]
  simp [hlt]

/-- Outside of them the run holds what the file held there before. -/
theorem byteAt_afterPut_of_not (h : v.Sound) (hw : (v.afterPut p f b base bytes).Sound)
    (hp : v.handles.fileAt? p = some f)
    (hb : b = (v.directory.get f.slot).firstBlock.toNat + f.position / blockSize)
    (hfit : f.position % blockSize + bytes.length ≤ blockSize)
    (hbase : Base (v.directory.get f.slot) f b bytes.length base) {i : Nat}
    (hi : i < (v.directory.get f.slot).size.toNat) (hout : ¬(f.position ≤ i ∧ i < f.position + bytes.length)) :
    (v.afterPut p f b base bytes).byteAt f.slot i = v.byteAt f.slot i := by
  rw [byteAt, byteAt, get_afterPut]
  show ((v.afterPut p f b base bytes).current
    ((v.directory.get f.slot).firstBlock.toNat + i / blockSize)).byte (i % blockSize) = _
  by_cases hblock : i / blockSize = f.position / blockSize
  · have hoff : ¬(f.position % blockSize ≤ i % blockSize ∧
        i % blockSize < f.position % blockSize + bytes.length) := by
      have hfit' : f.position % 512 + bytes.length ≤ 512 := hfit
      have hblock' : i / 512 = f.position / 512 := hblock
      show ¬(f.position % 512 ≤ i % 512 ∧ i % 512 < f.position % 512 + bytes.length)
      omega
    have hbyte := hbase.byte_eq h hp hi hblock hout
    rw [hblock, ← hb, current_afterPut hw hp, Block.byte_overlay _ _ _ (Nat.mod_lt _ (by decide)),
      if_neg hoff, hbyte]
  · rw [current_afterPut_of_ne hw hp hbase fun he => hblock (by omega)]

/-- **Bytes that go into the cache of a writer are laid over the contents of its file.** -/
theorem contents_put (h : v.Sound) (hp : v.handles.fileAt? p = some f) (hm : f.mode = .write)
    (hb : b = (v.directory.get f.slot).firstBlock.toNat + f.position / blockSize)
    (hown : owns (v.directory.get f.slot) b = true)
    (hfit : f.position % blockSize + bytes.length ≤ blockSize)
    (hbase : Base (v.directory.get f.slot) f b bytes.length base) :
    (v.afterPut p f b base bytes).contents f.slot = splice (v.contents f.slot) f.position bytes := by
  have hw : (v.afterPut p f b base bytes).Sound := (Step.put hp hm hb hown hfit hbase).sound h
  have hpos := (h.coherent hp).position_le
  have hend := Sound.end_le_run (hb ▸ hown) hfit
  have hsize := toNat_putEntry_size (e := v.directory.get f.slot)
    (Nat.lt_of_le_of_lt hend (h.run_size_lt f.slot))
  apply List.ext_getElem?
  intro i
  rw [getElem?_splice (by rw [length_contents]; exact hpos), getElem?_contents,
    getElem?_contents, get_afterPut, hsize]
  by_cases hin : f.position ≤ i ∧ i < f.position + bytes.length
  · rw [if_pos hin, if_pos (by omega), byteAt_afterPut hw hp hb hfit hin.1 hin.2]
  · rw [if_neg hin]
    by_cases hi : i < (v.directory.get f.slot).size.toNat
    · rw [if_pos (by omega), if_pos hi, byteAt_afterPut_of_not h hw hp hb hfit hbase hi hin]
    · rw [if_neg hi, if_neg (by omega)]

end Put

end Volume

end BlockVolume
