import BlockVolume.Proofs.Volume.Walk

/-!
# `Proofs.Volume.Transfer` — blocks between a cache and the device

A transfer moves a block into the cache of an open file or out of it, gives a file a block, or aims the
cache of a writer at the block that is written next. Each is said here as the steps that it takes and
as what it leaves in the cache.

## Contents
- **`loadBlock_cases`**, **`writeBackAt_cases`**, **`targetBlock_cases`**; **`ensures_growEntry`** and
  **`growEntry_cases`**.
-/

namespace BlockVolume

open BlockVolume.Action Space

/-! ## Caches and the device -/

section

variable {δ : Type} [BlockDevice δ]

theorem Cache.writeBack_of_none {c : Cache} (h : c.pending? = none) :
    c.writeBack = (pure c : Action DeviceError δ Cache) := by
  unfold Cache.writeBack
  rw [h]

/-- A pending block reaches the device and the copy is clean then, or the device has refused it. -/
theorem Cache.writeBack_cases [LawfulDevice δ] {c : Cache} {b : Nat} {d : δ} (h : c.pending? = some b)
    (hb : b < deviceSize d) : c.writeBack.Ensures d fun r d' =>
      (r = .ok { c with dirty := false } ∧ content d' = Function.update (content d) b c.data ∧
        Served d d') ∨ ∃ e, r = .error e ∧ content d' = content d ∧ Refused d d' := by
  unfold Cache.writeBack
  simp only [h, ensures_bind, ensures_reporting, ensures_pure]
  apply (LawfulDevice.write_cases c.data hb).mono
  rintro r d' (⟨rfl, hc, hs⟩ | ⟨e, rfl, hc, hs⟩)
  · exact Or.inl ⟨trivial, hc, hs⟩
  · exact Or.inr ⟨e, rfl, hc, hs⟩

end

namespace Volume

variable {δ : Type} [BlockDevice δ] [LawfulDevice δ] {v w : Volume δ} {p : Place} {f : OpenFile} {b : Nat}

omit [BlockDevice δ] [LawfulDevice δ] in
theorem ensures_setCache {c : Cache} {post : Except Error Unit → Volume δ → Prop} :
    (setCache p c).Ensures v post ↔ post (.ok ()) (v.editFile p fun f => { f with cache := c }) := Iff.rfl

/-- The cache becomes a copy of a block of its file, unless it is one; it may hold nothing unwritten else. -/
theorem loadBlock_cases (h : v.Sound) (hp : v.handles.fileAt? p = some f)
    (hown : owns (v.directory.get f.slot) b = true) (hclean : f.cache.block = some b ∨ f.cache.dirty = false) :
    (loadBlock p b).Ensures v fun r w => Walk [.load] [.fault] v r w ∧
      ∃ cache, w.handles.fileAt? p = some { f with cache := cache } ∧
        ((r = .ok () ∧ cache.block = some b) ∨ IsIo r) := by
  unfold loadBlock
  simp only [ensures_bind, ensures_get, ensures_liftM, fileAt_eq_ok hp]
  by_cases hb : f.cache.block = some b
  · rw [if_pos hb, ensures_pure]
    exact ⟨.refl (not_isIo_ok _), f.cache, hp, Or.inl ⟨rfl, hb⟩⟩
  · -- the cache is emptied first, so that a refused request leaves no block in it
    have hd := hclean.resolve_left hb
    simp only [if_neg hb, ensures_bind, ensures_setCache]
    have hforget : Step .load v
        (v.editFile p fun f' => { f' with cache := { f.cache with block := none } }) := by
      have hsame : (v.editFile p fun f' => { f' with cache := { f.cache with block := none } }) =
          v.editFile p fun f => { f with cache := { f.cache with block := none } } := editFile_congr hp rfl
      rw [hsame]
      exact .forget hp hd
    have hfile := fileAt?_editFile (g := fun f' => { f' with cache := { f.cache with block := none } }) hp
    apply (ensures_onDevice_read (v := v.editFile p _) (h.owned_bounds hown).2).mono
    rintro r w ⟨d, rfl, hc, ⟨rfl, hs⟩ | ⟨e, rfl, hs⟩⟩
    · refine ⟨Walk.after (.step (r := .ok ()) hforget (by simp) (by simp)) ?_, _, (fileAt?_editFile hfile :),
        Or.inl ⟨trivial, rfl⟩⟩
      exact .step (.load hfile hd hown hs hc) (by simp) (by simp)
    · refine ⟨Walk.after (.step (r := .ok ()) hforget (by simp) (by simp)) ?_, _, hfile, Or.inr (isIo_io e)⟩
      exact .fault (.fault hs fun _ _ => congrFun hc _) (by simp) (isIo_io e)

omit [LawfulDevice δ] in
theorem ensures_writeBackAt (hp : v.handles.fileAt? p = some f) {post : Except Error Unit → Volume δ → Prop} :
    (writeBackAt p).Ensures v post ↔ (onDevice f.cache.writeBack >>= setCache p).Ensures v post := by
  unfold writeBackAt setCache
  simp only [ensures_bind, ensures_get, hp]

/-- The cache of an open file is clean afterwards, or the device has refused it and the file is as it was. -/
theorem writeBackAt_cases (h : v.Sound) (hp : v.handles.fileAt? p = some f) :
    (writeBackAt p).Ensures v fun r w => Walk [.writeBack] [.fault] v r w ∧
      ((r = .ok () ∧ w.handles.fileAt? p = some { f with cache := { f.cache with dirty := false } }) ∨
        (IsIo r ∧ w.handles.fileAt? p = some f)) := by
  have hc := h.coherent hp
  rw [ensures_writeBackAt hp]
  simp only [ensures_bind, ensures_onDevice, ensures_setCache]
  -- with nothing to write back the cache is set to what it is
  cases hb : f.cache.pending? with
  | none =>
    have hd := hc.pending?_eq_none.mp hb
    have hself : (v.editFile p fun f' => { f' with cache := f.cache }) = v := editFile_eq_self hp rfl
    rw [Cache.writeBack_of_none hb, ensures_pure]
    show Walk _ _ v _ (v.editFile p fun f' => { f' with cache := f.cache }) ∧ _
    refine ⟨hself.symm ▸ .refl (not_isIo_ok _), Or.inl ⟨trivial, ?_⟩⟩
    rw [← hd]
    exact (fileAt?_editFile hp).trans rfl
  | some b =>
    have hin := (h.owned_bounds (hc.owned_of_pending hb)).2
    apply (Cache.writeBack_cases hb hin).mono
    rintro r d (⟨rfl, hcontent, hs⟩ | ⟨e, rfl, hcontent, hs⟩)
    · refine ⟨?_, Or.inl ⟨trivial, fileAt?_editFile (v := { v with device := d }) hp⟩⟩
      refine .step (c := .writeBack) ?_ (by simp) (not_isIo_ok _)
      have hsame :
          (editFile { v with device := d } p fun f' => { f' with cache := { f.cache with dirty := false } }) =
          editFile { v with device := d } p fun f => { f with cache := { f.cache with dirty := false } } :=
        editFile_congr (v := { v with device := d }) hp rfl
      rw [hsame]
      exact .writeBack hp hb hs hcontent
    · exact ⟨.fault (.fault hs fun _ _ => congrFun hcontent _) (by simp) (isIo_io e), Or.inr ⟨isIo_io e, hp⟩⟩

omit [BlockDevice δ] [LawfulDevice δ] in
/-- A file grows just if the space grants it a block, and nothing else changes. -/
theorem ensures_growEntry {slot : Slot} {post : Except Error Unit → Volume δ → Prop} :
    (growEntry slot : VolumeAction δ Unit).Ensures v post ↔
      match v.space.grow (v.directory.get slot) with
      | .ok g => post (.ok ()) { v with space := g.space, directory := v.directory.set slot g.entry }
      | .error refusal => post (.error refusal.error) v := by
  unfold growEntry
  simp only [ensures_bind, ensures_get]
  cases v.space.grow (v.directory.get slot) with
  | ok g => exact ensures_modify
  | error refusal => simp only [ensures_bind, ensures_emit, ensures_throw]

/-- A file is given one more block at the end of its run, or there is none for it. -/
theorem growEntry_cases (h : v.Sound) (hp : v.handles.fileAt? p = some f) (hm : f.mode = .write) :
    (growEntry f.slot : VolumeAction δ Unit).Ensures v fun r w =>
      (r = .ok () ∧ Step (.grow f.slot) v w ∧ w.handles = v.handles ∧
        ∃ b, Extends (v.directory.get f.slot) (w.directory.get f.slot) b) ∨
      ((r = .error .diskFull ∨ r = .error .fragmented) ∧ w = v) := by
  rw [ensures_growEntry]
  cases hg : v.space.grow (v.directory.get f.slot) with
  | ok g =>
    obtain ⟨-, -, -, -, he⟩ := grow_eq_ok hg
    refine Or.inl ⟨rfl, .grow hp hm hg, rfl, g.block, ?_⟩
    rw [Directory.get_set, if_pos rfl]
    exact he
  | error refusal =>
    have hcap : v.space.total ≤ bitmapCapacity := by
      rw [h.allocated.total_eq]
      exact volumeBlocks_le_bitmapCapacity.2
    refine Or.inr ⟨?_, rfl⟩
    rcases error_of_grow_eq_error hg hcap with he | he
    · exact Or.inl (by rw [he])
    · exact Or.inr (by rw [he])

/-- The cache of a writer is aimed at the block that is written next, where it may be filled with
anything that the bytes to come, or the end of the file, make irrelevant. -/
theorem targetBlock_cases (h : v.Sound) (hp : v.handles.fileAt? p = some f) {fresh : Bool} {count : Nat}
    (hown : owns (v.directory.get f.slot) b = true)
    (hfresh : fresh = true → (v.directory.get f.slot).size.toNat ≤ f.position ∧ f.position % blockSize = 0)
    (hwhole : count = blockSize → f.position % blockSize = 0) :
    (targetBlock p b fresh (count = blockSize)).Ensures v fun r w =>
      (r = .ok () ∧ ∃ u cache cache', Trace (· ∈ [.writeBack, .load]) v u ∧
        u.handles.fileAt? p = some { f with cache := cache } ∧ cache'.block = some b ∧
        Base (v.directory.get f.slot) { f with cache := cache } b count cache'.data ∧
        w = u.editFile p fun f => { f with cache := cache' }) ∨
      (IsIo r ∧ Walk [.writeBack, .load] [.fault] v r w ∧
        ∃ cache, w.handles.fileAt? p = some { f with cache := cache }) := by
  unfold targetBlock
  simp only [ensures_bind, ensures_get, ensures_liftM, fileAt_eq_ok hp]
  -- the cache holds the block already, or it is written back and then filled in one of three ways
  by_cases hcached : (fresh || decide (f.cache.block ≠ some b)) = true
  · rw [if_pos hcached, ensures_bind]
    apply (writeBackAt_cases h hp).mono
    rintro r w ⟨hwalk, ⟨rfl, hfile⟩ | ⟨hio, hfile⟩⟩
    · have htrace : Trace (· ∈ [.writeBack, .load]) v w :=
        (hwalk.trace_of_not_isIo (not_isIo_ok _)).mono fun c hc =>
          List.mem_cons.mpr (Or.inl (List.mem_singleton.mp hc))
      obtain ⟨hdir, -⟩ := htrace.unnoticed h (by simp [Change.isQuiet])
      cases fresh with
      | true =>
        obtain ⟨hsize, hmod⟩ := hfresh rfl
        exact Or.inl ⟨rfl, w, _, _, htrace, hfile, rfl,
          .fresh (f := { f with cache := { f.cache with dirty := false } }) rfl hsize hmod, rfl⟩
      | false =>
        by_cases hc : count = blockSize
        · simp only [Bool.false_eq_true, if_false, decide_eq_true_eq, if_pos hc, ensures_setCache]
          exact Or.inl ⟨trivial, w, _, _, htrace, hfile, rfl,
            .whole (f := { f with cache := { f.cache with dirty := false } }) _ rfl (hwhole hc) hc, rfl⟩
        · simp only [Bool.false_eq_true, if_false, decide_eq_true_eq, if_neg hc]
          have hown' : owns (w.directory.get f.slot) b = true := hdir ▸ hown
          apply (loadBlock_cases (hwalk.sound h) hfile hown' (Or.inr rfl)).mono
          rintro r w' ⟨hwalk', cache, hfile', ⟨rfl, hb⟩ | hio⟩
          · refine Or.inl ⟨rfl, w', cache, cache, htrace.trans ?_, hfile', hb, .cached hb, ?_⟩
            · exact (hwalk'.trace_of_not_isIo (not_isIo_ok _)).mono fun c hc => List.mem_cons_of_mem _ hc
            · exact (editFile_eq_self hfile' rfl).symm
          · have hback : Walk [.writeBack, .load] [.fault] v (.ok () : Except Error Unit) w :=
              hwalk.mono (by simp) (by simp)
            exact Or.inr ⟨hio, hback.after (hwalk'.mono (by simp) (by simp)), cache, hfile'⟩
    · cases r with
      | ok u => exact absurd hio (not_isIo_ok _)
      | error e => exact Or.inr ⟨hio, hwalk.mono (by simp) (by simp), f.cache, hfile⟩
  · rw [if_neg hcached, ensures_pure]
    have hb : f.cache.block = some b := by
      simp only [Bool.or_eq_true, decide_eq_true_eq, not_or, Decidable.not_not] at hcached
      exact hcached.2
    exact Or.inl ⟨rfl, v, f.cache, f.cache, .refl, hp, hb, .cached hb, (editFile_eq_self hp rfl).symm⟩

end Volume

end BlockVolume
