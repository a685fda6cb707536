import BlockVolume.Proofs.Volume.Move
import BlockVolume.Proofs.Volume.Run

/-!
# `Proofs.Volume.Append` — bytes that begin a new block

A file is opened, and bytes are written to it that begin a block which it does not have yet. If there is nothing to
write back first, no request is made of the device, and it is known exactly what becomes of the volume, whatever
its entries are like.

## Contents
- `openPath_found`, `seek_open`: a file that is there and that nobody else has open, and its position.
- `grow_fresh`: the first block of all.
- `targetBlock_fresh`, `fillPiece_fresh`, `writePiece_fresh`, **`write_fresh`**: bytes in one new block.
- `write_first`: bytes in the first block of all, with `unsupplied_of_openPath`: no file has a block before.
-/

namespace BlockVolume

open BlockVolume.Action

namespace Volume

variable {δ : Type} [BlockDevice δ] {v : Volume δ} {p : Place} {f : OpenFile} {b : Nat}

/-- A file that is there and that nobody else has open is opened. -/
theorem openPath_found (hm : v.mounted = true) (hfull : v.handles.isFull = false) {path : String} {p : Path}
    {slot : Slot} {mode : Mode} (hp : Path.ofString? path = some p) (hroot : p.isRoot = false)
    (hfind : v.directory.find? p.text = some slot) (hfile : (v.directory.get slot).isFile = true)
    (hconf : v.handles.conflicts slot mode = false) : (openPath path mode).Ensures v fun r w => ∃ hd handles,
      r = .ok hd ∧ v.handles.acquire? (OpenFile.start slot mode) = some (hd, handles) ∧
        w = { v with handles := handles } := by
  unfold openPath
  refine ensures_whenMounted.mpr ⟨fun _ => ?_, fun hno => by cases hno.symm.trans hm⟩
  simp only [hfull, Bool.false_eq_true, if_false, ensures_bind (x := liftM _), ensures_liftM, resolve, hp, hroot,
    hfind]
  show (acquireFile p.text slot mode).Ensures v _
  apply ensures_acquireFile
  · rintro e - (hno | hno | hno)
    · cases hfile.symm.trans hno
    · cases hconf.symm.trans hno
    · cases hfull.symm.trans hno
  · exact fun hd handles _ _ ha => ⟨hd, handles, rfl, ha, rfl⟩

omit [BlockDevice δ] in
/-- The position is moved. -/
theorem seek_open {hd : Handle} (hm : v.mounted = true) (hf : v.handles.file? hd = some f) (offset : Nat) :
    (seek hd offset : VolumeAction δ Nat).Ensures v fun r w =>
      r = .ok (min offset (v.directory.get f.slot).size.toNat) ∧
        w = v.editFile hd.place fun f' => { f' with position := min offset (v.directory.get f.slot).size.toNat } := by
  unfold seek
  refine ensures_whenMounted.mpr ⟨fun _ => ?_, fun hno => by cases hno.symm.trans hm⟩
  simp only [ensures_bind, ensures_liftM, openFile, hf, ensures_modify, ensures_pure]
  exact ⟨trivial, rfl⟩

/-- A new block replaces a clean cache without a request to the device. -/
theorem targetBlock_fresh {whole : Bool} (hp : v.handles.fileAt? p = some f) (hclean : f.cache.pending? = none) :
    (targetBlock p b true whole).Ensures v fun r w =>
      r = .ok () ∧ w = v.editFile p fun f => { f with cache := ⟨some b, false, Block.zero⟩ } := by
  unfold targetBlock
  simp only [ensures_bind, ensures_get, ensures_liftM, fileAt_eq_ok hp, Bool.true_or, if_true]
  rw [ensures_writeBackAt hp, Cache.writeBack_of_none hclean]
  simp only [ensures_bind, ensures_onDevice, ensures_pure, ensures_setCache]
  -- writing a clean cache back sets it to what it is
  have hsame : (v.editFile p fun f' => { f' with cache := f.cache }) = v := editFile_eq_self hp rfl
  show True ∧ ((v.editFile p fun f' => { f' with cache := f.cache }).editFile p _) = _
  rw [hsame]
  exact ⟨trivial, rfl⟩

/-- And the bytes go into the new block. -/
theorem fillPiece_fresh {bytes : List UInt8} (hp : v.handles.fileAt? p = some f) (hclean : f.cache.pending? = none)
    (hb : blockOf (v.directory.get f.slot) (f.position / blockSize) = .ok b)
    (hlt : f.position + bytes.length < UInt32.size) : (fillPiece p f true bytes).Ensures v fun r w =>
      r = .ok () ∧ w = v.afterPut p f b Block.zero bytes := by
  unfold fillPiece
  simp only [ensures_bind, ensures_get, ensures_liftM, hb]
  apply (targetBlock_fresh hp hclean).mono
  rintro r w ⟨rfl, rfl⟩
  have hp' := fileAt?_editFile (g := fun f => { f with cache := ⟨some b, false, Block.zero⟩ }) hp
  simp only [fileAt_eq_ok hp', if_neg (Nat.not_le.mpr hlt), ensures_modify]
  refine ⟨trivial, ?_⟩
  unfold afterPut editFile
  -- the cache is set twice, and only the second time counts
  rw [Pool.modifyFile_modifyFile]
  exact congrArg (fun handles => ({ v with handles := handles, directory := _ } : Volume δ)) (Pool.modifyFile_congr hp rfl)

/-- The first block that is given to a file is the first one past the description. -/
theorem grow_fresh {e : Entry} (he : e.blocks = 0) : Space.fresh.grow e =
    .ok ⟨Space.fresh.take firstDataBlock, { e with firstBlock := UInt32.ofNat firstDataBlock, blocks := 1 },
      firstDataBlock⟩ := by
  have hlowest : Space.fresh.lowestFree? = some firstDataBlock := by decide +kernel
  rw [Space.grow, if_pos he, hlowest]

/-- Its beginning is there. -/
theorem blockOf_first {e : Entry} (he : e.firstBlock = UInt32.ofNat firstDataBlock) :
    blockOf e (0 / blockSize) = .ok firstDataBlock := by
  have hfirst : e.firstBlock.toNat + 0 / blockSize = firstDataBlock := by
    rw [he]
    decide
  have hlt : firstDataBlock < UInt32.size := by decide
  rw [blockOf, hfirst, if_pos hlt]

/-- A piece that begins a block which a file does not have yet is taken without a request to the device. -/
theorem writePiece_fresh {g : Space.Grant} {bytes : List UInt8} (hp : v.handles.fileAt? p = some f)
    (hclean : f.cache.pending? = none) (hlack : (v.directory.get f.slot).blocks.toNat ≤ f.position / blockSize)
    (hg : v.space.grow (v.directory.get f.slot) = .ok g) (hb : blockOf g.entry (f.position / blockSize) = .ok b)
    (hlt : f.position + bytes.length < UInt32.size) : (writePiece p bytes).Ensures v fun r w => r = .ok () ∧
      w = Volume.afterPut { v with space := g.space, directory := v.directory.set f.slot g.entry } p f b
        Block.zero bytes := by
  have hget : (v.directory.set f.slot g.entry).get f.slot = g.entry := by rw [Directory.get_set, if_pos rfl]
  rw [ensures_writePiece hp, if_pos hlack, ensures_bind, ensures_growEntry, hg]
  exact fillPiece_fresh (v := { v with space := g.space, directory := v.directory.set f.slot g.entry }) hp hclean
    (by rw [hget]; exact hb) hlt

/-- **Bytes that begin a block which a file does not have yet are taken without a request to the device.** -/
theorem write_fresh {hd : Handle} {g : Space.Grant} {data : List UInt8} (hm : v.mounted = true)
    (hf : v.handles.file? hd = some f) (hmode : f.mode = .write) (hclean : f.cache.pending? = none)
    (hlack : (v.directory.get f.slot).blocks.toNat ≤ f.position / blockSize)
    (hg : v.space.grow (v.directory.get f.slot) = .ok g) (hb : blockOf g.entry (f.position / blockSize) = .ok b)
    (hne : data ≠ []) (hlen : data.length ≤ roomInBlock f.position)
    (hlt : f.position + data.length < UInt32.size) : (write hd data).Ensures v fun r w => r = .ok data.length ∧
      w = Volume.afterPut { v with space := g.space, directory := v.directory.set f.slot g.entry } hd.place f b
        Block.zero data := by
  rw [ensures_write hm hf hmode, pieces_of_le hne hlen]
  unfold writePieces
  rw [ensures_bind]
  apply (writePiece_fresh (Pool.fileAt?_of_file? hf) hclean hlack hg hb hlt).mono
  rintro r w ⟨rfl, rfl⟩
  exact ⟨rfl, rfl⟩

/-- While no entry has a block, bytes that fit into one find room in the first data block. -/
theorem write_first {hd : Handle} {slot : Slot} {data : List UInt8} (hm : v.mounted = true)
    (hf : v.handles.file? hd = some (OpenFile.start slot .write)) (hspace : v.space = Space.fresh)
    (hblocks : (v.directory.get slot).blocks = 0) (hne : data ≠ []) (hlen : data.length ≤ blockSize) :
    (write hd data).Ensures v fun r w => r = .ok data.length ∧ w = Volume.afterPut
      { v with
        space := Space.fresh.take firstDataBlock
        directory := v.directory.set slot
          { v.directory.get slot with firstBlock := UInt32.ofNat firstDataBlock, blocks := 1 } }
      hd.place (OpenFile.start slot .write) firstDataBlock Block.zero data := by
  have hlack : (v.directory.get slot).blocks.toNat ≤ 0 / blockSize := by
    rw [hblocks]
    exact Nat.le_refl 0
  have hgrow := grow_fresh hblocks
  rw [← hspace] at hgrow
  have hlt : 0 + data.length < UInt32.size := by
    rw [Nat.zero_add]
    exact Nat.lt_of_le_of_lt hlen (by decide)
  apply (write_fresh hm hf rfl rfl hlack hgrow (blockOf_first rfl) hne hlen hlt).mono
  rintro r w ⟨rfl, rfl⟩
  rw [hspace]
  exact ⟨rfl, rfl⟩

/-- The last operation of a run. -/
theorem run_concat (ops : List Operation) (op : Operation) (v : Volume δ) :
    run (ops ++ [op]) v = op.after (run ops v) := by
  rw [run, List.foldl_append]
  rfl

theorem after_write (hd : Handle) (data : List UInt8) (v : Volume δ) :
    (Operation.write hd data).after v = (write hd data v).state := by
  have hself : (write hd data).Ensures v fun _ w => w = (write hd data v).state := rfl
  exact Ensures.yielding hself

/-! ## Before the first block -/

section

variable [LawfulDevice δ] {u : Volume δ} {slot : Slot}

/-- While no block is given or taken back all data blocks are free. -/
theorem unsuppliedInvariant : Invariant (fun s d => s = Space.fresh ∧ ∀ slot, (d.get slot).blocks = 0)
    (fun c => ∀ slot, c ≠ .grow slot ∧ c ≠ .remove slot) where
  fresh := ⟨rfl, fun slot => by simp [Entry.unused]⟩
  migrate {s d} h := by
    refine ⟨h.1, fun slot => ?_⟩
    rw [Directory.get_migrate, (Entry.migrate_fields _).2.2.2]
    exact h.2 slot
  step {δ _ _ c v w} hs _ hc h := by
    cases hs with
    | grow _ _ _ => exact absurd rfl (hc _).1
    | remove _ _ _ _ _ => exact absurd rfl (hc _).2
    | put _ _ _ howns _ _ =>
      rw [Space.owns_eq_false (by rw [h.2]; rfl)] at howns
      cases howns
    | insert _ _ _ _ _ =>
      refine ⟨h.1, fun slot' => ?_⟩
      show (Directory.get (Directory.set _ _ _) slot').blocks = 0
      rw [Directory.get_set]
      split
      · rfl
      · exact h.2 slot'
    | clear => exact ⟨rfl, fun slot => by simp [Entry.unused]⟩
    | _ => exact h

/-- Opening gives no entry a block. -/
theorem unsupplied_of_openPath {u : Volume δ} (h : Begun u) (path : String) (mode : Mode) :
    (run [.openPath path mode] u).space = Space.fresh ∧
      ∀ slot, ((run [.openPath path mode] u).directory.get slot).blocks = 0 := by
  refine (h.run_kept unsuppliedInvariant (fun op hop => ?_) (orderly_of_not_mem (by simp))).2
  obtain rfl := List.mem_singleton.mp hop
  intro _ v c hc slot
  constructor
  · rintro rfl
    cases hp : Path.ofString? path <;> cases mode <;> simp [Operation.acts, Operation.faults, hp, opening] at hc
  · rintro rfl
    cases hp : Path.ofString? path <;> cases mode <;> simp [Operation.acts, Operation.faults, hp, opening] at hc

/-- An entry without blocks has no bytes. -/
theorem contents_eq_nil (h : v.Sound) (hblocks : (v.directory.get slot).blocks = 0) : v.contents slot = [] := by
  have hsize := h.allocated.size_le slot
  rw [hblocks] at hsize
  apply List.eq_nil_of_length_eq_zero
  rw [length_contents]
  exact Nat.le_zero.mp hsize

end

end Volume

end BlockVolume
