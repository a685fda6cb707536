import BlockVolume.Device.MemoryDisk
import BlockVolume.Proofs.Volume.Append

/-!
# `Proofs.Volume.ByteArray` — files are byte arrays

Through its handles a file is an array of bytes with a position: writing lays bytes over it there, as
many as find room, reading copies bytes out of it, seeking moves the position, and nothing else changes
a byte. Blocks, caches and the order in which they are written do not show.

## Contents
- **`Overlaid`**: what writing leaves, with `write_overlays`, `read_copies`, `seek_moves` and
  `contents_eq_of_handles`.
- **`Reached.byteArray`**, with the first bytes of a volume, of which `Begun.write_first` tells what becomes.
-/

namespace BlockVolume.Volume

open BlockVolume.Action

variable {δ : Type} [BlockDevice δ] [LawfulDevice δ] {v w : Volume δ} {hd : Handle} {f : OpenFile}

/-- `bytes` were laid over the contents of the file of a handle at its position, the file is as long as
that makes it, and the position is past them. -/
structure Overlaid (v w : Volume δ) (hd : Handle) (f : OpenFile) (bytes : List UInt8) : Prop where
  contents : w.contents f.slot = splice (v.contents f.slot) f.position bytes
  size : (w.directory.get f.slot).size.toNat =
    max (v.directory.get f.slot).size.toNat (f.position + bytes.length)
  file : ∃ cache, w.handles.file? hd =
    some { f with position := f.position + bytes.length, cache := cache }

omit [BlockDevice δ] [LawfulDevice δ] in
/-- A handle tells the position of its file. -/
theorem tell_of_file? (hf : v.handles.file? hd = some f) : v.tell hd = .ok f.position := by
  rw [tell, openFile, hf]
  rfl

/-- The position is past the bytes that were laid over the contents. -/
theorem Overlaid.tell {bytes : List UInt8} (h : Overlaid v w hd f bytes) :
    w.tell hd = .ok (f.position + bytes.length) := by
  obtain ⟨cache, hf⟩ := h.file
  exact tell_of_file? hf

/-- An open handle says that the volume is mounted. -/
theorem Sound.mounted_of_file? (h : v.Sound) (hf : v.handles.file? hd = some f) : v.mounted = true :=
  h.guarded.mounted_of_file? hf

/-- A walk of steps that neither open nor close a handle leaves the handle open. -/
theorem Walk.file?_eq {α : Type} {acts faults : List Change} {r : Except Error α} {g : OpenFile}
    (hwalk : Walk acts faults v r w) (hacts : ∀ c ∈ acts, c.opensOrCloses = false)
    (hfaults : ∀ c ∈ faults, c.opensOrCloses = false) (hf : v.handles.file? hd = some f)
    (hp : w.handles.fileAt? hd.place = some g) : w.handles.file? hd = some g := by
  refine Pool.file?_of_fileAt? ?_ hp
  rw [hwalk.trace.isSome_file?_eq (fun c hc => hc.elim (hacts c) fun hc => hfaults c hc.2) hd, hf]
  rfl

/-- Bytes that were written lie over the contents of the file of the handle. -/
theorem Wrote.overlaid {α : Type} {r : Except Error α} {bytes : List UInt8} (h : v.Sound)
    (hf : v.handles.file? hd = some f) (hwalk : Walk (writing f.slot) [.fault] v r w)
    (hw : Wrote v w hd.place f bytes) : Overlaid v w hd f bytes := by
  obtain ⟨cache, hp⟩ := hw.file
  have hacts : ∀ c ∈ writing f.slot, c.opensOrCloses = false := by simp [writing, Change.opensOrCloses]
  have hfaults : ∀ c ∈ [Change.fault], c.opensOrCloses = false := by simp [Change.opensOrCloses]
  exact ⟨hw.contents, hw.size (h.coherent (Pool.fileAt?_of_file? hf)).position_le, cache,
    hwalk.file?_eq hacts hfaults hf hp⟩

/-- Writing lays the bytes over the contents, or as many of them as the blocks have room for. -/
theorem write_overlays (h : v.Sound) (hf : v.handles.file? hd = some f) (hmode : f.mode = .write)
    (data : List UInt8) :
    (write hd data : VolumeAction δ Nat).Ensures v fun r w =>
      (r = .ok data.length ∧ Overlaid v w hd f data) ∨
      ((r = .error .diskFull ∨ r = .error .fragmented) ∧ ∃ k < data.length,
        f.position + k = blockSize * (w.directory.get f.slot).blocks.toNat ∧
          Overlaid v w hd f (data.take k)) ∨
      (IsIo r ∧ ¬Reliable v.device) := by
  apply (write_cases h hd data).mono
  rintro r w (⟨f', r', hf', -, hwalk, hends, rfl⟩ | ⟨-, hno⟩)
  · obtain rfl := Option.some.inj (hf.symm.trans hf')
    cases hends with
    | done hw => exact Or.inl ⟨rfl, hw.overlaid h hf hwalk⟩
    | @full e k he hk hw hrun =>
      refine Or.inr (Or.inl ⟨?_, k, hk, hrun, hw.overlaid h hf hwalk⟩)
      rcases he with rfl | rfl
      · exact Or.inl rfl
      · exact Or.inr rfl
    | @io d k _ _ => exact Or.inr (Or.inr ⟨isIo_io d, hwalk.unreliable (isIo_io d)⟩)
  · exact absurd hmode (hno f hf (h.mounted_of_file? hf))

/-- Reading copies the bytes at the position and moves past them. -/
theorem read_copies (h : v.Sound) (hf : v.handles.file? hd = some f) (hmode : f.mode = .read) (n : Nat) :
    (read hd n : VolumeAction δ (List UInt8)).Ensures v fun r w =>
      (r = .ok (((v.contents f.slot).drop f.position).take
          (min n ((v.directory.get f.slot).size.toNat - f.position))) ∧
        ∃ cache, w.handles.file? hd = some { f with
          position := f.position + min n ((v.directory.get f.slot).size.toNat - f.position), cache := cache }) ∨
      (IsIo r ∧ ¬Reliable v.device) := by
  apply (read_cases h hd n).mono
  rintro r w (⟨f', hf', -, hwalk, hends⟩ | ⟨-, hno⟩)
  · obtain rfl := Option.some.inj (hf.symm.trans hf')
    rcases hends with ⟨rfl, cache, hp⟩ | hio
    · exact Or.inl ⟨rfl, cache, hwalk.file?_eq (by simp [reading, Change.opensOrCloses])
        (by simp [Change.opensOrCloses]) hf hp⟩
    · exact Or.inr ⟨hio, hwalk.unreliable hio⟩
  · exact absurd hmode (hno f hf (h.mounted_of_file? hf))

/-- Seeking moves the position, at most to the end of the file. -/
theorem seek_moves (h : v.Sound) (hf : v.handles.file? hd = some f) (offset : Nat) :
    (seek hd offset : VolumeAction δ Nat).Ensures v fun r w =>
      r = .ok (min offset (v.directory.get f.slot).size.toNat) ∧
        w.handles.file? hd =
          some { f with position := min offset (v.directory.get f.slot).size.toNat } := by
  unfold seek
  refine ensures_whenMounted.mpr ⟨?_, ?_⟩
  · intro _
    simp only [ensures_bind, ensures_liftM, openFile, hf, ensures_modify, ensures_pure]
    refine ⟨trivial, ?_⟩
    rw [Pool.file?_modifyFile, if_pos rfl, hf, Option.map_some]
  · intro hm
    cases hm.symm.trans (h.mounted_of_file? hf)

/-- The operations on handles other than writing, and flushing, change no contents. -/
theorem contents_eq_of_handles (h : v.Sound) {offset : Nat} {path : String} {mode : Mode} {op : Operation}
    (hop : op ∈ [Operation.seek hd offset, .tell hd, .read hd offset, .openPath path mode, .flush, .close hd]) :
    (op.perform : VolumeAction δ Unit).Ensures v fun r w =>
      (∀ slot, w.contents slot = v.contents slot) ∨ (IsIo r ∧ ¬Reliable v.device) := by
  have hkinds : op ≠ .mount ∧ ∀ c ∈ op.acts v, ∀ slot, c.alters slot = false := by
    -- they load, write back, store, add entries and open or close handles, and none puts bytes
    simp only [List.mem_cons, List.not_mem_nil, or_false] at hop
    rcases hop with rfl | rfl | rfl | rfl | rfl | rfl
    · simp [Operation.acts, Change.alters]
    · simp [Operation.acts]
    · simp [Operation.acts, reading, Change.alters]
    · cases hp : Path.ofString? path <;> cases mode <;> simp [Operation.acts, hp, opening, Change.alters]
    · simp [Operation.acts, Change.alters]
    · simp [Operation.acts, closing, Change.alters]
  apply (op.walk h hkinds.1).mono
  intro r w hwalk
  by_cases hio : IsIo r
  · exact Or.inr ⟨hio, hwalk.unreliable hio⟩
  · exact Or.inl fun slot => (hwalk.trace_of_not_isIo hio).contents_eq h fun c hc => hkinds.2 c hc slot

/-- The first bytes that are written at all are the contents of their file. -/
theorem Begun.write_first {u : Volume δ} (h : Begun u) {path : String} {slot : Slot} {data : List UInt8}
    (hf : (run [.openPath path .write] u).handles.file? hd = some (OpenFile.start slot .write)) (hne : data ≠ [])
    (hlen : data.length ≤ blockSize) :
    (write hd data : VolumeAction δ Nat).Ensures (run [.openPath path .write] u) fun r w =>
      r = .ok data.length ∧ w.contents slot = data := by
  have hsound : (run [.openPath path .write] u).Sound :=
    Reached.sound ⟨u, _, h, orderly_of_not_mem (by simp), rfl⟩
  obtain ⟨hspace, hblocks⟩ := unsupplied_of_openPath h path .write
  have hwrite := Volume.write_first (hsound.mounted_of_file? hf) hf hspace (hblocks slot) hne hlen
  apply (hwrite.and (write_overlays hsound hf rfl data)).mono
  rintro r w ⟨⟨rfl, -⟩, ⟨-, hw⟩ | ⟨⟨⟨⟩⟩ | ⟨⟨⟩⟩, -⟩ | ⟨hio, -⟩⟩
  · refine ⟨rfl, ?_⟩
    have hcontents : w.contents slot = splice (contents _ slot) 0 data := hw.contents
    rw [hcontents, contents_eq_nil hsound (hblocks slot), splice, List.take_nil, List.drop_nil, List.append_nil,
      List.nil_append]
  · exact absurd hio (not_isIo_ok _)

/-- **The files of a volume that was reached are byte arrays to its users.** -/
theorem Reached.byteArray (h : Reached v) :
    (∀ hd f, v.handles.file? hd = some f → f.mode = .write → ∀ data,
      (write hd data : VolumeAction δ Nat).Ensures v fun r w =>
        (r = .ok data.length ∧ Overlaid v w hd f data) ∨
        ((r = .error .diskFull ∨ r = .error .fragmented) ∧ ∃ k < data.length,
          f.position + k = blockSize * (w.directory.get f.slot).blocks.toNat ∧
            Overlaid v w hd f (data.take k)) ∨
        (IsIo r ∧ ¬Reliable v.device)) ∧
    (∀ hd f, v.handles.file? hd = some f → f.mode = .read → ∀ n,
      (read hd n : VolumeAction δ (List UInt8)).Ensures v fun r w =>
        (r = .ok (((v.contents f.slot).drop f.position).take
            (min n ((v.directory.get f.slot).size.toNat - f.position))) ∧
          ∃ cache, w.handles.file? hd = some { f with
            position := f.position + min n ((v.directory.get f.slot).size.toNat - f.position), cache := cache }) ∨
        (IsIo r ∧ ¬Reliable v.device)) ∧
    (∀ hd f, v.handles.file? hd = some f → ∀ offset,
      (seek hd offset : VolumeAction δ Nat).Ensures v fun r w =>
        r = .ok (min offset (v.directory.get f.slot).size.toNat) ∧
          w.handles.file? hd =
            some { f with position := min offset (v.directory.get f.slot).size.toNat }) ∧
    (∀ hd offset path mode, ∀ op ∈ [Operation.seek hd offset, .tell hd, .read hd offset, .openPath path mode,
        .flush, .close hd],
      (op.perform : VolumeAction δ Unit).Ensures v fun r w =>
        (∀ slot, w.contents slot = v.contents slot) ∨ (IsIo r ∧ ¬Reliable v.device)) :=
  ⟨fun _ _ hf hm data => write_overlays h.sound hf hm data, fun _ _ hf hm n => read_copies h.sound hf hm n,
    fun _ _ hf offset => seek_moves h.sound hf offset, fun _ _ _ _ _ hop => contents_eq_of_handles h.sound hop⟩

/-- Three bytes are written to a new file of a memory disk. They are its contents, and it is as long as they are. -/
theorem byteArray_of_run :
    let v := run [.openPath "/a" .write] (formatted (MemoryDisk.blank 1024))
    ∃ hd f, Reached v ∧ v.handles.file? hd = some f ∧ f.mode = .write ∧
      (write hd [1, 2, 3] : VolumeAction MemoryDisk Nat).Ensures v fun r w =>
        r = .ok 3 ∧ Overlaid v w hd f [1, 2, 3] ∧ w.contents f.slot = [1, 2, 3] := by
  have hp : Path.ofString? "/a" = some ⟨"/a", by decide, by decide⟩ := by decide
  have hn : volumeBlocks ≤ deviceSize (MemoryDisk.blank 1024) := Nat.le_of_eq (MemoryDisk.deviceSize_blank 1024).symm
  have hr : Reliable (MemoryDisk.blank 1024) := MemoryDisk.reliable_of_writable rfl
  obtain ⟨hreached, -, hd, slot, hf⟩ := reached_with_file hn hr hp (by decide) (by decide)
  have hfirst := (begun_of_reliable hn hr).1.write_first hf (List.cons_ne_nil 1 [2, 3]) (by decide)
  refine ⟨hd, _, hreached, hf, rfl, ?_⟩
  apply (hfirst.and ((Reached.byteArray hreached).1 hd _ hf rfl [1, 2, 3])).mono
  rintro r w ⟨⟨rfl, hcontents⟩, ⟨-, hw⟩ | ⟨⟨⟨⟩⟩ | ⟨⟨⟩⟩, -⟩ | ⟨hio, -⟩⟩
  · exact ⟨rfl, hw, hcontents⟩
  · exact absurd hio (not_isIo_ok _)

end BlockVolume.Volume
