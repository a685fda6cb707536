import BlockVolume.Proofs.Volume.Stale
import BlockVolume.Proofs.Volume.Supply

/-!
# `Proofs.Volume.Resume` — going on with a write that was broken off

The device refuses a request while bytes are written. Some of them are in the file then, as if they were all that was
to be written, and the handle is past them. The file may have a block more than they need, and the cache may have been
written back or emptied. Yet writing the others, once the device works, makes of the volume what writing all of them
would have made of it had the device worked from the beginning.

## Contents
- **`Agree`**: volumes that a user of a handle cannot tell apart.
- **`Suspended`**: a write that was broken off, with `write_suspended`.
- **`Suspended.accepts`** and **`Suspended.resumes`**: the part that was written, and the part that is left.
- **`Reached.resumable`**, with a write that is broken off after its first block.
-/

namespace BlockVolume.Volume

open BlockVolume.Action Metered

variable {δ : Type} [BlockDevice δ] [LawfulDevice δ] {v w : Volume δ} {hd : Handle} {f : OpenFile}
  {data : List UInt8} {k : Nat}

/-- The description, the position of a handle, and the contents of all files are the same in two volumes. -/
structure Agree (hd : Handle) (v w : Volume δ) : Prop where
  space : w.space = v.space
  directory : w.directory = v.directory
  position : w.tell hd = v.tell hd
  contents (slot : Slot) : w.contents slot = v.contents slot

/-! ## Where a write stops -/

/-- The device has refused a request after `k` bytes of `data`. These are in the file, and there was room for them;
and what is to become of space and entry when the others are written is what was to become of them in the first
place. -/
structure Suspended (v w : Volume δ) (hd : Handle) (f : OpenFile) (data : List UInt8) (k : Nat) : Prop where
  lt : k < data.length
  sound : w.Sound
  overlaid : Overlaid v w hd f (data.take k)
  others (slot : Slot) : slot ≠ f.slot → w.contents slot = v.contents slot
  directory : w.directory = v.directory.set f.slot (w.directory.get f.slot)
  supplied : (v.space.lay (v.directory.get f.slot) f.position (pieces f.position (data.take k))).result = .ok ()
  left : w.space.lay (w.directory.get f.slot) (f.position + k) (pieces (f.position + k) (data.drop k)) =
    v.space.lay (v.directory.get f.slot) f.position (pieces f.position data)

/-- **A write that the device lets down stops somewhere.** -/
theorem write_suspended (h : v.Sound) (hf : v.handles.file? hd = some f) (hm : f.mode = .write) (data : List UInt8) :
    (write hd data : VolumeAction δ Nat).Ensures v fun r w => IsIo r → ∃ k, Suspended v w hd f data k := by
  apply (write_lays h hf hm data).mono
  rintro r w ⟨r', rfl, hwalk, hends, hlays⟩ hfailed
  have hio : IsIo r' := isIo_map.mp hfailed
  obtain ⟨k, hk, hw⟩ := hends.of_isIo hio
  obtain ⟨done, rest, hsplit, hroom, hdirectory, hleft, cache, hp⟩ := hlays.of_isIo hio
  -- the handle is past the bytes that were accepted and past the pieces that were laid down
  have hdone : done.flatten.length = k := by
    obtain ⟨cache', hp'⟩ := hw.file
    have hposition := congrArg OpenFile.position (Option.some.inj (hp'.symm.trans hp))
    have hlength : (data.take k).length = k := by rw [List.length_take, Nat.min_eq_left (Nat.le_of_lt hk)]
    rw [hlength] at hposition
    exact (Nat.add_left_cancel hposition).symm
  obtain ⟨htaken, hrest⟩ := pieces_eq_append hsplit
  rw [hdone] at htaken hrest
  rw [htaken] at hroom
  rw [hdone, hrest] at hleft
  refine ⟨k, hk, hwalk.sound h, hw.overlaid h hf hwalk, fun slot hslot => ?_, hdirectory, hroom, hleft⟩
  apply hwalk.trace.contents_eq h
  rintro c (hc | ⟨-, hc⟩)
  · exact Change.not_alters_of_writing hslot c hc
  · rw [List.mem_singleton.mp hc]
    rfl

/-! ## What was written, and what is left -/

namespace Suspended

variable {d d' : δ}

theorem length_take (h : Suspended v w hd f data k) : (data.take k).length = k := by
  rw [List.length_take, Nat.min_eq_left (Nat.le_of_lt h.lt)]

/-- **What a write leaves that was broken off after `k` bytes is what a write of these bytes leaves.** -/
theorem accepts (h : Suspended v w hd f data k) (hv : v.Sound) (hf : v.handles.file? hd = some f) (hm : f.mode = .write)
    (hd' : Alike v.device d) : (write hd (data.take k)).Ensures { v with device := d } fun r x => ¬IsIo r →
      r = .ok k ∧ x.tell hd = w.tell hd ∧ ∀ slot, x.contents slot = w.contents slot := by
  apply (write_written (hv.alike hd') hf hm (data.take k)).mono
  intro r x hx hio
  obtain ⟨hresult, -, hothers, n, hoverlaid, ⟨-, hn⟩ | ⟨hno, -⟩⟩ := hx hio
  · rw [hn, List.take_length] at hoverlaid
    refine ⟨?_, ?_, fun slot => ?_⟩
    · rw [hresult]
      show (v.space.lay _ _ _).result.map _ = _
      rw [h.supplied, Except.map, h.length_take]
    · rw [hoverlaid.tell, h.overlaid.tell]
    · by_cases hslot : slot = f.slot
      · rw [hslot, hoverlaid.contents, contents_alike hd', h.overlaid.contents]
      · rw [hothers slot hslot, contents_alike hd', h.others slot hslot]
  · exact absurd h.supplied hno

section

variable {x y : Volume δ} {r r' : Except Error Nat} {laid : Space.Laid} {cache : Cache} {n n' : Nat}

omit [BlockDevice δ] [LawfulDevice δ] in
/-- Bytes that are written to the end, or to the end of the run, end there wherever one begins. -/
theorem count_eq (hk : k < data.length)
    (hn : (laid.result = .ok () ∧ n = (data.drop k).length) ∨
      (laid.result ≠ .ok () ∧ n < (data.drop k).length ∧ f.position + k + n = blockSize * laid.entry.blocks.toNat))
    (hn' : (laid.result = .ok () ∧ n' = data.length) ∨
      (laid.result ≠ .ok () ∧ n' < data.length ∧ f.position + n' = blockSize * laid.entry.blocks.toNat)) :
    n' = k + n ∧ n ≤ (data.drop k).length := by
  rw [List.length_drop] at hn ⊢
  rcases hn with ⟨hok, hn⟩ | ⟨hno, hn, hrun⟩ <;> rcases hn' with ⟨hok', hn'⟩ | ⟨hno', hn', hrun'⟩
  · omega
  · exact absurd hok hno'
  · exact absurd hok' hno
  · omega

/-- Bytes that were laid down in two parts lie there as if they had been laid down together. -/
theorem contents_join (h : Suspended v w hd f data k) (hpos : f.position ≤ (v.contents f.slot).length)
    (hx : x.contents f.slot = splice (w.contents f.slot) (f.position + k) ((data.drop k).take n)) :
    x.contents f.slot = splice (v.contents f.slot) f.position (data.take (k + n)) := by
  have hlaid : splice (splice _ _ (data.take k)) _ _ = _ := splice_splice hpos ((data.drop k).take n)
  rw [h.length_take, ← List.take_add] at hlaid
  rw [hx, h.overlaid.contents, hlaid]

/-- What is left is written as it would have been with the rest. -/
theorem agree (h : Suspended v w hd f data k) (hpos : f.position ≤ (v.contents f.slot).length)
    (hw' : Alike w.device d) (hv' : Alike v.device d')
    (hx : Written { w with device := d } x hd { f with position := f.position + k, cache := cache } (data.drop k)
      laid r) (hy : Written { v with device := d' } y hd f data laid r') :
    (r.map fun _ => ()) = (r'.map fun _ => ()) ∧ Agree hd x y := by
  obtain ⟨rfl, hdescribed, hothers, n, hoverlaid, hn⟩ := hx
  obtain ⟨rfl, hdescribed', hothers', n', hoverlaid', hn'⟩ := hy
  obtain ⟨rfl, hle⟩ := count_eq h.lt hn hn'
  refine ⟨?_, ?_, ?_, ?_, fun slot => ?_⟩
  · cases laid.result <;> rfl
  · rw [hdescribed.space, hdescribed'.space]
  · rw [hdescribed.directory, hdescribed'.directory]
    show v.directory.set f.slot _ = w.directory.set f.slot _
    rw [h.directory, Directory.set_set]
  · have hsum : (data.take (k + n)).length = k + ((data.drop k).take n).length := by
      rw [List.take_add, List.length_append, h.length_take]
    rw [hoverlaid.tell, hoverlaid'.tell, hsum, ← Nat.add_assoc]
  · by_cases hslot : slot = f.slot
    · have hcontents := hoverlaid.contents
      rw [contents_alike hw'] at hcontents
      rw [hslot, hoverlaid'.contents, contents_alike hv', h.contents_join hpos hcontents]
    · rw [hothers slot hslot, hothers' slot hslot, contents_alike hv', contents_alike hw', h.others slot hslot]

end

/-- **Writing the bytes that are left makes of the volume what writing all of them makes of the one before.** -/
theorem resumes (h : Suspended v w hd f data k) (hv : v.Sound) (hf : v.handles.file? hd = some f)
    (hm : f.mode = .write) (hw' : Alike w.device d) (hv' : Alike v.device d') :
    (write hd (data.drop k)).Ensures { w with device := d } fun r x => ¬IsIo r →
      (write hd data).Ensures { v with device := d' } fun r' y => ¬IsIo r' →
        (r.map fun _ => ()) = (r'.map fun _ => ()) ∧ Agree hd x y := by
  have hpos : f.position ≤ (v.contents f.slot).length := by
    rw [length_contents]
    exact (hv.coherent (Pool.fileAt?_of_file? hf)).position_le
  obtain ⟨cache, hf'⟩ := h.overlaid.file
  rw [h.length_take] at hf'
  apply (write_written (h.sound.alike hw') hf' hm (data.drop k)).mono
  intro r x hx hio
  apply (write_written (hv.alike hv') hf hm data).mono
  intro r' y hy hio'
  have hleft : Written { w with device := d } x hd { f with position := f.position + k, cache := cache } (data.drop k)
      (w.space.lay (w.directory.get f.slot) (f.position + k) (pieces (f.position + k) (data.drop k))) r := hx hio
  rw [h.left] at hleft
  exact h.agree hpos hw' hv' hleft (hy hio')

end Suspended

/-! ## Going on with it -/

/-- A write of `data` that was broken off after `k` bytes, and can be gone on with. -/
structure Resumable (v w : Volume δ) (hd : Handle) (f : OpenFile) (data : List UInt8) (k : Nat) : Prop where
  /-- The bytes lie over the contents of the file. -/
  overlaid : Overlaid v w hd f (data.take k)
  position : w.tell hd = .ok (f.position + k)
  others (slot : Slot) : slot ≠ f.slot → w.contents slot = v.contents slot
  /-- A write of these bytes, if the device serves it, succeeds and leaves the same. -/
  accepted {d : δ} : Alike v.device d → (write hd (data.take k)).Ensures { v with device := d } fun r x => ¬IsIo r →
    r = .ok k ∧ x.tell hd = w.tell hd ∧ ∀ slot, x.contents slot = w.contents slot
  /-- A write of the others ends as a write of all of them would have ended, if the device serves both. -/
  resumed {d d' : δ} : Alike w.device d → Alike v.device d' →
    (write hd (data.drop k)).Ensures { w with device := d } fun r x => ¬IsIo r →
      (write hd data).Ensures { v with device := d' } fun r' y => ¬IsIo r' →
        (r.map fun _ => ()) = (r'.map fun _ => ()) ∧ Agree hd x y
  /-- A reliable device serves them. -/
  served {d : δ} (bytes : List UInt8) : Reliable d →
    (Alike v.device d → ¬IsIo (write hd bytes { v with device := d }).result) ∧
      (Alike w.device d → ¬IsIo (write hd bytes { w with device := d }).result)

theorem Suspended.can_resume (h : Suspended v w hd f data k) (hv : v.Sound) (hf : v.handles.file? hd = some f)
    (hm : f.mode = .write) : Resumable v w hd f data k where
  overlaid := h.overlaid
  position := by rw [h.overlaid.tell, h.length_take]
  others := h.others
  accepted := h.accepts hv hf hm
  resumed := h.resumes hv hf hm
  served bytes hr := ⟨fun hd' => write_not_isIo (hv.alike hd') hr hd bytes,
    fun hd' => write_not_isIo (h.sound.alike hd') hr hd bytes⟩

/-- **A write that the device lets down is broken off after some of its bytes, and can be gone on with.** Nothing is
lost of what was accepted before, and the volume becomes what it would have become without the fault. -/
theorem Reached.resumable (h : Reached v) (hf : v.handles.file? hd = some f) (hm : f.mode = .write)
    (data : List UInt8) : (write hd data : VolumeAction δ Nat).Ensures v fun r w => IsIo r →
      ∃ k < data.length, Resumable v w hd f data k := by
  apply (write_suspended h.sound hf hm data).mono
  intro r w hw hio
  obtain ⟨k, hk⟩ := hw hio
  exact ⟨k, hk.lt, hk.can_resume h.sound hf hm⟩

/-! ## A write that is broken off after its first block -/

section

variable {first : List UInt8} {x : UInt8}

/-- A block of bytes and one byte more are two pieces. -/
theorem pieces_concat (hlen : first.length = blockSize) : pieces 0 (first ++ [x]) = pieces 0 first ++ [[x]] := by
  have hroom : roomInBlock 0 = blockSize := rfl
  have hne : first ≠ [] := by
    rintro rfl
    cases hlen
  have hlast : pieces (0 + blockSize) [x] = [[x]] := pieces_of_le (List.cons_ne_nil _ _) (roomInBlock_pos _)
  rw [pieces_of_ne (List.append_ne_nil_of_left_ne_nil hne _), hroom, List.take_left' hlen, List.drop_left' hlen,
    pieces_of_le hne (Nat.le_of_eq (hlen.trans hroom.symm)), hlast]
  rfl

/-- After the first block there is another one for the file. -/
theorem grow_second : ∃ g, (Space.fresh.take firstDataBlock).grow (newEntry blockSize) = .ok g ∧
    blockOf g.entry 1 = .ok (firstDataBlock + 1) := by
  have h : ((Space.fresh.take firstDataBlock).grow (newEntry blockSize)).map (fun g => blockOf g.entry 1) =
      .ok (.ok (firstDataBlock + 1)) := by decide +kernel
  cases hg : (Space.fresh.take firstDataBlock).grow (newEntry blockSize) with
  | error refusal =>
    rw [hg] at h
    cases h
  | ok g =>
    rw [hg] at h
    exact ⟨g, rfl, Except.ok.inj h⟩

/-- On a device that takes no more writes the second block of a new file is not begun. -/
theorem write_second_refused {v : Volume (Metered δ)} (h : NewFile v hd 0) (hlen : first.length = blockSize) :
    (write hd (first ++ [x])).Ensures v fun r w => IsIo r ∧ w.device.Allows 0 := by
  have hne : first ≠ [] := by
    rintro rfl
    cases hlen
  have hfirst := write_unsaved h hne (Nat.le_of_eq hlen)
  rw [ensures_write h.alone.mounted h.alone.file rfl] at hfirst
  rw [ensures_write h.alone.mounted h.alone.file rfl]
  show (writePieces hd.place (pieces 0 (first ++ [x]))).Ensures v _
  rw [pieces_concat hlen, writePieces_append, ensures_bind]
  apply hfirst.mono
  rintro r u ⟨hr, hdevice, hspace, halone⟩
  cases r with
  | error e => cases hr
  | ok _ =>
    rw [hlen] at halone
    have hlogical : (unsavedFile first).position / blockSize = 1 := by
      show first.length / blockSize = 1
      rw [hlen]
      decide
    obtain ⟨g, hg, hb⟩ := grow_second
    rw [← hlogical] at hb
    have hgrow : u.space.grow (u.directory.get (unsavedFile first).slot) = .ok g := by
      show u.space.grow (u.directory.get firstSlot) = _
      rw [hspace, halone.entry, hg]
    have hlack : (u.directory.get (unsavedFile first).slot).blocks.toNat ≤
        (unsavedFile first).position / blockSize := by
      show (u.directory.get firstSlot).blocks.toNat ≤ _
      rw [halone.entry, hlogical]
      exact Nat.le_refl 1
    have hallows := h.allows
    rw [← hdevice] at hallows
    unfold writePieces
    rw [ensures_bind]
    have hpiece : (writePiece hd.place [x]).Ensures u _ :=
      writePiece_refused (Pool.fileAt?_of_file? halone.file) rfl hlack hgrow hb hallows
    apply hpiece.mono
    rintro r w ⟨⟨d, rfl⟩, hw⟩
    exact ⟨isIo_io d, hw⟩

end

/-- A block and one byte are written to a new file, and the device refuses the first block when the second one is to be
begun. Once it takes writes again, writing what is left succeeds, and the volume is as if the device had taken them all
the time. -/
theorem resumable_of_worn_disk :
    let v := run [.openPath "/a" .write] (formatted wornDisk)
    let data := List.replicate blockSize 7 ++ [(7 : UInt8)]
    ∃ hd f, Reached v ∧ v.handles.file? hd = some f ∧ f.mode = .write ∧
      (write hd data).Ensures v fun r w => IsIo r ∧ ∃ k < data.length, Overlaid v w hd f (data.take k) ∧
        (write hd (data.drop k)).Ensures { w with device := refilled w.device } fun r x => ¬IsIo r ∧
          (write hd data).Ensures { v with device := refilled v.device } fun r' y => ¬IsIo r' ∧
            (r.map fun _ => ()) = (r'.map fun _ => ()) ∧ Agree hd x y := by
  obtain ⟨hbegun, hd, -, hnew, -⟩ := newFile_of_allows (Nat.le_of_eq deviceSize_wornDisk.symm) allows_wornDisk
  have hreached : Reached (run [.openPath "/a" .write] (formatted wornDisk)) :=
    ⟨_, _, hbegun, orderly_of_not_mem (by simp), rfl⟩
  have hlen : (List.replicate blockSize (7 : UInt8)).length = blockSize := List.length_replicate
  generalize run [.openPath "/a" .write] (formatted wornDisk) = v at hreached hnew ⊢
  generalize List.replicate blockSize (7 : UInt8) = first at hlen ⊢
  intro v data
  refine ⟨hd, _, hreached, hnew.alone.file, rfl, ?_⟩
  apply ((write_second_refused hnew hlen).and (hreached.resumable hnew.alone.file rfl data)).mono
  rintro r w ⟨⟨hio, hw⟩, hresumable⟩
  obtain ⟨k, hk, h⟩ := hresumable hio
  have hserved (m : Metered MemoryDisk) (hm : m.Allows 0) : Reliable (refilled m) := hm.reliable_refilled
  have hx := (h.served (data.drop k) (hserved _ hw)).2 (alike_refilled _)
  have hy := (h.served data (hserved _ hnew.allows)).1 (alike_refilled _)
  exact ⟨hio, k, hk, h.overlaid, hx, hy, h.resumed (alike_refilled _) (alike_refilled _) hx hy⟩

end BlockVolume.Volume
