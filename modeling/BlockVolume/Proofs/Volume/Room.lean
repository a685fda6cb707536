import BlockVolume.Proofs.Volume.Append
import BlockVolume.Proofs.Volume.Compact

/-!
# `Proofs.Volume.Room` — what there is room for

The bitmap says beforehand whether all the bytes of a write find room, how many do if not, and what stands in the way.

## Contents
- **`Space.Fits`** and **`Space.Stops`**: whether there is room for a run, and what it ends at.
- `FilledUp` and `Fitted`: what is left by a write whose bytes do not find room, or do.
- **`Reached.room`**, with a write of three bytes to a new file.
-/

namespace BlockVolume

open BlockVolume.Action Volume

namespace Space

variable {s s' : Space} {e e' : Entry} {m need : Nat}

/-! ## Room for a run -/

/-- An entry has `need` blocks, or the blocks are vacant that it lacks. -/
def Fits (s : Space) (e : Entry) (need : Nat) : Prop :=
  need ≤ e.blocks.toNat ∨ ∃ start, s.start? e = some start ∧ s.Vacant (start + e.blocks.toNat) (start + need)

/-- What keeps an entry from having more than `m` blocks, and the error that it leads to: it has no blocks and none is
free; or all blocks up to the end of the volume are its own or vacant; or those up to a taken one are. -/
inductive Stops (s : Space) (e : Entry) (m : Nat) : Error → Prop
  | noFreeBlock : s.start? e = none → m = 0 → Stops s e m .diskFull
  | endOfVolume {start : Nat} : s.start? e = some start → s.Vacant (start + e.blocks.toNat) (start + m) →
      s.total ≤ start + m → Stops s e m .diskFull
  | blockTaken {start : Nat} : s.start? e = some start → s.Vacant (start + e.blocks.toNat) (start + m) →
      start + m < s.total → s.bitmap.test (start + m) = true → Stops s e m .fragmented

/-- What stops an entry before it has the blocks that are needed leaves no room for them. -/
theorem Stops.not_fits {error : Error} (h : Stops s e m error) (hle : e.blocks.toNat ≤ m)
    (hlt : m < need) : ¬s.Fits e need := by
  rintro (hneed | ⟨start, hstart, hvacant⟩)
  · omega
  · cases h with
    | noFreeBlock hnone _ => cases hnone.symm.trans hstart
    | endOfVolume hstart' _ hend =>
      obtain rfl := Option.some.inj (hstart.symm.trans hstart')
      have hlast := (hvacant (start + m) (by omega) (by omega)).1
      omega
    | blockTaken hstart' _ _ htaken =>
      obtain rfl := Option.some.inj (hstart.symm.trans hstart')
      have hlast := (hvacant (start + m) (by omega) (by omega)).2
      cases hlast.symm.trans htaken

/-- A run that has grown, and cannot grow on, was stopped. -/
theorem Reaches.stops {refusal : Refusal} (h : Reaches s s' e e') (hcap : s.total ≤ bitmapCapacity)
    (hgrow : s'.grow e' = .error refusal) : Stops s e e'.blocks.toNat refusal.error := by
  have hcap' : s'.total ≤ bitmapCapacity := h.total ▸ hcap
  cases hstart : s.start? e with
  | none =>
    have hnone : s'.start? e' = none := h.start.trans hstart
    have hblocks := blocks_eq_zero_of_start? hnone
    rw [grow_of_no_start hnone hcap'] at hgrow
    cases hgrow
    exact .noFreeBlock hstart (by rw [hblocks]; rfl)
  | some start =>
    have hvacant := h.vacant hstart
    rw [grow_of_start (h.start.trans hstart) hcap', h.total] at hgrow
    split at hgrow
    · rename_i hend
      cases hgrow
      exact .endOfVolume hstart hvacant hend
    · rename_i hin
      split at hgrow
      · rename_i htaken
        rw [h.rest hstart (Nat.le_refl _)] at htaken
        cases hgrow
        exact .blockTaken hstart hvacant (Nat.lt_of_not_le hin) htaken
      · cases hgrow

/-- A run that reaches over blocks begins with the first of them. -/
theorem Reaches.firstBlock (h : Reaches s s' e e') (hne : e'.blocks.toNat ≠ 0) :
    s.start? e = some e'.firstBlock.toNat := by
  rw [← h.start, start?, if_neg (UInt32.toNat_ne_zero.mp hne)]

/-- A run that has grown to the blocks that are needed had room for them. -/
theorem Reaches.fits (h : Reaches s s' e e') (hblocks : e'.blocks.toNat = max e.blocks.toNat need) :
    s.Fits e need := by
  by_cases hneed : need ≤ e.blocks.toNat
  · exact Or.inl hneed
  · have hgrown : e'.blocks.toNat = need := by omega
    have hstart := h.firstBlock (by omega)
    have hvacant := h.vacant hstart
    rw [hgrown] at hvacant
    exact Or.inr ⟨_, hstart, hvacant⟩

end Space

namespace Volume

variable {δ : Type} [BlockDevice δ] [LawfulDevice δ] {v w : Volume δ} {hd : Handle} {f : OpenFile}
  {data : List UInt8}

/-! ## What a write finds room for -/

/-- What a write leaves of whose bytes not all found room. The run of the file goes on until it is stopped; the file
ends with its last block, and so do the bytes that were accepted. -/
structure FilledUp (v w : Volume δ) (hd : Handle) (f : OpenFile) (data : List UInt8) (r : Except Error Nat) : Prop where
  blocks_le : (v.directory.get f.slot).blocks.toNat ≤ (w.directory.get f.slot).blocks.toNat
  lt_need : (w.directory.get f.slot).blocks.toNat < blocksFor (f.position + data.length)
  stops : ∃ error, r = .error error ∧
    v.space.Stops (v.directory.get f.slot) (w.directory.get f.slot).blocks.toNat error
  start : (w.directory.get f.slot).blocks.toNat ≠ 0 →
    v.space.start? (v.directory.get f.slot) = some (w.directory.get f.slot).firstBlock.toNat
  position : w.tell hd = .ok (blockSize * (w.directory.get f.slot).blocks.toNat)
  size : (w.directory.get f.slot).size.toNat = blockSize * (w.directory.get f.slot).blocks.toNat
  accepted : Overlaid v w hd f (data.take (blockSize * (w.directory.get f.slot).blocks.toNat - f.position))

/-- What a write leaves all of whose bytes found room. The file has the blocks for them. -/
structure Fitted (v w : Volume δ) (hd : Handle) (f : OpenFile) (data : List UInt8) : Prop where
  blocks : (w.directory.get f.slot).blocks.toNat =
    max (v.directory.get f.slot).blocks.toNat (blocksFor (f.position + data.length))
  start : v.space.start? (v.directory.get f.slot) = some (w.directory.get f.slot).firstBlock.toNat
  accepted : Overlaid v w hd f data

/-- Bytes for which the space was laid out to the end are in the file. -/
theorem Written.fitted {laid : Space.Laid} {r : Except Error Nat} (h : Written v w hd f data laid r) (hne : data ≠ [])
    (hspans : v.space.Spans (v.directory.get f.slot) (f.position + data.length) laid) (hall : laid.refusal = none) :
    r = .ok data.length ∧ v.space.Fits (v.directory.get f.slot) (blocksFor (f.position + data.length)) ∧
      Fitted v w hd f data := by
  have hresult : laid.result = .ok () := by rw [Space.Laid.result, hall]
  have hblocks := hspans.all hall
  have hentry : laid.entry.blocks.toNat ≠ 0 := by
    have hneed : 0 < blocksFor (f.position + data.length) :=
      blocksFor_pos (Nat.add_pos_right _ (List.length_pos_iff.mpr hne))
    omega
  obtain ⟨n, hoverlaid, ⟨-, hn⟩ | ⟨hno, -⟩⟩ := h.accepted
  · rw [hn, List.take_length] at hoverlaid
    refine ⟨?_, hspans.reaches.fits hblocks, ?_, ?_, hoverlaid⟩
    · rw [h.result, hresult]
      rfl
    · rw [h.described.get, hblocks]
    · rw [h.described.get, hspans.reaches.firstBlock hentry]
  · exact absurd hresult hno

/-- If a block was refused the file is full as far as its run could go on. -/
theorem Written.filledUp {laid : Space.Laid} {r : Except Error Nat} {refusal : Space.Refusal}
    (h : Written v w hd f data laid r) (hcap : v.space.total ≤ bitmapCapacity)
    (hsize : (v.directory.get f.slot).size.toNat ≤ blockSize * (v.directory.get f.slot).blocks.toNat)
    (hspans : v.space.Spans (v.directory.get f.slot) (f.position + data.length) laid)
    (hshort : laid.refusal = some refusal) : r ≠ .ok data.length ∧
      ¬v.space.Fits (v.directory.get f.slot) (blocksFor (f.position + data.length)) ∧ FilledUp v w hd f data r := by
  have hresult : laid.result = .error refusal.error := by rw [Space.Laid.result, hshort]
  have hr : r = .error refusal.error := by
    rw [h.result, hresult]
    rfl
  obtain ⟨hgrow, hlt⟩ := hspans.short hshort
  have hle := hspans.reaches.blocks_le
  have hstops := hspans.reaches.stops hcap hgrow
  obtain ⟨n, hoverlaid, ⟨hok, -⟩ | ⟨-, hn, hend⟩⟩ := h.accepted
  · cases hok.symm.trans hresult
  · have hlast : f.position + (data.take n).length = blockSize * laid.entry.blocks.toNat := by
      rw [List.length_take, Nat.min_eq_left (Nat.le_of_lt hn), hend]
    have hroom : blockSize * (v.directory.get f.slot).blocks.toNat ≤ blockSize * laid.entry.blocks.toNat :=
      Nat.mul_le_mul_left _ hle
    have hcount : n = blockSize * laid.entry.blocks.toNat - f.position := by omega
    have hno : r ≠ .ok data.length := fun hok => by cases hr.symm.trans hok
    have hget := h.described.get
    refine ⟨hno, hstops.not_fits hle hlt, ?_⟩
    -- all that is said of the entry is said of the one that was laid out
    refine ⟨hget ▸ hle, hget ▸ hlt, ⟨_, hr, hget ▸ hstops⟩, fun hne => ?_, ?_, ?_, ?_⟩
    · rw [hget] at hne ⊢
      exact hspans.reaches.firstBlock hne
    · rw [hoverlaid.tell, hget, hlast]
    · rw [hoverlaid.size, hget, hlast]
      omega
    · rw [hget, ← hcount]
      exact hoverlaid

/-- **All bytes of a write find room just if the file has the blocks that they need or those that it lacks are vacant.**
Otherwise the file takes those up to the one that stops it, and as many of the bytes as they hold. -/
theorem Reached.room (h : Reached v) (hr : Reliable v.device) (hf : v.handles.file? hd = some f) (hm : f.mode = .write)
    (hne : data ≠ []) : (write hd data : VolumeAction δ Nat).Ensures v fun r w =>
      (r = .ok data.length ↔ v.space.Fits (v.directory.get f.slot) (blocksFor (f.position + data.length))) ∧
        (r = .ok data.length → Fitted v w hd f data) ∧ (r ≠ .ok data.length → FilledUp v w hd f data r) := by
  have hv := h.sound
  have hcap : v.space.total ≤ bitmapCapacity := hv.allocated.total_eq ▸ volumeBlocks_le_bitmapCapacity.2
  have hsize := hv.allocated.size_le f.slot
  have hspans := hv.spans hf data
  have hserved : (write hd data).Ensures v fun r _ => ¬IsIo r := write_not_isIo hv hr hd data
  apply ((write_written hv hf hm data).and hserved).mono
  rintro r w ⟨hw, hio⟩
  have h := hw hio
  generalize v.space.lay (v.directory.get f.slot) f.position (pieces f.position data) = laid at hspans h
  cases hrefusal : laid.refusal with
  | none =>
    obtain ⟨hok, hfits, hfitted⟩ := h.fitted hne hspans hrefusal
    exact ⟨⟨fun _ => hfits, fun _ => hok⟩, fun _ => hfitted, fun hno => absurd hok hno⟩
  | some refusal =>
    obtain ⟨hno, hlack, hfilled⟩ := h.filledUp hcap hsize hspans hrefusal
    exact ⟨⟨fun hok => absurd hok hno, fun hfits => absurd hfits hlack⟩, fun hok => absurd hok hno, fun _ => hfilled⟩

/-! ## A write for which there is room -/

/-- A new volume has room for a block. -/
theorem fits_fresh {e : Entry} (he : e.blocks = 0) : Space.fresh.Fits e 1 := by
  apply (Space.grow_reaches (by decide) (grow_fresh he)).fits
  rw [he]
  rfl

/-- Three bytes are written to a new file, and there is room for them. -/
theorem room_of_run :
    let v := run [.openPath "/a" .write] (formatted (MemoryDisk.blank 1024))
    ∃ hd f, Reached v ∧ Reliable v.device ∧ v.handles.file? hd = some f ∧ f.mode = .write ∧
      (write hd [1, 2, 3] : VolumeAction MemoryDisk Nat).Ensures v fun r w =>
        r = .ok 3 ∧ Fitted v w hd f [1, 2, 3] := by
  have hsize : volumeBlocks ≤ deviceSize (MemoryDisk.blank 1024) := Nat.le_of_eq (MemoryDisk.deviceSize_blank 1024).symm
  have hwritable : Reliable (MemoryDisk.blank 1024) := MemoryDisk.reliable_of_writable rfl
  have hp : Path.ofString? "/a" = some ⟨"/a", by decide, by decide⟩ := by decide
  obtain ⟨hreached, hr, hd, slot, hf⟩ := reached_with_file hsize hwritable hp (by decide) (by decide)
  have hbegun := (begun_of_reliable hsize hwritable).1
  obtain ⟨hspace, hblocks⟩ := unsupplied_of_openPath hbegun "/a" .write
  refine ⟨hd, _, hreached, hr, hf, rfl, ?_⟩
  apply (hreached.room hr hf rfl (List.cons_ne_nil 1 [2, 3])).mono
  rintro r w ⟨hiff, hfitted, -⟩
  have hneed : blocksFor (0 + [(1 : UInt8), 2, 3].length) = 1 := rfl
  have hfits : Space.fresh.Fits _ (blocksFor (0 + [(1 : UInt8), 2, 3].length)) := hneed ▸ fits_fresh (hblocks slot)
  rw [← hspace] at hfits
  have hok := hiff.mpr hfits
  exact ⟨hok, hfitted hok⟩

end Volume

end BlockVolume
