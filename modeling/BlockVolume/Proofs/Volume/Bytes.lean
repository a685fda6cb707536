import BlockVolume.Proofs.Volume.Transfer
import Mathlib.Algebra.GroupWithZero.Nat

/-!
# `Proofs.Volume.Bytes` — what reading and writing do to a file

A transfer is a list of pieces that each lie in one block. One piece is laid over the contents of the
file, or read out of them, and moves the position past it; over the list these effects add up. A
transfer that ends early has moved the pieces before, and nothing of the one that failed.

## Contents
- `pieces_eq_cons`, `stretches_eq_cons`: what is next of a transfer that is cut at the block boundaries.
- **`Wrote`**: bytes were laid over the contents of a file at its position.
- **`Filled`** with `fillPiece_owned` and `fillPiece_granted`: a block of a file, and what its entry says then.
- **`WriteEnds`** with **`writePiece_cases`** for one piece and **`writePieces_cases`** for a list.
- **`ReadEnds`** with **`readStretch_cases`** and **`readStretches_cases`**, in the same way.
-/

namespace BlockVolume

open BlockVolume.Action Space

/-! ## Cutting a transfer -/

/-- What is next of data that are cut: it fits into the block at the position, and the rest goes behind it. -/
theorem pieces_eq_cons {position : Nat} {data bytes : List UInt8} {rest : List (List UInt8)}
    (h : pieces position data = bytes :: rest) : bytes ≠ [] ∧ position % blockSize + bytes.length ≤ blockSize ∧
      ∃ data', rest = pieces (position + bytes.length) data' := by
  have hmod : position % blockSize < blockSize := Nat.mod_lt _ (by decide)
  have hroom : roomInBlock position = blockSize - position % blockSize := rfl
  rw [pieces] at h
  split at h
  · cases h
  · rename_i hne
    obtain ⟨rfl, rfl⟩ := List.cons.inj h
    have hne : data ≠ [] := fun he => hne (List.isEmpty_iff.mpr he)
    have hpos := List.length_pos_iff.mpr hne
    have hlen : (data.take (roomInBlock position)).length = min (roomInBlock position) data.length := List.length_take
    refine ⟨List.length_pos_iff.mp (by omega), by omega, data.drop (roomInBlock position), ?_⟩
    -- a piece that does not fill its block is the last one
    by_cases hlast : data.length ≤ roomInBlock position
    · rw [List.drop_eq_nil_of_le hlast, pieces, pieces]
      rfl
    · rw [hlen, Nat.min_eq_left (by omega)]

/-- Bytes that fit into the block at the position are one piece. -/
theorem pieces_of_le {position : Nat} {data : List UInt8} (hne : data ≠ []) (hlen : data.length ≤ roomInBlock position) :
    pieces position data = [data] := by
  rw [pieces, if_neg (by simpa using hne)]
  simp only [List.take_of_length_le hlen, List.drop_of_length_le hlen]
  rw [pieces, if_pos (by rfl)]

/-- What is next of a transfer that is cut, in the same way. -/
theorem stretches_eq_cons {position count n : Nat} {rest : List Nat} (h : stretches position count = n :: rest) :
    0 < n ∧ position % blockSize + n ≤ blockSize ∧ n ≤ count ∧ rest = stretches (position + n) (count - n) := by
  have hmod : position % blockSize < blockSize := Nat.mod_lt _ (by decide)
  have hroom : roomInBlock position = blockSize - position % blockSize := rfl
  rw [stretches] at h
  split at h
  · cases h
  · obtain ⟨rfl, rfl⟩ := List.cons.inj h
    exact ⟨by omega, by omega, by omega, rfl⟩

theorem sum_stretches (position count : Nat) : (stretches position count).sum = count := by
  fun_induction stretches position count with
  | case1 position => rfl
  | case2 position count hne n ih =>
    have hn : n ≤ count := Nat.min_le_right _ _
    rw [List.sum_cons, ih]
    omega

namespace Volume

variable {δ : Type} [BlockDevice δ] [LawfulDevice δ] {u v w : Volume δ} {p : Place} {f : OpenFile}

/-! ## Writing -/

/-- `bytes` were laid over the contents of the file `f` at its position, and the position is past them. -/
structure Wrote (v w : Volume δ) (p : Place) (f : OpenFile) (bytes : List UInt8) : Prop where
  contents : w.contents f.slot = splice (v.contents f.slot) f.position bytes
  file : ∃ cache, w.handles.fileAt? p =
    some { f with position := f.position + bytes.length, cache := cache }

namespace Wrote

/-- Nothing was written. -/
theorem nil {cache : Cache} (hc : w.contents f.slot = v.contents f.slot)
    (hp : w.handles.fileAt? p = some { f with cache := cache }) : Wrote v w p f [] :=
  ⟨by rw [splice_nil, hc], cache, hp⟩

/-- What is written next goes behind what was written before. -/
theorem append {cache : Cache} {a b : List UInt8} (hpos : f.position ≤ (u.contents f.slot).length)
    (h : Wrote u v p f a)
    (h' : Wrote v w p { f with position := f.position + a.length, cache := cache } b) :
    Wrote u w p f (a ++ b) := by
  constructor
  · rw [h'.contents, h.contents, splice_splice hpos]
  · obtain ⟨cache', hp⟩ := h'.file
    exact ⟨cache', by rw [hp, List.length_append, Nat.add_assoc]⟩

/-- The size of the file is the larger one of the old size and the end of the bytes. -/
theorem size {bytes : List UInt8} (hpos : f.position ≤ (v.directory.get f.slot).size.toNat)
    (h : Wrote v w p f bytes) : (w.directory.get f.slot).size.toNat =
      max (v.directory.get f.slot).size.toNat (f.position + bytes.length) := by
  rw [← length_contents w, h.contents, length_splice (by rw [length_contents]; exact hpos), length_contents]

end Wrote

/-- The kinds of steps that writing to the file in a slot takes. -/
def writing (slot : Slot) : List Change := [.writeBack, .load, .grow slot, .put slot]

/-- Puts bytes that lie in one block of a file into the cache, once the file has the block. -/
def fillPiece (place : Place) (file : OpenFile) (fresh : Bool) (bytes : List UInt8) : VolumeAction δ Unit := do
  let block ← blockOf ((← Action.get).directory.get file.slot) (file.position / blockSize)
  targetBlock place block fresh (bytes.length = blockSize)
  let cache := (← (← Action.get).fileAt place).cache
  let position := file.position + bytes.length
  if UInt32.size ≤ position then
    throw .outOfBounds
  Action.modify fun v =>
    let entry := v.directory.get file.slot
    { v with
      handles := v.handles.modifyFile place fun f =>
        { f with
          position := position
          cache := ⟨cache.block, true, cache.data.overlay (file.position % blockSize) bytes⟩ }
      directory := v.directory.set file.slot
        { entry with size := UInt32.ofNat (max entry.size.toNat position) } }

omit [LawfulDevice δ] in
/-- A piece is written in two parts: the file gains a block if the piece needs one, and is filled. -/
theorem ensures_writePiece {bytes : List UInt8} (hp : v.handles.fileAt? p = some f)
    {post : Except Error Unit → Volume δ → Prop} : (writePiece p bytes).Ensures v post ↔
      if (v.directory.get f.slot).blocks.toNat ≤ f.position / blockSize then
        (growEntry f.slot >>= fun _ => fillPiece p f true bytes).Ensures v post
      else (fillPiece p f false bytes).Ensures v post := by
  unfold writePiece fillPiece
  by_cases hfresh : (v.directory.get f.slot).blocks.toNat ≤ f.position / blockSize
  · simp only [ensures_bind, ensures_get, ensures_liftM, fileAt_eq_ok hp, if_pos hfresh,
      decide_eq_true hfresh]
  · simp only [ensures_bind, ensures_get, ensures_liftM, fileAt_eq_ok hp, if_neg hfresh,
      decide_eq_false hfresh]

/-- The space is `s` afterwards, the entry in the slot is `e`, and all other entries are as they were. -/
structure Described (v w : Volume δ) (slot : Slot) (s : Space) (e : Entry) : Prop where
  space : w.space = s
  directory : w.directory = v.directory.set slot e

/-- How filling a block of a file may end. The bytes lie over the contents and the entry counts them, or the
device refused a request and both are as they were. -/
inductive Filled (v w : Volume δ) (p : Place) (f : OpenFile) (bytes : List UInt8) : Except Error Unit → Prop
  | done : Wrote v w p f bytes →
      Described v w f.slot v.space (putEntry (v.directory.get f.slot) (f.position + bytes.length)) →
      Filled v w p f bytes (.ok ())
  | io {d : DeviceError} : Wrote v w p f [] → Described v w f.slot v.space (v.directory.get f.slot) →
      Filled v w p f bytes (.error (.io d))

/-- Filling a piece either lays the bytes over the contents or leaves them as they are. -/
theorem fillPiece_cases (h : v.Sound) (hp : v.handles.fileAt? p = some f) (hm : f.mode = .write)
    {fresh : Bool} {bytes : List UInt8} {b : Nat}
    (hb : b = (v.directory.get f.slot).firstBlock.toNat + f.position / blockSize)
    (hown : owns (v.directory.get f.slot) b = true)
    (hfit : f.position % blockSize + bytes.length ≤ blockSize)
    (hfresh : fresh = true → (v.directory.get f.slot).size.toNat ≤ f.position ∧ f.position % blockSize = 0) :
    (fillPiece p f fresh bytes).Ensures v fun r w =>
      Walk (writing f.slot) [.fault] v r w ∧ Filled v w p f bytes r := by
  have hend := Sound.end_le_run (hb ▸ hown) hfit
  have hlt : ¬UInt32.size ≤ f.position + bytes.length :=
    Nat.not_le.mpr (Nat.lt_of_le_of_lt hend (h.run_size_lt f.slot))
  have hblock : b < UInt32.size := Nat.lt_trans (h.allocated.owned_bounds hown).2 (by decide)
  have hwhole : bytes.length = blockSize → f.position % blockSize = 0 := fun hl => by omega
  unfold fillPiece blockOf
  simp only [ensures_bind, ensures_get, ensures_liftM, ← hb, if_pos hblock]
  apply (targetBlock_cases h hp hown hfresh hwhole).mono
  rintro r w (⟨rfl, u, cache, cache', htrace, hu, hcached, hbase, rfl⟩ | ⟨hio, hwalk, cache, hfile⟩)
  · have hsu := htrace.sound h
    obtain ⟨hdir, hcontents⟩ := htrace.unnoticed h (by simp [Change.isQuiet])
    have hspace := (htrace.description_eq (by simp [Change.describes])).1
    simp only [fileAt_eq_ok (fileAt?_editFile hu), if_neg hlt, ensures_modify]
    -- the cache is set twice, and only the second time counts
    have hput : (u.editFile p fun g => { g with cache := cache' }).handles.modifyFile p (fun g =>
        { g with
          position := f.position + bytes.length
          cache := ⟨cache'.block, true, cache'.data.overlay (f.position % blockSize) bytes⟩ }) =
        u.handles.modifyFile p fun g => putFile g b cache'.data bytes := by
      refine (Pool.modifyFile_modifyFile _ _ _ _).trans (Pool.modifyFile_congr hu ?_)
      simp only [Function.comp_apply, putFile, hcached]
    rw [hput]
    have hstep := Step.put (f := { f with cache := cache }) (b := b) hu hm (by rw [hdir]; exact hb)
      (hdir ▸ hown) hfit (hdir ▸ hbase)
    have hlaid := contents_put (f := { f with cache := cache }) (b := b) hsu hu hm (by rw [hdir]; exact hb)
      (hdir ▸ hown) hfit (hdir ▸ hbase)
    have hsub : ∀ c, c ∈ [Change.writeBack, .load] → c ∈ writing f.slot := by simp [writing]
    refine ⟨⟨.tail (htrace.mono fun c hc => Or.inl (hsub c hc)) hstep (by simp [writing]), ?_⟩,
      .done ⟨hcontents f.slot ▸ hlaid, _, (fileAt?_editFile hu :)⟩ ⟨hspace, ?_⟩⟩
    · intro hio
      exact absurd hio (not_isIo_ok _)
    · rw [← hdir]
      rfl
  · obtain ⟨d, rfl⟩ := hio
    obtain ⟨hdir, hcontents⟩ := hwalk.unnoticed h (by simp [Change.isQuiet]) (by simp [Change.isQuiet])
    have hspace := (hwalk.description_eq (by simp [Change.describes]) (by simp [Change.describes])).1
    refine ⟨hwalk.congr (by simp) |>.mono (by simp [writing]) (by simp),
      .io (.nil (hcontents f.slot) hfile) ⟨hspace, ?_⟩⟩
    rw [hdir, Directory.set_get]

/-- The block at the position is filled if the file has it. -/
theorem fillPiece_owned (h : v.Sound) (hp : v.handles.fileAt? p = some f) (hm : f.mode = .write) {bytes : List UInt8}
    (hfit : f.position % blockSize + bytes.length ≤ blockSize)
    (hlast : f.position / blockSize < (v.directory.get f.slot).blocks.toNat) :
    (fillPiece p f false bytes).Ensures v fun r w =>
      Walk (writing f.slot) [.fault] v r w ∧ Filled v w p f bytes r := by
  have hown := owns_iff.mpr ⟨Nat.le_add_right _ _, Nat.add_lt_add_left hlast
    (v.directory.get f.slot).firstBlock.toNat⟩
  exact fillPiece_cases h hp hm rfl hown hfit fun he => by cases he

/-- A file that lacks the block at the position ends there, and fills the block that it is granted. -/
theorem fillPiece_granted (h : v.Sound) (hp : v.handles.fileAt? p = some f) (hm : f.mode = .write)
    {bytes : List UInt8} {g : Grant} (hfit : f.position % blockSize + bytes.length ≤ blockSize)
    (hlack : (v.directory.get f.slot).blocks.toNat ≤ f.position / blockSize)
    (hg : v.space.grow (v.directory.get f.slot) = .ok g) :
    let u := { v with space := g.space, directory := v.directory.set f.slot g.entry }
    (fillPiece p f true bytes).Ensures u fun r w =>
      Walk (writing f.slot) [.fault] u r w ∧ Filled u w p f bytes r := by
  intro u
  obtain ⟨-, -, -, -, he⟩ := grow_eq_ok hg
  have hpos := (h.coherent hp).position_le
  have hsize : (v.directory.get f.slot).size.toNat ≤ 512 * (v.directory.get f.slot).blocks.toNat :=
    h.allocated.size_le f.slot
  have hlack' : (v.directory.get f.slot).blocks.toNat ≤ f.position / 512 := hlack
  have hentry : u.directory.get f.slot = g.entry := by
    show (v.directory.set f.slot g.entry).get f.slot = _
    rw [Directory.get_set, if_pos rfl]
  have hblocks := he.blocks
  have hlast : f.position / blockSize < (u.directory.get f.slot).blocks.toNat := by
    rw [hentry]
    show f.position / 512 < _
    omega
  have hown := owns_iff.mpr ⟨Nat.le_add_right _ _, Nat.add_lt_add_left hlast
    (u.directory.get f.slot).firstBlock.toNat⟩
  refine fillPiece_cases (h.of_grow hp hg) hp hm rfl hown hfit fun _ => ⟨?_, ?_⟩
  · rw [hentry, he.size]
    show _ ≤ f.position
    omega
  · show f.position % 512 = 0
    omega

/-- How writing `bytes` may end. They are all in the file, or those are that fit into the run as it is in
the end, or the device refused a request before the last of them. -/
inductive WriteEnds (v w : Volume δ) (p : Place) (f : OpenFile) (bytes : List UInt8) : Except Error Unit → Prop
  | done : Wrote v w p f bytes → WriteEnds v w p f bytes (.ok ())
  | full {e : Error} {k : Nat} : e = .diskFull ∨ e = .fragmented → k < bytes.length →
      Wrote v w p f (bytes.take k) → f.position + k = blockSize * (w.directory.get f.slot).blocks.toNat →
      WriteEnds v w p f bytes (.error e)
  | io {d : DeviceError} {k : Nat} : k < bytes.length → Wrote v w p f (bytes.take k) →
      WriteEnds v w p f bytes (.error (.io d))

/-- How writing ends after some bytes were written already. -/
theorem WriteEnds.append {cache : Cache} {a b : List UInt8} {r : Except Error Unit}
    (hpos : f.position ≤ (u.contents f.slot).length) (h : Wrote u v p f a)
    (h' : WriteEnds v w p { f with position := f.position + a.length, cache := cache } b r) :
    WriteEnds u w p f (a ++ b) r := by
  cases h' with
  | done hw => exact .done (h.append hpos hw)
  | @full _ k he hk hw hrun =>
    refine .full he (k := a.length + k) ?_ ?_ ((Nat.add_assoc _ _ _).symm.trans hrun)
    · rw [List.length_append]
      omega
    · rw [List.take_length_add_append]
      exact h.append hpos hw
  | @io _ k hk hw =>
    refine .io (k := a.length + k) ?_ ?_
    · rw [List.length_append]
      omega
    · rw [List.take_length_add_append]
      exact h.append hpos hw

/-- **A piece is laid over the contents, or nothing of it is.** -/
theorem writePiece_cases (h : v.Sound) (hp : v.handles.fileAt? p = some f) (hm : f.mode = .write)
    {bytes : List UInt8} (hne : 0 < bytes.length) (hfit : f.position % blockSize + bytes.length ≤ blockSize) :
    (writePiece p bytes).Ensures v fun r w =>
      Walk (writing f.slot) [.fault] v r w ∧ WriteEnds v w p f bytes r := by
  rw [ensures_writePiece hp]
  by_cases hlack : (v.directory.get f.slot).blocks.toNat ≤ f.position / blockSize
  · -- the position is at the end of the run, and the file needs one more block
    rw [if_pos hlack, ensures_bind, ensures_growEntry]
    cases hg : v.space.grow (v.directory.get f.slot) with
    | ok g =>
      have hstep := Step.grow hp hm hg
      have hgrow : Walk (writing f.slot) [.fault] v (.ok () : Except Error Unit) _ :=
        .step hstep (by simp [writing]) (not_isIo_ok _)
      have hcontents : Volume.contents _ f.slot = v.contents f.slot := hstep.contents_eq h rfl
      apply (fillPiece_granted h hp hm hfit hlack hg).mono
      rintro r w ⟨hwalk, hfilled⟩
      refine ⟨hgrow.after hwalk, ?_⟩
      cases hfilled with
      | done hw _ => exact .done ⟨hcontents ▸ hw.contents, hw.file⟩
      | io hw _ => exact .io hne ⟨hcontents ▸ hw.contents, hw.file⟩
    | error refusal =>
      -- no block could be had, and the position is at the end of the run already
      have hrun : f.position + 0 = blockSize * (v.directory.get f.slot).blocks.toNat := by
        have hpos := (h.coherent hp).position_le
        have hsize : (v.directory.get f.slot).size.toNat ≤ 512 * (v.directory.get f.slot).blocks.toNat :=
          h.allocated.size_le f.slot
        have hlack' : (v.directory.get f.slot).blocks.toNat ≤ f.position / 512 := hlack
        show f.position + 0 = 512 * _
        omega
      have herror := error_of_grow_eq_error hg (h.allocated.total_eq ▸ volumeBlocks_le_bitmapCapacity.2)
      refine ⟨.refl ?_, .full herror hne (.nil rfl hp) hrun⟩
      rcases herror with he | he <;> simp [he]
  · rw [if_neg hlack]
    apply (fillPiece_owned h hp hm hfit (Nat.lt_of_not_le hlack)).mono
    rintro r w ⟨hwalk, hfilled⟩
    refine ⟨hwalk, ?_⟩
    cases hfilled with
    | done hw _ => exact .done hw
    | io hw _ => exact .io hne hw

/-- **Pieces are laid over the contents one after the other, as far as it goes.** -/
theorem writePieces_cases {position : Nat} {data : List UInt8} (h : v.Sound)
    (hp : v.handles.fileAt? p = some f) (hm : f.mode = .write) (hposition : f.position = position) :
    (writePieces p (pieces position data)).Ensures v fun r w =>
      Walk (writing f.slot) [.fault] v r w ∧ WriteEnds v w p f data r := by
  -- each piece is written to the volume that the ones before it have left, at the position past them
  fun_induction pieces position data generalizing v f with
  | case1 position data hempty =>
    have hnil : data = [] := List.isEmpty_iff.mp hempty
    subst hnil
    exact ⟨.refl (not_isIo_ok _), .done (.nil rfl hp)⟩
  | case2 position data hempty n =>
    rename_i ih
    have hne : data ≠ [] := fun he => hempty (List.isEmpty_iff.mpr he)
    have hroom : n = blockSize - position % blockSize := rfl
    have hlen : (data.take n).length = min n data.length := List.length_take
    have hmod : position % blockSize < blockSize := Nat.mod_lt _ (by decide)
    have hpos : f.position ≤ (v.contents f.slot).length := by
      rw [length_contents]
      exact (h.coherent hp).position_le
    unfold writePieces
    apply ensures_walk_bind
    refine (writePiece_cases h hp hm ?_ ?_).mono ?_
    · have := List.length_pos_iff.mpr hne
      omega
    · rw [hposition]
      omega
    · intro r w hr
      obtain ⟨hwalk, hends⟩ := hr
      refine ⟨hwalk, ?_⟩
      cases hends with
      | done hw =>
        obtain ⟨cache, hp'⟩ := hw.file
        by_cases hrest : data.drop n = []
        · have hall : data.take n = data := List.take_of_length_le (List.drop_eq_nil_iff.mp hrest)
          rw [hrest, pieces]
          exact ⟨.refl (not_isIo_ok _), .done (hall ▸ hw)⟩
        · have hn : (data.take n).length = n := by
            have := mt List.drop_eq_nil_iff.mpr hrest
            omega
          apply (ih (hwalk.sound h) hp' hm (by simp only [hn, hposition])).mono
          intro r w' hr
          refine ⟨hr.1, ?_⟩
          have hends := WriteEnds.append hpos hw hr.2
          rwa [List.take_append_drop] at hends
      -- what is in the file of a piece that failed is a part of the whole as well
      | @full _ k he hk hw hrun =>
        have hk' : k < data.length := by omega
        have htake : (data.take n).take k = data.take k := by rw [List.take_take, Nat.min_eq_left (by omega)]
        exact .full he hk' (htake ▸ hw) hrun
      | @io _ k hk hw =>
        have hk' : k < data.length := by omega
        have htake : (data.take n).take k = data.take k := by rw [List.take_take, Nat.min_eq_left (by omega)]
        exact .io hk' (htake ▸ hw)

/-! ## Reading -/

/-- The kinds of steps that reading takes. -/
def reading : List Change := [.load, .place]

/-- Part of a block, as users see it, is part of the contents. -/
theorem slice_current {slot : Slot} {position count : Nat}
    (hin : position + count ≤ (v.directory.get slot).size.toNat)
    (hfit : position % blockSize + count ≤ blockSize) :
    (v.current ((v.directory.get slot).firstBlock.toNat + position / blockSize)).slice
        (position % blockSize) count = ((v.contents slot).drop position).take count := by
  refine List.ext_getElem? ?_
  intro i
  by_cases hi : i < count
  · rw [List.getElem?_take_of_lt hi, List.getElem?_drop, getElem?_contents, if_pos (by omega), byteAt]
    have hfit' : position % 512 + count ≤ 512 := hfit
    have hdiv : (position + i) / blockSize = position / blockSize := by
      show (position + i) / 512 = position / 512
      omega
    have hmod : (position + i) % blockSize = position % blockSize + i := by
      show (position + i) % 512 = position % 512 + i
      omega
    rw [hdiv, hmod]
    simp [Block.slice, hi]
  · rw [List.getElem?_eq_none (by rw [Block.length_slice]; omega),
      List.getElem?_eq_none (by rw [List.length_take]; omega)]

/-- How reading `count` bytes ends: with these bytes of the contents and the position past them, or with
an I/O error. -/
def ReadEnds (v w : Volume δ) (p : Place) (f : OpenFile) (count : Nat) (r : Except Error (List UInt8)) : Prop :=
  (r = .ok (((v.contents f.slot).drop f.position).take count) ∧
    ∃ cache, w.handles.fileAt? p = some { f with position := f.position + count, cache := cache }) ∨ IsIo r

/-- **A stretch is read out of the contents.** -/
theorem readStretch_cases (h : v.Sound) (hp : v.handles.fileAt? p = some f) (hm : f.mode = .read) {count : Nat}
    (hcount : 0 < count) (hin : f.position + count ≤ (v.directory.get f.slot).size.toNat)
    (hfit : f.position % blockSize + count ≤ blockSize) :
    (readStretch p count).Ensures v fun r w =>
      Walk reading [.fault] v r w ∧ ReadEnds v w p f count r := by
  have hsize : (v.directory.get f.slot).size.toNat ≤ 512 * (v.directory.get f.slot).blocks.toNat :=
    h.allocated.size_le f.slot
  have hlogical : f.position / blockSize < (v.directory.get f.slot).blocks.toNat := by
    show f.position / 512 < _
    omega
  have hown := owns_iff.mpr ⟨Nat.le_add_right _ _, Nat.add_lt_add_left hlogical
    (v.directory.get f.slot).firstBlock.toNat⟩
  have hblock : (v.directory.get f.slot).firstBlock.toNat + f.position / blockSize < UInt32.size :=
    Nat.lt_trans (h.allocated.owned_bounds hown).2 (by decide)
  have hclean : f.cache.dirty = false := by
    apply Bool.eq_false_iff.mpr
    intro hd
    cases hm.symm.trans ((h.coherent hp).dirty hd).1
  unfold readStretch blockOf
  simp only [ensures_bind, ensures_get, ensures_liftM, fileAt_eq_ok hp, if_neg (Nat.not_le.mpr hlogical),
    if_pos hblock]
  apply (loadBlock_cases h hp hown (Or.inr hclean)).mono
  rintro r w ⟨hwalk, cache, hp', ⟨rfl, hb⟩ | hio⟩
  · have hwalk' : Walk reading [.fault] v (.ok () : Except Error Unit) w :=
      hwalk.mono (by simp [reading]) (by simp)
    obtain ⟨hdir, hcontents⟩ := hwalk.unnoticed h (by simp [Change.isQuiet]) (by simp [Change.isQuiet])
    simp only [fileAt_eq_ok hp', ensures_modify, ensures_pure]
    have hplace : Step .place w (w.editFile p fun f => { f with position := f.position + count }) := by
      have hsame : (w.editFile p fun f => { f with position := f.position + count }) =
          w.editFile p fun g => { g with position := f.position + count } := editFile_congr hp' rfl
      rw [hsame]
      exact .place hp' (hdir ▸ hin)
    refine ⟨hwalk'.after (.step hplace (by simp [reading]) (not_isIo_ok _)),
      Or.inl ⟨congrArg Except.ok ?_, cache, (fileAt?_editFile hp' :)⟩⟩
    rw [← hcontents, ← slice_current (hdir ▸ hin) hfit]
    have hseen := current_of_cached (hwalk.sound h) hp' hb
    rw [← hdir] at hseen
    rw [hseen]
  · cases r with
    | ok a => exact absurd hio (not_isIo_ok a)
    | error e =>
      obtain ⟨d, rfl⟩ := isIo_error.mp hio
      exact ⟨(hwalk.congr (by simp)).mono (by simp [reading]) (by simp), Or.inr (isIo_io d)⟩

/-- **Stretches are read out of the contents one after the other.** -/
theorem readStretches_cases {position count : Nat} (h : v.Sound) (hp : v.handles.fileAt? p = some f)
    (hm : f.mode = .read) (hposition : f.position = position)
    (hin : f.position + count ≤ (v.directory.get f.slot).size.toNat) :
    (readStretches p (stretches position count)).Ensures v fun r w =>
      Walk reading [.fault] v r w ∧ ReadEnds v w p f count r := by
  fun_induction stretches position count generalizing v f with
  | case1 position =>
    exact ⟨.refl (not_isIo_ok _), Or.inl ⟨by rw [List.take_zero]; rfl, f.cache, hp⟩⟩
  | case2 position count hne n =>
    rename_i ih
    have hmod : position % blockSize < blockSize := Nat.mod_lt _ (by decide)
    have hn : n = min (blockSize - position % blockSize) count := rfl
    unfold readStretches
    apply ensures_walk_bind
    have hfirst : f.position + n ≤ (v.directory.get f.slot).size.toNat := by omega
    have hfit : f.position % blockSize + n ≤ blockSize := by
      rw [hposition]
      omega
    refine (readStretch_cases h hp hm ?_ hfirst hfit).mono ?_
    · omega
    · intro r w hr
      refine ⟨hr.1, ?_⟩
      obtain ⟨hwalk, ⟨rfl, cache, hp'⟩ | ⟨d, rfl⟩⟩ := hr
      · obtain ⟨hdir, hcontents⟩ :=
          hwalk.unnoticed h (by simp [reading, Change.isQuiet]) (by simp [Change.isQuiet])
        have hin' : f.position + n + (count - n) ≤ (w.directory.get f.slot).size.toNat := by
          rw [hdir]
          omega
        apply ensures_walk_bind
        apply (ih (hwalk.sound h) hp' hm (by rw [hposition]) hin').mono
        intro r w' hr
        refine ⟨hr.1, ?_⟩
        obtain ⟨-, ⟨rfl, cache', hp''⟩ | ⟨d, rfl⟩⟩ := hr
        · have hsum : n + (count - n) = count := by omega
          refine ensures_pure.mpr ⟨.refl (not_isIo_ok _), Or.inl ⟨congrArg Except.ok ?_, cache', ?_⟩⟩
          · rw [hcontents, ← List.drop_drop, ← List.take_add, hsum]
          · rw [← hsum, ← Nat.add_assoc]
            exact hp''
        · exact Or.inr (isIo_io d)
      · exact Or.inr (isIo_io d)

end Volume

end BlockVolume
