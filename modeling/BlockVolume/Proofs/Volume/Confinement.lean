import BlockVolume.Proofs.Volume.Append
import BlockVolume.Proofs.Volume.Mountable
import BlockVolume.Proofs.Volume.Requests
import BlockVolume.Proofs.Volume.Settled
import BlockVolume.Proofs.Volume.Tenure

/-!
# `Proofs.Volume.Confinement` — where the caches of a file are written

The entries of a volume that is mounted are not checked, so an entry may claim more bytes than it has blocks for.
Reading notices that. Writing does not: it gives the file the block after its run and puts the bytes where its
size says, which may be in the run of another file. A cache stays within what the size of its entry covers,
whatever the device and its blocks are like; so it stays in the run of an entry that is tidy.

## Contents
- **`Entry.Covers`**, **`Entry.Tidy`**: where the bytes of an entry lie, and that it has blocks for them.
- **`Confined`**: what holds of all open files; `writePiece_confined`, `readStretches_confined`, and one lemma for
  each operation.
- **`run_confined`**, with a new file that is written into its own run, and the image on which a file is written into
  the run of another.
-/

namespace BlockVolume

open BlockVolume.Action Space

/-! ## Entries and open files -/

namespace Entry

/-- The bytes of an entry, laid out from its first block on, reach into the block. -/
def Covers (e : Entry) (b : Nat) : Prop :=
  e.firstBlock.toNat ≤ b ∧ blockSize * (b - e.firstBlock.toNat) < e.size.toNat

/-- An entry has blocks for its bytes, and none of those that describe the volume. -/
structure Tidy (e : Entry) : Prop where
  size_le : e.size.toNat ≤ blockSize * e.blocks.toNat
  first_le : e.blocks.toNat ≠ 0 → firstDataBlock ≤ e.firstBlock.toNat

/-- What the bytes of a tidy entry cover is its run. -/
theorem Tidy.owned {e : Entry} (h : e.Tidy) {b : Nat} (hb : e.Covers b) : owns e b = true ∧ firstDataBlock ≤ b := by
  obtain ⟨hle, hlt⟩ := hb
  have hin : b - e.firstBlock.toNat < e.blocks.toNat := Nat.lt_of_mul_lt_mul_left (Nat.lt_of_lt_of_le hlt h.size_le)
  have hfirst := h.first_le (by omega)
  exact ⟨owns_iff.mpr ⟨hle, by omega⟩, by omega⟩

/-- An entry without bytes and blocks is tidy. -/
theorem Tidy.of_blank {e : Entry} (hs : e.size = 0) (hb : e.blocks = 0) : e.Tidy where
  size_le := by rw [hs]; exact Nat.zero_le _
  first_le h := absurd (by rw [hb]; rfl) h

/-- One more block leaves it tidy. -/
theorem Tidy.grow {e : Entry} {s : Space} {g : Grant} (h : e.Tidy) (hg : s.grow e = .ok g) : g.entry.Tidy := by
  obtain ⟨-, -, -, hfirst, he⟩ := grow_eq_ok hg
  refine ⟨?_, fun _ => ?_⟩
  · rw [he.size, he.blocks]
    exact Nat.le_trans h.size_le (Nat.mul_le_mul_left _ (Nat.le_succ _))
  · by_cases h0 : e.blocks.toNat = 0
    · have hlast := he.last
      rw [h0, Nat.add_zero] at hlast
      rw [hlast]
      exact hfirst h0
    · rw [he.first h0]
      exact h.first_le h0

end Entry

/-- The open file keeps to its entry: it is not past the end, and what it has to write back is covered. -/
structure OpenFile.Within (e : Entry) (f : OpenFile) : Prop where
  position_le : f.position ≤ e.size.toNat
  pending {b : Nat} : f.cache.pending? = some b → e.blocks.toNat ≠ 0 ∧ e.Covers b

namespace OpenFile.Within

variable {e e' : Entry} {f : OpenFile}

/-- The entry may gain bytes and blocks. -/
theorem of_entry (h : f.Within e) (hs : e.size.toNat ≤ e'.size.toNat)
    (hr : e.blocks.toNat ≠ 0 → e'.blocks.toNat ≠ 0 ∧ e'.firstBlock.toNat = e.firstBlock.toNat) : f.Within e' where
  position_le := Nat.le_trans h.position_le hs
  pending hb := by
    obtain ⟨hblocks, hle, hlt⟩ := h.pending hb
    obtain ⟨hblocks', hfirst⟩ := hr hblocks
    unfold Entry.Covers
    rw [hfirst]
    exact ⟨hblocks', hle, Nat.lt_of_lt_of_le hlt hs⟩

/-- A file opened just now has nothing to write back. -/
theorem start (e : Entry) (slot : Slot) (mode : Mode) : (OpenFile.start slot mode).Within e :=
  ⟨Nat.zero_le _, fun hb => by cases hb⟩

end OpenFile.Within

namespace Volume

variable {δ α : Type} {v w : Volume δ} {tracked : Slot → Prop} {p : Place} {f : OpenFile}

variable [BlockDevice δ]

/-! ## All open files -/

/-- Open files keep to their entries, and while the volume is mounted the entries in the tracked slots are tidy. -/
structure Confined (tracked : Slot → Prop) (v : Volume δ) : Prop where
  within {p : Place} {f : OpenFile} : v.handles.fileAt? p = some f → f.Within (v.directory.get f.slot)
  tidy : v.mounted = true → ∀ slot, tracked slot → (v.directory.get slot).Tidy

namespace Confined

omit [BlockDevice δ]

/-- What leaves less to write back, and entries as they are, leaves files confined. -/
theorem settled (h : Confined tracked v) (hs : Settled v w) : Confined tracked w where
  within hf' := by
    obtain ⟨f, hf, hslot, hposition, hpending⟩ := hs.file hf'
    rw [hs.directory, hslot]
    exact ⟨hposition ▸ (h.within hf).position_le, fun hb => (h.within hf).pending (hpending _ hb)⟩
  tidy hm := by
    rw [hs.directory]
    exact h.tidy (hs.mounted.symm.trans hm)

/-- Without open files only the tracked entries count. -/
theorem of_no_files (hnone : ∀ p, v.handles.fileAt? p = none)
    (htidy : v.mounted = true → ∀ slot, tracked slot → (v.directory.get slot).Tidy) : Confined tracked v where
  within hf := by cases (hnone _).symm.trans hf
  tidy := htidy

/-- An open file is changed and keeps to its entry. -/
theorem edit (h : Confined tracked v) {g : OpenFile → OpenFile} (hp : v.handles.fileAt? p = some f)
    (hslot : (g f).slot = f.slot) (hfile : (g f).Within (v.directory.get f.slot)) :
    Confined tracked { v with handles := v.handles.modifyFile p g } where
  within {q f'} hf' := by
    rw [Pool.fileAt?_modifyFile] at hf'
    split at hf'
    · rename_i hq
      rw [hq, hp] at hf'
      obtain rfl : g f = f' := Option.some.inj hf'
      exact hslot ▸ hfile
    · exact h.within hf'
  tidy := h.tidy

/-- An entry gains bytes and blocks. -/
theorem extend (h : Confined tracked v) {slot : Slot} {e : Entry} (s : Space)
    (hs : (v.directory.get slot).size.toNat ≤ e.size.toNat)
    (hr : (v.directory.get slot).blocks.toNat ≠ 0 → e.blocks.toNat ≠ 0 ∧
      e.firstBlock.toNat = (v.directory.get slot).firstBlock.toNat)
    (ht : tracked slot → (v.directory.get slot).Tidy → e.Tidy) :
    Confined tracked { v with space := s, directory := v.directory.set slot e } where
  within {p f} hf := by
    show f.Within ((v.directory.set slot e).get f.slot)
    rw [Directory.get_set]
    split
    · rename_i hslot
      exact (hslot ▸ h.within hf).of_entry hs hr
    · exact h.within hf
  tidy hm i hi := by
    show ((v.directory.set slot e).get i).Tidy
    rw [Directory.get_set]
    split
    · rename_i hslot
      subst hslot
      exact ht hi (h.tidy hm i hi)
    · exact h.tidy hm i hi

/-- An entry that no open file belongs to is replaced by one without bytes and blocks. -/
theorem replace (h : Confined tracked v) {slot : Slot} {e : Entry} (s : Space)
    (hfree : ∀ p f, v.handles.fileAt? p = some f → f.slot ≠ slot) (hs : e.size = 0) (hb : e.blocks = 0) :
    Confined tracked { v with space := s, directory := v.directory.set slot e } where
  within {p f} hf := by
    show f.Within ((v.directory.set slot e).get f.slot)
    rw [Directory.get_set, if_neg (hfree p f hf)]
    exact h.within hf
  tidy hm i hi := by
    show ((v.directory.set slot e).get i).Tidy
    rw [Directory.get_set]
    split
    · exact .of_blank hs hb
    · exact h.tidy hm i hi

/-- Bytes that end at `n` go into the cache of a file, which has to write back the block that they lie in. -/
theorem put (h : Confined tracked v) (hp : v.handles.fileAt? p = some f) {g : OpenFile → OpenFile} {n : Nat}
    (hlt : n < UInt32.size) (hslot : (g f).slot = f.slot) (hposition : (g f).position = n)
    (hpending : ∀ b, (g f).cache.pending? = some b → (v.directory.get f.slot).blocks.toNat ≠ 0 ∧
      (v.directory.get f.slot).firstBlock.toNat ≤ b ∧
      blockSize * (b - (v.directory.get f.slot).firstBlock.toNat) < n)
    (hroom : tracked f.slot → n ≤ blockSize * (v.directory.get f.slot).blocks.toNat) :
    Confined tracked { v with
      handles := v.handles.modifyFile p g
      directory := v.directory.set f.slot (putEntry (v.directory.get f.slot) n) } := by
  have hsize := toNat_putEntry_size (e := v.directory.get f.slot) hlt
  have hgrown : Confined tracked { v with
      directory := v.directory.set f.slot (putEntry (v.directory.get f.slot) n) } := by
    refine h.extend v.space (by rw [hsize]; exact Nat.le_max_left _ _) (fun h0 => ⟨h0, rfl⟩) fun ht htidy => ?_
    refine ⟨?_, htidy.first_le⟩
    rw [hsize]
    exact Nat.max_le.mpr ⟨htidy.size_le, hroom ht⟩
  refine hgrown.edit hp hslot ?_
  show OpenFile.Within ((v.directory.set f.slot _).get f.slot) _
  rw [Directory.get_set, if_pos rfl]
  refine ⟨?_, fun {b} hb => ?_⟩
  · rw [hsize, hposition]
    exact Nat.le_max_right _ _
  · obtain ⟨hblocks, hle, hb'⟩ := hpending b hb
    refine ⟨hblocks, hle, ?_⟩
    rw [hsize]
    exact Nat.lt_of_lt_of_le hb' (Nat.le_max_right _ _)

end Confined

/-- What an operation asks of the device leaves files confined. -/
theorem storeMetadata_confined (h : Confined tracked v) :
    (storeMetadata : VolumeAction δ Unit).Ensures v fun _ w => Confined tracked w :=
  (storeMetadata_settled v).mono fun _ _ hs => h.settled hs

/-! ## Writing -/

/-- The file at a place has blocks for the bytes that go into it, if its entry is tracked. -/
theorem fillPiece_confined (h : Confined tracked v) (hp : v.handles.fileAt? p = some f) {fresh : Bool}
    {bytes : List UInt8} (hne : bytes ≠ []) (hblocks : (v.directory.get f.slot).blocks.toNat ≠ 0)
    (hroom : tracked f.slot → f.position + bytes.length ≤ blockSize * (v.directory.get f.slot).blocks.toNat) :
    (fillPiece p f fresh bytes).Ensures v fun r w => Confined tracked w ∧ w.mounted = v.mounted ∧
      (r = .ok () → ∃ f', w.handles.fileAt? p = some f' ∧ f'.position = f.position + bytes.length) := by
  unfold fillPiece
  simp only [ensures_bind (x := get), ensures_get, ensures_bind (x := liftM _), ensures_liftM]
  cases hb : blockOf (v.directory.get f.slot) (f.position / blockSize) with
  | error e => exact ⟨h, trivial, fun hr => by cases hr⟩
  | ok b =>
    have hblock : b = (v.directory.get f.slot).firstBlock.toNat + f.position / blockSize := by
      unfold blockOf at hb
      dsimp only at hb
      split at hb
      · exact (Except.ok.inj hb).symm
      · cases hb
    refine Ensures.bind ((targetBlock_settled b _ _ v).and (targetBlock_aims b _ _)) ?_
      fun e w hw => ⟨h.settled hw.1, hw.1.mounted, fun hr => by cases hr⟩
    rintro _ u ⟨hs, haim⟩
    simp only [ensures_bind (x := get), ensures_get, ensures_bind (x := liftM _), ensures_liftM, fileAt]
    cases hu : u.handles.fileAt? p with
    | none => exact ⟨h.settled hs, hs.mounted, fun hr => by cases hr⟩
    | some file =>
      have hcached := haim rfl file hu
      obtain ⟨f', hf', hslot, hposition, -⟩ := hs.file hu
      obtain rfl := Option.some.inj (hp.symm.trans hf')
      dsimp only
      split
      · exact ⟨h.settled hs, hs.mounted, fun hr => by cases hr⟩
      · rename_i hlt
        have hend : f.position < f.position + bytes.length :=
          Nat.lt_add_of_pos_right (List.length_pos_iff.mpr hne)
        refine ⟨?_, hs.mounted, fun _ => ⟨_, (fileAt?_editFile hu :), rfl⟩⟩
        rw [← hslot]
        refine (h.settled hs).put hu (Nat.lt_of_not_le hlt) rfl rfl (fun b' hb' => ?_) ?_ <;>
          rw [hs.directory, hslot]
        · obtain rfl : b = b' := Option.some.inj (hcached.symm.trans hb')
          refine ⟨hblocks, by rw [hblock]; exact Nat.le_add_right _ _, ?_⟩
          rw [hblock, Nat.add_sub_cancel_left]
          exact Nat.lt_of_le_of_lt (Nat.mul_div_le _ _) hend
        · exact hroom

omit [BlockDevice δ] in
/-- A file is given a block, or nothing happens. -/
theorem growEntry_confined (h : Confined tracked v) (slot : Slot) :
    (growEntry slot : VolumeAction δ Unit).Ensures v fun r w => Confined tracked w ∧ w.mounted = v.mounted ∧
      w.handles = v.handles ∧
      (r = .ok () → ∃ b, Extends (v.directory.get slot) (w.directory.get slot) b) := by
  unfold growEntry
  simp only [ensures_bind (x := get), ensures_get]
  cases hg : v.space.grow (v.directory.get slot) with
  | error refusal => exact ⟨h, rfl, rfl, fun hr => by cases hr⟩
  | ok g =>
    obtain ⟨-, -, -, -, he⟩ := grow_eq_ok hg
    refine ⟨h.extend g.space (Nat.le_of_eq (by rw [he.size])) (fun h0 => ⟨?_, he.first h0⟩) fun _ ht => ht.grow hg,
      rfl, rfl, fun _ => ⟨g.block, ?_⟩⟩
    · rw [he.blocks]
      exact Nat.succ_ne_zero _
    · show Extends _ ((v.directory.set slot g.entry).get slot) _
      rw [Directory.get_set, if_pos rfl]
      exact he

/-- What holds in each turn of a writer: `l` is what is left of the data, cut at the position. -/
structure Writing (tracked : Slot → Prop) (p : Place) (l : List (List UInt8)) (v : Volume δ) : Prop where
  confined : Confined tracked v
  mounted : v.mounted = true
  file : ∃ f data, v.handles.fileAt? p = some f ∧ l = pieces f.position data

/-- A piece is written, and the next one is in turn. -/
theorem writePiece_confined {bytes : List UInt8} {rest : List (List UInt8)}
    (h : Writing tracked p (bytes :: rest) v) : (writePiece p bytes).Ensures v fun r w =>
      Confined tracked w ∧ (r = .ok () → Writing tracked p rest w) := by
  obtain ⟨f, data, hp, hl⟩ := h.file
  obtain ⟨hne, hfit, data', rfl⟩ := pieces_eq_cons hl.symm
  have hnext {w : Volume δ} {r : Except Error Unit} (hw : Confined tracked w ∧ w.mounted = true ∧
      (r = .ok () → ∃ f', w.handles.fileAt? p = some f' ∧ f'.position = f.position + bytes.length)) :
      Confined tracked w ∧ (r = .ok () → Writing tracked p (pieces (f.position + bytes.length) data') w) := by
    refine ⟨hw.1, fun hr => ?_⟩
    obtain ⟨f', hf', hposition⟩ := hw.2.2 hr
    exact ⟨hw.1, hw.2.1, f', data', hf', by rw [hposition]⟩
  rw [ensures_writePiece hp]
  have hfit' : f.position % 512 + bytes.length ≤ 512 := hfit
  split
  · rename_i hfresh
    have hfresh' : (v.directory.get f.slot).blocks.toNat ≤ f.position / 512 := hfresh
    refine Ensures.bind (growEntry_confined h.confined f.slot) ?_
      fun e w hw => ⟨hw.1, fun hr => by cases hr⟩
    rintro _ w ⟨hw, hm, hhandles, hextends⟩
    obtain ⟨b, he⟩ := hextends rfl
    have hblocks := he.blocks
    -- a file that is tracked has its position in its run, so it lacks no more than one block
    refine (fillPiece_confined hw (hhandles ▸ hp) hne (by omega) fun ht => ?_).mono fun r w' hw' =>
      hnext ⟨hw'.1, hw'.2.1.trans (hm.trans h.mounted), hw'.2.2⟩
    have hsize := (h.confined.tidy h.mounted f.slot ht).size_le
    have hposition := (h.confined.within hp).position_le
    have hsize' : (v.directory.get f.slot).size.toNat ≤ 512 * (v.directory.get f.slot).blocks.toNat := hsize
    show f.position + bytes.length ≤ 512 * _
    omega
  · rename_i hfresh
    have hfresh' : ¬(v.directory.get f.slot).blocks.toNat ≤ f.position / 512 := hfresh
    refine (fillPiece_confined h.confined hp hne (by omega) fun _ => ?_).mono fun r w' hw' =>
      hnext ⟨hw'.1, hw'.2.1.trans h.mounted, hw'.2.2⟩
    show f.position + bytes.length ≤ 512 * _
    omega

theorem writePieces_confined {l : List (List UInt8)} (h : Writing tracked p l v) :
    (writePieces p l).Ensures v fun _ w => Confined tracked w := by
  induction l generalizing v with
  | nil => exact h.confined
  | cons bytes rest ih =>
    refine Ensures.bind (writePiece_confined h) ?_ fun _ _ hw => hw.1
    exact fun _ w hw => ih (hw.2 rfl)

/-! ## Reading -/

/-- Reading moves the position of its file, and not past the end. -/
theorem readStretch_confined (h : Confined tracked v) (hp : v.handles.fileAt? p = some f) {count : Nat}
    (hin : f.position + count ≤ (v.directory.get f.slot).size.toNat) :
    (readStretch p count).Ensures v fun r w => Confined tracked w ∧ w.directory = v.directory ∧
      ∀ bytes, r = .ok bytes → ∃ f', w.handles.fileAt? p = some f' ∧ f'.slot = f.slot ∧
        f'.position = f.position + count := by
  unfold readStretch
  simp only [ensures_bind (x := get), ensures_get, ensures_bind (x := liftM _), ensures_liftM, fileAt_eq_ok hp]
  split
  · exact ⟨h, rfl, fun _ hr => by cases hr⟩
  · rw [ensures_bind, ensures_liftM]
    cases blockOf (v.directory.get f.slot) (f.position / blockSize) with
    | error e => exact ⟨h, rfl, fun _ hr => by cases hr⟩
    | ok b =>
      refine Ensures.bind (loadBlock_settled b v) ?_
        fun e w hs => ⟨h.settled hs, hs.directory, fun _ hr => by cases hr⟩
      rintro _ u hs
      simp only [ensures_bind (x := get), ensures_get, ensures_bind (x := liftM _), ensures_liftM, fileAt]
      cases hu : u.handles.fileAt? p with
      | none => exact ⟨h.settled hs, hs.directory, fun _ hr => by cases hr⟩
      | some file =>
        obtain ⟨f', hf', hslot, hposition, -⟩ := hs.file hu
        obtain rfl := Option.some.inj (hp.symm.trans hf')
        have hfile := (h.settled hs).within hu
        refine ⟨(h.settled hs).edit hu rfl ⟨?_, hfile.pending⟩, hs.directory, fun _ _ => ?_⟩
        · show file.position + count ≤ _
          rw [hs.directory, hslot, hposition]
          exact hin
        · refine ⟨_, (fileAt?_editFile hu :), hslot, ?_⟩
          rw [← hposition]

theorem readStretches_confined {counts : List Nat} (h : Confined tracked v) (hp : v.handles.fileAt? p = some f)
    (hin : f.position + counts.sum ≤ (v.directory.get f.slot).size.toNat) :
    (readStretches p counts).Ensures v fun _ w => Confined tracked w := by
  induction counts generalizing v f with
  | nil => exact h
  | cons count rest ih =>
    rw [List.sum_cons, ← Nat.add_assoc] at hin
    refine Ensures.bind (readStretch_confined h hp (Nat.le_trans (Nat.le_add_right _ _) hin)) ?_ fun _ _ hw => hw.1
    rintro bytes w ⟨hw, hdirectory, hfile⟩
    obtain ⟨f', hf', hslot, hposition⟩ := hfile bytes rfl
    refine Ensures.yielding (ih hw hf' ?_)
    rw [hdirectory, hslot, hposition]
    exact hin

/-! ## Operations -/

/-- A new entry has neither bytes nor blocks. -/
theorem createEntry_confined (h : Confined tracked v) (hg : v.Guarded) (path : Path) (kind : EntryKind) :
    (createEntry path kind).Ensures v fun _ w => Confined tracked w := by
  apply ensures_createEntry fun _ _ => h
  intro slot _ _ _ hfree
  have hadded : Confined tracked (v.withEntry slot path kind) :=
    h.replace v.space (hg.slot_ne_of_isEmpty (Directory.isEmpty_of_freeSlot? hfree)) rfl rfl
  exact Ensures.yielding (storeMetadata_confined hadded)

theorem create_confined (h : Confined tracked v) (hg : v.Guarded) (path : String) (kind : EntryKind) :
    (create path kind : VolumeAction δ Unit).Ensures v fun _ w => Confined tracked w := by
  unfold create
  refine ensures_whenMounted.mpr ⟨fun _ => ?_, fun _ => h⟩
  split
  · exact h
  · rw [ensures_bind, ensures_liftM]
    cases resolve path with
    | error e => exact h
    | ok p => exact Ensures.yielding (createEntry_confined h hg p kind)

/-- No open file belongs to an entry that is removed. -/
theorem delete_confined (h : Confined tracked v) (path : String) :
    (delete path : VolumeAction δ Unit).Ensures v fun _ w => Confined tracked w := by
  apply ensures_delete (fun _ _ => h) fun _ _ _ => h
  intro p slot released _ _ _ _ href _
  exact storeMetadata_confined (h.replace released.space (Pool.references_eq_false.mp href) rfl rfl)

omit [BlockDevice δ] in
/-- A file that is opened is at its beginning. -/
theorem acquireFile_confined (h : Confined tracked v) (name : String) (slot : Slot) (mode : Mode) :
    (acquireFile name slot mode).Ensures v fun _ w => Confined tracked w := by
  apply ensures_acquireFile fun _ _ _ => h
  intro hd handles _ _ ha
  refine ⟨fun {q f} hf => ?_, h.tidy⟩
  rcases Pool.file_of_acquire? ha hf with ⟨-, rfl⟩ | hf
  · exact .start _ slot mode
  · exact h.within hf

theorem openPath_confined (h : Confined tracked v) (hg : v.Guarded) (path : String) (mode : Mode) :
    (openPath path mode : VolumeAction δ Handle).Ensures v fun _ w => Confined tracked w := by
  apply ensures_openPath fun _ _ => h
  · exact fun _ p slot _ _ => acquireFile_confined h p.text slot mode
  · intro _ _ _ p _
    refine Ensures.bind (createEntry_confined h hg p .file) ?_ fun _ _ hw => hw
    exact fun slot w hw => acquireFile_confined hw p.text slot .write

theorem read_confined (h : Confined tracked v) (hd : Handle) (length : Nat) :
    (read hd length : VolumeAction δ (List UInt8)).Ensures v fun _ w => Confined tracked w := by
  refine ensures_whenOpen (fun _ _ => h) fun _ f hf => ?_
  have hp := Pool.fileAt?_of_file? hf
  split
  · apply readStretches_confined h hp
    have hposition := (h.within hp).position_le
    rw [sum_stretches]
    omega
  · exact h

theorem write_confined (h : Confined tracked v) (hd : Handle) (data : List UInt8) :
    (write hd data : VolumeAction δ Nat).Ensures v fun _ w => Confined tracked w := by
  refine ensures_whenOpen (fun _ _ => h) fun hm f hf => ?_
  split
  · exact Ensures.yielding (writePieces_confined ⟨h, hm, f, data, Pool.fileAt?_of_file? hf, rfl⟩)
  · exact h

omit [BlockDevice δ] in
theorem seek_confined (h : Confined tracked v) (hd : Handle) (offset : Nat) :
    (seek hd offset : VolumeAction δ Nat).Ensures v fun _ w => Confined tracked w := by
  refine ensures_whenOpen (fun _ _ => h) fun _ f hf => ?_
  have hp := Pool.fileAt?_of_file? hf
  exact h.edit hp rfl ⟨Nat.min_le_right _ _, (h.within hp).pending⟩

theorem close_confined (h : Confined tracked v) (hd : Handle) :
    (close hd : VolumeAction δ Unit).Ensures v fun _ w => Confined tracked w := by
  unfold close
  refine ensures_whenMounted.mpr ⟨fun _ => ?_, fun _ => h⟩
  cases hr : v.handles.release? hd with
  | none => exact h
  | some released =>
    obtain ⟨f, handles⟩ := released
    have hreleased : Confined tracked { v with handles := handles } :=
      ⟨fun hf => h.within (Pool.file_of_release? hr hf).2, h.tidy⟩
    have hcache : (do if f.mode = .write then let _ ← onDevice f.cache.writeBack : VolumeAction δ Unit).Respects
        Settled := by
      split
      · exact (onDevice_settled _).bind fun _ => respects_pure _
      · exact respects_pure _
    have hrest := hcache.attempt.bind fun cached => flush_settled.attempt.bind fun flushed =>
      (respects_liftM cached).bind fun _ => respects_liftM flushed
    exact ensures_bind.mpr (ensures_modify.mpr ((hrest _).mono fun _ _ hs => hreleased.settled hs))

theorem unmount_confined (h : Confined tracked v) :
    (unmount : VolumeAction δ Unit).Ensures v fun _ w => Confined tracked w := by
  unfold unmount
  refine ensures_whenMounted.mpr ⟨fun _ => ?_, fun _ => h⟩
  refine Ensures.bind (writeBackAll_settled _ v) ?_ fun _ _ hs => h.settled hs
  intro _ u hs
  refine Ensures.bind (storeMetadata_confined (h.settled hs)) ?_ fun _ _ hw => hw
  exact fun _ w _ => .of_no_files (fun p => Pool.fileAt?_reset _ p) fun hm => by cases hm

theorem format_confined (h : Confined tracked v) :
    (format : VolumeAction δ Unit).Ensures v fun _ w => Confined tracked w := by
  have hcleared : Confined tracked v.cleared :=
    .of_no_files v.cleared_fileAt? fun _ slot _ => by
      have hget : v.cleared.directory.get slot = Entry.unused := Directory.get_empty slot
      rw [hget]
      exact .of_blank rfl rfl
  unfold format
  simp only [ensures_bind (x := get), ensures_get]
  split
  · exact h
  · simp only [ensures_bind (x := note _ _), ensures_note, ensures_bind (x := modify _), ensures_modify]
    exact Ensures.bind (storeMetadata_confined hcleared) (fun _ _ hw => hw) fun _ _ hw => hw

variable [LawfulDevice δ]

/-- What is loaded has no open files. -/
theorem mount_confined (hg : v.Guarded) (htidy : (Operation.mount.after v).mounted = true →
    ∀ slot, tracked slot → ((Operation.mount.after v).directory.get slot).Tidy) :
    Confined tracked (Operation.mount.after v) := by
  refine .of_no_files (fun p => ?_) htidy
  rcases mount_cases v with ⟨-, hloaded⟩ | ⟨-, hno⟩
  · exact hloaded.files p
  · exact ((after_turnover hg .mount).guarded hg).closed hno p

/-- **An operation leaves files confined**, and mounting does if the entries that it loads are tidy. -/
theorem after_confined {op : Operation} (h : Confined tracked v) (hg : v.Guarded)
    (htidy : op = .mount → (op.after v).mounted = true → ∀ slot, tracked slot → ((op.after v).directory.get slot).Tidy) :
    Confined tracked (op.after v) := by
  -- a question leaves the volume as it is
  have hquestion {α : Type} (q : Volume δ → Except Error α) :
      (Action.get >>= fun v => liftM (q v) : VolumeAction δ α).Ensures v fun _ w => Confined tracked w :=
    (respects_get.bind (fun _ => respects_liftM _) v).mono fun _ _ hs => h.settled hs
  suffices hop : (op.perform : VolumeAction δ Unit).Ensures v fun _ w => Confined tracked w from hop
  cases op with
  | create path kind => exact create_confined h hg path kind
  | delete path => exact delete_confined h path
  | openPath path mode => exact Ensures.yielding (openPath_confined h hg path mode)
  | read hd length => exact Ensures.yielding (read_confined h hd length)
  | write hd data => exact Ensures.yielding (write_confined h hd data)
  | seek hd offset => exact Ensures.yielding (seek_confined h hd offset)
  | close hd => exact close_confined h hd
  | flush => exact (flush_settled v).mono fun _ _ hs => h.settled hs
  | format => exact format_confined h
  | unmount => exact unmount_confined h
  | mount => exact mount_confined hg (htidy rfl)
  | tell hd => exact Ensures.yielding (hquestion _)
  | list path => exact Ensures.yielding (hquestion _)
  | stat path => exact Ensures.yielding (hquestion _)
  | stats => exact Ensures.yielding (hquestion _)

/-! ## Runs -/

/-- Each time a run mounts the volume, the entry that is loaded into the slot is tidy. -/
def TidyMounts (slot : Slot) : List Operation → Volume δ → Prop
  | [], _ => True
  | op :: ops, v => (op = .mount → (op.after v).mounted = true → ((op.after v).directory.get slot).Tidy) ∧
      TidyMounts slot ops (op.after v)

theorem Confined.run {ops : List Operation} (h : Confined tracked v) (hg : v.Guarded)
    (hops : ∀ slot, tracked slot → TidyMounts slot ops v) : Confined tracked (run ops v) := by
  induction ops generalizing v with
  | nil => exact h
  | cons op ops ih =>
    have hafter : Confined tracked (op.after v) :=
      after_confined h hg fun hop hm slot hslot => (hops slot hslot).1 hop hm
    exact ih hafter ((after_turnover hg op).guarded hg) fun slot hslot => (hops slot hslot).2

omit [BlockDevice δ] [LawfulDevice δ] in
theorem confined_ofDevice (d : δ) : Confined tracked (ofDevice d) :=
  .of_no_files (fun p => (guarded_ofDevice d).closed rfl p) fun hm => by cases hm

/-! ## What caches ask -/

/-- What a cache may ask for its entry: it writes what the entry covers, and its run if the entry is tracked. -/
def Confines (tracked : Slot → Prop) (slot : Slot) (e : Entry) (q : Request) : Prop :=
  ∀ b, q = .write b → e.Covers b ∧ (tracked slot → owns e b = true ∧ firstDataBlock ≤ b)

omit [BlockDevice δ] [LawfulDevice δ] in
theorem confines_read (tracked : Slot → Prop) (slot : Slot) (e : Entry) (b : Nat) :
    Confines tracked slot e (.read b) :=
  fun _ hb => by cases hb

omit [BlockDevice δ] [LawfulDevice δ] in
/-- What a cache has to write back is within bounds. -/
theorem Confined.returns (h : Confined tracked v) (hm : v.mounted = true) (hp : v.handles.fileAt? p = some f)
    (q : Request) (hq : f.cache.Returns q) : Confines tracked f.slot (v.directory.get f.slot) q := by
  obtain ⟨b, hb, rfl⟩ := hq
  rintro b' hb'
  obtain rfl := Request.write.inj hb'
  obtain ⟨-, hcovers⟩ := (h.within hp).pending hb
  exact ⟨hcovers, fun ht => (h.tidy hm f.slot ht).owned hcovers⟩

theorem Writing.asks {v : Volume (Metered δ)} {bytes : List UInt8} {rest : List (List UInt8)}
    (h : Writing tracked p (bytes :: rest) v) : PieceAsks (Confines tracked) p bytes v := by
  intro f hp
  split
  · apply (growEntry_confined h.confined f.slot).mono
    rintro r w ⟨hw, hm, hhandles, -⟩ -
    rw [← hhandles] at hp
    exact fillPiece_asks hp (hw.returns (hm.trans h.mounted) hp) fun b _ => confines_read _ _ _ b
  · exact fillPiece_asks hp (h.confined.returns h.mounted hp) fun b _ => confines_read _ _ _ b

/-- **What caches write stays within bounds.** -/
theorem Confined.cacheAsks {v : Volume (Metered δ)} (h : Confined tracked v) (hg : v.Guarded) (op : Operation) :
    op.CacheAsks (Confines tracked) v := by
  have hmounted {hd : Handle} {f : OpenFile} (hf : v.handles.file? hd = some f) : v.mounted = true :=
    hg.mounted_of_file? hf
  cases op with
  | read hd length =>
    -- reading writes nothing, wherever it is
    intro f _ _
    refine Each.of_invariant (I := fun _ _ => True) (fun count _ w _ f hp => ?_) (fun _ _ _ _ => ?_) trivial
    · exact readStretch_asks hp fun b _ _ => confines_read _ _ _ b
    · exact fun _ _ => trivial
  | write hd data =>
    intro f hf _
    refine Each.of_invariant (I := Writing tracked hd.place) (fun _ _ _ hw => hw.asks) (fun _ _ _ hw => ?_)
      ⟨h, hmounted hf, f, data, Pool.fileAt?_of_file? hf, rfl⟩
    exact (writePiece_confined hw).mono fun r _ hr a ha => hr.2 (by cases a; exact ha)
  | close hd =>
    intro f handles hr
    have hf := (Pool.release?_eq_some hr).1
    exact writeBack_asks (h.returns (hmounted hf) (Pool.fileAt?_of_file? hf))
  | unmount =>
    refine Each.of_invariant (I := fun _ w => Settled v w) (fun p _ w hs f hp => ?_)
      (fun p _ w hs => ?_) (refl v)
    · obtain ⟨f₀, hp₀, -⟩ := hs.file hp
      have hm : v.mounted = true := by
        by_contra hno
        cases (hg.closed (Bool.eq_false_iff.mpr hno) p).symm.trans hp₀
      refine writeBackAt_asks fun f' hp' => ?_
      obtain rfl := Option.some.inj (hp.symm.trans hp')
      exact (h.settled hs).returns (hs.mounted.trans hm) hp
    · exact (writeBackAt_settled.after hs).mono fun _ _ hs' _ _ => hs'
  | _ => exact trivial

/-! ## A new file -/

/-- Formatting and mounting load no entry that is not tidy. -/
theorem tidyMounts_formatted {d : δ} (h : Begun (formatted d)) {ops : List Operation} (hops : .mount ∉ ops)
    (slot : Slot) : TidyMounts slot (.format :: .mount :: ops) (ofDevice d) := by
  have hrest (v : Volume δ) : TidyMounts slot ops v := by
    induction ops generalizing v with
    | nil => trivial
    | cons op ops ih =>
      obtain ⟨hop, hops⟩ := not_or.mp (mt List.mem_cons.mpr hops)
      exact ⟨fun he => absurd he.symm hop, ih hops _⟩
  have htidy : ((formatted d).directory.get slot).Tidy := by
    rw [h.directory, Directory.get_empty]
    exact .of_blank rfl rfl
  exact ⟨nofun, fun _ _ => htidy, hrest _⟩

/-- The first bytes of a file are in the cache of its handle, and wait to be written to the first data block. -/
theorem write_first_pending {u : Volume δ} (h : Begun u) {path : String} {hd : Handle} {slot : Slot}
    {data : List UInt8} (hf : (run [.openPath path .write] u).handles.file? hd = some (OpenFile.start slot .write))
    (hne : data ≠ []) (hlen : data.length ≤ blockSize) :
    ∃ f, (run [.openPath path .write, .write hd data] u).handles.file? hd = some f ∧ f.slot = slot ∧
      f.cache.pending? = some firstDataBlock := by
  obtain ⟨hspace, hblocks⟩ := unsupplied_of_openPath h path .write
  have hmounted : (run [.openPath path .write] u).mounted = true :=
    (run_mounted h.sound (by simp) (by simp)).trans h.mounted
  obtain ⟨-, hw⟩ := Volume.write_first hmounted hf hspace (hblocks slot) hne hlen
  rw [← after_write, ← run_concat, List.singleton_append] at hw
  rw [hw]
  exact ⟨_, file?_afterPut hf, rfl, rfl⟩

/-! ## An entry with more bytes than blocks -/

/-- A file of which two blocks are missing. -/
def longFile : Entry := { Entry.ofName "/a" .file with size := 1536, firstBlock := 18, blocks := 1 }

/-- The file that has the second of them. -/
def nextFile : Entry := { Entry.ofName "/b" .file with size := 5, firstBlock := 20, blocks := 1 }

def secondSlot : Slot := ⟨1, by decide⟩

/-- The table with the two files. -/
def twoFiles : Directory := (Directory.empty.set firstSlot longFile).set secondSlot nextFile

/-- The space of their volume. -/
def twoRuns : Space :=
  ⟨(Space.fresh.bitmap.set 18).set 20, { Superblock.fresh with freeBlocks := 1004 }⟩

theorem get_twoFiles : twoFiles.get firstSlot = longFile ∧ twoFiles.get secondSlot = nextFile := by
  constructor
  · rw [twoFiles, Directory.get_set, if_neg (by decide), Directory.get_set, if_pos rfl]
  · rw [twoFiles, Directory.get_set, if_pos rfl]

/-- The file gains the first of its missing blocks. -/
theorem grow_longFile : ∃ g, twoRuns.grow longFile = .ok g ∧ g.entry = { longFile with blocks := 2 } := by
  have h : (twoRuns.grow longFile).map Grant.entry = .ok { longFile with blocks := 2 } := by decide +kernel
  cases hg : twoRuns.grow longFile with
  | ok g =>
    rw [hg] at h
    exact ⟨g, rfl, Except.ok.inj h⟩
  | error e =>
    rw [hg] at h
    cases h

/-- The volume is accepted. -/
theorem mount_twoFiles :
    let u := ofDevice (described (Metered.ofDevice (MemoryDisk.blank 1024)) twoRuns twoFiles)
    (mount u).result = .ok () ∧ (run [.mount] u).space = twoRuns ∧ (run [.mount] u).directory = twoFiles ∧
      (run [.mount] u).Idle := by
  have hsize : deviceSize (Metered.ofDevice (MemoryDisk.blank 1024)) = 1024 := MemoryDisk.deviceSize_blank 1024
  have hnames : twoFiles.migrationCount = 0 :=
    Directory.migrationCount_set (Directory.migrationCount_set Directory.migrationCount_empty _ (by decide +kernel)) _
      (by decide +kernel)
  refine mount_described ?_ hnames (Metered.reliable_of_unlimited rfl (MemoryDisk.reliable_of_writable rfl))
  rw [hsize]
  decide

/-- The file with missing blocks when it is open for writing and its cache holds none. -/
def longOpen (position : Nat) : OpenFile := ⟨firstSlot, .write, position, Cache.empty⟩

/-- The volume while the file is open. -/
structure LongOpen (v : Volume δ) (hd : Handle) (position : Nat) : Prop where
  mounted : v.mounted = true
  space : v.space = twoRuns
  directory : v.directory = twoFiles
  file : v.handles.file? hd = some (longOpen position)

namespace LongOpen

variable {v : Volume δ} {hd : Handle} {position : Nat}

omit [LawfulDevice δ] in
/-- The file is opened. -/
theorem openPath (hspace : v.space = twoRuns) (hdirectory : v.directory = twoFiles) (hidle : v.Idle) :
    (openPath "/a" .write).Ensures v fun r w => ∃ hd, r = .ok hd ∧ LongOpen w hd 0 := by
  have hp : Path.ofString? "/a" = some ⟨"/a", by decide, by decide⟩ := by decide
  have hfind : v.directory.find? "/a" = some firstSlot := by
    rw [hdirectory]
    decide +kernel
  have hfile : (v.directory.get firstSlot).isFile = true := by
    rw [hdirectory, get_twoFiles.1]
    rfl
  have hconf : v.handles.conflicts firstSlot .write = false := by
    apply Pool.conflicts_eq_false.mpr
    intro p f hf
    cases (hidle.files p).symm.trans hf
  apply (openPath_found hidle.mounted (Pool.isFull_eq_false (hidle.files 0)) hp (by decide) hfind hfile hconf).mono
  rintro r w ⟨hd, handles, rfl, ha, rfl⟩
  exact ⟨hd, rfl, hidle.mounted, hspace, hdirectory, Pool.file?_of_acquire? ha⟩

omit [LawfulDevice δ] in
/-- The position is moved past the run, to where the file is said to have bytes. -/
theorem seek (h : LongOpen v hd position) : LongOpen ((Operation.seek hd 1024).after v) hd 1024 := by
  suffices hop : (Operation.seek hd 1024).perform.Ensures v fun _ w => LongOpen w hd 1024 from hop
  apply Ensures.yielding
  apply (seek_open h.mounted h.file 1024).mono
  rintro r w ⟨-, rfl⟩
  have hsize : min 1024 (v.directory.get firstSlot).size.toNat = 1024 := by
    rw [h.directory, get_twoFiles.1]
    rfl
  refine ⟨h.mounted, h.space, h.directory, ?_⟩
  unfold editFile
  rw [Pool.file?_modifyFile, if_pos rfl, h.file]
  show some (longOpen (min 1024 (v.directory.get firstSlot).size.toNat)) = _
  rw [hsize]

omit [LawfulDevice δ] in
/-- A byte goes into the block that belongs to the other file. -/
theorem write (h : LongOpen v hd 1024) :
    (write hd [0x58]).Ensures v fun r w => r = .ok 1 ∧ w.directory.get secondSlot = nextFile ∧
      owns (w.directory.get firstSlot) 20 = false ∧
      ∃ f, w.handles.file? hd = some f ∧ f.slot = firstSlot ∧ f.cache.pending? = some 20 := by
  obtain ⟨g, hg, hentry⟩ := grow_longFile
  rw [← h.space, ← get_twoFiles.1, ← h.directory] at hg
  have hlack : (v.directory.get firstSlot).blocks.toNat ≤ 1024 / blockSize := by
    rw [h.directory, get_twoFiles.1]
    decide
  have hb : blockOf g.entry (1024 / blockSize) = .ok 20 := by
    rw [hentry]
    decide
  apply (write_fresh h.mounted h.file rfl rfl hlack hg hb (by simp) (by decide) (by decide)).mono
  rintro r w ⟨rfl, rfl⟩
  have hgrown : (v.directory.set firstSlot g.entry).get firstSlot = g.entry := by rw [Directory.get_set, if_pos rfl]
  refine ⟨rfl, ?_, ?_, putFile (longOpen 1024) 20 Block.zero [0x58], ?_, rfl, rfl⟩
  · show ((v.directory.set firstSlot g.entry).set firstSlot _).get secondSlot = nextFile
    rw [Directory.get_set, if_neg (by decide), Directory.get_set, if_neg (by decide), h.directory, get_twoFiles.2]
  · show owns (((v.directory.set firstSlot g.entry).set firstSlot
      (putEntry ((v.directory.set firstSlot g.entry).get firstSlot) _)).get firstSlot) 20 = false
    rw [Directory.get_set, if_pos rfl, hgrown, hentry]
    decide
  · show (v.handles.modifyFile hd.place fun f => putFile f 20 Block.zero [0x58]).file? hd = _
    rw [Pool.file?_modifyFile, if_pos rfl, h.file]
    rfl

end LongOpen

/-! ## What is written where -/

/-- **What caches write stays within what their entries cover**, in every run on any device and whatever its blocks
hold; and in the runs of the entries that were tidy when they were loaded, past the blocks that describe the volume.
This speaks of a program that checks its arithmetic: an operation ends, by `Error.outOfBounds`, where the program panics,
and nothing is said of what is written after a number has wrapped. -/
theorem run_confined {δ : Type} [BlockDevice δ] [LawfulDevice δ] (d : Metered δ) (ops : List Operation)
    (op : Operation) : op.CacheAsks (fun slot e q => ∀ b, q = .write b → e.Covers b ∧
      (TidyMounts slot ops (ofDevice d) → owns e b = true ∧ firstDataBlock ≤ b)) (run ops (ofDevice d)) :=
  have hconfined : Confined (fun slot => TidyMounts slot ops (ofDevice d)) (run ops (ofDevice d)) :=
    (confined_ofDevice d).run (guarded_ofDevice d) fun _ hslot => hslot
  hconfined.cacheAsks (run_guarded (guarded_ofDevice d) ops) op

/-- Three bytes are written to a new file, whose entry was tidy from the first on. Closing its handle asks to write a
block, which lies in its run. -/
theorem confined_write_of_new_file :
    let d := Metered.ofDevice (MemoryDisk.blank 1024)
    ∃ hd slot,
      let ops := [.format, .mount, .openPath "/a" .write, .write hd [1, 2, 3]]
      let v := run ops (ofDevice d)
      TidyMounts slot ops (ofDevice d) ∧
        ¬(Operation.close hd).CacheAsks (fun _ _ q => q ≠ .write firstDataBlock) v ∧
        owns (v.directory.get slot) firstDataBlock = true := by
  have hn : volumeBlocks ≤ deviceSize (Metered.ofDevice (MemoryDisk.blank 1024)) :=
    Nat.le_of_eq (MemoryDisk.deviceSize_blank 1024).symm
  have hr : Reliable (Metered.ofDevice (MemoryDisk.blank 1024)) :=
    Metered.reliable_of_unlimited rfl (MemoryDisk.reliable_of_writable rfl)
  have hp : Path.ofString? "/a" = some ⟨"/a", by decide, by decide⟩ := by decide
  have hbegun := (begun_of_reliable hn hr).1
  obtain ⟨-, -, hd, slot, hopen⟩ := reached_with_file hn hr hp (by decide) (by decide)
  obtain ⟨f, hf, rfl, hpending⟩ := write_first_pending hbegun hopen (List.cons_ne_nil 1 [2, 3]) (by decide)
  have hmount : Operation.mount ∉ [.openPath "/a" .write, .write hd [1, 2, 3]] := by simp
  have htidy := tidyMounts_formatted hbegun hmount f.slot
  have hasks := run_confined (Metered.ofDevice (MemoryDisk.blank 1024))
    [.format, .mount, .openPath "/a" .write, .write hd [1, 2, 3]] (.close hd)
  rw [run_formatted] at hf
  refine ⟨hd, f.slot, htidy, fun hno => ?_, ?_⟩
  · exact (hno f _ (Pool.release?_of_file? hf)).writeBack hpending rfl
  · exact (((hasks f _ (Pool.release?_of_file? hf)).writeBack hpending _ rfl).2 htidy).1

/-- **A file is written into the run of another**: its entry claims more bytes than it has blocks for, and what is
written where the third of its blocks should be goes into the first block of the file after it. -/
theorem stray_write_of_long_file :
    let d := described (Metered.ofDevice (MemoryDisk.blank 1024)) twoRuns twoFiles
    (mount (ofDevice d)).result = .ok () ∧ ∃ hd, (openPath "/a" .write (run [.mount] (ofDevice d))).result = .ok hd ∧
      (write hd [0x58] (run [.mount, .openPath "/a" .write, .seek hd 1024] (ofDevice d))).result = .ok 1 ∧
      let v := run [.mount, .openPath "/a" .write, .seek hd 1024, .write hd [0x58]] (ofDevice d)
      owns (v.directory.get secondSlot) 20 = true ∧
        ¬(Operation.close hd).CacheAsks (fun _ e q => ∀ b, q = .write b → owns e b = true ∧ firstDataBlock ≤ b) v := by
  obtain ⟨hmounted, hspace, hdirectory, hidle⟩ := mount_twoFiles
  generalize described (Metered.ofDevice (MemoryDisk.blank 1024)) twoRuns twoFiles = d at *
  obtain ⟨hd, hopened, hopen⟩ := LongOpen.openPath hspace hdirectory hidle
  rw [← Operation.after_openPath, ← run_concat] at hopen
  obtain ⟨hwritten, hnext, howns, f, hf, hslot, hpending⟩ := hopen.seek.write
  rw [← after_write, ← run_concat, ← run_concat] at hnext howns hf
  rw [← run_concat] at hwritten
  simp only [List.cons_append, List.nil_append] at hwritten hnext howns hf
  refine ⟨hmounted, hd, hopened, hwritten, ?_, fun hasks => ?_⟩
  · rw [hnext]
    decide
  · have hback := (hasks f _ (Pool.release?_of_file? hf)).writeBack hpending 20 rfl
    rw [hslot] at hback
    cases howns.symm.trans hback.1

end Volume

end BlockVolume
