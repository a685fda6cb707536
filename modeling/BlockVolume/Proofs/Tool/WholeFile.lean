import BlockVolume.Proofs.Tool.Session
import BlockVolume.Proofs.Volume.Append
import BlockVolume.Proofs.Volume.Holding
import BlockVolume.Proofs.Volume.Turnover

/-!
# `Proofs.Tool.WholeFile` — files read and replaced as a whole

Reading a file to its end yields its contents. Replacing a file deletes what is there, so that the bytes are
written to a new file, from its beginning: if this succeeds, they are the contents, in no more blocks than
they need.

## Contents
- `readUpTo_copies`, and **`readAll_holds`**: what is read.
- `openPath_new`: a file that is opened for writing where there was none.
- **`replace_holds`**: what is held when a file was replaced.
- `replace_begun`: nothing is against it at the beginning.
-/

namespace BlockVolume

open BlockVolume.Action

namespace Volume

variable {δ : Type} [BlockDevice δ] [LawfulDevice δ] {v : Volume δ} {hd : Handle} {f : OpenFile}

/-- On a reliable device every open handle can be closed. -/
theorem close_reliable (h : v.Sound) (hr : Reliable v.device) (hf : v.handles.file? hd = some f) :
    (close hd : VolumeAction δ Unit).Ensures v fun r _ => r = .ok () := by
  have hm := h.mounted_of_file? hf
  have hrelease := Pool.release?_of_file? hf
  unfold close
  refine ensures_whenMounted.mpr ⟨fun _ => ?_, fun hno => by cases hno.symm.trans hm⟩
  simp only [hrelease, ensures_bind, ensures_modify, ensures_attempt, ensures_liftM]
  apply (closeCache_cases h hrelease).mono
  rintro r u ⟨hwalk, hcached⟩
  obtain rfl := hcached.resolve_right fun hio => hwalk.unreliable hio hr
  unfold flush
  refine ensures_whenMounted.mpr ⟨fun _ => ?_, fun hno => ?_⟩
  · apply (storeMetadata_cases (hwalk.sound h).firstDataBlock_le).mono
    rintro r w (⟨rfl, -⟩ | ⟨-, hs⟩)
    · rfl
    · cases hs with
      | fault hd _ => exact absurd (hwalk.reliable hr) hd.unreliable
  · cases hno.symm.trans ((hwalk.trace.mounted_eq (by simp [closing])).trans hm)

/-- Reading is not noticed by anybody. -/
theorem read_unnoticed (h : v.Sound) (hd : Handle) (n : Nat) : (read hd n : VolumeAction δ (List UInt8)).Ensures v
    fun _ w => w.Sound ∧ ∀ slot, w.contents slot = v.contents slot := by
  apply (read_cases h hd n).mono
  rintro r w (⟨f, -, -, hwalk, -⟩ | ⟨⟨e, -, -, rfl⟩, -⟩)
  · exact ⟨hwalk.sound h, (hwalk.unnoticed h (by simp [reading, Change.isQuiet]) (by simp [Change.isQuiet])).2⟩
  · exact ⟨h, fun _ => rfl⟩

/-- Closing a handle changes neither entries nor contents on a reliable device. -/
theorem close_keeps (h : v.Sound) (hr : Reliable v.device) (hd : Handle) : (close hd : VolumeAction δ Unit).Ensures v
    fun _ w => w.directory = v.directory ∧ ∀ slot, w.contents slot = v.contents slot := by
  apply (close_cases h hd).mono
  rintro r w (⟨f, -, hwalk, -⟩ | ⟨e, -, -, rfl⟩)
  · have htrace := hwalk.trace_of_not_isIo fun hio => hwalk.unreliable hio hr
    refine ⟨(htrace.description_eq (by simp [closing, Change.describes])).2, fun slot => htrace.contents_eq h ?_⟩
    simp [closing, Change.alters]
  · exact ⟨rfl, fun _ => rfl⟩

/-- Where there is no file at a path, what is found there may be something else. -/
def Vacant (v : Volume δ) (path : String) : Prop :=
  ∀ p slot, Path.ofString? path = some p → v.directory.find? p.text = some slot →
    (v.directory.get slot).isFile = false

/-- What was deleted is not found any more. -/
theorem delete_vacant (h : v.Sound) (hn : v.directory.Hierarchical) (path : String) :
    (delete path : VolumeAction δ Unit).Ensures v fun r w => r = .ok () → w.Vacant path := by
  refine ensures_delete (fun e _ hok => by cases hok) (fun _ _ _ hok => by cases hok) ?_
  intro p slot released hp _ hfind _ _ _
  apply (storeMetadata_cases (v := { v with
    space := released.space, directory := v.directory.set slot Entry.unused }) h.firstDataBlock_le).mono
  rintro r w (⟨rfl, hs⟩ | ⟨hio, -⟩) hok
  · rw [Vacant, hs.eq_of_store]
    intro p' i hp' hfound
    obtain rfl := Option.some.inj (hp.symm.trans hp')
    have hanswers : Directory.answers ((v.directory.set slot Entry.unused).get i) p.text = true :=
      Directory.answers_of_find? hfound
    rw [Directory.get_set] at hanswers
    split at hanswers
    · cases hanswers
    · -- only one entry has the name of the path
      rename_i hne
      obtain ⟨hused, hname⟩ := hn.absolute.answers_iff.mp hanswers
      obtain ⟨hused', hname'⟩ := (Directory.find?_eq_some_iff hn.absolute hn.distinct).mp hfind
      exact absurd (hn.distinct i slot hused hused' (hname.trans hname'.symm)) hne
  · exact absurd (hok ▸ hio) (not_isIo_ok _)

end Volume

/-- What is left of a list is taken in two steps, of which the first may have come to the end. -/
theorem take_append_take_drop {α : Type} (l : List α) (b m : Nat) :
    l.take (min b l.length) ++ (l.drop (min b l.length)).take m = l.take (b + m) := by
  rw [List.take_add]
  rcases Nat.le_total b l.length with hb | hb
  · rw [Nat.min_eq_left hb]
  · rw [Nat.min_eq_right hb, List.take_length, List.drop_length, List.take_of_length_le hb,
      List.drop_of_length_le hb]

namespace Tool

variable {v : Volume ImageFile} {hd : Handle} {f : OpenFile} {p : Path} {slot : Slot} {data : List UInt8}

/-- Reading again and again copies the bytes from the position on, as far as it goes. -/
theorem readUpTo_copies (h : v.Sound) (hf : v.handles.file? hd = some f) (hm : f.mode = .read) (n : Nat) :
    (readUpTo hd n).Ensures v fun r w =>
      r = .ok (((v.contents f.slot).drop f.position).take (n * blockSize)) ∧ w.Sound ∧
        ∃ f', w.handles.file? hd = some f' := by
  induction n generalizing v f with
  | zero => exact ⟨by rw [Nat.zero_mul, List.take_zero]; rfl, h, f, hf⟩
  | succ n ih =>
    have hsize := Volume.length_contents v f.slot
    unfold readUpTo
    rw [ensures_bind]
    apply ((Volume.read_copies h hf hm blockSize).and (Volume.read_unnoticed h hd blockSize)).mono
    rintro r w ⟨⟨rfl, cache, hf'⟩ | ⟨-, hno⟩, hsound, hcontents⟩
    · have hleft : ((v.contents f.slot).drop f.position).length =
          (v.directory.get f.slot).size.toNat - f.position := by rw [List.length_drop, hsize]
      have hall := take_append_take_drop ((v.contents f.slot).drop f.position) blockSize (n * blockSize)
      rw [← hleft] at hf' ⊢
      rw [Nat.succ_mul, Nat.add_comm, ← hall]
      dsimp only
      split
      · rename_i hempty
        -- nothing was read because nothing was left
        have hzero : ((v.contents f.slot).drop f.position).length = 0 := by
          have hlen := congrArg List.length (List.isEmpty_iff.mp hempty)
          rw [List.length_take, List.length_nil] at hlen
          have hpos : 0 < blockSize := by decide
          omega
        rw [List.length_eq_zero_iff.mp hzero]
        refine ⟨?_, hsound, _, hf'⟩
        simp
      · rw [ensures_bind]
        apply (ih hsound hf' hm).mono
        rintro r u ⟨rfl, hu⟩
        refine ⟨congrArg Except.ok ?_, hu⟩
        rw [hcontents, List.drop_drop]
    · exact absurd (ImageFile.reliable v.device) hno

/-- The entry that is found at a path is what is told of it. -/
theorem stat_found (hm : v.mounted = true) {path : String} (hp : Path.ofString? path = some p)
    (hroot : p.isRoot = false) (hfind : v.directory.find? p.text = some slot) :
    v.stat path = .ok (.ofEntry (v.directory.get slot)) := by
  simp [Volume.stat, Volume.ensureMounted, hm, Volume.resolve, hp, hroot, Volume.lookup, hfind, bind, Except.bind,
    pure, Except.pure]

/-- **Reading a file yields what it holds.** -/
theorem readAll_holds (h : v.Ready Volume.Rooted) (hfiles : ∀ q, v.handles.fileAt? q = none) {path : String}
    (hp : Path.ofString? path = some p) (hroot : p.isRoot = false) (hh : v.Holds slot p data) :
    (readAll path).Ensures v fun r _ => r = .ok data := by
  have hfile : (v.directory.get slot).isFile = true := by rw [Entry.isFile, hh.kind]; rfl
  have hconf : v.handles.conflicts slot .read = false :=
    Pool.conflicts_eq_false.mpr fun q f hq _ => by rw [hfiles] at hq; cases hq
  unfold readAll
  rw [ensures_bind]
  apply (Volume.openPath_found h.mounted (Pool.isFull_eq_false (hfiles 0)) hp hroot (hh.find? h.holds) hfile hconf).mono
  rintro r w ⟨hd, handles, rfl, ha, rfl⟩
  have hstep : Volume.Step .acquire v { v with handles := handles } := .acquire h.mounted hfile hconf ha
  have hsound := hstep.sound h.sound
  have hopen := Pool.file?_of_acquire? ha
  have hcontents : Volume.contents { v with handles := handles } slot = data :=
    (hstep.contents_eq h.sound rfl).trans hh.contents
  have hsize : (v.directory.get slot).size.toNat = data.length := hh.size
  simp only [ensures_bind (x := Action.get), ensures_get, ensures_bind (x := liftM _), ensures_liftM, Volume.openFile,
    hopen]
  -- that many blocks are enough for the whole file
  have hread : (attempt (readUpTo hd ((v.directory.get slot).size.toNat / blockSize + 1)) :
      VolumeAction ImageFile _).Ensures { v with handles := handles } fun r u =>
        r = .ok (.ok data) ∧ u.Sound ∧ ∃ f', u.handles.file? hd = some f' := by
    rw [ensures_attempt]
    apply (readUpTo_copies hsound hopen rfl _).mono
    rintro r u ⟨rfl, hu⟩
    have henough : data.length ≤ ((v.directory.get slot).size.toNat / blockSize + 1) * blockSize := by
      show _ ≤ (_ / 512 + 1) * 512
      omega
    have hall : ((Volume.contents { v with handles := handles } slot).drop 0).take
        (((v.directory.get slot).size.toNat / blockSize + 1) * blockSize) = data := by
      rw [hcontents, List.drop_zero, List.take_of_length_le henough]
    exact ⟨congrArg (fun bytes => Except.ok (Except.ok bytes)) hall, hu⟩
  refine hread.andThen ?_
  rintro u ⟨husound, f', hf'⟩
  have hclose : (attempt (Volume.close hd : VolumeAction ImageFile Unit) : VolumeAction ImageFile _).Ensures u
      fun r _ => r = .ok (.ok ()) ∧ True :=
    ⟨congrArg Except.ok (Volume.close_reliable husound (ImageFile.reliable _) hf'), trivial⟩
  exact hclose.andThen fun _ _ => rfl

/-- Where there is no file, opening for writing yields a new one. -/
theorem openPath_new (h : v.Ready Volume.Rooted) {path : String} (hnul : '\x00' ∉ path.toList)
    (hvacant : v.Vacant path) : (Volume.openPath path .write : VolumeAction ImageFile Handle).Ensures v fun r w =>
      ∀ hd, r = .ok hd → ∃ p slot, Path.ofString? path = some p ∧ p.isRoot = false ∧ w.Ready Volume.Rooted ∧
        w.handles.file? hd = some (OpenFile.start slot .write) ∧ w.directory.get slot = Entry.ofName p.text .file := by
  have hadmitted := Volume.admitted_of_nulFree (show Operation.NulFree (.openPath path .write) from hnul)
  have hready := ensures_discard.mp (h.perform Volume.rootedInvariant hadmitted (by simp) (by simp))
  apply (hready.and (Volume.openPath_cases h.sound path .write)).mono
  rintro r w ⟨⟨-, hw⟩, ⟨p, hp, hopened⟩ | ⟨e, -, rfl, -⟩⟩ hd hok
  · cases hopened with
    | @found _ slot _ hfind ha _ =>
      -- what was found would have to be a file
      have hkind : (v.directory.get slot).kind = .file :=
        (hw.sound.coherent (Pool.fileAt?_of_file? (Pool.file?_of_acquire? ha))).kind
      have hnone := hvacant p slot hp hfind
      rw [Entry.isFile, hkind] at hnone
      cases hnone
    | @created _ slot _ _ _ hadded ha _ =>
      obtain rfl := Except.ok.inj hok
      obtain ⟨hroot, -, -, -, hdirectory⟩ := hadded.entry
      refine ⟨p, slot, hp, hroot, hw, Pool.file?_of_acquire? ha, ?_⟩
      rw [hdirectory, Directory.get_set, if_pos rfl]
    | unstored _ _ => cases hok
  · cases hok

/-- Bytes that are written to a new file are held by it. -/
theorem write_holds (h : v.Sound) (hf : v.handles.file? hd = some (OpenFile.start slot .write))
    (hnul : '\x00' ∉ p.text.toList) (hentry : v.directory.get slot = Entry.ofName p.text .file) (data : List UInt8) :
    (Volume.write hd data : VolumeAction ImageFile Nat).Ensures v fun r w =>
      w.Sound ∧ ∀ n, r = .ok n → w.Holds slot p data := by
  have hp := Pool.fileAt?_of_file? hf
  have hsize : (v.directory.get slot).size.toNat = 0 := by rw [hentry]; rfl
  have hblocks : (v.directory.get slot).blocks.toNat = blocksFor 0 := by rw [hentry]; rfl
  have hempty : v.contents slot = [] := List.length_eq_zero_iff.mp ((Volume.length_contents v slot).trans hsize)
  have hempties : (Operation.write hd data).emptiesPlaces = false := rfl
  have hmoved := ensures_discard.mp (Operation.moved (v := v) hempties)
  have hwalk := ensures_discard.mp ((Operation.write hd data).walk h (by simp))
  have hwrote := (Volume.write_overlays h hf rfl data).and (Volume.write_compact h hf rfl hblocks data)
  apply ((hmoved.and hwalk).and hwrote).mono
  rintro r w ⟨⟨hmoved, hwalk⟩, ⟨rfl, hlaid⟩ | ⟨hfull, -⟩ | ⟨-, hno⟩, hcompact⟩
  · refine ⟨hwalk.sound h, fun n _ => ?_⟩
    obtain ⟨f', hkept⟩ := (hmoved.turnover h.guarded).retained h.guarded hp rfl
    have hlabel : (w.directory.get slot).label = (Entry.ofName p.text .file).label := hentry ▸ hkept.label
    have hcontents : w.contents slot = splice (v.contents slot) 0 data := hlaid.contents
    refine ⟨congrArg Prod.snd hlabel, ?_, ?_, (hcompact rfl).trans (by rw [OpenFile.start, Nat.zero_add])⟩
    · rw [Entry.name_congr (congrArg Prod.fst hlabel), Entry.name_ofPath, Text.untilNul_eq_self hnul]
    · rw [hcontents, hempty]
      simp [splice]
  · refine ⟨hwalk.sound h, fun n hok => ?_⟩
    rcases hfull with rfl | rfl <;> cases hok
  · exact absurd (ImageFile.reliable v.device) hno

/-- What is told of a path is told of the entry that is found there. -/
theorem vacant_of_not_isFile (h : v.Ready Volume.Rooted) {path : String} (hno : isFile v path = false) :
    v.Vacant path := by
  intro p slot hp hfind
  obtain ⟨hused, hname⟩ := (Directory.find?_eq_some_iff h.holds.absolute h.holds.distinct).mp hfind
  have hroot : p.isRoot = false := by
    -- no entry has the name of the root
    refine decide_eq_false fun hroot => (h.holds.wellNamed slot hused).basename_ne_empty ?_
    rw [hname, hroot]
    decide
  rw [isFile, stat_found h.mounted hp hroot hfind] at hno
  exact hno

/-- **A file that was replaced holds what it was replaced by.** -/
theorem replace_holds (h : v.Ready Volume.Rooted) {path : String} (hnul : '\x00' ∉ path.toList) (data : List UInt8) :
    (replace path data).Ensures v fun r w => ∀ n, r = .ok n →
      ∃ p slot, Path.ofString? path = some p ∧ p.isRoot = false ∧ w.Holds slot p data := by
  have hclear : (if isFile v path then Volume.delete path else pure () : VolumeAction ImageFile Unit).Ensures v
      fun r u => r = .ok () → u.Ready Volume.Rooted ∧ u.Vacant path := by
    split
    · have hadmitted := Volume.admitted_of_nulFree (show Operation.NulFree (.delete path) from trivial)
      have hready := h.perform Volume.rootedInvariant hadmitted (by simp) (by simp)
      apply (hready.and (Volume.delete_vacant h.sound h.holds path)).mono
      rintro r u ⟨⟨-, hu⟩, hvacant⟩ hok
      exact ⟨hu, hvacant hok⟩
    · exact fun _ => ⟨h, vacant_of_not_isFile h (Bool.eq_false_iff.mpr ‹_›)⟩
  rw [replace_eq, ensures_bind, ensures_get]
  refine Ensures.bind hclear (fun _ u hu => ?_) (fun _ _ _ _ hok => by cases hok)
  obtain ⟨hready, hvacant⟩ := hu rfl
  refine Ensures.bind (openPath_new hready hnul hvacant) (fun hd w hw => ?_) (fun _ _ _ _ hok => by cases hok)
  obtain ⟨p, slot, hp, hroot, hready, hf, hentry⟩ := hw hd rfl
  have hnul' : '\x00' ∉ p.text.toList := fun hmem => hnul ((Path.nul_mem_text hp).mp hmem)
  rw [ensures_bind, ensures_attempt]
  apply (write_holds hready.sound hf hnul' hentry data).mono
  rintro r x ⟨hsound, hholds⟩
  dsimp only
  rw [ensures_bind, ensures_attempt]
  apply (Volume.close_keeps hsound (ImageFile.reliable _) hd).mono
  rintro closed y ⟨hdirectory, hcontents⟩
  cases r with
  | error e => exact fun _ hok => by cases hok
  | ok n =>
    have hkept := (hholds n rfl).congr (congrArg (Directory.get · slot) hdirectory) (hcontents slot)
    cases closed with
    | error e => exact fun _ hok => by cases hok
    | ok _ => exact fun _ _ => ⟨p, slot, hp, hroot, hkept⟩

/-! ## The first file of all -/

/-- At the beginning a file at the top can be opened for writing, which takes no block. -/
theorem openPath_begun (h : v.Begun) {path : String} (hp : Path.ofString? path = some p) (hroot : p.isRoot = false)
    (hparent : Path.parentOf p.text = "/") : (Volume.openPath path .write : VolumeAction ImageFile Handle).Ensures v
      fun r w => ∃ hd slot, r = .ok hd ∧ w.Sound ∧ w.handles.file? hd = some (OpenFile.start slot .write) ∧
        w.space = Space.fresh ∧ w.directory.get slot = Entry.ofName p.text .file := by
  have hfind : v.directory.find? p.text = none := by rw [h.directory, Directory.find?_empty]
  have hfree : v.directory.freeSlot? = some 0 := by rw [h.directory, Directory.freeSlot?_empty]
  apply (Volume.openPath_created h.sound h.mounted (Pool.isFull_eq_false (h.fileAt? 0)) hp hroot hfind
    (Volume.ensureParent_eq_ok hparent) hfree).mono
  intro r w hopened
  have hwalk := hopened.walk
  cases hopened with
  | found hfound _ _ => cases hfind.symm.trans hfound
  | unstored _ _ => exact absurd (ImageFile.reliable v.device) (hwalk.unreliable (isIo_io _))
  | created _ hadded ha _ =>
    obtain ⟨-, -, -, -, hdirectory⟩ := hadded.entry
    obtain ⟨_, -, -, -, ⟨-, hs⟩ | ⟨hio, -⟩⟩ := hadded
    · refine ⟨_, _, rfl, hwalk.sound h.sound, Pool.file?_of_acquire? ha, ?_, ?_⟩
      · rw [hs.eq_of_store]
        exact h.space
      · rw [hdirectory, Directory.get_set, if_pos rfl]
    · exact absurd hio (not_isIo_ok _)

/-- Bytes that fit into a block can be written to it. -/
theorem write_begun (h : v.Sound) (hf : v.handles.file? hd = some (OpenFile.start slot .write))
    (hspace : v.space = Space.fresh) (hentry : v.directory.get slot = Entry.ofName p.text .file) (hne : data ≠ [])
    (hlen : data.length ≤ blockSize) : (Volume.write hd data : VolumeAction ImageFile Nat).Ensures v fun r w =>
      r = .ok data.length ∧ w.Sound ∧ ∃ f, w.handles.file? hd = some f := by
  have hwrite := Volume.write_first (h.mounted_of_file? hf) hf hspace (by rw [hentry]; rfl) hne hlen
  have hwalk := ensures_discard.mp ((Operation.write hd data).walk h (by simp))
  apply (hwrite.and hwalk).mono
  rintro r w ⟨⟨rfl, rfl⟩, hwalk⟩
  exact ⟨rfl, hwalk.sound h, _, Volume.file?_afterPut hf⟩

/-- So a file at the top is there after the first replacement of all. -/
theorem replace_begun (h : v.Begun) {path : String} (hp : Path.ofString? path = some p) (hroot : p.isRoot = false)
    (hparent : Path.parentOf p.text = "/") (hne : data ≠ []) (hlen : data.length ≤ blockSize) :
    (replace path data).Ensures v fun r _ => r = .ok data.length := by
  have hmissing : isFile v path = false := by
    simp [isFile, Volume.stat, Volume.ensureMounted, h.mounted, Volume.resolve, hp, hroot, Volume.lookup, h.directory,
      Directory.find?_empty, bind, Except.bind]
  rw [replace_eq, ensures_bind, ensures_get]
  simp only [hmissing, Bool.false_eq_true, if_false]
  rw [ensures_bind, ensures_pure]
  dsimp only
  rw [ensures_bind]
  apply (openPath_begun h hp hroot hparent).mono
  rintro r w ⟨hd, slot, rfl, hsound, hf, hspace, hentry⟩
  dsimp only
  rw [ensures_bind, ensures_attempt]
  apply (write_begun hsound hf hspace hentry hne hlen).mono
  rintro r x ⟨rfl, hsound, f, hf⟩
  dsimp only
  rw [ensures_bind, ensures_attempt]
  apply (Volume.close_reliable hsound (ImageFile.reliable _) hf).mono
  rintro r y rfl
  rfl

end Tool

end BlockVolume
