import BlockVolume.Proofs.Volume.Readers
import BlockVolume.Proofs.Volume.Stale

/-!
# `Proofs.Volume.Leaving` — leaving a volume while the device fails

Leaving writes every dirty cache back, stores the description, and closes all files when this is done. If the device
refuses a request on the way, some caches are clean by then and the blocks that describe the volume may be half new,
but to its users the volume is as it was: mounted, with the same files open, and the same bytes in them. What a device
holds after a volume was left is decided by what its users had of it, and so it is of no consequence how often the
volume could not be left before.

## Contents
- **`Stays`**: what users have of a volume is as it was, with `Step.stays`.
- **`Left`**: a device that holds all of a volume, with `Left.content_eq`.
- **`unmount_left`**: one or the other.
- **`Reached.unmount_refused`**, with a file whose last bytes the device refuses.
-/

namespace BlockVolume

open BlockVolume.Action Metered

/-- What a user knows of an open file: its entry, its mode and its position, but not its cache. -/
def OpenFile.standing (f : OpenFile) : Slot × Mode × Nat := (f.slot, f.mode, f.position)

namespace Volume

variable {δ : Type} [BlockDevice δ] [LawfulDevice δ] {u v v' w w' : Volume δ} {c : Change}

/-! ## A volume that is not left -/

/-- What users have of a volume is as it was: the description in memory, the open files, and the data blocks as they
are seen through the caches. -/
structure Stays (v w : Volume δ) : Prop where
  mounted : w.mounted = v.mounted
  space : w.space = v.space
  directory : w.directory = v.directory
  file (hd : Handle) : (w.handles.file? hd).map OpenFile.standing = (v.handles.file? hd).map OpenFile.standing
  current (b : Nat) : firstDataBlock ≤ b → w.current b = v.current b

instance : IsPreorder (Volume δ) Stays where
  refl _ := ⟨rfl, rfl, rfl, fun _ => rfl, fun _ _ => rfl⟩
  trans _ _ _ h h' := ⟨h'.mounted.trans h.mounted, h'.space.trans h.space, h'.directory.trans h.directory,
    fun hd => (h'.file hd).trans (h.file hd), fun b hb => (h'.current b hb).trans (h.current b hb)⟩

/-- So are the contents of all files. -/
theorem Stays.contents (h : Stays v w) (hv : v.Sound) (slot : Slot) : w.contents slot = v.contents slot := by
  refine contents_congr hv (by rw [h.directory]) (fun _ => by rw [h.directory]) fun b hb => ?_
  exact h.current b (hv.owned_bounds hb).1

/-- Writing a cache back changes nothing of this, and a refused request does not either. -/
theorem Step.stays (hs : Step c v w) (h : v.Sound) (hc : c = .writeBack ∨ c = .fault) : Stays v w := by
  have hw := hs.sound h
  cases hs with
  | @writeBack _ p f b d hp hpend _ hd =>
    refine ⟨rfl, rfl, rfl, fun hd => ?_, fun b' _ => ((v.sees_current b').of_writeBack h hp hpend hd).eq hw⟩
    show ((v.handles.modifyFile p _).file? hd).map _ = _
    rw [Pool.file?_modifyFile]
    split
    · rw [Option.map_map]
      rfl
    · rfl
  | @fault _ d _ hd =>
    refine ⟨rfl, rfl, rfl, fun _ => rfl, fun b hb => ?_⟩
    have hsees : Sees { v with device := d } b (v.current b) := (v.sees_current b).congr (fun _ => rfl) (hd b hb)
    exact hsees.eq hw
  | _ => rcases hc with hc | hc <;> cases hc

theorem Trace.stays {allowed : Change → Prop} (ht : Trace allowed v w) (h : v.Sound)
    (hc : ∀ c, allowed c → c = .writeBack ∨ c = .fault) : Stays v w := by
  induction ht with
  | refl => exact ⟨rfl, rfl, rfl, fun _ => rfl, fun _ _ => rfl⟩
  | tail ht hs hallowed ih => exact IsTrans.trans _ _ _ ih (hs.stays (ht.sound h) (hc _ hallowed))

/-! ## A volume that is left -/

/-- The device of `w` holds the volume `v`: its description, and the data blocks as users see them. -/
structure Left (v w : Volume δ) : Prop where
  description : Persisted (content w.device) v.space v.directory
  data (b : Nat) : firstDataBlock ≤ b → content w.device b = v.current b

/-- Devices that hold volumes between which users see no difference have the same blocks. -/
theorem Left.content_eq (h : Left v w) (h' : Left v' w') (hspace : v'.space = v.space)
    (hdirectory : v'.directory = v.directory) (hcurrent : ∀ b, firstDataBlock ≤ b → v'.current b = v.current b) :
    content w'.device = content w.device := by
  funext b
  by_cases hb : firstDataBlock ≤ b
  · rw [h'.data b hb, h.data b hb, hcurrent b hb]
  · have hdescribed := h'.description
    rw [hspace, hdirectory] at hdescribed
    exact h.description.eq hdescribed (Nat.lt_of_not_le hb)

/-- If no cache is dirty users see the blocks of the device. -/
theorem current_of_clean (h : v.Sound) (hclean : ∀ p, v.CleanAt p) (b : Nat) : v.current b = content v.device b := by
  refine Sees.eq (Or.inr ⟨fun p => ?_, rfl⟩) h
  apply pendingAt_eq_none
  intro f hf hpend
  cases (hclean p f hf).symm.trans (Cache.pending?_eq_some.mp hpend).1

/-- **Leaving a mounted volume puts all of it on the device, or the device refuses a request and the volume stays.** -/
theorem unmount_left (h : v.Sound) (hm : v.mounted = true) : (unmount : VolumeAction δ Unit).Ensures v fun r w =>
    (r = .ok () ∧ Left v w) ∨ (IsIo r ∧ w.Sound ∧ Stays v w) := by
  unfold unmount
  refine ensures_whenMounted.mpr ⟨fun _ => ?_, fun hno => by cases hno.symm.trans hm⟩
  simp only [ensures_bind, ensures_modify, ensures_note]
  apply (writeBackAll_cases h).mono
  rintro r u ⟨hwalk, hend⟩
  have hu := hwalk.sound h
  have hstays : Stays v u := by
    apply hwalk.trace.stays h
    rintro c (hc | ⟨-, hc⟩)
    · exact Or.inl (List.mem_singleton.mp hc)
    · exact Or.inr (List.mem_singleton.mp hc)
  cases r with
  | error e => exact Or.inr ⟨hend.resolve_left fun hok => (by cases hok.1), hu, hstays⟩
  | ok _ =>
    have hclean := (hend.resolve_right (not_isIo_ok _)).2
    apply (storeMetadata_cases hu.firstDataBlock_le).mono
    rintro r w (⟨rfl, hs⟩ | ⟨⟨d, rfl⟩, hs⟩)
    · refine Or.inl ⟨trivial, ?_, fun b hb => ?_⟩
      · rw [← hstays.space, ← hstays.directory]
        exact hs.persisted_of_store
      · rw [← hstays.current b hb, current_of_clean hu (fun p => hclean p (List.mem_finRange p))]
        cases hs with
        | store _ _ hdata => exact hdata b hb
    · exact Or.inr ⟨isIo_io d, hs.sound hu, IsTrans.trans _ _ _ hstays (hs.stays hu (Or.inr rfl))⟩

/-! ## Leaving it later -/

/-- A reliable device lets nobody down who leaves a volume. -/
theorem unmount_not_isIo (h : v.Sound) (hr : Reliable v.device) : ¬IsIo (unmount v).result := by
  intro hio
  rcases unmount_cases h with ⟨hwalk, -⟩ | ⟨-, hdeclined⟩
  · exact hwalk.unreliable hio hr
  · exact hdeclined.not_isIo hio

/-- The mounted volume `v` could not be left and became `w`. -/
structure Unleft (v w : Volume δ) : Prop where
  /-- It is mounted and described as before. -/
  mounted : w.mounted = true
  space : w.space = v.space
  directory : w.directory = v.directory
  /-- The same handles stand for the same files, in the same mode and at the same position. -/
  file (hd : Handle) : (w.handles.file? hd).map OpenFile.standing = (v.handles.file? hd).map OpenFile.standing
  /-- No file has changed. -/
  contents (slot : Slot) : w.contents slot = v.contents slot
  /-- When the device serves its requests the volume is left, and the device holds what it would have held if it had
  served them at first. -/
  leaves {d : δ} : Alike w.device d → (unmount : VolumeAction δ Unit).Ensures { w with device := d } fun r x =>
    ¬IsIo r → r = .ok () ∧ ∀ d', Alike v.device d' →
      (unmount : VolumeAction δ Unit).Ensures { v with device := d' } fun r' y => ¬IsIo r' →
        r' = .ok () ∧ content y.device = content x.device
  /-- A reliable device serves them. -/
  served {d : δ} : Reliable d →
    (Alike w.device d → ¬IsIo (unmount { w with device := d }).result) ∧
      (Alike v.device d → ¬IsIo (unmount { v with device := d }).result)

/-- **A volume that cannot be left stays as it is for its users, and can be left later as if nothing had happened.** -/
theorem Reached.unmount_refused (h : Reached v) (hm : v.mounted = true) :
    (unmount : VolumeAction δ Unit).Ensures v fun r w => (∃ e, r = .error e) → Unleft v w := by
  have hv := h.sound
  apply (unmount_left hv hm).mono
  rintro r w (⟨rfl, -⟩ | ⟨-, hw, hstays⟩) ⟨e, he⟩
  · cases he
  · have hmw : w.mounted = true := hstays.mounted.trans hm
    refine ⟨hmw, hstays.space, hstays.directory, hstays.file, hstays.contents hv, ?_, fun hr => ⟨?_, ?_⟩⟩
    · intro d hd
      apply (unmount_left (hw.alike hd) hmw).mono
      rintro r x (⟨rfl, hx⟩ | ⟨hio, -⟩) hserved
      · refine ⟨rfl, fun d' hd' => ?_⟩
        apply (unmount_left (hv.alike hd') hm).mono
        rintro r' y (⟨rfl, hy⟩ | ⟨hio, -⟩) hserved'
        · refine ⟨rfl, hx.content_eq hy hstays.space.symm hstays.directory.symm fun b hb => ?_⟩
          rw [current_alike hd', current_alike hd, hstays.current b hb]
        · exact absurd hio hserved'
      · exact absurd hio hserved
    · exact fun hd => unmount_not_isIo (hw.alike hd) hr
    · exact fun hd => unmount_not_isIo (hv.alike hd) hr

/-! ## A volume that cannot be left -/

/-- A device that takes no more writes lets everybody down who leaves a volume in which something was written. -/
theorem writeBackAll_refused {v : Volume (Metered δ)} {hd : Handle} {f : OpenFile} {e : Entry} {b : Nat}
    (h : v.Alone hd f e) (hpending : f.cache.pending? = some b) (ha : v.device.Allows 0) {places : List Place}
    (hmem : hd.place ∈ places) :
    (writeBackAll places).Ensures v fun r w => r = .error (.io .ioError) ∧ w.device.Allows 0 := by
  induction places with
  | nil => cases hmem
  | cons p rest ih =>
    unfold writeBackAll
    rw [ensures_bind]
    by_cases hp : hd.place = p
    · subst hp
      apply (writeBackAt_refused (Pool.fileAt?_of_file? h.file) hpending ha).mono
      rintro r w ⟨rfl, hw⟩
      exact ⟨rfl, hw⟩
    · -- the other places are empty
      unfold writeBackAt
      simp only [ensures_bind, ensures_get, h.others p (Ne.symm hp), ensures_pure]
      exact ih ((List.mem_cons.mp hmem).resolve_left hp)

theorem unmount_alone {v : Volume (Metered δ)} {hd : Handle} {f : OpenFile} {e : Entry} {b : Nat}
    (h : v.Alone hd f e) (hpending : f.cache.pending? = some b) (ha : v.device.Allows 0) :
    (unmount : VolumeAction (Metered δ) Unit).Ensures v fun r w => r = .error (.io .ioError) ∧ w.device.Allows 0 := by
  unfold unmount
  refine ensures_whenMounted.mpr ⟨fun _ => ?_, fun hno => by cases hno.symm.trans h.mounted⟩
  rw [ensures_bind]
  apply (writeBackAll_refused h hpending ha (List.mem_finRange _)).mono
  rintro r w ⟨rfl, hw⟩
  exact ⟨rfl, hw⟩

/-- A new file with bytes that are in its cache, on a device that takes no more writes. -/
theorem unsaved_of_allows {d : Metered δ} (hn : volumeBlocks ≤ deviceSize d)
    (ha : d.Allows (firstDataBlock + firstDataBlock)) {data : List UInt8} (hne : data ≠ [])
    (hlen : data.length ≤ blockSize) : Begun (formatted d) ∧ ∃ hd,
      (run [.openPath "/a" .write, .write hd data] (formatted d)).device.Allows 0 ∧
        Alone (run [.openPath "/a" .write, .write hd data] (formatted d)) hd (unsavedFile data)
          (newEntry data.length) := by
  obtain ⟨hbegun, hd, -, hnew, -⟩ := newFile_of_allows hn ha
  obtain ⟨-, hdevice, -, halone⟩ := write_unsaved hnew hne hlen
  have hallows := hnew.allows
  rw [← hdevice, ← after_write] at hallows
  rw [← after_write] at halone
  exact ⟨hbegun, hd, hallows, halone⟩

/-- Bytes were written to a new file, and the device refuses them when the volume is to be left. The volume stays, and
when the device takes writes again it is left, as it would have been before. -/
theorem unmount_refused_of_worn_disk : ∃ hd,
    let v := run [.openPath "/a" .write, .write hd [1, 2, 3]] (formatted wornDisk)
    Reached v ∧ v.mounted = true ∧
      (unmount : VolumeAction (Metered MemoryDisk) Unit).Ensures v fun r w => r = .error (.io .ioError) ∧ Unleft v w ∧
        (unmount : VolumeAction (Metered MemoryDisk) Unit).Ensures { w with device := refilled w.device } fun r x =>
          r = .ok () ∧ (unmount : VolumeAction (Metered MemoryDisk) Unit).Ensures
            { v with device := refilled v.device } fun r y => r = .ok () ∧ content y.device = content x.device := by
  obtain ⟨hbegun, hd, hallows, halone⟩ := unsaved_of_allows (Nat.le_of_eq deviceSize_wornDisk.symm) allows_wornDisk
    (List.cons_ne_nil 1 [2, 3]) (by decide)
  have hreached : Reached (run [.openPath "/a" .write, .write hd [1, 2, 3]] (formatted wornDisk)) :=
    ⟨_, _, hbegun, orderly_of_not_mem (by simp), rfl⟩
  refine ⟨hd, ?_⟩
  generalize run [.openPath "/a" .write, .write hd [1, 2, 3]] (formatted wornDisk) = v at hreached hallows halone ⊢
  refine ⟨hreached, halone.mounted, ?_⟩
  apply ((unmount_alone halone rfl hallows).and (hreached.unmount_refused halone.mounted)).mono
  rintro r w ⟨⟨rfl, hw⟩, hunleft⟩
  have h := hunleft ⟨_, rfl⟩
  obtain ⟨hok, hcontent⟩ := h.leaves (alike_refilled w.device) ((h.served hw.reliable_refilled).1 (alike_refilled _))
  exact ⟨rfl, h, hok, hcontent _ (alike_refilled v.device) ((h.served hallows.reliable_refilled).2 (alike_refilled _))⟩

end Volume

end BlockVolume
