import BlockVolume.Proofs.Action.Respects
import BlockVolume.Proofs.Volume.Transfer

/-!
# `Proofs.Volume.Settled` — what is left to write back

Blocks go between the caches and the device without a look at the entries, and whatever the entries are like, no
cache has something to write back afterwards that it did not have before. A cache that is aimed at a block is a copy
of this block then, or the device has refused.

## Contents
- **`Settled`**: changes after which no more is to be written back, with one lemma for each part of an operation.
- `loadBlock_aims`, **`targetBlock_aims`**: the block in a cache that was aimed at one.
-/

namespace BlockVolume

open BlockVolume.Action

namespace Volume

variable {δ α : Type} {v w : Volume δ} {p : Place}

/-! ## Changes that leave less to write back -/

/-- Entries are as before, and open files are where they were and have nothing else to write back. -/
structure Settled (v w : Volume δ) : Prop where
  mounted : w.mounted = v.mounted
  directory : w.directory = v.directory
  file {p : Place} {f' : OpenFile} : w.handles.fileAt? p = some f' → ∃ f, v.handles.fileAt? p = some f ∧
    f'.slot = f.slot ∧ f'.position = f.position ∧ ∀ b, f'.cache.pending? = some b → f.cache.pending? = some b

instance : IsPreorder (Volume δ) Settled where
  refl _ := ⟨rfl, rfl, fun {_ f} hf => ⟨f, hf, rfl, rfl, fun _ => id⟩⟩
  trans _ _ _ h h' := by
    refine ⟨h'.mounted.trans h.mounted, h'.directory.trans h.directory, fun hf'' => ?_⟩
    obtain ⟨f', hf', hs', hp', hb'⟩ := h'.file hf''
    obtain ⟨f, hf, hs, hp, hb⟩ := h.file hf'
    exact ⟨f, hf, hs'.trans hs, hp'.trans hp, fun b hb'' => hb b (hb' b hb'')⟩

theorem onDevice_settled (x : Action DeviceError δ α) : (onDevice x).Respects (Settled (δ := δ)) :=
  respects_focus fun _ _ => ⟨rfl, rfl, fun {_ f} hf => ⟨f, hf, rfl, rfl, fun _ => id⟩⟩

/-- A cache that has nothing to write back replaces another. -/
theorem setCache_settled {c : Cache} (hc : c.pending? = none) :
    (setCache p c : VolumeAction δ Unit).Respects Settled := by
  refine respects_modify fun v => ⟨rfl, rfl, fun {q f'} hf' => ?_⟩
  rw [Pool.fileAt?_modifyFile] at hf'
  split at hf'
  · obtain ⟨f, hf, rfl⟩ := Option.map_eq_some_iff.mp hf'
    exact ⟨f, hf, rfl, rfl, fun b hb => by cases hc.symm.trans hb⟩
  · exact ⟨f', hf', rfl, rfl, fun _ => id⟩

theorem cache_editFile {c : Cache} {f' : OpenFile}
    (hf' : (v.editFile p fun f => { f with cache := c }).handles.fileAt? p = some f') : f'.cache = c := by
  unfold editFile at hf'
  rw [Pool.fileAt?_modifyFile, if_pos rfl] at hf'
  obtain ⟨f, -, rfl⟩ := Option.map_eq_some_iff.mp hf'
  rfl

variable [BlockDevice δ]

theorem loadBlock_settled (b : Nat) : (loadBlock p b : VolumeAction δ Unit).Respects Settled := by
  unfold loadBlock
  refine respects_get.bind fun v => (respects_liftM _).bind fun file => ?_
  split
  · exact respects_pure _
  · have hnone : ({ file.cache with block := none } : Cache).pending? = none := by simp [Cache.pending?]
    exact (setCache_settled hnone).bind fun _ => (onDevice_settled _).bind fun _ => setCache_settled rfl

/-- What was written back is not to be written back again. -/
theorem writeBack_pending (c : Cache) (v : Volume δ) : (onDevice c.writeBack).Ensures v fun r _ =>
    ∀ c', r = .ok c' → c'.pending? = none := by
  rw [ensures_onDevice]
  unfold Cache.writeBack
  cases hb : c.pending? with
  | none =>
    intro c' hc'
    exact Except.ok.inj hc' ▸ hb
  | some b =>
    refine Ensures.bind (ensures_self _ _) (fun _ _ _ => ?_) fun _ _ _ _ he => by cases he
    intro c' hc'
    exact Except.ok.inj hc' ▸ rfl

theorem writeBackAt_settled : (writeBackAt p : VolumeAction δ Unit).Respects Settled := by
  unfold writeBackAt
  refine respects_get.bind fun v => ?_
  split
  · exact respects_pure _
  · rename_i file _
    intro v
    rw [ensures_bind]
    apply ((onDevice_settled file.cache.writeBack v).and (writeBack_pending file.cache v)).mono
    rintro r w ⟨hw, hnone⟩
    cases r with
    | error e => exact hw
    | ok c => exact (setCache_settled (hnone c rfl)).after hw

theorem writeBackAll_settled (places : List Place) : (writeBackAll places : VolumeAction δ Unit).Respects Settled := by
  induction places with
  | nil => exact respects_pure _
  | cons p rest ih => exact writeBackAt_settled.bind fun _ => ih

theorem targetBlock_settled (b : Nat) (fresh whole : Bool) :
    (targetBlock p b fresh whole : VolumeAction δ Unit).Respects Settled := by
  unfold targetBlock
  refine respects_get.bind fun v => (respects_liftM _).bind fun file => ?_
  split
  · refine writeBackAt_settled.bind fun _ => ?_
    split
    · exact setCache_settled rfl
    · split
      · exact setCache_settled rfl
      · exact loadBlock_settled b
  · exact respects_pure _

theorem storeMetadata_settled : (storeMetadata : VolumeAction δ Unit).Respects Settled :=
  respects_get.bind fun _ => onDevice_settled _

theorem flush_settled : (flush : VolumeAction δ Unit).Respects Settled :=
  respects_get.bind fun _ => (respects_liftM _).bind fun _ => storeMetadata_settled

/-! ## What a cache is aimed at -/

/-- A cache that is made a copy of a block is one of this block, unless the device refuses. -/
theorem loadBlock_aims (b : Nat) : (loadBlock p b).Ensures v fun r w =>
    r = .ok () → ∀ f', w.handles.fileAt? p = some f' → f'.cache.block = some b := by
  unfold loadBlock
  simp only [ensures_bind, ensures_get, ensures_liftM, fileAt]
  cases hf : v.handles.fileAt? p with
  | none => exact fun hr => by cases hr
  | some file =>
    by_cases hb : file.cache.block = some b
    · simp only [if_pos hb, ensures_pure]
      intro _ f' hf'
      obtain rfl := Option.some.inj (hf.symm.trans hf')
      exact hb
    · simp only [if_neg hb, ensures_bind, ensures_setCache, ensures_onDevice]
      refine (ensures_self _ _).mono ?_
      rintro r d -
      cases r with
      | error e => exact fun hr => by cases hr
      | ok data =>
        intro _ f' hf'
        exact cache_editFile hf' ▸ rfl

/-- A cache that is aimed at a block is a copy of this block, unless the device refuses. -/
theorem targetBlock_aims (b : Nat) (fresh whole : Bool) : (targetBlock p b fresh whole).Ensures v fun r w =>
    r = .ok () → ∀ f', w.handles.fileAt? p = some f' → f'.cache.block = some b := by
  unfold targetBlock
  simp only [ensures_bind (x := get), ensures_get, ensures_bind (x := liftM _), ensures_liftM, fileAt]
  cases hf : v.handles.fileAt? p with
  | none => exact fun hr => by cases hr
  | some file =>
    by_cases haim : (fresh || decide (file.cache.block ≠ some b)) = true
    · simp only [if_pos haim]
      refine Ensures.bind (ensures_self _ _) (fun _ w _ => ?_) fun _ _ _ hr => by cases hr
      split
      · exact fun _ f' hf' => cache_editFile hf' ▸ rfl
      · split
        · exact fun _ f' hf' => cache_editFile hf' ▸ rfl
        · exact loadBlock_aims b
    · simp only [if_neg haim, ensures_pure]
      intro _ f' hf'
      obtain rfl := Option.some.inj (hf.symm.trans hf')
      simp only [Bool.or_eq_true, decide_eq_true_eq, not_or, Decidable.not_not] at haim
      exact haim.2

end Volume

end BlockVolume
