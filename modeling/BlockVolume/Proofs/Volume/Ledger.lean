import BlockVolume.Proofs.Volume.Isolation
import BlockVolume.Proofs.Volume.Move
import BlockVolume.Proofs.Volume.Names

/-!
# `Proofs.Volume.Ledger` — the bytes that were accepted are the bytes that are read

A ledger is kept beside a run, from the calls alone: at each offset of each file it has the byte that a write
moved past last. A new block may hold anything; what is read is in the ledger nevertheless, at every offset of
every file and wherever the device fails, with one exception. Closing a handle drops its cache even if the
device refuses to take it, and the bytes that were in no other place are lost then: the file keeps its size,
and what the device held before takes their place.

## Contents
- **`Ledger`**, with `Operation.accepts` and `Operation.drops?`: what is entered; **`Ledger.run`**.
- **`Ledger.Covers`**: the contents of all files are in the ledger, but for the bytes that are lost.
- `close_contents`: what closing a handle leaves of the contents.
- **`Ledger.Covers.after`** and **`Ledger.Covers.run`**; **`Ledger.Whole`**: runs in which nothing is dropped.
- `Ledger.Covers.read`: what is read of a volume whose contents are in a ledger.
-/

namespace BlockVolume

open BlockVolume.Action Space

/-! ## What is entered -/

/-- What the calls say of the bytes of the files. -/
structure Ledger where
  /-- The byte that a write moved past last at an offset of the file in a slot. -/
  accepted : Slot → Nat → Option UInt8
  /-- Whether it was in a cache that was dropped while the device held another byte in its place. -/
  lost : Slot → Nat → Prop

/-- Nothing was written yet. -/
def Ledger.blank : Ledger := ⟨fun _ _ => none, fun _ _ => False⟩

section

variable {δ : Type} [BlockDevice δ]

/-- The byte that an operation accepts at an offset of the file in a slot: a write accepts those that it moves
past, whether it succeeds or not. -/
def Operation.accepts (op : Operation) (v : Volume δ) (slot : Slot) (i : Nat) : Option UInt8 :=
  match op with
  | .write hd data =>
    match v.handles.file? hd, (op.after v).handles.fileAt? hd.place with
    | some f, some f' => if slot = f.slot ∧ f.position ≤ i ∧ i < f'.position then data[i - f.position]? else none
    | _, _ => none
  | _ => none

/-- The block whose new contents an operation drops: those in the cache of a handle that is closed, if the device
refuses to take them. -/
def Operation.drops? (op : Operation) (v : Volume δ) : Option Nat :=
  match op with
  | .close hd =>
    match v.handles.file? hd with
    | some f =>
      match (f.cache.writeBack v.device).result with
      | .ok _ => none
      | .error _ => f.cache.pending?
    | none => none
  | _ => none

namespace Volume

/-- The block of the device that holds byte `i` of the file in a slot. -/
def blockAt (v : Volume δ) (slot : Slot) (i : Nat) : Nat :=
  (v.directory.get slot).firstBlock.toNat + i / blockSize

/-- Byte `i` of the file in a slot as the device holds it. -/
def storedAt [LawfulDevice δ] (v : Volume δ) (slot : Slot) (i : Nat) : UInt8 :=
  (content v.device (v.blockAt slot i)).byte (i % blockSize)

end Volume

variable [LawfulDevice δ]

/-- The ledger after an operation. Nothing is kept of files that are no more. -/
def Ledger.after (l : Ledger) (op : Operation) (v : Volume δ) : Ledger where
  accepted slot i :=
    if ((op.after v).directory.get slot).isEmpty then none
    else (op.accepts v slot i).or (l.accepted slot i)
  lost slot i :=
    ((op.after v).directory.get slot).isEmpty = false ∧ op.accepts v slot i = none ∧
      if op.drops? v = some (v.blockAt slot i) then ∃ a, l.accepted slot i = some a ∧ v.storedAt slot i ≠ a
      else l.lost slot i

/-- The ledger after operations that are carried out one after the other. -/
def Ledger.run : List Operation → Volume δ → Ledger → Ledger
  | [], _, l => l
  | op :: ops, v, l => Ledger.run ops (op.after v) (l.after op v)

/-- Every byte of every file is at an offset at which one was accepted, and is this one just if it is not lost. -/
def Ledger.Covers (l : Ledger) (v : Volume δ) : Prop :=
  ∀ slot i x, (v.contents slot)[i]? = some x → ∃ a, l.accepted slot i = some a ∧ (x = a ↔ ¬l.lost slot i)

end

namespace Volume

variable {δ : Type} [BlockDevice δ] [LawfulDevice δ] {u v w : Volume δ} {op : Operation} {f : OpenFile} {slot : Slot}
  {hd : Handle}

/-! ## Closing a handle -/

/-- What users see depends on the open files and on the blocks of the device. -/
theorem current_device {d : δ} (hd : content d = content v.device) (b : Nat) :
    current { v with device := d } b = v.current b := by
  unfold current
  rw [hd]

/-- When a dirty cache is dropped, users see the block that the device holds, and all others as before. -/
theorem current_dropped (h : v.Sound) {handles : Pool} (hr : v.handles.release? hd = some (f, handles)) {b : Nat}
    (hb : f.cache.pending? = some b) (b' : Nat) :
    current { v with handles := handles } b' = if b' = b then content v.device b else v.current b' := by
  have hw : Sound { v with handles := handles } := h.of_release hr
  obtain ⟨hf, rfl⟩ := Pool.release?_eq_some hr
  have hp := Pool.fileAt?_of_file? hf
  by_cases hbb : b' = b
  · subst hbb
    rw [if_pos rfl]
    refine Sees.eq (Or.inr ⟨fun q => ?_, rfl⟩) hw
    apply pendingAt_eq_none
    intro g hg hpend
    rw [Pool.fileAt?_setPlace] at hg
    -- the only file that had the block to write is the one that was closed
    by_cases hq : q = hd.place
    · rw [if_pos hq] at hg
      cases hg
    · rw [if_neg hq] at hg
      exact hq (h.pending_unique hg hp hpend ((h.coherent hp).owned_of_pending hb))
  · rw [if_neg hbb]
    refine Sees.eq ((v.sees_current b').of_setPlace ?_ fun _ hnone => by cases hnone) hw
    apply pendingAt_eq_none
    intro g hg hpend
    obtain rfl := Option.some.inj (hp.symm.trans hg)
    exact hbb (Option.some.inj (hpend.symm.trans hb))

/-- The contents after a handle was closed: what its cache held is replaced by what the device holds, if the
device refused to take it. -/
def Spilled (v w : Volume δ) (dropped : Option Nat) : Prop :=
  ∀ slot, (w.contents slot).length = (v.contents slot).length ∧ ∀ i, i < (v.contents slot).length →
    (w.contents slot)[i]? = if dropped = some (v.blockAt slot i) then some (v.storedAt slot i)
      else (v.contents slot)[i]?

theorem spilled_none (h : ∀ slot, w.contents slot = v.contents slot) : Spilled v w none := by
  intro slot
  rw [h slot]
  exact ⟨rfl, fun i _ => by simp⟩

omit [LawfulDevice δ] in
/-- A cache is dropped just if the device refuses what is to be written back. -/
theorem drops?_close (hf : v.handles.file? hd = some f) : (Operation.close hd).drops? v =
    match (f.cache.writeBack v.device).result with
    | .ok _ => none
    | .error _ => f.cache.pending? := by
  simp only [Operation.drops?, hf]

omit [LawfulDevice δ] in
theorem drops?_close_of_none (hf : v.handles.file? hd = none) : (Operation.close hd).drops? v = none := by
  simp only [Operation.drops?, hf]

/-- The cache reaches the device, or it had nothing to write back, and then nothing is lost. -/
theorem spilled_of_ok (h : v.Sound) {handles : Pool} (hr : v.handles.release? hd = some (f, handles)) :
    (do if f.mode = .write then let _ ← onDevice f.cache.writeBack : VolumeAction δ Unit).Ensures
      { v with handles := handles } fun r w => r = .ok () → Spilled v w none := by
  apply (closeCache_cases h hr).mono
  rintro r w ⟨hwalk, -⟩ rfl
  apply spilled_none
  exact fun slot => (hwalk.trace_of_not_isIo (not_isIo_ok _)).contents_eq h (by simp [closing, Change.alters])

/-- The device refuses the cache, which is gone then. -/
theorem spilled_of_dropped (h : v.Sound) {handles : Pool} (hr : v.handles.release? hd = some (f, handles)) {b : Nat}
    (hb : f.cache.pending? = some b) {d : δ} (hd : content d = content v.device) :
    Spilled v { v with device := d, handles := handles } (some b) := by
  have hcurrent (b' : Nat) : current { v with device := d, handles := handles } b' =
      if b' = b then content v.device b else v.current b' :=
    (current_device (v := { v with handles := handles }) hd b').trans (current_dropped h hr hb b')
  intro slot
  rw [length_contents, length_contents]
  refine ⟨rfl, fun i hi => ?_⟩
  have hi' : i < (directory { v with device := d, handles := handles } |>.get slot).size.toNat := hi
  rw [getElem?_contents, if_pos hi', getElem?_contents, if_pos hi]
  show some ((current { v with device := d, handles := handles } (v.blockAt slot i)).byte (i % blockSize)) = _
  rw [hcurrent]
  by_cases hbb : v.blockAt slot i = b
  · rw [if_pos hbb, if_pos (by rw [hbb]), storedAt, hbb]
  · rw [if_neg hbb, if_neg fun he => hbb (Option.some.inj he).symm]
    rfl

/-- What becomes of the cache of a handle that is closed is what becomes of writing it back. -/
theorem closeCache_ends (h : v.Sound) {handles : Pool} (hr : v.handles.release? hd = some (f, handles)) :
    (do if f.mode = .write then let _ ← onDevice f.cache.writeBack : VolumeAction δ Unit).Ensures
      { v with handles := handles } fun r w =>
        match (f.cache.writeBack v.device).result with
        | .ok _ => r = .ok ()
        | .error _ => w = { v with device := (f.cache.writeBack v.device).state, handles := handles } := by
  have hc := h.coherent (Pool.fileAt?_of_file? (Pool.release?_eq_some hr).1)
  by_cases hm : f.mode = .write
  · simp only [if_pos hm, ensures_bind, ensures_onDevice, ensures_pure]
    apply (ensures_self f.cache.writeBack v.device).mono
    rintro r d ⟨rfl, rfl⟩
    cases (f.cache.writeBack v.device).result with
    | ok c => exact trivial
    | error e => exact rfl
  · -- a reader has nothing to write back
    have hclean : f.cache.dirty = false := Bool.eq_false_iff.mpr fun hd => hm (hc.dirty hd).1
    rw [if_neg hm, Cache.writeBack_of_none (hc.pending?_eq_none.mpr hclean)]
    rfl

theorem closeCache_spilled (h : v.Sound) {handles : Pool} (hr : v.handles.release? hd = some (f, handles)) :
    (do if f.mode = .write then let _ ← onDevice f.cache.writeBack : VolumeAction δ Unit).Ensures
      { v with handles := handles } fun _ w => w.Sound ∧ Spilled v w ((Operation.close hd).drops? v) := by
  have hf := (Pool.release?_eq_some hr).1
  have hc := h.coherent (Pool.fileAt?_of_file? hf)
  have hsound := (closeCache_cases h hr).mono fun r w hw => hw.1.sound h
  rw [drops?_close hf]
  apply ((hsound.and (spilled_of_ok h hr)).and (closeCache_ends h hr)).mono
  rintro r w ⟨⟨hw, hok⟩, hends⟩
  refine ⟨hw, ?_⟩
  cases hback : (f.cache.writeBack v.device).result with
  | ok c =>
    rw [hback] at hends
    exact hok hends
  | error e =>
    rw [hback] at hends
    cases hb : f.cache.pending? with
    | none =>
      rw [Cache.writeBack_of_none hb] at hback
      cases hback
    | some b =>
      have hin := (h.owned_bounds (hc.owned_of_pending hb)).2
      rcases Cache.writeBack_cases hb hin with ⟨hok, -⟩ | ⟨-, -, hcontent, -⟩
      · cases hback.symm.trans hok
      · rw [show w = _ from hends]
        exact spilled_of_dropped h hr hb hcontent

/-- **Closing a handle leaves the contents of all files, but for the block that it drops.** -/
theorem close_spilled (h : v.Sound) (hd : Handle) : (close hd : VolumeAction δ Unit).Ensures v fun _ w =>
    Spilled v w ((Operation.close hd).drops? v) := by
  unfold close
  refine ensures_whenMounted.mpr ⟨fun _ => ?_, fun hm => ?_⟩
  · cases hr : v.handles.release? hd with
    | none =>
      rw [drops?_close_of_none (Option.map_eq_none_iff.mp hr)]
      exact spilled_none fun _ => rfl
    | some released =>
      obtain ⟨f, handles⟩ := released
      simp only [ensures_bind, ensures_modify, ensures_attempt, ensures_liftM]
      apply (closeCache_spilled h hr).mono
      rintro r₁ w₁ ⟨hsound, hspilled⟩
      apply (flush_walk hsound).mono
      rintro r₂ w₂ ⟨hwalk, -⟩
      have hquiet := (hwalk.unnoticed hsound (by simp [Change.isQuiet]) (by simp [Change.isQuiet])).2
      have hend : Spilled v w₂ ((Operation.close hd).drops? v) := fun slot => by
        rw [hquiet slot]
        exact hspilled slot
      cases r₁ <;> cases r₂ <;> exact hend
  · have hnone : v.handles.file? hd = none := by
      apply Option.eq_none_iff_forall_ne_some.mpr
      intro f hf
      cases (Pool.fileAt?_of_file? hf).symm.trans (h.closed hm hd.place)
    rw [drops?_close_of_none hnone]
    exact spilled_none fun _ => rfl

/-! ## One operation -/

/-- The steps of an operation that does not concern a file leave its contents. -/
theorem contents_unconcerned (h : v.Sound) (hop : ¬op.Concerns v slot) :
    (op.perform : VolumeAction δ Unit).Ensures v fun _ w => w.contents slot = v.contents slot := by
  have hmount : op ≠ .mount := by
    rintro rfl
    exact hop trivial
  obtain ⟨hacts, hfaults⟩ := touches_eq_false hop
  apply (op.walk h hmount).mono
  intro r w hwalk
  refine hwalk.trace.contents_eq h fun c hc => Change.alters_of_touches ?_
  rcases hc with hc | ⟨-, hc⟩
  · exact hacts c hc
  · exact hfaults c hc

omit [LawfulDevice δ] in
/-- What a write accepts is what its handle has moved past. -/
theorem accepts_write {data : List UInt8} {f' : OpenFile} (hf : v.handles.file? hd = some f)
    (hf' : ((Operation.write hd data).after v).handles.fileAt? hd.place = some f') (slot : Slot) (i : Nat) :
    (Operation.write hd data).accepts v slot i =
      if slot = f.slot ∧ f.position ≤ i ∧ i < f'.position then data[i - f.position]? else none := by
  simp only [Operation.accepts, hf, hf']

omit [LawfulDevice δ] in
/-- An entry that is deleted is not in use any more. -/
theorem delete_isEmpty {path : String} (hslot : v.slotOf? path = some slot) :
    (delete path).Ensures v fun _ w => w = v ∨ (w.directory.get slot).isEmpty = true := by
  apply ensures_delete (fun _ _ => Or.inl rfl) fun _ _ _ => Or.inl rfl
  intro p slot' released hp _ hfind _ _ _
  have hs : slot' = slot := by
    rw [slotOf?, hp, Option.bind_some, hfind] at hslot
    exact Option.some.inj hslot
  subst hs
  right
  show ((v.directory.set slot' Entry.unused).get slot').isEmpty = true
  rw [Directory.get_set, if_pos rfl]
  rfl

/-- However writing ends, some of the bytes are in the file, and the handle is past them. -/
theorem WriteEnds.wrote {p : Place} {bytes : List UInt8} {r : Except Error Unit} (h : WriteEnds v w p f bytes r) :
    ∃ k, Wrote v w p f (bytes.take k) := by
  cases h with
  | done hw => exact ⟨bytes.length, (List.take_length (l := bytes)).symm ▸ hw⟩
  | @full _ k _ _ hw _ => exact ⟨k, hw⟩
  | @io _ k _ hw => exact ⟨k, hw⟩

end Volume

namespace Ledger

open Volume

variable {δ : Type} [BlockDevice δ] [LawfulDevice δ] {u v w : Volume δ} {op : Operation} {f : OpenFile} {slot : Slot}
  {l : Ledger} {hd : Handle}

/-- What is accepted comes before what was. -/
theorem accepted_after {i : Nat} (he : ((op.after v).directory.get slot).isEmpty = false) :
    (l.after op v).accepted slot i = (op.accepts v slot i).or (l.accepted slot i) := by
  simp [Ledger.after, he]

/-- An operation that accepts nothing at an offset and drops nothing there leaves what is known of it. -/
theorem after_of_none {i : Nat} (he : ((op.after v).directory.get slot).isEmpty = false)
    (ha : op.accepts v slot i = none) (hd : op.drops? v ≠ some (v.blockAt slot i)) :
    (l.after op v).accepted slot i = l.accepted slot i ∧ ((l.after op v).lost slot i ↔ l.lost slot i) := by
  simp [Ledger.after, he, ha, hd]

/-- What is accepted is in the ledger and not lost. -/
theorem after_of_accepted {i : Nat} {a : UInt8} (he : ((op.after v).directory.get slot).isEmpty = false)
    (ha : op.accepts v slot i = some a) :
    (l.after op v).accepted slot i = some a ∧ ¬(l.after op v).lost slot i := by
  simp [Ledger.after, he, ha]

/-- What is dropped is lost unless the device holds it. -/
theorem after_of_dropped {i : Nat} (he : ((op.after v).directory.get slot).isEmpty = false)
    (ha : op.accepts v slot i = none) (hd : op.drops? v = some (v.blockAt slot i)) :
    (l.after op v).accepted slot i = l.accepted slot i ∧
      ((l.after op v).lost slot i ↔ ∃ a, l.accepted slot i = some a ∧ v.storedAt slot i ≠ a) := by
  simp [Ledger.after, he, ha, hd]

omit [LawfulDevice δ] in
/-- Bytes of a file are accepted only from a handle to it. -/
theorem accepts_unconcerned (hop : ¬op.Concerns v slot) (i : Nat) : op.accepts v slot i = none := by
  cases op with
  | write hd data =>
    simp only [Operation.accepts]
    split
    · rename_i f f' hf _
      exact if_neg fun hc => hop ⟨f, hf, hc.1.symm⟩
    · rfl
  | _ => rfl

/-- The block that is dropped is one of the file whose handle is closed. -/
theorem drops_unconcerned (h : v.Sound) (hop : ¬op.Concerns v slot) {i : Nat}
    (hi : i < (v.directory.get slot).size.toNat) : op.drops? v ≠ some (v.blockAt slot i) := by
  intro hd
  cases op with
  | close hd' =>
    cases hf : v.handles.file? hd' with
    | none =>
      rw [drops?_close_of_none hf] at hd
      cases hd
    | some f =>
      rw [drops?_close hf] at hd
      cases hback : (f.cache.writeBack v.device).result with
      | ok c =>
        rw [hback] at hd
        cases hd
      | error e =>
        rw [hback] at hd
        have hsize : (v.directory.get slot).size.toNat ≤ 512 * (v.directory.get slot).blocks.toNat :=
          h.allocated.size_le slot
        have hown : owns (v.directory.get slot) (v.blockAt slot i) = true := by
          refine owns_iff.mpr ⟨Nat.le_add_right _ _, Nat.add_lt_add_left ?_ _⟩
          show i / 512 < _
          omega
        have hc := h.coherent (Pool.fileAt?_of_file? hf)
        exact hop ⟨f, hf, h.allocated.run_disjoint (hc.owned_of_pending hd) hown⟩
  | _ => cases hd

namespace Covers

/-- What is neither written nor dropped is as it was. -/
theorem same (hl : l.Covers v) {i : Nat} {x : UInt8} (hx : (v.contents slot)[i]? = some x)
    (he : ((op.after v).directory.get slot).isEmpty = false) (ha : op.accepts v slot i = none)
    (hd : op.drops? v ≠ some (v.blockAt slot i)) :
    ∃ a, (l.after op v).accepted slot i = some a ∧ (x = a ↔ ¬(l.after op v).lost slot i) := by
  obtain ⟨haccepted, hlost⟩ := after_of_none (l := l) he ha hd
  rw [haccepted, hlost]
  exact hl slot i x hx

theorem unconcerned (hl : l.Covers v) (h : v.Sound) (hop : ¬op.Concerns v slot) {i : Nat} {x : UInt8}
    (hx : ((op.after v).contents slot)[i]? = some x)
    (he : ((op.after v).directory.get slot).isEmpty = false) :
    ∃ a, (l.after op v).accepted slot i = some a ∧ (x = a ↔ ¬(l.after op v).lost slot i) := by
  have hsame : (op.after v).contents slot = v.contents slot := contents_unconcerned h hop
  rw [hsame] at hx
  have hi : i < (v.directory.get slot).size.toNat := by
    rw [getElem?_contents] at hx
    by_contra hno
    rw [if_neg hno] at hx
    cases hx
  exact hl.same hx he (accepts_unconcerned hop i) (drops_unconcerned h hop hi)

theorem write (hl : l.Covers v) (h : v.Sound) {data : List UInt8} (hf : v.handles.file? hd = some f) {i : Nat} {x : UInt8}
    (hx : (((Operation.write hd data).after v).contents f.slot)[i]? = some x)
    (he : (((Operation.write hd data).after v).directory.get f.slot).isEmpty = false) :
    ∃ a, (l.after (.write hd data) v).accepted f.slot i = some a ∧
      (x = a ↔ ¬(l.after (.write hd data) v).lost f.slot i) := by
  have hp := Pool.fileAt?_of_file? hf
  have hends : (Operation.write hd data).after v = v ∨
      ∃ k, Wrote v ((Operation.write hd data).after v) hd.place f (data.take k) := by
    have hwrite : (Operation.write hd data).perform.Ensures v fun _ w =>
        w = v ∨ ∃ k, Wrote v w hd.place f (data.take k) := by
      refine Ensures.yielding ((write_cases h hd data).mono ?_)
      rintro r w (⟨f', r', hf', -, -, hends, -⟩ | ⟨⟨_, -, -, rfl⟩, -⟩)
      · obtain rfl := Option.some.inj (hf.symm.trans hf')
        exact Or.inr hends.wrote
      · exact Or.inl rfl
    exact hwrite
  have hdrop : (Operation.write hd data).drops? v ≠ some (v.blockAt f.slot i) := fun hd => by cases hd
  rcases hends with hsame | ⟨k, hwrote⟩
  · rw [hsame] at hx
    refine hl.same hx he ?_ hdrop
    rw [accepts_write hf (by rw [hsame]; exact hp), if_neg (by omega)]
  · obtain ⟨cache, hf'⟩ := hwrote.file
    have hpos : f.position ≤ (v.contents f.slot).length := by
      rw [length_contents]
      exact (h.coherent hp).position_le
    have haccepts := accepts_write hf hf' f.slot i
    rw [hwrote.contents, getElem?_splice hpos] at hx
    -- the byte is one that was moved past, or it was there before
    by_cases hin : f.position ≤ i ∧ i < f.position + (data.take k).length
    · rw [if_pos ⟨rfl, hin⟩] at haccepts
      rw [if_pos hin, List.getElem?_take_of_lt (by rw [List.length_take] at hin; omega)] at hx
      rw [hx] at haccepts
      obtain ⟨haccepted, hlost⟩ := after_of_accepted (l := l) he haccepts
      exact ⟨x, haccepted, by simp [hlost]⟩
    · rw [if_neg fun hc => hin hc.2] at haccepts
      rw [if_neg hin] at hx
      exact hl.same hx he haccepts hdrop

theorem close (hl : l.Covers v) (h : v.Sound) {i : Nat} {x : UInt8}
    (hx : (((Operation.close hd).after v).contents slot)[i]? = some x)
    (he : (((Operation.close hd).after v).directory.get slot).isEmpty = false) :
    ∃ a, (l.after (.close hd) v).accepted slot i = some a ∧
      (x = a ↔ ¬(l.after (.close hd) v).lost slot i) := by
  obtain ⟨hlength, hbytes⟩ : _ ∧ _ := close_spilled h hd slot
  have hi : i < (v.contents slot).length := hlength ▸ (List.getElem?_eq_some_iff.mp hx).1
  obtain ⟨y, hy⟩ : ∃ y, (v.contents slot)[i]? = some y := ⟨_, List.getElem?_eq_getElem hi⟩
  have hx' := (hbytes i hi).symm.trans hx
  by_cases hdrop : (Operation.close hd).drops? v = some (v.blockAt slot i)
  · rw [if_pos hdrop] at hx'
    obtain ⟨a, haccepted, -⟩ := hl slot i y hy
    obtain ⟨haccepted', hlost⟩ := after_of_dropped (l := l) he rfl hdrop
    refine ⟨a, haccepted'.trans haccepted, ?_⟩
    rw [hlost, haccepted, ← Option.some.inj hx']
    simp
  · rw [if_neg hdrop] at hx'
    exact hl.same hx' he rfl hdrop

/-- **An operation keeps the contents of all files in the ledger.** -/
theorem after (hl : l.Covers v) (h : v.Sound) (hmount : op ≠ .mount) (hformat : op ≠ .format) :
    (l.after op v).Covers (op.after v) := by
  intro slot i x hx
  have hw : (op.after v).Sound := Walk.sound (op.walk h hmount) h
  have he := hw.not_isEmpty_of_contents hx
  by_cases hop : op.Concerns v slot
  · cases op with
    | write hd data =>
      obtain ⟨f, hf, rfl⟩ := hop
      exact hl.write h hf hx he
    | close hd => exact hl.close h hx he
    | delete path =>
      have hdelete : (Operation.delete path).after v = v ∨
          (((Operation.delete path).after v).directory.get slot).isEmpty = true := delete_isEmpty hop
      rcases hdelete with hsame | hempty
      · rw [hsame] at hx
        exact hl.same hx he rfl fun hd => by cases hd
      · cases he.symm.trans hempty
    | format => exact absurd rfl hformat
    | mount => exact absurd rfl hmount
    | _ => exact absurd hop id
  · exact hl.unconcerned h hop hx he

end Covers

/-! ## Runs -/

/-- **A run keeps the contents of all files in the ledger.** -/
theorem Covers.run {ops : List Operation} (hl : l.Covers v) (h : v.Sound) (hmount : .mount ∉ ops)
    (hformat : .format ∉ ops) : (Ledger.run ops v l).Covers (Volume.run ops v) := by
  induction ops generalizing v l with
  | nil => exact hl
  | cons op ops ih =>
    obtain ⟨hne, hmount⟩ := not_or.mp (mt List.mem_cons.mpr hmount)
    obtain ⟨hne', hformat⟩ := not_or.mp (mt List.mem_cons.mpr hformat)
    have hw : (op.after v).Sound := Walk.sound (op.walk h (Ne.symm hne)) h
    exact ih (hl.after h (Ne.symm hne) (Ne.symm hne')) hw hmount hformat

/-- No operation of the run drops the contents of a block. -/
def Whole : List Operation → Volume δ → Prop
  | [], _ => True
  | op :: ops, v => op.drops? v = none ∧ Whole ops (op.after v)

/-- Where nothing is dropped nothing is lost. -/
theorem run_lost {ops : List Operation} (h : Whole ops v) (hl : ∀ slot i, ¬l.lost slot i) (slot : Slot) (i : Nat) :
    ¬(Ledger.run ops v l).lost slot i := by
  induction ops generalizing v l with
  | nil => exact hl slot i
  | cons op ops ih =>
    refine ih h.2 fun slot i hlost => ?_
    obtain ⟨-, -, hlost⟩ := hlost
    rw [h.1, if_neg fun hd => by cases hd] at hlost
    exact hl slot i hlost

end Ledger

open Volume

variable {δ : Type} [BlockDevice δ] [LawfulDevice δ] {u v : Volume δ} {hd : Handle}

/-- What is read is in the ledger of what was accepted. -/
theorem Ledger.Covers.read {l : Ledger} (hl : l.Covers v) (h : v.Sound) (hd : Handle) (length : Nat) :
    (read hd length : VolumeAction δ (List UInt8)).Ensures v fun r _ => ∀ bytes, r = .ok bytes →
      ∃ f, v.handles.file? hd = some f ∧ ∀ k x, bytes[k]? = some x →
        ∃ a, l.accepted f.slot (f.position + k) = some a ∧ (x = a ↔ ¬l.lost f.slot (f.position + k)) := by
  apply (read_cases h hd length).mono
  rintro r w (⟨f, hf, -, -, ⟨rfl, -⟩ | hio⟩ | ⟨⟨e, -, rfl, -⟩, -⟩) bytes hbytes
  · obtain rfl := Except.ok.inj hbytes
    refine ⟨f, hf, fun k x hx => ?_⟩
    rw [List.getElem?_take] at hx
    split at hx
    · exact hl f.slot _ x (List.getElem?_drop.symm.trans hx)
    · cases hx
  · rw [hbytes] at hio
    exact absurd hio (not_isIo_ok _)
  · cases hbytes

/-- Nothing was accepted at the beginning, and there are no files. -/
theorem Volume.Begun.blank_covers (h : Begun u) : Ledger.blank.Covers u := by
  intro slot i x hx
  have he := h.sound.not_isEmpty_of_contents hx
  rw [h.directory, Directory.isEmpty_get_empty] at he
  cases he

end BlockVolume
