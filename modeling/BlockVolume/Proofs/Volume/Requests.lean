import BlockVolume.Proofs.Device.Journal
import BlockVolume.Proofs.Volume.Operation

/-!
# `Proofs.Volume.Requests` — what operations ask of the device

Whatever blocks and entries a volume has, each part of an operation asks for few blocks, and it can be said
which: the one that a cache has to write back, the one that a cache is to hold, and those that describe the volume.

## Contents
- **`Asks`**: what an operation asks, and that an error of the device that it ends with is an answer to it.
- `writeBack_asks`, `loadBlock_asks`, **`fillPiece_asks`**, **`readStretch_asks`**: what caches ask.
- `storeMetadata_asks`: what describes the volume.
- **`Operation.CacheAsks`**: what the caches ask in each turn of an operation; **`Operation.asks`**: nothing else is
  asked but what describes the volume.
-/

namespace BlockVolume

open BlockVolume.Action Metered

/-- The error of the device that an operation ends with. -/
def deviceError? {α : Type} : Except Error α → Option DeviceError
  | .error (.io e) => some e
  | _ => none

/-- A request that is about no block past the description. -/
def Request.Describes (q : Request) : Prop := ∀ b, q.block? = some b → b < firstDataBlock

/-- The request that brings a cache back to its block. -/
def Cache.Returns (c : Cache) (q : Request) : Prop := ∃ b, c.pending? = some b ∧ q = .write b

namespace Volume

variable {δ α β : Type} [BlockDevice δ] {v w : Volume (Metered δ)} {P Q : Request → Prop} {p : Place} {f : OpenFile}

/-- All that an operation asks of the device satisfies `P`, and if it ends with an error of the device this is the
answer to a request that satisfies `P`. -/
def Asks (P : Request → Prop) (x : VolumeAction (Metered δ) α) (v : Volume (Metered δ)) : Prop :=
  x.Ensures v fun r w => Journal P v.device (deviceError? r) w.device

/-! ## Parts of operations -/

theorem deviceError?_of_not_io {e : Error} (he : ∀ d, e ≠ .io d) :
    deviceError? (.error e : Except Error α) = none := by
  cases e with
  | io d => exact absurd rfl (he d)
  | _ => rfl

theorem deviceError?_error {α β : Type} (e : Error) :
    deviceError? (.error e : Except Error α) = deviceError? (.error e : Except Error β) := by
  cases e <;> rfl

theorem Asks.mono {x : VolumeAction (Metered δ) α} (h : Asks P x v) (hle : ∀ q, P q → Q q) : Asks Q x v :=
  Ensures.mono h fun _ _ hr => hr.mono hle

theorem asks_pure (a : α) : Asks P (pure a) v := Journal.refl _

theorem asks_throw {e : Error} (he : ∀ d, e ≠ .io d) : Asks P (throw e : VolumeAction (Metered δ) α) v := by
  show Journal P v.device (deviceError? (.error e : Except Error α)) v.device
  rw [deviceError?_of_not_io he]
  exact Journal.refl _

theorem asks_mistake {e : Error} (he : e.isMistake = true) : Asks P (throw e : VolumeAction (Metered δ) α) v :=
  asks_throw (Error.not_io_of_isMistake he)

theorem asks_get_bind {k : Volume (Metered δ) → VolumeAction (Metered δ) α} (h : Asks P (k v) v) :
    Asks P (Action.get >>= k) v :=
  ensures_bind.mpr h

/-- A change in memory asks nothing. -/
theorem asks_modify_bind {g : Volume (Metered δ) → Volume (Metered δ)} {k : Unit → VolumeAction (Metered δ) α}
    (hg : (g v).device = v.device) (h : Asks P (k ()) (g v)) : Asks P (Action.modify g >>= k) v := by
  refine ensures_bind.mpr ?_
  unfold Asks at h
  rwa [hg] at h

theorem asks_note_bind (level : Log.Level) (text : String) {k : Unit → VolumeAction (Metered δ) α}
    (h : Asks P (k ()) v) : Asks P (Action.note level text >>= k) v :=
  ensures_bind.mpr h

/-- A check asks nothing, and what follows it may rely on it. -/
theorem asks_check_bind {r : Except Error β} {k : β → VolumeAction (Metered δ) α} (hr : ∀ d, r ≠ .error (.io d))
    (h : ∀ a, r = .ok a → Asks P (k a) v) : Asks P (liftM r >>= k) v := by
  refine ensures_bind.mpr ?_
  cases r with
  | ok a => exact h a rfl
  | error e => exact asks_throw fun d he => hr d (congrArg Except.error he)

/-- A sequence asks what its parts ask. -/
theorem asks_bind {x : VolumeAction (Metered δ) β} {k : β → VolumeAction (Metered δ) α} (hx : Asks P x v)
    (hk : x.Ensures v fun r w => ∀ a, r = .ok a → Asks P (k a) w) : Asks P (x >>= k) v := by
  refine ensures_bind.mpr ((Ensures.and hx hk).mono ?_)
  rintro r w ⟨hw, hnext⟩
  cases r with
  | ok a => exact Ensures.mono (hnext a rfl) fun _ _ h => hw.trans h
  | error e =>
    show Journal P v.device (deviceError? (.error e : Except Error α)) w.device
    rw [deviceError?_error e]
    exact hw

/-- A sequence asks what its parts ask. -/
theorem Asks.bind {x : VolumeAction (Metered δ) β} {k : β → VolumeAction (Metered δ) α} (hx : Asks P x v)
    (hk : ∀ a w, Asks P (k a) w) : Asks P (x >>= k) v :=
  asks_bind hx (Ensures.mono hx fun _ w _ a _ => hk a w)

theorem asks_setCache (c : Cache) : Asks P (setCache p c : VolumeAction (Metered δ) Unit) v :=
  Journal.refl _

theorem asks_onDevice {x : Action DeviceError (Metered δ) α}
    (h : x.Ensures v.device fun r m => Journal P v.device (answer? r) m) : Asks P (onDevice x) v := by
  unfold Asks
  rw [ensures_onDevice]
  apply h.mono
  intro r m hm
  cases r <;> exact hm

omit [BlockDevice δ] in
theorem not_io_of_fileAt {d : DeviceError} : v.fileAt p ≠ .error (.io d) := by
  unfold fileAt
  split <;> simp

theorem not_io_of_blockOf {e : Entry} {logical : Nat} {d : DeviceError} : blockOf e logical ≠ .error (.io d) := by
  unfold blockOf
  dsimp only
  split <;> simp

omit [BlockDevice δ] in
theorem not_io_of_refusal (refusal : Space.Refusal) (d : DeviceError) : refusal.error ≠ .io d := by
  cases refusal <;> simp [Space.Refusal.error]

/-- Giving a file a block asks nothing. -/
theorem growEntry_asks (slot : Slot) : Asks P (growEntry slot : VolumeAction (Metered δ) Unit) v := by
  unfold growEntry
  apply asks_get_bind
  dsimp only
  cases v.space.grow (v.directory.get slot) with
  | ok grant => exact Journal.refl _
  | error refusal =>
    exact ensures_bind.mpr (asks_throw (not_io_of_refusal refusal))

variable [LawfulDevice δ]

/-! ## Caches -/

/-- A cache asks for the block that it has to write back. -/
theorem writeBack_asks {c : Cache} (hP : ∀ q, c.Returns q → P q) : Asks P (onDevice c.writeBack) v := by
  apply asks_onDevice
  unfold Cache.writeBack
  cases hb : c.pending? with
  | none => exact Journal.refl _
  | some b =>
    simp only [ensures_bind, ensures_reporting, ensures_pure]
    apply (write_journal b c.data (hP _ ⟨b, hb, rfl⟩) v.device).mono
    intro r m hm
    cases r <;> exact hm

omit [LawfulDevice δ] in
/-- And it does ask for that block. -/
theorem Asks.writeBack {c : Cache} {b : Nat} (h : Asks P (onDevice c.writeBack) v) (hb : c.pending? = some b) :
    P (.write b) := by
  have hrequest : (c.writeBack).Ensures v.device fun _ m =>
      m.requests.toList = v.device.requests.toList ++ [.write b] := by
    unfold Cache.writeBack
    simp only [hb]
    refine Ensures.bind (ensures_reporting.mpr (passOn_requests _ _ v.device)) (fun _ _ hm => hm) fun _ _ hm => hm
  obtain ⟨l, hl, hP⟩ := Journal.requests h
  obtain rfl : l = [.write b] := List.append_cancel_left (hl.symm.trans hrequest)
  exact hP _ List.mem_cons_self

theorem readBlock_asks {b : Nat} (hP : P (.read b)) : Asks P (onDevice (BlockDevice.read b)) v :=
  asks_onDevice (read_journal b hP v.device)

/-- A cache asks for the block that it is to hold. -/
theorem loadBlock_asks {b : Nat} (hP : P (.read b)) : Asks P (loadBlock p b) v := by
  unfold loadBlock
  refine asks_get_bind (asks_check_bind (fun _ => not_io_of_fileAt) fun file _ => ?_)
  split
  · exact asks_pure _
  · exact (asks_setCache _).bind fun _ _ => (readBlock_asks hP).bind fun _ _ => asks_setCache _

/-- The file at a place, if there is one, is written back. -/
theorem writeBackAt_asks (hP : ∀ f, v.handles.fileAt? p = some f → ∀ q, f.cache.Returns q → P q) :
    Asks P (writeBackAt p) v := by
  unfold writeBackAt
  refine asks_get_bind ?_
  cases hf : v.handles.fileAt? p with
  | none => exact asks_pure _
  | some f => exact (writeBack_asks (hP f hf)).bind fun _ _ => Journal.refl _

/-- A cache that is aimed at a block is written back before, and asks for the block after. -/
theorem targetBlock_asks {b : Nat} {fresh whole : Bool} (hp : v.handles.fileAt? p = some f)
    (hback : ∀ q, f.cache.Returns q → P q) (hload : P (.read b)) : Asks P (targetBlock p b fresh whole) v := by
  unfold targetBlock
  refine asks_get_bind (asks_check_bind (fun _ => not_io_of_fileAt) fun file _ => ?_)
  split
  · refine (writeBackAt_asks fun f' hf' => ?_).bind fun _ _ => ?_
    · obtain rfl := Option.some.inj (hp.symm.trans hf')
      exact hback
    · split
      · exact asks_setCache _
      · split
        · exact asks_setCache _
        · exact loadBlock_asks hload
  · exact asks_pure _

/-- A piece that is filled asks for the block in the cache and for the one that it lies in. -/
theorem fillPiece_asks {fresh : Bool} {bytes : List UInt8} (hp : v.handles.fileAt? p = some f)
    (hback : ∀ q, f.cache.Returns q → P q)
    (hload : ∀ b, blockOf (v.directory.get f.slot) (f.position / blockSize) = .ok b → P (.read b)) :
    Asks P (fillPiece p f fresh bytes) v := by
  unfold fillPiece
  refine asks_get_bind (asks_check_bind (fun _ => not_io_of_blockOf) fun b hb => ?_)
  refine (targetBlock_asks hp hback (hload b hb)).bind fun _ w => ?_
  refine asks_get_bind (asks_check_bind (fun _ => not_io_of_fileAt) fun file _ => ?_)
  dsimp only
  split
  · exact ensures_bind.mpr (asks_throw (by simp))
  · exact Journal.refl _

/-- A stretch that is read asks for the block that it lies in, if the file has it. -/
theorem readStretch_asks {count : Nat} (hp : v.handles.fileAt? p = some f)
    (hload : ∀ b, f.position / blockSize < (v.directory.get f.slot).blocks.toNat →
      blockOf (v.directory.get f.slot) (f.position / blockSize) = .ok b → P (.read b)) :
    Asks P (readStretch p count) v := by
  unfold readStretch
  refine asks_get_bind (asks_check_bind (fun _ => not_io_of_fileAt) fun file hfile => ?_)
  obtain rfl := Except.ok.inj ((fileAt_eq_ok hp).symm.trans hfile)
  dsimp only
  split
  · exact asks_note_bind _ _ (ensures_bind.mpr (asks_throw (by simp)))
  · rename_i hlogical
    refine asks_check_bind (fun _ => not_io_of_blockOf) fun b hb => ?_
    refine (loadBlock_asks (hload b (Nat.lt_of_not_le hlogical) hb)).bind fun _ w => ?_
    refine asks_get_bind (asks_check_bind (fun _ => not_io_of_fileAt) fun _ _ => ?_)
    exact Journal.refl _

/-! ## The description -/

theorem writeBlocks_journal {l : List (Nat × Block)} (hP : ∀ b ∈ l, P (.write b.1)) (m : Metered δ) :
    (writeBlocks l).Ensures m fun r m' => Journal P m (answer? r) m' := by
  induction l generalizing m with
  | nil => exact Journal.refl m
  | cons b rest ih =>
    unfold writeBlocks
    rw [ensures_bind]
    apply (write_journal b.1 b.2 (hP b List.mem_cons_self) m).mono
    intro r m' hm
    cases r with
    | ok _ =>
      apply (ih (fun c hc => hP c (List.mem_cons_of_mem _ hc)) m').mono
      exact fun _ _ h => hm.trans h
    | error e => exact hm

/-- Storing asks for the blocks that describe the volume. -/
theorem storeMetadata_asks (hP : ∀ q : Request, q.Describes → P q) :
    Asks P (storeMetadata : VolumeAction (Metered δ) Unit) v := by
  have hblocks : ∀ b ∈ v.metadataBlocks, P (.write b.1) := fun b hb =>
    hP _ fun c hc => Option.some.inj hc ▸ v.metadataBlocks_lt b hb
  unfold storeMetadata
  apply asks_get_bind
  apply asks_onDevice
  rw [ensures_reporting, ensures_bind]
  apply (writeBlocks_journal hblocks v.device).mono
  intro r m hm
  cases r with
  | ok _ => exact (flush_journal (hP _ fun b hb => by cases hb) m).mono fun _ _ h => hm.trans h
  | error e => exact hm

theorem flush_asks (hP : ∀ q : Request, q.Describes → P q) : Asks P (flush : VolumeAction (Metered δ) Unit) v := by
  unfold flush
  refine asks_get_bind (asks_check_bind (fun _ => ?_) fun _ _ => storeMetadata_asks hP)
  unfold ensureMounted
  split <;> simp

/-- Formatting asks for the blocks that describe the volume, if the device is large enough. -/
theorem format_asks (hn : volumeBlocks ≤ deviceSize v.device) (hP : ∀ q : Request, q.Describes → P q) :
    Asks P (format : VolumeAction (Metered δ) Unit) v := by
  have hn' : ¬(BlockDevice.info v.device).totalBlocks < volumeBlocks := Nat.not_lt.mpr hn
  unfold format
  apply asks_get_bind
  simp only [if_neg hn']
  refine asks_note_bind _ _ (asks_modify_bind rfl ?_)
  exact (storeMetadata_asks hP).bind fun _ _ => Journal.refl _

theorem createEntry_asks {path : Path} {kind : EntryKind} (hP : ∀ q : Request, q.Describes → P q) :
    Asks P (createEntry path kind : VolumeAction (Metered δ) Slot) v := by
  apply ensures_createEntry fun e he => asks_mistake he
  intro slot _ _ _ _
  exact (storeMetadata_asks (v := v.withEntry slot path kind) hP).bind fun _ _ => asks_pure _

theorem create_asks {path : String} {kind : EntryKind} (hP : ∀ q : Request, q.Describes → P q) :
    Asks P (create path kind : VolumeAction (Metered δ) Unit) v := by
  unfold create
  refine ensures_whenMounted.mpr ⟨fun _ => ?_, fun _ => asks_throw (by simp)⟩
  split
  · exact ensures_bind.mpr (asks_throw (by simp))
  · refine asks_check_bind (fun d hd => (onlyMistakes_resolve path).not_isIo ⟨d, hd⟩) fun p _ => ?_
    exact (createEntry_asks hP).bind fun _ _ => asks_pure _

theorem delete_asks {path : String} (hP : ∀ q : Request, q.Describes → P q) :
    Asks P (delete path : VolumeAction (Metered δ) Unit) v := by
  apply ensures_delete (fun e he => asks_mistake he) fun _ refusal _ => asks_throw (not_io_of_refusal refusal)
  intro p slot released _ _ _ _ _ _
  exact storeMetadata_asks (v := { v with space := released.space, directory := v.directory.set slot Entry.unused }) hP

omit [LawfulDevice δ] in
theorem acquireFile_asks {name : String} {slot : Slot} {mode : Mode} :
    Asks P (acquireFile name slot mode : VolumeAction (Metered δ) Handle) v :=
  ensures_acquireFile (fun _ he _ => asks_mistake he) fun _ _ _ _ _ => Journal.refl _

theorem openPath_asks {path : String} {mode : Mode} (hP : ∀ q : Request, q.Describes → P q) :
    Asks P (openPath path mode : VolumeAction (Metered δ) Handle) v := by
  apply ensures_openPath (fun e he => asks_mistake he)
  · exact fun _ _ _ _ _ => acquireFile_asks
  · exact fun _ _ _ _ _ => (createEntry_asks hP).bind fun _ _ => acquireFile_asks

/-! ## Operations -/

/-- What the cache of the file at a place asks while a piece is written, once the file has the block for it: the
entry is the one at this time. -/
def PieceAsks (Q : Slot → Entry → Request → Prop) (p : Place) (bytes : List UInt8) (v : Volume (Metered δ)) : Prop :=
  ∀ f, v.handles.fileAt? p = some f →
    if (v.directory.get f.slot).blocks.toNat ≤ f.position / blockSize then
      (growEntry f.slot : VolumeAction (Metered δ) Unit).Ensures v fun r w =>
        r = .ok () → Asks (Q f.slot (w.directory.get f.slot)) (fillPiece p f true bytes) w
    else Asks (Q f.slot (v.directory.get f.slot)) (fillPiece p f false bytes) v

/-- What the cache of the file at a place asks while a stretch is read. -/
def StretchAsks (Q : Slot → Entry → Request → Prop) (p : Place) (count : Nat) (v : Volume (Metered δ)) : Prop :=
  ∀ f, v.handles.fileAt? p = some f → Asks (Q f.slot (v.directory.get f.slot)) (readStretch p count) v

/-- What the cache of the file at a place asks when it is written back. -/
def PlaceAsks (Q : Slot → Entry → Request → Prop) (p : Place) (v : Volume (Metered δ)) : Prop :=
  ∀ f, v.handles.fileAt? p = some f → Asks (Q f.slot (v.directory.get f.slot)) (writeBackAt p) v

end Volume

open Volume

section

variable {δ : Type} [BlockDevice δ]

/-- What the caches ask in the course of an operation satisfies `Q`, together with the slot of their file and the
entry in it at the time. Of the other operations no cache has a part. -/
def Operation.CacheAsks (Q : Slot → Entry → Request → Prop) (op : Operation) (v : Volume (Metered δ)) : Prop :=
  match op with
  | .read hd length => ∀ f, v.handles.file? hd = some f → f.mode = .read →
      Each (readStretch hd.place) (StretchAsks Q hd.place)
        (stretches f.position (min length ((v.directory.get f.slot).size.toNat - f.position))) v
  | .write hd data => ∀ f, v.handles.file? hd = some f → f.mode = .write →
      Each (writePiece hd.place) (PieceAsks Q hd.place) (pieces f.position data) v
  | .close hd => ∀ f handles, v.handles.release? hd = some (f, handles) →
      Asks (Q f.slot (v.directory.get f.slot)) (onDevice f.cache.writeBack) { v with handles := handles }
  | .unmount => Each writeBackAt (PlaceAsks Q) (List.finRange maxOpenFiles) v
  | _ => True

/-- Caches ask what follows from what they ask. -/
theorem Operation.CacheAsks.mono {Q Q' : Slot → Entry → Request → Prop} (hle : ∀ slot e q, Q slot e q → Q' slot e q)
    {op : Operation} {v : Volume (Metered δ)} (h : op.CacheAsks Q v) : op.CacheAsks Q' v := by
  cases op with
  | read hd length =>
    exact fun f hf hmode => (h f hf hmode).mono fun _ _ hstretch g hp => (hstretch g hp).mono (hle _ _)
  | write hd data =>
    refine fun f hf hmode => (h f hf hmode).mono fun bytes w hpiece g hp => ?_
    have hpiece := hpiece g hp
    split at hpiece
    · rename_i hfresh
      rw [if_pos hfresh]
      exact hpiece.mono fun _ _ hr ha => (hr ha).mono (hle _ _)
    · rename_i hfresh
      rw [if_neg hfresh]
      exact hpiece.mono (hle _ _)
  | close hd => exact fun f handles hr => (h f handles hr).mono (hle _ _)
  | unmount => exact Each.mono (fun _ _ hplace g hp => (hplace g hp).mono (hle _ _)) h
  | _ => exact trivial

end

namespace Volume

variable {δ α : Type} [BlockDevice δ] {v w : Volume (Metered δ)} {P : Request → Prop} {p : Place} {f : OpenFile}

/-- Without a file at the place nothing is asked. -/
theorem asks_noFile {k : Volume (Metered δ) → OpenFile → VolumeAction (Metered δ) α}
    (hf : v.handles.fileAt? p = none) : Asks P (Action.get >>= fun v => liftM (v.fileAt p) >>= k v) v := by
  refine asks_get_bind (asks_check_bind (fun _ => not_io_of_fileAt) fun file hfile => ?_)
  unfold fileAt at hfile
  rw [hf] at hfile
  cases hfile

theorem writePiece_asks {bytes : List UInt8} (h : PieceAsks (fun _ _ => P) p bytes v) :
    Asks P (writePiece p bytes) v := by
  cases hf : v.handles.fileAt? p with
  | none => exact asks_noFile hf
  | some f =>
    have hpiece := h f hf
    refine (ensures_writePiece hf).mpr ?_
    split at hpiece
    · rename_i hfresh
      rw [if_pos hfresh]
      exact asks_bind (growEntry_asks _) (hpiece.mono fun r w hr _ ha => hr ha)
    · rename_i hfresh
      rw [if_neg hfresh]
      exact hpiece

theorem writePieces_asks {l : List (List UInt8)} (h : Each (writePiece p) (PieceAsks (fun _ _ => P) p) l v) :
    Asks P (writePieces p l) v := by
  induction l generalizing v with
  | nil => exact asks_pure _
  | cons bytes rest ih => exact asks_bind (writePiece_asks h.1) (h.2.mono fun r w hr a ha => ih (hr a ha))

theorem readStretches_asks {l : List Nat} (h : Each (readStretch p) (StretchAsks (fun _ _ => P) p) l v) :
    Asks P (readStretches p l) v := by
  induction l generalizing v with
  | nil => exact asks_pure _
  | cons count rest ih =>
    have hstretch : Asks P (readStretch p count) v := by
      cases hf : v.handles.fileAt? p with
      | none => exact asks_noFile hf
      | some f => exact h.1 f hf
    refine asks_bind hstretch (h.2.mono fun r w hr a ha => ?_)
    exact (ih (hr a ha)).bind fun _ _ => asks_pure _

theorem writeBackAll_asks {l : List Place} (h : Each writeBackAt (PlaceAsks fun _ _ => P) l v) :
    Asks P (writeBackAll l) v := by
  induction l generalizing v with
  | nil => exact asks_pure _
  | cons p rest ih =>
    refine asks_bind ?_ (h.2.mono fun r w hr a ha => ih (hr a ha))
    cases hf : v.handles.fileAt? p with
    | none =>
      unfold writeBackAt
      refine asks_get_bind ?_
      simp only [hf]
      exact asks_pure _
    | some f => exact h.1 f hf

/-- What an operation yields is not asked of the device. -/
theorem Asks.discard {x : VolumeAction (Metered δ) α} (h : Asks P x v) : Asks P (x >>= fun _ => pure ()) v :=
  h.bind fun _ _ => asks_pure _

theorem asks_question {r : Volume (Metered δ) → Except Error α} (hr : OnlyMistakes (r v)) :
    Asks P (Action.get >>= fun v => liftM (r v) >>= fun _ => pure () : VolumeAction (Metered δ) Unit) v :=
  asks_get_bind (asks_check_bind (fun d hd => hr.not_isIo ⟨d, hd⟩) fun _ _ => asks_pure _)

variable [LawfulDevice δ]

theorem close_asks {hd : Handle} (h : (Operation.close hd).CacheAsks (fun _ _ => P) v)
    (hP : ∀ q : Request, q.Describes → P q) : Asks P (close hd : VolumeAction (Metered δ) Unit) v := by
  unfold close
  refine ensures_whenMounted.mpr ⟨fun _ => ?_, fun _ => asks_throw (by simp)⟩
  cases hr : v.handles.release? hd with
  | none => exact asks_throw (by simp)
  | some released =>
    obtain ⟨f, handles⟩ := released
    have hcache : Asks P (do if f.mode = .write then let _ ← onDevice f.cache.writeBack : VolumeAction (Metered δ) Unit)
        { v with handles := handles } := by
      split
      · exact (h f handles hr).discard
      · exact asks_pure _
    simp only [ensures_bind, ensures_modify, ensures_attempt, ensures_liftM]
    apply Ensures.mono hcache
    intro r₁ w₁ h₁
    apply Ensures.mono (flush_asks (v := w₁) hP)
    intro r₂ w₂ h₂
    -- of the two failures the first is the one that is told
    cases r₁ <;> cases r₂ <;> exact h₁.join h₂ (by simp [deviceError?])

theorem unmount_asks (h : Operation.unmount.CacheAsks (fun _ _ => P) v) (hP : ∀ q : Request, q.Describes → P q) :
    Asks P (unmount : VolumeAction (Metered δ) Unit) v := by
  unfold unmount
  refine ensures_whenMounted.mpr ⟨fun _ => ?_, fun _ => asks_throw (by simp)⟩
  refine (writeBackAll_asks h).bind fun _ w => (storeMetadata_asks hP).bind fun _ w' => ?_
  exact Journal.refl _

end Volume

/-- **What an operation asks is asked by a cache or about the description.** -/
theorem Operation.asks {δ : Type} [BlockDevice δ] [LawfulDevice δ] {v : Volume (Metered δ)} {P : Request → Prop}
    {op : Operation} (hmount : op ≠ .mount) (hn : volumeBlocks ≤ deviceSize v.device)
    (h : op.CacheAsks (fun _ _ => P) v) (hP : ∀ q : Request, q.Describes → P q) :
    Asks P (op.perform : VolumeAction (Metered δ) Unit) v := by
  cases op with
  | create path kind => exact create_asks hP
  | delete path => exact delete_asks hP
  | openPath path mode => exact (openPath_asks hP).discard
  | read hd length =>
    refine Asks.discard (ensures_whenOpen (fun _ he => asks_mistake he) fun _ f hf => ?_)
    split
    · exact readStretches_asks (h f hf ‹_›)
    · exact ensures_bind.mpr (asks_throw (by simp))
  | write hd data =>
    refine Asks.discard (ensures_whenOpen (fun _ he => asks_mistake he) fun _ f hf => ?_)
    split
    · exact (writePieces_asks (h f hf ‹_›)).bind fun _ _ => asks_pure _
    · exact ensures_bind.mpr (asks_throw (by simp))
  | seek hd offset => exact Asks.discard (ensures_whenOpen (fun _ he => asks_mistake he) fun _ f _ => Journal.refl _)
  | close hd => exact close_asks h hP
  | flush => exact flush_asks hP
  | format => exact format_asks hn hP
  | unmount => exact unmount_asks h hP
  | mount => exact absurd rfl hmount
  | tell hd => exact asks_question (onlyMistakes_tell hd)
  | list path => exact asks_question (onlyMistakes_list path)
  | stat path => exact asks_question (onlyMistakes_stat path)
  | stats => exact asks_question onlyMistakes_stats

end BlockVolume
