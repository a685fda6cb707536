import BlockVolume.Proofs.Namespace.Lookup
import BlockVolume.Proofs.Volume.Storage

/-!
# `Proofs.Volume.Step` — what a volume does, step by step

Every operation but mounting is a sequence of steps of a few kinds. A step changes the device, or the
open file at one place, or one entry, and carries what the operation has checked before it took the
step. What holds of every step holds of every operation, however it ends.

## Contents
- **`Change`**: the kinds of steps; **`Step`**: the steps themselves.
- **`Trace`**: steps one after the other, of the kinds that are allowed.
- **`Step.sound`**, **`Trace.sound`**: a sound volume stays sound; **`Trace.reliable`**: and a reliable
  device reliable.
-/

namespace BlockVolume

open Space

/-- The kinds of steps. Those that give or take bytes or blocks of a file name its slot, and the one that
adds an entry names its path. -/
inductive Change where
  /-- The description of the volume reaches the device. -/
  | store
  /-- A dirty cache reaches the device. -/
  | writeBack
  /-- A clean cache is dropped or becomes the copy of another block. -/
  | load
  /-- The position of an open file moves. -/
  | place
  /-- A file is given a block. -/
  | grow (slot : Slot)
  /-- Bytes go into the cache of a writer. -/
  | put (slot : Slot)
  /-- A new entry is added at a path. -/
  | insert (path : Path)
  /-- An entry is removed. -/
  | remove (slot : Slot)
  /-- A file is opened. -/
  | acquire
  /-- A handle that has nothing to write back is closed. -/
  | release
  /-- A handle is closed though its cache could not be written back. -/
  | discard (slot : Slot)
  /-- All handles are closed and the volume is left. -/
  | leave
  /-- The volume becomes an empty one in memory. -/
  | clear
  /-- The device refuses a request. -/
  | fault
  deriving DecidableEq

namespace Volume

variable {δ : Type} [BlockDevice δ] [LawfulDevice δ]

/-- Changes the open file at a place. -/
def editFile (v : Volume δ) (p : Place) (g : OpenFile → OpenFile) : Volume δ :=
  { v with handles := v.handles.modifyFile p g }

/-- What the cache of a writer holds before bytes go into block `b`: the block itself, if it is cached;
zeros, if the file has no bytes there; anything, if the bytes fill the block. -/
inductive Base (e : Entry) (f : OpenFile) (b count : Nat) : Block → Prop
  | cached : f.cache.block = some b → Base e f b count f.cache.data
  | fresh : f.cache.dirty = false → e.size.toNat ≤ f.position → f.position % blockSize = 0 →
      Base e f b count Block.zero
  | whole (data : Block) : f.cache.dirty = false → f.position % blockSize = 0 → count = blockSize →
      Base e f b count data

/-- The file `f` after `bytes` went at its position into block `b`, whose cache held `base` before. -/
def putFile (f : OpenFile) (b : Nat) (base : Block) (bytes : List UInt8) : OpenFile :=
  { f with
    position := f.position + bytes.length
    cache := ⟨some b, true, base.overlay (f.position % blockSize) bytes⟩ }

/-- The entry `e` after bytes were written up to `position`. -/
def putEntry (e : Entry) (position : Nat) : Entry :=
  { e with size := UInt32.ofNat (max e.size.toNat position) }

/-- The steps of a volume. -/
inductive Step : Change → Volume δ → Volume δ → Prop
  | store {v : Volume δ} {d : δ} : Served v.device d → Persisted (content d) v.space v.directory →
      (∀ b, firstDataBlock ≤ b → content d b = content v.device b) →
      Step .store v { v with device := d }
  | writeBack {v : Volume δ} {p : Place} {f : OpenFile} {b : Nat} {d : δ} :
      v.handles.fileAt? p = some f → f.cache.pending? = some b → Served v.device d →
      content d = Function.update (content v.device) b f.cache.data →
      Step .writeBack v
        (editFile { v with device := d } p fun f => { f with cache := { f.cache with dirty := false } })
  | forget {v : Volume δ} {p : Place} {f : OpenFile} :
      v.handles.fileAt? p = some f → f.cache.dirty = false →
      Step .load v (v.editFile p fun f => { f with cache := { f.cache with block := none } })
  | load {v : Volume δ} {p : Place} {f : OpenFile} {b : Nat} {d : δ} :
      v.handles.fileAt? p = some f → f.cache.dirty = false → owns (v.directory.get f.slot) b = true →
      Served v.device d → content d = content v.device →
      Step .load v
        (editFile { v with device := d } p fun f => { f with cache := ⟨some b, false, content v.device b⟩ })
  | place {v : Volume δ} {p : Place} {f : OpenFile} {n : Nat} :
      v.handles.fileAt? p = some f → n ≤ (v.directory.get f.slot).size.toNat →
      Step .place v (v.editFile p fun f => { f with position := n })
  | grow {v : Volume δ} {p : Place} {f : OpenFile} {g : Grant} :
      v.handles.fileAt? p = some f → f.mode = .write → v.space.grow (v.directory.get f.slot) = .ok g →
      Step (.grow f.slot) v { v with space := g.space, directory := v.directory.set f.slot g.entry }
  | put {v : Volume δ} {p : Place} {f : OpenFile} {b : Nat} {base : Block} {bytes : List UInt8} :
      v.handles.fileAt? p = some f → f.mode = .write →
      b = (v.directory.get f.slot).firstBlock.toNat + f.position / blockSize →
      owns (v.directory.get f.slot) b = true → f.position % blockSize + bytes.length ≤ blockSize →
      Base (v.directory.get f.slot) f b bytes.length base →
      Step (.put f.slot) v
        { v.editFile p fun f => putFile f b base bytes with
          directory := v.directory.set f.slot
            (putEntry (v.directory.get f.slot) (f.position + bytes.length)) }
  | insert {v : Volume δ} {path : Path} {kind : EntryKind} {slot : Slot} :
      path.isRoot = false → kind ≠ .empty → v.directory.find? path.text = none →
      v.ensureParent path = .ok () → v.directory.freeSlot? = some slot →
      Step (.insert path) v { v with directory := v.directory.set slot (Entry.ofName path.text kind) }
  | remove {v : Volume δ} {path : Path} {slot : Slot} {released : Release} :
      path.isRoot = false → v.directory.find? path.text = some slot →
      ((v.directory.get slot).isDirectory && v.directory.hasChildren path.text) = false →
      v.handles.references slot = false → v.space.release (v.directory.get slot) = .ok released →
      Step (.remove slot) v
        { v with space := released.space, directory := v.directory.set slot Entry.unused }
  | acquire {v : Volume δ} {slot : Slot} {mode : Mode} {h : Handle} {handles : Pool} :
      v.mounted = true → (v.directory.get slot).isFile = true → v.handles.conflicts slot mode = false →
      v.handles.acquire? (OpenFile.start slot mode) = some (h, handles) →
      Step .acquire v { v with handles := handles }
  | release {v : Volume δ} {h : Handle} {f : OpenFile} {handles : Pool} :
      v.handles.release? h = some (f, handles) → f.cache.dirty = false →
      Step .release v { v with handles := handles }
  | discard {v : Volume δ} {h : Handle} {f : OpenFile} {handles : Pool} :
      v.handles.release? h = some (f, handles) →
      Step (.discard f.slot) v { v with handles := handles }
  | leave {v : Volume δ} : (∀ p f, v.handles.fileAt? p = some f → f.cache.dirty = false) →
      Step .leave v { v with handles := v.handles.reset, mounted := false }
  | clear {v : Volume δ} :
      Step .clear v { v with handles := v.handles.reset, space := Space.fresh, directory := Directory.empty }
  | fault {v : Volume δ} {d : δ} : Refused v.device d →
      (∀ b, firstDataBlock ≤ b → content d b = content v.device b) →
      Step .fault v { v with device := d }

/-- Steps of the allowed kinds that lead from one volume to another. -/
inductive Trace (allowed : Change → Prop) (v : Volume δ) : Volume δ → Prop
  | refl : Trace allowed v v
  | tail {w x : Volume δ} {c : Change} : Trace allowed v w → Step c w x → allowed c → Trace allowed v x

namespace Trace

variable {allowed allowed' : Change → Prop} {u v w : Volume δ} {c : Change}

theorem single (h : Step c v w) (hc : allowed c) : Trace allowed v w :=
  .tail .refl h hc

theorem trans (h : Trace allowed u v) (h' : Trace allowed v w) : Trace allowed u w := by
  induction h' with
  | refl => exact h
  | tail _ hs hc ih => exact .tail ih hs hc

theorem mono (h : Trace allowed v w) (hle : ∀ c, allowed c → allowed' c) : Trace allowed' v w := by
  induction h with
  | refl => exact .refl
  | tail _ hs hc ih => exact .tail ih hs (hle _ hc)

end Trace

/-! ## A sound volume stays sound -/

variable {v w : Volume δ}

omit [LawfulDevice δ] in
theorem toNat_putEntry_size {e : Entry} {n : Nat} (h : n < UInt32.size) :
    (putEntry e n).size.toNat = max e.size.toNat n :=
  UInt32.toNat_ofNat_of_lt' (Nat.max_lt.mpr ⟨e.size.toNat_lt, h⟩)

namespace Sound

/-- The bytes of a file reach at most to the end of its run, and that is a small number. -/
theorem run_size_lt (h : v.Sound) (slot : Slot) :
    blockSize * (v.directory.get slot).blocks.toNat < UInt32.size := by
  by_cases h0 : (v.directory.get slot).blocks.toNat = 0
  · rw [h0]
    decide
  · have hle : (v.directory.get slot).blocks.toNat ≤ 1024 :=
      Nat.le_trans (Nat.le_add_left _ _) (h.allocated.run_bounds slot h0).2
    show 512 * (v.directory.get slot).blocks.toNat < 4294967296
    omega

/-- Bytes that lie in a block of a file end within its run. -/
theorem end_le_run {e : Entry} {position count : Nat}
    (hown : owns e (e.firstBlock.toNat + position / blockSize) = true)
    (hfit : position % blockSize + count ≤ blockSize) : position + count ≤ blockSize * e.blocks.toNat := by
  rw [owns_iff] at hown
  have hlt : position / 512 < e.blocks.toNat := by
    have := hown.2
    show position / blockSize < _
    omega
  have hfit' : position % 512 + count ≤ 512 := hfit
  show position + count ≤ 512 * e.blocks.toNat
  omega

/-- Replacing the device by one whose data blocks are the same. -/
theorem of_device (h : v.Sound) {d : δ} (hinfo : BlockDevice.info d = BlockDevice.info v.device)
    (hd : ∀ b, firstDataBlock ≤ b → content d b = content v.device b) : Sound { v with device := d } :=
  h.of_files h.allocated (deviceSize_congr hinfo) rfl fun _ f hf =>
    ⟨f, hf, rfl, rfl, (h.coherent hf).of_blocks fun b hb => hd b (h.owned_bounds hb).1⟩

/-- A dirty cache reaches the device and is clean then. -/
theorem of_writeBack (h : v.Sound) {p : Place} {f : OpenFile} {b : Nat} {d : δ}
    (hp : v.handles.fileAt? p = some f) (hb : f.cache.pending? = some b)
    (hinfo : BlockDevice.info d = BlockDevice.info v.device)
    (hd : content d = Function.update (content v.device) b f.cache.data) :
    Sound (editFile { v with device := d } p fun f => { f with cache := { f.cache with dirty := false } }) := by
  have hc := h.coherent hp
  refine h.of_edit hp rfl rfl rfl h.allocated (deviceSize_congr hinfo) rfl ?_ ?_
  · refine ⟨hc.kind, hc.position_le, hc.owned, ?_, fun hd => by cases hd⟩
    intro b' hb' _
    have hbb : b' = b := Option.some.inj (hb'.symm.trans (Cache.pending?_eq_some.mp hb).2)
    show f.cache.data = content d b'
    rw [hd, hbb, Function.update_self]
  · intro q f' hq hf'
    apply (h.coherent hf').of_blocks
    intro b' hb'
    show content d b' = content v.device b'
    rw [hd]
    -- the block belongs to another file, because a writer has its file to itself
    have hne : b' ≠ b := fun he => hq (h.pending_unique hp hf' hb (he ▸ hb')).symm
    exact Function.update_of_ne hne _ _

/-- A file is given the block after its run. -/
theorem of_grow (h : v.Sound) {p : Place} {f : OpenFile} {g : Grant} (hp : v.handles.fileAt? p = some f)
    (hg : v.space.grow (v.directory.get f.slot) = .ok g) :
    Sound { v with space := g.space, directory := v.directory.set f.slot g.entry } := by
  obtain ⟨-, -, -, -, he⟩ := grow_eq_ok hg
  refine h.of_files (h.allocated.grow (h.coherent hp).kind hg) rfl rfl ?_
  intro q f' hq
  refine ⟨f', hq, rfl, rfl, ?_⟩
  show f'.Coherent _ ((v.directory.set f.slot g.entry).get f'.slot)
  rw [Directory.get_set]
  by_cases hs : f'.slot = f.slot
  · rw [if_pos hs]
    refine (h.coherent hq).of_entry ?_ ?_ ?_
    · rw [hs]
      exact he.kind
    · rw [hs, he.size]
    · intro b hb
      rw [hs] at hb
      exact (he.owns_iff b).mpr (Or.inl hb)
  · rw [if_neg hs]
    exact h.coherent hq

/-- Bytes go into the cache of a writer. -/
theorem of_put (h : v.Sound) {p : Place} {f : OpenFile} {b : Nat} {base : Block} {bytes : List UInt8}
    (hp : v.handles.fileAt? p = some f) (hm : f.mode = .write)
    (hb : b = (v.directory.get f.slot).firstBlock.toNat + f.position / blockSize)
    (hown : owns (v.directory.get f.slot) b = true)
    (hfit : f.position % blockSize + bytes.length ≤ blockSize) :
    Sound { v.editFile p fun f => putFile f b base bytes with
      directory := v.directory.set f.slot
        (putEntry (v.directory.get f.slot) (f.position + bytes.length)) } := by
  have hc := h.coherent hp
  -- the new size stays within the run, so it does not wrap around
  have hend := end_le_run (hb ▸ hown) hfit
  have hsize := toNat_putEntry_size (e := v.directory.get f.slot)
    (Nat.lt_of_le_of_lt hend (h.run_size_lt f.slot))
  have hall : Allocated v.space (v.directory.set f.slot
      (putEntry (v.directory.get f.slot) (f.position + bytes.length))) := by
    refine h.allocated.replace rfl (fun _ => rfl) ?_ (h.allocated.blocks_of_not_file f.slot)
    rw [hsize]
    exact Nat.max_le.mpr ⟨h.allocated.size_le f.slot, hend⟩
  refine h.of_edit hp rfl rfl rfl hall rfl rfl ?_ ?_
  · show OpenFile.Coherent _ ((v.directory.set f.slot _).get f.slot) _
    rw [Directory.get_set, if_pos rfl]
    refine ⟨hc.kind, ?_, ?_, fun _ hd => (by cases hd), fun _ => ⟨hm, rfl⟩⟩
    · rw [hsize]
      exact Nat.le_max_right _ _
    · intro b' hb'
      obtain rfl : b = b' := Option.some.inj hb'
      exact hown
  · -- nobody shares the file of a writer, so the entries of all others stay
    intro q f' hq hf'
    have hs : f'.slot ≠ f.slot := fun hs => hq (h.exclusive hp hf' hs.symm hm).symm
    show OpenFile.Coherent _ ((v.directory.set f.slot _).get f'.slot) _
    rw [Directory.get_set, if_neg hs]
    exact h.coherent hf'

/-- An entry that no open file belongs to may change, if space and directory still agree. -/
theorem of_entry (h : v.Sound) {slot : Slot} {e : Entry} {s : Space}
    (hfree : ∀ p f, v.handles.fileAt? p = some f → f.slot ≠ slot)
    (hall : Allocated s (v.directory.set slot e)) :
    Sound { v with space := s, directory := v.directory.set slot e } := by
  refine h.of_files hall rfl rfl ?_
  intro p f hp
  refine ⟨f, hp, rfl, rfl, ?_⟩
  show f.Coherent _ ((v.directory.set slot e).get f.slot)
  rw [Directory.get_set, if_neg (hfree p f hp)]
  exact h.coherent hp

/-- A new entry goes into an unused slot. -/
theorem of_insert (h : v.Sound) {slot : Slot} (he : (v.directory.get slot).isEmpty = true) (text : String)
    (kind : EntryKind) : Sound { v with directory := v.directory.set slot (Entry.ofName text kind) } := by
  have hk : (v.directory.get slot).kind = .empty := by simpa [Entry.isEmpty] using he
  have hblocks := h.allocated.blocks_of_not_file slot (by rw [hk]; decide)
  refine h.of_entry (h.guarded.slot_ne_of_isEmpty he) ?_
  refine h.allocated.replace ?_ (fun hne => absurd rfl hne) (Nat.zero_le _) fun _ => rfl
  exact UInt32.toNat_inj.mp hblocks.symm

/-- A file that nobody else may write is opened. -/
theorem of_acquire (h : v.Sound) {slot : Slot} {mode : Mode} {hd : Handle} {handles : Pool}
    (hm : v.mounted = true) (hk : (v.directory.get slot).isFile = true)
    (hconf : v.handles.conflicts slot mode = false)
    (ha : v.handles.acquire? (OpenFile.start slot mode) = some (hd, handles)) :
    Sound { v with handles := handles } := by
  have hguarded := h.guarded.of_acquire hm hk hconf ha
  refine ⟨h.allocated, h.size_le, ?_, hguarded.exclusive, hguarded.closed⟩
  intro p f hp
  rcases Pool.file_of_acquire? ha hp with ⟨-, rfl⟩ | hf
  · exact OpenFile.Coherent.start slot mode (by simpa [Entry.isFile, OpenFile.start] using hk)
  · exact h.coherent hf

/-- A handle is closed. -/
theorem of_release (h : v.Sound) {hd : Handle} {f : OpenFile} {handles : Pool}
    (hr : v.handles.release? hd = some (f, handles)) : Sound { v with handles := handles } := by
  obtain ⟨-, rfl⟩ := Pool.release?_eq_some hr
  refine h.of_files h.allocated rfl rfl ?_
  intro q f' hq
  rw [Pool.fileAt?_setPlace] at hq
  by_cases hqh : q = hd.place
  · rw [if_pos hqh] at hq
    cases hq
  · rw [if_neg hqh] at hq
    exact ⟨f', hq, rfl, rfl, h.coherent hq⟩

end Sound

/-- **A step of a sound volume leads to a sound volume.** -/
theorem Step.sound {c : Change} (hs : Step c v w) (h : v.Sound) : w.Sound := by
  -- one case for each kind; those that change one open file are instances of `of_edit`
  cases hs with
  | store hd _ hc => exact h.of_device hd.info hc
  | writeBack hp hb hd hc => exact h.of_writeBack hp hb hd.info hc
  | forget hp hclean =>
    have hc := h.coherent hp
    refine h.of_edit hp rfl rfl rfl h.allocated rfl rfl ?_ fun q f' _ hf' => h.coherent hf'
    exact ⟨hc.kind, hc.position_le, fun hb => (by cases hb), fun hb => (by cases hb),
      fun hd => by cases hclean.symm.trans hd⟩
  | @load _ p f b d hp _ hown hd hcontent =>
    have hc := h.coherent hp
    refine h.of_edit hp rfl rfl rfl h.allocated (deviceSize_congr hd.info) rfl ?_ ?_
    · refine ⟨hc.kind, hc.position_le, ?_, ?_, fun hd => by cases hd⟩
      · intro b' hb
        exact Option.some.inj hb ▸ hown
      · intro b' hb _
        show content v.device b = content d b'
        rw [hcontent, Option.some.inj hb]
    · intro q f' _ hf'
      exact (h.coherent hf').of_blocks fun _ _ => congrFun hcontent _
  | place hp hn =>
    have hc := h.coherent hp
    exact h.of_edit hp rfl rfl rfl h.allocated rfl rfl ⟨hc.kind, hn, hc.owned, hc.clean, hc.dirty⟩
      fun q f' _ hf' => h.coherent hf'
  | grow hp _ hg => exact h.of_grow hp hg
  | put hp hm hb hown hfit _ => exact h.of_put hp hm hb hown hfit
  | insert _ _ _ _ hfree => exact h.of_insert (Directory.isEmpty_of_freeSlot? hfree) _ _
  | remove _ _ _ href hrel =>
    obtain ⟨released, hok, -, hall⟩ := h.allocated.release _
    obtain rfl := Except.ok.inj (hrel.symm.trans hok)
    exact h.of_entry (Pool.references_eq_false.mp href) hall
  | acquire hm hk hconf ha => exact h.of_acquire hm hk hconf ha
  | release hr _ => exact h.of_release hr
  | discard hr => exact h.of_release hr
  | leave _ => exact .of_no_files h.allocated h.size_le fun _ => Pool.fileAt?_reset _ _
  | clear => exact .of_no_files .fresh h.size_le fun _ => Pool.fileAt?_reset _ _
  | fault hd hc => exact h.of_device hd.info hc

/-- **Steps of a sound volume lead to a sound volume.** -/
theorem Trace.sound {allowed : Change → Prop} (ht : Trace allowed v w) (h : v.Sound) : w.Sound := by
  induction ht with
  | refl => exact h
  | tail _ hs _ ih => exact hs.sound ih

/-! ## A reliable device stays reliable -/

/-- A step is no fault of a reliable device and leaves it reliable. -/
theorem Step.reliable {c : Change} (hs : Step c v w) (h : Reliable v.device) :
    c ≠ .fault ∧ Reliable w.device := by
  cases hs with
  | store hd _ _ => exact ⟨by simp, hd.reliable h⟩
  | writeBack _ _ hd _ => exact ⟨by simp, hd.reliable h⟩
  | load _ _ _ hd _ => exact ⟨by simp, hd.reliable h⟩
  | fault hd _ => exact absurd h hd.unreliable
  | _ => exact ⟨by simp, h⟩

theorem Trace.reliable {allowed : Change → Prop} (ht : Trace allowed v w) (h : Reliable v.device) :
    Reliable w.device := by
  induction ht with
  | refl => exact h
  | tail _ hs _ ih => exact (hs.reliable ih).2

/-! ## Only leaving the volume says whether it is mounted -/

theorem Step.mounted_eq {c : Change} (hs : Step c v w) (hc : c ≠ .leave) : w.mounted = v.mounted := by
  cases hs with
  | leave _ => exact absurd rfl hc
  | _ => rfl

theorem Trace.mounted_eq {allowed : Change → Prop} (ht : Trace allowed v w) (hc : ¬allowed .leave) :
    w.mounted = v.mounted := by
  induction ht with
  | refl => rfl
  | tail _ hs hallowed ih => exact (hs.mounted_eq fun he => hc (he ▸ hallowed)).trans ih

end Volume

end BlockVolume
