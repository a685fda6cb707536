import BlockVolume.Device.MemoryDisk
import BlockVolume.Proofs.Volume.Frame
import BlockVolume.Proofs.Volume.Run

/-!
# `Proofs.Volume.Names` — names are unique, and entries are found under them

The name field of an entry holds a path up to its first NUL. As long as no path with a NUL is created, no
two entries have the same name, and what was created is found at its path. A path with a NUL is accepted
all the same: its entry is stored under the text before the NUL, so it is not found at the path, and the
path can be created again.

## Contents
- **`Directory.Distinct`** and `Directory.Absolute`: what is true of the names.
- **`Step.namespace_cases`**: what a step may do to the namespace; `Step.name_cases`, **`namesInvariant`**.
- **`Found`**: an entry answers at its path; **`Creates`**: the two ways to create one.
- **`Creates.found_iff`** and **`Creates.distinct_iff`**, **`Begun.names`**.
- `duplicate_names_of_nul`: two entries with one name.
-/

namespace BlockVolume

open BlockVolume.Action

namespace Directory

/-- No two entries in use have the same name. -/
def Distinct (d : Directory) : Prop :=
  ∀ i j, (d.get i).isEmpty = false → (d.get j).isEmpty = false → (d.get i).name = (d.get j).name → i = j

/-- Every entry in use has a name that begins with a slash. -/
def Absolute (d : Directory) : Prop :=
  ∀ i, (d.get i).isEmpty = false → Path.isAbsolute (d.get i).name = true

theorem isEmpty_get_empty (slot : Slot) : (empty.get slot).isEmpty = true := by
  simp [Entry.unused, Entry.isEmpty]

/-- An entry that is replaced by one of its name and kind leaves all names and kinds as they are. -/
theorem label_set {d : Directory} {i : Slot} {e : Entry} (he : e.label = (d.get i).label) (j : Slot) :
    ((d.set i e).get j).label = (d.get j).label := by
  rw [get_set]
  by_cases hj : j = i
  · rw [if_pos hj, hj, he]
  · rw [if_neg hj]

/-- Names that begin with a slash need no migration. -/
theorem Absolute.migrationCount_eq {d : Directory} (h : d.Absolute) : d.migrationCount = 0 := by
  rw [migrationCount_eq_zero_iff]
  intro slot
  have hlegacy : (d.get slot).isLegacy = false := by
    cases hused : (d.get slot).isEmpty with
    | true => simp [Entry.isLegacy, hused]
    | false => simp [Entry.isLegacy, h slot hused]
  rw [hlegacy, Bool.false_and]

theorem Absolute.migrate_eq {d : Directory} (h : d.Absolute) : d.migrate = d :=
  migrate_eq_self h.migrationCount_eq

end Directory

/-- A new entry has the name that its path leaves. -/
theorem Entry.name_ofPath (p : Path) (kind : EntryKind) : (ofName p.text kind).name = Text.untilNul p.text :=
  name_ofName p.short kind

namespace Volume

variable {δ : Type} [BlockDevice δ] [LawfulDevice δ] {u v w : Volume δ} {slot : Slot} {c : Change}

/-! ## What steps do to names -/

/-- A step keeps all names and kinds, or adds one entry, or removes one, or removes all. -/
theorem Step.namespace_cases (hs : Step c v w) :
    (∀ slot, (w.directory.get slot).label = (v.directory.get slot).label) ∨
    (∃ (path : Path) (kind : EntryKind) (slot : Slot), c = .insert path ∧ path.isRoot = false ∧ kind ≠ .empty ∧
      v.directory.find? path.text = none ∧ v.ensureParent path = .ok () ∧ v.directory.freeSlot? = some slot ∧
      w.directory = v.directory.set slot (Entry.ofName path.text kind)) ∨
    (∃ (path : Path) (slot : Slot), v.directory.find? path.text = some slot ∧
      ((v.directory.get slot).isDirectory && v.directory.hasChildren path.text) = false ∧
      w.directory = v.directory.set slot Entry.unused) ∨
    w.directory = Directory.empty := by
  cases hs with
  | grow _ _ hg =>
    obtain ⟨-, -, -, -, he⟩ := Space.grow_eq_ok hg
    exact Or.inl (Directory.label_set (Prod.ext he.nameField he.kind))
  | @put _ _ f _ _ bytes _ _ _ _ _ _ =>
    exact Or.inl (Directory.label_set (i := f.slot)
      (e := putEntry (v.directory.get f.slot) (f.position + bytes.length)) rfl)
  | insert hroot hk hfind hparent hfree =>
    exact Or.inr (Or.inl ⟨_, _, _, rfl, hroot, hk, hfind, hparent, hfree, rfl⟩)
  | remove _ hfind hchildren _ _ => exact Or.inr (Or.inr (Or.inl ⟨_, _, hfind, hchildren, rfl⟩))
  | clear => exact Or.inr (Or.inr (Or.inr rfl))
  | _ => exact Or.inl fun _ => rfl

/-- After a step an entry is unused, or has the name that it had, or was added just now. -/
theorem Step.name_cases (hs : Step c v w) (slot : Slot) :
    (w.directory.get slot).isEmpty = true ∨
    ((w.directory.get slot).isEmpty = (v.directory.get slot).isEmpty ∧
      (w.directory.get slot).name = (v.directory.get slot).name) ∨
    ∃ path kind, c = .insert path ∧ v.directory.freeSlot? = some slot ∧
      v.directory.find? path.text = none ∧ w.directory.get slot = Entry.ofName path.text kind := by
  rcases hs.namespace_cases with hlabel | ⟨path, kind, slot', rfl, -, -, hfind, -, hfree, hdir⟩ |
    ⟨path, slot', -, -, hdir⟩ | hdir
  · have h := hlabel slot
    exact Or.inr (Or.inl ⟨Entry.isEmpty_congr (congrArg Prod.snd h), Entry.name_congr (congrArg Prod.fst h)⟩)
  · rw [hdir, Directory.get_set]
    by_cases hslot : slot = slot'
    · rw [if_pos hslot]
      exact Or.inr (Or.inr ⟨path, kind, rfl, hslot ▸ hfree, hfind, rfl⟩)
    · rw [if_neg hslot]
      exact Or.inr (Or.inl ⟨rfl, rfl⟩)
  · rw [hdir, Directory.get_set]
    by_cases hslot : slot = slot'
    · rw [if_pos hslot]
      exact Or.inl rfl
    · rw [if_neg hslot]
      exact Or.inr (Or.inl ⟨rfl, rfl⟩)
  · rw [hdir]
    exact Or.inl (Directory.isEmpty_get_empty slot)

/-- Names begin with a slash after every step. -/
theorem Step.absolute (hs : Step c v w) (h : v.directory.Absolute) : w.directory.Absolute := by
  intro i hused
  rcases hs.name_cases i with he | ⟨he, hname⟩ | ⟨path, kind, -, -, -, he⟩
  · rw [he] at hused
    cases hused
  · rw [hname]
    exact h i (he ▸ hused)
  · rw [he, Entry.name_ofPath]
    exact path.isAbsolute_untilNul

/-- A step that adds no path with a NUL keeps names apart. -/
theorem Step.distinct (hs : Step c v w) (hc : ∀ path, c = .insert path → '\x00' ∉ path.text.toList)
    (h : v.directory.Distinct) : w.directory.Distinct := by
  intro i j hi hj hname
  -- each of the two entries is unused, was there before, or is the new one
  rcases hs.name_cases i with he | ⟨he, hn⟩ | ⟨path, kind, rfl, hfree, hfind, he⟩ <;>
    rcases hs.name_cases j with he' | ⟨he', hn'⟩ | ⟨path', kind', heq, hfree', hfind', he'⟩
  · rw [he] at hi
    cases hi
  · rw [he] at hi
    cases hi
  · rw [he] at hi
    cases hi
  · rw [he'] at hj
    cases hj
  · exact h i j (he ▸ hi) (he' ▸ hj) (hn.symm.trans (hname.trans hn'))
  · -- the entry in `j` is new, and its path was found nowhere
    rw [hn, he', Entry.name_ofPath, Text.untilNul_eq_self (hc path' heq)] at hname
    exact absurd hname (Directory.name_ne_of_find? hfind' (he ▸ hi))
  · rw [he'] at hj
    cases hj
  · rw [hn', he, Entry.name_ofPath, Text.untilNul_eq_self (hc path rfl)] at hname
    exact absurd hname.symm (Directory.name_ne_of_find? hfind (he' ▸ hj))
  · exact Option.some.inj (hfree.symm.trans hfree')

/-- Names begin with a slash, so that mounting changes none. -/
theorem absoluteInvariant : Invariant (fun _ d => d.Absolute) fun _ => True where
  fresh i hused := by
    rw [Directory.isEmpty_get_empty] at hused
    cases hused
  migrate h := by rwa [h.migrate_eq]
  step hs _ _ h := hs.absolute h

/-- Without NULs names stay unique, and they begin with a slash, so that mounting changes none. -/
theorem namesInvariant : Invariant (fun _ d => d.Absolute ∧ d.Distinct)
    (fun c => ∀ path, c = .insert path → '\x00' ∉ path.text.toList) where
  fresh := by
    refine ⟨absoluteInvariant.fresh, ?_⟩
    intro i _ hused _ _
    rw [Directory.isEmpty_get_empty] at hused
    cases hused
  migrate h := by rwa [h.1.migrate_eq]
  step hs _ hc h := ⟨hs.absolute h.1, hs.distinct hc h.2⟩

end Volume

/-- Whether the operation creates no entry at a path with a NUL. -/
def Operation.NulFree : Operation → Prop
  | .create path _ | .openPath path .write => '\x00' ∉ path.toList
  | _ => True

instance : DecidablePred Operation.NulFree
  | .create path _ | .openPath path .write => inferInstanceAs (Decidable ('\x00' ∉ path.toList))
  | .openPath _ .read | .delete _ | .read _ _ | .write _ _ | .seek _ _ | .tell _ | .close _ | .flush | .list _
  | .stat _ | .stats | .format | .unmount | .mount => .isTrue trivial

/-- The path at which the operation creates an entry, if it may create one. -/
def Operation.target? : Operation → Option String
  | .create path _ | .openPath path .write => some path
  | _ => none

theorem Operation.nul_not_mem_target {op : Operation} (h : op.NulFree) (path : String)
    (ht : op.target? = some path) : '\x00' ∉ path.toList := by
  unfold target? at ht
  split at ht
  · obtain rfl := Option.some.inj ht
    exact h
  · obtain rfl := Option.some.inj ht
    exact h
  · cases ht

namespace Volume

variable {δ : Type} [BlockDevice δ] [LawfulDevice δ] {u v w : Volume δ} {slot : Slot}

/-- An operation whose target names an allowed path adds entries at allowed paths only. -/
theorem admitted_of_target {Q : Path → Prop} {op : Operation}
    (h : ∀ text p, op.target? = some text → Path.ofString? text = some p → Q p) :
    Admitted (fun c => ∀ path, c = .insert path → Q path) op := by
  intro δ v c hc path he
  subst he
  cases op with
  | create text kind =>
    cases hp : Path.ofString? text with
    | none => simp [Operation.acts, Operation.faults, hp] at hc
    | some p =>
      obtain rfl : path = p := by simpa [Operation.acts, Operation.faults, hp] using hc
      exact h text path rfl hp
  | openPath text mode =>
    cases hp : Path.ofString? text with
    | none => simp [Operation.acts, Operation.faults, hp] at hc
    | some p =>
      cases mode with
      | read => simp [Operation.acts, Operation.faults, hp, opening] at hc
      | write =>
        obtain rfl : path = p := by simpa [Operation.acts, Operation.faults, hp, opening] using hc
        exact h text path rfl hp
  | delete text => cases hs : v.slotOf? text <;> simp [Operation.acts, Operation.faults, hs] at hc
  | write hd data =>
    cases hf : v.handles.file? hd <;> simp [Operation.acts, Operation.faults, hf, writing] at hc
  | close hd => cases hf : v.handles.file? hd <;> simp [Operation.acts, Operation.faults, hf, closing] at hc
  | _ => simp [Operation.acts, Operation.faults, reading] at hc

theorem admitted_of_nulFree {op : Operation} (h : op.NulFree) :
    Admitted (fun c => ∀ path, c = .insert path → '\x00' ∉ path.text.toList) op :=
  admitted_of_target fun text _ ht hp hnul =>
    Operation.nul_not_mem_target h text ht ((Path.nul_mem_text hp).mp hnul)

/-! ## Entries that were created -/

/-- The entry of kind `kind` at a path answers: its path and kind are told, and none can be created there. -/
structure Found (w : Volume δ) (path : String) (kind : EntryKind) : Prop where
  stat : ∃ info, w.stat path = .ok info ∧ info.path = Path.canonicalize path ∧ info.kind = kind
  taken (other : EntryKind) : other ≠ .empty →
    (create path other : VolumeAction δ Unit).Ensures w fun r _ => r = .error .alreadyExists

/-- The volume `w` is what creating an entry at a path has left of `v`: by `create`, or by opening a
missing file for writing. -/
inductive Creates (v : Volume δ) (path : String) : EntryKind → Volume δ → Prop
  | create {kind : EntryKind} : (Volume.create path kind v).result = .ok () →
      Creates v path kind (Volume.create path kind v).state
  | openPath {hd : Handle} : v.slotOf? path = none → (Volume.openPath path .write v).result = .ok hd →
      Creates v path .file (Volume.openPath path .write v).state

theorem Step.isRoot_of_insert {p : Path} (hs : Step (.insert p) v w) : p.isRoot = false := by
  cases hs with
  | insert hroot _ _ _ _ => exact hroot

theorem Step.mounted_of_acquire (hs : Step .acquire v w) : v.mounted = true := by
  cases hs with
  | acquire hm _ _ _ => exact hm

/-- An entry that was added and stored is in a slot that was free, and the rest of the table is as before. -/
theorem Added.entry {p : Path} {kind : EntryKind} (h : Added v w p kind (.ok slot)) :
    p.isRoot = false ∧ v.directory.find? p.text = none ∧ (v.directory.get slot).isEmpty = true ∧
      w.mounted = v.mounted ∧ w.directory = v.directory.set slot (Entry.ofName p.text kind) := by
  obtain ⟨slot', hfind, hfree, hs, ⟨hr, hs'⟩ | ⟨hio, -⟩⟩ := h
  · obtain rfl := Except.ok.inj hr
    refine ⟨hs.isRoot_of_insert, hfind, Directory.isEmpty_of_freeSlot? hfree, ?_, ?_⟩ <;>
      rw [hs'.eq_of_store] <;> rfl
  · exact absurd hio (not_isIo_ok _)

/-- What was created is in a slot that was free, and the rest of the table is as before. -/
theorem Creates.entry {path : String} {kind : EntryKind} (h : Creates v path kind w) (hv : v.Sound) :
    ∃ p slot, Path.ofString? path = some p ∧ kind ≠ .empty ∧ p.isRoot = false ∧ w.mounted = true ∧
      v.directory.find? p.text = none ∧ (v.directory.get slot).isEmpty = true ∧
        w.directory = v.directory.set slot (Entry.ofName p.text kind) := by
  cases h with
  | create hok =>
    rcases create_cases hv path kind with ⟨p, r', hp, hk, hm, hadded, hr⟩ | ⟨e, -, hr, -⟩
    · rw [hok] at hr
      cases r' with
      | error e => cases hr
      | ok slot =>
        obtain ⟨hroot, hfind, hfree, hmounted, hdir⟩ := hadded.entry
        exact ⟨p, slot, hp, hk, hroot, hmounted.trans hm, hfind, hfree, hdir⟩
    · rw [hok] at hr
      cases hr
  | @openPath hd hmissing hok =>
    rcases openPath_cases hv path .write with ⟨p, hp, hopened⟩ | ⟨e, -, hr, -⟩
    · rw [hok] at hopened
      generalize (Volume.openPath path .write v).state = w at hopened ⊢
      cases hopened with
      | found hfind _ _ =>
        -- the file was missing
        rw [slotOf?, hp, Option.bind_some, hfind] at hmissing
        cases hmissing
      | created _ hadded _ hs =>
        obtain ⟨hroot, hfind, hfree, -, hdir⟩ := hadded.entry
        exact ⟨p, _, hp, by decide, hroot, hs.mounted_of_acquire, hfind, hfree, hdir⟩
    · rw [hok] at hr
      cases hr

/-- **What was created is found at its path just if the path holds no NUL.** -/
theorem Creates.found_iff {path : String} {kind : EntryKind} (h : Creates v path kind w) (hv : v.Sound) :
    Found w path kind ↔ '\x00' ∉ path.toList := by
  obtain ⟨p, slot, hp, hk, hroot, hm, hfind, -, hdir⟩ := h.entry hv
  have htext := Path.text_of_ofString? hp
  constructor
  · rintro ⟨⟨info, hstat, -, -⟩, -⟩ hnul
    have hnone : w.directory.find? p.text = none :=
      Directory.find?_eq_none_of_nul ((Path.nul_mem_text hp).mpr hnul) _
    simp [stat, ensureMounted, hm, resolve, hp, hroot, lookup, hnone, bind, Except.bind] at hstat
  · intro hnul
    have hnul' : '\x00' ∉ p.text.toList := fun h => hnul ((Path.nul_mem_text hp).mp h)
    have hname : (Entry.ofName p.text kind).name = p.text := by
      rw [Entry.name_ofPath, Text.untilNul_eq_self hnul']
    have hsome : w.directory.find? p.text = some slot := by
      rw [hdir]
      exact Directory.find?_set hfind (Directory.answers_ofName p.short hnul' hk)
    have hget : w.directory.get slot = Entry.ofName p.text kind := by
      rw [hdir, Directory.get_set, if_pos rfl]
    refine ⟨⟨.ofEntry (w.directory.get slot), ?_, ?_, ?_⟩, ?_⟩
    · simp [stat, ensureMounted, hm, resolve, hp, hroot, lookup, hsome, bind, Except.bind, pure, Except.pure]
    · show (w.directory.get slot).name = _
      rw [hget, hname, htext]
    · show (w.directory.get slot).kind = kind
      rw [hget]
      rfl
    · intro other hother
      unfold Volume.create
      refine ensures_whenMounted.mpr ⟨?_, fun hno => by cases hno.symm.trans hm⟩
      intro _
      simp only [if_neg hother, ensures_bind, ensures_liftM, resolve, hp, createEntry, ensures_get, hroot,
        Bool.false_eq_true, if_false, hsome, Option.isSome_some, if_true, ensures_throw]

/-- **Names that were unique stay so just if the text that is stored of the new path was not a name.** -/
theorem Creates.distinct_iff {path : String} {kind : EntryKind} (h : Creates v path kind w) (hv : v.Sound)
    (hdistinct : v.directory.Distinct) : w.directory.Distinct ↔
      ∀ i, (v.directory.get i).isEmpty = false →
        (v.directory.get i).name ≠ Text.untilNul (Path.canonicalize path) := by
  obtain ⟨p, slot, hp, hk, -, -, -, hfree, hdir⟩ := h.entry hv
  rw [← Path.text_of_ofString? hp, hdir]
  -- the entries that were in use are in other slots than the new one
  have hne : ∀ i, (v.directory.get i).isEmpty = false → i ≠ slot := by
    rintro i hi rfl
    rw [hfree] at hi
    cases hi
  constructor
  · intro hw i hi hname
    refine hne i hi (hw i slot ?_ ?_ ?_) <;> simp only [Directory.get_set, if_neg (hne i hi), if_true]
    · exact hi
    · exact Entry.isEmpty_ofName p.text hk
    · rw [hname, Entry.name_ofPath]
  · intro hno i j hi hj hname
    simp only [Directory.get_set] at hi hj hname
    by_cases his : i = slot <;> by_cases hjs : j = slot
    · rw [his, hjs]
    · rw [if_neg hjs] at hj
      rw [if_pos his, if_neg hjs, Entry.name_ofPath] at hname
      exact absurd hname.symm (hno j hj)
    · rw [if_neg his] at hi
      rw [if_neg his, if_pos hjs, Entry.name_ofPath] at hname
      exact absurd hname (hno i hi)
    · rw [if_neg his] at hi hname
      rw [if_neg hjs] at hj hname
      exact hdistinct i j hi hj hname

/-- **Names are unique after every run that creates no path with a NUL; and after every run an entry that is
created is found at its path just if the path holds no NUL, and has a name of its own just if what is stored
of the path was no name before.** -/
theorem Begun.names {ops : List Operation} (h : Begun u) (ho : Orderly ops u) :
    ((∀ op ∈ ops, op.NulFree) → (run ops u).directory.Distinct) ∧
    (∀ path kind w, Creates (run ops u) path kind w →
      (Found w path kind ↔ '\x00' ∉ path.toList) ∧
      ((run ops u).directory.Distinct → (w.directory.Distinct ↔
        ∀ i, ((run ops u).directory.get i).isEmpty = false →
          ((run ops u).directory.get i).name ≠ Text.untilNul (Path.canonicalize path)))) := by
  have hsound : (run ops u).Sound := Reached.sound ⟨u, ops, h, ho, rfl⟩
  constructor
  · intro hops
    exact (h.run_kept namesInvariant (fun op hop => admitted_of_nulFree (hops op hop)) ho).2.2
  · intro path kind w hc
    exact ⟨hc.found_iff hsound, hc.distinct_iff hsound⟩

/-- Names are unique after a file was created and deleted again, and then two of them. -/
theorem names_of_run :
    (run [.create "/a" .file, .delete "/a", .create "/b" .directory, .openPath "/b/c" .write]
      (formatted (MemoryDisk.blank 1024))).directory.Distinct := by
  have hbegun := (begun_of_reliable (d := MemoryDisk.blank 1024)
    (Nat.le_of_eq (MemoryDisk.deviceSize_blank 1024).symm) (MemoryDisk.reliable_of_writable rfl)).1
  apply (Begun.names hbegun (orderly_of_not_mem (by decide))).1
  intro op hop
  simp only [List.mem_cons, List.not_mem_nil, or_false] at hop
  rcases hop with rfl | rfl | rfl | rfl
  · show '\x00' ∉ "/a".toList
    decide
  · trivial
  · show '\x00' ∉ "/b".toList
    decide
  · show '\x00' ∉ "/b/c".toList
    decide

/-! ## Paths with a NUL -/

omit [BlockDevice δ] [LawfulDevice δ] in
/-- Entries at the top need no directory. -/
theorem ensureParent_eq_ok {p : Path} (h : Path.parentOf p.text = "/") : v.ensureParent p = .ok () :=
  if_pos h

/-- On a reliable device an entry is created where there is nothing against it. -/
theorem create_stored (h : v.Sound) (hr : Reliable v.device) (hm : v.mounted = true) {path : String} {p : Path}
    {kind : EntryKind} (hp : Path.ofString? path = some p) (hk : kind ≠ .empty) (hroot : p.isRoot = false)
    (hfind : v.directory.find? p.text = none) (hparent : v.ensureParent p = .ok ())
    (hfree : v.directory.freeSlot? = some slot) :
    (create path kind).Ensures v fun r w => r = .ok () ∧ w.Sound ∧ Reliable w.device ∧ w.mounted = true ∧
      w.directory = v.directory.set slot (Entry.ofName p.text kind) := by
  apply (create_added h hm hp hk hroot hfind hparent hfree).mono
  rintro r w ⟨r', hadded, hr'⟩
  have hwalk := hadded.walk
  cases r' with
  | error e =>
    obtain ⟨d, rfl⟩ := hadded.isIo
    exact absurd hr (hwalk.unreliable (isIo_io d))
  | ok slot' =>
    obtain ⟨-, -, -, hmounted, hdir⟩ := hadded.entry
    obtain ⟨slot'', -, hfree', -, ⟨hslot, -⟩ | ⟨hio, -⟩⟩ := hadded
    · obtain rfl := Except.ok.inj hslot
      obtain rfl := Option.some.inj (hfree.symm.trans hfree')
      exact ⟨hr', hwalk.sound h, hwalk.reliable hr, hmounted.trans hm, hdir⟩
    · exact absurd hio (not_isIo_ok _)

/-- On every reliable device two paths with a NUL can be created beside each other, and are not found: both
entries have the name `/a`. -/
theorem Begun.duplicate_names (h : Begun u) (hr : Reliable u.device) :
    (create "/a\x00b" .file u).result = .ok () ∧
      (run [.create "/a\x00b" .file] u).stat "/a\x00b" = .error .notFound ∧
      ∃ i j, i ≠ j ∧
        ((run [.create "/a\x00b" .file, .create "/a\x00c" .file] u).directory.get i).isEmpty = false ∧
        ((run [.create "/a\x00b" .file, .create "/a\x00c" .file] u).directory.get j).isEmpty = false ∧
        ((run [.create "/a\x00b" .file, .create "/a\x00c" .file] u).directory.get i).name = "/a" ∧
        ((run [.create "/a\x00b" .file, .create "/a\x00c" .file] u).directory.get j).name = "/a" := by
  have hfile : EntryKind.file ≠ .empty := by decide
  have hp : Path.ofString? "/a\x00b" = some ⟨"/a\x00b", by decide, by decide⟩ := by decide
  have hp' : Path.ofString? "/a\x00c" = some ⟨"/a\x00c", by decide, by decide⟩ := by decide
  have hfree : u.directory.freeSlot? = some 0 := by rw [h.directory, Directory.freeSlot?_empty]
  obtain ⟨hok, hsound, hr', hmounted, hdir⟩ := create_stored h.sound hr h.mounted hp hfile (by decide)
    (Directory.find?_eq_none_of_nul (by decide) _) (ensureParent_eq_ok (by decide)) hfree
  have hfree' : (create "/a\x00b" .file u).state.directory.freeSlot? = some 1 := by
    rw [hdir, h.directory]
    decide
  obtain ⟨-, -, -, -, hdir'⟩ := create_stored hsound hr' hmounted hp' hfile (by decide)
    (Directory.find?_eq_none_of_nul (by decide) _) (ensureParent_eq_ok (by decide)) hfree'
  simp only [run_cons, run_nil, Operation.after, Operation.perform]
  refine ⟨hok, ?_, 0, 1, by decide, ?_⟩
  · generalize (create "/a\x00b" .file u).state = v at hmounted
    have hnone : v.directory.find? "/a\x00b" = none := Directory.find?_eq_none_of_nul (by decide) _
    simp only [stat, ensureMounted, hmounted, if_true, resolve, hp, lookup, hnone, bind, Except.bind]
    rfl
  · have hzero : (0 : Slot) ≠ 1 := by decide
    have hname : (Entry.ofName "/a\x00b" .file).name = "/a" := by decide
    have hname' : (Entry.ofName "/a\x00c" .file).name = "/a" := by decide
    rw [hdir', hdir, Directory.get_set, Directory.get_set, Directory.get_set, if_neg hzero, if_pos rfl,
      if_pos rfl]
    exact ⟨Entry.isEmpty_ofName _ hfile, Entry.isEmpty_ofName _ hfile, hname, hname'⟩

/-- Two paths with a NUL on a memory disk. -/
theorem duplicate_names_of_nul :
    let u := formatted (MemoryDisk.blank 1024)
    let v := run [.create "/a\x00b" .file] u
    let w := run [.create "/a\x00b" .file, .create "/a\x00c" .file] u
    Reached w ∧ (create "/a\x00b" .file u).result = .ok () ∧ v.stat "/a\x00b" = .error .notFound ∧
      ∃ i j, i ≠ j ∧ (w.directory.get i).isEmpty = false ∧ (w.directory.get j).isEmpty = false ∧
        (w.directory.get i).name = "/a" ∧ (w.directory.get j).name = "/a" := by
  have hn : volumeBlocks ≤ deviceSize (MemoryDisk.blank 1024) :=
    Nat.le_of_eq (MemoryDisk.deviceSize_blank 1024).symm
  have hr : Reliable (MemoryDisk.blank 1024) := MemoryDisk.reliable_of_writable rfl
  obtain ⟨hbegun, hrel⟩ := begun_of_reliable hn hr
  exact ⟨reached_of_reliable hn hr _, hbegun.duplicate_names hrel⟩

end Volume

end BlockVolume
