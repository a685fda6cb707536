import BlockVolume.Proofs.Volume.Ancestry
import Mathlib.Data.List.Nodup

/-!
# `Proofs.Volume.Listing` — what listings show

A listing shows the entries whose parent agrees with the directory, slashes at the beginning aside, and a
directory can be deleted if there are none. Usually this is the same as having the directory for a parent.
It is not if two names differ in slashes at the beginning alone: both `/a` and `//a` then show what either of
them has in it, and neither can be deleted before both are empty.

## Contents
- **`Directory.Unambiguous`**: no two names agree; `HasDirectory.eq_of_agree`.
- `list_eq_ok_iff_found`, `list_eq_ok_iff` and **`delete_directory`**: when a path is listed, and when a directory is
  deleted.
- **`Partitioned`**: each entry is listed in its parent, and nowhere else; **`partitioned_iff`**.
- **`Begun.listings`**: what the listings after a run show.
- `mixed_listings`: two directories that show the same.
-/

namespace BlockVolume

open BlockVolume.Action

/-! ## Tables -/

namespace Directory

variable {d : Directory} {i j slot : Slot} {p q path : String}

/-- No two entries in use have names that agree. -/
def Unambiguous (d : Directory) : Prop :=
  ∀ i j, (d.get i).isEmpty = false → (d.get j).isEmpty = false → Path.Agree (d.get i).name (d.get j).name → i = j

theorem mem_occupied {x : Slot × Entry} :
    x ∈ d.occupied ↔ x.2 = d.get x.1 ∧ (d.get x.1).isEmpty = false := by
  obtain ⟨slot, e⟩ := x
  simp only [occupied, List.mem_filter, List.mem_map, List.mem_finRange, true_and, Prod.mk.injEq,
    Bool.not_eq_true']
  constructor
  · rintro ⟨⟨i, rfl, rfl⟩, hused⟩
    exact ⟨rfl, hused⟩
  · rintro ⟨rfl, hused⟩
    exact ⟨⟨slot, rfl, rfl⟩, hused⟩

theorem nodup_occupied (d : Directory) : d.occupied.Nodup := by
  refine List.Nodup.filter _ (List.Nodup.map ?_ (List.nodup_finRange _))
  exact fun i j h => congrArg Prod.fst h

/-- The entries below a path are those whose parent agrees with it. -/
theorem Hierarchical.children_eq (h : d.Hierarchical) (path : String) :
    d.children path = d.occupied.filter fun x => decide (Path.Agree path (Path.parentOf x.2.name)) := by
  apply List.filter_congr
  intro x hx
  obtain ⟨he, hused⟩ := mem_occupied.mp hx
  rw [Bool.eq_iff_iff, Path.isDirectChild_iff, decide_eq_true_iff, he]
  exact and_iff_right (h.wellNamed x.1 hused).basename_ne_empty

theorem Hierarchical.hasChildren_eq_false (h : d.Hierarchical) : d.hasChildren path = false ↔
    ∀ slot, (d.get slot).isEmpty = false → ¬Path.Agree path (Path.parentOf (d.get slot).name) := by
  rw [← Bool.not_eq_true, hasChildren_eq_true, not_exists]
  refine forall_congr' fun slot => ?_
  rw [Path.isDirectChild_iff, not_and]
  refine forall_congr' fun hused => not_congr ?_
  exact and_iff_right (h.wellNamed slot hused).basename_ne_empty

/-- The paths of directories are told apart as their names are. -/
theorem HasDirectory.eq_of_agree (h : d.Hierarchical) (hu : d.Unambiguous) (hp : d.HasDirectory p)
    (hq : d.HasDirectory q) (hagree : Path.Agree p q) : p = q := by
  have hnot {slot : Slot} (hdir : (d.get slot).isDirectory = true) : ¬Path.Agree "/" (d.get slot).name :=
    Path.not_agree_root (h.wellNamed slot (Entry.isEmpty_of_isDirectory hdir)).basename_ne_empty
  rcases hp with rfl | ⟨i, hi, rfl⟩ <;> rcases hq with rfl | ⟨j, hj, rfl⟩
  · rfl
  · exact absurd hagree (hnot hj)
  · exact absurd hagree.symm (hnot hi)
  · rw [hu i j (Entry.isEmpty_of_isDirectory hi) (Entry.isEmpty_of_isDirectory hj) hagree]

/-- The path of a directory is a path. -/
theorem HasDirectory.exists_path (h : d.Hierarchical) (hp : d.HasDirectory path) :
    ∃ p : Path, p.text = path ∧ Path.ofString? path = some p := by
  have hcanonical : Path.canonicalize path = path ∧ path.utf8ByteSize ≤ maxPathBytes := by
    rcases hp with rfl | ⟨slot, hdir, rfl⟩
    · decide
    · have hname := h.wellNamed slot (Entry.isEmpty_of_isDirectory hdir)
      exact ⟨Path.canonicalize_eq_self hname.head hname.last, hname.utf8ByteSize_le⟩
  refine ⟨⟨path, hcanonical.1, hcanonical.2⟩, rfl, ?_⟩
  unfold Path.ofString?
  simp only [hcanonical.1, hcanonical.2, dif_pos]

end Directory

namespace Volume

variable {δ : Type} {u v w : Volume δ} {path : String} {slot : Slot} {infos : List EntryInfo}

/-- A path is that of a directory if it is the root, or one is found there. -/
theorem hasDirectory_iff (h : v.directory.Hierarchical) {p : Path} : v.directory.HasDirectory p.text ↔
    p.isRoot = true ∨ ∃ slot, v.directory.find? p.text = some slot ∧ (v.directory.get slot).isDirectory = true := by
  have hroot : p.isRoot = true ↔ p.text = "/" := decide_eq_true_iff
  rw [hroot]
  refine or_congr_right (exists_congr fun slot => ?_)
  rw [Directory.find?_eq_some_iff h.absolute h.distinct, and_comm]
  exact and_congr_left fun hdir => (and_iff_right (Entry.isEmpty_of_isDirectory hdir)).symm

/-- A path is listed if it is the root, or a directory is found there. -/
theorem list_eq_ok_iff_found : v.list path = .ok infos ↔ v.mounted = true ∧
    ∃ p, Path.ofString? path = some p ∧ (p.isRoot = true ∨
      ∃ slot, v.directory.find? p.text = some slot ∧ (v.directory.get slot).isDirectory = true) ∧
      infos = (v.directory.children p.text).map fun x => .ofEntry x.2 := by
  unfold list ensureMounted resolve lookup
  cases v.mounted with
  | false => simp [bind, Except.bind]
  | true =>
    cases hp : Path.ofString? path with
    | none => simp [bind, Except.bind]
    | some p =>
      simp only [Option.some.injEq, exists_eq_left', true_and]
      -- what is left are the checks in their order
      have hok : (.ok ((v.directory.children p.text).map fun x => .ofEntry x.2) : Except Error (List EntryInfo)) =
          .ok infos ↔ infos = (v.directory.children p.text).map fun x => .ofEntry x.2 :=
        ⟨fun he => (Except.ok.inj he).symm, fun he => he ▸ rfl⟩
      cases hroot : p.isRoot with
      | true => simp [bind, Except.bind, pure, Except.pure, hroot, hok]
      | false =>
        cases hfind : v.directory.find? p.text with
        | none => simp [bind, Except.bind, hroot, hfind]
        | some slot =>
          cases hdir : (v.directory.get slot).isDirectory with
          | true => simp [bind, Except.bind, pure, Except.pure, hroot, hfind, hdir, hok]
          | false =>
            simp [bind, Except.bind, hroot, hfind, hdir, throw, throwThe, MonadExceptOf.throw]

/-- A path is listed if it is that of a directory. -/
theorem list_eq_ok_iff (h : v.directory.Hierarchical) : v.list path = .ok infos ↔ v.mounted = true ∧
    ∃ p, Path.ofString? path = some p ∧ v.directory.HasDirectory p.text ∧
      infos = (v.directory.children p.text).map fun x => .ofEntry x.2 := by
  simp only [list_eq_ok_iff_found, hasDirectory_iff h]

/-- What is shown of a path are the entries whose parent agrees with it. -/
theorem list_shows (h : v.directory.Hierarchical) (hl : v.list path = .ok infos) :
    v.directory.HasDirectory (Path.canonicalize path) ∧
      infos = (v.directory.occupied.filter fun x =>
        decide (Path.Agree (Path.canonicalize path) (Path.parentOf x.2.name))).map fun x => .ofEntry x.2 := by
  obtain ⟨-, p, hp, hdir, rfl⟩ := (list_eq_ok_iff h).mp hl
  rw [← Path.text_of_ofString? hp, ← h.children_eq]
  exact ⟨hdir, rfl⟩

/-- An entry is shown just by the listings of what its parent agrees with. -/
theorem mem_list_iff (h : v.directory.Hierarchical) (hl : v.list path = .ok infos)
    (hused : (v.directory.get slot).isEmpty = false) : EntryInfo.ofEntry (v.directory.get slot) ∈ infos ↔
      Path.Agree (Path.canonicalize path) (Path.parentOf (v.directory.get slot).name) := by
  obtain ⟨-, rfl⟩ := list_shows h hl
  simp only [List.mem_map, List.mem_filter, Directory.mem_occupied, decide_eq_true_iff]
  constructor
  · rintro ⟨x, ⟨-, hagree⟩, hinfo⟩
    have hname : x.2.name = (v.directory.get slot).name := congrArg EntryInfo.path hinfo
    rw [← hname]
    exact hagree
  · intro hagree
    exact ⟨(slot, v.directory.get slot), ⟨⟨rfl, hused⟩, hagree⟩, rfl⟩

/-- In a mounted volume the parent of every entry is listed. -/
theorem list_parent (h : v.directory.Hierarchical) (hm : v.mounted = true)
    (hused : (v.directory.get slot).isEmpty = false) :
    ∃ (p : Path) (infos : List EntryInfo), p.text = Path.parentOf (v.directory.get slot).name ∧
      v.list p.text = .ok infos := by
  have hparent := h.parent slot hused
  obtain ⟨p, htext, hp⟩ := hparent.exists_path h
  refine ⟨p, _, htext, (list_eq_ok_iff h).mpr ⟨hm, p, ?_, ?_, rfl⟩⟩ <;> rw [htext]
  · exact hp
  · exact hparent

/-- If no two names agree, a directory is told from all others by what agrees with it. -/
theorem agree_parent_iff (h : v.directory.Hierarchical) (hu : v.directory.Unambiguous)
    (hdir : v.directory.HasDirectory path) (hused : (v.directory.get slot).isEmpty = false) :
    Path.Agree path (Path.parentOf (v.directory.get slot).name) ↔
      Path.parentOf (v.directory.get slot).name = path :=
  ⟨fun hagree => (hdir.eq_of_agree h hu (h.parent slot hused) hagree).symm, fun heq => congrArg _ (congrArg _ heq.symm)⟩

variable [BlockDevice δ] [LawfulDevice δ]

/-- On a reliable device a directory is deleted unless there is something below it. -/
theorem delete_directory (h : v.Sound) (hr : Reliable v.device) (hm : v.mounted = true)
    (hh : v.directory.Hierarchical) (hslot : v.slotOf? path = some slot)
    (hdir : (v.directory.get slot).isDirectory = true) :
    (delete path).Ensures v fun r _ =>
      r = if v.directory.hasChildren (Path.canonicalize path) then .error .directoryNotEmpty else .ok () := by
  obtain ⟨p, hp, hfind⟩ := Option.bind_eq_some_iff.mp hslot
  rw [← Path.text_of_ofString? hp]
  have hroot : p.isRoot = false := by
    have hname := ((Directory.find?_eq_some_iff hh.absolute hh.distinct).mp hfind).2
    have hbase := (hh.wellNamed slot (Entry.isEmpty_of_isDirectory hdir)).basename_ne_empty
    apply decide_eq_false
    rintro hslash
    rw [hname, hslash] at hbase
    exact hbase (by decide)
  have href : v.handles.references slot = false := by
    apply Pool.references_eq_false.mpr
    rintro q f hq rfl
    have hkind := (h.coherent hq).kind
    simp [Entry.isDirectory, hkind] at hdir
  obtain ⟨released, hrel, -, -⟩ := h.allocated.release slot
  cases hchildren : v.directory.hasChildren p.text with
  | true =>
    unfold delete
    refine ensures_whenMounted.mpr ⟨fun _ => ?_, fun hno => by cases hno.symm.trans hm⟩
    simp [ensures_bind (x := liftM _), resolve, hp, hroot, lookup, hfind, hdir, hchildren]
  | false =>
    have hnone : ((v.directory.get slot).isDirectory && v.directory.hasChildren p.text) = false := by
      rw [hchildren, Bool.and_false]
    have hstep := Step.remove (v := v) hroot hfind hnone href hrel
    rw [ensures_delete_removed hm hp hroot hfind hnone href hrel]
    apply (storeMetadata_cases (hstep.sound h).firstDataBlock_le).mono
    rintro r w (⟨rfl, -⟩ | ⟨-, hfault⟩)
    · rfl
    · exact absurd rfl (hfault.reliable (hstep.reliable hr).2).1

theorem delete_eq_ok_iff (h : v.Sound) (hr : Reliable v.device) (hm : v.mounted = true)
    (hh : v.directory.Hierarchical) (hslot : v.slotOf? path = some slot)
    (hdir : (v.directory.get slot).isDirectory = true) : (delete path v).result = .ok () ↔
      ∀ i, (v.directory.get i).isEmpty = false →
        ¬Path.Agree (Path.canonicalize path) (Path.parentOf (v.directory.get i).name) := by
  have hresult : (delete path v).result = _ := delete_directory h hr hm hh hslot hdir
  rw [hresult, ← hh.hasChildren_eq_false]
  cases v.directory.hasChildren (Path.canonicalize path) <;> simp

/-! ## Each entry in its parent -/

/-- Listings show what has the directory for a parent, each entry is in one of them, no two entries of one have
the same last segment, and a directory is deleted just if it is no parent. -/
structure Partitioned (v : Volume δ) : Prop where
  listing (path : String) (infos : List EntryInfo) : v.list path = .ok infos →
    infos = (v.directory.occupied.filter fun x => decide (Path.parentOf x.2.name = Path.canonicalize path)).map
      fun x => .ofEntry x.2
  once (slot : Slot) : (v.directory.get slot).isEmpty = false →
    ∃! dir : Path, ∃ infos, v.list dir.text = .ok infos ∧ EntryInfo.ofEntry (v.directory.get slot) ∈ infos
  names (path : String) (infos : List EntryInfo) : v.list path = .ok infos → (infos.map EntryInfo.name).Nodup
  delete (path : String) (slot : Slot) : v.slotOf? path = some slot → (v.directory.get slot).isDirectory = true →
    ((Volume.delete path v).result = .ok () ↔
      ∀ i, (v.directory.get i).isEmpty = false → Path.parentOf (v.directory.get i).name ≠ Path.canonicalize path)

/-- **The listings of a mounted volume partition it just if no two names agree.** -/
theorem partitioned_iff (h : v.Sound) (hr : Reliable v.device) (hm : v.mounted = true)
    (hh : v.directory.Hierarchical) : v.Partitioned ↔ v.directory.Unambiguous := by
  constructor
  · intro hp i j hi hj hagree
    -- both are shown in the parent of one of them, where no two last segments are the same
    obtain ⟨hparent, hbase⟩ := Path.agree_iff.mp hagree
    obtain ⟨p, infos, htext, hl⟩ := list_parent hh hm hi
    have hnames := hp.names _ _ hl
    obtain ⟨-, rfl⟩ := list_shows hh hl
    rw [List.map_map] at hnames
    have hmem {k : Slot} (hk : (v.directory.get k).isEmpty = false)
        (hka : Path.Agree (Path.parentOf (v.directory.get i).name) (Path.parentOf (v.directory.get k).name)) :
        (k, v.directory.get k) ∈ v.directory.occupied.filter fun x =>
          decide (Path.Agree (Path.canonicalize p.text) (Path.parentOf x.2.name)) := by
      rw [List.mem_filter, decide_eq_true_iff, p.canonical, htext]
      exact ⟨Directory.mem_occupied.mpr ⟨rfl, hk⟩, hka⟩
    exact congrArg Prod.fst (List.inj_on_of_nodup_map hnames (hmem hi rfl) (hmem hj hparent) hbase)
  · intro hu
    refine ⟨?_, ?_, ?_, ?_⟩
    · intro path infos hl
      obtain ⟨hdir, rfl⟩ := list_shows hh hl
      refine congrArg _ (List.filter_congr fun x hx => ?_)
      obtain ⟨he, hused⟩ := Directory.mem_occupied.mp hx
      rw [decide_eq_decide, he]
      exact agree_parent_iff hh hu hdir hused
    · intro slot hused
      obtain ⟨p, infos, htext, hl⟩ := list_parent hh hm hused
      refine ⟨p, ⟨infos, hl, (mem_list_iff hh hl hused).mpr ?_⟩, ?_⟩
      · rw [p.canonical, htext]
        rfl
      · rintro q ⟨infos', hl', hmem⟩
        have hagree := (mem_list_iff hh hl' hused).mp hmem
        have hq := (agree_parent_iff hh hu (list_shows hh hl').1 hused).mp hagree
        rw [q.canonical, ← htext] at hq
        cases p
        cases q
        simp_all
    · intro path infos hl
      obtain ⟨-, rfl⟩ := list_shows hh hl
      rw [List.map_map]
      refine List.Nodup.map_on ?_ ((Directory.nodup_occupied _).filter _)
      intro x hx y hy hbase
      simp only [List.mem_filter, Directory.mem_occupied, decide_eq_true_iff] at hx hy
      obtain ⟨⟨hxe, hxu⟩, hxa⟩ := hx
      obtain ⟨⟨hye, hyu⟩, hya⟩ := hy
      have hagree : Path.Agree x.2.name y.2.name := Path.agree_iff.mpr ⟨hxa.symm.trans hya, hbase⟩
      rw [hxe, hye] at hagree
      have hslot := hu x.1 y.1 hxu hyu hagree
      exact Prod.ext hslot (by rw [hxe, hye, hslot])
    · intro path slot hslot hdir
      obtain ⟨p, hp, hfind⟩ := Option.bind_eq_some_iff.mp hslot
      have hpath : v.directory.HasDirectory (Path.canonicalize path) := by
        rw [← Path.text_of_ofString? hp]
        exact (hasDirectory_iff hh).mpr (Or.inr ⟨slot, hfind, hdir⟩)
      refine (delete_eq_ok_iff h hr hm hh hslot hdir).trans ?_
      exact forall_congr' fun i => forall_congr' fun hused => not_congr (agree_parent_iff hh hu hpath hused)

end Volume

/-! ## Runs -/

/-- Whether the operation creates no entry at a path that begins with two slashes. -/
def Operation.SingleSlashed (op : Operation) : Prop :=
  ∀ path ∈ op.target?, ¬['/', '/'] <+: path.toList

instance : DecidablePred Operation.SingleSlashed := fun op =>
  inferInstanceAs (Decidable (∀ path ∈ op.target?, ¬['/', '/'] <+: path.toList))

/-- No name begins with two slashes. -/
def Directory.SingleSlashed (d : Directory) : Prop :=
  ∀ slot, (d.get slot).isEmpty = false → ¬['/', '/'] <+: (d.get slot).name.toList

/-- Names that begin with one slash do not agree unless they are the same. -/
theorem Directory.Hierarchical.unambiguous {d : Directory} (h : d.Hierarchical) (hs : d.SingleSlashed) :
    d.Unambiguous := by
  have hcons {slot : Slot} (hused : (d.get slot).isEmpty = false) :
      (d.get slot).name.toList = '/' :: Path.dropStartSlashes (d.get slot).name.toList := by
    have hhead := (h.wellNamed slot hused).head
    have hsingle := hs slot hused
    cases hname : (d.get slot).name.toList with
    | nil =>
      rw [hname] at hhead
      cases hhead
    | cons c rest =>
      obtain rfl : c = '/' := by simpa [hname] using hhead
      cases rest with
      | nil => rfl
      | cons c' rest =>
        have hc : c' ≠ '/' := by
          rintro rfl
          exact hsingle (hname ▸ ⟨rest, rfl⟩)
        simp [Path.dropStartSlashes, hc]
  intro i j hi hj hagree
  refine h.distinct i j hi hj (String.toList_inj.mp ?_)
  rw [hcons hi, hcons hj, hagree]

namespace Volume

variable {δ : Type} [BlockDevice δ] [LawfulDevice δ] {u v w : Volume δ}

/-- As long as no path that begins with two slashes is created, no name begins with two. -/
theorem singleSlashedInvariant : Invariant (fun _ d => d.Absolute ∧ d.SingleSlashed)
    (fun c => ∀ path, c = .insert path → ¬['/', '/'] <+: path.text.toList) where
  fresh := ⟨absoluteInvariant.fresh, fun slot hused => by
    cases (Directory.isEmpty_get_empty slot).symm.trans hused⟩
  migrate h := by rwa [h.1.migrate_eq]
  step hs _ hc h := by
    refine ⟨hs.absolute h.1, fun slot hused => ?_⟩
    rcases hs.name_cases slot with he | ⟨he, hname⟩ | ⟨path, kind, hinsert, -, -, he⟩
    · cases he.symm.trans hused
    · rw [hname]
      exact h.2 slot (he ▸ hused)
    · rw [he, Entry.name_ofPath, Text.untilNul, String.toList_ofList]
      exact fun hslashes => hc path hinsert (hslashes.trans (List.takeWhile_prefix _))

theorem admitted_of_singleSlashed {op : Operation} (h : op.SingleSlashed) :
    Admitted (fun c => ∀ path, c = .insert path → ¬['/', '/'] <+: path.text.toList) op :=
  admitted_of_target fun text _ ht hp hslashes =>
    h text ht (Path.double_slash_of_canonicalize (Path.text_of_ofString? hp ▸ hslashes))

/-- **After a run that creates no path with a NUL, a listing shows the entries whose parent agrees with the
directory, and a directory is deleted just if there are none; this is having the directory for a parent just if
no two names agree, and no two do as long as no path that begins with two slashes is created.** -/
theorem Begun.listings {ops : List Operation} (h : Begun u) (hr : Reliable u.device)
    (hops : ∀ op ∈ ops, op.NulFree) :
    let v := run ops u
    (∀ path infos, v.list path = .ok infos → infos = (v.directory.occupied.filter fun x =>
      decide (Path.Agree (Path.canonicalize path) (Path.parentOf x.2.name))).map fun x => .ofEntry x.2) ∧
    (v.mounted = true →
      (∀ path slot, v.slotOf? path = some slot → (v.directory.get slot).isDirectory = true →
        ((delete path v).result = .ok () ↔ ∀ i, (v.directory.get i).isEmpty = false →
          ¬Path.Agree (Path.canonicalize path) (Path.parentOf (v.directory.get i).name))) ∧
      (v.Partitioned ↔ v.directory.Unambiguous)) ∧
    ((∀ op ∈ ops, op.SingleSlashed) → v.directory.Unambiguous) := by
  have hserved := h.run_reliable hr ops
  have hh := h.hierarchical hserved.1.orderly hops
  have hsound : (run ops u).Sound := Reached.sound ⟨u, ops, h, hserved.1.orderly, rfl⟩
  refine ⟨fun path infos hl => (list_shows hh hl).2, fun hm => ⟨fun path slot hslot hdir => ?_, ?_⟩, fun hs => ?_⟩
  · exact delete_eq_ok_iff hsound hserved.2 hm hh hslot hdir
  · exact partitioned_iff hsound hserved.2 hm hh
  · exact hh.unambiguous
      (h.run_kept singleSlashedInvariant (fun op hop => admitted_of_singleSlashed (hs op hop))
        hserved.1.orderly).2.2

/-- A directory with a file in it. -/
theorem listings_of_run :
    let v := run [.create "/a" .directory, .create "a/b" .file, .delete "/a"] (formatted (MemoryDisk.blank 1024))
    v.Partitioned := by
  obtain ⟨hbegun, hrel⟩ := begun_of_reliable (d := MemoryDisk.blank 1024)
    (Nat.le_of_eq (MemoryDisk.deviceSize_blank 1024).symm) (MemoryDisk.reliable_of_writable rfl)
  have hops : ∀ op ∈ [Operation.create "/a" .directory, .create "a/b" .file, .delete "/a"], op.NulFree := by
    decide
  obtain ⟨-, hiff, hsingle⟩ := Begun.listings hbegun hrel hops
  refine (hiff ?_).2.mpr (hsingle (by decide))
  exact (run_mounted hbegun.sound (by decide) (by decide)).trans hbegun.mounted

/-! ## Two directories that show the same -/

/-- The table after `/a`, `//a` and `//a/b` were created. -/
def mixedTable : Directory :=
  ((Directory.empty.set 0 (Entry.ofName "/a" .directory)).set 1 (Entry.ofName "//a" .directory)).set 2
    (Entry.ofName "//a/b" .file)

/-- On every reliable device these can be created one after the other. -/
theorem Begun.mixed (h : Begun u) (hr : Reliable u.device) :
    let v := run [.create "/a" .directory, .create "//a" .directory, .create "//a/b" .file] u
    v.mounted = true ∧ v.directory = mixedTable := by
  have hdirectory : EntryKind.directory ≠ .empty := by decide
  have hp : Path.ofString? "/a" = some ⟨"/a", by decide, by decide⟩ := by decide
  have hp' : Path.ofString? "//a" = some ⟨"//a", by decide, by decide⟩ := by decide
  have hfile : EntryKind.file ≠ .empty := by decide
  have hp'' : Path.ofString? "//a/b" = some ⟨"//a/b", by decide, by decide⟩ := by decide
  obtain ⟨-, hsound, hr, hm, hdir⟩ := create_stored h.sound hr h.mounted hp hdirectory (by decide)
    (by rw [h.directory, Directory.find?_empty]) (ensureParent_eq_ok (by decide))
    (by rw [h.directory, Directory.freeSlot?_empty])
  rw [h.directory] at hdir
  have hfree : (create "/a" .directory u).state.directory.freeSlot? = some 1 := by
    rw [hdir]
    decide
  obtain ⟨-, hsound, hr, hm, hdir'⟩ := create_stored hsound hr hm hp' hdirectory (by decide)
    (by rw [hdir]; decide) (ensureParent_eq_ok (by decide)) hfree
  rw [hdir] at hdir'
  have hparent : (create "//a" .directory (create "/a" .directory u).state).state.ensureParent
      ⟨"//a/b", by decide, by decide⟩ = .ok () := by
    unfold ensureParent
    rw [hdir']
    decide
  have hfree' : (create "//a" .directory (create "/a" .directory u).state).state.directory.freeSlot? = some 2 := by
    rw [hdir']
    decide
  obtain ⟨-, -, -, hm, hdir''⟩ := create_stored hsound hr hm hp'' hfile (by decide)
    (by rw [hdir']; decide) hparent hfree'
  rw [hdir'] at hdir''
  exact ⟨hm, hdir''⟩

/-- Then `/a` shows the file in `//a`, and is not deleted though it is nobody's parent. -/
theorem mixed_of_table (h : v.Sound) (hr : Reliable v.device) (hm : v.mounted = true)
    (hh : v.directory.Hierarchical) (hdir : v.directory = mixedTable) :
    v.list "/a" = .ok [⟨"//a/b", .file, 0, 0, 0⟩] ∧ (delete "/a" v).result = .error .directoryNotEmpty ∧
      (∀ slot, (v.directory.get slot).isEmpty = false → Path.parentOf (v.directory.get slot).name ≠ "/a") ∧
      ¬v.Partitioned := by
  have hp : Path.ofString? "/a" = some ⟨"/a", by decide, by decide⟩ := by decide
  have hslot : v.slotOf? "/a" = some 0 := by
    rw [slotOf?, hdir]
    decide
  have hlist : v.list "/a" = .ok [⟨"//a/b", .file, 0, 0, 0⟩] := by
    refine (list_eq_ok_iff hh).mpr ⟨hm, _, hp, ?_, ?_⟩ <;> rw [hdir]
    · exact Or.inr ⟨0, by decide, by decide⟩
    · decide
  have hresult : (delete "/a" v).result = _ := delete_directory h hr hm hh hslot (by rw [hdir]; decide)
  refine ⟨hlist, ?_, ?_, ?_⟩
  · rw [hresult, if_pos]
    rw [hdir]
    exact Directory.hasChildren_eq_true.mpr ⟨2, by decide, by decide⟩
  · intro slot
    rw [hdir, mixedTable]
    simp only [Directory.get_set]
    split
    · decide
    · split
      · decide
      · split
        · decide
        · intro hused
          cases (Directory.isEmpty_get_empty slot).symm.trans hused
  · intro hpartitioned
    have hlisting := hpartitioned.listing _ _ hlist
    rw [hdir] at hlisting
    revert hlisting
    decide

/-- On a memory disk `/a` shows what has `//a` for a parent. -/
theorem mixed_listings :
    let v := run [.create "/a" .directory, .create "//a" .directory, .create "//a/b" .file]
      (formatted (MemoryDisk.blank 1024))
    Reached v ∧ Path.parentOf "//a/b" = "//a" ∧ v.list "/a" = .ok [⟨"//a/b", .file, 0, 0, 0⟩] ∧
      (delete "/a" v).result = .error .directoryNotEmpty ∧
      (∀ slot, (v.directory.get slot).isEmpty = false → Path.parentOf (v.directory.get slot).name ≠ "/a") ∧
      ¬v.Partitioned := by
  have hn : volumeBlocks ≤ deviceSize (MemoryDisk.blank 1024) :=
    Nat.le_of_eq (MemoryDisk.deviceSize_blank 1024).symm
  have hr : Reliable (MemoryDisk.blank 1024) := MemoryDisk.reliable_of_writable rfl
  obtain ⟨hbegun, hrel⟩ := begun_of_reliable hn hr
  obtain ⟨hserved, hrel'⟩ := hbegun.run_reliable hrel
    [.create "/a" .directory, .create "//a" .directory, .create "//a/b" .file]
  have hreached := reached_of_reliable hn hr
    [.create "/a" .directory, .create "//a" .directory, .create "//a/b" .file]
  obtain ⟨hm, hdir⟩ := hbegun.mixed hrel
  have hh := hbegun.hierarchical hserved.orderly (by decide)
  exact ⟨hreached, by decide, mixed_of_table hreached.sound hrel' hm hh hdir⟩

end Volume

end BlockVolume
