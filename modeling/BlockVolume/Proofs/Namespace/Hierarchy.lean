import BlockVolume.Proofs.Namespace.Lookup

/-!
# `Proofs.Namespace.Hierarchy` — parents and children

A path is its parent and one more segment. Whether a name lies below a directory is decided without the
slashes at the beginning of either, and where an entry may be created is decided with them; so the two
agree on what the parent of a name is up to slashes at its beginning, and no further.

## Contents
- **`dropStartSlashes_eq_stem`**: a text is the stem of its parent and its last segment.
- **`Agree`**: texts that differ in slashes at the beginning at most, with **`agree_iff`**.
- **`isDirectChild_iff`**: a name lies below a directory just if its parent agrees with the directory.
- `absolute`: a text with a slash in front, with `canonicalize_eq_absolute`.
- `getLast?_text`, `two_le_utf8ByteSize`, `basename_ne_empty`, `canonicalize_eq_self`,
  `double_slash_of_canonicalize`: what canonical paths are like.
-/

namespace BlockVolume.Path

/-! ## The last segment -/

/-- What comes before the segment of a name below `base`. -/
def stem (base : List Char) : List Char :=
  if base.isEmpty then [] else base ++ ['/']

/-- A stem is empty or ends with a slash, so a segment is all that comes after the last slash. -/
theorem takeWhile_reverse_stem {segment : List Char} (h : '/' ∉ segment) (base : List Char) :
    (stem base ++ segment).reverse.takeWhile (· ≠ '/') = segment.reverse := by
  have hall : ∀ c ∈ segment.reverse, decide (c ≠ '/') = true := fun c hc =>
    decide_eq_true fun he => h (he ▸ List.mem_reverse.mp hc)
  rw [List.reverse_append, List.takeWhile_append_of_pos hall]
  unfold stem
  split <;> simp

/-- A stem and a segment can be told apart. -/
theorem stem_append_inj {base base' segment segment' : List Char} (h : '/' ∉ segment) (h' : '/' ∉ segment')
    (heq : stem base ++ segment = stem base' ++ segment') : base = base' ∧ segment = segment' := by
  have hsegment : segment = segment' := by
    rw [← List.reverse_inj, ← takeWhile_reverse_stem h base, heq, takeWhile_reverse_stem h' base']
  subst hsegment
  have hstem := List.append_cancel_right heq
  refine ⟨?_, rfl⟩
  unfold stem at hstem
  cases base <;> cases base' <;> simp_all

theorem dropStartSlashes_of_not_mem {cs : List Char} (h : '/' ∉ cs) : dropStartSlashes cs = cs := by
  cases cs with
  | nil => rfl
  | cons c rest =>
    have hc : c ≠ '/' := fun he => h (he ▸ List.mem_cons_self)
    simp [dropStartSlashes, hc]

/-- Slashes at the beginning belong to what stands before the last slash. -/
theorem dropStartSlashes_append_slash (before : List Char) {segment : List Char} (h : '/' ∉ segment) :
    dropStartSlashes (before ++ '/' :: segment) = stem (dropStartSlashes before) ++ segment := by
  have hslash : ('/' :: segment).dropWhile (· = '/') = segment := by
    rw [List.dropWhile_cons_of_pos (by decide)]
    exact dropStartSlashes_of_not_mem h
  unfold dropStartSlashes stem
  rw [List.dropWhile_append, hslash]
  split
  · rfl
  · rw [List.append_assoc, List.singleton_append]

/-- A text is its parent, a slash, and its last segment; without a slash it is its last segment alone. -/
theorem parentOf_cases (text : String) : '/' ∉ (basename text).toList ∧
    ((text = basename text ∧ parentOf text = "/") ∨
      ∃ before, text.toList = before ++ '/' :: (basename text).toList ∧
        parentOf text = if before = [] then "/" else String.ofList before) := by
  have hsegment : (basename text).toList = (text.toList.reverse.takeWhile (· ≠ '/')).reverse :=
    String.toList_ofList
  have hsplit : text.toList =
      (text.toList.reverse.dropWhile (· ≠ '/')).reverse ++ (basename text).toList := by
    rw [hsegment, ← List.reverse_append, List.takeWhile_append_dropWhile, List.reverse_reverse]
  constructor
  · rw [hsegment, List.mem_reverse]
    intro hmem
    simpa using List.mem_takeWhile_imp hmem
  · unfold parentOf
    cases hrest : text.toList.reverse.dropWhile (· ≠ '/') with
    | nil =>
      rw [hrest, List.reverse_nil, List.nil_append] at hsplit
      exact Or.inl ⟨String.toList_inj.mp hsplit, rfl⟩
    | cons c before =>
      obtain rfl : c = '/' := by
        have hhead := List.head?_dropWhile_not (fun c => decide (c ≠ '/')) text.toList.reverse
        rw [hrest] at hhead
        simpa using hhead
      rw [hrest, List.reverse_cons, List.append_assoc, List.singleton_append] at hsplit
      refine Or.inr ⟨before.reverse, hsplit, ?_⟩
      cases before <;> simp

/-- **Slashes at the beginning aside, a text is the stem of its parent and its last segment.** -/
theorem dropStartSlashes_eq_stem (text : String) : dropStartSlashes text.toList =
    stem (dropStartSlashes (parentOf text).toList) ++ (basename text).toList := by
  obtain ⟨hsegment, ⟨htext, hparent⟩ | ⟨before, htext, hparent⟩⟩ := parentOf_cases text
  · rw [← htext] at hsegment ⊢
    rw [hparent, dropStartSlashes_of_not_mem hsegment]
    rfl
  · have hbefore : dropStartSlashes (parentOf text).toList = dropStartSlashes before := by
      rw [hparent]
      split
      · rename_i hnil
        rw [hnil]
        rfl
      · rw [String.toList_ofList]
    rw [hbefore, htext, dropStartSlashes_append_slash before hsegment]

/-! ## Children -/

/-- A name lies below a directory if what follows the stem of the directory is one segment. -/
theorem isDirectChild_eq_true {dir name : String} : isDirectChild dir name = true ↔
    ∃ segment, dropStartSlashes name.toList = stem (dropStartSlashes dir.toList) ++ segment ∧
      segment ≠ [] ∧ '/' ∉ segment := by
  show ((stem (dropStartSlashes dir.toList)).isPrefixOf (dropStartSlashes name.toList) &&
    !((dropStartSlashes name.toList).drop (stem (dropStartSlashes dir.toList)).length).isEmpty &&
    !((dropStartSlashes name.toList).drop (stem (dropStartSlashes dir.toList)).length).contains '/') = true ↔ _
  generalize stem (dropStartSlashes dir.toList) = base, dropStartSlashes name.toList = cs
  simp only [Bool.and_eq_true, Bool.not_eq_true', List.isPrefixOf_iff_prefix, List.isEmpty_eq_false_iff,
    List.contains_eq_mem, decide_eq_false_iff_not]
  constructor
  · rintro ⟨⟨⟨segment, rfl⟩, hne⟩, hslash⟩
    rw [List.drop_left] at hne hslash
    exact ⟨segment, rfl, hne, hslash⟩
  · rintro ⟨segment, rfl, hne, hslash⟩
    rw [List.drop_left]
    exact ⟨⟨List.prefix_append _ _, hne⟩, hslash⟩

/-- The texts are the same, slashes at the beginning aside. -/
def Agree (a b : String) : Prop := dropStartSlashes a.toList = dropStartSlashes b.toList

instance (a b : String) : Decidable (Agree a b) :=
  inferInstanceAs (Decidable (dropStartSlashes a.toList = dropStartSlashes b.toList))

/-- **A name lies below a directory just if it has a last segment and its parent agrees with the directory.** -/
theorem isDirectChild_iff {dir name : String} :
    isDirectChild dir name = true ↔ basename name ≠ "" ∧ Agree dir (parentOf name) := by
  have hsegment := (parentOf_cases name).1
  have hname : (basename name).toList ≠ [] ↔ basename name ≠ "" := by simp
  rw [isDirectChild_eq_true, ← hname]
  constructor
  · rintro ⟨segment, heq, hne, hslash⟩
    obtain ⟨hdir, rfl⟩ := stem_append_inj hsegment hslash ((dropStartSlashes_eq_stem name).symm.trans heq)
    exact ⟨hne, hdir.symm⟩
  · rintro ⟨hne, hdir⟩
    unfold Agree at hdir
    exact ⟨_, hdir ▸ dropStartSlashes_eq_stem name, hne, hsegment⟩

/-- **Texts agree just if their parents do and their last segments are the same.** -/
theorem agree_iff {a b : String} : Agree a b ↔ Agree (parentOf a) (parentOf b) ∧ basename a = basename b := by
  unfold Agree
  rw [dropStartSlashes_eq_stem a, dropStartSlashes_eq_stem b]
  constructor
  · intro h
    obtain ⟨hparent, hsegment⟩ := stem_append_inj (parentOf_cases a).1 (parentOf_cases b).1 h
    exact ⟨hparent, String.toList_inj.mp hsegment⟩
  · rintro ⟨hparent, hsegment⟩
    rw [hparent, hsegment]

/-! ## Canonical paths -/

/-- What is left when the slashes at the end are dropped does not end with one. -/
theorem getLast?_dropEndSlashes (cs : List Char) : (dropEndSlashes cs).getLast? ≠ some '/' := by
  have hhead := List.head?_dropWhile_not (fun c => decide (c = '/')) cs.reverse
  rw [dropEndSlashes, List.getLast?_reverse]
  intro hlast
  rw [hlast] at hhead
  cases hhead

/-- A path other than the root does not end with a slash. -/
theorem getLast?_text {p : Path} (hroot : p.isRoot = false) : p.text.toList.getLast? ≠ some '/' := by
  have htext : p.text.toList = canonicalChars p.text.toList := by
    have h := congrArg String.toList p.canonical
    rw [canonicalize, String.toList_ofList] at h
    exact h.symm
  have hbody := getLast?_dropEndSlashes p.text.toList
  unfold canonicalChars at htext
  dsimp only at htext
  split at htext
  · rwa [htext]
  · -- a slash that was put in front stands at the end only if there is nothing else
    rw [htext]
    cases hnil : dropEndSlashes p.text.toList with
    | nil =>
      rw [hnil] at htext
      have hslash : p.text = "/" := String.toList_inj.mp htext
      rw [isRoot, hslash] at hroot
      cases hroot
    | cons c rest =>
      rw [hnil] at hbody
      rwa [List.getLast?_cons_cons]

/-- A text with a last segment does not end with a slash. -/
theorem getLast?_of_basename {text : String} (h : basename text ≠ "") : text.toList.getLast? ≠ some '/' := by
  intro hlast
  obtain ⟨before, htext⟩ := List.getLast?_eq_some_iff.mp hlast
  apply h
  rw [basename, htext, List.reverse_append]
  rfl

/-- The last segment of a text that does not end with a slash is not empty. -/
theorem basename_ne_empty {text : String} (hne : text ≠ "") (hlast : text.toList.getLast? ≠ some '/') :
    basename text ≠ "" := by
  obtain ⟨-, ⟨htext, -⟩ | ⟨before, htext, -⟩⟩ := parentOf_cases text
  · rwa [← htext]
  · intro hempty
    rw [hempty, String.toList_empty] at htext
    apply hlast
    rw [htext, List.getLast?_append, List.getLast?_singleton]
    rfl

/-- The root agrees with no text that has a last segment. -/
theorem not_agree_root {text : String} (h : basename text ≠ "") : ¬Agree "/" text := by
  intro hagree
  have hroot : basename "/" = "" := by decide
  exact h ((agree_iff.mp hagree).2.symm.trans hroot)

/-- The text with a slash in front, where it lacks one. -/
def absolute (text : String) : String :=
  if isAbsolute text then text else "/" ++ text

theorem toList_slash_append (text : String) : ("/" ++ text).toList = '/' :: text.toList := String.toList_append ..

theorem isAbsolute_slash_append (text : String) : isAbsolute ("/" ++ text) = true := by
  rw [isAbsolute, toList_slash_append]
  rfl

theorem absolute_of_isAbsolute {text : String} (h : isAbsolute text = true) : absolute text = text := if_pos h

theorem absolute_of_not_isAbsolute {text : String} (h : isAbsolute text = false) : absolute text = "/" ++ text := by
  rw [absolute, h]
  rfl

/-- The slash that is put in front is one at the beginning. -/
theorem agree_absolute (text : String) : Agree (absolute text) text := by
  cases h : isAbsolute text with
  | true => rw [absolute_of_isAbsolute h]; rfl
  | false =>
    unfold Agree
    rw [absolute_of_not_isAbsolute h, toList_slash_append]
    exact List.dropWhile_cons_of_pos (by decide)

/-- A text that does not end with a slash gains one in front at most. -/
theorem canonicalize_eq_absolute {text : String} (hlast : text.toList.getLast? ≠ some '/') :
    canonicalize text = absolute text := by
  have hbody : dropEndSlashes text.toList = text.toList := by
    unfold dropEndSlashes
    rw [← List.head?_reverse] at hlast
    cases hreverse : text.toList.reverse with
    | nil => rw [List.reverse_eq_nil_iff.mp hreverse]; rfl
    | cons c rest =>
      rw [hreverse] at hlast
      have hc : c ≠ '/' := fun he => hlast (congrArg some he)
      rw [List.dropWhile_cons_of_neg (by simpa using hc), ← hreverse, List.reverse_reverse]
  rw [canonicalize, canonicalChars, hbody]
  by_cases hhead : text.toList.head? = some '/'
  · rw [if_pos hhead, String.ofList_toList, absolute_of_isAbsolute (decide_eq_true hhead)]
  · rw [if_neg hhead, absolute_of_not_isAbsolute (decide_eq_false hhead), ← toList_slash_append, String.ofList_toList]

/-- A text that begins with a slash and does not end with one is canonical. -/
theorem canonicalize_eq_self {text : String} (hhead : text.toList.head? = some '/')
    (hlast : text.toList.getLast? ≠ some '/') : canonicalize text = text := by
  rw [canonicalize_eq_absolute hlast, absolute_of_isAbsolute (decide_eq_true hhead)]

/-- The canonical form of a path begins with two slashes only if the path does. -/
theorem double_slash_of_canonicalize {path : String} (h : ['/', '/'] <+: (canonicalize path).toList) :
    ['/', '/'] <+: path.toList := by
  have hbody : dropEndSlashes path.toList <+: path.toList := by
    rw [dropEndSlashes, ← List.reverse_suffix, List.reverse_reverse]
    exact List.dropWhile_suffix _
  rw [canonicalize, String.toList_ofList, canonicalChars] at h
  split at h
  · exact h.trans hbody
  · rename_i hhead
    obtain ⟨rest, hrest, -⟩ := List.cons_prefix_iff.mp (List.cons_prefix_cons.mp h).2
    exact absurd (congrArg List.head? hrest) hhead

/-- Every character takes a byte or more. -/
theorem length_le_utf8ByteSize (text : String) : text.toList.length ≤ text.utf8ByteSize := by
  have hbytes : text.utf8ByteSize = (text.toList.flatMap String.utf8EncodeChar).length := by
    rw [← Text.toList_toUTF8]
    rfl
  rw [hbytes]
  induction text.toList with
  | nil => exact Nat.le_refl _
  | cons c rest ih =>
    have hpos : 0 < (String.utf8EncodeChar c).length := by
      rw [String.length_utf8EncodeChar]
      exact c.utf8Size_pos
    rw [List.flatMap_cons, List.length_append, List.length_cons]
    omega

/-- A path other than the root is a slash and something after it. -/
theorem two_le_utf8ByteSize {p : Path} (hroot : p.isRoot = false) : 2 ≤ p.text.utf8ByteSize := by
  have hhead := p.head?_text
  have hlast := getLast?_text hroot
  refine Nat.le_trans ?_ (length_le_utf8ByteSize p.text)
  cases htext : p.text.toList with
  | nil =>
    rw [htext] at hhead
    cases hhead
  | cons c rest =>
    cases rest with
    | nil =>
      rw [htext] at hhead hlast
      exact absurd hhead hlast
    | cons c' rest =>
      rw [List.length_cons, List.length_cons]
      omega

end BlockVolume.Path
