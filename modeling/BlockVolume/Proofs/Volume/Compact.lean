import BlockVolume.Proofs.Space.Growth
import BlockVolume.Proofs.Volume.Supply

/-!
# `Proofs.Volume.Compact` — the run of a file that is written to

A file grows into the blocks after its run, one by one, for as long as they are free and in the volume, and it is
given a block when the position has come to one that it lacks. So its run reaches just as far as the bytes need, or as
far as it can.

## Contents
- `blocksFor`: how many blocks bytes need.
- **`Space.Reaches`**: a run that has grown, with `grow_reaches`.
- **`Space.Spans`** and `lay_spans`: how far the run of a file reaches after bytes were laid down in it.
- **`write_compact`**: a file whose position is at the end of what was written has no block that its bytes do not need.
-/

namespace BlockVolume

open BlockVolume.Action Volume

/-- The number of blocks that `n` bytes need. -/
def blocksFor (n : Nat) : Nat := (n + (blockSize - 1)) / blockSize

/-- More bytes need as many blocks or more. -/
theorem blocksFor_mono {m n : Nat} (h : m ≤ n) : blocksFor m ≤ blocksFor n :=
  Nat.div_le_div_right (Nat.add_le_add_right h _)

/-- Bytes need no more blocks than have room for them. -/
theorem blocksFor_le_iff {n blocks : Nat} : blocksFor n ≤ blocks ↔ n ≤ blockSize * blocks := by
  show (n + 511) / 512 ≤ blocks ↔ n ≤ 512 * blocks
  omega

/-- Bytes need blocks. -/
theorem blocksFor_pos {n : Nat} (h : 0 < n) : 0 < blocksFor n := by
  show 0 < (n + 511) / 512
  omega

/-- Bytes that end with a piece need the blocks up to that of the piece. -/
theorem blocksFor_of_piece {n count : Nat} (hcount : 0 < count) (hfit : n % blockSize + count ≤ blockSize) :
    blocksFor (n + count) = n / blockSize + 1 := by
  have hfit' : n % 512 + count ≤ 512 := hfit
  show (n + count + 511) / 512 = n / 512 + 1
  omega

namespace Space

variable {s s' s'' : Space} {e e' e'' : Entry} {start m n : Nat}

/-! ## A run that has grown -/

/-- The blocks from `low` up to `high` are in the volume and not in use. -/
def Vacant (s : Space) (low high : Nat) : Prop :=
  ∀ b, low ≤ b → b < high → b < s.total ∧ s.bitmap.test b = false

/-- The entry `e` has become `e'` by taking vacant blocks after its run, and no other block that lies after it. -/
structure Reaches (s s' : Space) (e e' : Entry) : Prop where
  total : s'.total = s.total
  start : s'.start? e' = s.start? e
  blocks_le : e.blocks.toNat ≤ e'.blocks.toNat
  vacant {start : Nat} : s.start? e = some start → s.Vacant (start + e.blocks.toNat) (start + e'.blocks.toNat)
  rest {start b : Nat} : s.start? e = some start → start + e'.blocks.toNat ≤ b → s'.bitmap.test b = s.bitmap.test b

theorem Reaches.refl (s : Space) (e : Entry) : Reaches s s e e where
  total := rfl
  start := rfl
  blocks_le := Nat.le_refl _
  vacant _ _ hlow hhigh := absurd hlow (Nat.not_le.mpr hhigh)
  rest _ _ := rfl

theorem Reaches.trans (h : Reaches s s' e e') (h' : Reaches s' s'' e' e'') : Reaches s s'' e e'' where
  total := h'.total.trans h.total
  start := h'.start.trans h.start
  blocks_le := Nat.le_trans h.blocks_le h'.blocks_le
  vacant {start} hstart b hlow hhigh := by
    have hstart' : s'.start? e' = some start := h.start.trans hstart
    by_cases hb : b < start + e'.blocks.toNat
    · exact h.vacant hstart b hlow hb
    · have hle := Nat.le_of_not_lt hb
      obtain ⟨hlt, hfree⟩ := h'.vacant hstart' b hle hhigh
      exact ⟨h.total ▸ hlt, (h.rest hstart hle).symm.trans hfree⟩
  rest {start b} hstart hb := by
    have hstart' : s'.start? e' = some start := h.start.trans hstart
    have hle : start + e'.blocks.toNat ≤ b := Nat.le_trans (Nat.add_le_add_left h'.blocks_le _) hb
    rw [h'.rest hstart' hb, h.rest hstart hle]

/-- Bytes that are put into an entry do not move its run. -/
theorem Reaches.put (h : Reaches s s' e e') (size : Nat) : Reaches s s' e (putEntry e' size) where
  total := h.total
  start := h.start
  blocks_le := h.blocks_le
  vacant := h.vacant
  rest := h.rest

/-- A block that is given lies right after the run and is vacant. -/
theorem grow_reaches {g : Grant} (hcap : s.total ≤ bitmapCapacity) (hg : s.grow e = .ok g) :
    Reaches s g.space e g.entry := by
  obtain ⟨hspace, hlt, hfree, -, hextends⟩ := grow_eq_ok hg
  have hblocks := hextends.blocks
  cases hstart : s.start? e with
  | none =>
    rw [grow_of_no_start hstart hcap] at hg
    cases hg
  | some start =>
    have hlast : g.entry.firstBlock.toNat = start ∧ g.block = start + e.blocks.toNat := by
      have htotal := s.total_lt
      rw [grow_of_start hstart hcap] at hg
      split at hg
      · cases hg
      · split at hg
        · cases hg
        · cases hg
          exact ⟨UInt32.toNat_ofNat_of_lt' (by omega), rfl⟩
    obtain ⟨hfirst, hlast⟩ := hlast
    have hne : g.entry.blocks ≠ 0 := UInt32.toNat_ne_zero.mp (by omega)
    refine ⟨?_, ?_, by omega, fun hstart' => ?_, fun hstart' => ?_⟩
    · rw [hspace]
      rfl
    · rw [start?, if_neg hne, hfirst, hstart]
    · obtain rfl := Option.some.inj (hstart.symm.trans hstart')
      intro b hlow hhigh
      obtain rfl : b = g.block := by omega
      exact ⟨hlt, hfree⟩
    · obtain rfl := Option.some.inj (hstart.symm.trans hstart')
      intro hb
      rw [hspace]
      show (s.bitmap.set g.block).test _ = _
      rw [Bitmap.test_set _ (Nat.lt_of_lt_of_le hlt hcap), decide_eq_false (by omega), Bool.false_or]

/-! ## A run that bytes were laid down in -/

variable {position : Nat}

/-- An entry with a block at a position stays as it is, and any other is given one block. -/
theorem supply_reaches (hcap : s.total ≤ bitmapCapacity) (h : s.supply e position = .ok (s', e'))
    (hposition : position ≤ blockSize * e.blocks.toNat) :
    Reaches s s' e e' ∧ e'.blocks.toNat = max e.blocks.toNat (position / blockSize + 1) := by
  have hdiv : position / blockSize ≤ e.blocks.toNat := Nat.div_le_of_le_mul hposition
  rcases supply_eq_ok h with ⟨hlt, rfl, rfl⟩ | ⟨hlack, g, hg, rfl, rfl⟩
  · exact ⟨.refl _ _, by omega⟩
  · have hblocks : g.entry.blocks.toNat = e.blocks.toNat + 1 := (grow_eq_ok hg).2.2.2.2.blocks
    exact ⟨grow_reaches hcap hg, by omega⟩

/-- How far a run reaches after bytes up to `last` were to be laid down in it. It has the blocks for them, or there was
one that it needs and was refused. -/
structure Spans (s : Space) (e : Entry) (last : Nat) (laid : Laid) : Prop where
  reaches : Reaches s laid.space e laid.entry
  all : laid.refusal = none → laid.entry.blocks.toNat = max e.blocks.toNat (blocksFor last)
  short {refusal : Refusal} : laid.refusal = some refusal →
    laid.space.grow laid.entry = .error refusal ∧ laid.entry.blocks.toNat < blocksFor last

/-- **The run of a file that bytes are laid down in reaches as far as they need, or as far as it can.** -/
theorem lay_spans {data : List UInt8} {parts : List (List UInt8)} (hparts : pieces position data = parts)
    (hcap : s.total ≤ bitmapCapacity) (hposition : position ≤ blockSize * e.blocks.toNat) :
    Spans s e (position + data.length) (s.lay e position parts) := by
  have hdata : parts.flatten = data := hparts ▸ flatten_pieces position data
  induction parts generalizing s e position data with
  | nil =>
    obtain rfl : [] = data := hdata
    have hneeds : blocksFor position ≤ e.blocks.toNat := blocksFor_le_iff.mpr hposition
    exact ⟨.refl s e, fun _ => (Nat.max_eq_left hneeds).symm, fun hnone => by cases hnone⟩
  | cons bytes rest ih =>
    obtain ⟨hne, hfit, data', hrest⟩ := pieces_eq_cons hparts
    have hpiece := blocksFor_of_piece (List.length_pos_iff.mpr hne) hfit
    have hdata' : rest.flatten = data' := hrest ▸ flatten_pieces _ _
    have hlast : position + data.length = position + bytes.length + data'.length := by
      rw [← hdata, List.flatten_cons, List.length_append, hdata', Nat.add_assoc]
    have hmono : blocksFor (position + bytes.length) ≤ blocksFor (position + bytes.length + data'.length) :=
      blocksFor_mono (Nat.le_add_right _ _)
    rw [hlast]
    cases hsupply : s.supply e position with
    | error refusal =>
      obtain ⟨hlack, hgrow⟩ := supply_eq_error hsupply
      rw [lay_cons_error hsupply]
      refine ⟨.refl s e, fun hnone => (by cases hnone), fun hsome => ?_⟩
      obtain rfl := Option.some.inj hsome
      refine ⟨hgrow, ?_⟩
      show e.blocks.toNat < _
      omega
    | ok supplied =>
      obtain ⟨s', e'⟩ := supplied
      obtain ⟨hreaches, hblocks⟩ := supply_reaches hcap hsupply hposition
      have hcap' : s'.total ≤ bitmapCapacity := hreaches.total ▸ hcap
      have hposition' : position + bytes.length ≤ blockSize * (putEntry e' (position + bytes.length)).blocks.toNat := by
        show _ ≤ blockSize * e'.blocks.toNat
        apply blocksFor_le_iff.mp
        omega
      rw [lay_cons_ok hsupply]
      have h := ih hrest.symm hcap' hposition' hdata'
      refine ⟨(hreaches.put _).trans h.reaches, fun hnone => ?_, h.short⟩
      have hall : _ = max e'.blocks.toNat _ := h.all hnone
      rw [hall]
      omega

end Space

namespace Volume

variable {δ : Type} [BlockDevice δ] [LawfulDevice δ] {v w : Volume δ} {hd : Handle} {f : OpenFile}
  {data : List UInt8}

/-! ## What a write needs -/

/-- The run of an open file reaches as far as bytes need that are laid down at its position, or as far as it can. -/
theorem Sound.spans (h : v.Sound) (hf : v.handles.file? hd = some f) (data : List UInt8) :
    v.space.Spans (v.directory.get f.slot) (f.position + data.length)
      (v.space.lay (v.directory.get f.slot) f.position (pieces f.position data)) := by
  have hcap : v.space.total ≤ bitmapCapacity := h.allocated.total_eq ▸ volumeBlocks_le_bitmapCapacity.2
  have hposition : f.position ≤ blockSize * (v.directory.get f.slot).blocks.toNat :=
    Nat.le_trans (h.coherent (Pool.fileAt?_of_file? hf)).position_le (h.allocated.size_le f.slot)
  exact Space.lay_spans rfl hcap hposition

/-- A write that yields a number was refused no block. -/
theorem Written.refusal_eq_none {laid : Space.Laid} {r : Except Error Nat} {n : Nat}
    (h : Written v w hd f data laid r) (hr : r = .ok n) : laid.refusal = none := by
  have hresult := h.result
  cases hrefusal : laid.refusal with
  | none => rfl
  | some refusal =>
    rw [hr, Space.Laid.result, hrefusal] at hresult
    cases hresult

/-- **Writing that succeeds leaves a file without blocks that it does not need, if there were none before.** -/
theorem write_compact (h : v.Sound) (hf : v.handles.file? hd = some f) (hm : f.mode = .write)
    (hblocks : (v.directory.get f.slot).blocks.toNat = blocksFor f.position) (data : List UInt8) :
    (write hd data : VolumeAction δ Nat).Ensures v fun r w =>
      r = .ok data.length → (w.directory.get f.slot).blocks.toNat = blocksFor (f.position + data.length) := by
  apply (write_written h hf hm data).mono
  intro r w hw hr
  have hwritten := hw (hr ▸ not_isIo_ok _)
  have hall := (h.spans hf data).all (hwritten.refusal_eq_none hr)
  have hmono : blocksFor f.position ≤ blocksFor (f.position + data.length) := blocksFor_mono (Nat.le_add_right _ _)
  rw [hwritten.described.get, hall, hblocks, Nat.max_eq_right hmono]

end Volume

end BlockVolume
