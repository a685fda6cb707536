import BlockVolume.Proofs.Volume.ByteArray

/-!
# `Proofs.Volume.Supply` — what writing makes of the space

Which blocks a file is given while bytes are written to it depends on nothing but the space, the entry and the
position: not on caches, and not on the device. So this part of writing is a function of these, and a write ends as
the function says, unless the device refuses a request. Then it has come some way, and the rest of the function is
still to be done.

## Contents
- `pieces_eq_append`: bytes that were cut, up to a piece and from it on.
- **`Space.supply`** for one piece, **`Space.lay`** for a list, with `supply_eq_ok` and `lay_of_supply`.
- **`writePiece_supplies`**, **`writePieces_lays`** and **`write_lays`**.
- **`Written`** and `write_written`: what a write comes to that the device serves.
-/

namespace BlockVolume

open BlockVolume.Action

/-- No bytes are no pieces. -/
theorem pieces_nil (position : Nat) : pieces position [] = [] := by
  rw [pieces, if_pos List.isEmpty_nil]

/-- As many bytes as there is room for in the block are the first piece. -/
theorem pieces_of_ne {position : Nat} {data : List UInt8} (hne : data ≠ []) :
    pieces position data = data.take (roomInBlock position) ::
      pieces (position + roomInBlock position) (data.drop (roomInBlock position)) := by
  rw [pieces, if_neg fun hempty => hne (List.isEmpty_iff.mp hempty)]

/-- Where cut bytes are parted, the pieces before are those of as many bytes, and the pieces after are those of the
rest. -/
theorem pieces_eq_append {position : Nat} {data : List UInt8} {done rest : List (List UInt8)}
    (h : pieces position data = done ++ rest) :
    done = pieces position (data.take done.flatten.length) ∧
      rest = pieces (position + done.flatten.length) (data.drop done.flatten.length) := by
  induction done generalizing position data with
  | nil => exact ⟨(pieces_nil position).symm, h.symm⟩
  | cons bytes done ih =>
    have hroom := roomInBlock_pos position
    have hne : data ≠ [] := by
      rintro rfl
      rw [pieces_nil] at h
      cases h
    by_cases hlen : data.length ≤ roomInBlock position
    · -- there is one piece
      rw [pieces_of_le hne hlen] at h
      obtain ⟨rfl, hnil⟩ := List.cons.inj h
      obtain ⟨rfl, rfl⟩ := List.append_eq_nil_iff.mp hnil.symm
      rw [List.flatten_singleton, List.take_length, List.drop_length]
      exact ⟨(pieces_of_le hne hlen).symm, (pieces_nil _).symm⟩
    · have hlt := Nat.lt_of_not_le hlen
      rw [pieces_of_ne hne] at h
      obtain ⟨rfl, hrest⟩ := List.cons.inj h
      obtain ⟨hdone, hrest⟩ := ih hrest
      have hlength : (data.take (roomInBlock position) :: done).flatten.length =
          roomInBlock position + done.flatten.length := by
        rw [List.flatten_cons, List.length_append, List.length_take, Nat.min_eq_left (Nat.le_of_lt hlt)]
      rw [hlength]
      constructor
      · have hne' : data.take (roomInBlock position + done.flatten.length) ≠ [] := by
          apply List.ne_nil_of_length_pos
          rw [List.length_take]
          omega
        rw [pieces_of_ne hne', List.take_take, Nat.min_eq_left (Nat.le_add_right _ _), List.drop_take,
          Nat.add_sub_cancel_left]
        exact congrArg _ hdone
      · rw [← Nat.add_assoc, ← List.drop_drop]
        exact hrest

/-! ## The space that a write takes -/

namespace Space

open Volume

/-- What an entry that has the block at a position, or is given it, is then, and what is left of the space. -/
def supply (s : Space) (e : Entry) (position : Nat) : Except Refusal (Space × Entry) :=
  if e.blocks.toNat ≤ position / blockSize then (s.grow e).map fun g => (g.space, g.entry) else .ok (s, e)

/-- What becomes of the space and of an entry. -/
structure Laid where
  /-- Why it did not go on, unless it went to the end. -/
  refusal : Option Refusal
  space : Space
  entry : Entry

/-- What a write yields that ends in this way. -/
def Laid.result (laid : Laid) : Except Error Unit :=
  match laid.refusal with
  | none => .ok ()
  | some refusal => .error refusal.error

/-- Want of space is no fault of the device. -/
theorem Laid.not_isIo_result (laid : Laid) : ¬IsIo laid.result := by
  rw [result]
  rcases laid.refusal with _ | ⟨⟨⟩⟩
  · exact not_isIo_ok _
  all_goals
    intro hio
    obtain ⟨d, hd⟩ := hio
    cases hd

/-- What becomes of the space and of an entry when pieces are laid down one after the other from `position` on. -/
def lay (s : Space) (e : Entry) (position : Nat) : List (List UInt8) → Laid
  | [] => ⟨none, s, e⟩
  | bytes :: rest =>
    match s.supply e position with
    | .ok (s', e') => lay s' (putEntry e' (position + bytes.length)) (position + bytes.length) rest
    | .error refusal => ⟨some refusal, s, e⟩

variable {s s' : Space} {e e' : Entry} {position : Nat} {bytes : List UInt8} {rest : List (List UInt8)}

theorem supply_of_lt (h : position / blockSize < e.blocks.toNat) : s.supply e position = .ok (s, e) :=
  if_neg (Nat.not_le.mpr h)

theorem supply_of_le (h : e.blocks.toNat ≤ position / blockSize) :
    s.supply e position = (s.grow e).map fun g => (g.space, g.entry) :=
  if_pos h

/-- An entry that has a block at a position has it already or is given one. -/
theorem supply_eq_ok (h : s.supply e position = .ok (s', e')) :
    (position / blockSize < e.blocks.toNat ∧ s' = s ∧ e' = e) ∨
      (e.blocks.toNat ≤ position / blockSize ∧ ∃ g, s.grow e = .ok g ∧ s' = g.space ∧ e' = g.entry) := by
  by_cases hlack : e.blocks.toNat ≤ position / blockSize
  · rw [supply_of_le hlack] at h
    cases hg : s.grow e with
    | error refusal =>
      rw [hg] at h
      cases h
    | ok g =>
      rw [hg] at h
      cases h
      exact Or.inr ⟨hlack, g, rfl, rfl, rfl⟩
  · rw [supply_of_lt (Nat.lt_of_not_le hlack)] at h
    cases h
    exact Or.inl ⟨Nat.lt_of_not_le hlack, rfl, rfl⟩

/-- If no block is to be had for a position the entry has none there and cannot grow. -/
theorem supply_eq_error {refusal : Refusal} (h : s.supply e position = .error refusal) :
    e.blocks.toNat ≤ position / blockSize ∧ s.grow e = .error refusal := by
  by_cases hlack : e.blocks.toNat ≤ position / blockSize
  · rw [supply_of_le hlack] at h
    cases hg : s.grow e with
    | error r =>
      rw [hg] at h
      cases h
      exact ⟨hlack, rfl⟩
    | ok g =>
      rw [hg] at h
      cases h
  · rw [supply_of_lt (Nat.lt_of_not_le hlack)] at h
    cases h

/-- A position that is not past the run has its block then. -/
theorem lt_blocks_of_supply (h : s.supply e position = .ok (s', e'))
    (hposition : position ≤ blockSize * e.blocks.toNat) : position / blockSize < e'.blocks.toNat := by
  rcases supply_eq_ok h with ⟨hlt, -, rfl⟩ | ⟨-, g, hg, -, rfl⟩
  · exact hlt
  · have hblocks : g.entry.blocks.toNat = e.blocks.toNat + 1 := (grow_eq_ok hg).2.2.2.2.blocks
    have hdiv : position / blockSize ≤ e.blocks.toNat := Nat.div_le_of_le_mul hposition
    omega

theorem lay_cons_ok (h : s.supply e position = .ok (s', e')) : s.lay e position (bytes :: rest) =
    s'.lay (putEntry e' (position + bytes.length)) (position + bytes.length) rest := by
  rw [lay, h]

theorem lay_cons_error {refusal : Refusal} (h : s.supply e position = .error refusal) :
    s.lay e position (bytes :: rest) = ⟨some refusal, s, e⟩ := by
  rw [lay, h]

/-- It makes no difference if the block for the first piece is there already. -/
theorem lay_of_supply (h : s.supply e position = .ok (s', e')) (hposition : position ≤ blockSize * e.blocks.toNat) :
    s'.lay e' position (bytes :: rest) = s.lay e position (bytes :: rest) := by
  rw [lay_cons_ok h, lay_cons_ok (supply_of_lt (lt_blocks_of_supply h hposition))]

end Space

namespace Volume

variable {δ : Type} [BlockDevice δ] [LawfulDevice δ] {u v w : Volume δ} {p : Place} {f : OpenFile}
  {bytes : List UInt8}

/-! ## What becomes of the description -/

omit [BlockDevice δ] [LawfulDevice δ] in
theorem Described.get {slot : Slot} {s : Space} {e : Entry} (h : Described v w slot s e) :
    w.directory.get slot = e := by
  rw [h.directory, Directory.get_set, if_pos rfl]

omit [BlockDevice δ] [LawfulDevice δ] in
/-- Of two changes of one entry the later one stays. -/
theorem Described.after {slot : Slot} {s s' : Space} {e e' : Entry} (h : Described u v slot s e)
    (h' : Described v w slot s' e') : Described u w slot s' e' :=
  ⟨h'.space, by rw [h'.directory, h.directory, Directory.set_set]⟩

omit [BlockDevice δ] [LawfulDevice δ] in
theorem described_self (v : Volume δ) (slot : Slot) : Described v v slot v.space (v.directory.get slot) :=
  ⟨rfl, (Directory.set_get _ _).symm⟩

/-- How writing a piece may end. There is no block for it; or it is in the block, and the entry counts its bytes; or
there is a block, and the device refused a request. -/
inductive Supplied (v w : Volume δ) (p : Place) (f : OpenFile) (bytes : List UInt8) : Except Error Unit → Prop
  | refused {refusal : Space.Refusal} : v.space.supply (v.directory.get f.slot) f.position = .error refusal → w = v →
      Supplied v w p f bytes (.error refusal.error)
  | done {s : Space} {e : Entry} : v.space.supply (v.directory.get f.slot) f.position = .ok (s, e) →
      Described v w f.slot s (putEntry e (f.position + bytes.length)) →
      (∃ cache, w.handles.fileAt? p = some { f with position := f.position + bytes.length, cache := cache }) →
      Supplied v w p f bytes (.ok ())
  | io {s : Space} {e : Entry} {d : DeviceError} : v.space.supply (v.directory.get f.slot) f.position = .ok (s, e) →
      Described v w f.slot s e → (∃ cache, w.handles.fileAt? p = some { f with cache := cache }) →
      Supplied v w p f bytes (.error (.io d))

/-- **A piece takes the space that it is supplied with.** -/
theorem writePiece_supplies (h : v.Sound) (hp : v.handles.fileAt? p = some f) (hm : f.mode = .write)
    (hfit : f.position % blockSize + bytes.length ≤ blockSize) :
    (writePiece p bytes).Ensures v fun r w => Supplied v w p f bytes r := by
  rw [ensures_writePiece hp]
  by_cases hlack : (v.directory.get f.slot).blocks.toNat ≤ f.position / blockSize
  · have hsupply := Space.supply_of_le (s := v.space) hlack
    rw [if_pos hlack, ensures_bind, ensures_growEntry]
    cases hg : v.space.grow (v.directory.get f.slot) with
    | error refusal =>
      rw [hg] at hsupply
      exact .refused hsupply rfl
    | ok g =>
      rw [hg] at hsupply
      have hgrown : Described v { v with space := g.space, directory := v.directory.set f.slot g.entry } f.slot g.space
          g.entry := ⟨rfl, rfl⟩
      apply (fillPiece_granted h hp hm hfit hlack hg).mono
      rintro r w ⟨-, hfilled⟩
      cases hfilled with
      | done hw hd =>
        rw [hgrown.get] at hd
        exact .done hsupply (hgrown.after hd) hw.file
      | io hw hd =>
        rw [hgrown.get] at hd
        exact .io hsupply (hgrown.after hd) hw.file
  · have hsupply := Space.supply_of_lt (s := v.space) (Nat.lt_of_not_le hlack)
    rw [if_neg hlack]
    apply (fillPiece_owned h hp hm hfit (Nat.lt_of_not_le hlack)).mono
    rintro r w ⟨-, hfilled⟩
    cases hfilled with
    | done hw hd => exact .done hsupply hd hw.file
    | io hw hd => exact .io hsupply hd hw.file

omit [LawfulDevice δ] in
/-- Pieces may be written in two parts. -/
theorem writePieces_append (parts rest : List (List UInt8)) : (writePieces p (parts ++ rest) : VolumeAction δ Unit) =
    writePieces p parts >>= fun _ => writePieces p rest := by
  induction parts with
  | nil => exact (pure_bind _ _).symm
  | cons bytes parts ih =>
    show (writePiece p bytes >>= fun _ => writePieces p (parts ++ rest)) =
      (writePiece p bytes >>= fun _ => writePieces p parts) >>= fun _ => writePieces p rest
    rw [ih, bind_assoc]

/-- How writing pieces may end. Space and entry are as they are to be; or they are so for the pieces `done`, there is
a block for the next one, and the device refused a request. -/
inductive LayEnds (v w : Volume δ) (p : Place) (f : OpenFile) (parts : List (List UInt8)) : Except Error Unit → Prop
  | laid {laid : Space.Laid} : v.space.lay (v.directory.get f.slot) f.position parts = laid →
      Described v w f.slot laid.space laid.entry → LayEnds v w p f parts laid.result
  | io {d : DeviceError} {done rest : List (List UInt8)} {s : Space} {e : Entry} : parts = done ++ rest →
      (v.space.lay (v.directory.get f.slot) f.position done).refusal = none → Described v w f.slot s e →
      s.lay e (f.position + done.flatten.length) rest = v.space.lay (v.directory.get f.slot) f.position parts →
      (∃ cache, w.handles.fileAt? p =
        some { f with position := f.position + done.flatten.length, cache := cache }) →
      LayEnds v w p f parts (.error (.io d))

/-- **Pieces take the space that is laid out for them.** -/
theorem writePieces_lays {position : Nat} {data : List UInt8} {parts : List (List UInt8)}
    (hparts : pieces position data = parts) (h : v.Sound) (hp : v.handles.fileAt? p = some f) (hm : f.mode = .write)
    (hposition : f.position = position) : (writePieces p parts).Ensures v fun r w => LayEnds v w p f parts r := by
  induction parts generalizing v f position data with
  | nil =>
    have hlaid : v.space.lay (v.directory.get f.slot) f.position [] = ⟨none, v.space, v.directory.get f.slot⟩ := rfl
    exact .laid hlaid (described_self v f.slot)
  | cons bytes rest ih =>
    obtain ⟨hne, hfit, data', hrest⟩ := pieces_eq_cons hparts
    have hfit : f.position % blockSize + bytes.length ≤ blockSize := hposition ▸ hfit
    have hend : f.position ≤ blockSize * (v.directory.get f.slot).blocks.toNat :=
      Nat.le_trans (h.coherent hp).position_le (h.allocated.size_le f.slot)
    unfold writePieces
    rw [ensures_bind]
    apply ((writePiece_cases h hp hm (List.length_pos_iff.mpr hne) hfit).and (writePiece_supplies h hp hm hfit)).mono
    rintro r u ⟨⟨hwalk, -⟩, hsupplied⟩
    cases hsupplied with
    | refused hsupply hu =>
      subst hu
      exact .laid (Space.lay_cons_error hsupply) (described_self u f.slot)
    | @done s e hsupply hd hfile =>
      obtain ⟨cache, hp'⟩ := hfile
      have hlay : v.space.lay (v.directory.get f.slot) f.position (bytes :: rest) =
          u.space.lay (u.directory.get f.slot) (f.position + bytes.length) rest := by
        rw [Space.lay_cons_ok hsupply, hd.space, hd.get]
      apply (ih hrest.symm (hwalk.sound h) hp' hm (congrArg (· + _) hposition)).mono
      intro r w hr
      cases hr with
      | laid hlaid hd' => exact .laid (hlay.trans hlaid) (hd.after hd')
      | @io _ done rest' s' e' hsplit hnone hd' hlaid hfile' =>
        subst hsplit
        have hdone : v.space.lay (v.directory.get f.slot) f.position (bytes :: done) =
            u.space.lay (u.directory.get f.slot) (f.position + bytes.length) done := by
          rw [Space.lay_cons_ok hsupply, hd.space, hd.get]
        have hlength : f.position + (bytes :: done).flatten.length =
            f.position + bytes.length + done.flatten.length := by
          rw [List.flatten_cons, List.length_append, Nat.add_assoc]
        have hsplit : bytes :: (done ++ rest') = (bytes :: done) ++ rest' := rfl
        refine .io hsplit (hdone ▸ hnone) (hd.after hd') ?_ ?_
        · rw [hlength, hlay]
          exact hlaid
        · rw [hlength]
          exact hfile'
    | io hsupply hd hfile =>
      have hsplit : bytes :: rest = [] ++ (bytes :: rest) := rfl
      refine .io hsplit rfl hd ?_ hfile
      exact Space.lay_of_supply hsupply hend

/-- **A write takes the space that is laid out for its bytes.** -/
theorem write_lays {hd : Handle} (h : v.Sound) (hf : v.handles.file? hd = some f) (hm : f.mode = .write)
    (data : List UInt8) : (write hd data : VolumeAction δ Nat).Ensures v fun r w =>
      ∃ r', r = r'.map (fun _ => data.length) ∧ Walk (writing f.slot) [.fault] v r' w ∧
        WriteEnds v w hd.place f data r' ∧ LayEnds v w hd.place f (pieces f.position data) r' := by
  have hp := Pool.fileAt?_of_file? hf
  rw [ensures_write (h.mounted_of_file? hf) hf hm]
  apply ((writePieces_cases h hp hm rfl).and (writePieces_lays rfl h hp hm rfl)).mono
  rintro r w ⟨⟨hwalk, hends⟩, hlays⟩
  exact ⟨r, rfl, hwalk, hends, hlays⟩

/-! ## A write that the device serves -/

omit [BlockDevice δ] [LawfulDevice δ] in
/-- Unless the device refused a request, space and entry are as laid out. -/
theorem LayEnds.of_not_isIo {parts : List (List UInt8)} {r : Except Error Unit} (h : LayEnds v w p f parts r)
    (hr : ¬IsIo r) : let laid := v.space.lay (v.directory.get f.slot) f.position parts
    r = laid.result ∧ Described v w f.slot laid.space laid.entry := by
  cases h with
  | laid hlaid hd => exact ⟨by rw [hlaid], by rw [hlaid]; exact hd⟩
  | io _ _ _ _ _ => exact absurd (isIo_io _) hr

omit [BlockDevice δ] [LawfulDevice δ] in
/-- If it did, there was room for what was written, and what is to become of space and entry when the others are
written is what was to become of them in the first place. -/
theorem LayEnds.of_isIo {parts : List (List UInt8)} {r : Except Error Unit} (h : LayEnds v w p f parts r)
    (hr : IsIo r) : ∃ done rest, parts = done ++ rest ∧
      (v.space.lay (v.directory.get f.slot) f.position done).result = .ok () ∧
      w.directory = v.directory.set f.slot (w.directory.get f.slot) ∧
      w.space.lay (w.directory.get f.slot) (f.position + done.flatten.length) rest =
        v.space.lay (v.directory.get f.slot) f.position parts ∧
      ∃ cache, w.handles.fileAt? p =
        some { f with position := f.position + done.flatten.length, cache := cache } := by
  cases h with
  | laid _ _ => exact absurd hr (Space.Laid.not_isIo_result _)
  | @io _ done rest s e hsplit hnone hd hleft hfile =>
    refine ⟨done, rest, hsplit, ?_, ?_, ?_, hfile⟩
    · rw [Space.Laid.result, hnone]
    · rw [hd.get, hd.directory]
    · rw [hd.get, hd.space, hleft]

/-- The bytes before the one that the device refused are accepted. -/
theorem WriteEnds.of_isIo {data : List UInt8} {r : Except Error Unit} (h : WriteEnds v w p f data r)
    (hr : IsIo r) : ∃ k < data.length, Wrote v w p f (data.take k) := by
  cases h with
  | done _ => exact absurd hr (not_isIo_ok _)
  | full he _ _ _ =>
    obtain ⟨d, hd⟩ := hr
    rcases he with rfl | rfl <;> cases hd
  | io hk hw => exact ⟨_, hk, hw⟩

/-- If it refused none, as many bytes are accepted as there is room for. -/
theorem WriteEnds.of_not_isIo {data : List UInt8} {r : Except Error Unit} (h : WriteEnds v w p f data r)
    (hr : ¬IsIo r) : ∃ n, Wrote v w p f (data.take n) ∧ ((r = .ok () ∧ n = data.length) ∨
      (r ≠ .ok () ∧ n < data.length ∧ f.position + n = blockSize * (w.directory.get f.slot).blocks.toNat)) := by
  cases h with
  | done hw => exact ⟨data.length, List.take_length.symm ▸ hw, Or.inl ⟨rfl, rfl⟩⟩
  | @full _ k _ hk hw hrun => exact ⟨k, hw, Or.inr ⟨nofun, hk, hrun⟩⟩
  | io _ _ => exact absurd (isIo_io _) hr

/-- A reliable device lets no write down. -/
theorem write_not_isIo (h : v.Sound) (hr : Reliable v.device) (hd : Handle) (data : List UInt8) :
    ¬IsIo (write hd data v).result := by
  intro hio
  rcases write_cases h hd data with ⟨_, _, _, _, hwalk, _, _⟩ | ⟨hdeclined, -⟩
  · exact hwalk.unreliable hio hr
  · exact hdeclined.not_isIo hio

/-- What a write comes to that the device does not let down. Space and entry are as laid out for the bytes; as many of
these are accepted as the blocks of the file have room for then, all of them if none was refused; and no other file
notices. -/
structure Written (v w : Volume δ) (hd : Handle) (f : OpenFile) (data : List UInt8) (laid : Space.Laid)
    (r : Except Error Nat) : Prop where
  result : r = laid.result.map fun _ => data.length
  described : Described v w f.slot laid.space laid.entry
  others (slot : Slot) : slot ≠ f.slot → w.contents slot = v.contents slot
  accepted : ∃ n, Overlaid v w hd f (data.take n) ∧ ((laid.result = .ok () ∧ n = data.length) ∨
    (laid.result ≠ .ok () ∧ n < data.length ∧ f.position + n = blockSize * laid.entry.blocks.toNat))

/-- The steps of a write to one file leave the contents of the others. -/
theorem Change.not_alters_of_writing {slot slot' : Slot} (hne : slot' ≠ slot) :
    ∀ c ∈ writing slot, c.alters slot' = false := by
  intro c hc
  simp only [writing, List.mem_cons, List.not_mem_nil, or_false] at hc
  rcases hc with rfl | rfl | rfl | rfl
  · rfl
  · rfl
  · rfl
  · exact decide_eq_false (Ne.symm hne)

/-- **A write that the device serves comes to what was laid out for it.** -/
theorem write_written {hd : Handle} (h : v.Sound) (hf : v.handles.file? hd = some f) (hm : f.mode = .write)
    (data : List UInt8) : (write hd data : VolumeAction δ Nat).Ensures v fun r w => ¬IsIo r →
      Written v w hd f data (v.space.lay (v.directory.get f.slot) f.position (pieces f.position data)) r := by
  apply (write_lays h hf hm data).mono
  rintro r w ⟨r', rfl, hwalk, hends, hlays⟩ hserved
  have hio : ¬IsIo r' := fun h => hserved (isIo_map.mpr h)
  obtain ⟨hresult, hdescribed⟩ := hlays.of_not_isIo hio
  obtain ⟨n, hw, hn⟩ := hends.of_not_isIo hio
  rw [hdescribed.get, hresult] at hn
  refine ⟨by rw [hresult], hdescribed, fun slot hslot => ?_, n, hw.overlaid h hf hwalk, hn⟩
  exact (hwalk.trace_of_not_isIo hio).contents_eq h (Change.not_alters_of_writing hslot)

end Volume

end BlockVolume
