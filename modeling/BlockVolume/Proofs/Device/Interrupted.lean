import BlockVolume.Proofs.Device.Journal
import BlockVolume.Proofs.Device.Reading
import BlockVolume.Proofs.Volume.Storage

/-!
# `Proofs.Device.Interrupted` — requests that are broken off

A sequence of requests ends at the first one that is refused. Of a sequence of reads it can be said then where
that was, and of a sequence of writes that each block is either as it was before or as it should have become.

## Contents
- **`RefusesRead`**: a read that is refused after others were served; `serves_or_refuses`.
- `Metered.requests_readOut`: reads are recorded as such; `Metered.reads_of_append_eq`.
- **`Metered.PartlyWrote`**: what a sequence of writes leaves that may have been broken off, with
  **`Metered.writeBlocks_wrote`**.
-/

namespace BlockVolume

open BlockVolume.Action

variable {δ : Type} [BlockDevice δ] {d : δ} {i : Nat} {is : List Nat} {e : DeviceError}

/-! ## Reads -/

/-- Asked for blocks one after the other, the device serves those of a list and then refuses another one. -/
structure RefusesRead (is : List Nat) (i : Nat) (e : DeviceError) (d : δ) : Prop where
  served : ServesReads is d
  refused : (BlockDevice.read i (readOut is d)).result = .error e

/-- The first of the reads is refused. -/
theorem RefusesRead.of_first (h : (BlockDevice.read i d).result = .error e) : RefusesRead [] i e d :=
  ⟨trivial, h⟩

/-- What comes first is served. -/
theorem RefusesRead.cons {j : Nat} {b : Block} (hserved : (BlockDevice.read j d).result = .ok b)
    (h : RefusesRead is i e (BlockDevice.read j d).state) : RefusesRead (j :: is) i e d :=
  ⟨⟨⟨b, hserved⟩, h.served⟩, h.refused⟩

/-- Of a list of blocks the device serves all, or there is a first one that it refuses. -/
theorem serves_or_refuses (is : List Nat) (d : δ) :
    ServesReads is d ∨ ∃ before i e, before ++ [i] <+: is ∧ RefusesRead before i e d := by
  induction is generalizing d with
  | nil => exact Or.inl trivial
  | cons j is ih =>
    cases hj : (BlockDevice.read j d).result with
    | error e => exact Or.inr ⟨[], j, e, by simp, .of_first hj⟩
    | ok b =>
      rcases ih (BlockDevice.read j d).state with hserved | ⟨before, i, e, hbefore, hrefused⟩
      · exact Or.inl ⟨⟨b, hj⟩, hserved⟩
      · exact Or.inr ⟨j :: before, i, e, List.cons_prefix_cons.mpr ⟨rfl, hbefore⟩, hrefused.cons hj⟩

/-- Of blocks that are all served each is served in its turn. -/
theorem ServesReads.served {before after : List Nat} (h : ServesReads (before ++ i :: after) d) :
    ∃ b, (BlockDevice.read i (readOut before d)).result = .ok b := by
  induction before generalizing d with
  | nil => exact h.1
  | cons j before ih => exact ih h.2

/-! ## Requests of a meter -/

namespace Metered

variable {m m' : Metered δ} {l : List (Nat × Block)}

/-- A meter records the reads that it was asked for. -/
theorem requests_readOut (is : List Nat) (m : Metered δ) :
    (readOut is m).requests.toList = m.requests.toList ++ is.map Request.read := by
  induction is generalizing m with
  | nil => exact (List.append_nil _).symm
  | cons i is ih =>
    have hone : (BlockDevice.read i m).state.requests.toList = m.requests.toList ++ [.read i] :=
      passOn_requests (.read i) (BlockDevice.read i) m
    calc (readOut is (BlockDevice.read i m).state).requests.toList
        = (m.requests.toList ++ [.read i]) ++ is.map Request.read := by rw [ih, hone]
      _ = m.requests.toList ++ (i :: is).map Request.read := by simp

/-- Reads that a record begins with are among all those that it begins with. -/
theorem reads_of_append_eq {is js : List Nat} {rest tail : List Request} (htail : ∀ q ∈ tail.head?, ∀ j, q ≠ .read j)
    (h : is.map Request.read ++ rest = js.map Request.read ++ tail) :
    ∃ ks, js = is ++ ks ∧ rest = ks.map Request.read ++ tail := by
  induction is generalizing js with
  | nil => exact ⟨js, rfl, h⟩
  | cons i is ih =>
    cases js with
    | nil =>
      have hhead : tail.head? = some (.read i) := by
        rw [show tail = (i :: is).map Request.read ++ rest from h.symm]
        rfl
      exact absurd rfl (htail _ hhead i)
    | cons j js =>
      obtain ⟨hij, hrest⟩ := List.cons.inj h
      obtain ⟨ks, rfl, hks⟩ := ih hrest
      exact ⟨ks, by rw [Request.read.inj hij]; rfl, hks⟩

variable [LawfulDevice δ]

/-- What writing the blocks of a list one after the other may leave, if it is broken off anywhere. -/
structure PartlyWrote (l : List (Nat × Block)) (m m' : Metered δ) : Prop where
  requests : ∃ asked : List Request, m'.requests.toList = m.requests.toList ++ asked ∧
    ∀ q ∈ asked, q = .flush ∨ ∃ i ∈ l.map Prod.fst, q = .write i
  content (b : Nat) : content m' b = content m b ∨ (b, content m' b) ∈ l

/-- It was broken off before anything was written. -/
theorem PartlyWrote.refl (l : List (Nat × Block)) (m : Metered δ) : PartlyWrote l m m :=
  ⟨⟨[], (List.append_nil _).symm, nofun⟩, fun _ => Or.inl rfl⟩

/-- The first block of the list was written or refused, and something of the rest came after. -/
theorem PartlyWrote.cons {i : Nat} {b : Block} {rest : List (Nat × Block)} {m'' : Metered δ}
    (hrequests : m'.requests.toList = m.requests.toList ++ [.write i])
    (hcontent : LawfulDevice.content m' = LawfulDevice.content m ∨
      LawfulDevice.content m' = Function.update (LawfulDevice.content m) i b)
    (h : PartlyWrote rest m' m'') : PartlyWrote ((i, b) :: rest) m m'' where
  requests := by
    obtain ⟨asked, hasked, hrest⟩ := h.requests
    refine ⟨.write i :: asked, by rw [hasked, hrequests, List.append_assoc, List.singleton_append], ?_⟩
    intro q hq
    rcases List.mem_cons.mp hq with rfl | hq
    · exact Or.inr ⟨i, List.mem_cons_self, rfl⟩
    · rcases hrest q hq with rfl | ⟨j, hj, rfl⟩
      · exact Or.inl rfl
      · exact Or.inr ⟨j, List.mem_cons_of_mem _ hj, rfl⟩
  content j := by
    rcases h.content j with hj | hj
    · rcases hcontent with hsame | hnew
      · exact Or.inl (hj.trans (congrFun hsame j))
      · by_cases hji : j = i
        · subst hji
          rw [hj, hnew, Function.update_self]
          exact Or.inr List.mem_cons_self
        · rw [hj, hnew, Function.update_of_ne hji]
          exact Or.inl rfl
    · exact Or.inr (List.mem_cons_of_mem _ hj)

/-- Blocks are written up to the first that is refused, and the device is flushed if there is none. -/
theorem writeBlocks_wrote (l : List (Nat × Block)) (m : Metered δ) :
    (Volume.writeBlocks l >>= fun _ => BlockDevice.flush).Ensures m fun _ m' => PartlyWrote l m m' := by
  induction l generalizing m with
  | nil =>
    apply ((LawfulDevice.flush_ensures m).and (passOn_requests .flush BlockDevice.flush m)).mono
    rintro r m' ⟨⟨-, hcontent⟩, hrequests⟩
    exact ⟨⟨[.flush], hrequests, fun q hq => Or.inl (List.mem_singleton.mp hq)⟩,
      fun b => Or.inl (congrFun hcontent b)⟩
  | cons p rest ih =>
    obtain ⟨i, b⟩ := p
    unfold Volume.writeBlocks
    rw [bind_assoc, ensures_bind]
    apply ((LawfulDevice.write_ensures i b m).and (passOn_requests (.write i) (BlockDevice.write i b) m)).mono
    rintro r m' ⟨⟨-, hok, herror⟩, hrequests⟩
    cases r with
    | ok u => exact (ih m').mono fun _ _ h => h.cons hrequests (Or.inr (hok rfl))
    | error e => exact (PartlyWrote.refl rest m').cons hrequests (Or.inl (herror e rfl))

/-- The first request is that for the first block. -/
theorem writeBlocks_begins (i : Nat) (b : Block) (rest : List (Nat × Block)) (m : Metered δ) :
    (Volume.writeBlocks ((i, b) :: rest) >>= fun _ => BlockDevice.flush).Ensures m fun _ m' =>
      ∃ asked, m'.requests.toList = m.requests.toList ++ .write i :: asked := by
  unfold Volume.writeBlocks
  rw [bind_assoc, ensures_bind]
  apply (passOn_requests (.write i) (BlockDevice.write i b) m).mono
  intro r m' hrequests
  cases r with
  | ok u =>
    apply (writeBlocks_wrote rest m').mono
    intro _ m'' h
    obtain ⟨asked, hasked, -⟩ := h.requests
    exact ⟨asked, by rw [hasked, hrequests, List.append_assoc, List.singleton_append]⟩
  | error e => exact ⟨[], hrequests⟩

end Metered

end BlockVolume
