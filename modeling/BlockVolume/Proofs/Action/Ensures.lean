import BlockVolume.Action

/-!
# `Proofs.Action.Ensures` — what an operation is known to end in

An `Action` ends with a result and a state in every case, so a statement about it is one predicate on
both: `x.Ensures s post`. The equations below push it through the combinators, as far as the next
operation that is no combinator; that one is opened by its own `Ensures` lemma and `Ensures.mono`.

Records play no part: nothing here speaks of the log.

## Contents
- **`Ensures`** with its equations (`ensures_bind`, `ensures_get`, …), all for `simp`.
- **`Ensures.mono`**, **`Ensures.bind`** and **`Ensures.andThen`**: how lemmas about parts are put together.
- **`Each`**: what holds in each turn of a loop, with **`Each.of_invariant`**.
-/

namespace BlockVolume.Action

variable {ε ε' σ τ α β : Type}

/-- Run from `s`, the operation ends with a result and a state that satisfy `post`. -/
def Ensures (x : Action ε σ α) (s : σ) (post : Except ε α → σ → Prop) : Prop :=
  post (x s).result (x s).state

theorem liftM_apply (r : Except ε α) (s : σ) : (liftM r : Action ε σ α) s = ⟨r, s, []⟩ := rfl

/-- A stronger postcondition is enough. -/
theorem Ensures.mono {x : Action ε σ α} {s : σ} {post post' : Except ε α → σ → Prop}
    (h : x.Ensures s post) (himp : ∀ r s', post r s' → post' r s') : x.Ensures s post' :=
  himp _ _ h

/-- Two postconditions hold together. -/
theorem Ensures.and {x : Action ε σ α} {s : σ} {post post' : Except ε α → σ → Prop}
    (h : x.Ensures s post) (h' : x.Ensures s post') :
    x.Ensures s fun r s' => post r s' ∧ post' r s' :=
  ⟨h, h'⟩

/-- Every operation ends in its own result and state. -/
theorem ensures_self (x : Action ε σ α) (s : σ) :
    x.Ensures s fun r s' => r = (x s).result ∧ s' = (x s).state :=
  ⟨rfl, rfl⟩

/-! ## Equations -/

@[simp] theorem ensures_pure {a : α} {s : σ} {post : Except ε α → σ → Prop} :
    (pure a : Action ε σ α).Ensures s post ↔ post (.ok a) s := Iff.rfl

@[simp] theorem ensures_throw {e : ε} {s : σ} {post : Except ε α → σ → Prop} :
    (throw e : Action ε σ α).Ensures s post ↔ post (.error e) s := Iff.rfl

@[simp] theorem ensures_get {s : σ} {post : Except ε σ → σ → Prop} :
    (get : Action ε σ σ).Ensures s post ↔ post (.ok s) s := Iff.rfl

@[simp] theorem ensures_set {s t : σ} {post : Except ε Unit → σ → Prop} :
    (set t : Action ε σ Unit).Ensures s post ↔ post (.ok ()) t := Iff.rfl

@[simp] theorem ensures_modify {f : σ → σ} {s : σ} {post : Except ε Unit → σ → Prop} :
    (modify f : Action ε σ Unit).Ensures s post ↔ post (.ok ()) (f s) := Iff.rfl

@[simp] theorem ensures_note {level : Log.Level} {text : String} {s : σ}
    {post : Except ε Unit → σ → Prop} :
    (note level text : Action ε σ Unit).Ensures s post ↔ post (.ok ()) s := Iff.rfl

@[simp] theorem ensures_emit {records : List Log.Record} {s : σ} {post : Except ε Unit → σ → Prop} :
    (emit records : Action ε σ Unit).Ensures s post ↔ post (.ok ()) s := Iff.rfl

@[simp] theorem ensures_liftM {r : Except ε α} {s : σ} {post : Except ε α → σ → Prop} :
    (liftM r : Action ε σ α).Ensures s post ↔ post r s := Iff.rfl

/-- After a success the next operation decides; an error ends the whole. -/
@[simp] theorem ensures_bind {x : Action ε σ α} {f : α → Action ε σ β} {s : σ}
    {post : Except ε β → σ → Prop} :
    (x >>= f).Ensures s post ↔
      x.Ensures s fun r s' =>
        match r with
        | .ok a => (f a).Ensures s' post
        | .error e => post (.error e) s' := by
  unfold Ensures
  rw [bind_apply]
  rcases x s with ⟨_ | _, s', log⟩ <;> exact Iff.rfl

@[simp] theorem ensures_map {x : Action ε σ α} {f : α → β} {s : σ} {post : Except ε β → σ → Prop} :
    (f <$> x).Ensures s post ↔ x.Ensures s fun r s' => post (r.map f) s' := by
  rw [← bind_pure_comp, ensures_bind]
  unfold Ensures
  rcases x s with ⟨_ | _, s', log⟩ <;> exact Iff.rfl

@[simp] theorem ensures_attempt {x : Action ε σ α} {s : σ}
    {post : Except ε' (Except ε α) → σ → Prop} :
    (attempt x : Action ε' σ (Except ε α)).Ensures s post ↔ x.Ensures s fun r s' => post (.ok r) s' :=
  Iff.rfl

@[simp] theorem ensures_reporting {describe : ε → Log.Record} {x : Action ε σ α} {s : σ}
    {post : Except ε α → σ → Prop} : (reporting describe x).Ensures s post ↔ x.Ensures s post := by
  unfold Ensures reporting
  rcases x s with ⟨_ | _, s', log⟩ <;> exact Iff.rfl

@[simp] theorem ensures_mapError {wrap : ε → ε'} {x : Action ε σ α} {s : σ}
    {post : Except ε' α → σ → Prop} :
    (mapError wrap x).Ensures s post ↔ x.Ensures s fun r s' => post (r.mapError wrap) s' := Iff.rfl

@[simp] theorem ensures_focus {part : τ → σ} {put : σ → τ → τ} {wrap : ε → ε'} {x : Action ε σ α}
    {t : τ} {post : Except ε' α → τ → Prop} :
    (focus part put wrap x).Ensures t post ↔
      x.Ensures (part t) fun r s => post (r.mapError wrap) (put s t) := Iff.rfl

/-- A sequence ensures what its second part ensures wherever the first one may lead. -/
theorem Ensures.bind {x : Action ε σ α} {f : α → Action ε σ β} {s : σ}
    {mid : Except ε α → σ → Prop} {post : Except ε β → σ → Prop} (hx : x.Ensures s mid)
    (hok : ∀ a s', mid (.ok a) s' → (f a).Ensures s' post)
    (herror : ∀ e s', mid (.error e) s' → post (.error e) s') : (x >>= f).Ensures s post := by
  rw [ensures_bind]
  apply hx.mono
  intro r s' hr
  cases r with
  | ok a => exact hok a s' hr
  | error e => exact herror e s' hr

/-- A sequence whose first part is known to yield `a`. -/
theorem Ensures.andThen {x : Action ε σ α} {f : α → Action ε σ β} {s : σ} {a : α} {mid : σ → Prop}
    {post : Except ε β → σ → Prop} (hx : x.Ensures s fun r s' => r = .ok a ∧ mid s')
    (hf : ∀ s', mid s' → (f a).Ensures s' post) : (x >>= f).Ensures s post := by
  rw [ensures_bind]
  apply hx.mono
  rintro r s' ⟨rfl, hs'⟩
  exact hf s' hs'

/-- What an operation yields does not matter to the state that it leaves. -/
theorem Ensures.yielding {x : Action ε σ α} {f : α → β} {s : σ} {post : σ → Prop}
    (h : x.Ensures s fun _ s' => post s') : (x >>= fun a => pure (f a)).Ensures s fun _ s' => post s' :=
  h.bind (fun _ _ hs' => hs') fun _ _ hs' => hs'

/-- So an operation that yields something is known from one that does not keep it. -/
theorem ensures_discard {x : Action ε σ α} {s : σ} {post : Except ε Unit → σ → Prop} :
    (x >>= fun _ => pure ()).Ensures s post ↔ x.Ensures s fun r s' => post (r.map fun _ => ()) s' := by
  rw [bind_pure_comp, ensures_map]

/-! ## Loops -/

/-- Where the same is done with the members of a list, one after the other and up to the first error: `C` holds of
each member and of the state in which its turn comes. -/
def Each {ι : Type} (step : ι → Action ε σ α) (C : ι → σ → Prop) : List ι → σ → Prop
  | [], _ => True
  | i :: rest, s => C i s ∧ (step i).Ensures s fun r s' => ∀ a, r = .ok a → Each step C rest s'

/-- What follows from an invariant of a loop, which may speak of the members that are left. -/
theorem Each.of_invariant {ι : Type} {step : ι → Action ε σ α} {C : ι → σ → Prop} {I : List ι → σ → Prop}
    (hC : ∀ i rest s, I (i :: rest) s → C i s)
    (hstep : ∀ i rest s, I (i :: rest) s → (step i).Ensures s fun r s' => ∀ a, r = .ok a → I rest s')
    {l : List ι} {s : σ} (h : I l s) : Each step C l s := by
  induction l generalizing s with
  | nil => trivial
  | cons i rest ih =>
    refine ⟨hC i rest s h, (hstep i rest s h).mono fun r s' hs a ha => ih (hs a ha)⟩

/-- What holds in all turns may be replaced by what follows from it. -/
theorem Each.mono {ι : Type} {step : ι → Action ε σ α} {C C' : ι → σ → Prop} (hle : ∀ i s, C i s → C' i s)
    {l : List ι} {s : σ} (h : Each step C l s) : Each step C' l s := by
  induction l generalizing s with
  | nil => trivial
  | cons i rest ih => exact ⟨hle i s h.1, h.2.mono fun r s' hs a ha => ih (hs a ha)⟩

end BlockVolume.Action
