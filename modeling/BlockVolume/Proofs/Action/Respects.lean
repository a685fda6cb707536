import BlockVolume.Proofs.Action.Ensures
import Mathlib.Order.Defs.Unbundled

/-!
# `Proofs.Action.Respects` — relations that an operation cannot leave

An operation respects a relation if it relates the state that the operation ends in to the one that it
began in, whatever the result. A preorder passes through every combinator: a long operation respects it
as soon as its parts do, and nothing needs to be known of the values that the parts yield.

## Contents
- **`Respects`**, with one lemma for each combinator (`Respects.bind`, `respects_modify`, …).
- **`respects_get_bind`**, **`ensures_modify_bind`**: where a part depends on the state, or on where a change is
  made.
-/

namespace BlockVolume.Action

variable {ε ε' σ τ α β : Type} {R : σ → σ → Prop}

/-- Wherever the operation begins, it ends in a state to which the first one is related. -/
def Respects (R : σ → σ → Prop) (x : Action ε σ α) : Prop :=
  ∀ s, x.Ensures s fun _ s' => R s s'

theorem respects_modify {f : σ → σ} (h : ∀ s, R s (f s)) : (modify f : Action ε σ Unit).Respects R := h

/-- What follows a look at the state may depend on it. -/
theorem respects_get_bind {f : σ → Action ε σ α} (h : ∀ s, (f s).Ensures s fun _ s' => R s s') :
    (get >>= f).Respects R :=
  fun s => ensures_bind.mpr (h s)

theorem Respects.attempt {x : Action ε σ α} (h : x.Respects R) :
    (attempt x : Action ε' σ (Except ε α)).Respects R := h

theorem respects_discard {x : Action ε σ α} : (x >>= fun _ => pure ()).Respects R ↔ x.Respects R :=
  forall_congr' fun _ => ensures_discard

theorem Respects.reporting {describe : ε → Log.Record} {x : Action ε σ α} (h : x.Respects R) :
    (reporting describe x).Respects R :=
  fun s => ensures_reporting.mpr (h s)

theorem Respects.mapError {wrap : ε → ε'} {x : Action ε σ α} (h : x.Respects R) :
    (mapError wrap x).Respects R := h

/-- An operation on a part of the state respects what every change of this part respects. -/
theorem respects_focus {part : τ → σ} {put : σ → τ → τ} {wrap : ε → ε'} {x : Action ε σ α}
    {Q : τ → τ → Prop} (h : ∀ s t, Q t (put s t)) : (focus part put wrap x).Respects Q :=
  fun _ => h _ _

section

variable [IsPreorder σ R]

theorem respects_pure (a : α) : (pure a : Action ε σ α).Respects R := fun s => refl s

theorem respects_throw (e : ε) : (throw e : Action ε σ α).Respects R := fun s => refl s

/-- What would have come after an error is left alone. -/
theorem respects_throw_bind (e : ε) (f : α → Action ε σ β) : (throw e >>= f : Action ε σ β).Respects R :=
  fun s => refl s

theorem respects_get : (get : Action ε σ σ).Respects R := fun s => refl s

theorem respects_note (level : Log.Level) (text : String) : (note level text : Action ε σ Unit).Respects R :=
  fun s => refl s

theorem respects_emit (records : List Log.Record) : (emit records : Action ε σ Unit).Respects R :=
  fun s => refl s

theorem respects_liftM (r : Except ε α) : (liftM r : Action ε σ α).Respects R := fun s => refl s

/-- A sequence respects what its parts respect. -/
theorem Respects.bind {x : Action ε σ α} {f : α → Action ε σ β} (hx : x.Respects R)
    (hf : ∀ a, (f a).Respects R) : (x >>= f).Respects R := by
  intro s
  refine Ensures.bind (hx s) ?_ fun _ _ h => h
  intro a s' h
  exact (hf a s').mono fun _ s'' h' => IsTrans.trans _ _ _ h h'

/-- What is respected holds of all that came before as well. -/
theorem Respects.after {x : Action ε σ α} (h : x.Respects R) {s s' : σ} (hs : R s s') :
    x.Ensures s' fun _ s'' => R s s'' :=
  (h s').mono fun _ _ h' => IsTrans.trans _ _ _ hs h'

/-- A change that is all right where it is made may be followed by whatever respects the relation. -/
theorem ensures_modify_bind {f : σ → σ} {x : Action ε σ α} {s : σ} (hf : R s (f s)) (hx : x.Respects R) :
    (modify f >>= fun _ => x).Ensures s fun _ s' => R s s' :=
  ensures_bind.mpr (hx.after hf)

end

end BlockVolume.Action
