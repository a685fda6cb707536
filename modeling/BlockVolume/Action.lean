import BlockVolume.Log

/-!
# `BlockVolume.Action` — operations that may fail part-way

An operation on a state ends with a value or an error, and in both cases with the state it leaves
behind and the records it made on the way. Nothing is undone on an error: a caller that needs the
state to be as before relies on what the operation itself promises.

## Contents
- `Outcome`: how an operation ended; `Action`: an operation.
- `pure`, `bind` and the monad laws (`LawfulMonad`), with the equations of `pure`, `bind`, `throw`, `get` and
  `modify`.
- `attempt` keeps going after an error, `reporting` makes a record of it, `mapError` renames it, and
  `focus` runs an operation on a part of the state.
-/

namespace BlockVolume

/-- How an operation ended: its result, the state it left and the records it made. -/
structure Outcome (ε σ α : Type) where
  result : Except ε α
  state : σ
  log : List Log.Record

/-- An operation on states `σ` that yields an `α` or an error `ε`. -/
def Action (ε σ α : Type) : Type := σ → Outcome ε σ α

namespace Action

variable {ε ε' σ τ α β : Type}

/-- Runs an operation from a state. -/
@[inline] def run (x : Action ε σ α) (s : σ) : Outcome ε σ α := x s

/-- Yields `a` and changes nothing. -/
@[inline] protected def pure (a : α) : Action ε σ α := fun s => ⟨.ok a, s, []⟩

/-- Runs `x`, and after a success the operation that `f` gives for its value. -/
@[inline] protected def bind (x : Action ε σ α) (f : α → Action ε σ β) : Action ε σ β := fun s =>
  match x s with
  | ⟨.ok a, s', log⟩ =>
    let y := f a s'
    ⟨y.result, y.state, log ++ y.log⟩
  | ⟨.error e, s', log⟩ => ⟨.error e, s', log⟩

instance : Monad (Action ε σ) where
  pure := Action.pure
  bind := Action.bind

/-- Fails with `e` and changes nothing. -/
@[inline] protected def throw (e : ε) : Action ε σ α := fun s => ⟨.error e, s, []⟩

/-- Runs `x`, and after a failure the operation that `handle` gives for its error. -/
@[inline] protected def tryCatch (x : Action ε σ α) (handle : ε → Action ε σ α) : Action ε σ α := fun s =>
  match x s with
  | ⟨.ok a, s', log⟩ => ⟨.ok a, s', log⟩
  | ⟨.error e, s', log⟩ =>
    let y := handle e s'
    ⟨y.result, y.state, log ++ y.log⟩

instance : MonadExceptOf ε (Action ε σ) where
  throw := Action.throw
  tryCatch := Action.tryCatch

/-- The state. -/
@[inline] def get : Action ε σ σ := fun s => ⟨.ok s, s, []⟩

/-- Replaces the state. -/
@[inline] def set (s : σ) : Action ε σ Unit := fun _ => ⟨.ok (), s, []⟩

/-- Changes the state by `f`. -/
@[inline] def modify (f : σ → σ) : Action ε σ Unit := fun s => ⟨.ok (), f s, []⟩

/-- Makes a record. -/
@[inline] def note (level : Log.Level) (text : String) : Action ε σ Unit := fun s =>
  ⟨.ok (), s, [⟨level, text⟩]⟩

/-- Makes records. -/
@[inline] def emit (records : List Log.Record) : Action ε σ Unit := fun s => ⟨.ok (), s, records⟩

/-- Yields the value of `r`, or fails with its error. -/
@[inline] def ofExcept (r : Except ε α) : Action ε σ α := fun s => ⟨r, s, []⟩

/-- Runs `x` and yields how it ended; it fails itself in no case. -/
@[inline] def attempt (x : Action ε σ α) : Action ε' σ (Except ε α) := fun s =>
  let y := x s
  ⟨.ok y.result, y.state, y.log⟩

/-- Runs `x`; if it fails, adds the record that `describe` gives for the error. -/
@[inline] def reporting (describe : ε → Log.Record) (x : Action ε σ α) : Action ε σ α := fun s =>
  match x s with
  | ⟨.ok a, s', log⟩ => ⟨.ok a, s', log⟩
  | ⟨.error e, s', log⟩ => ⟨.error e, s', log ++ [describe e]⟩

/-- Runs `x` with its errors seen as `wrap` says. -/
@[inline] def mapError (wrap : ε → ε') (x : Action ε σ α) : Action ε' σ α := fun s =>
  let y := x s
  ⟨y.result.mapError wrap, y.state, y.log⟩

/-- Runs `x` on the part of the state that `part` and `put` give, with its errors seen as `wrap` says. -/
@[inline] def focus (part : τ → σ) (put : σ → τ → τ) (wrap : ε → ε') (x : Action ε σ α) :
    Action ε' τ α := fun t =>
  let y := x (part t)
  ⟨y.result.mapError wrap, put y.state t, y.log⟩

/-! ## Equations -/

@[simp] theorem pure_apply (a : α) (s : σ) : (pure a : Action ε σ α) s = ⟨.ok a, s, []⟩ := rfl

theorem bind_apply (x : Action ε σ α) (f : α → Action ε σ β) (s : σ) :
    (x >>= f) s = match x s with
      | ⟨.ok a, s', log⟩ => ⟨(f a s').result, (f a s').state, log ++ (f a s').log⟩
      | ⟨.error e, s', log⟩ => ⟨.error e, s', log⟩ := rfl

@[simp] theorem throw_apply (e : ε) (s : σ) : (throw e : Action ε σ α) s = ⟨.error e, s, []⟩ := rfl

@[simp] theorem get_apply (s : σ) : (get : Action ε σ σ) s = ⟨.ok s, s, []⟩ := rfl

@[simp] theorem modify_apply (f : σ → σ) (s : σ) : (modify f : Action ε σ Unit) s = ⟨.ok (), f s, []⟩ := rfl

instance : LawfulMonad (Action ε σ) := LawfulMonad.mk' (Action ε σ)
  (by
    intro α x
    funext s
    change Action.bind x (fun a => Action.pure (id a)) s = x s
    rcases h : x s with ⟨⟨⟩ | ⟨⟩, s', log⟩ <;> simp [Action.bind, Action.pure, h])
  (by
    intro α β a f
    funext s
    change Action.bind (Action.pure a) f s = f a s
    simp [Action.bind, Action.pure])
  (by
    intro α β γ x f g
    funext s
    change Action.bind (Action.bind x f) g s = Action.bind x (fun a => Action.bind (f a) g) s
    rcases h : x s with ⟨e | a, s', log⟩
    · simp [Action.bind, h]
    · rcases h' : f a s' with ⟨e | b, s'', log'⟩ <;> simp [Action.bind, h, h'])

instance : MonadLift (Except ε) (Action ε σ) where
  monadLift := ofExcept

end Action

end BlockVolume
