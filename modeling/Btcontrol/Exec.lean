import Mathlib

/-! Computations over a state that may throw. `EStateM` keeps the state reached at the
throw, so what a failed computation has done so far is part of its outcome. -/
namespace Exec

variable {ε σ τ α β : Type}

def final : EStateM.Result ε σ α → σ
  | .ok _ s => s
  | .error _ s => s

@[simp] theorem final_ok (a : α) (s : σ) : final (.ok a s : EStateM.Result ε σ α) = s := rfl

@[simp] theorem final_error (e : ε) (s : σ) : final (.error e s : EStateM.Result ε σ α) = s := rfl

def lift (x : Except ε α) : EStateM ε σ α := fun s =>
  match x with
  | .ok a => .ok a s
  | .error e => .error e s

/-- Runs a computation on one part of a larger state. -/
def focus (view : τ → σ) (put : σ → τ → τ) (m : EStateM ε σ α) : EStateM ε τ α := fun s =>
  match m (view s) with
  | .ok a part => .ok a (put part s)
  | .error e part => .error e (put part s)

@[simp] theorem lift_ok (a : α) (s : σ) : (lift (.ok a) : EStateM ε σ α) s = .ok a s := rfl

@[simp] theorem lift_error (e : ε) (s : σ) : (lift (.error e) : EStateM ε σ α) s = .error e s := rfl

@[simp] theorem pure_apply (a : α) (s : σ) : (pure a : EStateM ε σ α) s = .ok a s := rfl

@[simp] theorem get_apply (s : σ) : (get : EStateM ε σ σ) s = .ok s s := rfl

@[simp] theorem set_apply (t s : σ) : (set t : EStateM ε σ PUnit) s = .ok ⟨⟩ t := rfl

@[simp] theorem modify_apply (f : σ → σ) (s : σ) :
    (modify f : EStateM ε σ PUnit) s = .ok ⟨⟩ (f s) := rfl

@[simp] theorem throw_apply (e : ε) (s : σ) : (throw e : EStateM ε σ α) s = .error e s := rfl

theorem bind_apply (m : EStateM ε σ α) (f : α → EStateM ε σ β) (s : σ) :
    (m >>= f) s = match m s with
      | .ok a s' => f a s'
      | .error e s' => .error e s' := rfl

theorem bind_ok {m : EStateM ε σ α} {f : α → EStateM ε σ β} {s s' : σ} {a : α}
    (first : m s = .ok a s') : (m >>= f) s = f a s' := by
  rw [bind_apply,first]

theorem bind_error {m : EStateM ε σ α} {f : α → EStateM ε σ β} {s s' : σ} {e : ε}
    (first : m s = .error e s') : (m >>= f) s = .error e s' := by
  rw [bind_apply,first]

def returned : EStateM.Result ε σ α → Bool
  | .ok _ _ => true
  | .error _ _ => false

theorem ok_of_returned {r : EStateM.Result ε σ α} (done : returned r = true) : ∃ a s, r = .ok a s := by
  cases r with
  | ok a s => exact ⟨a,s,rfl⟩
  | error e s => cases done

theorem ok_final {r : EStateM.Result ε σ Unit} (done : returned r = true) : r = .ok () (final r) := by
  obtain ⟨_,s,rfl⟩ := ok_of_returned done
  rfl

/-- Whether a sequence returns, where it is only the parts that decide it. -/
theorem returned_bind_congr {m m' : EStateM ε σ α} {f f' : α → EStateM ε σ β} {s s' : σ}
    (first : returned (m s) = returned (m' s'))
    (next : ∀ a a' t t', returned (f a t) = returned (f' a' t')) :
    returned ((m >>= f) s) = returned ((m' >>= f') s') := by
  rw [bind_apply,bind_apply]
  cases here : m s with
  | error e t =>
    cases there : m' s' with
    | error e' t' => rfl
    | ok a' t' =>
      rw [here,there] at first
      cases first
  | ok a t =>
    cases there : m' s' with
    | error e' t' =>
      rw [here,there] at first
      cases first
    | ok a' t' => exact next a a' t t'

def Returns (m : EStateM ε σ α) : Prop := ∀ s, returned (m s) = true

theorem returns_bind {m : EStateM ε σ α} {f : α → EStateM ε σ β} (first : Returns m) (next : ∀ a, Returns (f a)) :
    Returns (m >>= f) := by
  intro s
  obtain ⟨a,s',ran⟩ := ok_of_returned (first s)
  rw [bind_ok ran]
  exact next a s'

theorem returns_pure (a : α) : Returns (pure a : EStateM ε σ α) := fun _ => rfl

theorem returns_modify (f : σ → σ) : Returns (modify f : EStateM ε σ PUnit) := fun _ => rfl

theorem returns_ite {c : Prop} [Decidable c] {m m' : EStateM ε σ α} (yes : Returns m) (no : Returns m') :
    Returns (if c then m else m') := by
  split
  · exact yes
  · exact no

theorem returns_focus {view : τ → σ} {put : σ → τ → τ} {m : EStateM ε σ α} (returns : Returns m) :
    Returns (focus view put m) := by
  intro s
  obtain ⟨a,part,ran⟩ := ok_of_returned (returns (view s))
  simp only [focus,ran]
  rfl

/-- A computation that has returned, taken apart. -/
theorem returned_of_bind {m : EStateM ε σ α} {f : α → EStateM ε σ β} {s s'' : σ} {b : β}
    (done : (m >>= f) s = .ok b s'') : ∃ a s', m s = .ok a s' ∧ f a s' = .ok b s'' := by
  cases first : m s with
  | error e s' =>
    rw [bind_error first] at done
    cases done
  | ok a s' =>
    rw [bind_ok first] at done
    exact ⟨a,s',rfl,done⟩

/-- A computation without state that has returned, taken apart. -/
theorem ok_of_bind {x : Except ε α} {f : α → Except ε β} {b : β} (done : (x >>= f) = .ok b) :
    ∃ a, x = .ok a ∧ f a = .ok b := by
  cases x with
  | error e => cases done
  | ok a => exact ⟨a,rfl,done⟩

theorem ok_of_toOption {x : Except ε α} {a : α} (done : x.toOption = some a) : x = .ok a := by
  cases x with
  | error e => cases done
  | ok b => exact congrArg Except.ok (Option.some.inj done)

/-- What it takes for a relation to describe whole computations. -/
structure Closed (rel : σ → σ → Prop) : Prop where
  refl : ∀ s, rel s s
  trans : ∀ a b c, rel a b → rel b c → rel a c

/-- The relation of what changes nothing. -/
theorem closed_eq : Closed (fun s s' : σ => s' = s) :=
  ⟨fun _ => rfl,fun _ _ _ first second => second.trans first⟩

/-- However the computation ends, its state has moved along `rel`. -/
def Moves (rel : σ → σ → Prop) (m : EStateM ε σ α) : Prop := ∀ s, rel s (final (m s))

section Rules

variable {rel : σ → σ → Prop} (closed : Closed rel)
include closed

theorem moves_pure (a : α) : Moves rel (pure a : EStateM ε σ α) := fun s => closed.refl s

theorem moves_throw (e : ε) : Moves rel (throw e : EStateM ε σ α) := fun s => closed.refl s

theorem moves_get : Moves rel (get : EStateM ε σ σ) := fun s => closed.refl s

theorem moves_lift (x : Except ε α) : Moves rel (lift x : EStateM ε σ α) := by
  intro s
  cases x <;> exact closed.refl s

theorem moves_bind {m : EStateM ε σ α} {f : α → EStateM ε σ β} (first : Moves rel m)
    (next : ∀ a, Moves rel (f a)) : Moves rel (m >>= f) := by
  intro s
  have moved := first s
  cases outcome : m s with
  | ok a s' =>
    rw [outcome] at moved
    rw [bind_ok outcome]
    exact closed.trans _ _ _ moved (next a s')
  | error e s' =>
    rw [outcome] at moved
    rw [bind_error outcome]
    exact moved

/-- The rule when the second part relies on what the first has returned. -/
theorem moves_bind_post {m : EStateM ε σ α} {f : α → EStateM ε σ β} (post : α → σ → Prop)
    (first : Moves rel m) (returned : ∀ s a s', m s = .ok a s' → post a s')
    (next : ∀ a s, post a s → rel s (final (f a s))) : Moves rel (m >>= f) := by
  intro s
  have moved := first s
  cases outcome : m s with
  | ok a s' =>
    rw [outcome] at moved
    rw [bind_ok outcome]
    exact closed.trans _ _ _ moved (next a s' (returned s a s' outcome))
  | error e s' =>
    rw [outcome] at moved
    rw [bind_error outcome]
    exact moved

end Rules

theorem moves_modify {rel : σ → σ → Prop} (f : σ → σ) (moved : ∀ s, rel s (f s)) :
    Moves rel (modify f : EStateM ε σ PUnit) := fun s => moved s

theorem moves_ite {rel : σ → σ → Prop} {c : Prop} [Decidable c] {m m' : EStateM ε σ α}
    (yes : Moves rel m) (no : Moves rel m') : Moves rel (if c then m else m') := by
  split
  · exact yes
  · exact no

theorem final_focus (view : τ → σ) (put : σ → τ → τ) (m : EStateM ε σ α) (s : τ) :
    final (focus view put m s) = put (final (m (view s))) s := by
  simp only [focus]
  cases m (view s) <;> rfl

/-- A computation on a part moves the whole as it moves the part. -/
theorem moves_focus {rel : τ → τ → Prop} {part : σ → σ → Prop} {view : τ → σ} {put : σ → τ → τ}
    {m : EStateM ε σ α} (moved : Moves part m)
    (lifted : ∀ s next, part (view s) next → rel s (put next s)) :
    Moves rel (focus view put m) := by
  intro s
  rw [final_focus]
  exact lifted s _ (moved (view s))

/-- A computation that returns has added `n` to a count. One that throws may have stopped
anywhere. -/
def Adds (count : σ → Nat) (n : Nat) (m : EStateM ε σ α) : Prop :=
  ∀ s a s', m s = .ok a s' → count s' = count s + n

section Counting

variable {count : σ → Nat} {n : Nat}

theorem adds_pure (a : α) : Adds count 0 (pure a : EStateM ε σ α) := by
  rintro s _ _ ⟨⟩
  rfl

theorem adds_throw (e : ε) : Adds count n (throw e : EStateM ε σ α) := by
  rintro s _ _ ⟨⟩

theorem adds_get : Adds count 0 (get : EStateM ε σ σ) := by
  rintro s _ _ ⟨⟩
  rfl

theorem adds_lift (x : Except ε α) : Adds count 0 (lift x : EStateM ε σ α) := by
  intro s a s' returned
  cases x with
  | error e => cases returned
  | ok _ =>
    cases returned
    rfl

theorem adds_modify (f : σ → σ) (added : ∀ s, count (f s) = count s + n) :
    Adds count n (modify f : EStateM ε σ PUnit) := by
  rintro s _ _ ⟨⟩
  exact added s

theorem adds_bind {k : Nat} {m : EStateM ε σ α} {f : α → EStateM ε σ β} (first : Adds count k m)
    (next : ∀ a, Adds count n (f a)) : Adds count (k + n) (m >>= f) := by
  intro s b s'' returned
  cases outcome : m s with
  | error e s' =>
    rw [bind_error outcome] at returned
    cases returned
  | ok a s' =>
    rw [bind_ok outcome] at returned
    rw [next a s' b s'' returned,first s a s' outcome,Nat.add_assoc]

/-- The count is made in the second part. -/
theorem adds_after {m : EStateM ε σ α} {f : α → EStateM ε σ β} (first : Adds count 0 m)
    (next : ∀ a, Adds count n (f a)) : Adds count n (m >>= f) := by
  have both := adds_bind first next
  rwa [Nat.zero_add] at both

/-- The count is made in the first part. -/
theorem adds_before {m : EStateM ε σ α} {f : α → EStateM ε σ β} (first : Adds count n m)
    (next : ∀ a, Adds count 0 (f a)) : Adds count n (m >>= f) :=
  adds_bind first next

theorem adds_ite {c : Prop} [Decidable c] {m m' : EStateM ε σ α} (yes : Adds count n m)
    (no : Adds count n m') : Adds count n (if c then m else m') := by
  split
  · exact yes
  · exact no

theorem adds_focus {view : τ → σ} {put : σ → τ → τ} {whole : τ → Nat}
    (same : ∀ s part, whole (put part s) = whole s) (m : EStateM ε σ α) :
    Adds whole 0 (focus view put m) := by
  intro s a s' returned
  simp only [focus] at returned
  split at returned
  · cases returned
    exact same s _
  · cases returned

end Counting

end Exec
