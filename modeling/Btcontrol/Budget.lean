import Mathlib

/-! Computations with loops that may not end, run with a budget of turns. A budget that is used up
is no outcome at all; a computation ends if some budget gives one. -/
namespace Budget

variable {ε σ α β : Type}

/-- `none` while the budget does not suffice. -/
abbrev Outcome (ε α : Type) := Option (Except ε α)

def andThen : Outcome ε α → (α → Outcome ε β) → Outcome ε β
  | none, _ => none
  | some (.error e), _ => some (.error e)
  | some (.ok a), next => next a

@[simp] theorem andThen_none (next : α → Outcome ε β) : andThen none next = none := rfl

@[simp] theorem andThen_error (e : ε) (next : α → Outcome ε β) :
    andThen (some (.error e)) next = some (.error e) := rfl

@[simp] theorem andThen_ok (a : α) (next : α → Outcome ε β) : andThen (some (.ok a)) next = next a := rfl

def whileDo (test : σ → Bool) (body : σ → σ) : Nat → σ → Outcome ε σ
  | 0, _ => none
  | turns + 1, s => if test s then whileDo test body turns (body s) else some (.ok s)

/-- Whatever the one outcome is, the other is the same. -/
def Within (x y : Outcome ε α) : Prop := ∀ r, x = some r → y = some r

theorem within_refl (x : Outcome ε α) : Within x x := fun _ same => same

theorem within_none (y : Outcome ε α) : Within none y := fun _ same => nomatch same

theorem within_andThen {x y : Outcome ε α} {f g : α → Outcome ε β} (first : Within x y)
    (next : ∀ a, Within (f a) (g a)) : Within (andThen x f) (andThen y g) := by
  cases x with
  | none => exact within_none _
  | some r =>
    rw [first r rfl]
    cases r with
    | error e => exact within_refl _
    | ok a => exact next a

theorem within_ite {c : Prop} [Decidable c] {x y x' y' : Outcome ε α} (yes : Within x y) (no : Within x' y') :
    Within (if c then x else x') (if c then y else y') := by
  split
  · exact yes
  · exact no

/-- More turns change no outcome. -/
theorem within_whileDo (test : σ → Bool) (body : σ → σ) {turns more : Nat} (enough : turns ≤ more) (s : σ) :
    Within (whileDo test body turns s : Outcome ε σ) (whileDo test body more s) := by
  induction turns generalizing more s with
  | zero => exact within_none _
  | succ turns ih =>
    obtain ⟨more,rfl⟩ : ∃ n, more = n + 1 := ⟨more - 1,by omega⟩
    exact within_ite (ih (by omega) (body s)) (within_refl _)

/-- A test that never fails is never left. -/
theorem whileDo_endless {test : σ → Bool} (endless : ∀ s, test s = true) (body : σ → σ) (turns : Nat) (s : σ) :
    (whileDo test body turns s : Outcome ε σ) = none := by
  induction turns generalizing s with
  | zero => rfl
  | succ turns ih => simp only [whileDo,endless,↓reduceIte,ih]

end Budget
