import Mathlib

/-! Deterministic systems that go on step by step, and whether they come to a final state. -/
namespace Halting

variable {σ : Type} {next : σ → σ} {final : σ → Prop}

def Halts (next : σ → σ) (final : σ → Prop) (s : σ) : Prop := ∃ n, final (next^[n] s)

theorem halts_of_final {s : σ} (done : final s) : Halts next final s := ⟨0,done⟩

theorem halts_after (n : Nat) {s : σ} (later : Halts next final (next^[n] s)) : Halts next final s := by
  obtain ⟨more,done⟩ := later
  exact ⟨more + n,by rwa [Function.iterate_add_apply]⟩

theorem halts_next {s : σ} (later : Halts next final (next s)) : Halts next final s :=
  halts_after 1 later

/-- What is kept from step to step and is never final does not halt. -/
theorem not_halts (inv : σ → Prop) (kept : ∀ s, inv s → inv (next s)) (unfinished : ∀ s, inv s → ¬ final s)
    {s : σ} (start : inv s) : ¬ Halts next final s := by
  rintro ⟨n,done⟩
  have held : ∀ n s, inv s → inv (next^[n] s) := by
    intro n
    induction n with
    | zero => exact fun _ held => held
    | succ n ih => exact fun s held => ih _ (kept s held)
  exact unfinished _ (held n s start) done

/-- States of a phase that lead back into it with a smaller measure, or to a halt, all halt. -/
theorem halts_of_measure (phase : σ → Prop) (measure : σ → Nat)
    (progress : ∀ s, phase s → Halts next final s ∨
      ∃ n, phase (next^[n] s) ∧ measure (next^[n] s) < measure s) {s : σ} (start : phase s) :
    Halts next final s := by
  induction size : measure s using Nat.strong_induction_on generalizing s with
  | _ size_ ih =>
    rcases progress s start with halts | ⟨n,again,smaller⟩
    · exact halts
    · exact halts_after n (ih _ (by omega) again rfl)

end Halting
