import Mathlib

/-! Runs of a system given by a total step function, and the rule for their invariants. A
label that is not enabled leaves the state as it is. -/
namespace Transition

variable {σ ℓ : Type}

def run (step : σ → ℓ → σ) : σ → List ℓ → σ := List.foldl step

theorem run_append (step : σ → ℓ → σ) (s : σ) (labels more : List ℓ) :
    run step s (labels ++ more) = run step (run step s labels) more :=
  List.foldl_append

/-- Every step of the run meets `ok` in the state it starts from. -/
def Along (step : σ → ℓ → σ) (ok : σ → ℓ → Prop) : σ → List ℓ → Prop
  | _, [] => True
  | s, label :: rest => ok s label ∧ Along step ok (step s label) rest

instance (step : σ → ℓ → σ) (ok : σ → ℓ → Prop) [∀ s label, Decidable (ok s label)] :
    (s : σ) → (labels : List ℓ) → Decidable (Along step ok s labels)
  | _, [] => inferInstanceAs (Decidable True)
  | s, label :: rest =>
    have := instDecidableAlong step ok (step s label) rest
    inferInstanceAs (Decidable (ok s label ∧ _))

theorem along_mono {step : σ → ℓ → σ} {ok ok' : σ → ℓ → Prop} (weaker : ∀ s label, ok s label → ok' s label)
    (labels : List ℓ) (s : σ) (admitted : Along step ok s labels) : Along step ok' s labels := by
  induction labels generalizing s with
  | nil => trivial
  | cons label rest ih => exact ⟨weaker s label admitted.1,ih _ admitted.2⟩

/-- What holds at the start and is kept by every admitted step holds at the end. -/
theorem run_invariant {step : σ → ℓ → σ} {ok : σ → ℓ → Prop} {inv : σ → Prop}
    (kept : ∀ s label, ok s label → inv s → inv (step s label)) (labels : List ℓ) (s : σ)
    (start : inv s) (admitted : Along step ok s labels) : inv (run step s labels) := by
  induction labels generalizing s with
  | nil => exact start
  | cons label rest ih => exact ih _ (kept s label admitted.1 start) admitted.2

/-- The rule for systems without a condition on their steps. -/
theorem run_always {step : σ → ℓ → σ} {inv : σ → Prop}
    (kept : ∀ s label, inv s → inv (step s label)) (labels : List ℓ) (s : σ) (start : inv s) :
    inv (run step s labels) := by
  induction labels generalizing s with
  | nil => exact start
  | cons label rest ih => exact ih _ (kept s label start)

/-- The rule for an invariant whose steps ask for what the labels before them have done. -/
theorem run_front {step : σ → ℓ → σ} {inv : σ → Prop} {s : σ} {labels : List ℓ}
    (kept : ∀ front label, front ++ [label] <+: labels → inv (run step s front) → inv (step (run step s front) label))
    (start : inv s) : inv (run step s labels) := by
  induction labels using List.reverseRecOn with
  | nil => exact start
  | append_singleton front label ih =>
    rw [run_append]
    refine kept front label List.prefix_rfl (ih ?_)
    intro earlier other within
    exact kept earlier other (within.trans (List.prefix_append front [label]))

/-- Conditions that agree in every state that keeps an invariant admit the same runs. -/
theorem along_congr {step : σ → ℓ → σ} {ok ok' : σ → ℓ → Prop} {inv : σ → Prop}
    (kept : ∀ s label, inv s → inv (step s label))
    (same : ∀ s label, inv s → (ok s label ↔ ok' s label)) (labels : List ℓ) (s : σ) (start : inv s) :
    Along step ok s labels ↔ Along step ok' s labels := by
  induction labels generalizing s with
  | nil => rfl
  | cons label rest ih => exact and_congr (same s label start) (ih _ (kept s label start))

/-- A condition that follows from an invariant is met by every step. -/
theorem along_always {step : σ → ℓ → σ} {ok : σ → ℓ → Prop} {inv : σ → Prop}
    (kept : ∀ s label, inv s → inv (step s label)) (met : ∀ s label, inv s → ok s label)
    (labels : List ℓ) (s : σ) (start : inv s) : Along step ok s labels := by
  induction labels generalizing s with
  | nil => trivial
  | cons label rest ih => exact ⟨met s label start,ih _ (kept s label start)⟩

/-- An admitted run stays admitted up to any of its states, and so is the step taken there. -/
theorem along_split {step : σ → ℓ → σ} {ok : σ → ℓ → Prop} (before : List ℓ) (label : ℓ)
    (after : List ℓ) (s : σ) (admitted : Along step ok s (before ++ label :: after)) :
    Along step ok s before ∧ ok (run step s before) label := by
  induction before generalizing s with
  | nil => exact ⟨trivial,admitted.1⟩
  | cons first rest ih =>
    obtain ⟨prior,here⟩ := ih _ admitted.2
    exact ⟨⟨admitted.1,prior⟩,here⟩

theorem along_prefix {step : σ → ℓ → σ} {ok : σ → ℓ → Prop} (before after : List ℓ) (s : σ)
    (admitted : Along step ok s (before ++ after)) : Along step ok s before := by
  induction before generalizing s with
  | nil => trivial
  | cons label rest ih => exact ⟨admitted.1,ih _ admitted.2⟩

/-- With an invariant that admitted steps keep and under which a safe step is an admitted one, every state of a
run is safe exactly when the whole run is admitted. -/
theorem safe_iff_along {step : σ → ℓ → σ} {ok : σ → ℓ → Prop} {inv safe : σ → Prop}
    (sound : ∀ s, inv s → safe s) (kept : ∀ s label, inv s → ok s label → inv (step s label))
    (needed : ∀ s label, inv s → safe (step s label) → ok s label) (labels : List ℓ) (s : σ) (start : inv s) :
    (∀ before, before <+: labels → safe (run step s before)) ↔ Along step ok s labels := by
  induction labels generalizing s with
  | nil => simp [Along,run,sound s start]
  | cons label rest ih =>
    constructor
    · intro always
      have first : safe (step s label) := always [label] (List.prefix_append [label] rest)
      have admitted := needed s label start first
      refine ⟨admitted,(ih _ (kept s label start admitted)).mp ?_⟩
      intro before short
      exact always (label :: before) (List.cons_prefix_cons.mpr ⟨rfl,short⟩)
    · rintro ⟨admitted,later⟩ before short
      cases before with
      | nil => exact sound s start
      | cons other before =>
        obtain ⟨rfl,within⟩ := List.cons_prefix_cons.mp short
        exact (ih _ (kept s other start admitted)).mpr later before within

/-- What a step keeps exactly when it is admitted holds in every state of a run exactly when the whole run is. -/
theorem always_iff_along {step : σ → ℓ → σ} {ok : σ → ℓ → Prop} {inv : σ → Prop}
    (kept : ∀ s label, inv s → (inv (step s label) ↔ ok s label)) (labels : List ℓ) (s : σ) (start : inv s) :
    (∀ before, before <+: labels → inv (run step s before)) ↔ Along step ok s labels :=
  safe_iff_along (fun _ holds => holds) (fun s label holds => (kept s label holds).mpr)
    (fun s label holds => (kept s label holds).mp) labels s start

end Transition
