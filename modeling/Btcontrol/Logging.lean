import Btcontrol.Exec

/-! Computations where they return: the parts of the state they leave as they were, the relations they
go along, and the logs they append to; and what they throw where they do not. -/
namespace Exec

variable {ε σ τ α β γ δ : Type}

/-- Where the computation returns this part of the state is as it was. -/
def Silent (view : σ → δ) (m : EStateM ε σ α) : Prop :=
  ∀ s a s', m s = .ok a s' → view s' = view s

/-- Where the computation returns it has gone along `rel`. -/
def Ensures (rel : σ → σ → Prop) (m : EStateM ε σ α) : Prop :=
  ∀ s a s', m s = .ok a s' → rel s s'

/-- Where the computation returns it has appended entries that satisfy `P`. -/
def Logs (log : σ → List γ) (P : List γ → Prop) (m : EStateM ε σ α) : Prop :=
  Ensures (fun s s' => ∃ added, log s' = log s ++ added ∧ P added) m

/-- What the computation throws satisfies `P`. -/
def Throws (P : ε → Prop) (m : EStateM ε σ α) : Prop := ∀ s e s', m s = .error e s' → P e

section Silent

variable {view : σ → δ}

theorem silent_pure (a : α) : Silent view (pure a : EStateM ε σ α) := by
  rintro s _ _ ⟨⟩
  rfl

theorem silent_get : Silent view (get : EStateM ε σ σ) := by
  rintro s _ _ ⟨⟩
  rfl

theorem silent_lift (x : Except ε α) : Silent view (lift x : EStateM ε σ α) := by
  intro s a s' returned
  cases x with
  | error e => cases returned
  | ok _ =>
    cases returned
    rfl

theorem silent_modify (f : σ → σ) (kept : ∀ s, view (f s) = view s) :
    Silent view (modify f : EStateM ε σ PUnit) := by
  rintro s _ _ ⟨⟩
  exact kept s

theorem silent_bind {m : EStateM ε σ α} {f : α → EStateM ε σ β} (first : Silent view m)
    (next : ∀ a, Silent view (f a)) : Silent view (m >>= f) := by
  intro s b s'' returned
  obtain ⟨a,s',ran,rest⟩ := returned_of_bind returned
  exact (next a s' b s'' rest).trans (first s a s' ran)

theorem silent_ite {c : Prop} [Decidable c] {m m' : EStateM ε σ α} (yes : Silent view m) (no : Silent view m') :
    Silent view (if c then m else m') := by
  split
  · exact yes
  · exact no

theorem silent_focus {part : τ → σ} {put : σ → τ → τ} {view : τ → δ} (m : EStateM ε σ α)
    (kept : ∀ p s, view (put p s) = view s) : Silent view (focus part put m) := by
  intro s a s' returned
  simp only [focus] at returned
  split at returned
  · cases returned
    exact kept _ s
  · cases returned

/-- What a part of the view does not see. -/
theorem Silent.part {m : EStateM ε σ α} (silent : Silent view m) (narrow : δ → γ) :
    Silent (fun s => narrow (view s)) m :=
  fun s a s' returned => congrArg narrow (silent s a s' returned)

end Silent

section Ensures

variable {rel : σ → σ → Prop} {view : σ → δ}

theorem ensures_throw (e : ε) : Ensures rel (throw e : EStateM ε σ α) := by
  rintro s _ _ ⟨⟩

/-- Before the part that counts the view of what `rel` starts from is left. -/
theorem ensures_after {m : EStateM ε σ α} {f : α → EStateM ε σ β}
    (same : ∀ s s1 s2, view s1 = view s → rel s1 s2 → rel s s2) (first : Silent view m)
    (next : ∀ a, Ensures rel (f a)) : Ensures rel (m >>= f) := by
  intro s b s'' returned
  obtain ⟨a,s',ran,rest⟩ := returned_of_bind returned
  exact same s s' s'' (first s a s' ran) (next a s' b s'' rest)

/-- Behind it the view of what `rel` ends with is. -/
theorem ensures_before {m : EStateM ε σ α} {f : α → EStateM ε σ β}
    (same : ∀ s s1 s2, view s2 = view s1 → rel s s1 → rel s s2) (first : Ensures rel m)
    (next : ∀ a, Silent view (f a)) : Ensures rel (m >>= f) := by
  intro s b s'' returned
  obtain ⟨a,s',ran,rest⟩ := returned_of_bind returned
  exact same s s' s'' (next a s' b s'' rest) (first s a s' ran)

/-- What follows a computation without state may rely on its value. -/
theorem ensures_lift {x : Except ε α} {f : α → EStateM ε σ β} (next : ∀ a, x = .ok a → Ensures rel (f a)) :
    Ensures rel (lift x >>= f) := by
  intro s b s' returned
  cases value : x with
  | error e =>
    rw [value] at returned
    cases returned
  | ok a =>
    rw [value] at returned
    exact next a value s b s' returned

theorem ensures_ite {c : Prop} [Decidable c] {m m' : EStateM ε σ α} (yes : Ensures rel m) (no : Ensures rel m') :
    Ensures rel (if c then m else m') := by
  split
  · exact yes
  · exact no

end Ensures

section Logs

variable {log : σ → List γ} {P : List γ → Prop}

theorem logs_after {m : EStateM ε σ α} {f : α → EStateM ε σ β} (first : Silent log m)
    (next : ∀ a, Logs log P (f a)) : Logs log P (m >>= f) := by
  refine ensures_after ?_ first next
  rintro s s1 s2 same ⟨added,appended,holds⟩
  exact ⟨added,appended.trans (by rw [same]),holds⟩

end Logs

section Throws

variable {P : ε → Prop}

theorem throws_pure (a : α) : Throws P (pure a : EStateM ε σ α) := by
  rintro s _ _ ⟨⟩

theorem throws_get : Throws P (get : EStateM ε σ σ) := by
  rintro s _ _ ⟨⟩

theorem throws_modify (f : σ → σ) : Throws P (modify f : EStateM ε σ PUnit) := by
  rintro s _ _ ⟨⟩

theorem throws_bind {m : EStateM ε σ α} {f : α → EStateM ε σ β} (first : Throws P m) (next : ∀ a, Throws P (f a)) :
    Throws P (m >>= f) := by
  intro s e s'' thrown
  rw [bind_apply] at thrown
  cases ran : m s with
  | error e' s' =>
    rw [ran] at thrown
    cases thrown
    exact first s e s'' ran
  | ok a s' =>
    rw [ran] at thrown
    exact next a s' e s'' thrown

theorem throws_ite {c : Prop} [Decidable c] {m m' : EStateM ε σ α} (yes : Throws P m) (no : Throws P m') :
    Throws P (if c then m else m') := by
  split
  · exact yes
  · exact no

theorem throws_focus {part : τ → σ} {put : σ → τ → τ} {m : EStateM ε σ α} (throws : Throws P m) :
    Throws P (focus part put m) := by
  intro s e s' thrown
  simp only [focus] at thrown
  split at thrown
  · cases thrown
  · rename_i ran
    cases thrown
    exact throws _ _ _ ran

end Throws

end Exec
