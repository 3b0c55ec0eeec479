import Mathlib

/-! Scanning of one item from the front of a text, as a conversion of `scanf` does it: the longest
run of symbols an automaton can follow is taken, and is an item if the automaton is done there. -/
namespace Scanner

variable {α Q : Type}

structure Automaton (α Q : Type) where
  start : Q
  next : Q → α → Option Q
  done : Q → Bool

/-- The state the automaton stops in, the symbols it has taken and those it has left. -/
def munch (next : Q → α → Option Q) : Q → List α → Q × List α × List α
  | q, [] => (q, [], [])
  | q, c :: rest => match next q c with
    | none => (q, [], c :: rest)
    | some q' => ((munch next q' rest).1, c :: (munch next q' rest).2.1, (munch next q' rest).2.2)

/-- The item at the front and what follows it. -/
def scan (automaton : Automaton α Q) (text : List α) : Option (List α × List α) :=
  if automaton.done (munch automaton.next automaton.start text).1 then
    some (munch automaton.next automaton.start text).2
  else none

theorem munch_split (next : Q → α → Option Q) (q : Q) (text : List α) :
    (munch next q text).2.1 ++ (munch next q text).2.2 = text := by
  induction text generalizing q with
  | nil => rfl
  | cons c rest ih =>
    simp only [munch]
    cases next q c with
    | none => rfl
    | some q' => simp only [List.cons_append,ih q']

/-- An automaton that has stopped before the end is not moved by more text behind. -/
theorem munch_append (next : Q → α → Option Q) (q : Q) (text more : List α)
    (stopped : (munch next q text).2.2 ≠ []) :
    munch next q (text ++ more) =
      ((munch next q text).1, (munch next q text).2.1, (munch next q text).2.2 ++ more) := by
  induction text generalizing q with
  | nil => exact absurd rfl stopped
  | cons c rest ih =>
    simp only [munch,List.cons_append] at stopped ⊢
    cases step : next q c with
    | none => rfl
    | some q' =>
      rw [step] at stopped
      simp only [ih q' stopped]

/-- A symbol no state accepts is as good as the end of the text. -/
theorem munch_stop (next : Q → α → Option Q) (c : α) (more : List α) (refused : ∀ q, next q c = none)
    (q : Q) (text : List α) :
    munch next q (text ++ c :: more) =
      ((munch next q text).1, (munch next q text).2.1, (munch next q text).2.2 ++ c :: more) := by
  induction text generalizing q with
  | nil => simp [munch,refused]
  | cons first rest ih =>
    simp only [munch,List.cons_append]
    cases step : next q first with
    | none => rfl
    | some q' => simp only [ih q']

theorem scan_split {automaton : Automaton α Q} {text item rest : List α}
    (found : scan automaton text = some (item, rest)) : item ++ rest = text := by
  simp only [scan] at found
  split at found
  · have parts := Option.some.inj found
    have split := munch_split automaton.next automaton.start text
    rwa [parts] at split
  · cases found

theorem scan_append {automaton : Automaton α Q} {text item rest : List α}
    (found : scan automaton text = some (item, rest)) (stopped : rest ≠ []) (more : List α) :
    scan automaton (text ++ more) = some (item, rest ++ more) := by
  simp only [scan] at found
  split at found
  · rename_i done
    have parts := Option.some.inj found
    have behind : (munch automaton.next automaton.start text).2.2 ≠ [] := by rwa [parts]
    simp only [scan,munch_append _ _ text more behind,done,↓reduceIte,parts]
  · cases found

theorem scan_stop (automaton : Automaton α Q) (c : α) (more : List α)
    (refused : ∀ q, automaton.next q c = none) (text : List α) :
    scan automaton (text ++ c :: more) =
      (scan automaton text).map (fun found => (found.1, found.2 ++ c :: more)) := by
  simp only [scan,munch_stop automaton.next c more refused]
  split <;> rfl

end Scanner
