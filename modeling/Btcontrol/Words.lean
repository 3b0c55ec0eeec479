import Mathlib.Data.List.Basic

/-! Texts in pieces: a reader takes a stream apart at a separator, however the stream is cut into
chunks, and a piece into its words. -/
namespace Words

variable {α : Type} [DecidableEq α] (sep : α)

/-- The pieces whose end has come, where `begun` is the start of the first. -/
def pieces (begun : List α) : List α → List (List α)
  | [] => []
  | c :: rest => if c = sep then begun :: pieces [] rest else pieces (begun ++ [c]) rest

def leftover (begun : List α) : List α → List α
  | [] => begun
  | c :: rest => if c = sep then leftover [] rest else leftover (begun ++ [c]) rest

def words (piece : List α) : List (List α) := (pieces sep [] (piece ++ [sep])).filter (· ≠ [])

/-- Nothing of what has been read changes with what comes later. -/
theorem pieces_append (begun front rest : List α) :
    pieces sep begun (front ++ rest) = pieces sep begun front ++ pieces sep (leftover sep begun front) rest := by
  induction front generalizing begun with
  | nil => rfl
  | cons c front ih =>
    simp only [List.cons_append,pieces,leftover]
    split
    · rw [ih,List.cons_append]
    · exact ih _

theorem pieces_starts {front text : List α} (starts : front <+: text) : pieces sep [] front <+: pieces sep [] text := by
  obtain ⟨rest,rfl⟩ := starts
  rw [pieces_append]
  exact List.prefix_append _ _

variable {sep}

/-- A whole piece. -/
theorem pieces_piece {piece : List α} (noSep : sep ∉ piece) (begun rest : List α) :
    pieces sep begun (piece ++ sep :: rest) = (begun ++ piece) :: pieces sep [] rest := by
  induction piece generalizing begun with
  | nil => simp [pieces]
  | cons c piece ih =>
    rw [List.mem_cons,not_or] at noSep
    simp only [List.cons_append,pieces,Ne.symm noSep.1,↓reduceIte]
    rw [ih noSep.2,List.append_assoc,List.singleton_append]

/-- What was written piece by piece is read so. -/
theorem pieces_flatMap {written : List (List α)} (noSep : ∀ piece ∈ written, sep ∉ piece) :
    pieces sep [] (written.flatMap (fun piece => piece ++ [sep])) = written := by
  induction written with
  | nil => rfl
  | cons piece written ih =>
    have first := pieces_piece (noSep piece List.mem_cons_self) [] (written.flatMap (fun piece => piece ++ [sep]))
    rw [List.flatMap_cons,List.append_assoc,List.singleton_append,first,List.nil_append,
      ih (fun other member => noSep other (List.mem_cons_of_mem _ member))]

theorem leftover_sep (begun front : List α) : leftover sep begun (front ++ [sep]) = [] := by
  induction front generalizing begun with
  | nil => simp [leftover]
  | cons c front ih =>
    simp only [List.cons_append,leftover]
    split
    · exact ih _
    · exact ih _

@[simp] theorem words_nil : words sep [] = [] := by simp [words,pieces]

/-- A separator keeps what is before it and what is behind it apart. -/
theorem words_append (front rest : List α) : words sep (front ++ sep :: rest) = words sep front ++ words sep rest := by
  have split : front ++ sep :: rest ++ [sep] = (front ++ [sep]) ++ (rest ++ [sep]) := by simp
  rw [words,split,pieces_append,leftover_sep,List.filter_append]
  rfl

theorem words_word {word : List α} (some : word ≠ []) (noSep : sep ∉ word) : words sep word = [word] := by
  rw [words,pieces_piece noSep,List.nil_append,List.filter_cons_of_pos (by simpa using some)]
  rfl

/-- Words with a separator before each. -/
theorem words_flatMap {written : List (List α)} (good : ∀ word ∈ written, word ≠ [] ∧ sep ∉ word) (front : List α) :
    words sep (front ++ written.flatMap (fun word => sep :: word)) = words sep front ++ written := by
  induction written generalizing front with
  | nil => simp
  | cons word written ih =>
    obtain ⟨some,noSep⟩ := good word List.mem_cons_self
    rw [List.flatMap_cons,List.cons_append,words_append,ih (fun other member => good other (List.mem_cons_of_mem _ member)),
      words_word some noSep,List.singleton_append]

end Words
