import Mathlib

/-! Keys numbered in the order of their definitions, where a later definition of a key takes
the place of an earlier one. Two lists of definitions assign the same numbers and values
exactly if their standing definitions are the same, place by place. -/
namespace Numbering

variable {Key Value : Type} [DecidableEq Key]

/-- The number and the value of a key, the first definition having the number `n`. -/
def assigned (n : Nat) : List (Key × Value) → Key → Option (Nat × Value)
  | [], _ => none
  | (key, value) :: rest, wanted =>
    (assigned (n + 1) rest wanted).or (if key = wanted then some (n, value) else none)

/-- A definition, unless a later one has its key. -/
def kept (first : Key × Value) (rest : List (Key × Value)) : Option (Key × Value) :=
  if first.1 ∈ rest.map Prod.fst then none else some first

def standing : List (Key × Value) → List (Option (Key × Value))
  | [] => []
  | first :: rest => kept first rest :: standing rest

theorem assigned_none {n : Nat} {definitions : List (Key × Value)} {key : Key} :
    assigned n definitions key = none ↔ key ∉ definitions.map Prod.fst := by
  induction definitions generalizing n with
  | nil => simp [assigned]
  | cons first rest ih =>
    obtain ⟨other,value⟩ := first
    simp only [assigned,Option.or_eq_none_iff,ih,List.map_cons,List.mem_cons,not_or]
    split
    · rename_i same
      simp [same]
    · rename_i differ
      simp [Ne.symm differ]

theorem assigned_ge {n : Nat} {definitions : List (Key × Value)} {key : Key} {it : Nat × Value}
    (found : assigned n definitions key = some it) : n ≤ it.1 := by
  induction definitions generalizing n with
  | nil => contradiction
  | cons first rest ih =>
    simp only [assigned,Option.or_eq_some_iff] at found
    rcases found with later | ⟨_,here⟩
    · exact Nat.le_of_succ_le (ih later)
    · split at here
      · cases here
        exact Nat.le_refl _
      · contradiction

theorem assigned_map {Value' : Type} (f : Value → Value') (n : Nat) (definitions : List (Key × Value))
    (key : Key) :
    assigned n (definitions.map (Prod.map id f)) key =
      (assigned n definitions key).map (Prod.map id f) := by
  induction definitions generalizing n with
  | nil => rfl
  | cons first rest ih =>
    simp only [List.map_cons,assigned,ih,Option.map_or,Prod.map_fst,Prod.map_snd,id]
    split <;> rfl

/-- A key has its number from a later definition, or `n` from the first where that is kept. -/
theorem assigned_cons {n : Nat} {first : Key × Value} {rest : List (Key × Value)} {key : Key}
    {it : Nat × Value} :
    assigned n (first :: rest) key = some it ↔
      assigned (n + 1) rest key = some it ∨ (it.1 = n ∧ kept first rest = some (key,it.2)) := by
  simp only [assigned,Option.or_eq_some_iff,assigned_none,kept]
  apply or_congr_right
  by_cases same : first.1 = key
  · subst same
    simp only [if_true]
    split
    · rename_i replaced
      simp [replaced]
    · rename_i last
      obtain ⟨m,value⟩ := it
      simp only [last,not_false_eq_true,true_and,Option.some.injEq,Prod.mk.injEq]
      constructor
      · rintro ⟨rfl,rfl⟩
        exact ⟨rfl,rfl⟩
      · rintro ⟨rfl,kept⟩
        exact ⟨rfl,congrArg Prod.snd kept⟩
  · have differ (value : Value) : first ≠ (key,value) := fun h => same (congrArg Prod.fst h)
    simp [same,differ]

/-- A number above `n` is one of the later definitions. -/
theorem assigned_above {n : Nat} {first : Key × Value} {rest : List (Key × Value)} {key : Key}
    {it : Nat × Value} :
    assigned (n + 1) rest key = some it ↔ assigned n (first :: rest) key = some it ∧ it.1 ≠ n := by
  rw [assigned_cons]
  constructor
  · intro later
    have above := assigned_ge later
    exact ⟨.inl later,by omega⟩
  · rintro ⟨later | ⟨here,_⟩,differ⟩
    · exact later
    · contradiction

theorem kept_iff {n : Nat} {first : Key × Value} {rest : List (Key × Value)} {d : Key × Value} :
    kept first rest = some d ↔ assigned n (first :: rest) d.1 = some (n,d.2) := by
  rw [assigned_cons]
  constructor
  · intro here
    exact .inr ⟨rfl,here⟩
  · rintro (later | ⟨_,here⟩)
    · have above := assigned_ge later
      dsimp only at above
      omega
    · exact here

/-- The definition at place `i` is the last one of its key. -/
structure Last (definitions : List (Key × Value)) (key : Key) (i : Nat) (value : Value) : Prop where
  here : definitions[i]? = some (key,value)
  later : ∀ j other, i < j → definitions[j]? ≠ some (key,other)

theorem last_zero {first : Key × Value} {rest : List (Key × Value)} {key : Key} {value : Value} :
    Last (first :: rest) key 0 value ↔ kept first rest = some (key,value) := by
  unfold kept
  constructor
  · rintro ⟨here,later⟩
    obtain rfl : first = (key,value) := Option.some.inj here
    have kept : ¬key ∈ rest.map Prod.fst := by
      intro member
      obtain ⟨⟨_,other⟩,inside,rfl⟩ := List.mem_map.mp member
      obtain ⟨j,place⟩ := List.mem_iff_getElem?.mp inside
      exact later (j + 1) other (Nat.succ_pos j) place
    simp [kept]
  · intro found
    split at found
    · cases found
    · rename_i kept
      obtain rfl : first = (key,value) := Option.some.inj found
      refine ⟨rfl,?_⟩
      intro j other above place
      cases j with
      | zero => exact absurd above (Nat.lt_irrefl 0)
      | succ j =>
        have inside : rest[j]? = some (key,other) := place
        exact kept (List.mem_map.mpr ⟨_,List.mem_of_getElem? inside,rfl⟩)

omit [DecidableEq Key] in
theorem last_succ {first : Key × Value} {rest : List (Key × Value)} {key : Key} {i : Nat} {value : Value} :
    Last (first :: rest) key (i + 1) value ↔ Last rest key i value := by
  constructor
  · rintro ⟨here,later⟩
    exact ⟨here,fun j other above => later (j + 1) other (Nat.succ_lt_succ above)⟩
  · rintro ⟨here,later⟩
    refine ⟨here,?_⟩
    intro j other above
    cases j with
    | zero => exact absurd above (Nat.not_lt_zero _)
    | succ j => exact later j other (Nat.lt_of_succ_lt_succ above)

/-- A key has the number and the value of its last definition. -/
theorem assigned_iff_last {n m : Nat} {definitions : List (Key × Value)} {key : Key} {value : Value} :
    assigned n definitions key = some (m,value) ↔ ∃ i, m = n + i ∧ Last definitions key i value := by
  induction definitions generalizing n with
  | nil =>
    refine iff_of_false (by simp [assigned]) ?_
    rintro ⟨i,-,here,-⟩
    simp at here
  | cons first rest ih =>
    rw [assigned_cons,ih,← last_zero]
    constructor
    · rintro (⟨i,rfl,last⟩ | ⟨rfl,last⟩)
      · exact ⟨i + 1,by omega,last_succ.mpr last⟩
      · exact ⟨0,rfl,last⟩
    · rintro ⟨i,rfl,last⟩
      cases i with
      | zero => exact .inr ⟨rfl,last⟩
      | succ i => exact .inl ⟨i,by omega,last_succ.mp last⟩

theorem assigned_inj {n m : Nat} {definitions : List (Key × Value)} {key other : Key} {value value' : Value}
    (found : assigned n definitions key = some (m,value))
    (found' : assigned n definitions other = some (m,value')) : key = other ∧ value = value' := by
  obtain ⟨i,rfl,last⟩ := assigned_iff_last.mp found
  obtain ⟨j,same,last'⟩ := assigned_iff_last.mp found'
  obtain rfl : i = j := by omega
  have both := last.here.symm.trans last'.here
  exact Prod.mk.inj (Option.some.inj both)

/-- Every key has the same number and value exactly where the standing definitions are the same. -/
theorem assigned_eq_iff (n : Nat) (f g : List (Key × Value)) :
    (∀ key, assigned n f key = assigned n g key) ↔ standing f = standing g := by
  -- definition by definition: the number `n` settles the first, the numbers above it the rest
  induction f generalizing n g with
  | nil =>
    cases g with
    | nil => simp
    | cons first rest =>
      constructor
      · intro same
        have missing := assigned_none.mp (same first.1).symm
        simp at missing
      · intro same
        contradiction
  | cons first rest ih =>
    cases g with
    | nil =>
      constructor
      · intro same
        have missing := assigned_none.mp (same first.1)
        simp at missing
      · intro same
        contradiction
    | cons first' rest' =>
      simp only [standing,List.cons.injEq,← ih (n + 1)]
      constructor
      · intro same
        constructor
        · apply Option.ext
          intro d
          rw [kept_iff,kept_iff,same]
        · intro key
          apply Option.ext
          intro it
          rw [assigned_above,assigned_above,same]
      · rintro ⟨sameFirst,sameRest⟩ key
        apply Option.ext
        intro it
        rw [assigned_cons,assigned_cons,sameFirst,sameRest]

end Numbering
