import Btcontrol.Samples

/-! The loop of `Sound::resampleX2` over its two strings. A `std::string` has signed `char`s, which are averaged as
unsigned samples; every access is checked here. A `size_t` does not wrap around: strings are much shorter than its
range, and the empty one is refused. -/
namespace Btcontrol.Sound.Resampling

inductive Fault where
  | assertion
  /-- An index outside of a string. -/
  | outside
  deriving DecidableEq, Repr

abbrev CharString := List Int8

def charAt (s : CharString) (i : Nat) : Except Fault Int8 :=
  match s[i]? with
  | some c => .ok c
  | none => .error .outside

def setChar (s : CharString) (i : Nat) (c : Int8) : Except Fault CharString :=
  if i < s.length then .ok (s.set i c) else .error .outside

def resize (s : CharString) (n : Nat) : CharString := s.take n ++ List.replicate (n - s.length) 0

/-- Both as `unsigned int`; a `char` keeps the low byte of half their sum. -/
def average (a b : Int8) : Int8 := ((a.toUInt8.toUInt32 + b.toUInt8.toUInt32) / 2).toUInt8.toInt8

def turn (input out : CharString) (i : Nat) : Except Fault CharString := do
  let out ← setChar out (i * 2) (← charAt input i)
  setChar out (i * 2 + 1) (average (← charAt input i) (← charAt input (i + 1)))

def resampleX2 (input out : CharString) : Except Fault CharString := do
  if input.length = 0 then throw .assertion
  let out := resize out (input.length * 2 - 1)
  let out ← (List.range (input.length - 1)).foldlM (turn input) out
  setChar out ((input.length - 1) * 2) (← charAt input (input.length - 1))

/-- The sample that a `char` stands for. -/
def level (c : Int8) : Nat := c.toUInt8.toNat

/-- What is played, as characters again. -/
def interpolated (input : CharString) : CharString :=
  (Sound.resampleX2 (input.map Int8.toUInt8)).map UInt8.toInt8

/-! ### Filling a string -/

structure Filled (wanted : CharString) (k : Nat) (out : CharString) : Prop where
  size : out.length = wanted.length
  written : out.take k = wanted.take k

theorem resize_length (s : CharString) (n : Nat) : (resize s n).length = n := by
  simp only [resize,List.length_append,List.length_take,List.length_replicate]
  omega

theorem filled_set {wanted out : CharString} {k : Nat} {c : Int8} (filled : Filled wanted k out)
    (next : wanted[k]? = some c) : ∃ out', setChar out k c = .ok out' ∧ Filled wanted (k + 1) out' := by
  obtain ⟨size,written⟩ := filled
  obtain ⟨inside,rfl⟩ := List.getElem?_eq_some_iff.mp next
  have within : k < out.length := size ▸ inside
  refine ⟨out.set k wanted[k],if_pos within,by rw [List.length_set,size],?_⟩
  rw [List.take_succ_eq_append_getElem (by rwa [List.length_set]),List.take_set_of_le (Nat.le_refl k),written,
    List.getElem_set_self,List.take_succ_eq_append_getElem inside]

theorem filled_whole {wanted out : CharString} (filled : Filled wanted wanted.length out) : out = wanted := by
  obtain ⟨size,written⟩ := filled
  rwa [List.take_length,← size,List.take_length] at written

/-! ### The loop -/

theorem average_eq (a b : Int8) : average a b = (mean a.toUInt8 b.toUInt8).toInt8 := by
  have sum : ((a.toUInt8.toUInt32 + b.toUInt8.toUInt32) / 2).toUInt8 = mean a.toUInt8 b.toUInt8 := by
    have left := a.toUInt8.toNat_lt
    have right := b.toUInt8.toNat_lt
    apply UInt8.toNat_inj.mp
    simp [mean]
    omega
  rw [average,sum]

theorem mean_toNat (a b : UInt8) : (mean a b).toNat = (a.toNat + b.toNat) / 2 := by
  have left := a.toNat_lt
  have right := b.toNat_lt
  simp [mean]
  omega

variable {input : CharString}

theorem interpolated_length : (interpolated input).length = 2 * input.length - 1 := by
  simp only [interpolated,List.length_map,resampleX2_length]

theorem interpolated_even (i : Nat) : (interpolated input)[2 * i]? = input[i]? := by
  simp only [interpolated,List.getElem?_map,resampleX2_even,Option.map_map]
  simp [Function.comp_def]

theorem interpolated_odd {i : Nat} {a b : Int8} (left : input[i]? = some a) (right : input[i + 1]? = some b) :
    (interpolated input)[2 * i + 1]? = some (average a b) := by
  have between := resampleX2_odd (input.map Int8.toUInt8) i a.toUInt8 b.toUInt8 (by rw [List.getElem?_map,left]; rfl)
    (by rw [List.getElem?_map,right]; rfl)
  rw [interpolated,List.getElem?_map,between,average_eq]
  rfl

/-- A turn writes the next two characters. -/
theorem turn_filled {out : CharString} {i : Nat} (inside : i + 1 < input.length)
    (filled : Filled (interpolated input) (2 * i) out) :
    ∃ out', turn input out i = .ok out' ∧ Filled (interpolated input) (2 * (i + 1)) out' := by
  have left : input[i]? = some input[i] := List.getElem?_eq_getElem (Nat.lt_of_succ_lt inside)
  have right : input[i + 1]? = some input[i + 1] := List.getElem?_eq_getElem inside
  obtain ⟨between,first,filled⟩ := filled_set filled ((interpolated_even i).trans left)
  obtain ⟨out',second,filled⟩ := filled_set filled (interpolated_odd left right)
  refine ⟨out',?_,filled⟩
  simp only [turn,charAt,left,right,Nat.mul_comm i 2,first,second,bind,Except.bind]

theorem loop_filled {out : CharString} (size : out.length = 2 * input.length - 1) (turns : Nat)
    (within : turns ≤ input.length - 1) : ∃ out', (List.range turns).foldlM (turn input) out = .ok out' ∧
      Filled (interpolated input) (2 * turns) out' := by
  induction turns with
  | zero => exact ⟨out,rfl,size.trans interpolated_length.symm,rfl⟩
  | succ i ih =>
    obtain ⟨before,ran,filled⟩ := ih (by omega)
    obtain ⟨out',turned,filled⟩ := turn_filled (by omega) filled
    refine ⟨out',?_,filled⟩
    rw [List.range_succ,List.foldlM_append,ran]
    simp only [List.foldlM_cons,List.foldlM_nil,bind,Except.bind,turned]
    rfl

/-- Whatever `out` has been, it is the list of the samples and their means afterwards; no access is outside. -/
theorem resampleX2_eq (out : CharString) (samples : input ≠ []) : resampleX2 input out = .ok (interpolated input) := by
  have present : ¬input.length = 0 := mt List.eq_nil_of_length_eq_zero samples
  have end_ : input.length - 1 < input.length := by omega
  have found : input[input.length - 1]? = some input[input.length - 1] := List.getElem?_eq_getElem end_
  obtain ⟨before,ran,filled⟩ := loop_filled (resize_length out (2 * input.length - 1)) (input.length - 1) (Nat.le_refl _)
  obtain ⟨out',written,filled⟩ := filled_set filled ((interpolated_even _).trans found)
  have all : 2 * (input.length - 1) + 1 = (interpolated input).length := by
    rw [interpolated_length]
    omega
  rw [all] at filled
  rw [← filled_whole filled]
  simp only [resampleX2,present,↓reduceIte,Nat.mul_comm _ 2,ran,charAt,found,bind,Except.bind]
  exact written

theorem level_average (a b : Int8) : level (average a b) = (level a + level b) / 2 := by
  rw [average_eq,level,UInt8.toUInt8_toInt8,mean_toNat]
  rfl

/-- The resampling interpolates, whatever `out` has been: the samples stay, at twice their places, and between two
lies the mean of both. -/
theorem resampleX2_interpolates (input out : CharString) (samples : input ≠ []) :
    ∃ resampled, resampleX2 input out = .ok resampled ∧ resampled.length = 2 * input.length - 1 ∧
      (∀ i, (inside : i < input.length) → resampled[2 * i]? = some input[i]) ∧
      ∀ i, (inside : i + 1 < input.length) → ∃ between, resampled[2 * i + 1]? = some between ∧
        level between = (level input[i] + level input[i + 1]) / 2 ∧
        min (level input[i]) (level input[i + 1]) ≤ level between ∧
        level between ≤ max (level input[i]) (level input[i + 1]) := by
  refine ⟨interpolated input,resampleX2_eq out samples,interpolated_length,?_,?_⟩
  · intro i inside
    rw [interpolated_even,List.getElem?_eq_getElem inside]
  · intro i inside
    have left : input[i]? = some input[i] := List.getElem?_eq_getElem (Nat.lt_of_succ_lt inside)
    have right : input[i + 1]? = some input[i + 1] := List.getElem?_eq_getElem inside
    have mean := level_average input[i] input[i + 1]
    exact ⟨average input[i] input[i + 1],interpolated_odd left right,mean,by omega,by omega⟩

/-- 255 and 0, the first of them negative as a `char`. -/
theorem resampleX2_interpolates_signed : [(-1 : Int8),0] ≠ [] ∧ ∃ resampled, resampleX2 [-1,0] [] = .ok resampled ∧
    resampled.length = 3 ∧ ∃ between, resampled[1]? = some between ∧ level between = 127 := by
  have samples : [(-1 : Int8),0] ≠ [] := by decide
  obtain ⟨resampled,returned,size,-,means⟩ := resampleX2_interpolates [-1,0] [] samples
  obtain ⟨between,found,mean,-⟩ := means 0 (by decide)
  exact ⟨samples,resampled,returned,size,between,found,mean⟩

end Btcontrol.Sound.Resampling
