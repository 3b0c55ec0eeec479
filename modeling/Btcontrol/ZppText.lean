import Btcontrol.Exec
import Btcontrol.Zpp
import Btcontrol.ZspBounds

/-! The text of generated.zsp as `loadZSP` reads it: numbers, quoted names, lines and sections. -/
namespace Btcontrol.Zpp

open Bytes Zsp

/-! ### Numbers -/

/-- Only 0 has a leading 0. -/
theorem toDigits_head (n : Nat) (positive : 0 < n) :
    ((Nat.toDigits 10 n).map Char.toUInt8).head? ≠ some 48 := by
  induction n using Nat.strong_induction_on with
  | _ n ih =>
    by_cases small : n < 10
    · have digits : ∀ n < 10, 0 < n → n.digitChar.toUInt8 ≠ 48 := by decide
      rw [Nat.toDigits_of_lt_base small]
      simpa using digits n small positive
    · rw [Nat.toDigits_of_base_le (by decide) (by omega),List.map_append,
        List.head?_append_of_ne_nil _ (by simp [Nat.toDigits_ne_nil])]
      exact ih (n / 10) (by omega) (by omega)

theorem digitValue_digit {c : Char} (digit : c.isDigit = true) :
    digitValue c.toUInt8 = c.toNat - '0'.toNat ∧ isDigitIn 10 c.toUInt8 = true := by
  obtain ⟨low,high,number⟩ := digit_byte digit
  have value : digitValue c.toUInt8 = c.toUInt8.toNat - 48 := by rw [digitValue,if_pos ⟨low,high⟩]
  rw [UInt8.le_iff_toNat_le] at low high
  have high : c.toUInt8.toNat ≤ 57 := high
  refine ⟨by rw [value]; omega,?_⟩
  rw [isDigitIn,value]
  simp only [decide_eq_true_eq]
  omega

theorem digitsValue_chars {chars : List Char} (all : ∀ c ∈ chars, c.isDigit = true) (value : Nat) :
    (chars.map Char.toUInt8).foldl (fun value c => value * 10 + digitValue c) value =
      Nat.ofDigitChars 10 chars value := by
  induction chars generalizing value with
  | nil => rfl
  | cons c chars ih =>
    obtain ⟨here,later⟩ := List.forall_mem_cons.mp all
    rw [List.map_cons,List.foldl_cons,Nat.ofDigitChars_cons,(digitValue_digit here).1,mul_comm]
    exact ih later _

/-- `strtol` with base 0 reads a number as `<<` has written it. -/
theorem strtolUnsigned_toDigits (n : Nat) :
    strtolUnsigned ((Nat.toDigits 10 n).map Char.toUInt8) = some (n,[]) := by
  by_cases zero : n = 0
  · subst zero
    rfl
  · have all : ∀ c ∈ Nat.toDigits 10 n, c.isDigit = true :=
      fun c member => Nat.isDigit_of_mem_toDigits (by decide) (by decide) member
    have digits : ∀ c ∈ (Nat.toDigits 10 n).map Char.toUInt8, isDigitIn 10 c = true := by
      intro c member
      obtain ⟨d,inside,rfl⟩ := List.mem_map.mp member
      exact (digitValue_digit (all d inside)).2
    have decimal : strtolDigits 10 ((Nat.toDigits 10 n).map Char.toUInt8) = some (n,[]) := by
      rw [strtolDigits,List.takeWhile_eq_self_iff.mpr digits,List.dropWhile_eq_nil_iff.mpr digits,
        if_neg (by simp [Nat.toDigits_ne_nil]),digitsValue,digitsValue_chars all,Nat.ofDigitChars_ten_toDigits]
    have head := toDigits_head n (by omega)
    obtain ⟨c,chars,shape⟩ := List.exists_cons_of_ne_nil (show (Nat.toDigits 10 n).map Char.toUInt8 ≠ [] by
      simp [Nat.toDigits_ne_nil])
    rw [shape] at decimal head ⊢
    have first : c ≠ 48 := fun same => head (by rw [same]; rfl)
    rw [strtolUnsigned]
    · exact decimal
    · intro x rest same
      exact first (List.cons.inj same).1
    · intro same
      exact first (List.cons.inj same).1

theorem dropWhile_decimal (n : Int) : (decimal n).dropWhile isspace = decimal n := by
  have unspaced : ∀ c ∈ decimal n, isspace c = false := by
    intro c member
    rcases decimal_bytes n c member with rfl | ⟨low,high⟩
    · rfl
    · rw [UInt8.le_iff_toNat_le] at low
      have low : 48 ≤ c.toNat := low
      simp only [isspace,Bool.or_eq_false_iff,beq_eq_false_iff_ne,Bool.and_eq_false_iff,decide_eq_false_iff_not,
        UInt8.le_iff_toNat_le,← UInt8.toNat_inj,ne_eq,UInt8.reduceToNat]
      omega
  cases text : decimal n with
  | nil => rfl
  | cons c rest =>
    rw [List.dropWhile_cons_of_neg]
    simp [unspaced c (by rw [text]; exact List.mem_cons_self)]

theorem decimal_ne_notSet (n : Int) : decimal n ≠ NOT_SET := by
  intro same
  have underscore : (95 : UInt8) ∈ decimal n := by
    rw [same]
    decide
  rcases decimal_bytes n 95 underscore with sign | ⟨_,high⟩
  · exact absurd sign (by decide)
  · exact absurd high (by decide)

theorem strtol_decimal (n : Int) : strtol (decimal n) = some (n,[]) := by
  have number := strtolUnsigned_toDigits n.natAbs
  rw [strtol,dropWhile_decimal]
  by_cases negative : n < 0
  · have text : decimal n = 45 :: (Nat.toDigits 10 n.natAbs).map Char.toUInt8 := by simp [decimal,negative]
    rw [text]
    simp only [number,Option.map_some,Option.some.injEq,Prod.mk.injEq,and_true]
    omega
  · have text : decimal n = (Nat.toDigits 10 n.natAbs).map Char.toUInt8 := by simp [decimal,negative]
    obtain ⟨c,chars,shape⟩ := List.exists_cons_of_ne_nil (Nat.toDigits_ne_nil (n := n.natAbs) (b := 10))
    obtain ⟨low,_⟩ := digit_byte (Nat.isDigit_of_mem_toDigits (by decide) (by decide)
      (show c ∈ Nat.toDigits 10 n.natAbs by rw [shape]; exact List.mem_cons_self))
    rw [text]
    split
    · rename_i sign
      rw [shape] at sign
      exact absurd ((List.cons.inj sign).1 ▸ low) (by decide)
    · rename_i sign
      rw [shape] at sign
      exact absurd ((List.cons.inj sign).1 ▸ low) (by decide)
    · rw [number]
      simp only [Option.map_some,Option.some.injEq,Prod.mk.injEq,and_true]
      omega

/-- A number of the file is the number that was written. -/
theorem stoi_decimal {n : Int} (fits : Fits32 n) : stoi (decimal n) = .ok n := by
  rw [stoi,if_neg (decimal_ne_notSet n),strtol_decimal]
  exact if_pos fits

theorem decimal_injective {m n : Int} (same : decimal m = decimal n) : m = n := by
  have read := strtol_decimal m
  rw [same,strtol_decimal] at read
  exact (Prod.mk.inj (Option.some.inj read)).1.symm

/-! ### Quotes -/

theorem unquoteFrom_inside (lib : Library) {escape : UInt8} (other : escape ≠ 34) {s : Str}
    (plain : ∀ c ∈ s, c ≠ 34 ∧ c ≠ escape) : unquoteFrom lib escape true (s ++ [34]) = .ok s := by
  induction s with
  | nil => simp [unquoteFrom,other.symm]
  | cons c s ih =>
    obtain ⟨here,later⟩ := List.forall_mem_cons.mp plain
    have rest := ih later
    obtain ⟨d,more,shape⟩ := List.exists_cons_of_ne_nil (show s ++ [34] ≠ [] by simp)
    rw [shape] at rest
    rw [List.cons_append,shape,unquoteFrom,if_neg here.2,if_neg here.1,rest]
    rfl

/-- A quoted text is what is between its quotes. -/
theorem unquoteFrom_quoted (lib : Library) {escape : UInt8} (other : escape ≠ 34) {s : Str}
    (plain : ∀ c ∈ s, c ≠ 34 ∧ c ≠ escape) : unquoteFrom lib escape false (quoted s) = .ok s := by
  rw [quoted,unquoteFrom,if_pos rfl]
  exact unquoteFrom_inside lib other plain

/-- A quote that is not closed. -/
theorem unquoteFrom_open (lib : Library) {escape : UInt8} {s : Str} (plain : ∀ c ∈ s, c ≠ 34 ∧ c ≠ escape) :
    unquoteFrom lib escape true s = .error lib.unterminated := by
  induction s with
  | nil => rfl
  | cons c s ih =>
    obtain ⟨here,later⟩ := List.forall_mem_cons.mp plain
    cases s with
    | nil => simp [unquoteFrom,here.1]
    | cons d rest =>
      rw [unquoteFrom,if_neg here.2,if_neg here.1,ih later]
      rfl

theorem map_ok {α β ε : Type} {x : Except ε α} {f : α → β} {b : β} (done : x.map f = .ok b) :
    ∃ a, x = .ok a ∧ f a = b := by
  cases x with
  | error e => cases done
  | ok a => exact ⟨a,rfl,Except.ok.inj done⟩

/-- Every quote and every escape is lost: where only one byte is, a single quote closes the text. -/
theorem unquoteFrom_length (lib : Library) (escape : UInt8) (quoted : Bool) (s : Str) :
    ∀ text, unquoteFrom lib escape quoted s = .ok text →
      (quoted = false → text.length ≤ s.length ∧ (text.length = s.length → 34 ∉ s)) ∧
      (quoted = true → text.length + 1 ≤ s.length ∧ (text.length + 1 = s.length →
        ∃ front back, s = front ++ 34 :: back ∧ (∀ c ∈ front, c ≠ 34 ∧ c ≠ escape) ∧ 34 ∉ back)) := by
  fun_induction unquoteFrom lib escape quoted s with
  | case1 =>
    intro text done
    cases done
    exact ⟨fun _ => ⟨Nat.le_refl _,fun _ => List.not_mem_nil⟩,fun no => Bool.noConfusion no⟩
  | case2 =>
    intro text done
    cases done
  | case3 rest ih =>
    intro text done
    obtain ⟨short,-⟩ := (ih text done).2 rfl
    refine ⟨fun _ => ⟨?_,fun same => ?_⟩,fun no => Bool.noConfusion no⟩ <;> simp only [List.length_cons] at * <;> omega
  | case4 c rest other ih =>
    intro text done
    obtain ⟨inner,read,rfl⟩ := map_ok done
    obtain ⟨short,plain⟩ := (ih inner read).1 rfl
    refine ⟨fun _ => ⟨Nat.succ_le_succ short,fun same => ?_⟩,fun no => Bool.noConfusion no⟩
    exact List.not_mem_cons_of_ne_of_not_mem (Ne.symm other) (plain (Nat.succ.inj same))
  | case5 c closing =>
    intro text done
    cases done
    have nothing : ∀ c ∈ ([] : Str), c ≠ 34 ∧ c ≠ escape := fun c none => absurd none List.not_mem_nil
    refine ⟨fun no => Bool.noConfusion no,fun _ => ⟨Nat.le_refl _,fun _ => ⟨[],[],?_,nothing,List.not_mem_nil⟩⟩⟩
    rw [closing.2]
    rfl
  | case6 =>
    intro text done
    cases done
  | case7 d rest ih =>
    intro text done
    obtain ⟨inner,read,rfl⟩ := map_ok done
    obtain ⟨short,-⟩ := (ih inner read).2 rfl
    refine ⟨fun no => Bool.noConfusion no,fun _ => ⟨?_,fun same => ?_⟩⟩ <;> simp only [List.length_cons] at * <;> omega
  | case8 d rest other ih =>
    intro text done
    obtain ⟨short,plain⟩ := (ih text done).1 rfl
    exact ⟨fun no => Bool.noConfusion no,fun _ => ⟨Nat.succ_le_succ short,
      fun same => ⟨[],d :: rest,rfl,fun c none => absurd none List.not_mem_nil,plain (Nat.succ.inj same)⟩⟩⟩
  | case9 c d rest other plain ih =>
    intro text done
    obtain ⟨inner,read,rfl⟩ := map_ok done
    obtain ⟨short,shape⟩ := (ih inner read).2 rfl
    refine ⟨fun no => Bool.noConfusion no,fun _ => ⟨Nat.succ_le_succ short,fun same => ?_⟩⟩
    obtain ⟨front,back,whole,clean,closed⟩ := shape (Nat.succ.inj same)
    exact ⟨c :: front,back,by rw [whole]; rfl,List.forall_mem_cons.mpr ⟨⟨plain,other⟩,clean⟩,closed⟩

/-! ### Spaces -/

/-- `boost::algorithm::trim` removes the spaces at both ends. -/
structure Trims (trim : Str → Str) : Prop where
  ends : ∀ s, ∃ front back, s = front ++ (trim s ++ back) ∧ (∀ c ∈ front, isspace c = true) ∧
    ∀ c ∈ back, isspace c = true
  first : ∀ s c, (trim s).head? = some c → isspace c = false
  last : ∀ s c, (trim s).getLast? = some c → isspace c = false

theorem dropWhile_head {s : Str} (first : ∀ c, s.head? = some c → isspace c = false) :
    s.dropWhile isspace = s := by
  cases s with
  | nil => rfl
  | cons c rest =>
    rw [List.dropWhile_cons_of_neg]
    simp [first c rfl]

theorem strtrim_start (s : Str) : strtrim s <+: s := by
  rw [strtrim,← List.reverse_suffix,List.reverse_reverse]
  exact List.dropWhile_suffix _

theorem strtrim_last {s : Str} (last : ∀ c, s.getLast? = some c → isspace c = false) : strtrim s = s := by
  have back := dropWhile_head (s := s.reverse) fun c here => last c (by rw [← List.head?_reverse]; exact here)
  rw [strtrim,back,List.reverse_reverse]

theorem dropWhile_spaces {front : Str} (spaces : ∀ c ∈ front, isspace c = true) (s : Str) :
    (front ++ s).dropWhile isspace = s.dropWhile isspace := List.dropWhile_append_of_pos spaces

theorem strtrim_spaces {back : Str} (spaces : ∀ c ∈ back, isspace c = true) (s : Str) :
    strtrim (s ++ back) = strtrim s := by
  rw [strtrim,strtrim,List.reverse_append,List.dropWhile_append_of_pos fun c member => spaces c (List.mem_reverse.mp member)]

/-- Only one function does. -/
theorem Trims.eq_trimmed {trim : Str → Str} (trims : Trims trim) (s : Str) : trim s = trimmed s := by
  obtain ⟨front,back,whole,leading,trailing⟩ := trims.ends s
  have inner : trim s = trimmed (front ++ (trim s ++ back)) := by
    rw [trimmed,dropWhile_spaces leading]
    cases text : trim s with
    | nil =>
      rw [List.nil_append,List.dropWhile_eq_nil_iff.mpr trailing]
      rfl
    | cons c rest =>
      have first : ((c :: rest) ++ back).dropWhile isspace = (c :: rest) ++ back :=
        dropWhile_head fun d here => trims.first s d (by rw [text]; exact here)
      rw [first,strtrim_spaces trailing,strtrim_last fun d here => trims.last s d (by rw [text]; exact here)]
  exact inner.trans (congrArg trimmed whole.symm)

theorem trimmed_trims : Trims trimmed where
  ends s := by
    refine ⟨s.takeWhile isspace,((s.dropWhile isspace).reverse.takeWhile isspace).reverse,?_,?_,?_⟩
    · have back := List.takeWhile_append_dropWhile (p := isspace) (l := (s.dropWhile isspace).reverse)
      have turned := congrArg List.reverse back
      rw [List.reverse_append,List.reverse_reverse] at turned
      rw [trimmed,strtrim,turned,List.takeWhile_append_dropWhile]
    · intro c member
      exact List.mem_takeWhile_imp member
    · intro c member
      exact List.mem_takeWhile_imp (List.mem_reverse.mp member)
  first s c head := by
    -- what is cut off at the end leaves the first byte
    obtain ⟨back,whole⟩ : trimmed s <+: s.dropWhile isspace := strtrim_start _
    cases text : trimmed s with
    | nil => rw [text] at head; cases head
    | cons d rest =>
      rw [text] at head whole
      cases head
      have kept := List.head?_dropWhile_not isspace s
      rw [← whole] at kept
      simpa using kept
  last s c last := by
    rw [trimmed,strtrim,List.getLast?_reverse] at last
    have kept := List.head?_dropWhile_not isspace (s.dropWhile isspace).reverse
    rw [last] at kept
    simpa using kept

/-! ### Lines -/

/-- A line that is read as it was written. -/
structure Legible (line : Str) : Prop where
  short : line.length ≤ 1022
  plain : ∀ c ∈ line, c ≠ 10 ∧ c ≠ 0
  first : ∀ c, line.head? = some c → isspace c = false
  last : ∀ c, line.getLast? = some c → isspace c = false

section library

variable (lib : Library)

def lineRead (piece : Str) : Str := lib.trim ((piece ++ [10]).takeWhile (· ≠ 0))

/-- A line that was written may hold line breaks. -/
def linesRead (line : Str) : List Str := (line.splitOn 10).map (lineRead lib)

theorem splitOn_cons (c : UInt8) (line : Str) :
    (c :: line).splitOn 10 = if c = 10 then [] :: line.splitOn 10 else (line.splitOn 10).modifyHead (c :: ·) := by
  rw [List.splitOn,List.splitOnP_cons_eq_if_modifyHead]
  simp only [beq_iff_eq]
  rfl

theorem fgetsPieces_line (line rest : Str) : ∀ piece room, line.length < room → room ≤ 1023 →
    fgetsPieces room piece (line ++ 10 :: rest) =
      ((line.splitOn 10).modifyHead (piece ++ ·)).map (· ++ [10]) ++ fgetsPieces 1023 [] rest := by
  induction line with
  | nil =>
    intro piece room _ _
    simp [fgetsPieces]
  | cons c line ih =>
    intro piece room fits bound
    simp only [List.length_cons] at fits
    rw [List.cons_append,fgetsPieces,splitOn_cons]
    by_cases newline : c = 10
    · have more := ih [] 1023 (by omega) (Nat.le_refl _)
      rw [if_pos (.inl newline),if_pos newline,more,newline]
      cases pieces : line.splitOn 10 with
      | nil => simp
      | cons first others => simp
    · have small : ¬ (c = 10 ∨ room = 1) := by
        rintro (same | last)
        · exact newline same
        · omega
      rw [if_neg small,if_neg newline,ih (piece ++ [c]) (room - 1) (by omega) (by omega)]
      cases pieces : line.splitOn 10 with
      | nil => simp
      | cons first others => simp

theorem zspLines_lines (lines : List Str) (short : ∀ line ∈ lines, line.length ≤ 1022) :
    zspLines lib (lines.flatMap (fun line => line ++ [10])) = lines.flatMap (linesRead lib) := by
  induction lines with
  | nil => rfl
  | cons line rest ih =>
    obtain ⟨here,later⟩ := List.forall_mem_cons.mp short
    rw [zspLines,List.flatMap_cons,List.append_assoc,List.singleton_append,
      fgetsPieces_line line _ [] 1023 (by omega) (Nat.le_refl _),List.map_append,List.flatMap_cons]
    refine congrArg₂ (· ++ ·) ?_ (ih later)
    cases pieces : line.splitOn 10 with
    | nil => simp [linesRead,pieces]
    | cons first others => simp [linesRead,lineRead,pieces,List.map_map,Function.comp_def]

variable {lib} (trims : Trims lib.trim)
include trims

theorem linesRead_legible {line : Str} (legible : Legible line) : linesRead lib line = [line] := by
  have one : line.splitOn 10 = [line] := by
    have plain := legible.plain
    clear legible
    induction line with
    | nil => rfl
    | cons c line ih =>
      obtain ⟨here,later⟩ := List.forall_mem_cons.mp plain
      rw [splitOn_cons,if_neg here.1,ih later]
      rfl
  have cut : (line ++ [10]).takeWhile (· ≠ 0) = line ++ [10] := by
    rw [List.takeWhile_eq_self_iff]
    intro c member
    rcases List.mem_append.mp member with inside | newline
    · simpa using (legible.plain c inside).2
    · rw [List.mem_singleton.mp newline]
      decide
  have bare : trimmed (line ++ [10]) = line := by
    cases line with
    | nil => rfl
    | cons c rest =>
      have front : (c :: rest ++ [10]).dropWhile isspace = c :: rest ++ [10] := dropWhile_head legible.first
      have newline : ∀ c ∈ ([10] : Str), isspace c = true := List.forall_mem_singleton.mpr rfl
      rw [trimmed,front,strtrim_spaces newline,strtrim_last legible.last]
  rw [linesRead,one,List.map_singleton,lineRead,cut,trims.eq_trimmed,bare]

end library

/-- What is read of a quoted value: up to a line break or a 0, without the spaces in front of it. -/
def firstPart (text : Str) : Str := strtrim ((text.takeWhile (· ≠ 10)).takeWhile (· ≠ 0))

/-- It is the whole text where it is as long. -/
theorem firstPart_whole {text : Str} (long : text.length ≤ (firstPart text).length) :
    firstPart text = text ∧ ∀ c ∈ text, c ≠ 10 ∧ c ≠ 0 := by
  have outer := List.takeWhile_prefix (fun c => decide (c ≠ (10 : UInt8))) (l := text)
  have inner := List.takeWhile_prefix (fun c => decide (c ≠ (0 : UInt8))) (l := text.takeWhile (· ≠ 10))
  have whole : firstPart text <+: text := ((strtrim_start _).trans inner).trans outer
  have lines : text.takeWhile (· ≠ 10) = text :=
    outer.eq_of_length_le (long.trans ((strtrim_start _).trans inner).length_le)
  rw [lines] at inner
  have ends : text.takeWhile (· ≠ 0) = text := by
    refine inner.eq_of_length_le (long.trans ?_)
    rw [firstPart,lines]
    exact (strtrim_start _).length_le
  refine ⟨whole.eq_of_length_le long,fun c member => ⟨?_,?_⟩⟩
  · simpa using List.takeWhile_eq_self_iff.mp lines c member
  · simpa using List.takeWhile_eq_self_iff.mp ends c member

theorem splitOn_first (line : Str) : ∃ more, line.splitOn 10 = line.takeWhile (· ≠ 10) :: more := by
  induction line with
  | nil => exact ⟨[],rfl⟩
  | cons c line ih =>
    obtain ⟨more,first⟩ := ih
    rw [splitOn_cons,first]
    by_cases newline : c = 10
    · rw [if_pos newline,List.takeWhile_cons_of_neg (by simpa using newline)]
      exact ⟨_,rfl⟩
    · rw [if_neg newline,List.takeWhile_cons_of_pos (by simpa using newline)]
      exact ⟨more,rfl⟩

/-- The line break that `fgets` keeps is a space. -/
theorem strtrim_newline (piece : Str) :
    strtrim ((piece ++ [10]).takeWhile (· ≠ 0)) = strtrim (piece.takeWhile (· ≠ 0)) := by
  have newline : ∀ c ∈ ([10] : Str), isspace c = true := List.forall_mem_singleton.mpr rfl
  rw [List.takeWhile_append]
  split
  · rename_i whole
    have same := (List.takeWhile_sublist (fun c => decide (c ≠ 0))).eq_of_length whole
    rw [List.takeWhile_cons_of_pos (by decide),List.takeWhile_nil,strtrim_spaces newline,same]
  · rfl

theorem strtrim_behind {front : Str} {c : UInt8} (last : isspace c = false) (s : Str) :
    strtrim (front ++ [c] ++ s) = front ++ [c] ++ strtrim s := by
  rw [strtrim,strtrim,List.reverse_append,List.dropWhile_append]
  split
  · rename_i spaces
    rw [List.isEmpty_iff] at spaces
    rw [spaces,List.reverse_append,List.reverse_singleton,List.singleton_append,
      List.dropWhile_cons_of_neg (by simp [last])]
    simp
  · rw [List.reverse_append,List.reverse_reverse]

/-! ### Sections -/

/-- What is between quotes: no quote, no escape, and not the end of a section. -/
def Word (s : Str) : Prop := (∀ c ∈ s, c ≠ 34 ∧ c ≠ 92 ∧ c ≠ 44) ∧ s.head? ≠ some 47

instance (s : Str) : Decidable (Word s) := inferInstanceAs (Decidable (_ ∧ _))

def Line.values : Line → Str × Str
  | .pair key value => (key, value)
  | .plain value => (value, [])

def Section.values (it : Section) : SectionValues := it.lines.map Line.values

theorem quoted_begin {s : Str} (word : Word s) (more : Str) : (quoted s ++ more).take 2 ≠ str "\"/" := by
  have slash : str "\"/" = [34,47] := rfl
  rw [slash]
  cases s with
  | nil => simp [quoted]
  | cons c rest =>
    intro same
    simp [quoted] at same
    exact word.2 (by rw [same]; rfl)

theorem word_plain {s : Str} (word : Word s) : ∀ c ∈ s, c ≠ 34 ∧ c ≠ 92 :=
  fun c member => ⟨(word.1 c member).1,(word.1 c member).2.1⟩

section library

variable (lib : Library)

def Section.texts (it : Section) : List Str := it.lines.flatMap (fun line => linesRead lib line.text)

/-- The values of a section as they are read: a quote in front of a comma may not be closed. -/
def Section.entries (it : Section) : Except Zsp.Err SectionValues := (it.texts lib).mapM (parseValue lib)

def Section.valuesRead (it : Section) : SectionValues := (it.entries lib).toOption.getD []

def inserted (sections : List Section) (zspData : ZSPDataType) : ZSPDataType :=
  sections.foldl (fun zspData it => zspData.insert it.name (it.valuesRead lib)) zspData

/-- A section that is read as one: none of its lines ends it. -/
structure Section.Contained (it : Section) : Prop where
  name : it.name ≠ [] ∧ Word it.name
  ends : Legible (quoted it.name) ∧ Legible (quoted (47 :: it.name))
  short : ∀ line ∈ it.lines, line.text.length ≤ 1022
  inside : ∀ text ∈ it.texts lib, text.take 2 ≠ str "\"/"

/-- A section that is read as it was written. -/
structure Section.Readable (it : Section) : Prop where
  contained : it.Contained lib
  values : it.entries lib = .ok it.values

theorem Section.Readable.valuesRead {it : Section} (readable : it.Readable lib) : it.valuesRead lib = it.values := by
  rw [Section.valuesRead,readable.values]
  rfl

theorem parseValue_pair {key : Str} (word : Word key) (value : Str) :
    parseValue lib (quoted key ++ 44 :: value) = .ok (key,value) := by
  have plain : ∀ c ∈ quoted key, decide (c ≠ 44) = true := by
    intro c member
    rcases List.mem_cons.mp member with rfl | member
    · decide
    · rcases List.mem_append.mp member with inside | quote
      · simpa using (word.1 c inside).2.2
      · rw [List.mem_singleton.mp quote]
        decide
  have front : (quoted key ++ 44 :: value).takeWhile (· ≠ 44) = quoted key := by
    rw [List.takeWhile_append_of_pos plain,List.takeWhile_cons_of_neg (by simp),List.append_nil]
  have back : (quoted key ++ 44 :: value).dropWhile (· ≠ 44) = 44 :: value := by
    rw [List.dropWhile_append_of_pos plain,List.dropWhile_cons_of_neg (by simp)]
  rw [parseValue,if_pos (by simp),front,back,unquote,unquoteFrom_quoted lib (by decide) (word_plain word)]
  rfl

/-- Lines inside of a section add their values. -/
theorem parseLine_texts (texts : List Str) (stays : ∀ text ∈ texts, text.take 2 ≠ str "\"/") (reading : Reading)
    (inside : reading.section_ ≠ []) :
    texts.foldlM (parseLine lib) reading =
      (texts.mapM (parseValue lib)).map (fun values => { reading with sp := reading.sp ++ values }) := by
  induction texts generalizing reading with
  | nil =>
    change Except.ok reading = Except.ok { reading with sp := reading.sp ++ [] }
    rw [List.append_nil]
  | cons text rest ih =>
    obtain ⟨here,later⟩ := List.forall_mem_cons.mp stays
    rw [List.foldlM_cons,parseLine,if_neg here,if_neg inside,List.mapM_cons]
    cases parseValue lib text with
    | error e => rfl
    | ok value =>
      have more := ih later { reading with sp := reading.sp ++ [value] } inside
      refine Eq.trans more ?_
      cases rest.mapM (parseValue lib) with
      | error e => rfl
      | ok values => simp [Except.map,bind,Except.bind,pure,Except.pure]

variable {lib} (trims : Trims lib.trim)
include trims

/-- A whole section is inserted under its name. -/
theorem parseLine_section {it : Section} (contained : it.Contained lib) {reading : Reading}
    (outside : reading.section_ = []) :
    (it.text.flatMap (linesRead lib)).foldlM (parseLine lib) reading =
      (it.entries lib).map (fun values =>
        { section_ := [], sp := values, zspData := reading.zspData.insert it.name values }) := by
  obtain ⟨⟨named,word⟩,⟨front,back⟩,-,stays⟩ := contained
  have opened : parseLine lib reading (quoted it.name) = .ok { reading with section_ := it.name, sp := [] } := by
    have begins := quoted_begin word []
    rw [List.append_nil] at begins
    rw [parseLine,if_neg begins,if_pos outside,unquote,unquoteFrom_quoted lib (by decide) (word_plain word)]
    exact congrArg Except.ok (if_neg named)
  have closed (reading : Reading) : parseLine lib reading (quoted (47 :: it.name)) =
      .ok { reading with zspData := reading.zspData.insert reading.section_ reading.sp, section_ := [] } := if_pos rfl
  have inner : (it.lines.map Line.text).flatMap (linesRead lib) = it.texts lib := List.flatMap_map ..
  rw [Section.text,List.cons_append,List.flatMap_cons,List.flatMap_append,List.flatMap_singleton,
    linesRead_legible trims front,linesRead_legible trims back,inner,List.singleton_append,List.foldlM_cons,opened]
  change List.foldlM (parseLine lib) _ _ = _
  rw [List.foldlM_append,parseLine_texts lib _ stays _ named,Section.entries]
  cases (it.texts lib).mapM (parseValue lib) with
  | error e => rfl
  | ok values =>
    change List.foldlM (parseLine lib) _ _ = _
    rw [List.foldlM_cons,closed]
    rfl

theorem parseLine_sections (sections : List Section) (contained : ∀ it ∈ sections, it.Contained lib)
    (reading : Reading) (outside : reading.section_ = []) :
    ((∀ it ∈ sections, (it.entries lib).isOk) →
      ∃ sp, ((sections.flatMap Section.text).flatMap (linesRead lib)).foldlM (parseLine lib) reading =
        .ok { section_ := [], sp, zspData := inserted lib sections reading.zspData }) ∧
    (¬ (∀ it ∈ sections, (it.entries lib).isOk) →
      ∃ e, ((sections.flatMap Section.text).flatMap (linesRead lib)).foldlM (parseLine lib) reading = .error e) := by
  induction sections generalizing reading with
  | nil =>
    refine ⟨fun _ => ⟨reading.sp,?_⟩,fun missing => absurd (fun it none => nomatch none) missing⟩
    rw [← outside]
    rfl
  | cons it rest ih =>
    obtain ⟨here,later⟩ := List.forall_mem_cons.mp contained
    rw [List.flatMap_cons,List.flatMap_append,List.foldlM_append,parseLine_section trims here outside,
      List.forall_mem_cons]
    cases entries : it.entries lib with
    | error e => exact ⟨fun all => (nomatch all.1),fun _ => ⟨e,rfl⟩⟩
    | ok values =>
      have same : it.valuesRead lib = values := by
        rw [Section.valuesRead,entries]
        rfl
      have more := ih later { section_ := [], sp := values, zspData := reading.zspData.insert it.name values } rfl
      rw [← same] at more
      rw [and_iff_right (show (Except.ok values : Except Zsp.Err SectionValues).isOk = true from rfl),← same]
      exact more

end library

/-! ### The table -/

variable {lib : Library}

/-- `std::multimap` keeps its keys in order. -/
def Sorted (zspData : ZSPDataType) : Prop := zspData.Pairwise (fun a b => ¬ b.1 < a.1)

theorem mem_insert {key : Str} {sp : SectionValues} {zspData : ZSPDataType} {it : Str × SectionValues}
    (member : it ∈ zspData.insert key sp) : it = (key,sp) ∨ it ∈ zspData := by
  induction zspData with
  | nil => exact .inl (List.mem_singleton.mp member)
  | cons first rest ih =>
    rw [ZSPDataType.insert] at member
    split at member
    · exact List.mem_cons.mp member
    · rcases List.mem_cons.mp member with rfl | later
      · exact .inr List.mem_cons_self
      · exact (ih later).imp_right (List.mem_cons_of_mem _)

theorem insert_sorted (key : Str) (sp : SectionValues) {zspData : ZSPDataType} (sorted : Sorted zspData) :
    Sorted (zspData.insert key sp) := by
  induction zspData with
  | nil => exact List.pairwise_singleton _ _
  | cons first rest ih =>
    obtain ⟨below,sorted⟩ := List.pairwise_cons.mp sorted
    rw [ZSPDataType.insert]
    split
    next less =>
      refine List.pairwise_cons.mpr ⟨?_,List.pairwise_cons.mpr ⟨below,sorted⟩⟩
      intro other member before
      rcases List.mem_cons.mp member with rfl | later
      · exact List.lt_irrefl _ (List.lt_trans before less)
      · exact below other later (List.lt_trans before less)
    next above =>
      refine List.pairwise_cons.mpr ⟨?_,ih sorted⟩
      intro other member
      rcases mem_insert member with rfl | later
      · exact above
      · exact below other later

/-- Equal keys stay in the order they come in. -/
theorem insert_equalRange (key : Str) (sp : SectionValues) {zspData : ZSPDataType} (sorted : Sorted zspData)
    (name : Str) :
    (zspData.insert key sp).equalRange name = zspData.equalRange name ++ if key = name then [sp] else [] := by
  induction zspData with
  | nil =>
    by_cases same : key = name
    · simp [ZSPDataType.insert,ZSPDataType.equalRange,same]
    · simp [ZSPDataType.insert,ZSPDataType.equalRange,same]
  | cons first rest ih =>
    obtain ⟨below,sorted⟩ := List.pairwise_cons.mp sorted
    have more := ih sorted
    unfold ZSPDataType.equalRange at more ⊢
    rw [ZSPDataType.insert]
    split
    next less =>
      by_cases same : key = name
      · -- nothing of this name is behind a greater key
        have none : (first :: rest).filter (fun it => it.1 = name) = [] := by
          rw [List.filter_eq_nil_iff]
          intro other member equal
          have equal : other.1 = key := (of_decide_eq_true equal).trans same.symm
          rcases List.mem_cons.mp member with rfl | later
          · exact List.lt_irrefl _ (equal ▸ less)
          · exact below other later (equal ▸ less)
        rw [List.filter_cons_of_pos (by simpa using same),none]
        simp [same]
      · rw [List.filter_cons_of_neg (by simpa using same)]
        simp [same]
    next above =>
      by_cases same : first.1 = name
      · rw [List.filter_cons_of_pos (by simpa using same),List.filter_cons_of_pos (by simpa using same),
          List.map_cons,List.map_cons,more,List.cons_append]
      · rw [List.filter_cons_of_neg (by simpa using same),List.filter_cons_of_neg (by simpa using same),more]

theorem inserted_sorted (sections : List Section) {zspData : ZSPDataType} (sorted : Sorted zspData) :
    Sorted (inserted lib sections zspData) := by
  induction sections generalizing zspData with
  | nil => exact sorted
  | cons it rest ih => exact ih (insert_sorted it.name (it.valuesRead lib) sorted)

theorem inserted_equalRange (sections : List Section) {zspData : ZSPDataType} (sorted : Sorted zspData) (name : Str) :
    (inserted lib sections zspData).equalRange name =
      zspData.equalRange name ++ (sections.filter (fun it => it.name = name)).map (Section.valuesRead lib) := by
  induction sections generalizing zspData with
  | nil => exact (List.append_nil _).symm
  | cons it rest ih =>
    have more := ih (insert_sorted it.name (it.valuesRead lib) sorted)
    rw [insert_equalRange it.name (it.valuesRead lib) sorted] at more
    refine more.trans ?_
    by_cases same : it.name = name
    · rw [List.filter_cons_of_pos (by simpa using same),if_pos same,List.append_assoc]
      rfl
    · rw [List.filter_cons_of_neg (by simpa using same),if_neg same,List.append_nil]

theorem inserted_mem (sections : List Section) {zspData : ZSPDataType} {it : Str × SectionValues}
    (member : it ∈ inserted lib sections zspData) : it ∈ zspData ∨ ∃ from_ ∈ sections, it.1 = from_.name := by
  induction sections generalizing zspData with
  | nil => exact .inl member
  | cons first rest ih =>
    rcases ih member with before | ⟨from_,there,same⟩
    · rcases mem_insert before with rfl | earlier
      · exact .inr ⟨first,List.mem_cons_self,rfl⟩
      · exact .inl earlier
    · exact .inr ⟨from_,List.mem_cons_of_mem _ there,same⟩

/-- From the first "Sample" on there are only samples where no key is greater. -/
theorem samples_last {zspData : ZSPDataType} (sorted : Sorted zspData) (key : Str)
    (greatest : ∀ it ∈ zspData, it.1 ≠ key → it.1 < key) :
    (zspData.dropWhile (fun it => decide (it.1 ≠ key))) = zspData.filter (fun it => it.1 = key) := by
  induction zspData with
  | nil => rfl
  | cons first rest ih =>
    obtain ⟨below,sorted⟩ := List.pairwise_cons.mp sorted
    by_cases same : first.1 = key
    · have all : rest.filter (fun it => it.1 = key) = rest := by
        rw [List.filter_eq_self]
        intro other member
        by_contra different
        have different : other.1 ≠ key := by simpa using different
        exact below other member (same ▸ greatest other (List.mem_cons_of_mem _ member) different)
      rw [List.dropWhile_cons_of_neg (by simpa using same),List.filter_cons_of_pos (by simpa using same),all]
    · rw [List.dropWhile_cons_of_pos (by simpa using same),List.filter_cons_of_neg (by simpa using same)]
      exact ih sorted (fun it member => greatest it (List.mem_cons_of_mem _ member))

/-- What `loadZSP` knows of a generated file. -/
theorem read_generated (trims : Trims lib.trim) (sections : List Section)
    (contained : ∀ it ∈ sections, it.Contained lib) :
    ((∀ it ∈ sections, (it.entries lib).isOk) →
      ∃ sp, (zspLines lib (generated sections)).foldlM (parseLine lib) {} =
        .ok { section_ := [], sp, zspData := inserted lib sections [] }) ∧
    (¬ (∀ it ∈ sections, (it.entries lib).isOk) →
      ∃ e, (zspLines lib (generated sections)).foldlM (parseLine lib) {} = .error e) := by
  rw [generated,zspLines_lines]
  · exact parseLine_sections trims sections contained {} rfl
  · intro text member
    obtain ⟨it,there,inside⟩ := List.mem_flatMap.mp member
    obtain ⟨-,⟨front,back⟩,short,-⟩ := contained it there
    rcases List.mem_append.mp inside with opening | closing
    · rcases List.mem_cons.mp opening with rfl | inner
      · exact front.short
      · obtain ⟨line,there,rfl⟩ := List.mem_map.mp inner
        exact short line there
    · rw [List.mem_singleton.mp closing]
      exact back.short

end Btcontrol.Zpp
