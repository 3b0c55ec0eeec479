import Btcontrol.Lokdef

/-! The text of a loco table, as the reader of conf/lokdef.csv wants it, and back. -/
namespace Btcontrol

open Bytes

def decimal (n : Int) : Str := (if n < 0 then [45] else []) ++ (Nat.toDigits 10 n.natAbs).map Char.toUInt8

def flagName (flags : Nat) : Str :=
  if flags = F_DEC14 then str "F_DEC14" else if flags = F_DEC28 then str "F_DEC28" else str "F_DEFAULT"

/-- The name of a function, with `=1` for one that is on. -/
def cell (f : Func) : Str := f.name ++ if f.ison then str "=1" else []

def fields (cells : List Str) : Str := cells.flatMap (fun text => 44 :: text)

namespace Lokdef

def named (l : Lokdef) : List Func := (l.func.toList.take l.nFunc.toNat).drop 1

def csvLine (l : Lokdef) : Str :=
  decimal l.addr ++ fields ([flagName l.flags, l.name, l.imgname, decimal (l.nFunc - 1)] ++ l.named.map cell)

/-- A record as the reader makes it: nobody has driven it, and there is nothing behind its functions. -/
def asRead (l : Lokdef) : Lokdef :=
  { l with
    currspeed := 0
    currdir := 1
    initDone := false
    lastClientID := 0
    func := Vector.ofFn (fun j => if (j.val : Int) < l.nFunc then l.func[j] else {}) }

end Lokdef

def csv (table : List Lokdef) : Str := table.flatMap (fun l => l.csvLine ++ [10])

/-- A text that can stand in a field of at most `size` characters. -/
structure Writable (size : Nat) (text : Str) : Prop where
  short : text.length ≤ size
  plain : ∀ c ∈ text, c ≠ 44 ∧ c ≠ 13 ∧ c ≠ 10 ∧ c ≠ 0
  first : text.head?.any isspace = false
  last : text.getLast?.any isspace = false

instance (size : Nat) (text : Str) : Decidable (Writable size text) :=
  decidable_of_iff (text.length ≤ size ∧ (∀ c ∈ text, c ≠ 44 ∧ c ≠ 13 ∧ c ≠ 10 ∧ c ≠ 0) ∧
      text.head?.any isspace = false ∧ text.getLast?.any isspace = false)
    ⟨fun it => ⟨it.1,it.2.1,it.2.2.1,it.2.2.2⟩,fun it => ⟨it.short,it.plain,it.first,it.last⟩⟩

structure Lokdef.Writable (l : Lokdef) : Prop where
  addr : l.addr ≠ 0 ∧ Fits32 l.addr
  flags : l.flags = F_DEFAULT ∨ l.flags = F_DEC14 ∨ l.flags = F_DEC28
  name : Btcontrol.Writable 19 l.name
  imgname : Btcontrol.Writable 31 l.imgname
  nFunc : 1 ≤ l.nFunc
  light : l.func[0] = { name := str "lHeadlight", ison := true }
  funcs : ∀ f ∈ l.named, Btcontrol.Writable 31 f.name ∧ ¬str "=1" <:+: f.name

/-! ### Numbers -/

theorem digit_byte {c : Char} (digit : c.isDigit = true) :
    48 ≤ c.toUInt8 ∧ c.toUInt8 ≤ 57 ∧ (c.toUInt8.toNat : Int) - 48 = (c.toNat - '0'.toNat : Nat) := by
  simp only [Char.isDigit,Bool.and_eq_true,decide_eq_true_eq,UInt32.le_iff_toNat_le] at digit
  obtain ⟨low,high⟩ := digit
  have low : 48 ≤ c.toNat := low
  have high : c.toNat ≤ 57 := high
  have byte : c.toUInt8.toNat = c.toNat := Nat.mod_eq_of_lt (show c.toNat < 256 by omega)
  have zero : '0'.toNat = 48 := rfl
  rw [UInt8.le_iff_toNat_le,UInt8.le_iff_toNat_le,byte,zero]
  exact ⟨low,high,by omega⟩

def Behind (tail : Str) : Prop := tail = [] ∨ ∃ rest, tail = 44 :: rest

theorem digits_chars {chars : List Char} (all : ∀ c ∈ chars, c.isDigit = true) {tail : Str} (behind : Behind tail)
    (value : Nat) : digits value (chars.map Char.toUInt8 ++ tail) = (Nat.ofDigitChars 10 chars value : Nat) := by
  induction chars generalizing value with
  | nil =>
    rcases behind with rfl | ⟨rest,rfl⟩
    · rfl
    · rfl
  | cons c chars ih =>
    obtain ⟨here,later⟩ := List.forall_mem_cons.mp all
    obtain ⟨low,high,number⟩ := digit_byte here
    have next := ih later (10 * value + (c.toNat - '0'.toNat))
    rw [List.map_cons,List.cons_append,digits,if_pos ⟨low,high⟩,number,Nat.ofDigitChars_cons,← next]
    congr 1
    push_cast
    ring

theorem atoi_unsigned {c : UInt8} (low : 48 ≤ c) (rest : Str) : atoi (c :: rest) = toInt (digits 0 (c :: rest)) := by
  rw [UInt8.le_iff_toNat_le] at low
  have low : 48 ≤ c.toNat := low
  have unspaced : isspace c = false := by
    simp only [isspace,Bool.or_eq_false_iff,beq_eq_false_iff_ne,Bool.and_eq_false_iff,decide_eq_false_iff_not,
      UInt8.le_iff_toNat_le,← UInt8.toNat_inj,ne_eq,UInt8.reduceToNat]
    omega
  rw [atoi,List.dropWhile_cons_of_neg (by simp [unspaced])]
  split
  · rename_i sign
    cases sign
    exact absurd low (by decide)
  · rename_i sign
    cases sign
    exact absurd low (by decide)
  · rfl

/-- A number reads back, whatever field is behind it. -/
theorem atoi_decimal {n : Int} (fits : Fits32 n) {tail : Str} (behind : Behind tail) : atoi (decimal n ++ tail) = n := by
  have clamped (value : Int) (fits : Fits32 value) : toInt value = value := by
    obtain ⟨low,high⟩ := fits
    rw [toInt,min_eq_left (by omega),max_eq_right (by omega)]
    exact signed32_pattern32 value ⟨low,high⟩
  have all : ∀ c ∈ Nat.toDigits 10 n.natAbs, c.isDigit = true :=
    fun c member => Nat.isDigit_of_mem_toDigits (by decide) (by decide) member
  have number := digits_chars all behind 0
  rw [Nat.ofDigitChars_ten_toDigits] at number
  by_cases negative : n < 0
  · have text : decimal n ++ tail = 45 :: ((Nat.toDigits 10 n.natAbs).map Char.toUInt8 ++ tail) := by
      simp [decimal,negative]
    have value : -(n.natAbs : Int) = n := by omega
    rw [text]
    have unspaced : (45 :: ((Nat.toDigits 10 n.natAbs).map Char.toUInt8 ++ tail)).dropWhile isspace =
        45 :: ((Nat.toDigits 10 n.natAbs).map Char.toUInt8 ++ tail) := rfl
    rw [atoi,unspaced]
    exact (congrArg (fun v => toInt (-v)) number).trans ((congrArg toInt value).trans (clamped n fits))
  · have text : decimal n ++ tail = (Nat.toDigits 10 n.natAbs).map Char.toUInt8 ++ tail := by
      simp [decimal,negative]
    have value : (n.natAbs : Int) = n := by omega
    obtain ⟨c,chars,shape⟩ := List.exists_cons_of_ne_nil (Nat.toDigits_ne_nil (n := n.natAbs) (b := 10))
    obtain ⟨low,_⟩ := digit_byte (all c (by rw [shape]; exact List.mem_cons_self))
    rw [text]
    have read : atoi ((Nat.toDigits 10 n.natAbs).map Char.toUInt8 ++ tail) =
        toInt (digits 0 ((Nat.toDigits 10 n.natAbs).map Char.toUInt8 ++ tail)) := by
      rw [shape]
      exact atoi_unsigned low _
    rw [read]
    exact (congrArg toInt (number.trans value)).trans (clamped n fits)

/-! ### Fields -/

theorem atoi_number {n : Int} (fits : Fits32 n) : atoi (decimal n) = n := by
  have read : atoi (decimal n ++ []) = n := atoi_decimal fits (.inl rfl)
  rwa [List.append_nil] at read

/-- A text the scanner takes as a whole. -/
structure Field (text : Str) : Prop where
  inside : ∀ c ∈ text, inside c = true
  nul : 0 ∉ text
  first : ∀ c, text.head? = some c → (c == 32 || c == 9) = false

theorem field_of_all {text : Str} (all : text.all (fun c => inside c && c != 0 && !(c == 32 || c == 9)) = true) :
    Field text := by
  have bytes := List.all_eq_true.mp all
  simp only [Bool.and_eq_true,Bool.not_eq_true',bne_iff_ne] at bytes
  constructor
  · exact fun c member => (bytes c member).1.1
  · exact fun member => (bytes 0 member).1.2 rfl
  · exact fun c head => (bytes c (List.mem_of_mem_head? head)).2

/-- What follows a field directly belongs to it. -/
theorem Field.append {text more : Str} (field : Field text) (next : Field more) : Field (text ++ more) where
  inside := by
    intro c member
    rcases List.mem_append.mp member with here | there
    · exact field.inside c here
    · exact next.inside c there
  nul := by
    intro member
    rcases List.mem_append.mp member with here | there
    · exact field.nul here
    · exact next.nul there
  first := by
    cases text with
    | nil => exact next.first
    | cons c rest => exact field.first

theorem behind_fields (cells : List Str) : Behind (fields cells) := by
  cases cells with
  | nil => exact .inl rfl
  | cons text rest => exact .inr ⟨_,rfl⟩

theorem takeWhile_behind {text : Str} (all : ∀ c ∈ text, inside c = true) {tail : Str} (behind : Behind tail) :
    (text ++ tail).takeWhile inside = text ∧ (text ++ tail).dropWhile inside = tail := by
  rw [List.takeWhile_append_of_pos all,List.dropWhile_append_of_pos all]
  rcases behind with rfl | ⟨rest,rfl⟩
  · exact ⟨List.append_nil _,rfl⟩
  · exact ⟨List.append_nil _,rfl⟩

/-- The next field. -/
theorem getnext_fields {front : Str} (all : ∀ c ∈ front, inside c = true) {text : Str} (field : Field text)
    (rest : List Str) : getnext (front ++ fields (text :: rest)) = some (text ++ fields rest) := by
  have comma : Behind (fields (text :: rest)) := behind_fields _
  have opened : fields (text :: rest) = 44 :: (text ++ fields rest) := rfl
  have blanks : (text ++ fields rest).dropWhile (fun c => c == 32 || c == 9) = text ++ fields rest := by
    cases text with
    | nil =>
      rcases behind_fields rest with none | ⟨more,some⟩
      · rw [none]
        rfl
      · rw [some]
        rfl
    | cons c text => exact List.dropWhile_cons_of_neg (by simp [field.first c rfl])
  rw [getnext,(takeWhile_behind all comma).2,opened]
  exact congrArg some blanks

theorem Writable.field {size : Nat} {text : Str} (writable : Writable size text) : Field text where
  inside := by
    intro c member
    obtain ⟨comma,cr,lf,_⟩ := writable.plain c member
    simp [inside,comma,cr,lf]
  nul := fun member => (writable.plain 0 member).2.2.2 rfl
  first := by
    intro c head
    have unspaced := writable.first
    rw [head,Option.any_some] at unspaced
    simp only [isspace,Bool.or_eq_false_iff] at unspaced ⊢
    refine ⟨unspaced.1,?_⟩
    rw [beq_eq_false_iff_ne]
    rintro rfl
    exact absurd unspaced.2 (by decide)

/-- A number is a sign and digits. -/
theorem decimal_bytes (n : Int) : ∀ c ∈ decimal n, c = 45 ∨ 48 ≤ c ∧ c ≤ 57 := by
  intro c member
  rcases List.mem_append.mp member with sign | digit
  · split at sign
    · exact .inl (List.mem_singleton.mp sign)
    · cases sign
  · obtain ⟨char,inside,rfl⟩ := List.mem_map.mp digit
    obtain ⟨low,high,_⟩ := digit_byte (Nat.isDigit_of_mem_toDigits (by decide) (by decide) inside)
    exact .inr ⟨low,high⟩

theorem decimal_length {n : Int} (fits : Fits32 n) : (decimal n).length ≤ 11 := by
  obtain ⟨low,high⟩ := fits
  have digits : (Nat.toDigits 10 n.natAbs).length ≤ 10 := by
    rw [Nat.length_toDigits_le_iff (by decide) (by decide)]
    omega
  simp only [decimal,List.length_append,List.length_map]
  split <;> simp only [List.length_singleton,List.length_nil] <;> omega

theorem decimal_field (n : Int) : Field (decimal n) := by
  apply field_of_all
  rw [List.all_eq_true]
  intro c member
  rcases decimal_bytes n c member with rfl | ⟨low,high⟩
  · decide
  · rw [UInt8.le_iff_toNat_le] at low high
    have low : 48 ≤ c.toNat := low
    simp only [inside,Bool.and_eq_true,bne_iff_ne,Bool.not_eq_true',Bool.or_eq_false_iff,beq_eq_false_iff_ne,
      ← UInt8.toNat_inj,ne_eq,UInt8.reduceToNat]
    omega

theorem flagName_field (flags : Nat) : Field (flagName flags) := by
  unfold flagName
  split
  · exact field_of_all (by decide)
  · split <;> exact field_of_all (by decide)

/-! ### Functions -/

theorem startsOn_iff (text : Str) : startsOn text = true ↔ str "=1" <:+: text := by
  have pattern : str "=1" = [61, 49] := by decide
  rw [pattern]
  induction text with
  | nil => simp [startsOn]
  | cons c rest ih =>
    have later : [61, 49] <:+: rest ↔ startsOn rest = true := ih.symm
    rw [List.infix_cons_iff,later]
    cases rest with
    | nil => simp [startsOn]
    | cons c' rest =>
      by_cases here : c = 61 ∧ c' = 49
      · obtain ⟨rfl,rfl⟩ := here
        simp [startsOn]
      · have later : startsOn (c :: c' :: rest) = startsOn (c' :: rest) := by
          rw [startsOn]
          intro tail same tails
          cases same
          cases tails
          exact here ⟨rfl,rfl⟩
        rw [later]
        constructor
        · exact .inr
        · rintro (begins | inside)
          · simp only [List.cons_prefix_cons,List.nil_prefix,and_true] at begins
            exact absurd ⟨begins.1.symm,begins.2.symm⟩ here
          · exact inside

def FuncWritable (f : Func) : Prop := Writable 31 f.name ∧ ¬str "=1" <:+: f.name

theorem readFunc_cell {f : Func} (writable : FuncWritable f) : readFunc (cell f) = f := by
  obtain ⟨writable,without⟩ := writable
  obtain ⟨name,ison⟩ := f
  have short : name.length ≤ 31 := writable.short
  have none : startsOn name = false := by
    rw [← Bool.not_eq_true,startsOn_iff]
    exact without
  cases ison with
  | false => simp [readFunc,cell,none,List.take_of_length_le (Nat.le_succ_of_le short)]
  | true =>
    have found : startsOn (name ++ str "=1") = true := (startsOn_iff _).mpr
      (List.suffix_append name (str "=1")).isInfix
    have two : (str "=1").length = 2 := by decide
    simp [readFunc,cell,found,two,List.take_of_length_le (Nat.le_succ_of_le short)]

theorem cell_field {f : Func} (writable : FuncWritable f) : Field (cell f) := by
  apply writable.1.field.append
  split <;> exact field_of_all (by decide)

/-- The functions from number `i` on. -/
def fill : Nat → List Func → Vector Func MAX_NFUNC → Vector Func MAX_NFUNC
  | _, [], func => func
  | i, f :: rest, func => fill (i + 1) rest (func.setIfInBounds i f)

theorem fill_get (fs : List Func) (i : Nat) (func : Vector Func MAX_NFUNC) (j : Nat) (bound : j < MAX_NFUNC) :
    (fill i fs func)[j] = if i ≤ j then fs[j - i]?.getD func[j] else func[j] := by
  induction fs generalizing i func with
  | nil => simp [fill]
  | cons f rest ih =>
    rw [fill,ih]
    rcases Nat.lt_trichotomy i j with before | rfl | after
    · have later : j - i = (j - (i + 1)) + 1 := by omega
      have other : i ≠ j := by omega
      rw [if_pos (by omega),if_pos (by omega),later,List.getElem?_cons_succ,Vector.getElem_setIfInBounds_ne bound other]
    · rw [if_neg (by omega),if_pos (Nat.le_refl i),Nat.sub_self]
      simp
    · have other : i ≠ j := by omega
      rw [if_neg (by omega),if_neg (by omega),Vector.getElem_setIfInBounds_ne bound other]

theorem readFuncs_cells {fs : List Func} (writable : ∀ f ∈ fs, FuncWritable f) (lineNo : Nat) (nFunc : Int) (i : Nat)
    {front : Str} (all : ∀ c ∈ front, inside c = true) (func : Vector Func MAX_NFUNC) :
    ∃ pos, readFuncs lineNo nFunc fs.length i (front ++ fields (fs.map cell)) func = .ok (pos, fill i fs func) ∧
      pos.dropWhile inside = [] := by
  induction fs generalizing i front func with
  | nil =>
    refine ⟨front,by simp [readFuncs,fields,fill],?_⟩
    rw [List.dropWhile_eq_nil_iff]
    exact all
  | cons f rest ih =>
    obtain ⟨here,later⟩ := List.forall_mem_cons.mp writable
    have field := cell_field here
    obtain ⟨pos,read,ended⟩ := ih later (i + 1) field.inside (func.setIfInBounds i f)
    have text : value (cell f ++ fields (rest.map cell)) = cell f :=
      (takeWhile_behind field.inside (behind_fields _)).1
    have line : f.name.contains 10 = false := by
      rw [← Bool.not_eq_true,List.contains_iff_mem]
      intro member
      exact (here.1.plain 10 member).2.2.1 rfl
    refine ⟨pos,?_,ended⟩
    rw [List.map_cons,List.length_cons,readFuncs,getnext_fields all field]
    simp only [text,readFunc_cell here,line,Bool.false_eq_true,↓reduceIte]
    exact read

/-! ### Lines -/

theorem strtrim_writable {size : Nat} {text : Str} (writable : Writable size text) : strtrim text = text := by
  have kept : text.reverse.dropWhile isspace = text.reverse := by
    cases reversed : text.reverse with
    | nil => rfl
    | cons c rest =>
      have last : text.getLast? = some c := by
        rw [List.getLast?_eq_head?_reverse,reversed]
        rfl
      have unspaced := writable.last
      rw [last,Option.any_some] at unspaced
      exact List.dropWhile_cons_of_neg (by simp [unspaced])
  rw [strtrim,kept,List.reverse_reverse]

/-- The name between two commas. -/
theorem strtrim_value {size : Nat} {text : Str} (writable : Writable size text) (rest : List Str) :
    strtrim ((value (text ++ fields rest)).take size) = text := by
  rw [value,(takeWhile_behind writable.field.inside (behind_fields rest)).1,List.take_of_length_le writable.short]
  exact strtrim_writable writable

theorem str2decodertype_flagName {flags : Nat} (known : flags = F_DEFAULT ∨ flags = F_DEC14 ∨ flags = F_DEC28)
    (rest : Str) : str2decodertype (flagName flags ++ rest) = flags := by
  rcases known with rfl | rfl | rfl
  · rfl
  · rfl
  · rfl

theorem decimal_head (n : Int) (rest : Str) : (decimal n ++ rest).head? ≠ some 35 := by
  have some : decimal n ≠ [] := by
    intro none
    exact Nat.toDigits_ne_nil (List.map_eq_nil_iff.mp (List.append_eq_nil_iff.mp none).2)
  rw [List.head?_append_of_ne_nil _ some]
  intro head
  rcases decimal_bytes n 35 (List.mem_of_mem_head? head) with sign | ⟨low,_⟩
  · exact absurd sign (by decide)
  · exact absurd low (by decide)

namespace Lokdef

variable {l : Lokdef} (writable : l.Writable)
include writable

theorem named_length : l.named.length = (l.nFunc - 1).toNat := by
  have most := l.nFunc_le
  have least := writable.nFunc
  simp only [named,List.length_drop,List.length_take,Vector.length_toList]
  omega

/-- The functions of the record, set one after the other. -/
theorem fill_named : fill 1 l.named ((Vector.replicate MAX_NFUNC {}).setIfInBounds 0
    { name := str "lHeadlight", ison := true }) = l.asRead.func := by
  have most := l.nFunc_le
  have least := writable.nFunc
  apply Vector.ext
  intro j bound
  rw [fill_get]
  simp only [asRead,Vector.getElem_ofFn]
  by_cases first : j = 0
  · subst first
    have one : ((0 : Nat) : Int) < l.nFunc := by omega
    simp only [↓reduceIte,one]
    exact writable.light.symm
  · have zeroed : ((Vector.replicate MAX_NFUNC {}).setIfInBounds 0
        ({ name := str "lHeadlight", ison := true } : Func))[j] = {} := by
      rw [Vector.getElem_setIfInBounds_ne bound (Ne.symm first)]
      simp
    rw [if_pos (by omega),zeroed]
    by_cases inside : (j : Int) < l.nFunc
    · have found : l.named[j - 1]? = some l.func[j] := by
        have index : 1 + (j - 1) = j := by omega
        have taken : j < l.nFunc.toNat := by omega
        rw [named,List.getElem?_drop,index,List.getElem?_take_of_lt taken]
        simp [bound]
      rw [found,if_pos inside]
      rfl
    · have none : l.named[j - 1]? = none := by
        apply List.getElem?_eq_none
        rw [named_length writable]
        omega
      rw [none,if_neg inside]
      rfl

/-- A line of the file makes its record. -/
theorem readLine_csvLine (lineNo : Nat) : readLine lineNo l.csvLine = .ok (some l.asRead) := by
  have most := l.nFunc_le
  have least := writable.nFunc
  -- the scanner goes from field to field
  have flagsPos := getnext_fields (decimal_field l.addr).inside (flagName_field l.flags)
    (l.name :: l.imgname :: decimal (l.nFunc - 1) :: l.named.map cell)
  have namePos := getnext_fields (flagName_field l.flags).inside writable.name.field
    (l.imgname :: decimal (l.nFunc - 1) :: l.named.map cell)
  have imgPos := getnext_fields writable.name.field.inside writable.imgname.field
    (decimal (l.nFunc - 1) :: l.named.map cell)
  have nFuncPos := getnext_fields writable.imgname.field.inside (decimal_field (l.nFunc - 1)) (l.named.map cell)
  have addr : atoi l.csvLine = l.addr := atoi_decimal writable.addr.2 (behind_fields _)
  have fits : Fits32 (l.nFunc - 1) := by
    simp only [MAX_NFUNC] at most
    exact ⟨by omega,by omega⟩
  have number : atoi (decimal (l.nFunc - 1) ++ fields (l.named.map cell)) + 1 = l.nFunc := by
    rw [atoi_decimal fits (behind_fields _)]
    omega
  have small : ¬l.nFunc > MAX_NFUNC := by omega
  obtain ⟨pos,funcs,ended⟩ := readFuncs_cells writable.funcs lineNo l.nFunc 1 (decimal_field (l.nFunc - 1)).inside
    ((Vector.replicate MAX_NFUNC {}).setIfInBounds 0 { name := str "lHeadlight", ison := true })
  rw [named_length writable] at funcs
  have begins : l.csvLine.head? ≠ some 35 := decimal_head _ _
  have text : l.csvLine = decimal l.addr ++
    fields (flagName l.flags :: l.name :: l.imgname :: decimal (l.nFunc - 1) :: l.named.map cell) := rfl
  unfold readLine
  rw [if_neg begins]
  simp only [addr]
  rw [text]
  simp only [flagsPos,namePos,imgPos,nFuncPos,number,small,↓reduceDIte,funcs,bind,Except.bind,pure,Except.pure,ended,
    ne_eq,not_true_eq_false,↓reduceIte,str2decodertype_flagName writable.flags,strtrim_value writable.name,
    strtrim_value writable.imgname,fill_named writable]
  rfl

/-- No line end and no NUL in a line. -/
theorem csvLine_plain : 10 ∉ l.csvLine ∧ 0 ∉ l.csvLine := by
  have whole : ∀ text ∈ decimal l.addr :: ([flagName l.flags, l.name, l.imgname, decimal (l.nFunc - 1)] ++
      l.named.map cell), Field text := by
    intro text member
    simp only [List.cons_append,List.nil_append,List.mem_cons,List.mem_map] at member
    rcases member with rfl | rfl | rfl | rfl | rfl | ⟨f,named,rfl⟩
    · exact decimal_field _
    · exact flagName_field _
    · exact writable.name.field
    · exact writable.imgname.field
    · exact decimal_field _
    · exact cell_field (writable.funcs f named)
  obtain ⟨front,others⟩ := List.forall_mem_cons.mp whole
  have each : ∀ c ∈ l.csvLine, c = 44 ∨ ∃ text, Field text ∧ c ∈ text := by
    intro c member
    rcases List.mem_append.mp member with addr | rest
    · exact .inr ⟨_,front,addr⟩
    · obtain ⟨text,inside,here⟩ := List.mem_flatMap.mp rest
      rcases List.mem_cons.mp here with comma | field
      · exact .inl comma
      · exact .inr ⟨text,others text inside,field⟩
  constructor
  · intro lf
    rcases each 10 lf with comma | ⟨text,field,member⟩
    · exact absurd comma (by decide)
    · exact absurd (field.inside 10 member) (by decide)
  · intro nul
    rcases each 0 nul with comma | ⟨text,field,member⟩
    · exact absurd comma (by decide)
    · exact field.nul member

end Lokdef

/-! ### Files -/

theorem getlines_line {text : Str} (plain : 10 ∉ text) (line rest : Str) :
    getlines line (text ++ 10 :: rest) = (line ++ text) :: getlines [] rest := by
  induction text generalizing line with
  | nil => simp [getlines]
  | cons c text ih =>
    have other : c ≠ 10 := fun same => plain (same ▸ List.mem_cons_self)
    have later : 10 ∉ text := fun member => plain (List.mem_cons_of_mem _ member)
    rw [List.cons_append,getlines,if_neg other,ih later,List.append_assoc]
    rfl

theorem getlines_csv {table : List Lokdef} (writable : ∀ l ∈ table, l.Writable) :
    getlines [] (csv table) = table.map Lokdef.csvLine := by
  induction table with
  | nil => rfl
  | cons l rest ih =>
    obtain ⟨here,later⟩ := List.forall_mem_cons.mp writable
    have text : csv (l :: rest) = l.csvLine ++ 10 :: csv rest := by simp [csv]
    rw [text,getlines_line (Lokdef.csvLine_plain here).1,ih later]
    rfl

theorem readLines_csv {table : List Lokdef} (writable : ∀ l ∈ table, l.Writable) (lineNo : Nat) :
    readLines lineNo (table.map Lokdef.csvLine) = .ok (table.map Lokdef.asRead ++ [Lokdef.zeroed]) := by
  induction table generalizing lineNo with
  | nil => rfl
  | cons l rest ih =>
    obtain ⟨here,later⟩ := List.forall_mem_cons.mp writable
    have whole : l.csvLine.takeWhile (· ≠ 0) = l.csvLine := by
      rw [List.takeWhile_eq_self_iff]
      intro c member
      have other : c ≠ 0 := fun same => (Lokdef.csvLine_plain here).2 (same ▸ member)
      simpa using other
    rw [List.map_cons,readLines,whole,Lokdef.readLine_csvLine here,ih later]
    rfl

/-- What was written is read: the table as it was, with nobody driving, and the zeroed record at its
end. -/
theorem readLokdef_csv (table : List Lokdef) (some : table ≠ []) (writable : ∀ l ∈ table, l.Writable) :
    readLokdef (csv table) = .ok (table.map Lokdef.asRead ++ [Lokdef.zeroed]) := by
  have text : csv table ≠ [] := by
    obtain ⟨l,rest,rfl⟩ := List.exists_cons_of_ne_nil some
    simp [csv]
  rw [readLokdef,if_neg text,getlines_csv writable,readLines_csv writable]

def threeFunctions : Lokdef where
  addr := -4711
  flags := F_DEC28
  name := str "Ge 4/4 II (621)"
  imgname := str "ge_4_4_II.png"
  nFunc := 3
  func := (headlight.setIfInBounds 1 { name := str "sPfeife", ison := true }).setIfInBounds 2 { name := [] }

theorem readLokdef_csv_three : readLokdef (csv [threeFunctions]) = .ok [threeFunctions.asRead, .zeroed] := by
  have writable : threeFunctions.Writable := ⟨by decide,by decide,by decide +kernel,by decide +kernel,by decide,
    by decide,by decide +kernel⟩
  exact readLokdef_csv [threeFunctions] (by decide) (by simpa using writable)

end Btcontrol
