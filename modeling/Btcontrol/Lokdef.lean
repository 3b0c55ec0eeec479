import Btcontrol.Layout

/-! `lokdef.h`/`lokdef.cpp`: the loco table, the lookup by address and the reader of
conf/lokdef.csv. The table is the whole array, with the zeroed record at its end; a
loop over it stops at the first record whose address is 0. -/
namespace Btcontrol

open Bytes

def F_DEFAULT : Nat := 0
def F_DEC14 : Nat := 1
def F_DEC28 : Nat := 2

def MAX_NFUNC : Nat := 32

structure Func where
  name : Str := []
  ison : Bool := false
  deriving DecidableEq, Repr

/-- `lokdef_t`. Its reader refuses records with more than `MAX_NFUNC` functions. -/
structure Lokdef where
  addr : Int := 0
  flags : Nat := F_DEFAULT
  name : Str := []
  nFunc : Int := 0
  func : Vector Func MAX_NFUNC := Vector.replicate MAX_NFUNC {}
  currspeed : Int := 0
  currdir : Int := 0
  initDone : Bool := false
  imgname : Str := []
  lastClientID : Int := 0
  nFunc_le : nFunc ≤ MAX_NFUNC := by decide
  deriving DecidableEq, Repr

namespace Lokdef

/-- A zeroed record, as at the end of the table. -/
def zeroed : Lokdef := {}

/-- `func[j].ison` for `j` below `nFunc`. -/
def flagsOn (l : Lokdef) : List Bool := (l.func.toList.take l.nFunc.toNat).map Func.ison

/-- `for(j ...) if(func[j].ison) func |= 1 << j`. -/
def funcBits : Nat → List Bool → BitVec 32 → BitVec 32
  | _, [], func => func
  | j, ison :: rest, func => funcBits (j + 1) rest (if ison then func ||| 1#32 <<< j else func)

def functions (l : Lokdef) : Int := (funcBits 0 l.flagsOn 0#32).toInt

end Lokdef

/-- `while(lokdef[nLokdef].addr) nLokdef++`. -/
def nLokdef : List Lokdef → Nat
  | [] => 0
  | l :: rest => if l.addr = 0 then 0 else nLokdef rest + 1

def locos (lokdef : List Lokdef) : List Lokdef := lokdef.takeWhile (fun l => l.addr ≠ 0)

def getAddrIndex : List Lokdef → Int → Except Err Nat
  | [], addr => .error (.invalidAddress addr)
  | l :: rest, addr =>
    if l.addr = 0 then .error (.invalidAddress addr)
    else if l.addr = addr then .ok 0
    else (getAddrIndex rest addr).map (· + 1)

/-! The reader. A `char *` is the rest of the line it points at. -/

def isspace (c : UInt8) : Bool := c == 32 || (9 ≤ c && c ≤ 13)

def digits : Int → Str → Int
  | value, [] => value
  | value, c :: rest => if 48 ≤ c ∧ c ≤ 57 then digits (value * 10 + (c.toNat - 48)) rest else value

/-- `strtol` stops at the bounds of a `long`; `atoi` keeps its low 32 bits. -/
def toInt (value : Int) : Int := signed32 (pattern32 (max (-2 ^ 63) (min value (2 ^ 63 - 1))))

def atoi (pos : Str) : Int :=
  match pos.dropWhile isspace with
  | 45 :: rest => toInt (-digits 0 rest)
  | 43 :: rest => toInt (digits 0 rest)
  | rest => toInt (digits 0 rest)

def strtrim (s : Str) : Str := (s.reverse.dropWhile isspace).reverse

def str2decodertype (pos : Str) : Nat :=
  if pos.take 7 = str "F_DEC14" then F_DEC14
  else if pos.take 7 = str "F_DEC28" then F_DEC28
  else F_DEFAULT

/-- `strchr(",\r\n", c) == NULL`. -/
def inside (c : UInt8) : Bool := c != 44 && c != 13 && c != 10

/-- `getnext(&pos)`: the next value, or a null `pos` where the line has none. The
returned `pos_end` is where `inside` first fails. -/
def getnext (pos : Str) : Option Str :=
  match pos.dropWhile inside with
  | [] => none
  | _ :: rest => some (rest.dropWhile (fun c => c == 32 || c == 9))

def value (pos : Str) : Str := pos.takeWhile inside

/-- `memmem(pos, funcNameLen, "=1", 2)`. -/
def startsOn : Str → Bool
  | 61 :: 49 :: _ => true
  | _ :: rest => startsOn rest
  | [] => false

/-- The name and start value of one function. -/
def readFunc (text : Str) : Func where
  name := (if startsOn text then text.take (text.length - 2) else text).take 32
  ison := startsOn text

def readFuncs (lineNo : Nat) (nFunc : Int) :
    Nat → Nat → Str → Vector Func MAX_NFUNC → Except Err (Str × Vector Func MAX_NFUNC)
  | 0, _, pos, func => .ok (pos, func)
  | count + 1, i, pos, func => match getnext pos with
    | none => .error (.funcNamesMissing i nFunc)
    | some pos =>
      if (readFunc (value pos)).name.contains 10 then
        .error (.funcNewline lineNo (readFunc (value pos)).name)
      else readFuncs lineNo nFunc count (i + 1) pos (func.setIfInBounds i (readFunc (value pos)))

/-- What one line adds to the table: nothing for a comment or a line without a comma. -/
def readLine (lineNo : Nat) (line : Str) : Except Err (Option Lokdef) := do
  if line.head? = some 35 then return none
  match getnext line with
  | none => return none
  | some flagsPos => match getnext flagsPos with
    -- with a null pos nothing is copied, and the next getnext reads through it
    | none => .error .nullPos
    | some namePos => match getnext namePos with
      | none => .error .nullPos
      | some imgPos => match getnext imgPos with
        | none => .error .nfuncMissing
        | some nFuncPos =>
          if small : atoi nFuncPos + 1 > MAX_NFUNC then .error (.nfuncTooBig lineNo)
          else do
            let nFunc := atoi nFuncPos + 1
            let func0 : Vector Func MAX_NFUNC := Vector.replicate MAX_NFUNC {}
            let (pos, func) ← readFuncs lineNo nFunc (nFunc - 1).toNat 1 nFuncPos
              (func0.setIfInBounds 0 { name := str "lHeadlight", ison := true })
            if pos.dropWhile inside ≠ [] then .error (.tooManyNames lineNo (pos.dropWhile inside))
            else return some {
              addr := atoi line
              flags := str2decodertype flagsPos
              name := strtrim ((value namePos).take 19)
              imgname := strtrim ((value imgPos).take 31)
              nFunc, func
              currdir := 1
              nFunc_le := Int.not_lt.mp small }

/-- `std::getline` until the end of the text. -/
def getlines (line : Str) : Str → List Str
  | [] => if line = [] then [] else [line]
  | c :: rest => if c = 10 then line :: getlines [] rest else getlines (line ++ [c]) rest

/-- The loop over the lines; the list ends with a zeroed record. -/
def readLines (lineNo : Nat) : List Str → Except Err (List Lokdef)
  | [] => .ok [{}]
  | line :: rest => do
    let first ← readLine lineNo (line.takeWhile (· ≠ 0))
    let more ← readLines (lineNo + 1) rest
    return first.toList ++ more

def readLokdef (lokdefCsv : Str) : Except Err (List Lokdef) :=
  if lokdefCsv = [] then .error .lokdefEmpty
  else readLines 1 (getlines [] lokdefCsv)

def twoLocosCsv : Str := str "3,F_DEFAULT,lok3,,0\n4,F_DEFAULT,lok4,,0\n"

def headlight : Vector Func MAX_NFUNC :=
  (Vector.replicate MAX_NFUNC {}).setIfInBounds 0 { name := str "lHeadlight", ison := true }

def twoLocos : List Lokdef :=
  [{ addr := 3, name := str "lok3", nFunc := 1, func := headlight, currdir := 1 },
    { addr := 4, name := str "lok4", nFunc := 1, func := headlight, currdir := 1 }, {}]

theorem readLokdef_twoLocos : readLokdef twoLocosCsv = .ok twoLocos := rfl

/-! What the reader leaves in a record, and where a lookup lands. -/

namespace Lokdef

/-- The loop sets bit `j + k` for the `k`th flag and leaves the other bits. -/
theorem funcBits_getLsbD (flags : List Bool) (j : Nat) (func : BitVec 32) (k : Nat) (bound : k < 32) :
    (funcBits j flags func).getLsbD k =
      (func.getLsbD k || (decide (j ≤ k) && flags[k - j]?.getD false)) := by
  induction flags generalizing j func with
  | nil => simp [funcBits]
  | cons ison rest ih =>
    have one : (1#32 <<< j).getLsbD k = decide (j = k) := by
      rw [← BitVec.twoPow_eq,BitVec.getLsbD_twoPow]
      by_cases same : j = k
      · simp [same,bound]
      · simp [same]
    have first : (if ison then func ||| 1#32 <<< j else func).getLsbD k =
        (func.getLsbD k || (ison && decide (j = k))) := by
      cases ison <;> simp [one]
    rw [funcBits,ih,first,Bool.or_assoc]
    congr 1
    rcases Nat.lt_trichotomy j k with before | rfl | after
    · have later : k - j = (k - (j + 1)) + 1 := by omega
      rw [later,List.getElem?_cons_succ]
      simp [show j ≠ k by omega,show j + 1 ≤ k by omega,show j ≤ k by omega]
    · simp [show ¬(j + 1 ≤ j) by omega]
    · simp [show j ≠ k by omega,show ¬(j + 1 ≤ k) by omega,show ¬(j ≤ k) by omega]

/-- Bit `j` of the functions is `func[j].ison`, up to `nFunc`. -/
theorem functions_bits (l : Lokdef) : ∃ mask : BitVec 32, l.functions = mask.toInt ∧
    ∀ (j : Nat) (bound : j < MAX_NFUNC),
      mask.getLsbD j = (decide ((j : Int) < l.nFunc) && l.func[j].ison) := by
  refine ⟨funcBits 0 l.flagsOn 0#32,rfl,?_⟩
  intro j bound
  have flag : l.flagsOn[j]?.getD false = (decide ((j : Int) < l.nFunc) && l.func[j].ison) := by
    by_cases inside : (j : Int) < l.nFunc
    · have taken : j < l.nFunc.toNat := by omega
      simp [flagsOn,taken,inside,bound]
    · have outside : ¬ j < l.nFunc.toNat := by omega
      simp [flagsOn,outside,inside]
  rw [funcBits_getLsbD _ _ _ _ bound,Nat.sub_zero,flag]
  simp

end Lokdef

/-- A record nobody has driven yet. -/
structure Lokdef.Fresh (l : Lokdef) : Prop where
  currspeed : l.currspeed = 0
  currdir : l.addr ≠ 0 → l.currdir = 1
  initDone : l.initDone = false
  lastClientID : l.lastClientID = 0

/-- A line that is read adds nothing, or has the first five values and its function names. -/
theorem readLine_cases {lineNo : Nat} {line : Str} {record : Option Lokdef} (read : readLine lineNo line = .ok record) :
    (record = none ∧ (line.head? = some 35 ∨ getnext line = none)) ∨
    ∃ flagsPos namePos imgPos nFuncPos pos l, line.head? ≠ some 35 ∧ getnext line = some flagsPos ∧
      getnext flagsPos = some namePos ∧ getnext namePos = some imgPos ∧ getnext imgPos = some nFuncPos ∧
      ¬ atoi nFuncPos + 1 > MAX_NFUNC ∧ readFuncs lineNo (atoi nFuncPos + 1) (atoi nFuncPos).toNat 1 nFuncPos
        ((Vector.replicate MAX_NFUNC {}).setIfInBounds 0 { name := str "lHeadlight", ison := true }) = .ok (pos, l.func) ∧
      record = some l ∧ l.Fresh ∧ l.addr = atoi line ∧ l.name = strtrim ((value namePos).take 19) ∧
      l.imgname = strtrim ((value imgPos).take 31) := by
  simp only [readLine] at read
  split at read
  · rename_i comment
    cases read
    exact .inl ⟨rfl,.inl comment⟩
  rename_i code
  split at read
  · rename_i flags
    cases read
    exact .inl ⟨rfl,.inr flags⟩
  rename_i flagsPos flags
  split at read
  · cases read
  rename_i namePos name
  split at read
  · cases read
  rename_i imgPos img
  split at read
  · cases read
  rename_i nFuncPos number
  split at read
  · cases read
  rename_i small
  rw [Int.add_sub_cancel] at read
  cases named : readFuncs lineNo (atoi nFuncPos + 1) (atoi nFuncPos).toNat 1 nFuncPos
      ((Vector.replicate MAX_NFUNC {}).setIfInBounds 0 { name := str "lHeadlight", ison := true }) with
  | error e => simp only [named,bind,Except.bind,reduceCtorEq] at read
  | ok pair =>
    simp only [named,bind,Except.bind] at read
    split at read
    · cases read
    · cases read
      exact .inr ⟨flagsPos,namePos,imgPos,nFuncPos,pair.1,_,code,flags,name,img,number,small,named,rfl,
        ⟨rfl,fun _ => rfl,rfl,rfl⟩,rfl,rfl,rfl⟩

theorem readLine_record (lineNo : Nat) (line : Str) (l : Lokdef) (read : readLine lineNo line = .ok (some l)) :
    l.Fresh ∧ l.addr = atoi line ∧ ∃ nFunc count pos pos' func,
      readFuncs lineNo nFunc count 1 pos ((Vector.replicate MAX_NFUNC {}).setIfInBounds 0
        { name := str "lHeadlight", ison := true }) = .ok (pos', func) ∧ l.func = func := by
  rcases readLine_cases read with ⟨none,_⟩ | ⟨_,_,_,_,_,l,_,_,_,_,_,_,named,here,fresh,addr,_,_⟩
  · cases none
  · cases here
    exact ⟨fresh,addr,_,_,_,_,_,named,rfl⟩

/-- The lines are read one after the other. -/
theorem readLines_cons {lineNo : Nat} {line : Str} {rest : List Str} {lokdef : List Lokdef}
    (read : readLines lineNo (line :: rest) = .ok lokdef) : ∃ record others,
      readLine lineNo (line.takeWhile (· ≠ 0)) = .ok record ∧ readLines (lineNo + 1) rest = .ok others ∧
      lokdef = record.toList ++ others := by
  simp only [readLines] at read
  cases first : readLine lineNo (line.takeWhile (· ≠ 0)) with
  | error e => simp only [first,bind,Except.bind,reduceCtorEq] at read
  | ok record =>
    cases more : readLines (lineNo + 1) rest with
    | error e => simp only [first,more,bind,Except.bind,reduceCtorEq] at read
    | ok others =>
      simp only [first,more,bind,Except.bind,pure,Except.pure,Except.ok.injEq] at read
      exact ⟨record,others,rfl,rfl,read.symm⟩

/-- An empty file is refused. -/
theorem readLokdef_lines {lokdefCsv : Str} {lokdef : List Lokdef} (read : readLokdef lokdefCsv = .ok lokdef) :
    readLines 1 (getlines [] lokdefCsv) = .ok lokdef := by
  unfold readLokdef at read
  split at read
  · cases read
  · exact read

/-- What holds of the record of every line, and of the zeroed one, holds of the table. -/
theorem readLines_all {property : Lokdef → Prop} (zeroed : property {})
    (line : ∀ lineNo line l, readLine lineNo line = .ok (some l) → property l)
    (lineNo : Nat) (lines : List Str) (lokdef : List Lokdef)
    (read : readLines lineNo lines = .ok lokdef) : ∀ l ∈ lokdef, property l := by
  induction lines generalizing lineNo lokdef with
  | nil =>
    cases read
    intro l member
    rw [List.mem_singleton] at member
    subst l
    exact zeroed
  | cons text rest ih =>
    obtain ⟨record,others,first,more,rfl⟩ := readLines_cons read
    intro l member
    rcases List.mem_append.mp member with here | later
    · rw [Option.mem_toList] at here
      rw [here] at first
      exact line _ _ _ first
    · exact ih _ _ more l later

theorem readLokdef_all {property : Lokdef → Prop} (zeroed : property {})
    (line : ∀ lineNo line l, readLine lineNo line = .ok (some l) → property l) (lokdefCsv : Str)
    (lokdef : List Lokdef) (read : readLokdef lokdefCsv = .ok lokdef) : ∀ l ∈ lokdef, property l :=
  readLines_all zeroed line _ _ _ (readLokdef_lines read)

theorem readLokdef_fresh (lokdefCsv : Str) (lokdef : List Lokdef)
    (read : readLokdef lokdefCsv = .ok lokdef) : ∀ l ∈ lokdef, l.Fresh :=
  readLokdef_all ⟨rfl,fun addr => absurd rfl addr,rfl,rfl⟩
    (fun lineNo line l here => (readLine_record lineNo line l here).1) lokdefCsv lokdef read

/-- The address is an `int`, and every function has a name of at most 32 characters. -/
structure Lokdef.Legible (l : Lokdef) : Prop where
  addr : Fits32 l.addr
  names : ∀ name ∈ (l.func.map Func.name).toList, name.length ≤ 32

theorem atoi_fits (pos : Str) : Fits32 (atoi pos) := by
  have bounded (value : Int) : Fits32 (toInt value) := by
    apply signed32_fits
    exact pattern32_lt _
  simp only [atoi]
  split <;> exact bounded _

theorem names_setIfInBounds {func : Vector Func MAX_NFUNC} {i : Nat} {f : Func}
    (names : ∀ name ∈ (func.map Func.name).toList, name.length ≤ 32) (short : f.name.length ≤ 32) :
    ∀ name ∈ ((func.setIfInBounds i f).map Func.name).toList, name.length ≤ 32 := by
  intro name member
  simp only [Vector.toList_map,Vector.toList_setIfInBounds,List.mem_map] at member names
  obtain ⟨g,there,rfl⟩ := member
  rcases List.mem_or_eq_of_mem_set there with old | rfl
  · exact names _ ⟨g,old,rfl⟩
  · exact short

theorem readFuncs_names (lineNo : Nat) (nFunc : Int) (count i : Nat) (pos pos' : Str)
    (func func' : Vector Func MAX_NFUNC) (names : ∀ name ∈ (func.map Func.name).toList, name.length ≤ 32)
    (read : readFuncs lineNo nFunc count i pos func = .ok (pos', func')) :
    ∀ name ∈ (func'.map Func.name).toList, name.length ≤ 32 := by
  induction count generalizing i pos func with
  | zero =>
    cases read
    exact names
  | succ count ih =>
    simp only [readFuncs] at read
    split at read
    · cases read
    · split at read
      · cases read
      · exact ih _ _ _ (names_setIfInBounds names (List.length_take_le ..)) read

theorem readLokdef_legible (lokdefCsv : Str) (lokdef : List Lokdef)
    (read : readLokdef lokdefCsv = .ok lokdef) : ∀ l ∈ lokdef, l.Legible := by
  have none : ∀ name ∈ ((Vector.replicate MAX_NFUNC ({} : Func)).map Func.name).toList, name.length ≤ 32 := by
    intro name member
    simp only [Vector.map_replicate,Vector.toList_replicate] at member
    rw [List.eq_of_mem_replicate member]
    exact Nat.zero_le _
  refine readLokdef_all ⟨by decide,none⟩ ?_ lokdefCsv lokdef read
  intro lineNo line l here
  obtain ⟨_,addr,nFunc,count,pos,pos',func,named,same⟩ := readLine_record lineNo line l here
  refine ⟨addr ▸ atoi_fits line,same ▸ ?_⟩
  exact readFuncs_names lineNo nFunc count 1 pos pos' _ func (names_setIfInBounds none (by decide)) named

/-- A lookup lands on the first record of that address, before the end of the list. -/
theorem getAddrIndex_located {lokdef : List Lokdef} {addr : Int} {i : Nat}
    (found : getAddrIndex lokdef addr = .ok i) :
    addr ≠ 0 ∧ i < nLokdef lokdef ∧ ∃ l, lokdef[i]? = some l ∧ l.addr = addr := by
  induction lokdef generalizing i with
  | nil => cases found
  | cons l rest ih =>
    simp only [getAddrIndex] at found
    split at found
    · cases found
    · rename_i used
      split at found
      · rename_i same
        cases found
        refine ⟨same ▸ used,?_,l,rfl,same⟩
        simp only [nLokdef,used,↓reduceIte]
        omega
      · cases later : getAddrIndex rest addr with
        | error e => simp only [later,Except.map,reduceCtorEq] at found
        | ok j =>
          simp only [later,Except.map,Except.ok.injEq] at found
          subst i
          obtain ⟨nonzero,bound,record⟩ := ih later
          refine ⟨nonzero,?_,by simpa using record⟩
          simp only [nLokdef,used,↓reduceIte]
          omega

/-- The position is the one lookups of its address land on. -/
def First (lokdef : List Lokdef) (i : Nat) : Prop :=
  ∃ l, lokdef[i]? = some l ∧ getAddrIndex lokdef l.addr = .ok i

/-- Every loco of the list is found at, or before, its own position. -/
theorem getAddrIndex_found {lokdef : List Lokdef} {j : Nat} {l : Lokdef}
    (bound : j < nLokdef lokdef) (record : lokdef[j]? = some l) :
    ∃ i, getAddrIndex lokdef l.addr = .ok i := by
  induction lokdef generalizing j with
  | nil => cases record
  | cons first rest ih =>
    simp only [nLokdef] at bound
    split at bound
    · omega
    · rename_i used
      simp only [getAddrIndex,used,↓reduceIte]
      by_cases same : first.addr = l.addr
      · exact ⟨0,by simp only [same,↓reduceIte]⟩
      · cases j with
        | zero =>
          cases record
          exact absurd rfl same
        | succ j =>
          obtain ⟨i,found⟩ := ih (j := j) (by omega) (by simpa using record)
          exact ⟨i + 1,by simp only [same,↓reduceIte,found,Except.map]⟩

/-- The induction over two tables with the same addresses. -/
@[elab_as_elim] theorem sameAddrs_induction {motive : List Lokdef → List Lokdef → Prop} (nil : motive [] [])
    (cons : ∀ l rest l' rest', l'.addr = l.addr → motive rest rest' → motive (l :: rest) (l' :: rest'))
    {lokdef lokdef' : List Lokdef} (same : lokdef'.map Lokdef.addr = lokdef.map Lokdef.addr) :
    motive lokdef lokdef' := by
  induction lokdef generalizing lokdef' with
  | nil =>
    rw [List.map_nil,List.map_eq_nil_iff] at same
    rw [same]
    exact nil
  | cons l rest ih =>
    cases lokdef' with
    | nil => cases same
    | cons l' rest' =>
      obtain ⟨addr,later⟩ := List.cons.inj same
      exact cons l rest l' rest' addr (ih later)

/-- Lookups read the addresses only. -/
theorem getAddrIndex_congr {lokdef lokdef' : List Lokdef}
    (same : lokdef'.map Lokdef.addr = lokdef.map Lokdef.addr) (addr : Int) :
    getAddrIndex lokdef' addr = getAddrIndex lokdef addr := by
  refine sameAddrs_induction rfl ?_ same
  intro l rest l' rest' addr ih
  simp only [getAddrIndex,addr,ih]

theorem locos_cons {l : Lokdef} (used : l.addr ≠ 0) (rest : List Lokdef) :
    locos (l :: rest) = l :: locos rest := by
  simp [locos,used]

theorem locos_end {l : Lokdef} (stop : l.addr = 0) (rest : List Lokdef) : locos (l :: rest) = [] := by
  simp [locos,stop]

theorem locos_addrs_congr {lokdef lokdef' : List Lokdef}
    (same : lokdef'.map Lokdef.addr = lokdef.map Lokdef.addr) :
    (locos lokdef').map Lokdef.addr = (locos lokdef).map Lokdef.addr := by
  refine sameAddrs_induction rfl ?_ same
  intro l rest l' rest' addr ih
  by_cases stop : l.addr = 0
  · rw [locos_end stop,locos_end (addr.trans stop)]
  · rw [locos_cons stop,locos_cons (addr ▸ stop),List.map_cons,List.map_cons,addr,ih]

theorem nLokdef_congr {lokdef lokdef' : List Lokdef}
    (same : lokdef'.map Lokdef.addr = lokdef.map Lokdef.addr) : nLokdef lokdef' = nLokdef lokdef := by
  refine sameAddrs_induction rfl ?_ same
  intro l rest l' rest' addr ih
  simp only [nLokdef,addr,ih]

theorem nLokdef_le (lokdef : List Lokdef) : nLokdef lokdef ≤ lokdef.length := by
  induction lokdef with
  | nil => exact Nat.le_refl 0
  | cons l rest ih =>
    simp only [nLokdef,List.length_cons]
    split <;> omega

/-- Tables with the same addresses have their records at the same positions. -/
theorem record_congr {lokdef lokdef' : List Lokdef}
    (same : lokdef'.map Lokdef.addr = lokdef.map Lokdef.addr) {i : Nat} {l : Lokdef}
    (record : lokdef[i]? = some l) : ∃ l', lokdef'[i]? = some l' ∧ l'.addr = l.addr := by
  have column := congrArg (fun addrs => addrs[i]?) same
  simpa only [List.getElem?_map,record,Option.map_some,Option.map_eq_some_iff] using column

theorem first_congr {lokdef lokdef' : List Lokdef}
    (same : lokdef'.map Lokdef.addr = lokdef.map Lokdef.addr) {i : Nat} (first : First lokdef i) :
    First lokdef' i := by
  obtain ⟨l,record,found⟩ := first
  obtain ⟨l',record',addr⟩ := record_congr same record
  exact ⟨l',record',by rw [getAddrIndex_congr same,addr]; exact found⟩

/-- Two positions lookups land on hold different addresses. -/
theorem first_unique {lokdef : List Lokdef} {i j : Nat} {l m : Lokdef} (first : First lokdef i)
    (other : First lokdef j) (here : lokdef[i]? = some l) (there : lokdef[j]? = some m)
    (same : l.addr = m.addr) : i = j := by
  obtain ⟨l',record,found⟩ := first
  obtain ⟨m',record',found'⟩ := other
  rw [here] at record
  rw [there] at record'
  cases record
  cases record'
  rw [same,found'] at found
  exact (Except.ok.inj found).symm

end Btcontrol
