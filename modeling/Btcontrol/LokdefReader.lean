import Btcontrol.Lokdef

/-! What conf/lokdef.csv may hold. `getnext` gives a null position at the end of a line, and only the
positions from the number of functions on are checked; a name of a function may fill its array. -/
namespace Btcontrol

def separators (line : Str) : Nat := line.countP (fun c => !inside c)

theorem separators_inside {text : Str} (all : ∀ c ∈ text, inside c = true) (rest : Str) :
    separators (text ++ rest) = separators rest := by
  unfold separators
  rw [List.countP_append,List.countP_eq_zero.mpr,Nat.zero_add]
  intro c member
  simp [all c member]

theorem separators_skipped (pos : Str) : separators pos = separators (pos.dropWhile inside) := by
  have parts := List.takeWhile_append_dropWhile (p := inside) (l := pos)
  conv_lhs => rw [← parts]
  exact separators_inside (fun c member => List.mem_takeWhile_imp member) _

theorem separators_last {pos : Str} (last : getnext pos = none) : separators pos = 0 := by
  rw [separators_skipped]
  unfold getnext at last
  split at last
  · rename_i rest
    rw [rest]
    rfl
  · cases last

/-- A line has as many next values as separators. -/
theorem separators_next {pos next : Str} (read : getnext pos = some next) : separators pos = separators next + 1 := by
  rw [separators_skipped]
  unfold getnext at read
  split at read
  · cases read
  · rename_i c behind rest
    cases read
    have first := List.head?_dropWhile_not inside pos
    rw [rest] at first
    have stop : inside c = false := by simpa using first
    have blanks := List.takeWhile_append_dropWhile (p := fun c : UInt8 => c == 32 || c == 9) (l := behind)
    have skipped : separators behind = separators (behind.dropWhile (fun c => c == 32 || c == 9)) := by
      conv_lhs => rw [← blanks]
      apply separators_inside
      intro c member
      have blank := List.mem_takeWhile_imp member
      simp only [Bool.or_eq_true,beq_iff_eq] at blank
      rcases blank with rfl | rfl <;> rfl
    rw [rest,← skipped]
    simp [separators,stop]

/-- The position `k` values on. -/
def ahead : Nat → Str → Option Str
  | 0, pos => some pos
  | k + 1, pos => (getnext pos).bind (ahead k)

theorem ahead_separators (k : Nat) (pos : Str) :
    match ahead k pos with
    | none => separators pos < k
    | some next => separators pos = separators next + k := by
  induction k generalizing pos with
  | zero => rfl
  | succ k ih =>
    simp only [ahead]
    cases read : getnext pos with
    | none =>
      have none := separators_last read
      simp only [Option.bind_none]
      omega
    | some next =>
      have one := separators_next read
      have later := ih next
      simp only [Option.bind_some]
      cases there : ahead k next with
      | none =>
        rw [there] at later
        simp only at later ⊢
        omega
      | some last =>
        rw [there] at later
        simp only at later ⊢
        omega

def nameLength (text : Str) : Nat := if startsOn text then text.length - 2 else text.length

theorem readFunc_length (text : Str) : (readFunc text).name.length = min 32 (nameLength text) := by
  simp only [readFunc,nameLength,List.length_take]
  split
  · rw [List.length_take]
    omega
  · rfl

/-- There is no line end between the separators. -/
theorem readFunc_newline (pos : Str) : (readFunc (value pos)).name.contains 10 = false := by
  have name (c : UInt8) (member : c ∈ (readFunc (value pos)).name) : c ∈ value pos := by
    simp only [readFunc] at member
    have member := List.mem_of_mem_take member
    split at member
    · exact List.mem_of_mem_take member
    · exact member
  rw [List.contains_eq_any_beq,List.any_eq_false]
  intro c member
  have within := List.mem_takeWhile_imp (name c member)
  simp only [beq_iff_eq]
  rintro rfl
  exact absurd within (by decide)

/-- The loop over the function names needs as many values. -/
theorem readFuncs_ahead (lineNo : Nat) (nFunc : Int) (count i : Nat) (pos : Str) (func : Vector Func MAX_NFUNC) :
    match ahead count pos with
    | none => ∃ missing, readFuncs lineNo nFunc count i pos func = .error (.funcNamesMissing missing nFunc)
    | some last => ∃ func', readFuncs lineNo nFunc count i pos func = .ok (last, func') := by
  induction count generalizing i pos func with
  | zero => exact ⟨func,rfl⟩
  | succ count ih =>
    simp only [readFuncs,ahead]
    cases getnext pos with
    | none => exact ⟨i,rfl⟩
    | some next =>
      simp only [Option.bind_some,readFunc_newline,Bool.false_eq_true,↓reduceIte]
      exact ih (i + 1) next _

/-- A line the reader goes on behind: a comment, a line without values, or one with as many function names as it
says. -/
def complete (line : Str) : Bool :=
  line.head? == some 35 || separators line == 0 || (ahead 4 line).any (fun nFuncPos =>
    decide (atoi nFuncPos + 1 ≤ MAX_NFUNC) && separators nFuncPos == (atoi nFuncPos).toNat)

theorem dropWhile_separators (pos : Str) : pos.dropWhile inside = [] ↔ separators pos = 0 := by
  simp [separators,List.dropWhile_eq_nil_iff,List.countP_eq_zero]

/-- The number of functions and what is behind it. -/
theorem readLine_functions (lineNo : Nat) {line flagsPos namePos imgPos nFuncPos : Str} (code : line.head? ≠ some 35)
    (flags : getnext line = some flagsPos) (name : getnext flagsPos = some namePos)
    (img : getnext namePos = some imgPos) (number : getnext imgPos = some nFuncPos) :
    readLine lineNo line ≠ .error .nullPos ∧ ((∃ record, readLine lineNo line = .ok record) ↔
      atoi nFuncPos + 1 ≤ MAX_NFUNC ∧ separators nFuncPos = (atoi nFuncPos).toNat) := by
  have names := readFuncs_ahead lineNo (atoi nFuncPos + 1) (atoi nFuncPos).toNat 1 nFuncPos
    ((Vector.replicate MAX_NFUNC {}).setIfInBounds 0 { name := str "lHeadlight", ison := true })
  have counted := ahead_separators (atoi nFuncPos).toNat nFuncPos
  simp only [readLine,code,flags,name,img,number,↓reduceIte]
  by_cases big : atoi nFuncPos + 1 > MAX_NFUNC
  · rw [dif_pos big]
    simp [Int.not_le.mpr big]
  rw [dif_neg big,Int.add_sub_cancel]
  cases last : ahead (atoi nFuncPos).toNat nFuncPos with
  | none =>
    rw [last] at names counted
    obtain ⟨missing,failed⟩ := names
    simp only at counted
    simp only [failed,bind,Except.bind,ne_eq,Except.error.injEq,reduceCtorEq,not_false_eq_true,exists_false,false_iff,
      true_and]
    omega
  | some pos =>
    rw [last] at names counted
    obtain ⟨func,read⟩ := names
    simp only at counted
    simp only [read,bind,Except.bind]
    by_cases more : pos.dropWhile inside = []
    · have none := (dropWhile_separators pos).mp more
      simp only [more,ne_eq,not_true_eq_false,↓reduceIte,pure,Except.pure,reduceCtorEq,not_false_eq_true,true_and,
        Except.ok.injEq,exists_eq',true_iff]
      omega
    · have some := mt (dropWhile_separators pos).mpr more
      simp only [more,ne_eq,not_false_eq_true,↓reduceIte,Except.error.injEq,reduceCtorEq,exists_false,false_iff,true_and]
      omega

/-- How a line ends: a null position is read through in the lines with one or two separators, and the reader goes on
behind the complete ones. -/
theorem readLine_ends (lineNo : Nat) (line : Str) :
    (readLine lineNo line = .error .nullPos ↔
      line.head? ≠ some 35 ∧ (separators line = 1 ∨ separators line = 2)) ∧
    ((∃ record, readLine lineNo line = .ok record) ↔ complete line = true) := by
  by_cases comment : line.head? = some 35
  · simp [readLine,complete,comment,pure,Except.pure]
  cases flags : getnext line with
  | none =>
    have first := separators_last flags
    simp [readLine,complete,comment,flags,first,pure,Except.pure]
  | some flagsPos =>
    have first := separators_next flags
    cases name : getnext flagsPos with
    | none =>
      have second := separators_last name
      simp [readLine,complete,comment,flags,name,first,second,ahead]
    | some namePos =>
      have second := separators_next name
      cases img : getnext namePos with
      | none =>
        have third := separators_last img
        simp [readLine,complete,comment,flags,name,img,first,second,third,ahead]
      | some imgPos =>
        have third := separators_next img
        cases number : getnext imgPos with
        | none =>
          have fourth := separators_last number
          simp [readLine,complete,comment,flags,name,img,number,first,second,third,fourth,ahead]
        | some nFuncPos =>
          have fourth := separators_next number
          obtain ⟨alive,read⟩ := readLine_functions lineNo comment flags name img number
          constructor
          · simp only [alive,false_iff,not_and]
            omega
          · rw [read]
            simp [complete,comment,flags,name,img,number,ahead,show separators line ≠ 0 by omega]

/-! ### What is stored -/

/-- The names the loop over the functions stores, with the sizes of their arrays, also of a line it then refuses. -/
def storedFuncs : Nat → Str → List (Str × Nat)
  | 0, _ => []
  | count + 1, pos => match getnext pos with
    | none => []
    | some pos => ((readFunc (value pos)).name, 32) ::
      if (readFunc (value pos)).name.contains 10 then [] else storedFuncs count pos

def stored (line : Str) : List (Str × Nat) :=
  if line.head? = some 35 then []
  else match (getnext line).bind getnext with
    | none => []
    | some namePos => (strtrim ((value namePos).take 19), 20) :: match getnext namePos with
      | none => []
      | some imgPos => (strtrim ((value imgPos).take 31), 32) :: match getnext imgPos with
        | none => []
        | some nFuncPos =>
          if atoi nFuncPos + 1 > MAX_NFUNC then []
          else (str "lHeadlight", 32) :: storedFuncs (atoi nFuncPos).toNat nFuncPos

/-- A text with its NUL in the array. -/
def Terminated (entry : Str × Nat) : Prop := entry.1.length < entry.2

instance (entry : Str × Nat) : Decidable (Terminated entry) := inferInstanceAs (Decidable (_ < _))

/-- The lines read: none behind the first one that is refused. -/
def reached : List Str → List Str
  | [] => []
  | line :: rest => line :: if complete line then reached rest else []

/-- The lines of the file, each up to a NUL. -/
def linesOf (lokdefCsv : Str) : List Str := (getlines [] lokdefCsv).map (fun line => line.takeWhile (· ≠ 0))

/-- No null position is read through, and every text ends inside its array: while the file is read, and in the table. -/
structure Survives (lokdefCsv : Str) : Prop where
  positions : readLokdef lokdefCsv ≠ .error .nullPos
  texts : ∀ line ∈ reached (linesOf lokdefCsv), ∀ entry ∈ stored line, Terminated entry
  table : ∀ lokdef, readLokdef lokdefCsv = .ok lokdef → ∀ l ∈ lokdef,
    l.name.length < 20 ∧ l.imgname.length < 32 ∧ ∀ f ∈ l.func.toList, f.name.length < 32

/-- Every function name the line has, up to the number of functions, has room for its NUL. -/
def ShortNames (line : Str) : Prop := ∀ nFuncPos, ahead 4 line = some nFuncPos → atoi nFuncPos + 1 ≤ MAX_NFUNC →
  ∀ (i : Nat) pos, 1 ≤ i → i ≤ atoi nFuncPos → ahead i nFuncPos = some pos → nameLength (value pos) < 32

theorem mem_storedFuncs (count : Nat) (pos : Str) (entry : Str × Nat) : entry ∈ storedFuncs count pos ↔
    ∃ i pos', 1 ≤ i ∧ i ≤ count ∧ ahead i pos = some pos' ∧ entry = ((readFunc (value pos')).name, 32) := by
  induction count generalizing pos with
  | zero =>
    simp only [storedFuncs,List.not_mem_nil,false_iff,not_exists]
    intro i pos' one
    omega
  | succ count ih =>
    simp only [storedFuncs]
    cases next : getnext pos with
    | none =>
      simp only [List.not_mem_nil,false_iff,not_exists]
      rintro (_ | i) pos' ⟨one,_,there,_⟩
      · omega
      · simp [ahead,next] at there
    | some pos1 =>
      simp only [readFunc_newline,Bool.false_eq_true,↓reduceIte,List.mem_cons,ih]
      constructor
      · rintro (rfl | ⟨i,pos',one,bound,there,rfl⟩)
        · exact ⟨1,pos1,by omega,by omega,by simp [ahead,next],rfl⟩
        · exact ⟨i + 1,pos',by omega,by omega,by simp [ahead,next,there],rfl⟩
      · rintro ⟨_ | _ | i,pos',one,bound,there,rfl⟩
        · omega
        · simp only [ahead,next,Option.bind_some,Option.some.injEq] at there
          exact .inl (by rw [there])
        · simp only [ahead,next,Option.bind_some] at there
          exact .inr ⟨i + 1,pos',by omega,by omega,there,rfl⟩

theorem strtrim_length (s : Str) : (strtrim s).length ≤ s.length := by
  have dropped := (List.dropWhile_sublist (p := isspace) (l := s.reverse)).length_le
  simpa [strtrim] using dropped

theorem trimmed_length (text : Str) (size : Nat) : (strtrim (text.take size)).length ≤ size :=
  (strtrim_length _).trans (List.length_take_le size text)

/-- A line stores a text without its NUL where a function name fills its array, and nowhere else. -/
theorem stored_terminated (line : Str) : (∀ entry ∈ stored line, Terminated entry) ↔
    line.head? = some 35 ∨ ShortNames line := by
  by_cases comment : line.head? = some 35
  · simp [stored,comment]
  simp only [stored,comment,↓reduceIte,false_or]
  have unread (missing : ahead 4 line = none) : ShortNames line := by
    intro nFuncPos number
    rw [missing] at number
    cases number
  have name (pos : Str) : Terminated (strtrim ((value pos).take 19), 20) := Nat.lt_succ_of_le (trimmed_length _ 19)
  have img (pos : Str) : Terminated (strtrim ((value pos).take 31), 32) := Nat.lt_succ_of_le (trimmed_length _ 31)
  have four : ahead 4 line = (((getnext line).bind getnext).bind getnext).bind getnext := by
    simp [ahead,Option.bind_assoc]
  cases named : (getnext line).bind getnext with
  | none =>
    rw [named] at four
    simp [unread four]
  | some namePos =>
    rw [named,Option.bind_some] at four
    cases pictured : getnext namePos with
    | none =>
      rw [pictured] at four
      simp [unread four,name,pictured]
    | some imgPos =>
      rw [pictured,Option.bind_some] at four
      cases number : getnext imgPos with
      | none =>
        rw [number] at four
        simp [unread four,name,img,pictured,number]
      | some nFuncPos =>
        rw [number] at four
        simp only [pictured,number,List.forall_mem_cons,name,img,true_and]
        by_cases big : atoi nFuncPos + 1 > MAX_NFUNC
        · simp only [big,↓reduceIte,List.not_mem_nil,false_implies,implies_true,true_iff]
          intro pos same small
          rw [four] at same
          cases same
          exact absurd small (Int.not_le.mpr big)
        · simp only [big,↓reduceIte,List.forall_mem_cons,mem_storedFuncs]
          constructor
          · rintro ⟨_,functions⟩ pos same small i pos' one bound there
            rw [four] at same
            cases same
            have short := functions _ ⟨i,pos',one,by omega,there,rfl⟩
            simp only [Terminated,readFunc_length] at short
            omega
          · intro short
            constructor
            · decide
            · rintro entry ⟨i,pos',one,bound,there,rfl⟩
              have room := short nFuncPos four (by omega) i pos' one (by omega) there
              simp only [Terminated,readFunc_length]
              omega

/-! ### Whole files -/

theorem readFuncs_stored {lineNo : Nat} {nFunc : Int} {count i : Nat} {pos pos' : Str}
    {func func' : Vector Func MAX_NFUNC} (read : readFuncs lineNo nFunc count i pos func = .ok (pos', func')) :
    ∀ f ∈ func'.toList, f ∈ func.toList ∨ (f.name, 32) ∈ storedFuncs count pos := by
  induction count generalizing i pos func with
  | zero =>
    cases read
    intro f member
    exact .inl member
  | succ count ih =>
    simp only [readFuncs] at read
    simp only [storedFuncs]
    cases next : getnext pos with
    | none =>
      rw [next] at read
      cases read
    | some there =>
      simp only [next,readFunc_newline,Bool.false_eq_true,↓reduceIte] at read ⊢
      intro f member
      rcases ih read f member with old | later
      · rw [Vector.toList_setIfInBounds] at old
        rcases List.mem_or_eq_of_mem_set old with before | rfl
        · exact .inl before
        · exact .inr (List.mem_cons_self ..)
      · exact .inr (List.mem_cons_of_mem _ later)

/-- The names of a record are those its line has stored. -/
theorem readLine_stored {lineNo : Nat} {line : Str} {l : Lokdef} (read : readLine lineNo line = .ok (some l)) :
    (l.name, 20) ∈ stored line ∧ (l.imgname, 32) ∈ stored line ∧
      ∀ f ∈ l.func.toList, f.name = [] ∨ (f.name, 32) ∈ stored line := by
  rcases readLine_cases read with ⟨none,_⟩ |
    ⟨flagsPos,namePos,imgPos,nFuncPos,pos,l,code,flags,name,img,number,small,named,here,_,_,nameRead,imgRead⟩
  · cases none
  cases here
  simp only [stored,code,flags,name,img,number,small,↓reduceIte,Option.bind_some,nameRead,imgRead]
  constructor
  · simp
  constructor
  · simp
  · intro f member
    rcases readFuncs_stored named f member with old | later
    · rw [Vector.toList_setIfInBounds,Vector.toList_replicate] at old
      rcases List.mem_or_eq_of_mem_set old with blank | rfl
      · rw [List.eq_of_mem_replicate blank]
        exact .inl rfl
      · simp
    · simp [later]

/-- Every record of a table comes from a line that was read. -/
theorem readLines_lines {lineNo : Nat} {lines : List Str} {lokdef : List Lokdef}
    (read : readLines lineNo lines = .ok lokdef) : ∀ l ∈ lokdef, l = {} ∨
      ∃ no, ∃ line ∈ reached (lines.map (fun line => line.takeWhile (· ≠ 0))), readLine no line = .ok (some l) := by
  induction lines generalizing lineNo lokdef with
  | nil =>
    cases read
    intro l member
    exact .inl (List.mem_singleton.mp member)
  | cons line rest ih =>
    obtain ⟨record,others,first,more,rfl⟩ := readLines_cons read
    have whole := (readLine_ends lineNo (line.takeWhile (· ≠ 0))).2.mp ⟨record,first⟩
    simp only [List.map_cons,reached,whole,↓reduceIte]
    intro l member
    rcases List.mem_append.mp member with here | later
    · rw [Option.mem_toList] at here
      rw [here] at first
      exact .inr ⟨lineNo,_,List.mem_cons_self ..,first⟩
    · rcases ih more l later with zeroed | ⟨no,text,there,record⟩
      · exact .inl zeroed
      · exact .inr ⟨no,text,List.mem_cons_of_mem _ there,record⟩

/-- A null position is read through in the first line with one or two separators, where one is reached. -/
theorem readLines_null (lineNo : Nat) (lines : List Str) : readLines lineNo lines ≠ .error .nullPos ↔
    ∀ line ∈ reached (lines.map (fun line => line.takeWhile (· ≠ 0))),
      line.head? = some 35 ∨ separators line ≠ 1 ∧ separators line ≠ 2 := by
  induction lines generalizing lineNo with
  | nil => simp [readLines,reached]
  | cons line rest ih =>
    obtain ⟨null,accepts⟩ := readLine_ends lineNo (line.takeWhile (· ≠ 0))
    simp only [readLines,List.map_cons,reached,List.forall_mem_cons]
    have here : readLine lineNo (line.takeWhile (· ≠ 0)) ≠ .error .nullPos ↔
        (line.takeWhile (· ≠ 0)).head? = some 35 ∨
          separators (line.takeWhile (· ≠ 0)) ≠ 1 ∧ separators (line.takeWhile (· ≠ 0)) ≠ 2 := by
      rw [ne_eq,null]
      tauto
    rw [← here]
    cases first : readLine lineNo (line.takeWhile (· ≠ 0)) with
    | error e =>
      have refused : complete (line.takeWhile (· ≠ 0)) = false := by
        rw [first] at accepts
        simpa only [reduceCtorEq,exists_false,false_iff,Bool.not_eq_true] using accepts
      simp only [refused,bind,Except.bind,Bool.false_eq_true,↓reduceIte,List.not_mem_nil,false_implies,implies_true,
        and_true,ne_eq,Except.error.injEq]
    | ok record =>
      have whole := accepts.mp ⟨record,first⟩
      simp only [whole,↓reduceIte,← ih (lineNo + 1)]
      cases readLines (lineNo + 1) rest <;> simp [bind,Except.bind,pure,Except.pure]

/-- The reader survives a file iff every line it reads is a comment, or has neither one nor two separators and its
function names have room for their NUL. -/
theorem readLokdef_survives (lokdefCsv : Str) : Survives lokdefCsv ↔
    ∀ line ∈ reached (linesOf lokdefCsv), line.head? = some 35 ∨
      separators line ≠ 1 ∧ separators line ≠ 2 ∧ ShortNames line := by
  have null : readLokdef lokdefCsv ≠ .error .nullPos ↔ ∀ line ∈ reached (linesOf lokdefCsv),
      line.head? = some 35 ∨ separators line ≠ 1 ∧ separators line ≠ 2 := by
    rw [linesOf,← readLines_null 1]
    unfold readLokdef
    split
    · rename_i empty
      simp [empty,getlines,readLines]
    · rfl
  constructor
  · intro survives line read
    have texts := (stored_terminated line).mp (survives.texts line read)
    have positions := null.mp survives.positions line read
    tauto
  · intro sound
    have texts (line : Str) (read : line ∈ reached (linesOf lokdefCsv)) : ∀ entry ∈ stored line, Terminated entry := by
      apply (stored_terminated line).mpr
      have here := sound line read
      tauto
    constructor
    · apply null.mpr
      intro line read
      have here := sound line read
      tauto
    · exact texts
    · intro lokdef read l member
      rcases readLines_lines (readLokdef_lines read) l member with rfl | ⟨no,line,there,record⟩
      · decide +kernel
      · obtain ⟨name,img,functions⟩ := readLine_stored record
        refine ⟨texts line there _ name,texts line there _ img,?_⟩
        intro f listed
        rcases functions f listed with none | some
        · rw [none]
          decide
        · exact texts line there _ some

/-- A line that ends behind the decoder type, and a function name of 32 characters. -/
theorem readLokdef_perishes : ¬ Survives (str "3,F_DEFAULT\n") ∧
    ¬ Survives (str "3,F_DEFAULT,lok3,,1,abcdefghijklmnopqrstuvwxyz012345\n") := by
  constructor
  · intro survives
    exact survives.positions rfl
  · intro survives
    have line : str "3,F_DEFAULT,lok3,,1,abcdefghijklmnopqrstuvwxyz012345" ∈
        reached (linesOf (str "3,F_DEFAULT,lok3,,1,abcdefghijklmnopqrstuvwxyz012345\n")) := by decide +kernel
    have name : (str "abcdefghijklmnopqrstuvwxyz012345", 32) ∈
        stored (str "3,F_DEFAULT,lok3,,1,abcdefghijklmnopqrstuvwxyz012345") := by decide +kernel
    exact absurd (survives.texts _ line _ name) (by decide)

end Btcontrol
