import Btcontrol.ParseExpr

/-! The expressions of the comment in `ParseExpr.cpp`, and the strings `getResult` takes. The first
`)` ends an operand, so no operand has brackets of its own; what stands behind the last `)` is
not looked at. -/
namespace Btcontrol

open Exec ParseExpr

/-- What the parser keeps from call to call. -/
structure Memory where
  speed : Int
  lastAccel : Int
  lastBrake : Int
  deriving DecidableEq, Repr

def ParseExpr.memory (p : ParseExpr) : Memory := ⟨p.speed, p.lastAccel, p.lastBrake⟩

/-- The memory with the speed of a commit noted. -/
def Memory.follow (c : Tick) (m : Memory) : Memory :=
  if m.speed = c.speed then m
  else if c.speed > m.speed then { m with speed := c.speed, lastAccel := c.time }
  else { m with speed := c.speed, lastBrake := c.time }

@[simp] theorem Memory.follow_speed (c : Tick) (m : Memory) : (m.follow c).speed = c.speed := by
  unfold follow
  split
  · assumption
  · split <;> rfl

@[simp] theorem Memory.follow_follow (c : Tick) (m : Memory) : (m.follow c).follow c = m.follow c :=
  if_pos (m.follow_speed c)

theorem follow_memory (c : Tick) (p : ParseExpr) :
    ∃ p', follow c.inputs p = .ok () p' ∧ p'.memory = p.memory.follow c := by
  refine ⟨_,follow_apply c.inputs p,?_⟩
  by_cases same : p.speed = c.speed
  · simp [memory,Memory.follow,Tick.inputs,same]
  · by_cases up : c.speed > p.speed
    · simp [memory,Memory.follow,Tick.inputs,same,up]
    · simp [memory,Memory.follow,Tick.inputs,same,up]

/-! ### The expressions -/

inductive Seconds where
  | five | ten | fifteen
  deriving DecidableEq, Repr

def Seconds.count : Seconds → Int
  | five => 5
  | ten => 10
  | fifteen => 15

/-- `F0` to `F9` and the strings that are listed. -/
inductive Atom where
  | func (nr : Fin 10)
  | const (on : Bool)
  | dir (on : Bool)
  | light (forward : Bool) (moving : Option Bool)
  | speed (on : Bool)
  | accel (seconds : Seconds)
  | brake (seconds : Seconds)
  deriving DecidableEq, Repr

namespace Atom

def text : Atom → Str
  | func nr => [70, UInt8.ofNat (48 + nr.val)]
  | const false => str "0"
  | const true => str "1"
  | dir true => str "dir"
  | dir false => str "!dir"
  | light true none => str "dir && F0"
  | light false none => str "!dir && F0"
  | light true (some true) => str "dir && F0 && speed"
  | light false (some true) => str "!dir && F0 && speed"
  | light true (some false) => str "dir && F0 && !speed"
  | light false (some false) => str "!dir && F0 && !speed"
  | speed true => str "speed"
  | speed false => str "!speed"
  | accel .five => str "accel+5s"
  | accel .ten => str "accel+10s"
  | accel .fifteen => str "accel+15s"
  | brake .five => str "brake+5s"
  | brake .ten => str "brake+10s"
  | brake .fifteen => str "brake+15s"

/-- The truth of an atom in a commit. -/
def meaning (c : Tick) (m : Memory) : Atom → Bool
  | func nr => c.currentFunc.toList[nr.val]?.getD false
  | const on => on
  | dir on => decide (c.dir ≠ 0) == on
  | light forward moving => (decide (c.dir ≠ 0) == forward) && c.currentFunc.toList[0]?.getD false &&
    moving.all (fun on => decide (c.speed ≠ 0) == on)
  | speed on => decide (c.speed ≠ 0) == on
  | accel seconds => decide (m.lastAccel > c.time - seconds.count)
  | brake seconds => decide (m.lastBrake > c.time - seconds.count)

def isFunc : Atom → Bool
  | func _ => true
  | _ => false

/-- The memory once these atoms have been asked for. -/
def noted (c : Tick) (atoms : List Atom) (m : Memory) : Memory := if atoms.all isFunc then m else m.follow c

theorem noted_append (c : Tick) (first second : List Atom) (m : Memory) :
    noted c (first ++ second) m = noted c second (noted c first m) := by
  unfold noted
  rw [List.all_append]
  cases first.all isFunc <;> cases second.all isFunc <;> simp

theorem noted_follow (c : Tick) (atoms : List Atom) (m : Memory) : (noted c atoms m).follow c = m.follow c := by
  unfold noted
  split <;> simp

def listed : List Atom :=
  [dir true, dir false, light true none, light false none, light true (some true), light false (some true),
    light true (some false), light false (some false), speed true, speed false, accel .five, accel .ten,
    accel .fifteen, brake .five, brake .ten, brake .fifteen, const false, const true]

theorem listed_text (i : Inputs) (p : ParseExpr) : (atoms i p).map Prod.fst = listed.map text := rfl

theorem mem_listed (a : Atom) : a ∈ listed ∨ ∃ nr, a = func nr := by
  cases a with
  | func nr => exact .inr ⟨nr,rfl⟩
  | const on => cases on <;> exact .inl (by decide)
  | dir on => cases on <;> exact .inl (by decide)
  | light forward moving => rcases moving with _ | _ | _ <;> cases forward <;> exact .inl (by decide)
  | speed on => cases on <;> exact .inl (by decide)
  | accel seconds => cases seconds <;> exact .inl (by decide)
  | brake seconds => cases seconds <;> exact .inl (by decide)

/-- What is returned for a string of the list counts as true. -/
def Holds (now : Int) : Value → Prop
  | .plain value => value ≠ 0
  | .recent last seconds => last > now - seconds

theorem ofBool_ne_zero (b : Bool) : ofBool b ≠ 0 ↔ b = true := by
  cases b <;> decide

theorem lookup_listed (i : Inputs) (now : Int) (p : ParseExpr) (a : Atom) (member : a ∈ listed) :
    funcNr a.text = none ∧ a.isFunc = false ∧ ∃ value, (atoms i p).lookup a.text = some value ∧
      (Holds now value ↔ a.meaning ⟨i.dir, i.speed, i.currentFunc, now⟩ p.memory = true) := by
  fin_cases member
  all_goals refine ⟨rfl,rfl,_,rfl,?_⟩
  all_goals simp [Holds,meaning,ofBool_ne_zero,memory,Seconds.count]

theorem funcNr_func (nr : Fin 10) : funcNr (func nr).text = some nr.val := by
  fin_cases nr <;> rfl

theorem funcNr_isSome {expr : Str} {nr : Nat} (found : funcNr expr = some nr) :
    ∃ nr : Fin 10, expr = (func nr).text := by
  unfold funcNr at found
  split at found
  · rename_i digit
    split at found
    · rename_i bounds
      obtain ⟨low,high⟩ := bounds
      have low : 48 ≤ digit.toNat := UInt8.le_iff_toNat_le.mp low
      have high : digit.toNat ≤ 57 := UInt8.le_iff_toNat_le.mp high
      refine ⟨⟨digit.toNat - 48,by omega⟩,?_⟩
      have same : 48 + (digit.toNat - 48) = digit.toNat := by omega
      simp [text,same]
    · cases found
  · cases found

/-- A string is taken when it is an atom. -/
theorem simple_accepted (i : Inputs) (expr : Str) (p : ParseExpr) :
    returned (simple i expr p) = true ↔ ∃ a : Atom, a.text = expr := by
  rw [simple_returned,listed_text,List.mem_map]
  constructor
  · rintro (found | ⟨a,_,same⟩)
    · obtain ⟨nr,found⟩ := Option.isSome_iff_exists.mp found
      obtain ⟨nr,rfl⟩ := funcNr_isSome found
      exact ⟨func nr,rfl⟩
    · exact ⟨a,same⟩
  · rintro ⟨a,rfl⟩
    rcases mem_listed a with member | ⟨nr,rfl⟩
    · exact .inr ⟨a,member,rfl⟩
    · exact .inl (by rw [funcNr_func]; rfl)

/-- The value of an atom. `F0` to `F9` leave the memory as it is. -/
theorem simple_meaning (c : Tick) (a : Atom) (p : ParseExpr) : ∃ v p', simple c.inputs a.text p = .ok v p' ∧
    (v ≠ 0 ↔ a.meaning c (p.memory.follow c) = true) ∧ p'.memory = noted c [a] p.memory := by
  rcases mem_listed a with member | ⟨nr,rfl⟩
  · obtain ⟨p1,followed,memory⟩ := follow_memory c p
    obtain ⟨none,other,value,found,meant⟩ := lookup_listed c.inputs c.time p1 a member
    rw [memory] at meant
    change Holds c.time value ↔ a.meaning c _ = true at meant
    have after : noted c [a] p.memory = p1.memory := by simp [noted,other,memory]
    simp only [simple,none,bind_apply,followed,get_apply,found]
    rw [← meant,after]
    cases value with
    | plain v => exact ⟨v,p1,rfl,Iff.rfl,rfl⟩
    | recent last seconds =>
      refine ⟨_,_,rfl,?_,rfl⟩
      rw [ofBool_ne_zero,decide_eq_true_eq]
      rfl
  · exact ⟨_,p,by simp only [simple,funcNr_func]; rfl,ofBool_ne_zero _,rfl⟩

/-- No atom has a bracket in it. -/
theorem text_plain (a : Atom) : a.text ≠ [] ∧ a.text.head? ≠ some 40 ∧ 41 ∉ a.text := by
  rcases mem_listed a with member | ⟨nr,rfl⟩
  · fin_cases member <;> decide
  · fin_cases nr <;> decide

end Atom

/-- The expressions of the comment, to every depth. -/
inductive Expr where
  | atom (a : Atom)
  | binary (is_and : Bool) (exprA exprB : Expr)
  deriving DecidableEq, Repr

def operator (is_and : Bool) : Str := if is_and then str ") && (" else str ") || ("

namespace Expr

def text : Expr → Str
  | atom a => a.text
  | binary is_and exprA exprB => 40 :: exprA.text ++ operator is_and ++ exprB.text ++ [41]

def meaning (c : Tick) (m : Memory) : Expr → Bool
  | atom a => a.meaning c m
  | binary is_and exprA exprB =>
    if is_and then exprA.meaning c m && exprB.meaning c m else exprA.meaning c m || exprB.meaning c m

def bracketed : Expr → Bool
  | atom _ => false
  | binary _ _ _ => true

end Expr

def pairText (is_and : Bool) (a b : Atom) (tail : Str) : Str :=
  40 :: a.text ++ operator is_and ++ b.text ++ 41 :: tail

theorem operator_eq (is_and : Bool) : ∃ middle, operator is_and = 41 :: middle ∧ middle.length = 5 := by
  cases is_and
  · exact ⟨str " || (",rfl,rfl⟩
  · exact ⟨str " && (",rfl,rfl⟩

theorem operator_inj {is_and is_and' : Bool} (same : operator is_and = operator is_and') : is_and = is_and' := by
  cases is_and <;> cases is_and' <;> first | rfl | cases same

/-- The first `)` splits a text in one way. -/
theorem split_bracket {front front' back back' : Str} (plain : 41 ∉ front) (plain' : 41 ∉ front')
    (same : front ++ 41 :: back = front' ++ 41 :: back') : front = front' ∧ back = back' := by
  induction front generalizing front' with
  | nil =>
    cases front' with
    | nil => exact ⟨rfl,(List.cons.inj same).2⟩
    | cons c rest =>
      cases same
      exact absurd List.mem_cons_self plain'
  | cons c front ih =>
    cases front' with
    | nil =>
      cases same
      exact absurd List.mem_cons_self plain
    | cons c' front' =>
      obtain ⟨rfl,rest⟩ := List.cons.inj same
      obtain ⟨rfl,behind⟩ := ih (fun member => plain (List.mem_cons_of_mem _ member))
        (fun member => plain' (List.mem_cons_of_mem _ member)) rest
      exact ⟨rfl,behind⟩

/-- An expression whose text goes on as an atom does is this atom. -/
theorem atom_of_text {x : Expr} {a : Atom} {back back' : Str} (same : x.text ++ 41 :: back = a.text ++ 41 :: back') :
    ∃ a', x = .atom a' ∧ a'.text = a.text ∧ back = back' := by
  obtain ⟨some,first,plain⟩ := a.text_plain
  cases x with
  | atom a' =>
    obtain ⟨texts,behind⟩ := split_bracket a'.text_plain.2.2 plain same
    exact ⟨a',rfl,texts,behind⟩
  | binary is_and exprA exprB =>
    have heads := congrArg List.head? same
    rw [List.head?_append_of_ne_nil _ some] at heads
    exact absurd heads.symm first

/-- The text of an expression is that of two atoms and what is behind them only if it is these two. -/
theorem text_pair {x : Expr} {is_and : Bool} {a b : Atom} {tail : Str} (same : x.text = pairText is_and a b tail) :
    tail = [] ∧ ∃ a' b', x = .binary is_and (.atom a') (.atom b') := by
  cases x with
  | atom a' =>
    have first := a'.text_plain.2.1
    rw [show a'.text = _ from same] at first
    exact absurd rfl first
  | binary is_and' exprA exprB =>
    obtain ⟨middle,opened,length⟩ := operator_eq is_and
    obtain ⟨middle',opened',length'⟩ := operator_eq is_and'
    simp only [Expr.text,pairText,opened,opened',List.append_assoc,List.cons_append,List.cons.injEq,true_and] at same
    obtain ⟨a',rfl,_,rest⟩ := atom_of_text same
    obtain ⟨middles,rest⟩ := List.append_inj rest (length'.trans length.symm)
    obtain ⟨b',rfl,_,behind⟩ := atom_of_text rest
    have operators : is_and' = is_and := operator_inj (by rw [opened,opened',middles])
    subst operators
    exact ⟨behind.symm,a',b',rfl⟩

/-! ### What `getResult` makes of a string -/

/-- A text up to its first `)`. -/
theorem takeWhile_bracket {front : Str} (plain : 41 ∉ front) (back : Str) :
    (front ++ 41 :: back).takeWhile (· ≠ 41) = front ∧ (front ++ 41 :: back).dropWhile (· ≠ 41) = 41 :: back := by
  have inside : ∀ c ∈ front, decide (c ≠ 41) = true := by
    intro c member
    have other : c ≠ 41 := fun same => plain (same ▸ member)
    simpa using other
  constructor
  · rw [List.takeWhile_append_of_pos inside]
    simp
  · rw [List.dropWhile_append_of_pos inside]
    simp

/-- The parts of two operands without brackets in them. -/
theorem pair_parts (is_and : Bool) {exprA exprB : Str} (plainA : 41 ∉ exprA) (plainB : 41 ∉ exprB) (tail : Str) :
    ∃ rest, (40 :: exprA ++ operator is_and ++ exprB ++ 41 :: tail).drop 1 = exprA ++ 41 :: rest ∧
      (exprA ++ 41 :: rest).takeWhile (· ≠ 41) = exprA ∧ (exprA ++ 41 :: rest).dropWhile (· ≠ 41) = 41 :: rest ∧
      (41 :: rest).take 6 = operator is_and ∧ (41 :: rest).drop 6 = exprB ++ 41 :: tail ∧
      (exprB ++ 41 :: tail).takeWhile (· ≠ 41) = exprB ∧ (exprB ++ 41 :: tail).dropWhile (· ≠ 41) = 41 :: tail := by
  obtain ⟨middle,opened,length⟩ := operator_eq is_and
  obtain ⟨first,rest⟩ := takeWhile_bracket plainA (middle ++ (exprB ++ 41 :: tail))
  obtain ⟨second,behind⟩ := takeWhile_bracket plainB tail
  refine ⟨middle ++ (exprB ++ 41 :: tail),by simp [opened],first,rest,?_,?_,second,behind⟩
  · rw [opened,List.take_succ_cons,List.take_left' length]
  · rw [List.drop_succ_cons,List.drop_left' length]

theorem binary_pair (get : Str → Eval Int) (is_and : Bool) {exprA exprB : Str} (plainA : 41 ∉ exprA)
    (plainB : 41 ∉ exprB) (tail : Str) :
    binary get (40 :: exprA ++ operator is_and ++ exprB ++ 41 :: tail) = do
      let a ← get exprA
      let b ← get exprB
      return ofBool (if is_and then a ≠ 0 && b ≠ 0 else a ≠ 0 || b ≠ 0) := by
  obtain ⟨more,texts,first,rest,op,after,second,behind⟩ := pair_parts is_and plainA plainB tail
  simp only [binary,texts,first,rest,op,after,second,behind,reduceCtorEq,↓reduceIte]
  cases is_and
  · rfl
  · rfl

/-- What a string with brackets must be to be taken. -/
theorem binary_accepted {get : Str → Eval Int} {expr : Str} {p : ParseExpr}
    (taken : returned (binary get expr p) = true) : ∃ is_and exprA exprB tail,
      expr.drop 1 = exprA ++ operator is_and ++ exprB ++ 41 :: tail ∧ 41 ∉ exprA ∧ 41 ∉ exprB ∧
      returned (get exprA p) = true ∧ ∃ p', returned (get exprB p') = true := by
  unfold binary at taken
  split at taken
  · cases taken
  split at taken
  · cases taken
  split at taken
  · cases taken
  rename_i _ found closed
  obtain ⟨v,p2,ran⟩ := ok_of_returned taken
  obtain ⟨a,p1,ranA,ran⟩ := returned_of_bind ran
  obtain ⟨b,p3,ranB,_⟩ := returned_of_bind ran
  have plain (text : Str) : 41 ∉ text.takeWhile (· ≠ 41) := by
    intro member
    simpa using List.mem_takeWhile_imp member
  have parts := List.takeWhile_append_dropWhile (p := fun c : UInt8 => decide (c ≠ 41)) (l := expr.drop 1)
  have parts' := List.takeWhile_append_dropWhile (p := fun c : UInt8 => decide (c ≠ 41))
    (l := ((expr.drop 1).dropWhile (· ≠ 41)).drop 6)
  have op : ∃ is_and, ((expr.drop 1).dropWhile (· ≠ 41)).take 6 = operator is_and := by
    by_cases isAnd : ((expr.drop 1).dropWhile (· ≠ 41)).take 6 = str ") && ("
    · exact ⟨true,isAnd⟩
    · exact ⟨false,not_not.mp (fun other => found ⟨isAnd,other⟩)⟩
  obtain ⟨is_and,op⟩ := op
  obtain ⟨tail,ended⟩ : ∃ tail, (((expr.drop 1).dropWhile (· ≠ 41)).drop 6).dropWhile (· ≠ 41) = 41 :: tail := by
    obtain ⟨c,tail,rest⟩ := List.exists_cons_of_ne_nil closed
    have first := List.head?_dropWhile_not (fun c : UInt8 => decide (c ≠ 41)) (((expr.drop 1).dropWhile (· ≠ 41)).drop 6)
    rw [rest] at first
    have same : c = 41 := by simpa using first
    exact ⟨tail,same ▸ rest⟩
  refine ⟨is_and,_,_,tail,?_,plain _,plain _,by rw [ranA]; rfl,p1,by rw [ranB]; rfl⟩
  rw [← ended,List.append_assoc,List.append_assoc,parts',← op,List.take_append_drop,parts]

/-- A text that begins with a bracket and has no `)` is not taken. -/
theorem unclosed_refused (i : Inputs) (fuel : Nat) {expr : Str} (opens : expr.head? = some 40) (plain : 41 ∉ expr)
    (p : ParseExpr) : returned (resultWithin i fuel expr p) = false := by
  rw [← Bool.not_eq_true]
  intro taken
  cases fuel with
  | zero => cases taken
  | succ fuel =>
    rw [resultWithin,if_pos opens] at taken
    obtain ⟨_,exprA,exprB,tail,same,_⟩ := binary_accepted taken
    have member : 41 ∈ expr.drop 1 := by
      rw [same]
      simp
    exact plain (List.mem_of_mem_drop member)

/-- An operand that is taken is an atom. -/
theorem operand_accepted {i : Inputs} {fuel : Nat} {expr : Str} {p : ParseExpr} (plain : 41 ∉ expr)
    (taken : returned (resultWithin i fuel expr p) = true) : ∃ a : Atom, a.text = expr := by
  by_cases opens : expr.head? = some 40
  · rw [unclosed_refused i fuel opens plain p] at taken
    cases taken
  · cases fuel with
    | zero => cases taken
    | succ fuel =>
      rw [resultWithin,if_neg opens] at taken
      exact (Atom.simple_accepted i expr p).mp taken

theorem resultWithin_atom (i : Inputs) (fuel : Nat) (a : Atom) (p : ParseExpr) :
    resultWithin i (fuel + 1) a.text p = simple i a.text p := by
  rw [resultWithin,if_neg a.text_plain.2.1]

theorem getResult_pair (i : Inputs) (is_and : Bool) (a b : Atom) (tail : Str) (p : ParseExpr) :
    getResult i (pairText is_and a b tail) p = (do
      let va ← simple i a.text
      let vb ← simple i b.text
      return ofBool (if is_and then va ≠ 0 && vb ≠ 0 else va ≠ 0 || vb ≠ 0) : Eval Int) p := by
  have opens : (pairText is_and a b tail).head? = some 40 := rfl
  obtain ⟨fuel,length⟩ : ∃ fuel, (pairText is_and a b tail).length = fuel + 1 := ⟨_,List.length_cons⟩
  have inner (a : Atom) : resultWithin i (fuel + 1) a.text = simple i a.text :=
    funext (fun p => resultWithin_atom i fuel a p)
  rw [getResult,resultWithin,if_pos opens,length]
  rw [pairText,binary_pair _ is_and a.text_plain.2.2 b.text_plain.2.2 tail,inner,inner]

/-- The strings that are taken: an atom, or two atoms in brackets with any text behind them. -/
theorem getResult_accepted (i : Inputs) (expr : Str) (p : ParseExpr) : returned (getResult i expr p) = true ↔
    (∃ a : Atom, a.text = expr) ∨ ∃ is_and a b tail, expr = pairText is_and a b tail := by
  constructor
  · intro taken
    by_cases opens : expr.head? = some 40
    · rw [getResult,resultWithin,if_pos opens] at taken
      obtain ⟨is_and,exprA,exprB,tail,same,plainA,plainB,ranA,p',ranB⟩ := binary_accepted taken
      obtain ⟨a,rfl⟩ := operand_accepted plainA ranA
      obtain ⟨b,rfl⟩ := operand_accepted plainB ranB
      refine .inr ⟨is_and,a,b,tail,?_⟩
      cases expr with
      | nil => cases opens
      | cons c rest =>
        cases opens
        exact congrArg (List.cons 40) same
    · rw [getResult,resultWithin,if_neg opens] at taken
      exact .inl ((Atom.simple_accepted i expr p).mp taken)
  · rintro (⟨a,rfl⟩ | ⟨is_and,a,b,tail,rfl⟩)
    · rw [getResult,resultWithin_atom]
      exact (Atom.simple_accepted i _ p).mpr ⟨a,rfl⟩
    · rw [getResult_pair]
      obtain ⟨va,p1,ranA⟩ := ok_of_returned ((Atom.simple_accepted i a.text p).mpr ⟨a,rfl⟩)
      obtain ⟨vb,p2,ranB⟩ := ok_of_returned ((Atom.simple_accepted i b.text p1).mpr ⟨b,rfl⟩)
      rw [bind_ok ranA,bind_ok ranB]
      rfl

/-- The truth of two atoms in brackets. -/
theorem getResult_meaning (c : Tick) (is_and : Bool) (a b : Atom) (tail : Str) (p : ParseExpr) :
    ∃ v p', getResult c.inputs (pairText is_and a b tail) p = .ok v p' ∧
      (v ≠ 0 ↔ (Expr.binary is_and (.atom a) (.atom b)).meaning c (p.memory.follow c) = true) ∧
      p'.memory = Atom.noted c [a, b] p.memory := by
  obtain ⟨va,p1,ranA,meantA,memory⟩ := a.simple_meaning c p
  obtain ⟨vb,p2,ranB,meantB,memory'⟩ := b.simple_meaning c p1
  -- whether or not the first operand has noted the speed, the second one sees it
  rw [memory,Atom.noted_follow] at meantB
  refine ⟨_,p2,by rw [getResult_pair,bind_ok ranA,bind_ok ranB]; rfl,?_,?_⟩
  · rw [Atom.ofBool_ne_zero]
    cases is_and <;> simp [Expr.meaning,← meantA,← meantB]
  · rw [memory',memory,← Atom.noted_append]
    rfl

/-! ### Against the comment -/

/-- What the comment promises for a string: an expression has its truth, anything else is refused. -/
def AsDocumented (c : Tick) (p : ParseExpr) (expr : Str) : Prop :=
  (∀ x : Expr, x.text = expr → ∃ v p', getResult c.inputs expr p = .ok v p' ∧
    (v ≠ 0 ↔ x.meaning c (p.memory.follow c) = true)) ∧
  ((¬∃ x : Expr, x.text = expr) → ∃ e p', getResult c.inputs expr p = .error e p')

def Nested (expr : Str) : Prop := ∃ is_and exprA exprB, (Expr.binary is_and exprA exprB).text = expr ∧
  (exprA.bracketed || exprB.bracketed) = true

def Trailing (expr : Str) : Prop := ∃ is_and a b tail, expr = pairText is_and a b tail ∧ tail ≠ []

theorem nested_refused {expr : Str} (nested : Nested expr) (i : Inputs) (p : ParseExpr) :
    returned (getResult i expr p) = false := by
  obtain ⟨is_and,exprA,exprB,rfl,brackets⟩ := nested
  rw [← Bool.not_eq_true,getResult_accepted]
  rintro (⟨a,same⟩ | ⟨is_and,a,b,tail,same⟩)
  · have first := a.text_plain.2.1
    rw [same] at first
    exact absurd rfl first
  · obtain ⟨_,a',b',flat⟩ := text_pair same
    cases flat
    cases brackets

theorem trailing_ungrammatical {expr : Str} (trailing : Trailing expr) : ¬∃ x : Expr, x.text = expr := by
  obtain ⟨is_and,a,b,tail,rfl,more⟩ := trailing
  rintro ⟨x,same⟩
  exact more (text_pair same).1

theorem error_of_refused {ε σ α : Type} {r : EStateM.Result ε σ α} (refused : returned r = false) :
    ∃ e s, r = .error e s := by
  cases r with
  | ok a s => cases refused
  | error e s => exact ⟨e,s,rfl⟩

/-- `getResult` keeps the promise for every string but two kinds: an expression with brackets inside
its brackets is refused, and what stands behind two operands is taken with them. -/
theorem getResult_documented (c : Tick) (p : ParseExpr) (expr : Str) :
    AsDocumented c p expr ↔ ¬Nested expr ∧ ¬Trailing expr := by
  constructor
  · rintro ⟨grammatical,other⟩
    constructor
    · intro nested
      have refused := nested_refused nested c.inputs p
      obtain ⟨is_and,exprA,exprB,same,_⟩ := nested
      obtain ⟨v,p',ran,_⟩ := grammatical _ same
      rw [ran] at refused
      cases refused
    · intro trailing
      obtain ⟨e,p',refused⟩ := other (trailing_ungrammatical trailing)
      obtain ⟨is_and,a,b,tail,rfl,_⟩ := trailing
      have taken := (getResult_accepted c.inputs _ p).mpr (.inr ⟨is_and,a,b,tail,rfl⟩)
      rw [refused] at taken
      cases taken
  · rintro ⟨flat,ended⟩
    constructor
    · rintro x rfl
      cases x with
      | atom a =>
        obtain ⟨v,p',ran,meant,_⟩ := a.simple_meaning c p
        exact ⟨v,p',by rw [Expr.text,getResult,resultWithin_atom]; exact ran,meant⟩
      | binary is_and exprA exprB =>
        cases exprA with
        | binary => exact absurd ⟨is_and,_,exprB,rfl,rfl⟩ flat
        | atom a =>
          cases exprB with
          | binary => exact absurd ⟨is_and,_,_,rfl,rfl⟩ flat
          | atom b =>
            obtain ⟨v,p',ran,meant,_⟩ := getResult_meaning c is_and a b [] p
            exact ⟨v,p',ran,meant⟩
    · intro none
      apply error_of_refused
      rw [← Bool.not_eq_true,getResult_accepted]
      rintro (⟨a,same⟩ | ⟨is_and,a,b,tail,rfl⟩)
      · exact none ⟨.atom a,same⟩
      · cases tail with
        | nil => exact none ⟨.binary is_and (.atom a) (.atom b),rfl⟩
        | cons c rest => exact ended ⟨is_and,a,b,c :: rest,rfl,List.cons_ne_nil _ _⟩

def nestedExpr : Expr := .binary false (.binary true (.atom (.func 1)) (.atom (.func 2))) (.atom (.func 3))

def atRest : Tick := ⟨0, 0, Vector.replicate MAX_NFUNC false, 0⟩

/-- The nested expression is refused; `(F1) && (F2)off` is none and is taken. -/
theorem getResult_undocumented : nestedExpr.text = str "((F1) && (F2)) || (F3)" ∧
    ¬AsDocumented atRest {} (str "((F1) && (F2)) || (F3)") ∧ ¬AsDocumented atRest {} (str "(F1) && (F2)off") := by
  have text : nestedExpr.text = str "((F1) && (F2)) || (F3)" := by decide
  have refused : returned (getResult atRest.inputs (str "((F1) && (F2)) || (F3)") {}) = false := by decide +kernel
  have taken : returned (getResult atRest.inputs (str "(F1) && (F2)off") {}) = true := by decide +kernel
  have trailing : Trailing (str "(F1) && (F2)off") := ⟨true,.func 1,.func 2,str "off",by decide,by decide⟩
  refine ⟨text,?_,?_⟩
  · rintro ⟨grammatical,_⟩
    obtain ⟨v,p',ran,_⟩ := grammatical nestedExpr text
    rw [ran] at refused
    cases refused
  · rintro ⟨_,other⟩
    obtain ⟨e,p',ran⟩ := other (trailing_ungrammatical trailing)
    rw [ran] at taken
    cases taken

end Btcontrol
