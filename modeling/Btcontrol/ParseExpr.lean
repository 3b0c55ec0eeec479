import Btcontrol.Exec
import Btcontrol.Lokdef

/-! `ParseExpr.cpp`: the expressions of the output pins. The parser keeps the speed it has seen
last and when it went up and down. -/
namespace Btcontrol

open Exec

/-- What is thrown at a pin definition, with the source's text beside it. -/
inductive PinErr where
  | expressionA (expr : Str)               -- "invalid expressionA \"" + expr + "\""
  | binaryOperator (expr rest : Str)       -- "invalid binary operator \"" + expr + "\" at \"" + rest + "\""
  | expressionB (expr : Str)               -- "invalid expressionB \"" + expr + "\""
  | expression (expr : Str)                -- "invalid expression \"" + expr + "\""
  | abort                                  -- "error: only 0-100 allowed", then abort()
  deriving DecidableEq, Repr

/-- `class ParseExpr`. `ticks` only records: the calls of `time(NULL)` since the commit began. -/
structure ParseExpr where
  speed : Int := 0
  lastAccel : Int := 0
  lastBrake : Int := 0
  ticks : Nat := 0
  deriving DecidableEq, Repr

/-- The arguments of `getResult`, and what `time(NULL)` gives call by call. -/
structure Inputs where
  dir : Int
  speed : Int
  currentFunc : Vector Bool MAX_NFUNC
  clock : Nat → Int

structure Tick where
  dir : Int
  speed : Int
  currentFunc : Vector Bool MAX_NFUNC
  time : Int

def Tick.inputs (c : Tick) : Inputs := ⟨c.dir, c.speed, c.currentFunc, fun _ => c.time⟩

namespace ParseExpr

abbrev Eval := EStateM PinErr ParseExpr

def time (clock : Nat → Int) : Eval Int := do
  let p ← get
  modify (fun p => { p with ticks := p.ticks + 1 })
  return clock p.ticks

def ofBool (b : Bool) : Int := if b then 1 else 0

variable (i : Inputs)

/-- The speed is compared with the one seen last. -/
def follow : Eval Unit := do
  let p ← get
  if p.speed ≠ i.speed then
    if i.speed > p.speed then
      let now ← time i.clock
      modify (fun p => { p with lastAccel := now })
    if i.speed < p.speed then
      let now ← time i.clock
      modify (fun p => { p with lastBrake := now })
    modify (fun p => { p with speed := i.speed })

/-- What a plain string returns: a value, or `last > time(NULL) - seconds`. -/
inductive Value where
  | plain (value : Int)
  | recent (last seconds : Int)

def atoms (p : ParseExpr) : List (Str × Value) :=
  let dir := decide (i.dir ≠ 0)
  let speed := decide (i.speed ≠ 0)
  let F0 := i.currentFunc.toList[0]?.getD false
  [(str "dir", .plain i.dir), (str "!dir", .plain (ofBool !dir)),
    (str "dir && F0", .plain (ofBool (dir && F0))),
    (str "!dir && F0", .plain (ofBool (!dir && F0))),
    (str "dir && F0 && speed", .plain (ofBool (dir && F0 && speed))),
    (str "!dir && F0 && speed", .plain (ofBool (!dir && F0 && speed))),
    (str "dir && F0 && !speed", .plain (ofBool (dir && F0 && !speed))),
    (str "!dir && F0 && !speed", .plain (ofBool (!dir && F0 && !speed))),
    (str "speed", .plain i.speed), (str "!speed", .plain (ofBool !speed)),
    (str "accel+5s", .recent p.lastAccel 5), (str "accel+10s", .recent p.lastAccel 10),
    (str "accel+15s", .recent p.lastAccel 15),
    (str "brake+5s", .recent p.lastBrake 5), (str "brake+10s", .recent p.lastBrake 10),
    (str "brake+15s", .recent p.lastBrake 15),
    (str "0", .plain 0), (str "1", .plain 1)]

def funcNr : Str → Option Nat
  | [70, digit] => if 48 ≤ digit ∧ digit ≤ 57 then some (digit.toNat - 48) else none
  | _ => none

/-- An expression that does not begin with a bracket. -/
def simple (expr : Str) : Eval Int :=
  match funcNr expr with
  | some nr => return ofBool (i.currentFunc.toList[nr]?.getD false)
  | none => do
    follow i
    match (atoms i (← get)).lookup expr with
    | some (.plain value) => return value
    | some (.recent last seconds) =>
      let now ← time i.clock
      return ofBool (last > now - seconds)
    | none => throw (.expression expr)

/-- Two expressions in brackets. The first `)` ends exprA, the next one exprB. -/
def binary (getResult : Str → Eval Int) (expr : Str) : Eval Int :=
  let exprA := (expr.drop 1).takeWhile (· ≠ 41)
  let rest := (expr.drop 1).dropWhile (· ≠ 41)
  let exprB := (rest.drop 6).takeWhile (· ≠ 41)
  if rest = [] then throw (.expressionA expr)
  else if rest.take 6 ≠ str ") && (" ∧ rest.take 6 ≠ str ") || (" then throw (.binaryOperator expr rest)
  else if (rest.drop 6).dropWhile (· ≠ 41) = [] then throw (.expressionB expr)
  else do
    let a ← getResult exprA
    let b ← getResult exprB
    return ofBool (if rest.take 6 = str ") && (" then a ≠ 0 && b ≠ 0 else a ≠ 0 || b ≠ 0)

/-- `getResult` with calls nested no deeper than `fuel`. -/
def resultWithin : Nat → Str → Eval Int
  | 0, expr => throw (.expression expr)
  | fuel + 1, expr => if expr.head? = some 40 then binary (resultWithin fuel) expr else simple i expr

/-- The operands are shorter than the expression. -/
def getResult (expr : Str) : Eval Int := resultWithin i (expr.length + 1) expr

/-! ### What is accepted does not depend on the inputs -/

theorem atoms_names (i i' : Inputs) (p p' : ParseExpr) :
    (atoms i p).map Prod.fst = (atoms i' p').map Prod.fst := rfl

theorem lookup_entry {κ ν : Type} [BEq κ] [LawfulBEq κ] [DecidableEq κ] (key other : κ) (value : ν)
    (entries : List (κ × ν)) :
    ((key, value) :: entries).lookup other = if other = key then some value else entries.lookup other := by
  by_cases same : other = key
  · simp [same]
  · have apart : (other == key) = false := beq_eq_false_iff_ne.mpr same
    rw [List.lookup_cons,apart,if_neg same]

theorem lookup_isSome {κ ν : Type} [BEq κ] [LawfulBEq κ] (key : κ) (entries : List (κ × ν)) :
    (entries.lookup key).isSome = true ↔ key ∈ entries.map Prod.fst := by
  induction entries with
  | nil => simp
  | cons first rest ih =>
    obtain ⟨other,value⟩ := first
    by_cases same : key = other
    · simp [same]
    · have apart : (key == other) = false := beq_eq_false_iff_ne.mpr same
      simp only [List.lookup_cons,apart,ih,List.map_cons,List.mem_cons,same,false_or]

theorem time_apply (clock : Nat → Int) (p : ParseExpr) :
    time clock p = .ok (clock p.ticks) { p with ticks := p.ticks + 1 } := rfl

theorem follow_apply (i : Inputs) (p : ParseExpr) : follow i p = .ok ()
    (if p.speed = i.speed then p
    else if i.speed > p.speed then
      { p with speed := i.speed, lastAccel := i.clock p.ticks, ticks := p.ticks + 1 }
    else { p with speed := i.speed, lastBrake := i.clock p.ticks, ticks := p.ticks + 1 }) := by
  rcases Int.lt_trichotomy p.speed i.speed with up | same | down
  · have higher : ¬i.speed < p.speed := by omega
    have other : p.speed ≠ i.speed := by omega
    simp only [follow,bind_apply,get_apply,ne_eq,other,not_false_eq_true,↓reduceIte,gt_iff_lt,up,higher,time_apply,
      modify_apply]
  · simp only [follow,bind_apply,get_apply,ne_eq,same,not_true_eq_false,↓reduceIte,pure_apply]
  · have lower : ¬i.speed > p.speed := by omega
    have other : p.speed ≠ i.speed := by omega
    simp only [follow,bind_apply,get_apply,ne_eq,other,not_false_eq_true,↓reduceIte,lower,down,time_apply,
      modify_apply]

/-- A plain string is accepted when it is one of the list. -/
theorem simple_returned (i : Inputs) (expr : Str) (p : ParseExpr) :
    returned (simple i expr p) = true ↔ (funcNr expr).isSome = true ∨ expr ∈ (atoms i p).map Prod.fst := by
  unfold simple
  cases funcNr expr with
  | some nr => simp [returned]
  | none =>
    simp only [bind_apply,follow_apply,get_apply]
    generalize (if p.speed = i.speed then p else _ : ParseExpr) = p'
    rw [atoms_names i i p p',← lookup_isSome]
    cases (atoms i p').lookup expr with
    | none => simp [returned]
    | some value => cases value <;> simp [returned,time_apply,bind_apply]

/-- Whether a pair of operands comes out does not depend on the state either. -/
theorem binary_returned {getResult getResult' : Str → Eval Int} {expr : Str}
    (same : ∀ operand p p', returned (getResult operand p) = returned (getResult' operand p'))
    (p p' : ParseExpr) : returned (binary getResult expr p) = returned (binary getResult' expr p') := by
  unfold binary
  split
  · rfl
  · split
    · rfl
    · split
      · rfl
      · apply returned_bind_congr (same _ p p')
        intro a a' q q'
        exact returned_bind_congr (same _ q q') (fun _ _ _ _ => rfl)

theorem resultWithin_returned (i i' : Inputs) (fuel : Nat) (expr : Str) (p p' : ParseExpr) :
    returned (resultWithin i fuel expr p) = returned (resultWithin i' fuel expr p') := by
  induction fuel generalizing expr p p' with
  | zero => rfl
  | succ fuel ih =>
    unfold resultWithin
    split
    · exact binary_returned ih p p'
    · rw [Bool.eq_iff_iff,simple_returned,simple_returned,atoms_names i i' p p']

/-- An expression that was accepted once is accepted whatever the inputs are. -/
theorem getResult_returned {i : Inputs} {expr : Str} {p : ParseExpr} (once : returned (getResult i expr p) = true)
    (i' : Inputs) (p' : ParseExpr) : returned (getResult i' expr p') = true := by
  rw [← once]
  exact resultWithin_returned i' i _ expr p' p

end ParseExpr

end Btcontrol
