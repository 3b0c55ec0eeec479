import Btcontrol.Expressions
import Btcontrol.MaxTime

/-! `accel+Ns` and `brake+Ns` over a run. The speed is noted by the first string of a commit that
is not `F0` to `F9`, so the memory of the parser is the history of the speeds as soon as one
definition has such a string. -/
namespace Btcontrol

open Exec ParseExpr Transition Atom

namespace Atom

def all : List Atom := listed ++ (List.finRange 10).map func

theorem mem_all (a : Atom) : a ∈ all := by
  rcases mem_listed a with member | ⟨nr,rfl⟩
  · exact List.mem_append_left _ member
  · exact List.mem_append_right _ (List.mem_map_of_mem (List.mem_finRange nr))

/-- The atom that is written so. -/
def ofText (text : Str) : Option Atom := all.find? (fun a => a.text = text)

theorem ofText_text (a : Atom) : ofText a.text = some a := by
  have each : ∀ a ∈ all, ofText a.text = some a := by decide +kernel
  exact each a (mem_all a)

end Atom

/-- The strings an expression asks for, in this order: its operands, or itself. -/
def operands (expr : Str) : List Str :=
  if expr.head? = some 40 then
    [(expr.drop 1).takeWhile (· ≠ 41), (((expr.drop 1).dropWhile (· ≠ 41)).drop 6).takeWhile (· ≠ 41)]
  else [expr]

/-- What an expression makes of what they give. -/
def verdict (expr : Str) : List Bool → Bool
  | [a] => a
  | [a, b] => if ((expr.drop 1).dropWhile (· ≠ 41)).take 6 = str ") && (" then a && b else a || b
  | _ => false

def parsed (expr : Str) : List Atom := (operands expr).filterMap Atom.ofText

def truth (c : Tick) (m : Memory) (expr : Str) : Bool := verdict expr ((parsed expr).map (Atom.meaning c m))

theorem operands_atom (a : Atom) : operands a.text = [a.text] := if_neg a.text_plain.2.1

theorem operands_pair (is_and : Bool) (a b : Atom) (tail : Str) :
    operands (pairText is_and a b tail) = [a.text, b.text] ∧
      ∀ x y, verdict (pairText is_and a b tail) [x, y] = if is_and then x && y else x || y := by
  have opens : (pairText is_and a b tail).head? = some 40 := rfl
  obtain ⟨more,texts,first,rest,op,after,second,_⟩ := pair_parts is_and a.text_plain.2.2 b.text_plain.2.2 tail
  constructor
  · rw [operands,if_pos opens,pairText,texts,first,rest,after,second]
  · intro x y
    simp only [verdict,pairText,texts,rest,op]
    cases is_and
    · rfl
    · rfl

/-! ### One expression -/

/-- What the atoms give one after the other. -/
def answers (i : Inputs) : List Str → Eval (List Int)
  | [] => pure []
  | expr :: rest => do
    let v ← simple i expr
    let vs ← answers i rest
    return v :: vs

theorem answers_meaning (c : Tick) (atoms : List Atom) (p : ParseExpr) :
    ∃ vs p', answers c.inputs (atoms.map Atom.text) p = .ok vs p' ∧
      vs.map (fun v => decide (v ≠ 0)) = atoms.map (Atom.meaning c (p.memory.follow c)) ∧
      p'.memory = noted c atoms p.memory := by
  induction atoms generalizing p with
  | nil => exact ⟨[],p,rfl,rfl,rfl⟩
  | cons a rest ih =>
    obtain ⟨v,p1,ran,meant,memory⟩ := a.simple_meaning c p
    obtain ⟨vs,p2,later,meanings,memories⟩ := ih p1
    refine ⟨v :: vs,p2,?_,?_,?_⟩
    · rw [List.map_cons,answers,bind_ok ran,bind_ok later]
      rfl
    · rw [memory,noted_follow] at meanings
      rw [List.map_cons,List.map_cons,meanings]
      congr 1
      rw [Bool.eq_iff_iff,decide_eq_true_eq]
      exact meant
    · rw [memories,memory,← noted_append]
      rfl

def answered (i : Inputs) : List Str → Eval (List (List Int))
  | [] => pure []
  | expr :: rest => do
    let vs ← answers i (operands expr)
    let more ← answered i rest
    return vs :: more

theorem answered_meaning (c : Tick) (exprs : List Str) (texts : ∀ expr ∈ exprs, operands expr = (parsed expr).map text)
    (p : ParseExpr) : ∃ given p', answered c.inputs exprs p = .ok given p' ∧
      given.map (fun vs => vs.map (fun v => decide (v ≠ 0))) =
        exprs.map (fun expr => (parsed expr).map (meaning c (p.memory.follow c))) ∧
      p'.memory = noted c (exprs.flatMap parsed) p.memory := by
  induction exprs generalizing p with
  | nil => exact ⟨[],p,rfl,rfl,rfl⟩
  | cons expr rest ih =>
    obtain ⟨here,later⟩ := List.forall_mem_cons.mp texts
    obtain ⟨vs,p1,ran,meant,memory⟩ := answers_meaning c (parsed expr) p
    obtain ⟨given,p2,others,meanings,memories⟩ := ih later p1
    rw [memory,noted_follow] at meanings
    refine ⟨vs :: given,p2,?_,?_,?_⟩
    · rw [answered,here,bind_ok ran,bind_ok others]
      rfl
    · rw [List.map_cons,List.map_cons,meant,meanings]
    · rw [memories,memory,← noted_append,List.flatMap_cons]

/-- What operand `j` of expression `k` has given. -/
def reply (given : List (List Int)) (k j : Nat) : Option Int := given[k]?.bind (fun vs => vs[j]?)

theorem text_inj {a b : Atom} (same : a.text = b.text) : a = b := by
  have both := congrArg ofText same
  rw [ofText_text,ofText_text] at both
  exact Option.some.inj both

theorem reply_meaning {c : Tick} {m : Memory} {exprs : List Str} {given : List (List Int)}
    (meant : given.map (fun vs => vs.map (fun v => decide (v ≠ 0))) =
      exprs.map (fun expr => (parsed expr).map (meaning c m)))
    {k j : Nat} {expr : Str} {a : Atom} (texts : operands expr = (parsed expr).map text)
    (here : exprs[k]? = some expr) (asked : (operands expr)[j]? = some a.text) :
    ∃ v, reply given k j = some v ∧ (v ≠ 0 ↔ a.meaning c m = true) := by
  rw [texts,List.getElem?_map,Option.map_eq_some_iff] at asked
  obtain ⟨b,found,same⟩ := asked
  cases text_inj same
  have row := congrArg (fun rows => rows[k]?) meant
  simp only [List.getElem?_map,here,Option.map_some,Option.map_eq_some_iff] at row
  obtain ⟨vs,line,values⟩ := row
  have entry := congrArg (fun column => column[j]?) values
  simp only [List.getElem?_map,found,Option.map_some,Option.map_eq_some_iff] at entry
  obtain ⟨v,value,truth⟩ := entry
  refine ⟨v,by rw [reply,line]; exact value,?_⟩
  rw [← truth,decide_eq_true_eq]

/-- An accepted expression: what it asks for are atoms, and it gives their verdict. -/
theorem accepted_parsed {expr : Str} (accepted : Pins.Accepted expr) :
    operands expr = (parsed expr).map Atom.text ∧ ∀ (c : Tick) (p : ParseExpr), ∃ v p',
      getResult c.inputs expr p = .ok v p' ∧ decide (v ≠ 0) = truth c (p.memory.follow c) expr ∧
      p'.memory = noted c (parsed expr) p.memory := by
  rcases (getResult_accepted atRest.inputs expr {}).mp (accepted atRest.inputs {}) with ⟨a,rfl⟩ | ⟨is_and,a,b,tail,rfl⟩
  · have one : parsed a.text = [a] := by simp [parsed,operands_atom,Atom.ofText_text]
    refine ⟨by rw [one,operands_atom]; rfl,?_⟩
    intro c p
    obtain ⟨v,p',ran,meant,memory⟩ := a.simple_meaning c p
    refine ⟨v,p',by rw [getResult,resultWithin_atom]; exact ran,?_,?_⟩
    · rw [truth,one,Bool.eq_iff_iff,decide_eq_true_eq]
      exact meant
    · rw [memory,one]
  · obtain ⟨texts,combined⟩ := operands_pair is_and a b tail
    have two : parsed (pairText is_and a b tail) = [a, b] := by simp [parsed,texts,Atom.ofText_text]
    refine ⟨by rw [two,texts]; rfl,?_⟩
    intro c p
    obtain ⟨v,p',ran,meant,memory⟩ := getResult_meaning c is_and a b tail p
    refine ⟨v,p',ran,?_,by rw [memory,two]⟩
    rw [truth,two,Bool.eq_iff_iff,decide_eq_true_eq,meant,List.map_cons,List.map_cons,List.map_nil,combined]
    rfl

/-! ### A commit -/

namespace Pins

/-- These expressions have been evaluated, in this order. -/
structure Asked (c : Tick) (exprs : List Str) (s s' : Pins) : Prop where
  evaluated : s'.evaluated.map Prod.snd =
    s.evaluated.map Prod.snd ++ exprs.map (truth c (s.parseExpr.memory.follow c))
  memory : s'.parseExpr.memory = noted c (exprs.flatMap parsed) s.parseExpr.memory

theorem Asked.append {c : Tick} {exprs more : List Str} {s s' s'' : Pins} (first : Asked c exprs s s')
    (second : Asked c more s' s'') : Asked c (exprs ++ more) s s'' where
  evaluated := by
    rw [second.evaluated,first.evaluated,first.memory,noted_follow,List.map_append,List.append_assoc]
  memory := by rw [second.memory,first.memory,← noted_append,List.flatMap_append]

def Quiet (s s' : Pins) : Prop := s'.evaluated = s.evaluated ∧ s'.parseExpr.memory = s.parseExpr.memory

theorem quiet_closed : Closed Quiet :=
  ⟨fun _ => ⟨rfl,rfl⟩,fun _ _ _ first second => ⟨second.1.trans first.1,second.2.trans first.2⟩⟩

theorem Quiet.asked {s s' : Pins} (quiet : Quiet s s') (c : Tick) : Asked c [] s s' :=
  ⟨by rw [quiet.1,List.map_nil,List.append_nil],quiet.2⟩

theorem write_quiet (pin : Int) (w : PinWrite) : Moves Quiet (write pin w) := fun _ => ⟨rfl,rfl⟩

theorem time_quiet (clock : Nat → Int) : Moves Quiet (onExpr (time clock)) := fun _ => ⟨rfl,rfl⟩

theorem settle_quiet (i : Inputs) (pin : Int) (force : Bool) (group : List PinCtl) (index : Nat) (value : Bool) :
    Moves Quiet (settle i pin force group index value) :=
  settle_moves quiet_closed (write_quiet pin) (time_quiet _) force group index value

theorem evaluate_asked (c : Tick) (pin : Int) {function : Str} (accepted : Accepted function) (s : Pins) :
    ∃ value s', evaluate c.inputs pin function s = .ok value s' ∧ Asked c [function] s s' := by
  obtain ⟨v,p,ran,meant,memory⟩ := (accepted_parsed accepted).2 c s.parseExpr
  have tested : onExpr (getResult c.inputs function) s = .ok v { s with parseExpr := p } := by
    simp only [onExpr,focus,ran]
  refine ⟨_,_,by rw [evaluate,bind_ok tested]; rfl,?_,?_⟩
  · simp [← meant]
  · simpa using memory

theorem scan_asked {c : Tick} {pin : Int} {rest front : List PinCtl} {pinCtl : Nat} {value : Bool} {s s' : Pins}
    {out : List PinCtl × Nat × Bool} (accepted : ∀ ctl ∈ rest, Accepted ctl.function)
    (ran : scan c.inputs pin front rest pinCtl value s = .ok out s') : Asked c (rest.map PinCtl.function) s s' := by
  induction rest generalizing front pinCtl value s with
  | nil =>
    cases ran
    exact (quiet_closed.refl _).asked c
  | cons it rest ih =>
    have later {front : List PinCtl} {pinCtl : Nat} {value : Bool} {s : Pins}
        (ran : scan c.inputs pin front rest pinCtl value s = .ok out s') : Asked c (rest.map PinCtl.function) s s' :=
      ih (fun ctl member => accepted ctl (List.mem_cons_of_mem _ member)) ran
    obtain ⟨v,s1,evaluated,asked⟩ := evaluate_asked c pin (accepted it List.mem_cons_self) s
    rw [scan,bind_ok evaluated] at ran
    split at ran
    · exact asked.append (later ran)
    · split at ran
      · obtain ⟨_,s2,⟨⟩,ran⟩ := returned_of_bind ran
        exact asked.append ((write_quiet pin _ s1).asked c |>.append (later ran))
      · exact asked.append (later ran)

/-- The expressions of the pins, in the order of the loop. -/
def exprs (pins : PinMap) : List Str := pins.flatMap (fun it => it.2.map PinCtl.function)

theorem commitPins_asked {c : Tick} {force : Bool} {pins pins' : PinMap} {s s' : Pins}
    (accepted : ∀ it ∈ pins, ∀ ctl ∈ it.2, Accepted ctl.function)
    (ran : commitPins c.inputs force pins s = .ok pins' s') : Asked c (exprs pins) s s' := by
  induction pins generalizing pins' s with
  | nil =>
    cases ran
    exact (quiet_closed.refl _).asked c
  | cons it rest ih =>
    obtain ⟨here,others⟩ := List.forall_mem_cons.mp accepted
    obtain ⟨group,s1,first,ran⟩ := returned_of_bind ran
    obtain ⟨rest',s2,later,⟨⟩⟩ := returned_of_bind ran
    obtain ⟨⟨after,index,value⟩,s3,loop,ended⟩ := returned_of_bind first
    have settled : settle c.inputs it.1 force after index value s3 = .ok group s1 := ended
    have quiet := settle_quiet c.inputs it.1 force after index value s3
    rw [settled] at quiet
    have turn := (scan_asked here loop).append (quiet.asked c)
    rw [List.append_nil] at turn
    exact turn.append (ih others later)

/-- A commit evaluates every expression, and notes the speed unless they are all `F0` to `F9`. -/
theorem commit_asked {c : Tick} {force : Bool} {s s' : Pins} (defined : s.Defined)
    (ran : commit c.inputs force s = .ok () s') :
    s'.evaluated.map Prod.snd = (exprs s.pins).map (truth c (s.parseExpr.memory.follow c)) ∧
      s'.parseExpr.memory = noted c ((exprs s.pins).flatMap parsed) s.parseExpr.memory := by
  obtain ⟨_,s0,⟨⟩,ran⟩ := returned_of_bind ran
  obtain ⟨_,_,⟨⟩,ran⟩ := returned_of_bind ran
  obtain ⟨pins,s1,loop,⟨⟩⟩ := returned_of_bind ran
  have asked := commitPins_asked defined.accepted loop
  exact ⟨asked.evaluated,asked.memory⟩

/-! ### The history -/

/-- The time of the last commit at which the speed went from `a` to `b` with `moved a b`; `prior` is
the one before the first. -/
def lastTime (moved : Int → Int → Bool) : Int → List Tick → Option Int
  | _, [] => none
  | prior, c :: rest => (lastTime moved c.speed rest).or (if moved prior c.speed then some c.time else none)

def rose (before after : Int) : Bool := decide (after > before)

def fell (before after : Int) : Bool := decide (after < before)

theorem follow_last (c : Tick) (m : Memory) :
    (m.follow c).lastAccel = (if rose m.speed c.speed then some c.time else none).getD m.lastAccel ∧
    (m.follow c).lastBrake = (if fell m.speed c.speed then some c.time else none).getD m.lastBrake := by
  rcases Int.lt_trichotomy m.speed c.speed with up | same | down
  · have other : ¬c.speed < m.speed := by omega
    simp [Memory.follow,rose,fell,up,Int.ne_of_lt up,other]
  · simp [Memory.follow,rose,fell,same]
  · have other : ¬m.speed < c.speed := by omega
    simp [Memory.follow,rose,fell,down,Int.ne_of_gt down,other]

/-- The memory of a parser that notes every speed. -/
theorem foldl_follow (commits : List Tick) (m : Memory) :
    (commits.foldl (fun m c => m.follow c) m).lastAccel = (lastTime rose m.speed commits).getD m.lastAccel ∧
    (commits.foldl (fun m c => m.follow c) m).lastBrake = (lastTime fell m.speed commits).getD m.lastBrake := by
  induction commits generalizing m with
  | nil => exact ⟨rfl,rfl⟩
  | cons c rest ih =>
    obtain ⟨accel,brake⟩ := ih (m.follow c)
    obtain ⟨accel',brake'⟩ := follow_last c m
    rw [List.foldl_cons,accel,brake,Memory.follow_speed,accel',brake',lastTime,lastTime,Option.getD_or,Option.getD_or]
    exact ⟨rfl,rfl⟩

/-- The expressions as a run keeps them, one of them with more than `F0` to `F9`, and the memory. -/
structure History (commits : List Tick) (s : Pins) : Prop extends Defined s where
  noticing : ((exprs s.pins).flatMap parsed).all isFunc = false
  memory : s.parseExpr.memory = commits.foldl (fun m c => m.follow c) ⟨0, 0, 0⟩

theorem turns_exprs {i : Inputs} {force : Bool} {s s' : Pins} {pins pins' : PinMap}
    (turns : List.Forall₂ (fun before after => after.1 = before.1 ∧ Turn i force before.1 before.2 after.2 s s')
      pins pins') : exprs pins' = exprs pins := by
  induction turns with
  | nil => rfl
  | cons here _ ih =>
    obtain ⟨_,_,_,turned,_⟩ := here
    have kept := congrArg (List.map Prod.fst) (commitPin_kept turned)
    rw [List.map_map,List.map_map] at kept
    rw [exprs,exprs,List.flatMap_cons,List.flatMap_cons]
    exact congrArg₂ (· ++ ·) kept ih

theorem tick_history {commits : List Tick} {s : Pins} (history : History commits s) (c : Tick) :
    History (commits ++ [c]) (s.tick c) := by
  have ran := tick_returns history.toDefined c
  have same := turns_exprs (commit_turns history.toDefined ran)
  obtain ⟨_,memory⟩ := commit_asked history.toDefined ran
  refine ⟨commit_defined history.toDefined ran,by rw [same]; exact history.noticing,?_⟩
  rw [memory,noted,history.noticing,history.memory,List.foldl_append]
  rfl

theorem run_history (commits : List Tick) {earlier : List Tick} {s : Pins} (history : History earlier s) :
    History (earlier ++ commits) (run tick s commits) := by
  induction commits generalizing earlier s with
  | nil => simpa [run] using history
  | cons c rest ih =>
    have later := ih (tick_history history c)
    rw [List.append_assoc] at later
    exact later

/-- The board as it boots, as a commit. -/
def bootTick (boot : Int) : Tick := ⟨0, 0, ({} : RaspiPWM).currentFunc, boot⟩

theorem noted_boot (boot : Int) (atoms : List Atom) {m : Memory} (standing : m.speed = 0) :
    noted (bootTick boot) atoms m = m := by
  unfold noted
  split
  · rfl
  · exact if_pos standing

theorem defined_memory {boot : Int} {definitions : List Definition} {s s' : Pins}
    (standing : s.parseExpr.memory = ⟨0, 0, 0⟩)
    (ran : definitions.forM (define (atBoot (fun _ => boot))) s = .ok () s') : s'.parseExpr.memory = ⟨0, 0, 0⟩ := by
  induction definitions generalizing s with
  | nil =>
    cases ran
    exact standing
  | cons d rest ih =>
    obtain ⟨_,s1,first,ran⟩ := returned_of_bind ran
    obtain ⟨accepted,v,p,evaluated,rfl⟩ := define_inserts first
    obtain ⟨v',p',evaluated',_,memory⟩ := (accepted_parsed accepted).2 (bootTick boot) s.parseExpr
    have same : p = p' := by
      have both : EStateM.Result.ok v p = .ok v' p' := evaluated.symm.trans evaluated'
      cases both
      rfl
    rw [standing,noted_boot boot _ rfl] at memory
    exact ih (same ▸ memory) ran

/-- A definition is among the expressions. -/
theorem mem_exprs {s : Pins} {pin : Int} {ctl : PinCtl} (member : ctl ∈ s.group pin) : ctl.function ∈ exprs s.pins := by
  unfold group at member
  cases found : s.pins.lookup pin with
  | none =>
    rw [found] at member
    cases member
  | some group =>
    rw [found] at member
    obtain ⟨front,back,split,_⟩ := List.lookup_eq_some_iff.mp found
    have inside : (pin, group) ∈ s.pins := by
      rw [split]
      exact List.mem_append_right _ List.mem_cons_self
    exact List.mem_flatMap.mpr ⟨_,inside,List.mem_map_of_mem member⟩

theorem boot_history {boot : Int} {definitions : List Definition} {s : Pins}
    (timed : ∃ d ∈ definitions, ∃ a : Atom, a.isFunc = false ∧ a.text ∈ operands d.function)
    (booted : init (fun _ => boot) definitions {} = .ok () s) : History [] s := by
  obtain ⟨_,s0,made,forced⟩ := returned_of_bind booted
  have empty : Defined {} := ⟨.nil,fun _ member => (List.not_mem_nil member).elim⟩
  obtain ⟨defined,groups⟩ := defined_groups empty made
  have standing := defined_memory rfl made
  have boots : commit (bootTick boot).inputs true s0 = .ok () s := forced
  obtain ⟨_,memory⟩ := commit_asked defined boots
  refine ⟨commit_defined defined boots,?_,?_⟩
  · rw [turns_exprs (commit_turns defined boots),List.all_eq_false]
    obtain ⟨d,member,a,other,asked⟩ := timed
    have inside : d.pinCtl ∈ s0.group d.pin := by
      rw [groups]
      exact List.mem_append_right _ (List.mem_map_of_mem (List.mem_filter.mpr ⟨member,by simp⟩))
    refine ⟨a,List.mem_flatMap.mpr ⟨_,mem_exprs inside,?_⟩,by simp [other]⟩
    exact List.mem_filterMap.mpr ⟨_,asked,ofText_text a⟩
  · rw [memory,standing,noted_boot boot _ rfl]
    rfl

/-- The last commit that moved the speed so is less than these seconds ago, at the commit `c`. -/
def Recent (moved : Int → Int → Bool) (commits : List Tick) (c : Tick) (seconds : Seconds) : Prop :=
  ∃ t, lastTime moved 0 (commits ++ [c]) = some t ∧ t > c.time - seconds.count

/-- What is kept in a memory that began with 0. -/
theorem recent_iff {moved : Int → Int → Bool} {commits : List Tick} {c : Tick} (late : 15 < c.time)
    (seconds : Seconds) : (lastTime moved 0 (commits ++ [c])).getD 0 > c.time - seconds.count ↔
      Recent moved commits c seconds := by
  have short : seconds.count ≤ 15 := by cases seconds <;> decide
  unfold Recent
  cases lastTime moved 0 (commits ++ [c]) with
  | none =>
    simp only [Option.getD_none,reduceCtorEq,false_and,exists_false,iff_false]
    omega
  | some t => simp

/-- Every timer of every commit of every run: with the operands of all definitions evaluated in the
order of the loop, `accel+Ns` and `brake+Ns` give what the history of the speeds says, and the
commit takes its values from these. -/
theorem timers_follow (boot : Int) (definitions : List Definition) (s : Pins)
    (timed : ∃ d ∈ definitions, ∃ seconds, (accel seconds).text ∈ operands d.function ∨
      (brake seconds).text ∈ operands d.function)
    (booted : init (fun _ => boot) definitions {} = .ok () s) (commits : List Tick) (c : Tick) (late : 15 < c.time) :
    ∃ given p, answered c.inputs (exprs (run tick s commits).pins) (run tick s commits).parseExpr = .ok given p ∧
      ((run tick s commits).tick c).parseExpr.memory = p.memory ∧
      ((run tick s commits).tick c).evaluated.map Prod.snd = List.zipWith verdict (exprs (run tick s commits).pins)
        (given.map (fun vs => vs.map (fun v => decide (v ≠ 0)))) ∧
      ∀ k expr j, (exprs (run tick s commits).pins)[k]? = some expr → ∀ seconds,
        ((operands expr)[j]? = some (accel seconds).text →
          ∃ v, reply given k j = some v ∧ (v ≠ 0 ↔ Recent rose commits c seconds)) ∧
        ((operands expr)[j]? = some (brake seconds).text →
          ∃ v, reply given k j = some v ∧ (v ≠ 0 ↔ Recent fell commits c seconds)) := by
  have noticed : ∃ d ∈ definitions, ∃ a : Atom, a.isFunc = false ∧ a.text ∈ operands d.function := by
    obtain ⟨d,member,seconds,accel | brake⟩ := timed
    · exact ⟨d,member,_,rfl,accel⟩
    · exact ⟨d,member,_,rfl,brake⟩
  have history := run_history commits (boot_history noticed booted)
  rw [List.nil_append] at history
  generalize run tick s commits = now at history ⊢
  have texts : ∀ expr ∈ exprs now.pins, operands expr = (parsed expr).map text := by
    intro expr member
    obtain ⟨it,inside,member⟩ := List.mem_flatMap.mp member
    obtain ⟨ctl,defined,rfl⟩ := List.mem_map.mp member
    exact (accepted_parsed (history.accepted it inside ctl defined)).1
  obtain ⟨given,p,ran,meant,memory⟩ := answered_meaning c (exprs now.pins) texts now.parseExpr
  obtain ⟨evaluated,memory'⟩ := commit_asked history.toDefined (tick_returns history.toDefined c)
  have kept : now.parseExpr.memory.follow c = (commits ++ [c]).foldl (fun m c => m.follow c) ⟨0, 0, 0⟩ := by
    rw [history.memory,List.foldl_append]
    rfl
  obtain ⟨accel,brake⟩ := foldl_follow (commits ++ [c]) ⟨0, 0, 0⟩
  refine ⟨given,p,ran,memory'.trans memory.symm,?_,?_⟩
  · rw [evaluated,meant,List.zipWith_map_right,List.zipWith_self]
    rfl
  · intro k expr j here seconds
    have text := texts expr (List.mem_of_getElem? here)
    constructor
    · intro asked
      obtain ⟨v,replied,iff⟩ := reply_meaning meant text here asked
      refine ⟨v,replied,iff.trans ?_⟩
      rw [meaning,decide_eq_true_eq,kept,accel]
      exact recent_iff late seconds
    · intro asked
      obtain ⟨v,replied,iff⟩ := reply_meaning meant text here asked
      refine ⟨v,replied,iff.trans ?_⟩
      rw [meaning,decide_eq_true_eq,kept,brake]
      exact recent_iff late seconds

def startLamp : Definition := ⟨4, str "(accel+5s) || (F3)", 100, 0⟩

def startBoard : Pins := final (init (fun _ => 0) [startLamp] {})

def atSpeed (speed time : Int) : Tick := ⟨0, speed, Vector.replicate MAX_NFUNC false, time⟩

/-- Faster at 100: the first operand is true at 103. -/
theorem timers_follow_start : ∃ given p,
    answered (atSpeed 10 103).inputs (exprs (run tick startBoard [atSpeed 10 100]).pins)
      (run tick startBoard [atSpeed 10 100]).parseExpr = .ok given p ∧ ∃ v, reply given 0 0 = some v ∧ v ≠ 0 := by
  have booted : returned (init (fun _ => 0) [startLamp] {}) = true := by decide +kernel
  obtain ⟨given,p,ran,_,_,timers⟩ := timers_follow 0 [startLamp] startBoard
    ⟨startLamp,List.mem_singleton_self _,.five,.inl (by decide)⟩ (ok_final booted) [atSpeed 10 100] (atSpeed 10 103)
    (by decide)
  have first : (exprs (run tick startBoard [atSpeed 10 100]).pins)[0]? = some startLamp.function := by decide +kernel
  obtain ⟨v,replied,iff⟩ := (timers 0 _ 0 first .five).1 (by decide)
  exact ⟨given,p,ran,v,replied,iff.mpr ⟨100,rfl,by decide⟩⟩

end Pins

end Btcontrol
