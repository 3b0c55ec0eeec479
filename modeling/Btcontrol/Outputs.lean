import Btcontrol.Timers

/-! `USBPlatine::sendLoco` on the RaspiPWM board, with its pins. `sendLoco` fills `func[MAX_NFUNC]` up
to `nFunc` and the board takes the whole array, so what was on the stack is read as the functions the
loco does not have. -/
namespace Btcontrol

open Exec ParseExpr Transition Atom

/-! ### What an expression reads of the functions -/

def Atom.reads : Atom → List Nat
  | func nr => [nr.val]
  | light _ _ => [0]
  | _ => []

structure SeenAlike (reads : List Nat) (i i' : Inputs) : Prop where
  dir : i'.dir = i.dir
  speed : i'.speed = i.speed
  clock : i'.clock = i.clock
  func : ∀ nr ∈ reads, i'.currentFunc.toList[nr]?.getD false = i.currentFunc.toList[nr]?.getD false

theorem SeenAlike.mono {reads reads' : List Nat} {i i' : Inputs} (agree : SeenAlike reads i i') (fewer : reads' ⊆ reads) :
    SeenAlike reads' i i' :=
  ⟨agree.dir,agree.speed,agree.clock,fun nr member => agree.func nr (fewer member)⟩

theorem lookup_agree {i i' : Inputs} {a : Atom} (agree : SeenAlike a.reads i i') (member : a ∈ listed) (p : ParseExpr) :
    (atoms i' p).lookup a.text = (atoms i p).lookup a.text := by
  have func := agree.func
  obtain ⟨dir,speed,currentFunc,clock⟩ := i
  obtain ⟨dir',speed',currentFunc',clock'⟩ := i'
  obtain ⟨rfl,rfl,rfl,_⟩ := agree
  fin_cases member
  all_goals first
    | rfl
    | exact congrArg (fun lit => some (Value.plain (ofBool lit))) (by rw [func 0 (List.mem_singleton_self 0)])

theorem simple_agree {i i' : Inputs} {a : Atom} (agree : SeenAlike a.reads i i') : simple i' a.text = simple i a.text := by
  funext p
  rcases mem_listed a with member | ⟨nr,rfl⟩
  · have followed : follow i' = follow i := by
      funext p
      rw [follow_apply,follow_apply,agree.speed,agree.clock]
    obtain ⟨none,_⟩ := lookup_listed i 0 p a member
    simp only [simple,none,followed,agree.clock,bind_apply,get_apply,follow_apply,lookup_agree agree member]
  · simp only [simple,funcNr_func,agree.func nr.val (List.mem_singleton_self _)]

def exprReads (expr : Str) : List Nat := (parsed expr).flatMap reads

theorem getResult_agree {i i' : Inputs} {expr : Str} (accepted : Pins.Accepted expr)
    (agree : SeenAlike (exprReads expr) i i') : getResult i' expr = getResult i expr := by
  funext p
  rcases (getResult_accepted i expr p).mp (accepted i p) with ⟨a,rfl⟩ | ⟨is_and,a,b,tail,rfl⟩
  · have one : exprReads a.text = a.reads := by simp [exprReads,parsed,operands_atom,ofText_text]
    rw [getResult,getResult,resultWithin_atom,resultWithin_atom,simple_agree (one ▸ agree)]
  · have two : exprReads (pairText is_and a b tail) = a.reads ++ b.reads := by
      simp [exprReads,parsed,(operands_pair is_and a b tail).1,ofText_text]
    rw [two] at agree
    rw [getResult_pair,getResult_pair,simple_agree (agree.mono (List.subset_append_left _ _)),
      simple_agree (agree.mono (List.subset_append_right _ _))]

namespace Pins

theorem scan_agree {i i' : Inputs} (pin : Int) {rest : List PinCtl} (accepted : ∀ ctl ∈ rest, Accepted ctl.function)
    (agree : ∀ ctl ∈ rest, SeenAlike (exprReads ctl.function) i i') (front : List PinCtl) (pinCtl : Nat) (value : Bool) :
    scan i' pin front rest pinCtl value = scan i pin front rest pinCtl value := by
  induction rest generalizing front pinCtl value with
  | nil => rfl
  | cons it rest ih =>
    have later := ih (fun ctl member => accepted ctl (List.mem_cons_of_mem _ member))
      (fun ctl member => agree ctl (List.mem_cons_of_mem _ member))
    have first : evaluate i' pin it.function = evaluate i pin it.function := by
      unfold evaluate
      rw [getResult_agree (accepted it List.mem_cons_self) (agree it List.mem_cons_self)]
    simp only [scan,first,later]

theorem commitPins_agree {i i' : Inputs} (clock : i'.clock = i.clock) (force : Bool) {pins : PinMap}
    (accepted : ∀ it ∈ pins, ∀ ctl ∈ it.2, Accepted ctl.function)
    (agree : ∀ it ∈ pins, ∀ ctl ∈ it.2, SeenAlike (exprReads ctl.function) i i') :
    commitPins i' force pins = commitPins i force pins := by
  induction pins with
  | nil => rfl
  | cons it rest ih =>
    obtain ⟨pin,group⟩ := it
    have later := ih (fun it member => accepted it (List.mem_cons_of_mem _ member))
      (fun it member => agree it (List.mem_cons_of_mem _ member))
    have settles : settle i' pin force = settle i pin force := by
      funext group index value
      simp only [settle,expire,clock]
    have first : commitPin i' pin force group = commitPin i pin force group := by
      unfold commitPin
      rw [scan_agree pin (accepted _ List.mem_cons_self) (agree _ List.mem_cons_self),settles]
    rw [commitPins,commitPins,first,later]

/-- A commit sees of the functions only what its expressions read. -/
theorem step_agree {i i' : Inputs} {s : Pins} (defined : s.Defined)
    (agree : SeenAlike ((exprs s.pins).flatMap exprReads) i i') : s.step i' = s.step i := by
  have each : ∀ it ∈ s.pins, ∀ ctl ∈ it.2, SeenAlike (exprReads ctl.function) i i' := by
    intro it inside ctl member
    apply agree.mono
    intro nr read
    exact List.mem_flatMap.mpr ⟨_,List.mem_flatMap.mpr ⟨it,inside,List.mem_map_of_mem member⟩,read⟩
  have loop := commitPins_agree agree.clock false defined.accepted each
  simp only [step,commit,bind_apply,modify_apply,get_apply,loop]

end Pins

/-- `class RaspiPWM`: the motor and the pins. -/
structure RaspiBoard where
  motor : RaspiPWM := {}
  pins : Pins := {}

namespace RaspiBoard

def onMotor {α : Type} (m : EStateM Err RaspiPWM α) : EStateM Err RaspiBoard α :=
  focus motor (fun motor b => { b with motor }) m

/-- What `commit` gives to `getResult`. -/
def inputs (clock : Nat → Int) (b : RaspiBoard) : Inputs := ⟨b.motor.dir, b.motor.pwm, b.motor.currentFunc, clock⟩

def commit (clock : Nat → Int) : EStateM Err RaspiBoard Unit :=
  modify (fun b => { b with pins := b.pins.step (b.inputs clock) })

variable (cfg : RaspiPWM.Config) (clock : Nat → Int)

def platine : Platine RaspiBoard where
  setPWM f_speed := onMotor (RaspiPWM.setPWM cfg f_speed)
  setDir dir := onDevice (onMotor (RaspiPWM.setDir dir))
  setFunction nFunc func := onMotor (RaspiPWM.setFunction cfg nFunc func)
  commit := commit clock
  fullstop _ _ := onDevice (onMotor (RaspiPWM.setPWM cfg 0))
  getCV cv value := lift (cfg.registers cv value)
  clientConnected := pure ()
  clientDisconnected _ := pure ()
  setDir_effect _ := USBPlatine.onBoard_effect _
  fullstop_effect _ _ := USBPlatine.onBoard_effect _

/-- The motor as `commit` finds it. -/
def told (l : Lokdef) (emergencyStop : Bool) (b : RaspiPWM) : RaspiPWM :=
  let b := final (RaspiPWM.setFunction cfg l.nFunc l.flagsOn b)
  if emergencyStop then final (RaspiPWM.setPWM cfg 0 b)
  else final (RaspiPWM.setPWM cfg (USBPlatine.f_speed l)
    (final (RaspiPWM.setDir (if l.currdir < 0 then 1 else 0) b)))

/-- `sendLoco` on this board. -/
theorem sendLoco_eq {g : Globals RaspiBoard} {addr_index : Nat} {l : Lokdef}
    (here : g.lokdef[addr_index]? = some l) (emergencyStop : Bool) :
    USBPlatine.sendLoco (platine cfg clock) addr_index emergencyStop g = .ok () { g with device :=
      { motor := told cfg l emergencyStop g.device.motor
        pins := g.device.pins.step (RaspiBoard.inputs clock ⟨told cfg l emergencyStop g.device.motor, g.device.pins⟩) } } := by
  have loco : g.lokdef[addr_index]?.getD .zeroed = l := by rw [here]; rfl
  rw [← loco]
  cases emergencyStop <;> rfl

/-! ### What is left on the stack -/

theorem told_func (l : Lokdef) (emergencyStop : Bool) (b : RaspiPWM) {nr : Nat} (bound : nr < MAX_NFUNC) :
    (told cfg l emergencyStop b).currentFunc.toList[nr]?.getD false = l.flagsOn[nr]?.getD (cfg.stack b.calls nr) := by
  have assigned (pwm : UInt8) (b : RaspiPWM) : (RaspiPWM.assignPWM pwm b).currentFunc = b.currentFunc := by
    unfold RaspiPWM.assignPWM
    split <;> rfl
  have taken : (final (RaspiPWM.setFunction cfg l.nFunc l.flagsOn b)).currentFunc.toList[nr]?.getD false =
      l.flagsOn[nr]?.getD (cfg.stack b.calls nr) := by
    simp [RaspiPWM.setFunction,bound]
  rw [← taken]
  cases emergencyStop <;> simp [told,RaspiPWM.setPWM,RaspiPWM.setDir,assigned]

/-- What is seen of the motor, with its direction. -/
def shown (b : RaspiPWM) : Int × Int × Option UInt8 := (b.dir, b.pwm, b.output)

theorem assign_shown {b b' : RaspiPWM} (same : shown b' = shown b) (pwm : UInt8) :
    shown (RaspiPWM.assignPWM pwm b') = shown (RaspiPWM.assignPWM pwm b) := by
  simp only [shown,Prod.mk.injEq] at same
  obtain ⟨dir,old,output⟩ := same
  unfold RaspiPWM.assignPWM
  rw [old]
  split
  · simp only [shown,dir]
  · simp only [shown,dir,old,output]

/-- The board with the functions of the loco, as far as it is seen. -/
theorem setFunction_shown (l : Lokdef) (b : RaspiPWM) :
    shown (final (RaspiPWM.setFunction cfg l.nFunc l.flagsOn b)) = shown b := by
  simp only [RaspiPWM.setFunction,modify_apply,final_ok,shown]

theorem setDir_shown {b b' : RaspiPWM} (same : shown b' = shown b) (dir : Nat) :
    shown (final (RaspiPWM.setDir dir b')) = shown (final (RaspiPWM.setDir dir b)) := by
  simp only [shown,Prod.mk.injEq] at same
  simp only [RaspiPWM.setDir,modify_apply,final_ok,shown,same.2]

theorem setPWM_shown {b b' : RaspiPWM} (same : shown b' = shown b) {cfg cfg' : RaspiPWM.Config} {f_speed : Int}
    (units : RaspiPWM.units cfg' b'.f9 f_speed = RaspiPWM.units cfg b.f9 f_speed) :
    shown (final (RaspiPWM.setPWM cfg' f_speed b')) = shown (final (RaspiPWM.setPWM cfg f_speed b)) := by
  simp only [RaspiPWM.setPWM,modify_apply,final_ok,units]
  exact assign_shown same _

/-- The speed is the same where F9 does not count or the loco has it. -/
theorem told_shown (l : Lokdef) (emergencyStop : Bool) (b : RaspiPWM) (stack stack' : Nat → Nat → Bool)
    (known : emergencyStop = true ∨ USBPlatine.f_speed l ≠ 255 ∨ 10 ≤ l.nFunc) :
    shown (told { cfg with stack := stack' } l emergencyStop b) = shown (told { cfg with stack } l emergencyStop b) := by
  have given := (setFunction_shown { cfg with stack := stack' } l b).trans
    (setFunction_shown { cfg with stack } l b).symm
  have stands (cfg : RaspiPWM.Config) (f9 : Bool) : RaspiPWM.units cfg f9 0 = 0 := rfl
  cases emergencyStop with
  | true =>
    simp only [told,↓reduceIte]
    apply setPWM_shown given
    rw [stands,stands]
  | false =>
    simp only [told,Bool.false_eq_true,↓reduceIte]
    apply setPWM_shown (setDir_shown given _)
    have board (stack : Nat → Nat → Bool) (dir : Nat) :
        (final (RaspiPWM.setDir dir (final (RaspiPWM.setFunction { cfg with stack } l.nFunc l.flagsOn b)))).f9 =
          l.flagsOn[9]?.getD (stack b.calls 9) :=
      RaspiPWM.function_f9 { cfg with stack } b l.nFunc l.flagsOn
    rw [board,board]
    rcases known with stop | slower | enough
    · cases stop
    · have other : ¬(USBPlatine.f_speed l : Int) = 255 := by omega
      simp only [RaspiPWM.units,other,false_and]
    · have below : ((9 : Nat) : Int) < l.nFunc := by omega
      obtain ⟨on,found⟩ := flagsOn_below l below
      rw [found]
      rfl

/-- The PWM value and what was written to the pins. -/
def outputs (g : Globals RaspiBoard) : Int × Option UInt8 × List (Int × PinWrite) :=
  (g.device.motor.pwm, g.device.motor.output, g.device.pins.writes)

/-- `sendLoco` with this on the stack. -/
def sent (stack : Nat → Nat → Bool) (addr_index : Nat) (emergencyStop : Bool) (g : Globals RaspiBoard) :
    EStateM.Result Err (Globals RaspiBoard) Unit :=
  USBPlatine.sendLoco (platine { cfg with stack } clock) addr_index emergencyStop g

/-- The stack is not seen where the loco has every function that an expression reads, and F9 where it
counts. -/
theorem sent_same {g : Globals RaspiBoard} {addr_index : Nat} {l : Lokdef} (here : g.lokdef[addr_index]? = some l)
    (defined : g.device.pins.Defined) {emergencyStop : Bool}
    (known : emergencyStop = true ∨ USBPlatine.f_speed l ≠ 255 ∨ 10 ≤ l.nFunc)
    (reads : ∀ nr ∈ (Pins.exprs g.device.pins.pins).flatMap exprReads, (nr : Int) < l.nFunc)
    (stack stack' : Nat → Nat → Bool) :
    outputs (final (sent cfg clock stack' addr_index emergencyStop g)) =
      outputs (final (sent cfg clock stack addr_index emergencyStop g)) := by
  have motor := told_shown cfg l emergencyStop g.device.motor stack stack' known
  have func : ∀ nr ∈ (Pins.exprs g.device.pins.pins).flatMap exprReads,
      (told { cfg with stack := stack' } l emergencyStop g.device.motor).currentFunc.toList[nr]?.getD false =
        (told { cfg with stack } l emergencyStop g.device.motor).currentFunc.toList[nr]?.getD false := by
    intro nr read
    have below := reads nr read
    have most := l.nFunc_le
    obtain ⟨on,found⟩ := flagsOn_below l below
    rw [told_func _ l emergencyStop _ (by omega),told_func _ l emergencyStop _ (by omega),found]
    rfl
  rw [sent,sent,sendLoco_eq _ clock here,sendLoco_eq _ clock here]
  generalize told { cfg with stack := stack' } l emergencyStop g.device.motor = m' at motor func ⊢
  generalize told { cfg with stack } l emergencyStop g.device.motor = m at motor func ⊢
  simp only [shown,Prod.mk.injEq] at motor
  obtain ⟨dir,pwm,output⟩ := motor
  have timed (b : RaspiBoard) : (RaspiBoard.inputs clock b).clock = clock := rfl
  have agree : SeenAlike ((Pins.exprs g.device.pins.pins).flatMap exprReads)
      (RaspiBoard.inputs clock ⟨m, g.device.pins⟩) (RaspiBoard.inputs clock ⟨m', g.device.pins⟩) :=
    ⟨dir,pwm,(timed _).trans (timed _).symm,func⟩
  simp only [final_ok,outputs,pwm,output,Pins.step_agree defined agree]

/-- For one configuration of the pins it is enough that the record has every function that its expressions read, and
F9 where the motor asks for it: then the outputs are those with the functions beyond `nFunc` off. -/
theorem outputs_from_configuration {g : Globals RaspiBoard} {addr_index : Nat} {l : Lokdef}
    (here : g.lokdef[addr_index]? = some l) (defined : g.device.pins.Defined) {emergencyStop : Bool}
    (known : emergencyStop = true ∨ USBPlatine.f_speed l ≠ 255 ∨ 10 ≤ l.nFunc)
    (reads : ∀ nr ∈ (Pins.exprs g.device.pins.pins).flatMap exprReads, (nr : Int) < l.nFunc)
    (stack : Nat → Nat → Bool) :
    returned (sent cfg clock stack addr_index emergencyStop g) = true ∧
      outputs (final (sent cfg clock stack addr_index emergencyStop g)) =
        outputs (final (sent cfg clock (fun _ _ => false) addr_index emergencyStop g)) := by
  constructor
  · rw [sent,sendLoco_eq _ clock here]
    rfl
  · exact sent_same cfg clock here defined known reads (fun _ _ => false) stack

theorem reads_below (a : Atom) : ∀ nr ∈ a.reads, nr < 10 := by
  intro nr member
  cases a with
  | func f =>
    rw [List.mem_singleton.mp member]
    exact f.isLt
  | light forward moving =>
    rw [List.mem_singleton.mp member]
    decide
  | const | dir | speed | accel | brake => cases member

/-! ### A pin that shows one function -/

def probe (nr : Fin 10) : Pins.Definition := ⟨4, (func nr).text, 100, 0⟩

def probePins (nr : Fin 10) : Pins := final (Pins.init (fun _ => 0) [probe nr] {})

theorem probe_boots (nr : Fin 10) : Pins.init (fun _ => 0) [probe nr] {} = .ok () (probePins nr) := by
  have returns : ∀ nr : Fin 10, returned (Pins.init (fun _ => 0) [probe nr] {}) = true := by decide +kernel
  exact ok_final (returns nr)

theorem probe_exprs (nr : Fin 10) : Pins.exprs (probePins nr).pins = [(func nr).text] := by
  have each : ∀ nr : Fin 10, Pins.exprs (probePins nr).pins = [(func nr).text] := by decide +kernel
  exact each nr

/-- The pin after a commit is the function. -/
theorem probe_level (nr : Fin 10) (c : Tick) :
    ((probePins nr).tick c).level 4 = some (.digitalWrite (c.currentFunc.toList[nr.val]?.getD false)) := by
  obtain ⟨ctl,single,_,level⟩ := Pins.boot_single (d := probe nr) rfl rfl (probe_boots nr)
  obtain ⟨value,next,level'⟩ := Pins.tick_kept rfl single c
  -- the value is that of the one expression
  have valued : value = c.currentFunc.toList[nr.val]?.getD false := by
    have asked := (Pins.commit_asked single.toDefined (Pins.tick_returns single.toDefined c)).1
    have meant : truth c ((probePins nr).parseExpr.memory.follow c) (func nr).text =
        c.currentFunc.toList[nr.val]?.getD false := by
      simp [truth,parsed,operands_atom,ofText_text,verdict,meaning]
    have values := next.values
    rw [(Pins.settled_fixed _ _ _ _ _).2,Pins.values] at values
    rw [probe_exprs,List.map_cons,List.map_nil,meant] at asked
    obtain ⟨it,one,same⟩ := List.map_eq_singleton_iff.mp asked
    rw [one] at values
    rw [← same]
    by_cases here : (it.1 == (probe nr).pin) = true
    · simpa [here] using values.symm
    · simp [here] at values
  have limit : ctl.maxTime = 0 := congrArg (fun it => it.2.2) single.kept
  have shows : (Pins.settled false value c.time ctl ((probePins nr).level 4)).2 = some (.digitalWrite value) := by
    unfold Pins.settled
    split
    · rfl
    · rename_i stays
      simp only [Bool.false_eq_true,false_or,not_not] at stays
      simp only [limit,ne_eq,not_true_eq_false,false_and,↓reduceIte,stays]
      exact level
  rw [← valued]
  exact level'.trans shows

theorem probe_defined (nr : Fin 10) : (probePins nr).Defined := by
  obtain ⟨ctl,single,_⟩ := Pins.boot_single (d := probe nr) rfl rfl (probe_boots nr)
  exact single.toDefined

/-- The pin shows what was on the stack for the first function the loco does not have. -/
theorem probe_stack {l : Lokdef} {nr : Fin 10} (number : nr.val = l.nFunc.toNat) (stack : Nat → Nat → Bool) :
    (final (sent {} (fun _ => 0) stack 0 false ⟨[l], {}, probePins nr⟩)).device.pins.level 4 =
      some (.digitalWrite (stack 0 nr.val)) := by
  have none : l.flagsOn[nr.val]? = none := by
    apply List.getElem?_eq_none
    simp only [Lokdef.flagsOn,List.length_map,List.length_take]
    omega
  have bound : nr.val < MAX_NFUNC := Nat.lt_trans nr.isLt (by decide)
  have func := told_func { stack } l false {} bound
  rw [none] at func
  rw [sent,sendLoco_eq _ _ (l := l) rfl,final_ok]
  generalize told { stack } l false {} = motor at func ⊢
  refine (probe_level nr ⟨motor.dir, motor.pwm, motor.currentFunc, 0⟩).trans ?_
  rw [func]
  rfl

/-- Two runs of `sendLoco` from any state of the board give the same outputs, those with the functions
beyond `nFunc` off, for every configuration of the pins: this holds of the records with at least ten
functions and of no others. -/
theorem outputs_from_table (l : Lokdef) :
    (∀ (cfg : RaspiPWM.Config) (clock : Nat → Int) (g : Globals RaspiBoard) (addr_index : Nat) (emergencyStop : Bool)
      (stack : Nat → Nat → Bool), g.lokdef[addr_index]? = some l → g.device.pins.Defined →
      returned (sent cfg clock stack addr_index emergencyStop g) = true ∧
      outputs (final (sent cfg clock stack addr_index emergencyStop g)) =
        outputs (final (sent cfg clock (fun _ _ => false) addr_index emergencyStop g))) ↔ 10 ≤ l.nFunc := by
  constructor
  · intro same
    by_contra few
    obtain ⟨nr,number⟩ : ∃ nr : Fin 10, nr.val = l.nFunc.toNat := ⟨⟨l.nFunc.toNat,by omega⟩,rfl⟩
    have outcome := (same {} (fun _ => 0) ⟨[l], {}, probePins nr⟩ 0 false (fun _ _ => true) rfl (probe_defined nr)).2
    have levels := congrArg (fun it => List.lookup 4 it.2.2) outcome
    have both := (probe_stack number (fun _ _ => true)).symm.trans
      (levels.trans (probe_stack number (fun _ _ => false)))
    cases both
  · intro enough cfg clock g addr_index emergencyStop stack here defined
    refine outputs_from_configuration cfg clock here defined (.inr (.inr enough)) ?_ stack
    intro nr read
    obtain ⟨expr,_,inside⟩ := List.mem_flatMap.mp read
    obtain ⟨a,_,member⟩ := List.mem_flatMap.mp inside
    have below := reads_below a nr member
    omega

/-- Two locos with the head light only, pin 4 for F1: what is on the stack drives the pin. -/
theorem outputs_from_stack : readLokdef twoLocosCsv = .ok twoLocos ∧
    Pins.init (fun _ => 0) [probe 1] {} = .ok () (probePins 1) ∧
    (final (sent {} (fun _ => 0) (fun _ _ => true) 0 false ⟨twoLocos, {}, probePins 1⟩)).device.pins.level 4 =
      some (.digitalWrite true) ∧
    (final (sent {} (fun _ => 0) (fun _ _ => false) 0 false ⟨twoLocos, {}, probePins 1⟩)).device.pins.level 4 =
      some (.digitalWrite false) :=
  ⟨rfl,probe_boots 1,by decide +kernel,by decide +kernel⟩

end RaspiBoard

end Btcontrol
