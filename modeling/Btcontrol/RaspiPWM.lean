import Btcontrol.Digispark
import Btcontrol.OneLoco
import Btcontrol.Platine

/-! `RaspiPWM.cpp` and `USBDigispark.cpp` under the server. Both keep the PWM value they set
last. `sendLoco` sets it from the table, `fullstop` sets it to 0 and leaves the table as it
is: a loco that was driving when its client went is driving in the table ever after. -/
namespace Btcontrol

open Exec ClientThread Transition

/-- `f_speed*((double)fullSpeed - motorStart)/255 + motorStart` as an integer. -/
def motorUnits (fullSpeed motorStart f_speed : Int) : Int :=
  (f_speed * (fullSpeed - motorStart) + motorStart * 255).tdiv 255

/-- The members that the motor depends on. The pins of `commit` do not act on it. -/
structure RaspiPWM where
  dir : Int := -1
  pwm : Int := -1
  nFunc : Int := 0
  /-- F0 is on when it boots. -/
  currentFunc : Vector Bool MAX_NFUNC := (Vector.replicate MAX_NFUNC false).setIfInBounds 0 true
  /-- Records: the calls of `setFunction`, and the value last given to `pwmWrite`. -/
  calls : Nat := 0
  output : Option UInt8 := none

namespace RaspiPWM

/-- The configuration. `stack` is what each `sendLoco` finds in its `func[MAX_NFUNC]` behind
the functions of the loco: `setFunction` copies the whole array. `registers` are the sound
volume and the battery. -/
structure Config where
  motorStart : Int := 70
  motorFullSpeed : Int := 255
  motorFullSpeedBoost : Int := 255
  stack : Nat → Nat → Bool := fun _ _ => false
  registers : Int → Int → Except Err Int := fun _ _ => .ok (-1)

variable (cfg : Config)

/-- The value for a speed. F9 lifts the limit of full speed. -/
def units (f9 : Bool) (f_speed : Int) : UInt8 :=
  if 0 < f_speed then
    if f_speed = 255 ∧ f9 = true then UInt8.ofInt cfg.motorFullSpeedBoost
    else UInt8.ofInt (motorUnits cfg.motorFullSpeed cfg.motorStart f_speed)
  else 0

def assignPWM (pwm : UInt8) (b : RaspiPWM) : RaspiPWM :=
  if b.pwm ≠ pwm.toNat then { b with pwm := pwm.toNat, output := some pwm } else b

def f9 (b : RaspiPWM) : Bool := b.currentFunc.toList[9]?.getD false

def setPWM (f_speed : Int) : EStateM Err RaspiPWM Unit :=
  modify (fun b => assignPWM (units cfg b.f9 f_speed) b)

def setDir (dir : Nat) : EStateM Err RaspiPWM Unit := modify (fun b => { b with dir := dir })

def setFunction (nFunc : Int) (func : List Bool) : EStateM Err RaspiPWM Unit := modify (fun b => { b with
  nFunc
  currentFunc := Vector.ofFn (fun j => func[j.val]?.getD (cfg.stack b.calls j))
  calls := b.calls + 1 })

/-- The end of `init`. -/
def init : RaspiPWM := final ((do setPWM cfg 0; setDir 0) {} : EStateM.Result Err RaspiPWM Unit)

/-- `fullstop` is `setPWM(0)`. -/
def platine : Platine RaspiPWM where
  setPWM f_speed := setPWM cfg f_speed
  setDir dir := onDevice (setDir dir)
  setFunction := setFunction cfg
  commit := pure ()
  fullstop _ _ := onDevice (setPWM cfg 0)
  getCV cv value := lift (cfg.registers cv value)
  clientConnected := pure ()
  clientDisconnected _ := pure ()
  setDir_effect _ := USBPlatine.onBoard_effect _
  fullstop_effect _ _ := USBPlatine.onBoard_effect _

/-- What `setPWM` computes from a record. A loco with fewer than ten functions has no F9. -/
def value (l : Lokdef) : UInt8 := units cfg (l.flagsOn[9]?.getD false) (USBPlatine.f_speed l)

/-- What `sendLoco` would find behind the functions does not count: the record has F9, or its
speed does not ask for it, or it is off there. -/
def Settled (b : RaspiPWM) (l : Lokdef) : Prop :=
  10 ≤ l.nFunc ∨ USBPlatine.f_speed l ≠ 255 ∨ cfg.stack b.calls 9 = false

instance (b : RaspiPWM) (l : Lokdef) : Decidable (Settled cfg b l) := inferInstanceAs (Decidable (_ ∨ _))

end RaspiPWM

namespace Digispark

/-- The calls of the board, each run to its end. The communication thread moves between them. -/
def platine (motorStart : Int) (registers : Int → Int → Except Err Int) : Platine State where
  setPWM f_speed := modify (fun s => Transition.run (step motorStart) s [.setPWM f_speed, .assign])
  setDir dir := onDevice (modify (fun s => Transition.run (step motorStart) s [.setDir (UInt8.ofNat dir), .assign]))
  setFunction _ _ := pure ()
  commit := pure ()
  fullstop _ _ := onDevice (modify (fun s => Transition.run (step motorStart) s [.fullstop, .assign, .wake]))
  getCV cv value := lift (registers cv value)
  clientConnected := pure ()
  clientDisconnected _ := pure ()
  setDir_effect _ := USBPlatine.onBoard_effect _
  fullstop_effect _ _ := USBPlatine.onBoard_effect _

def value (motorStart : Int) (l : Lokdef) : UInt8 := pwmUnits motorStart (USBPlatine.f_speed l)

end Digispark

/-- What such a board keeps: `shows` tells the value set last, `value` what `setPWM` makes of
a record that is `settled` for the board. No operation writes the table. -/
structure Follows {δ : Type} (platine : Platine δ) (shows : δ → UInt8 → Prop) (value : Lokdef → UInt8)
    (settled : δ → Lokdef → Prop) : Prop where
  sent : ∀ emergencyStop g l v, g.lokdef[0]? = some l → shows g.device v →
    (emergencyStop = false → settled g.device l) →
    ∃ d, USBPlatine.sendLoco platine 0 emergencyStop g = .ok () { g with device := d } ∧
      shows d (if emergencyStop then 0 else value l)
  stopped : ∀ stopAll emergencyStop g v, shows g.device v →
    ∃ d, platine.fullstop stopAll emergencyStop g = .ok () { g with device := d } ∧ shows d 0
  turned : ∀ g v, shows g.device v →
    ∃ d, platine.setDir 0 g = .ok () { g with device := d } ∧ shows d v
  registers : ∀ cv v, Moves (fun d d' => d' = d) (platine.getCV cv v)
  connected : platine.clientConnected = pure ()
  disconnected : ∀ all, platine.clientDisconnected all = pure ()
  standing : ∀ l, l.currspeed.natAbs < 5 → value l = 0

theorem f_speed_standing (l : Lokdef) (stands : l.currspeed.natAbs < 5) : USBPlatine.f_speed l = 0 :=
  if_pos stands

theorem RaspiPWM.shows_assign (pwm : UInt8) (b : RaspiPWM) (v : UInt8) (shows : b.pwm = v.toNat ∧ b.output = some v) :
    (assignPWM pwm b).pwm = pwm.toNat ∧ (assignPWM pwm b).output = some pwm := by
  simp only [assignPWM]
  by_cases same : b.pwm = pwm.toNat
  · have equal : v = pwm := by
      have numbers : (v.toNat : Int) = pwm.toNat := shows.1.symm.trans same
      exact UInt8.toNat_inj.mp (by omega)
    subst equal
    simp [shows]
  · simp [same]

/-- The F9 of the board once it has got the functions of a loco. -/
theorem RaspiPWM.function_f9 (cfg : RaspiPWM.Config) (b : RaspiPWM) (nFunc : Int) (func : List Bool) :
    (final (setFunction cfg nFunc func b)).f9 = func[9]?.getD (cfg.stack b.calls 9) := by
  simp [setFunction,f9,MAX_NFUNC]

/-- The board once it has got the functions and the direction of a loco. -/
def RaspiPWM.told (cfg : RaspiPWM.Config) (b : RaspiPWM) (l : Lokdef) : RaspiPWM :=
  final ((do setFunction cfg l.nFunc l.flagsOn; setDir (if l.currdir < 0 then 1 else 0)) b :
    EStateM.Result Err RaspiPWM Unit)

theorem flagsOn_below (l : Lokdef) {nr : Nat} (below : (nr : Int) < l.nFunc) : ∃ on, l.flagsOn[nr]? = some on := by
  have most := l.nFunc_le
  have inside : nr < l.flagsOn.length := by
    simp only [Lokdef.flagsOn,List.length_map,List.length_take,Vector.length_toList]
    omega
  exact ⟨_,List.getElem?_eq_getElem inside⟩

theorem RaspiPWM.units_slow (cfg : RaspiPWM.Config) {f_speed : Int} (slow : f_speed ≠ 255) (f9 : Bool) :
    units cfg f9 f_speed = units cfg false f_speed := by
  simp [units,slow]

theorem RaspiPWM.value_told (cfg : RaspiPWM.Config) (b : RaspiPWM) (l : Lokdef) (settled : Settled cfg b l) :
    units cfg (told cfg b l).f9 (USBPlatine.f_speed l) = value cfg l := by
  have board : (told cfg b l).f9 = l.flagsOn[9]?.getD (cfg.stack b.calls 9) :=
    function_f9 cfg b l.nFunc l.flagsOn
  rw [board,value]
  cases flag : l.flagsOn[9]? with
  | some on => rfl
  | none =>
    rw [Option.getD_none,Option.getD_none]
    rcases settled with ten | slow | off
    · obtain ⟨on,found⟩ : ∃ on, l.flagsOn[9]? = some on := flagsOn_below l (by omega)
      rw [flag] at found
      cases found
    · exact units_slow cfg (fun fast => slow (by exact_mod_cast fast)) _
    · rw [off]

theorem RaspiPWM.follows (cfg : RaspiPWM.Config) :
    Follows (RaspiPWM.platine cfg) (fun b v => b.pwm = v.toNat ∧ b.output = some v) (RaspiPWM.value cfg)
      (RaspiPWM.Settled cfg) where
  sent := by
    intro emergencyStop g l v record shows settled
    cases emergencyStop with
    | true =>
      refine ⟨_,rfl,?_⟩
      exact shows_assign 0 (final (setFunction cfg _ _ g.device)) v shows
    | false =>
      have loco : g.lokdef[0]?.getD .zeroed = l := by rw [record]; rfl
      have same := value_told cfg g.device l (settled rfl)
      refine ⟨assignPWM (units cfg (told cfg g.device l).f9 (USBPlatine.f_speed l)) (told cfg g.device l),?_,?_⟩
      · rw [← loco]
        rfl
      · rw [same]
        exact shows_assign _ (told cfg g.device l) v shows
  stopped := by
    intro stopAll emergencyStop g v shows
    exact ⟨_,rfl,shows_assign _ g.device v shows⟩
  turned := by
    intro g v shows
    exact ⟨_,rfl,shows⟩
  registers := by
    intro cv v
    exact moves_lift closed_eq _
  connected := rfl
  disconnected _ := rfl
  standing := by
    intro l stands
    rw [value,f_speed_standing l stands]
    rfl

theorem Digispark.pwmUnits_zero (motorStart : Int) : pwmUnits motorStart 0 = 0 := rfl

/-- A call of `setPWM` or `fullstop` by the one calling thread. -/
theorem Digispark.setPWM_shows (motorStart f_speed : Int) (s : State) (outside : s.caller = .outside)
    (alive : s.thread ≠ .aborted) :
    (Transition.run (step motorStart) s [.setPWM f_speed, .assign]).pwm = pwmUnits motorStart f_speed ∧
    (Transition.run (step motorStart) s [.setPWM f_speed, .assign]).caller = .outside ∧
    (Transition.run (step motorStart) s [.setPWM f_speed, .assign]).thread ≠ .aborted := by
  simp only [Transition.run,List.foldl_cons,List.foldl_nil,step,alive,outside,↓reduceIte,setPWM]
  by_cases same : s.pwm = pwmUnits motorStart f_speed
  · simp [same,alive,assign]
  · simp [same,alive,assign,sendCmd]

theorem Digispark.fullstop_shows (motorStart : Int) (s : State) (outside : s.caller = .outside)
    (alive : s.thread ≠ .aborted) :
    (Transition.run (step motorStart) s [.fullstop, .assign, .wake]).pwm = 0 ∧
    (Transition.run (step motorStart) s [.fullstop, .assign, .wake]).caller = .outside ∧
    (Transition.run (step motorStart) s [.fullstop, .assign, .wake]).thread ≠ .aborted := by
  simp only [Transition.run,List.foldl_cons,List.foldl_nil,step,alive,outside,↓reduceIte,setPWM,pwmUnits_zero]
  by_cases same : s.pwm = 0
  · simp [same,alive,assign]
  · simp [same,alive,assign,sendCmd]

theorem Digispark.setDir_shows (motorStart : Int) (dir : UInt8) (s : State) (outside : s.caller = .outside)
    (alive : s.thread ≠ .aborted) :
    (Transition.run (step motorStart) s [.setDir dir, .assign]).pwm = s.pwm ∧
    (Transition.run (step motorStart) s [.setDir dir, .assign]).caller = .outside ∧
    (Transition.run (step motorStart) s [.setDir dir, .assign]).thread ≠ .aborted := by
  simp only [Transition.run,List.foldl_cons,List.foldl_nil,step,alive,outside,↓reduceIte,setDir]
  by_cases same : s.dir = dir
  · simp [same,alive,assign,outside]
  · simp [same,alive,assign,sendCmd]

theorem Digispark.follows (motorStart : Int) (registers : Int → Int → Except Err Int) :
    Follows (Digispark.platine motorStart registers)
      (fun s v => s.pwm = v ∧ s.caller = .outside ∧ s.thread ≠ .aborted) (Digispark.value motorStart)
      (fun _ _ => True) where
  sent := by
    intro emergencyStop g l v record shows _
    cases emergencyStop with
    | true =>
      refine ⟨_,rfl,?_⟩
      exact fullstop_shows motorStart g.device shows.2.1 shows.2.2
    | false =>
      have loco : g.lokdef[0]?.getD .zeroed = l := by rw [record]; rfl
      have turned := setDir_shows motorStart (UInt8.ofNat (if l.currdir < 0 then 1 else 0)) g.device
        shows.2.1 shows.2.2
      refine ⟨_,rfl,?_⟩
      rw [loco]
      exact setPWM_shows motorStart (USBPlatine.f_speed l) _ turned.2.1 turned.2.2
  stopped := by
    intro stopAll emergencyStop g v shows
    exact ⟨_,rfl,fullstop_shows motorStart g.device shows.2.1 shows.2.2⟩
  turned := by
    intro g v shows
    have turned := setDir_shows motorStart (UInt8.ofNat 0) g.device shows.2.1 shows.2.2
    exact ⟨_,rfl,turned.1.trans shows.1,turned.2⟩
  registers := by
    intro cv v
    exact moves_lift closed_eq _
  connected := rfl
  disconnected _ := rfl
  standing := by
    intro l stands
    rw [value,f_speed_standing l stands]
    rfl

section

variable {δ : Type} {platine : Platine δ} {shows : δ → UInt8 → Prop} {value : Lokdef → UInt8}
  {settled : δ → Lokdef → Prop}

def InStep (shows : δ → UInt8 → Prop) (value : Lokdef → UInt8) (g : Globals δ) : Prop :=
  ∃ l, OneLoco g.lokdef l ∧ shows g.device (value l)

/-- A step that keeps it: a client that goes leaves a loco that stands, a command that is
cut short has not changed what the motor should have, and a record that is sent is settled. -/
structure KeepsMotor (value : Lokdef → UInt8) (settled : δ → Lokdef → Prop) (s : Server δ) (label : Label) :
    Prop where
  goes : ∀ clientID, label = .destroy clientID → s.phaseOf clientID = some .left → s.halted = false →
    ∀ l, s.lokdef[0]? = some l → l.currspeed.natAbs < 5
  cut : ∀ clientID w cmd, Turn s label clientID w cmd → ∀ command l l' emergencyStop,
    commandOf w cmd = .ok (some command) → s.lokdef[0]? = some l →
    ordered w cmd s.lokdef l command = some (l', emergencyStop) → ¬Completes w cmd s.lokdef command →
      value l' = value l
  sent : ∀ clientID w cmd, Turn s label clientID w cmd → ∀ command l l',
    commandOf w cmd = .ok (some command) → s.lokdef[0]? = some l →
    ordered w cmd s.lokdef l command = some (l', false) → Completes w cmd s.lokdef command →
      settled s.globals.device { l' with lastClientID := clientID }

theorem Follows.respects (follows : Follows platine shows value settled) :
    Respects (USBPlatine platine) (fun d d' => d' = d) := by
  refine ⟨closed_eq,?_,?_⟩
  · intro addr cv v
    exact moves_ite (moves_pure closed_eq _) (follows.registers cv v)
  · exact fun _ _ _ _ => moves_pure closed_eq _

theorem told_inStep (follows : Follows platine shows value settled) (clientID : Int) (w : World) (cmd : FBTCtlMessage)
    (g g' : Globals δ) (l : Lokdef) (one : OneLoco g.lokdef l) (inStep : shows g.device (value l))
    (told : Told (USBPlatine platine) (fun d d' => d' = d) clientID w cmd g l g')
    (cut : ∀ command l' emergencyStop, commandOf w cmd = .ok (some command) →
      ordered w cmd g.lokdef l command = some (l', emergencyStop) → ¬Completes w cmd g.lokdef command →
        value l' = value l)
    (settles : ∀ command l', commandOf w cmd = .ok (some command) →
      ordered w cmd g.lokdef l command = some (l', false) → Completes w cmd g.lokdef command →
        settled g.device { l' with lastClientID := clientID }) :
    InStep shows value g' := by
  cases told with
  | called command l' emergencyStop branch order through sent =>
    have addr := ordered_addr order
    have next := one.write { l' with lastClientID := clientID } addr
    obtain ⟨d,returned,shown⟩ := follows.sent emergencyStop
      { g with lokdef := g.lokdef.set 0 { l' with lastClientID := clientID } } _ _ next.record inStep (by
        rintro rfl
        exact settles command l' branch order through)
    have ended : g' = { g with
        lokdef := g.lokdef.set 0 { l' with lastClientID := clientID }, device := d } := by
      rw [sent]
      exact congrArg final returned
    rw [ended]
    refine ⟨_,next,?_⟩
    cases emergencyStop with
    | false => exact shown
    | true =>
      have stands := follows.standing { l' with lastClientID := clientID } (by
        show l'.currspeed.natAbs < 5
        rw [ordered_emergency order]
        decide)
      rw [stands]
      exact shown
  | cut command l' emergencyStop branch order short written =>
    rw [written]
    refine ⟨l',one.write l' (ordered_addr order),?_⟩
    show shows g.device (value l')
    rw [cut command l' emergencyStop branch order short]
    exact inStep
  | power v branch switched =>
    obtain ⟨d,turned,shown⟩ := follows.turned g _ inStep
    have outcome : g' = g ∨ g' = { g with device := d } := by
      rw [switched]
      simp only [setPower]
      split
      · exact .inl rfl
      · split
        · exact .inl rfl
        · exact .inr (congrArg final turned)
    rcases outcome with rfl | rfl
    · exact ⟨l,one,inStep⟩
    · exact ⟨l,one,shown⟩
  | still _ leaves =>
    refine ⟨l,?_,?_⟩
    · rw [leaves.1]
      exact one
    · rw [leaves.2]
      exact inStep

theorem step_inStep (follows : Follows platine shows value settled) (s : Server δ) (label : Label)
    (keeps : KeepsMotor value settled s label) (before : InStep shows value s.globals ∧ s.Ready) :
    InStep shows value (Server.step (USBPlatine platine) s label).globals ∧
      (Server.step (USBPlatine platine) s label).Ready := by
  refine ⟨?_,Server.step_ready _ s label before.2⟩
  obtain ⟨⟨l,one,inStep⟩,ready⟩ := before
  have connected : Moves (fun d d' : δ => d' = d) (USBPlatine platine).clientConnected := by
    show Moves _ platine.clientConnected
    rw [follows.connected]
    exact moves_pure closed_eq _
  cases step_one (USBPlatine platine) follows.respects connected s label l one ready with
  | idle leaves =>
    refine ⟨l,?_,?_⟩
    · rw [leaves.1]
      exact one
    · rw [leaves.2]
      exact inStep
  | told clientID w cmd turn told =>
    exact told_inStep follows clientID w cmd s.globals _ l one inStep told
      (fun command l' emergencyStop branch => keeps.cut clientID w cmd turn command l l' emergencyStop branch one.record)
      (fun command l' branch => keeps.sent clientID w cmd turn command l l' branch one.record)
  | destroyed clientID last goes left live stopped =>
    have stands := keeps.goes clientID goes left live l one.record
    obtain ⟨d,returned,shown⟩ := follows.stopped last true s.globals _ inStep
    have ended : Server.destructor (USBPlatine platine) clientID last s.globals =
        .ok () { s.globals with device := d } := by
      show (platine.fullstop last true >>= fun _ => onDevice (platine.clientDisconnected last)) s.globals = _
      rw [bind_ok returned,follows.disconnected]
      rfl
    rw [stopped,ended]
    refine ⟨l,one,?_⟩
    show shows d (value l)
    rw [follows.standing l stands]
    exact shown

/-- A disconnect leaves the table as it is. -/
theorem destroy_table (follows : Follows platine shows value settled) (s : Server δ) (inStep : InStep shows value s.globals)
    (clientID : Int) : (Server.step (USBPlatine platine) s (.destroy clientID)).lokdef = s.lokdef := by
  obtain ⟨l,_,shown⟩ := inStep
  obtain ⟨d,returned,_⟩ := follows.stopped (decide (s.numClients - 1 = 0)) true s.globals _ shown
  have ended : Server.destructor (USBPlatine platine) clientID (decide (s.numClients - 1 = 0)) s.globals =
      .ok () { s.globals with device := d } := by
    show (platine.fullstop _ true >>= fun _ => onDevice (platine.clientDisconnected _)) s.globals = _
    rw [bind_ok returned,follows.disconnected]
    rfl
  simp only [Server.step]
  split
  · rfl
  · split
    · simp only [ended,final_ok]
    · rfl

/-- In every state of a run whose steps keep the motor. -/
theorem run_inStep (follows : Follows platine shows value settled) (lokdef : List Lokdef) (device : δ)
    (labels : List Label) (start : InStep shows value ⟨lokdef, device⟩)
    (keeps : Along (Server.step (USBPlatine platine)) (KeepsMotor value settled) (Server.start lokdef device) labels) :
    InStep shows value (Server.run (USBPlatine platine) (Server.start lokdef device) labels).globals :=
  (run_invariant (step_inStep follows) labels _ ⟨start,fun _ member => by cases member⟩ keeps).1

/-- What a client may rely on at the end of a run: the value set last is the one that belongs
to the loco, and after every disconnect the next ACC starts from standstill. -/
structure MotorFollows (hardware : Hardware δ) (output : δ → Option UInt8) (value : Lokdef → UInt8)
    (start : Server δ) (labels : List Label) : Prop where
  motor : ∃ l, (Server.run hardware start labels).lokdef[0]? = some l ∧
    output (Server.run hardware start labels).globals.device = some (value l)
  standstill : ∀ before clientID after, labels = before ++ .destroy clientID :: after →
    (Server.run hardware start before).phaseOf clientID = some .left →
    (Server.run hardware start before).halted = false →
    ∀ l, (Server.step hardware (Server.run hardware start before) (.destroy clientID)).lokdef[0]? = some l →
      l.currspeed.natAbs < 5

theorem run_motorFollows (follows : Follows platine shows value settled) (output : δ → Option UInt8)
    (seen : ∀ d v, shows d v → output d = some v) (lokdef : List Lokdef) (device : δ)
    (labels : List Label) (start : InStep shows value ⟨lokdef, device⟩)
    (keeps : Along (Server.step (USBPlatine platine)) (KeepsMotor value settled) (Server.start lokdef device) labels) :
    MotorFollows (USBPlatine platine) output value (Server.start lokdef device) labels := by
  constructor
  · obtain ⟨l,one,shown⟩ := run_inStep follows lokdef device labels start keeps
    exact ⟨l,one.record,seen _ _ shown⟩
  · rintro before clientID after rfl left live l there
    obtain ⟨admitted,here⟩ := along_split before (.destroy clientID) after _ keeps
    have inStep := run_inStep follows lokdef device before start admitted
    rw [destroy_table follows _ inStep clientID] at there
    exact here.goes clientID rfl left live l there

end

/-- A fresh table of one loco and a motor at 0 are in step. -/
theorem fresh_one {lokdefCsv : Str} {lokdef : List Lokdef} (read : readLokdef lokdefCsv = .ok lokdef)
    (one : nLokdef lokdef = 1) : ∃ l, OneLoco lokdef l ∧ l.currspeed = 0 ∧ l.currdir = 1 := by
  cases lokdef with
  | nil => cases one
  | cons l rest =>
    have fresh := readLokdef_fresh lokdefCsv (l :: rest) read l List.mem_cons_self
    have used : l.addr ≠ 0 := by
      intro unused
      simp [nLokdef,unused] at one
    exact ⟨l,⟨one,rfl⟩,fresh.currspeed,fresh.currdir used⟩

/-- For every table of one loco and every run in which each client that goes leaves a loco
that stands, no command is cut short after it has changed what the motor should have, and on
RaspiPWM every record that is sent is settled: RaspiPWM and USBDigispark have set what belongs to the record, and
every disconnect leaves a table from which the next ACC starts at standstill. -/
theorem motor_follows_table (lokdefCsv : Str) (lokdef : List Lokdef) (read : readLokdef lokdefCsv = .ok lokdef)
    (one : nLokdef lokdef = 1) (labels : List Label) :
    (∀ cfg : RaspiPWM.Config,
      Along (Server.step (USBPlatine (RaspiPWM.platine cfg))) 
        (KeepsMotor (RaspiPWM.value cfg) (RaspiPWM.Settled cfg))
        (Server.start lokdef (RaspiPWM.init cfg)) labels →
      MotorFollows (USBPlatine (RaspiPWM.platine cfg)) RaspiPWM.output (RaspiPWM.value cfg)
        (Server.start lokdef (RaspiPWM.init cfg)) labels) ∧
    (∀ motorStart registers cfg_noInitCommand,
      Along (Server.step (USBPlatine (Digispark.platine motorStart registers)))
        (KeepsMotor (Digispark.value motorStart) (fun _ _ => True))
        (Server.start lokdef (Digispark.start motorStart cfg_noInitCommand)) labels →
      MotorFollows (USBPlatine (Digispark.platine motorStart registers)) (fun s => some s.pwm)
        (Digispark.value motorStart)
        (Server.start lokdef (Digispark.start motorStart cfg_noInitCommand)) labels) := by
  obtain ⟨l,loco,stands,_⟩ := fresh_one read one
  have below : l.currspeed.natAbs < 5 := by rw [stands]; decide
  constructor
  · intro cfg keeps
    have follows := RaspiPWM.follows cfg
    refine run_motorFollows follows RaspiPWM.output (fun _ _ shown => shown.2) lokdef _ labels
      ⟨l,loco,?_⟩ keeps
    rw [follows.standing l below]
    exact ⟨rfl,rfl⟩
  · intro motorStart registers cfg_noInitCommand keeps
    have follows := Digispark.follows motorStart registers
    refine run_motorFollows follows (fun s => some s.pwm) (fun _ _ shown => congrArg some shown.1) lokdef _ labels
      ⟨l,loco,?_⟩ keeps
    rw [follows.standing l below]
    cases cfg_noInitCommand
    · exact ⟨rfl,rfl,fun aborted => by cases aborted⟩
    · exact ⟨rfl,rfl,fun aborted => by cases aborted⟩

/-- A step that can be seen to keep the motor. -/
def undisturbed {δ : Type} (settled : δ → Lokdef → Prop) [∀ d l, Decidable (settled d l)] (s : Server δ) :
    Label → Bool
  | .destroy _ => s.lokdef.all (fun l => l.currspeed.natAbs < 5)
  | .message clientID w cmd => match commandOf w cmd with
    | .ok (some command) => completes w cmd s.lokdef command &&
      s.lokdef.all (fun l => (ordered w cmd s.lokdef l command).all (fun o =>
        settled s.globals.device { o.1 with lastClientID := clientID }))
    | _ => true
  | _ => true

theorem keepsMotor_undisturbed {δ : Type} (value : Lokdef → UInt8) (settled : δ → Lokdef → Prop)
    [∀ d l, Decidable (settled d l)] (s : Server δ) (label : Label)
    (quiet : undisturbed settled s label = true) : KeepsMotor value settled s label where
  goes := by
    rintro clientID rfl left live l record
    simpa using List.all_eq_true.mp quiet l (List.mem_of_getElem? record)
  cut := by
    intro clientID w cmd turn command l l' emergencyStop branch record order short
    have label := turn.label
    subst label
    simp only [undisturbed,branch,Bool.and_eq_true] at quiet
    exact absurd ((completes_iff w cmd s.lokdef command).mp quiet.1) short
  sent := by
    intro clientID w cmd turn command l l' branch record order through
    have label := turn.label
    subst label
    simp only [undisturbed,branch,Bool.and_eq_true] at quiet
    have all := List.all_eq_true.mp quiet.2 l (List.mem_of_getElem? record)
    rw [order] at all
    exact of_decide_eq_true all

/-- A client drives the loco, stops it and goes. -/
def stopsFirst : List Label :=
  [.accept, .helo 1 online, .message 1 online (oneLoco 9 3), .message 1 online (oneLoco 12 3), .readFails 1,
    .destroy 1]

theorem motor_follows_table_stop :
    MotorFollows (USBPlatine (RaspiPWM.platine {})) RaspiPWM.output (RaspiPWM.value {})
      (Server.start oneLocoTable (RaspiPWM.init {})) stopsFirst ∧
    MotorFollows (USBPlatine (Digispark.platine 70 (fun _ _ => .ok (-1)))) (fun s => some s.pwm)
      (Digispark.value 70) (Server.start oneLocoTable (Digispark.start 70 false)) stopsFirst := by
  have follows := motor_follows_table oneLocoCsv oneLocoTable readLokdef_oneLoco rfl stopsFirst
  constructor
  · exact follows.1 {} (along_mono (keepsMotor_undisturbed _ _) stopsFirst _ (by decide +kernel))
  · exact follows.2 70 (fun _ _ => .ok (-1)) false
      (along_mono (keepsMotor_undisturbed _ _) stopsFirst _ (by decide +kernel))

/-- A client drives the loco and goes. -/
def goesAway : List Label :=
  [.accept, .helo 1 online, .message 1 online (oneLoco 9 3), .readFails 1, .destroy 1]

def comesBack : List Label := goesAway ++ [.accept, .helo 2 online, .message 2 online (oneLoco 9 3)]

/-- The motor is at 0 and the table at 5, so the next ACC goes on to 10. -/
theorem motor_stops_table_drives : readLokdef oneLocoCsv = .ok oneLocoTable ∧ nLokdef oneLocoTable = 1 ∧
    ¬MotorFollows (USBPlatine (RaspiPWM.platine {})) RaspiPWM.output (RaspiPWM.value {})
      (Server.start oneLocoTable (RaspiPWM.init {})) goesAway ∧
    ¬MotorFollows (USBPlatine (Digispark.platine 70 (fun _ _ => .ok (-1)))) (fun s => some s.pwm)
      (Digispark.value 70) (Server.start oneLocoTable (Digispark.start 70 false)) goesAway ∧
    (Server.run (USBPlatine (RaspiPWM.platine {})) (Server.start oneLocoTable (RaspiPWM.init {}))
      comesBack).lokdef.map Lokdef.currspeed = [10, 0] := by
  have seen {δ : Type} {hardware : Hardware δ} {output : δ → Option UInt8} {value : Lokdef → UInt8}
      {start : Server δ} (follows : MotorFollows hardware output value start goesAway) :
      (Server.run hardware start goesAway).lokdef[0]?.any (fun l =>
        output (Server.run hardware start goesAway).globals.device =
          some (value l)) = true := by
    obtain ⟨l,record,shown⟩ := follows.motor
    simp [record,shown]
  refine ⟨readLokdef_oneLoco,rfl,?_,?_,by decide +kernel⟩
  · exact fun follows => absurd (seen follows) (by decide +kernel)
  · exact fun follows => absurd (seen follows) (by decide +kernel)

end Btcontrol
