import Btcontrol.Direction
import Btcontrol.RaspiPWM

/-! `ESP32PWM.cpp` on a board with a PWM pin. Its `fullstop` sets the speed in the table to 0,
and `setDir` calls it when the direction changes, in the middle of a `sendLoco` that has
copied the speed before. -/
namespace Btcontrol

open Exec ClientThread Transition

/-- The members that the motor depends on. -/
structure ESP32PWM where
  dir : Nat := 0
  pwm : Int := 0
  changedDir : Bool := false
  /-- Records: the duty last given to `ledcWrite(MOTOR_NR, ...)`, and the last direction
  given to `motorGo`. -/
  duty : Option Int := none
  direct : Nat := 0
  deriving DecidableEq

namespace ESP32PWM

def CW : Nat := 1
def CCW : Nat := 2

/-- `MOTOR_START`, `MOTOR_MAX`, and the registers of `sendPOM`. -/
structure Config where
  motorStart : Int
  motorFullSpeed : Int
  registers : Int → Int → Except Err Int := fun _ _ => .ok (-1)

variable (cfg : Config)

def units (f_speed : Int) : Int :=
  if 0 < f_speed then motorUnits cfg.motorFullSpeed cfg.motorStart f_speed else 0

def setPWM (f_speed : Nat) : EStateM Err ESP32PWM Unit :=
  modify (fun b => { b with pwm := units cfg f_speed, duty := some (units cfg f_speed) })

def fullstop : EStateM Err (Globals ESP32PWM) Unit := do
  onDevice (modify (fun b => { b with duty := some 0 }))
  setLok 0 (setSpeed 0)

/-- An abrupt change of direction stops the loco. -/
def stopToTurn (dir : Nat) : EStateM Err (Globals ESP32PWM) Unit := do
  if (← get).device.dir ≠ dir then
    onDevice (modify (fun b => { b with changedDir := true }))
    fullstop
  else pure ()

def setDir (dir : Nat) : EStateM Err (Globals ESP32PWM) Unit := do
  stopToTurn dir
  onDevice (modify (fun b => { b with dir, direct := if dir ≠ 0 then CW else CCW }))

theorem fullstop_effect : Moves (Effect (fun _ => False)) fullstop := by
  refine moves_bind (effect_closed _) (USBPlatine.onBoard_effect _) (fun _ => setLok_effect _ _ _ ?_)
  exact fun _ l => ⟨rfl,rfl,rfl,rfl,rfl,.inr (.inl rfl)⟩

theorem setDir_effect (dir : Nat) : Moves (Effect (fun _ => False)) (setDir dir) := by
  refine moves_bind (effect_closed _) ?_ (fun _ => USBPlatine.onBoard_effect _)
  refine moves_bind (effect_closed _) (moves_get (effect_closed _)) (fun _ => ?_)
  apply moves_ite
  · exact moves_bind (effect_closed _) (USBPlatine.onBoard_effect _) (fun _ => fullstop_effect)
  · exact moves_pure (effect_closed _) _

def platine : Platine ESP32PWM where
  setPWM := setPWM cfg
  setDir := setDir
  setFunction _ _ := pure ()
  commit := modify (fun b => { b with changedDir := false })
  fullstop _ _ := fullstop
  getCV cv value := lift (cfg.registers cv value)
  clientConnected := pure ()
  clientDisconnected _ := pure ()
  setDir_effect := setDir_effect
  fullstop_effect _ _ := fullstop_effect

/-- `ESP32PWM::sendPOM` does not fall back on `USBPlatine::sendPOM`. -/
def hardware : Hardware ESP32PWM := { USBPlatine (platine cfg) with
  sendPOM := fun _ cv value => lift (cfg.registers cv value) }

def value (l : Lokdef) : Int := units cfg (USBPlatine.f_speed l)

/-- The constructor ends with `sendLoco(0, false)`. -/
def start (lokdef : List Lokdef) : Server ESP32PWM :=
  { globals := final (USBPlatine.sendLoco (platine cfg) 0 false ⟨lokdef, {}⟩) }

def InDuty (g : Globals ESP32PWM) : Prop :=
  ∃ l, OneLoco g.lokdef l ∧ g.device.duty = some (value cfg l)

/-- The direction `sendLoco` asks the board for. -/
def dirOf (l : Lokdef) : Nat := if l.currdir < 0 then 1 else 0

/-- A step that keeps it: no moving loco is sent with another direction than the board has,
and a command that is cut short has not changed what the motor should have. -/
structure KeepsDuty (s : Server ESP32PWM) (label : Label) : Prop where
  turns : ∀ clientID w cmd, Turn s label clientID w cmd → ∀ command l l',
    commandOf w cmd = .ok (some command) → s.lokdef[0]? = some l →
    ordered w cmd s.lokdef l command = some (l', false) → Completes w cmd s.lokdef command →
      s.globals.device.dir = dirOf l' ∨ l'.currspeed.natAbs < 5
  cut : ∀ clientID w cmd, Turn s label clientID w cmd → ∀ command l l' emergencyStop,
    commandOf w cmd = .ok (some command) → s.lokdef[0]? = some l →
    ordered w cmd s.lokdef l command = some (l', emergencyStop) → ¬Completes w cmd s.lokdef command →
      value cfg l' = value cfg l

theorem value_standing (l : Lokdef) (stands : l.currspeed.natAbs < 5) : value cfg l = 0 := by
  rw [value,f_speed_standing l stands]
  rfl

theorem value_stopped (l : Lokdef) : value cfg (setSpeed 0 l) = 0 :=
  value_standing cfg _ (show (0 : Int).natAbs < 5 by decide)

/-- `fullstop` stops both. -/
theorem fullstop_duty (g : Globals ESP32PWM) (l : Lokdef) (one : OneLoco g.lokdef l) :
    ∃ g', fullstop g = .ok () g' ∧ OneLoco g'.lokdef (setSpeed 0 l) ∧ g'.device.duty = some 0 := by
  refine ⟨_,rfl,?_,rfl⟩
  show OneLoco (g.lokdef.modify 0 (setSpeed 0)) (setSpeed 0 l)
  rw [one.modify]
  exact one.write (setSpeed 0 l) rfl

theorem setDir_same (g : Globals ESP32PWM) (dir : Nat) (same : g.device.dir = dir) :
    ∃ d, setDir dir g = .ok () { g with device := d } ∧ d.duty = g.device.duty := by
  refine ⟨{ g.device with dir, direct := if dir ≠ 0 then CW else CCW },?_,rfl⟩
  simp only [setDir,stopToTurn,bind_apply,get_apply,same,ne_eq,not_true_eq_false,↓reduceIte,pure_apply]
  rfl

theorem setDir_turn (g : Globals ESP32PWM) (l : Lokdef) (one : OneLoco g.lokdef l) (dir : Nat)
    (turns : g.device.dir ≠ dir) :
    ∃ g', setDir dir g = .ok () g' ∧ OneLoco g'.lokdef (setSpeed 0 l) ∧ g'.device.duty = some 0 := by
  refine ⟨{ lokdef := g.lokdef.modify 0 (setSpeed 0),device := { g.device with
    changedDir := true,duty := some 0,dir,direct := if dir ≠ 0 then CW else CCW } },?_,?_,rfl⟩
  · simp only [setDir,stopToTurn,bind_apply,get_apply,turns,ne_eq,not_false_eq_true,↓reduceIte]
    rfl
  · show OneLoco (g.lokdef.modify 0 (setSpeed 0)) (setSpeed 0 l)
    rw [one.modify]
    exact one.write (setSpeed 0 l) rfl

/-- One call for a loco that has the direction of the board, or stands, or is to be stopped. -/
theorem sendLoco_duty (g : Globals ESP32PWM) (l : Lokdef) (one : OneLoco g.lokdef l) (emergencyStop : Bool)
    (turns : emergencyStop = false → g.device.dir = dirOf l ∨ l.currspeed.natAbs < 5) :
    InDuty cfg (final (USBPlatine.sendLoco (platine cfg) 0 emergencyStop g)) := by
  have loco : g.lokdef[0]?.getD .zeroed = l := by rw [one.record]; rfl
  have stopped := value_stopped cfg l
  have call : USBPlatine.sendLoco (platine cfg) 0 emergencyStop g =
      (do USBPlatine.drive (platine cfg) l emergencyStop; onDevice (platine cfg).commit) g := by
    rw [← loco]
    rfl
  rw [call]
  cases emergencyStop with
  | true =>
    obtain ⟨g',returned,next,duty⟩ := fullstop_duty g l one
    have drove : USBPlatine.drive (platine cfg) l true g = .ok () g' := returned
    rw [bind_ok drove]
    exact ⟨_,next,duty.trans (congrArg some stopped.symm)⟩
  | false =>
    have drive (g' : Globals ESP32PWM) (turned : setDir (dirOf l) g = .ok () g') :
        USBPlatine.drive (platine cfg) l false g = onDevice (setPWM cfg (USBPlatine.f_speed l)) g' := by
      show (setDir (dirOf l) >>= fun _ => onDevice (setPWM cfg (USBPlatine.f_speed l))) g = _
      rw [bind_ok turned]
    by_cases same : g.device.dir = dirOf l
    · obtain ⟨d,turned,_⟩ := setDir_same g (dirOf l) same
      rw [bind_apply,drive _ turned]
      exact ⟨l,one,rfl⟩
    · -- `fullstop` has set the table to 0, and the speed copied before is 0 as well
      obtain ⟨g',turned,next,_⟩ := setDir_turn g l one (dirOf l) same
      rw [bind_apply,drive g' turned,f_speed_standing l ((turns rfl).resolve_left same)]
      exact ⟨_,next,congrArg some stopped.symm⟩

theorem respects : Respects (hardware cfg) (fun d d' => d' = d) := by
  refine ⟨closed_eq,?_,?_⟩
  · exact fun _ _ _ => moves_lift closed_eq _
  · exact fun _ _ _ _ => moves_pure closed_eq _

theorem told_inDuty (clientID : Int) (w : World) (cmd : FBTCtlMessage) (g g' : Globals ESP32PWM) (l : Lokdef)
    (one : OneLoco g.lokdef l) (duty : g.device.duty = some (value cfg l))
    (told : Told (hardware cfg) (fun d d' => d' = d) clientID w cmd g l g')
    (turns : ∀ command l', commandOf w cmd = .ok (some command) →
      ordered w cmd g.lokdef l command = some (l', false) → Completes w cmd g.lokdef command →
        g.device.dir = dirOf l' ∨ l'.currspeed.natAbs < 5)
    (cut : ∀ command l' emergencyStop, commandOf w cmd = .ok (some command) →
      ordered w cmd g.lokdef l command = some (l', emergencyStop) → ¬Completes w cmd g.lokdef command →
        value cfg l' = value cfg l) :
    InDuty cfg g' := by
  cases told with
  | called command l' emergencyStop branch order through sent =>
    rw [sent]
    have addr := ordered_addr order
    refine sendLoco_duty cfg _ _ (one.write { l' with lastClientID := clientID } addr) emergencyStop ?_
    rintro rfl
    exact turns command l' branch order through
  | cut command l' emergencyStop branch order short written =>
    rw [written]
    refine ⟨l',one.write l' (ordered_addr order),?_⟩
    rw [cut command l' emergencyStop branch order short]
    exact duty
  | power v branch switched =>
    have outcome : g' = g ∨ g' = final (setDir 0 g) := by
      rw [switched]
      simp only [setPower]
      split
      · exact .inl rfl
      · split
        · exact .inl rfl
        · exact .inr rfl
    rcases outcome with rfl | rfl
    · exact ⟨l,one,duty⟩
    by_cases same : g.device.dir = 0
    · obtain ⟨d,turned,kept⟩ := setDir_same g 0 same
      rw [turned]
      exact ⟨l,one,kept.trans duty⟩
    · obtain ⟨g',turned,next,stopped⟩ := setDir_turn g l one 0 same
      rw [turned]
      exact ⟨_,next,stopped.trans (congrArg some (value_stopped cfg l).symm)⟩
  | still _ leaves =>
    refine ⟨l,?_,?_⟩
    · rw [leaves.1]
      exact one
    · rw [leaves.2]
      exact duty

theorem step_inDuty (s : Server ESP32PWM) (label : Label) (keeps : KeepsDuty cfg s label)
    (before : InDuty cfg s.globals ∧ s.Ready) :
    InDuty cfg (Server.step (hardware cfg) s label).globals ∧ (Server.step (hardware cfg) s label).Ready := by
  refine ⟨?_,Server.step_ready _ s label before.2⟩
  obtain ⟨⟨l,one,duty⟩,ready⟩ := before
  cases step_one (hardware cfg) (respects cfg) (moves_pure closed_eq _) s label l one ready with
  | idle leaves =>
    refine ⟨l,?_,?_⟩
    · rw [leaves.1]
      exact one
    · rw [leaves.2]
      exact duty
  | told clientID w cmd turn told =>
    refine told_inDuty cfg clientID w cmd s.globals _ l one duty told ?_ ?_
    · exact fun command l' branch => keeps.turns clientID w cmd turn command l l' branch one.record
    · exact fun command l' emergencyStop branch =>
        keeps.cut clientID w cmd turn command l l' emergencyStop branch one.record
  | destroyed clientID last goes left live stopped =>
    obtain ⟨g',returned,next,off⟩ := fullstop_duty s.globals l one
    have ended : Server.destructor (hardware cfg) clientID last s.globals = .ok () g' := by
      show (fullstop >>= fun _ => onDevice (pure ())) s.globals = _
      rw [bind_ok returned]
      rfl
    rw [stopped,ended]
    exact ⟨_,next,off.trans (congrArg some (value_stopped cfg l).symm)⟩

/-- A step that can be seen to keep the duty. -/
def steady (s : Server ESP32PWM) : Label → Bool
  | .message _ w cmd => match commandOf w cmd with
    | .ok (some command) => completes w cmd s.lokdef command && s.lokdef[0]?.all (fun l =>
      (ordered w cmd s.lokdef l command).all (fun order =>
        order.2 || s.globals.device.dir == dirOf order.1 || order.1.currspeed.natAbs < 5))
    | _ => true
  | _ => true

theorem keepsDuty_steady (s : Server ESP32PWM) (label : Label) (quiet : steady s label = true) :
    KeepsDuty cfg s label where
  turns := by
    intro clientID w cmd turn command l l' branch record order _
    have label := turn.label
    subst label
    simp only [steady,branch,record,Option.all_some,order,Bool.false_or,Bool.and_eq_true,Bool.or_eq_true,
      beq_iff_eq,decide_eq_true_eq] at quiet
    exact quiet.2
  cut := by
    intro clientID w cmd turn command l l' emergencyStop branch record order short
    have label := turn.label
    subst label
    simp only [steady,branch,Bool.and_eq_true] at quiet
    exact absurd ((completes_iff w cmd s.lokdef command).mp quiet.1) short

end ESP32PWM

/-- For every table of one loco and every run in which no moving loco is sent with another
direction than the board has, and no command is cut short after it has changed what the motor
should have: the duty last written is the one of the table's speed, so a loco with speed 0
is not driven. -/
theorem duty_follows_table (cfg : ESP32PWM.Config) (lokdefCsv : Str) (lokdef : List Lokdef)
    (read : readLokdef lokdefCsv = .ok lokdef) (one : nLokdef lokdef = 1) (labels : List Label)
    (keeps : Along (Server.step (ESP32PWM.hardware cfg)) (ESP32PWM.KeepsDuty cfg)
      (ESP32PWM.start cfg lokdef) labels) :
    ∃ l, (Server.run (ESP32PWM.hardware cfg) (ESP32PWM.start cfg lokdef) labels).lokdef[0]? = some l ∧
      (Server.run (ESP32PWM.hardware cfg) (ESP32PWM.start cfg lokdef) labels).globals.device.duty =
        some (ESP32PWM.value cfg l) ∧
      (l.currspeed.natAbs < 5 →
        (Server.run (ESP32PWM.hardware cfg) (ESP32PWM.start cfg lokdef) labels).globals.device.duty = some 0) := by
  obtain ⟨l,loco,stands,_⟩ := fresh_one read one
  have start : ESP32PWM.InDuty cfg (ESP32PWM.start cfg lokdef).globals :=
    ESP32PWM.sendLoco_duty cfg ⟨lokdef, {}⟩ l loco false (fun _ => .inr (by rw [stands]; decide))
  obtain ⟨⟨l',loco',duty⟩,_⟩ := run_invariant (ESP32PWM.step_inDuty cfg) labels _
    ⟨start,fun _ member => by cases member⟩ keeps
  refine ⟨l',loco'.record,duty,?_⟩
  intro stands
  rw [← ESP32PWM.value_standing cfg l' stands]
  exact duty

def ESP32PWM.Config.sample : Config := { motorStart := 40, motorFullSpeed := 255 }

def turnsThenDrives : List Label :=
  [.accept, .helo 1 online, .message 1 online (dirThree (-1)), .message 1 online (oneLoco 9 3)]

theorem duty_follows_table_back : ∃ l,
    (Server.run (ESP32PWM.hardware .sample) (ESP32PWM.start .sample oneLocoTable) turnsThenDrives).lokdef[0]? = some l ∧
    (Server.run (ESP32PWM.hardware .sample) (ESP32PWM.start .sample oneLocoTable) turnsThenDrives).globals.device.duty =
      some (ESP32PWM.value .sample l) := by
  obtain ⟨l,record,duty,_⟩ := duty_follows_table .sample oneLocoCsv oneLocoTable readLokdef_oneLoco rfl
    turnsThenDrives (along_mono (ESP32PWM.keepsDuty_steady _) _ _ (by decide +kernel))
  exact ⟨l,record,duty⟩

def drivesThenTurns : List Label :=
  [.accept, .helo 1 online, .message 1 online (oneLoco 9 3), .message 1 online (dirThree (-1))]

/-- The table has speed 0, and the motor the duty of speed 5. -/
theorem turned_motor_runs : readLokdef oneLocoCsv = .ok oneLocoTable ∧ nLokdef oneLocoTable = 1 ∧
    (Server.run (ESP32PWM.hardware .sample) (ESP32PWM.start .sample oneLocoTable)
      drivesThenTurns).lokdef.map Lokdef.currspeed = [0, 0] ∧
    (Server.run (ESP32PWM.hardware .sample) (ESP32PWM.start .sample oneLocoTable)
      drivesThenTurns).globals.device.duty = some 44 ∧
    ¬∃ l ∈ (Server.run (ESP32PWM.hardware .sample) (ESP32PWM.start .sample oneLocoTable) drivesThenTurns).lokdef,
      (Server.run (ESP32PWM.hardware .sample) (ESP32PWM.start .sample oneLocoTable)
        drivesThenTurns).globals.device.duty = some (ESP32PWM.value .sample l) :=
  ⟨readLokdef_oneLoco,rfl,by decide +kernel,by decide +kernel,by decide +kernel⟩

end Btcontrol
