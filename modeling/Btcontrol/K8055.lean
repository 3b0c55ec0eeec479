import Btcontrol.Direction
import Btcontrol.RaspiPWM
import Btcontrol.SpeedRange

/-! `K8055.cpp`: the Velleman board. `setPWM` and `setDir` only keep their value, and `commit`
writes it. An emergency stop writes the board directly, and then `commit` writes what was kept
from the last command before. -/
namespace Btcontrol

open Exec ClientThread Transition

/-- The last `write_output(a1, a2, d)`, whose two library calls succeed. -/
structure K8055.Output where
  a1 : UInt8
  a2 : UInt8
  d : UInt8
  deriving DecidableEq

/-- The constructor leaves `dir` and `pwm` as they are, and writes nothing. -/
structure K8055 where
  dir : UInt8
  pwm : UInt8
  output : Option K8055.Output := none
  deriving DecidableEq

namespace K8055

def motorStart : Int := 180
def fullSpeed : Int := 128

def setPWM (f_speed : Nat) : EStateM Err K8055 Unit := modify (fun b => { b with
  pwm := if 0 < f_speed then UInt8.ofInt (motorUnits fullSpeed motorStart f_speed) else 0 })

def setDir (dir : Nat) : EStateM Err K8055 Unit := modify (fun b => { b with dir := UInt8.ofNat dir })

def write_output (a1 a2 d : UInt8) : EStateM Err K8055 Unit :=
  modify (fun b => { b with output := some ⟨a1, a2, d⟩ })

/-- `dir` is an `unsigned char`, so the test for a negative one never succeeds. -/
def commit : EStateM Err K8055 Unit := do
  let b ← get
  let ia1 : Int := 255 - b.pwm.toNat
  let id8 : Int := if (b.dir.toNat : Int) < 0 then 0x40 else 0x20
  write_output (UInt8.ofInt ia1) 0 (UInt8.ofInt id8)
  write_output (UInt8.ofInt ia1) 0 (UInt8.ofInt id8)

def fullstop : EStateM Err K8055 Unit := write_output 0 0 3

def platine (registers : Int → Int → Except Err Int) : Platine K8055 where
  setPWM := setPWM
  setDir dir := onDevice (setDir dir)
  setFunction _ _ := pure ()
  commit := commit
  fullstop _ _ := onDevice fullstop
  getCV cv value := lift (registers cv value)
  clientConnected := pure ()
  clientDisconnected _ := pure ()
  setDir_effect _ := USBPlatine.onBoard_effect _
  fullstop_effect _ _ := USBPlatine.onBoard_effect _

/-- The PWM value of a speed: 180 at standstill down to 128 at full speed, and 0 when the
loco stands. -/
def pwmOf (speed : Int) : Int := if speed.natAbs < 5 then 0 else (180 * 255 - 52 * speed.natAbs) / 255

structure Belongs (l : Lokdef) (output : Output) : Prop where
  analog : (output.a1.toNat : Int) = 255 - pwmOf l.currspeed
  backward : l.currdir = -1 → output.d = 0x40
  forward : l.currdir = 1 → output.d = 0x20

def OnBoard (g : Globals K8055) : Prop :=
  ∃ l output, g.lokdef[0]? = some l ∧ g.device.output = some output ∧ Belongs l output

def committed (pwm : UInt8) : Output := ⟨UInt8.ofInt (255 - pwm.toNat), 0, 0x20⟩

theorem commit_apply (b : K8055) : commit b = .ok () { b with output := some (committed b.pwm) } := by
  have never : ¬(b.dir.toNat : Int) < 0 := by omega
  simp only [commit,bind_apply,get_apply,write_output,modify_apply,if_neg never]
  rfl

theorem ofInt_toNat (value : Int) (low : 0 ≤ value) (high : value < 256) :
    ((UInt8.ofInt value).toNat : Int) = value := by
  show ((UInt8.ofNat (value % 2 ^ 8).toNat).toNat : Int) = value
  rw [UInt8.toNat_ofNat']
  omega

theorem committed_analog (pwm : UInt8) : ((committed pwm).a1.toNat : Int) = 255 - pwm.toNat := by
  have small := pwm.toNat_lt
  exact ofInt_toNat _ (by omega) (by omega)

def kept (l : Lokdef) : UInt8 :=
  if 0 < USBPlatine.f_speed l then UInt8.ofInt (motorUnits fullSpeed motorStart (USBPlatine.f_speed l)) else 0

theorem kept_pwmOf (l : Lokdef) (bounded : -255 ≤ l.currspeed ∧ l.currspeed ≤ 255) :
    ((kept l).toNat : Int) = pwmOf l.currspeed := by
  simp only [kept,pwmOf,USBPlatine.f_speed]
  by_cases stands : l.currspeed.natAbs < 5
  · simp [stands]
  · have moves : 0 < l.currspeed.natAbs := by omega
    simp only [if_neg stands,moves,↓reduceIte]
    have units : motorUnits fullSpeed motorStart l.currspeed.natAbs = (180 * 255 - 52 * l.currspeed.natAbs) / 255 := by
      have positive : (0 : Int) ≤ 180 * 255 - 52 * l.currspeed.natAbs := by omega
      have same : (l.currspeed.natAbs : Int) * (fullSpeed - motorStart) + motorStart * 255 =
          180 * 255 - 52 * l.currspeed.natAbs := by
        simp only [fullSpeed,motorStart]
        omega
      rw [motorUnits,same,Int.tdiv_eq_ediv_of_nonneg positive]
    rw [units]
    exact ofInt_toNat _ (by omega) (by omega)

/-- What is written for a loco belongs to it unless it drives backwards. -/
theorem belongs_committed (l : Lokdef) (pwm : UInt8) :
    Belongs l (committed pwm) ↔ (pwm.toNat : Int) = pwmOf l.currspeed ∧ l.currdir ≠ -1 := by
  have analog := committed_analog pwm
  constructor
  · intro belongs
    have same := belongs.analog
    exact ⟨by omega,fun back => absurd (belongs.backward back) (by simp [committed])⟩
  · rintro ⟨same,front⟩
    exact ⟨by omega,fun back => absurd back front,fun _ => rfl⟩

/-- The value `commit` writes after a call for a loco. -/
theorem sendLoco_output (registers : Int → Int → Except Err Int) (g : Globals K8055) (l : Lokdef)
    (record : g.lokdef[0]? = some l) (emergencyStop : Bool) :
    ∃ d, USBPlatine.sendLoco (platine registers) 0 emergencyStop g = .ok () { g with device := d } ∧
      d.output = some (committed (if emergencyStop then g.device.pwm else kept l)) := by
  have loco : g.lokdef[0]?.getD .zeroed = l := by rw [record]; rfl
  cases emergencyStop with
  | true =>
    refine ⟨{ g.device with output := some (committed g.device.pwm) },?_,rfl⟩
    show (onDevice commit) { g with device := { g.device with output := some ⟨0, 0, 3⟩ } } = _
    simp only [onDevice,focus,commit_apply]
  | false =>
    refine ⟨⟨UInt8.ofNat (if l.currdir < 0 then 1 else 0),kept l,some (committed (kept l))⟩,?_,rfl⟩
    subst loco
    show (onDevice commit) { g with device := { g.device with
      dir := UInt8.ofNat (if (g.lokdef[0]?.getD Lokdef.zeroed).currdir < 0 then 1 else 0)
      pwm := kept (g.lokdef[0]?.getD Lokdef.zeroed) } } = _
    simp only [onDevice,focus,commit_apply]

def drives : Command → Bool
  | .ACC | .BREAK | .DIR | .STOP | .ACC_MULTI | .BREAK_MULTI | .DIR_MULTI | .STOP_MULTI | .SETFUNC => true
  | _ => false

/-- A step in which a client's driving command comes to its end. -/
structure DriveCompleted (hardware : Hardware K8055) (s : Server K8055) (label : Label) (clientID : Int) (w : World)
    (cmd : FBTCtlMessage) (command : Command) : Prop where
  label : label = .message clientID w cmd
  live : s.halted = false
  branch : commandOf w cmd = .ok (some command)
  drives : drives command = true
  returned : ∃ lastStatus changedAddrIndex c', s.phaseOf clientID = some (.running lastStatus changedAddrIndex) ∧
    processMessage hardware clientID w cmd (s.context lastStatus changedAddrIndex) = .ok () c'

/-- A command that the board can follow: the loco does not end up backwards, and an emergency
stop finds the kept value at 0. A command with an empty list writes nothing. -/
def Fits (s : Server K8055) (w : World) (cmd : FBTCtlMessage) (command : Command) : Prop :=
  ∀ l, s.lokdef[0]? = some l → match ordered w cmd s.lokdef l command with
    | some (l', emergencyStop) => l'.currdir ≠ -1 ∧ (emergencyStop = true → s.globals.device.pwm = 0)
    | none => OnBoard s.globals

variable (registers : Int → Int → Except Err Int)

theorem respects : Respects (USBPlatine (platine registers)) (fun d d' => d' = d) := by
  refine ⟨closed_eq,?_,?_⟩
  · intro addr cv value
    exact moves_ite (moves_pure closed_eq _) (moves_lift closed_eq _)
  · exact fun _ _ _ _ => moves_pure closed_eq _

/-- A call for the loco leaves what belongs to it exactly when the board can follow. -/
theorem called_onBoard (g : Globals K8055) (l : Lokdef) (one : OneLoco g.lokdef l) (emergencyStop : Bool)
    (bounded : -255 ≤ l.currspeed ∧ l.currspeed ≤ 255) (stands : emergencyStop = true → l.currspeed = 0) :
    OnBoard (final (USBPlatine.sendLoco (platine registers) 0 emergencyStop g)) ↔
      l.currdir ≠ -1 ∧ (emergencyStop = true → g.device.pwm = 0) := by
  obtain ⟨d,returned,output⟩ := sendLoco_output registers g l one.record emergencyStop
  have zero : g.device.pwm = 0 ↔ (g.device.pwm.toNat : Int) = 0 := by
    constructor
    · intro same
      rw [same]
      rfl
    · intro same
      exact UInt8.toNat_inj.mp (by simpa using same)
  have written : OnBoard (final (USBPlatine.sendLoco (platine registers) 0 emergencyStop g)) ↔
      Belongs l (committed (if emergencyStop then g.device.pwm else kept l)) := by
    rw [returned,final_ok]
    constructor
    · rintro ⟨l',written,record,there,belongs⟩
      rw [one.record] at record
      rw [output] at there
      cases record
      cases there
      exact belongs
    · exact fun belongs => ⟨l,_,one.record,output,belongs⟩
  rw [written,belongs_committed]
  cases emergencyStop with
  | false =>
    simp only [Bool.false_eq_true,↓reduceIte,false_implies,and_true]
    exact and_iff_right (kept_pwmOf l bounded)
  | true =>
    have still : pwmOf l.currspeed = 0 := by rw [stands rfl]; decide
    simp only [↓reduceIte,still,true_implies,← zero]
    exact and_comm

theorem ordered_bounded {w : World} {cmd : FBTCtlMessage} {lokdef : List Lokdef} {l l' : Lokdef} {command : Command}
    {emergencyStop : Bool} (speeds : Speeds (fun speed => -255 ≤ speed ∧ speed ≤ 255) lokdef)
    (one : OneLoco lokdef l) (order : ordered w cmd lokdef l command = some (l', emergencyStop)) :
    -255 ≤ l'.currspeed ∧ l'.currspeed ≤ 255 := by
  have before := speeds_record speeds one.record
  simp only [ordered] at order
  split at order
  · split at order
    · cases order
      simp only [setFunc]
      split <;> exact before
    · cases order
  · split at order
    · rename_i p planned
      split at order
      · cases order
      · cases order
        cases write : p.write with
        | dir value => exact before
        | speed value =>
          refine plan_within byte_bounds w cmd lokdef command p planned speeds ?_ value write
          intro _ i _
          have range := speedAt_within byte_bounds speeds i
          simp only [slower]
          constructor <;> split <;> omega
    · cases order

/-- After a driving command that comes to its end. -/
theorem completed_onBoard (s : Server K8055) (ready : s.Ready) (l : Lokdef) (one : OneLoco s.lokdef l)
    (speeds : Speeds (fun speed => -255 ≤ speed ∧ speed ≤ 255) s.lokdef) (label : Label) (clientID : Int) (w : World)
    (cmd : FBTCtlMessage) (command : Command)
    (completed : DriveCompleted (USBPlatine (platine registers)) s label clientID w cmd command) :
    OnBoard (Server.step (USBPlatine (platine registers)) s label).globals ↔ Fits s w cmd command := by
  obtain ⟨lastStatus,changedAddrIndex,c',phase,returned⟩ := completed.returned
  obtain ⟨unmarked,slots⟩ := ready.running phase
  have told := processMessage_told (USBPlatine (platine registers)) (respects registers) clientID w cmd
    (s.context lastStatus changedAddrIndex) l one unmarked slots
  have globals : (Server.step (USBPlatine (platine registers)) s label).globals = c'.globals := by
    rw [completed.label]
    simp only [Server.step,completed.live,Bool.false_eq_true,↓reduceIte,phase,returned]
  rw [returned,final_ok] at told
  have fits : Fits s w cmd command ↔ match ordered w cmd s.lokdef l command with
      | some (l', emergencyStop) => l'.currdir ≠ -1 ∧ (emergencyStop = true → s.globals.device.pwm = 0)
      | none => OnBoard s.globals :=
    ⟨fun fits => fits l one.record,fun holds l' record => by
      rw [one.record] at record
      cases record
      exact holds⟩
  rw [globals,fits]
  have branch := completed.branch
  have noPower : commandOf w cmd ≠ .ok (some .POWER) := by
    intro power
    rw [branch] at power
    cases power
    cases completed.drives
  cases told with
  | called name l' emergencyStop found order through sent =>
    rw [branch] at found
    cases found
    have addr := ordered_addr order
    have bounded := ordered_bounded speeds one order
    rw [sent,show ordered w cmd s.lokdef l command = some (l', emergencyStop) from order]
    refine called_onBoard registers _ { l' with lastClientID := clientID }
      (one.write { l' with lastClientID := clientID } addr) emergencyStop bounded ?_
    rintro rfl
    have stands := ordered_emergency order
    exact stands
  | cut name l' emergencyStop found order short written =>
    exact absurd (completes_of_returned _ one found order returned) short
  | power value found switched => exact absurd found noPower
  | still unordered leaves =>
    rw [show ordered w cmd s.lokdef l command = none from unordered command branch]
    have same : c'.globals = s.globals := congrArg₂ Globals.mk leaves.1 leaves.2
    rw [same]

end K8055

/-- For every table of one loco, whatever the members of the board are at the start: in every
run the driving command that comes to its end leaves what belongs to the loco exactly when the
board can follow it, and so in every run whose driving commands the board can all follow. -/
theorem board_follows_table (registers : Int → Int → Except Err Int) (dir pwm : UInt8) (lokdefCsv : Str)
    (lokdef : List Lokdef) (read : readLokdef lokdefCsv = .ok lokdef) (one : nLokdef lokdef = 1)
    (before : List Label) (label : Label) (clientID : Int) (w : World) (cmd : FBTCtlMessage) (command : Command)
    (completed : K8055.DriveCompleted (USBPlatine (K8055.platine registers))
      (Server.run (USBPlatine (K8055.platine registers)) (Server.start lokdef ⟨dir, pwm, none⟩) before)
      label clientID w cmd command) :
    K8055.OnBoard (Server.run (USBPlatine (K8055.platine registers)) (Server.start lokdef ⟨dir, pwm, none⟩)
        (before ++ [label])).globals ↔
      K8055.Fits (Server.run (USBPlatine (K8055.platine registers)) (Server.start lokdef ⟨dir, pwm, none⟩) before)
        w cmd command := by
  obtain ⟨l,loco⟩ := run_oneLoco (USBPlatine (K8055.platine registers)) (Server.start lokdef ⟨dir, pwm, none⟩) one before
  have ready := Server.run_ready (USBPlatine (K8055.platine registers)) lokdef ⟨dir, pwm, none⟩ before
  have speeds := run_bounded (USBPlatine (K8055.platine registers)) (Server.start lokdef ⟨dir, pwm, none⟩) before (by
    intro l member
    rw [(readLokdef_fresh lokdefCsv lokdef read l member).currspeed]
    decide)
  have last : Server.run (USBPlatine (K8055.platine registers)) (Server.start lokdef ⟨dir, pwm, none⟩)
      (before ++ [label]) = Server.step (USBPlatine (K8055.platine registers))
        (Server.run (USBPlatine (K8055.platine registers)) (Server.start lokdef ⟨dir, pwm, none⟩) before) label := by
    simp only [Server.run,Transition.run,List.foldl_append,List.foldl_cons,List.foldl_nil]
  rw [last]
  exact K8055.completed_onBoard registers _ ready l loco speeds label clientID w cmd command completed

def K8055.sample : Hardware K8055 := USBPlatine (K8055.platine (fun _ _ => .ok (-1)))

def K8055.after (messages : List FBTCtlMessage) : Server K8055 :=
  Server.run K8055.sample (Server.start oneLocoTable ⟨0, 0, none⟩) (joined ++ messages.map (.message 1 online))

/-- A client accelerates the loco. -/
theorem board_follows_table_acc : K8055.OnBoard (K8055.after [oneLoco 9 3]).globals := by
  have completed : K8055.DriveCompleted K8055.sample (K8055.after [])
      (.message 1 online (oneLoco 9 3)) 1 online (oneLoco 9 3) .ACC :=
    ⟨rfl,by decide +kernel,rfl,rfl,initialStatus oneLocoTable,noneChanged oneLocoTable,_,by decide +kernel,rfl⟩
  have table : (K8055.after []).lokdef = oneLocoTable := by decide +kernel
  have fits : K8055.Fits (K8055.after []) online (oneLoco 9 3) .ACC := by
    intro l record
    rw [table] at record ⊢
    cases record
    exact ⟨by decide,fun stop => by cases stop⟩
  exact (board_follows_table (fun _ _ => .ok (-1)) 0 0 oneLocoCsv oneLocoTable readLokdef_oneLoco rfl joined _ 1
    online (oneLoco 9 3) .ACC completed).mpr fits

/-- A client drives the loco and stops it: the board keeps the output of speed 5. Another one
turns it back: the board has the output of the other direction. -/
theorem board_keeps_driving : readLokdef oneLocoCsv = .ok oneLocoTable ∧ nLokdef oneLocoTable = 1 ∧
    ¬K8055.OnBoard (K8055.after [oneLoco 9 3, oneLoco 12 3]).globals ∧
    ¬K8055.OnBoard (K8055.after [dirThree (-1)]).globals := by
  refine ⟨readLokdef_oneLoco,rfl,?_,?_⟩
  · rintro ⟨l,output,record,written,belongs⟩
    have table : (K8055.after [oneLoco 9 3, oneLoco 12 3]).lokdef[0]?.map Lokdef.currspeed = some 0 := by
      decide +kernel
    have board : (K8055.after [oneLoco 9 3, oneLoco 12 3]).globals.device.output = some ⟨77, 0, 0x20⟩ := by
      decide +kernel
    rw [record] at table
    rw [written] at board
    cases board
    have analog := belongs.analog
    rw [Option.some.inj table] at analog
    exact absurd analog (by decide)
  · rintro ⟨l,output,record,written,belongs⟩
    have table : (K8055.after [dirThree (-1)]).lokdef[0]?.map Lokdef.currdir = some (-1) := by decide +kernel
    have board : (K8055.after [dirThree (-1)]).globals.device.output = some ⟨255, 0, 0x20⟩ := by decide +kernel
    rw [record] at table
    rw [written] at board
    cases board
    exact absurd (belongs.backward (Option.some.inj table)) (by decide)

end Btcontrol
