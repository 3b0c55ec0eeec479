import Btcontrol.Devices
import Btcontrol.ESP32PWM

/-! `ESP32PWM.cpp` on a DRV8871, which has no PWM pin: the two inputs of the bridge are the channels 0 and 1, and
the one that belongs to the direction gets the duty. The board has two headlights, channels 2 and 3, and a light in
the cab, channel 4, and writes them only where it takes them to have changed. -/
namespace Btcontrol

open Exec ClientThread Transition

structure DRV8871 where
  dir : Nat := 0
  pwm : Int := 0
  headlight : Bool := false
  cablight : Bool := false
  nFunc : Int := 0
  /-- F0 is on when it boots. -/
  currentFunc : Vector Bool MAX_NFUNC := (Vector.replicate MAX_NFUNC false).setIfInBounds 0 true
  changedDir : Bool := false
  /-- The duty of each channel. -/
  ledc : Nat → Int := fun _ => 0
  /-- Records: the calls of `setFunction`, and the duties of the bridge behind each `ledcWrite`. -/
  calls : Nat := 0
  bridge : List (Int × Int) := []

namespace DRV8871

/-- The duties of `config.h`, and what `setFunction` finds on the stack behind the functions of the loco. -/
structure Config where
  motor : ESP32PWM.Config
  HEADLIGHT_1_PWM_DUTY : Int
  HEADLIGHT_1_PWM_DUTY_OFF : Int
  HEADLIGHT_2_PWM_DUTY : Int
  HEADLIGHT_2_PWM_DUTY_OFF : Int
  CABLIGHT_PWM_DUTY : Int
  CABLIGHT_PWM_DUTY_OFF : Int
  stack : Nat → Nat → Bool := fun _ _ => false

variable (cfg : Config)

def ledcWrite (chan : Nat) (duty : Int) (b : DRV8871) : DRV8871 :=
  let ledc := Function.update b.ledc chan duty
  { b with ledc, bridge := b.bridge ++ [(ledc 0, ledc 1)] }

def setPWM (f_speed : Nat) : EStateM Err DRV8871 Unit :=
  modify (fun b => ledcWrite b.dir (ESP32PWM.units cfg.motor f_speed)
    { b with pwm := ESP32PWM.units cfg.motor f_speed })

def coast (b : DRV8871) : DRV8871 := ledcWrite 1 0 (ledcWrite 0 0 b)

def fullstop : EStateM Err (Globals DRV8871) Unit := do
  onDevice (modify coast)
  setLok 0 (setSpeed 0)

/-- An abrupt change of direction stops the loco. -/
def stopToTurn (dir : Nat) : EStateM Err (Globals DRV8871) Unit := do
  if (← get).device.dir ≠ dir then
    onDevice (modify (fun b => { b with changedDir := true }))
    fullstop
  else pure ()

def setDir (dir : Nat) : EStateM Err (Globals DRV8871) Unit := do
  stopToTurn dir
  onDevice (modify (fun b => { b with dir }))

def setFunction (nFunc : Int) (func : List Bool) : EStateM Err DRV8871 Unit := modify (fun b => { b with
  nFunc
  currentFunc := Vector.ofFn (fun j => func[j.val]?.getD (cfg.stack b.calls j))
  calls := b.calls + 1 })

def F0 (b : DRV8871) : Bool := b.currentFunc.toList[0]?.getD false

/-- The headlight of the way it drives is on with F0. -/
def headlights (b : DRV8871) : DRV8871 :=
  if b.dir ≠ 0 then
    ledcWrite 3 cfg.HEADLIGHT_2_PWM_DUTY_OFF
      (ledcWrite 2 (if b.F0 then cfg.HEADLIGHT_1_PWM_DUTY else cfg.HEADLIGHT_1_PWM_DUTY_OFF) b)
  else
    ledcWrite 3 (if b.F0 then cfg.HEADLIGHT_2_PWM_DUTY else cfg.HEADLIGHT_2_PWM_DUTY_OFF)
      (ledcWrite 2 cfg.HEADLIGHT_1_PWM_DUTY_OFF b)

def writeHeadlight (b : DRV8871) : DRV8871 :=
  if b.headlight ≠ b.F0 ∨ b.changedDir then { headlights cfg b with headlight := b.F0 } else b

/-- The light in the cab is on with F0 while the motor has no duty. -/
def writeCablight (b : DRV8871) : DRV8871 :=
  let cablight := b.F0 && b.pwm == 0
  if b.cablight ≠ cablight then
    ledcWrite 4 (if cablight then cfg.CABLIGHT_PWM_DUTY else cfg.CABLIGHT_PWM_DUTY_OFF) { b with cablight }
  else b

def commit : EStateM Err DRV8871 Unit := modify (fun b =>
  let b := if 0 < b.nFunc then writeCablight cfg (writeHeadlight cfg b) else b
  { b with changedDir := false })

theorem fullstop_effect : Moves (Effect (fun _ => False)) fullstop := by
  refine moves_bind (effect_closed _) (USBPlatine.onBoard_effect _) (fun _ => setLok_effect _ _ _ ?_)
  exact fun _ l => ⟨rfl,rfl,rfl,rfl,rfl,.inr (.inl rfl)⟩

theorem setDir_effect (dir : Nat) : Moves (Effect (fun _ => False)) (setDir dir) := by
  refine moves_bind (effect_closed _) ?_ (fun _ => USBPlatine.onBoard_effect _)
  refine moves_bind (effect_closed _) (moves_get (effect_closed _)) (fun _ => ?_)
  apply moves_ite
  · exact moves_bind (effect_closed _) (USBPlatine.onBoard_effect _) (fun _ => fullstop_effect)
  · exact moves_pure (effect_closed _) _

def platine : Platine DRV8871 where
  setPWM := setPWM cfg
  setDir := setDir
  setFunction := setFunction cfg
  commit := commit cfg
  fullstop _ _ := fullstop
  getCV cv value := lift (cfg.motor.registers cv value)
  clientConnected := pure ()
  clientDisconnected _ := pure ()
  setDir_effect := setDir_effect
  fullstop_effect _ _ := fullstop_effect

/-- `ESP32PWM::sendPOM` does not fall back on `USBPlatine::sendPOM`. -/
def hardware : Hardware DRV8871 := { USBPlatine (platine cfg) with
  sendPOM := fun _ cv value => lift (cfg.motor.registers cv value) }

/-- The constructor ends with `sendLoco(0, false)`. -/
def start (lokdef : List Lokdef) : Server DRV8871 :=
  { globals := final (USBPlatine.sendLoco (platine cfg) 0 false ⟨lokdef, {}⟩) }

/-! ### The bridge -/

/-- Not both inputs of the bridge have a duty, now or behind any write so far; the input of the other direction
has none. -/
structure Safe (b : DRV8871) : Prop where
  dir : b.dir = 0 ∨ b.dir = 1
  other : b.ledc (1 - b.dir) = 0
  always : ∀ duties ∈ b.bridge, duties.1 = 0 ∨ duties.2 = 0

theorem safe_write {b : DRV8871} (safe : Safe b) {chan : Nat} (duty : Int)
    (allowed : chan = b.dir ∨ duty = 0 ∨ 1 < chan) : Safe (ledcWrite chan duty b) := by
  have other : (ledcWrite chan duty b).ledc (1 - b.dir) = 0 := by
    show Function.update b.ledc chan duty (1 - b.dir) = 0
    by_cases here : 1 - b.dir = chan
    · rw [here,Function.update_self]
      rcases allowed with own | zero | light
      · rcases safe.dir with zero | one <;> omega
      · exact zero
      · omega
    · rw [Function.update_of_ne here]
      exact safe.other
  refine ⟨safe.dir,other,?_⟩
  intro duties member
  rcases List.mem_append.mp member with before | now
  · exact safe.always duties before
  · rw [List.mem_singleton.mp now]
    rcases safe.dir with zero | one
    · rw [zero] at other
      exact .inr other
    · rw [one] at other
      exact .inl other

theorem safe_coast {b : DRV8871} (safe : Safe b) : Safe (coast b) :=
  safe_write (safe_write safe 0 (.inr (.inl rfl))) 0 (.inr (.inl rfl))

/-- Both inputs are off behind `coast`. -/
theorem coast_off (b : DRV8871) (chan : Nat) (input : chan ≤ 1) : (coast b).ledc chan = 0 := by
  show Function.update (Function.update b.ledc 0 0) 1 0 chan = 0
  have cases : chan = 0 ∨ chan = 1 := by omega
  rcases cases with rfl | rfl
  · rw [Function.update_of_ne (by decide),Function.update_self]
  · rw [Function.update_self]

theorem safe_light {b : DRV8871} (safe : Safe b) (chan : Nat) (duty : Int) (light : 1 < chan) :
    Safe (ledcWrite chan duty b) := safe_write safe duty (.inr (.inr light))

theorem safe_headlights {b : DRV8871} (safe : Safe b) : Safe (headlights cfg b) := by
  simp only [headlights]
  split <;> exact safe_light (safe_light safe 2 _ (by decide)) 3 _ (by decide)

theorem safe_commit {b : DRV8871} (safe : Safe b) : Safe (final (commit cfg b)) := by
  have lit : Safe (writeHeadlight cfg b) := by
    simp only [writeHeadlight]
    split
    · have written := safe_headlights cfg safe
      exact ⟨written.dir,written.other,written.always⟩
    · exact safe
  have cab (b : DRV8871) (safe : Safe b) : Safe (writeCablight cfg b) := by
    simp only [writeCablight]
    split
    · have noted : Safe { b with cablight := b.F0 && b.pwm == 0 } := ⟨safe.dir,safe.other,safe.always⟩
      exact safe_light noted 4 _ (by decide)
    · exact safe
  have written : Safe (if 0 < b.nFunc then writeCablight cfg (writeHeadlight cfg b) else b) := by
    split
    · exact cab _ lit
    · exact safe
  exact ⟨written.dir,written.other,written.always⟩

def KeepsSafe (g g' : Globals DRV8871) : Prop := Safe g.device → Safe g'.device

theorem keepsSafe_closed : Closed KeepsSafe := ⟨fun _ => id,fun _ _ _ first later => later ∘ first⟩

theorem keepsSafe_device {α : Type} {m : EStateM Err DRV8871 α} (kept : ∀ b, Safe b → Safe (final (m b))) :
    Moves KeepsSafe (onDevice m) := by
  intro g
  simp only [onDevice,KeepsSafe,final_focus]
  exact kept g.device

theorem fullstop_safe : Moves KeepsSafe fullstop :=
  moves_bind keepsSafe_closed (keepsSafe_device (fun _ safe => safe_coast safe)) (fun _ => moves_modify _ (fun _ => id))

theorem setDir_safe (dir : Nat) (two : dir = 0 ∨ dir = 1) : Moves KeepsSafe (setDir dir) := by
  intro g safe
  by_cases same : g.device.dir = dir
  · have kept : final (setDir dir g) = { g with device := { g.device with dir } } := by
      simp only [setDir,stopToTurn,bind_apply,get_apply,same,ne_eq,not_true_eq_false,↓reduceIte,pure_apply]
      rfl
    rw [kept]
    subst same
    exact ⟨safe.dir,safe.other,safe.always⟩
  · have turned : (final (setDir dir g)).device = { coast { g.device with changedDir := true } with dir } := by
      simp only [setDir,stopToTurn,bind_apply,get_apply,same,ne_eq,not_false_eq_true,↓reduceIte]
      rfl
    show Safe (final (setDir dir g)).device
    rw [turned]
    have stopped : Safe (coast { g.device with changedDir := true }) :=
      safe_coast ⟨safe.dir,safe.other,safe.always⟩
    exact ⟨two,coast_off _ _ (Nat.sub_le 1 dir),stopped.always⟩

theorem sendLoco_safe (i : Nat) (emergencyStop : Bool) : Moves KeepsSafe (USBPlatine.sendLoco (platine cfg) i emergencyStop) := by
  refine moves_bind keepsSafe_closed (moves_get keepsSafe_closed) (fun g => ?_)
  refine moves_bind keepsSafe_closed ?_ (fun _ => moves_bind keepsSafe_closed ?_ (fun _ => ?_))
  · exact keepsSafe_device (fun b safe => ⟨safe.dir,safe.other,safe.always⟩)
  · apply moves_ite
    · exact fullstop_safe
    · refine moves_bind keepsSafe_closed (setDir_safe _ ?_) (fun _ => keepsSafe_device (fun b safe => ?_))
      · split
        · exact .inr rfl
        · exact .inl rfl
      · have driven : Safe { b with pwm := ESP32PWM.units cfg.motor (USBPlatine.f_speed (g.lokdef[i]?.getD .zeroed)) } :=
          ⟨safe.dir,safe.other,safe.always⟩
        exact safe_write driven _ (.inl rfl)
  · exact keepsSafe_device (fun b safe => safe_commit cfg safe)

theorem tracks_safe : Tracks (hardware cfg) KeepsSafe where
  closed := keepsSafe_closed
  table _ _ _ := id
  sendLoco _ i emergencyStop := sendLoco_safe cfg i emergencyStop
  fullstop _ _ _ := fullstop_safe
  pwrOn := moves_pure keepsSafe_closed _
  pwrOff := setDir_safe 0 (.inl rfl)
  clientConnected := keepsSafe_device (fun _ => id)
  clientDisconnected _ := keepsSafe_device (fun _ => id)
  sendPOM _ cv value := by
    refine keepsSafe_device (fun b safe => ?_)
    show Safe (final (lift (cfg.motor.registers cv value) b))
    cases cfg.motor.registers cv value <;> exact safe
  sendPOMBit _ _ _ _ := keepsSafe_device (fun _ => id)

/-! ### The lights -/

def headlight1 (dir : Nat) (F0 : Bool) : Int :=
  if dir ≠ 0 ∧ F0 = true then cfg.HEADLIGHT_1_PWM_DUTY else cfg.HEADLIGHT_1_PWM_DUTY_OFF

def headlight2 (dir : Nat) (F0 : Bool) : Int :=
  if dir = 0 ∧ F0 = true then cfg.HEADLIGHT_2_PWM_DUTY else cfg.HEADLIGHT_2_PWM_DUTY_OFF

def cab (on : Bool) : Int := if on then cfg.CABLIGHT_PWM_DUTY else cfg.CABLIGHT_PWM_DUTY_OFF

/-- The channels show what the board has noted of its lights. -/
structure Shown (b : DRV8871) : Prop where
  front : b.changedDir = false →
    b.ledc 2 = headlight1 cfg b.dir b.headlight ∧ b.ledc 3 = headlight2 cfg b.dir b.headlight
  cab : b.ledc 4 = cab cfg b.cablight

structure Lit (b : DRV8871) : Prop where
  shown : Shown cfg b
  headlight : b.headlight = b.F0
  cablight : b.cablight = (b.F0 && b.pwm == 0)

theorem headlights_shown (b : DRV8871) : (headlights cfg b).ledc 2 = headlight1 cfg b.dir b.F0 ∧
    (headlights cfg b).ledc 3 = headlight2 cfg b.dir b.F0 := by
  by_cases back : b.dir = 0 <;> cases on : b.F0 <;>
    simp [headlights,ledcWrite,headlight1,headlight2,back,on]

theorem headlights_rest (b : DRV8871) : (headlights cfg b).F0 = b.F0 ∧ (headlights cfg b).pwm = b.pwm ∧
    (headlights cfg b).dir = b.dir ∧ (headlights cfg b).cablight = b.cablight ∧
    (headlights cfg b).ledc 4 = b.ledc 4 := by
  by_cases back : b.dir = 0 <;> simp [headlights,ledcWrite,F0,back]

/-- What either light looks at, and the other light. -/
structure Same (b b' : DRV8871) : Prop where
  F0 : b'.F0 = b.F0
  pwm : b'.pwm = b.pwm
  dir : b'.dir = b.dir

theorem writeHeadlight_shown (b : DRV8871) (right : b.headlight = b.F0 → b.changedDir = false →
      b.ledc 2 = headlight1 cfg b.dir b.F0 ∧ b.ledc 3 = headlight2 cfg b.dir b.F0) :
    ((writeHeadlight cfg b).ledc 2 = headlight1 cfg b.dir b.F0 ∧ (writeHeadlight cfg b).ledc 3 = headlight2 cfg b.dir b.F0) ∧
    (writeHeadlight cfg b).headlight = b.F0 ∧ (writeHeadlight cfg b).cablight = b.cablight ∧
    (writeHeadlight cfg b).ledc 4 = b.ledc 4 ∧ Same b (writeHeadlight cfg b) := by
  simp only [writeHeadlight]
  split
  · obtain ⟨F0,pwm,dir,cablight,lit4⟩ := headlights_rest cfg b
    exact ⟨headlights_shown cfg b,rfl,cablight,lit4,F0,pwm,dir⟩
  · rename_i unchanged
    have noted : b.headlight = b.F0 := by
      by_contra other
      exact unchanged (.inl other)
    have same : b.changedDir = false := Bool.eq_false_iff.mpr (fun changed => unchanged (.inr changed))
    exact ⟨right noted same,noted,rfl,rfl,rfl,rfl,rfl⟩

theorem writeCablight_shown (b : DRV8871)
    (right : b.cablight = (b.F0 && b.pwm == 0) → b.ledc 4 = cab cfg b.cablight) :
    (writeCablight cfg b).ledc 4 = cab cfg (writeCablight cfg b).cablight ∧
    (writeCablight cfg b).cablight = (b.F0 && b.pwm == 0) ∧ (writeCablight cfg b).headlight = b.headlight ∧
    (writeCablight cfg b).ledc 2 = b.ledc 2 ∧ (writeCablight cfg b).ledc 3 = b.ledc 3 ∧
    Same b (writeCablight cfg b) := by
  simp only [writeCablight]
  split
  · refine ⟨?_,rfl,rfl,?_,?_,rfl,rfl,rfl⟩ <;> simp [ledcWrite,cab]
  · rename_i unchanged
    have noted : b.cablight = (b.F0 && b.pwm == 0) := by
      by_contra other
      exact unchanged other
    exact ⟨right noted,noted,rfl,rfl,rfl,rfl,rfl,rfl⟩

/-- What `commit` leaves, whether it writes or takes the lights to be right. -/
theorem commit_lit {b : DRV8871} (functions : 0 < b.nFunc)
    (front : b.headlight = b.F0 → b.changedDir = false →
      b.ledc 2 = headlight1 cfg b.dir b.F0 ∧ b.ledc 3 = headlight2 cfg b.dir b.F0)
    (inside : b.cablight = (b.F0 && b.pwm == 0) → b.ledc 4 = cab cfg b.cablight) : Lit cfg (final (commit cfg b)) := by
  obtain ⟨⟨lit2,lit3⟩,headlight,cablight,lit4,same⟩ := writeHeadlight_shown cfg b front
  have next : (writeHeadlight cfg b).cablight = ((writeHeadlight cfg b).F0 && (writeHeadlight cfg b).pwm == 0) →
      (writeHeadlight cfg b).ledc 4 = cab cfg (writeHeadlight cfg b).cablight := by
    rw [same.F0,same.pwm,cablight,lit4]
    exact inside
  obtain ⟨shown4,cablight',headlight',same2,same3,kept⟩ := writeCablight_shown cfg (writeHeadlight cfg b) next
  have all : final (commit cfg b) = { writeCablight cfg (writeHeadlight cfg b) with changedDir := false } := by
    simp only [commit,modify_apply,final_ok,functions,↓reduceIte]
  rw [all]
  have F0 : (writeCablight cfg (writeHeadlight cfg b)).F0 = b.F0 := kept.F0.trans same.F0
  have dir : (writeCablight cfg (writeHeadlight cfg b)).dir = b.dir := kept.dir.trans same.dir
  have noted : (writeCablight cfg (writeHeadlight cfg b)).headlight = b.F0 := headlight'.trans headlight
  refine ⟨⟨fun _ => ?_,shown4⟩,noted.trans F0.symm,?_⟩
  · show (writeCablight cfg (writeHeadlight cfg b)).ledc 2 = headlight1 cfg (writeCablight cfg (writeHeadlight cfg b)).dir
        (writeCablight cfg (writeHeadlight cfg b)).headlight ∧ (writeCablight cfg (writeHeadlight cfg b)).ledc 3 =
        headlight2 cfg (writeCablight cfg (writeHeadlight cfg b)).dir (writeCablight cfg (writeHeadlight cfg b)).headlight
    rw [dir,noted,same2,same3]
    exact ⟨lit2,lit3⟩
  · show (writeCablight cfg (writeHeadlight cfg b)).cablight =
      ((writeCablight cfg (writeHeadlight cfg b)).F0 && (writeCablight cfg (writeHeadlight cfg b)).pwm == 0)
    rw [cablight',kept.F0,kept.pwm]

theorem shown_write {b : DRV8871} (shown : Shown cfg b) {chan : Nat} (input : chan ≤ 1) (duty : Int) :
    Shown cfg (ledcWrite chan duty b) := by
  have apart (light : Nat) (above : 1 < light) : Function.update b.ledc chan duty light = b.ledc light :=
    Function.update_of_ne (by omega) ..
  refine ⟨fun same => ?_,?_⟩
  · simp only [ledcWrite,apart 2 (by decide),apart 3 (by decide)]
    exact shown.front same
  · simp only [ledcWrite,apart 4 (by decide)]
    exact shown.cab

theorem coast_shown {b : DRV8871} (shown : Shown cfg b) : Shown cfg (coast b) :=
  shown_write cfg (shown_write cfg shown (by decide) 0) (by decide) 0

theorem coast_lit {b : DRV8871} (lit : Lit cfg b) : Lit cfg (coast b) :=
  ⟨coast_shown cfg lit.shown,lit.headlight,lit.cablight⟩

/-- A change of direction is noted, and shown by the next `commit`. -/
theorem setDir_outcome (dir : Nat) (g : Globals DRV8871) :
    (final (setDir dir g)).device = { g.device with dir } ∧ g.device.dir = dir ∨
    (final (setDir dir g)).device = { coast { g.device with changedDir := true } with dir } := by
  by_cases same : g.device.dir = dir
  · left
    simp only [setDir,stopToTurn,bind_apply,get_apply,same,ne_eq,not_true_eq_false,↓reduceIte,pure_apply]
    exact ⟨rfl,trivial⟩
  · right
    simp only [setDir,stopToTurn,bind_apply,get_apply,same,ne_eq,not_false_eq_true,↓reduceIte]
    rfl

theorem setDir_lit (dir : Nat) {g : Globals DRV8871} (lit : Lit cfg g.device) : Lit cfg (final (setDir dir g)).device := by
  rcases setDir_outcome dir g with ⟨kept,same⟩ | turned
  · rw [kept,← same]
    exact lit
  · rw [turned]
    have stopped : Shown cfg (coast { g.device with changedDir := true }) :=
      coast_shown cfg ⟨fun same => (by cases same),lit.shown.cab⟩
    exact ⟨⟨fun same => (by cases same),stopped.cab⟩,lit.headlight,lit.cablight⟩

theorem setDir_returns (dir : Nat) : Returns (setDir dir) := by
  intro g
  by_cases same : g.device.dir = dir
  · simp only [setDir,stopToTurn,bind_apply,get_apply,same,ne_eq,not_true_eq_false,↓reduceIte,pure_apply]
    rfl
  · simp only [setDir,stopToTurn,bind_apply,get_apply,same,ne_eq,not_false_eq_true,↓reduceIte]
    rfl

/-- A call for the loco ends with `commit`, on lights that have not been touched so far. -/
theorem sendLoco_commit (g : Globals DRV8871) (emergencyStop : Bool) :
    ∃ b, (final (USBPlatine.sendLoco (platine cfg) 0 emergencyStop g)).device = final (commit cfg b) ∧
      b.nFunc = (g.lokdef[0]?.getD Lokdef.zeroed).nFunc ∧ (Shown cfg g.device → Shown cfg b) := by
  let l := g.lokdef[0]?.getD Lokdef.zeroed
  let b := final (setFunction cfg l.nFunc l.flagsOn g.device)
  have same (shown : Shown cfg g.device) : Shown cfg b := ⟨shown.front,shown.cab⟩
  cases emergencyStop with
  | true => exact ⟨coast b,rfl,rfl,fun shown => coast_shown cfg (same shown)⟩
  | false =>
    let dir : Nat := if l.currdir < 0 then 1 else 0
    let turned := final (setDir dir { g with device := b })
    have call : USBPlatine.sendLoco (platine cfg) 0 false g =
        (USBPlatine.drive (platine cfg) l false >>= fun _ => onDevice (commit cfg)) { g with device := b } := rfl
    have drove : USBPlatine.drive (platine cfg) l false { g with device := b } =
        onDevice (setPWM cfg (USBPlatine.f_speed l)) turned := by
      show (setDir dir >>= fun _ => onDevice (setPWM cfg (USBPlatine.f_speed l))) { g with device := b } = _
      rw [bind_ok (ok_final (setDir_returns dir { g with device := b }))]
    have sent : USBPlatine.sendLoco (platine cfg) 0 false g = onDevice (commit cfg)
        { turned with device := final (setPWM cfg (USBPlatine.f_speed l) turned.device) } := by
      rw [call,bind_apply,drove]
      rfl
    rw [sent]
    refine ⟨final (setPWM cfg (USBPlatine.f_speed l) turned.device),rfl,?_,fun shown => ?_⟩
    · show turned.device.nFunc = l.nFunc
      rcases setDir_outcome dir { g with device := b } with ⟨kept,_⟩ | turns
      · rw [show turned.device = _ from kept]
        rfl
      · rw [show turned.device = _ from turns]
        rfl
    · have low : dir ≤ 1 := by
        show (if l.currdir < 0 then 1 else 0) ≤ 1
        split <;> decide
      have kept : Shown cfg turned.device ∧ turned.device.dir = dir := by
        rcases setDir_outcome dir { g with device := b } with ⟨kept,aligned⟩ | turns
        · rw [show turned.device = _ from kept,← aligned]
          exact ⟨same shown,rfl⟩
        · rw [show turned.device = _ from turns]
          have stopped : Shown cfg (coast { b with changedDir := true }) :=
            coast_shown cfg ⟨fun same => (by cases same),(same shown).cab⟩
          exact ⟨⟨fun same => (by cases same),stopped.cab⟩,rfl⟩
      have noted : Shown cfg { turned.device with pwm := ESP32PWM.units cfg.motor (USBPlatine.f_speed l) } :=
        ⟨kept.1.front,kept.1.cab⟩
      exact shown_write cfg noted (kept.2 ▸ low) _

/-- A call for a loco that has functions. -/
theorem sendLoco_lit {g : Globals DRV8871} {l : Lokdef} (record : g.lokdef[0]? = some l) (functions : 0 < l.nFunc)
    (lit : Lit cfg g.device) (emergencyStop : Bool) :
    Lit cfg (final (USBPlatine.sendLoco (platine cfg) 0 emergencyStop g)).device := by
  obtain ⟨b,ended,nFunc,shown⟩ := sendLoco_commit cfg g emergencyStop
  rw [record] at nFunc
  have before := shown lit.shown
  rw [ended]
  refine commit_lit cfg (nFunc ▸ functions) ?_ (fun _ => before.cab)
  intro noted same
  rw [← noted]
  exact before.front same

structure Follows (g : Globals DRV8871) : Prop where
  loco : ∃ l, OneLoco g.lokdef l ∧ 0 < l.nFunc
  lit : Lit cfg g.device

theorem respects : Respects (hardware cfg) (fun d d' => d' = d) := by
  refine ⟨closed_eq,?_,?_⟩
  · exact fun _ _ _ => moves_lift closed_eq _
  · exact fun _ _ _ _ => moves_pure closed_eq _

theorem ordered_nFunc {w : World} {cmd : FBTCtlMessage} {lokdef : List Lokdef} {l l' : Lokdef} {command : Command}
    {emergencyStop : Bool} (order : ordered w cmd lokdef l command = some (l', emergencyStop)) : l'.nFunc = l.nFunc := by
  simp only [ordered] at order
  split at order
  · split at order
    · cases order
      exact (setFunc_shaped _ _ l).nFunc
    · cases order
  · split at order
    · split at order
      · cases order
      · rename_i p _ _
        cases order
        cases p.write <;> rfl
    · cases order

/-- A backend keeps the one loco and how many functions it has. -/
theorem loco_kept {g g' : Globals DRV8871} {l : Lokdef} (one : OneLoco g.lokdef l) (functions : 0 < l.nFunc)
    (effect : Effect (fun _ => False) g g') : ∃ l, OneLoco g'.lokdef l ∧ 0 < l.nFunc := by
  have same : g'.lokdef.map Lokdef.addr = g.lokdef.map Lokdef.addr := effect.addrs
  have bound : 0 < g'.lokdef.length := by
    rw [effect.records.1]
    exact (List.getElem?_eq_some_iff.mp one.record).1
  have there : g'.lokdef[0]? = some g'.lokdef[0] := List.getElem?_eq_getElem bound
  refine ⟨g'.lokdef[0],⟨(nLokdef_congr same).trans one.one,there⟩,?_⟩
  rw [(effect.records.2 0 l _ one.record there).nFunc]
  exact functions

theorem step_follows (s : Server DRV8871) (label : Label) (before : Follows cfg s.globals ∧ s.Ready) :
    Follows cfg (Server.step (hardware cfg) s label).globals ∧ (Server.step (hardware cfg) s label).Ready := by
  refine ⟨?_,Server.step_ready _ s label before.2⟩
  obtain ⟨⟨⟨l,one,functions⟩,lit⟩,ready⟩ := before
  cases step_one (hardware cfg) (respects cfg) (moves_pure closed_eq _) s label l one ready with
  | idle leaves =>
    refine ⟨⟨l,?_,functions⟩,?_⟩
    · rw [leaves.1]
      exact one
    · rw [leaves.2]
      exact lit
  | destroyed clientID last goes left live stopped =>
    have ended : (Server.step (hardware cfg) s label).globals = final (fullstop s.globals) := stopped
    rw [ended]
    exact ⟨loco_kept one functions (fullstop_effect s.globals),coast_lit cfg lit⟩
  | told clientID w cmd turn told =>
    cases told with
    | called command l' emergencyStop branch order through sent =>
      rw [sent]
      have addr : l'.addr = l.addr := ordered_addr order
      have nFunc : l'.nFunc = l.nFunc := ordered_nFunc order
      let told : Lokdef := { l' with lastClientID := clientID }
      have next := one.write told addr
      have some : 0 < told.nFunc := by
        show 0 < l'.nFunc
        rw [nFunc]
        exact functions
      let g : Globals DRV8871 := { s.globals with lokdef := s.globals.lokdef.set 0 told }
      exact ⟨loco_kept (g := g) next some (USBPlatine.sendLoco_effect (platine cfg) 0 emergencyStop g),
        sendLoco_lit cfg (g := g) next.record some lit emergencyStop⟩
    | cut command l' emergencyStop branch order short written =>
      rw [written]
      exact ⟨⟨l',one.write l' (ordered_addr order),ordered_nFunc order ▸ functions⟩,lit⟩
    | power v branch switched =>
      have outcome : (Server.step (hardware cfg) s label).globals = s.globals ∨
          (Server.step (hardware cfg) s label).globals = final (setDir 0 s.globals) := by
        rw [switched]
        simp only [setPower]
        split
        · exact .inl rfl
        · split
          · exact .inl rfl
          · exact .inr rfl
      rcases outcome with same | off
      · rw [same]
        exact ⟨⟨l,one,functions⟩,lit⟩
      · rw [off]
        exact ⟨loco_kept one functions (setDir_effect 0 s.globals),setDir_lit cfg 0 lit⟩
    | still _ leaves =>
      refine ⟨⟨l,?_,functions⟩,?_⟩
      · rw [leaves.1]
        exact one
      · rw [leaves.2]
        exact lit

/-! ### When it boots -/

theorem readFuncs_first {lineNo : Nat} {nFunc : Int} {count i : Nat} {pos pos' : Str} {func func' : Vector Func MAX_NFUNC}
    (above : 0 < i) (read : readFuncs lineNo nFunc count i pos func = .ok (pos', func')) :
    func'.toList[0]? = func.toList[0]? := by
  induction count generalizing i pos func with
  | zero =>
    cases read
    rfl
  | succ count ih =>
    simp only [readFuncs] at read
    split at read
    · cases read
    · split at read
      · cases read
      · rw [ih (Nat.succ_pos i) read,Vector.toList_setIfInBounds,List.getElem?_set_ne (by omega)]

/-- Every loco of the file has its headlight on. -/
theorem readLokdef_headlight {lokdefCsv : Str} {lokdef : List Lokdef} (read : readLokdef lokdefCsv = .ok lokdef) :
    ∀ l ∈ lokdef, l.addr ≠ 0 → l.func.toList[0]?.map Func.ison = some true := by
  refine readLines_all (fun used => absurd rfl used) ?_ 1 _ lokdef (readLokdef_lines read)
  intro lineNo line l record _
  obtain ⟨_,_,nFunc,count,pos,pos',func,named,same⟩ := readLine_record lineNo line l record
  rw [same,readFuncs_first (by decide) named]
  rfl

theorem flagsOn_first {l : Lokdef} (functions : 0 < l.nFunc) (stack : Bool) :
    l.flagsOn[0]?.getD stack = (l.func.toList[0]?.map Func.ison).getD stack := by
  have some : 0 < l.nFunc.toNat := by omega
  simp only [Lokdef.flagsOn,List.getElem?_map,List.getElem?_take,some,↓reduceIte]

/-- The first call, on a board that has written no light yet. -/
theorem start_lit {lokdef : List Lokdef} {l : Lokdef} (record : lokdef[0]? = some l) (functions : 0 < l.nFunc)
    (headlight : l.func.toList[0]?.map Func.ison = some true) (stands : l.currspeed = 0) (ahead : l.currdir = 1) :
    Lit cfg (start cfg lokdef).globals.device := by
  let b : DRV8871 := final (setPWM cfg (USBPlatine.f_speed l) (final (setFunction cfg l.nFunc l.flagsOn {})))
  have loco : lokdef[0]?.getD .zeroed = l := by rw [record]; rfl
  have sent : (start cfg lokdef).globals.device = final (commit cfg b) := by
    have straight : (if l.currdir < 0 then 1 else 0 : Nat) = 0 := by simp [ahead]
    have call : (start cfg lokdef).globals = final ((USBPlatine.drive (platine cfg) l false >>= fun _ =>
        onDevice (commit cfg)) ⟨lokdef, final (setFunction cfg l.nFunc l.flagsOn {})⟩) := by
      rw [← loco]
      rfl
    have drove : USBPlatine.drive (platine cfg) l false ⟨lokdef, final (setFunction cfg l.nFunc l.flagsOn {})⟩ =
        .ok () ⟨lokdef, b⟩ := by
      show (setDir (if l.currdir < 0 then 1 else 0) >>= fun _ => onDevice (setPWM cfg (USBPlatine.f_speed l)))
        ⟨lokdef, final (setFunction cfg l.nFunc l.flagsOn {})⟩ = _
      rw [straight]
      rfl
    rw [call,bind_ok drove]
    rfl
  have f0 : b.F0 = true := by
    have first : b.F0 = l.flagsOn[0]?.getD (cfg.stack 0 0) := by
      simp [b,F0,setFunction,setPWM,ledcWrite,Vector.ofFn,MAX_NFUNC]
    rw [first,flagsOn_first functions,headlight]
    rfl
  have pwm : b.pwm = 0 := by
    have zero : USBPlatine.f_speed l = 0 := by
      rw [USBPlatine.f_speed,stands]
      rfl
    show ESP32PWM.units cfg.motor (USBPlatine.f_speed l) = 0
    rw [zero]
    rfl
  rw [sent]
  refine commit_lit cfg functions ?_ ?_
  · intro noted
    rw [f0] at noted
    cases noted
  · intro noted
    rw [f0,pwm] at noted
    cases noted

end DRV8871

def DRV8871.Config.sample : Config where
  motor := ESP32PWM.Config.sample
  HEADLIGHT_1_PWM_DUTY := 0
  HEADLIGHT_1_PWM_DUTY_OFF := 255
  HEADLIGHT_2_PWM_DUTY := 0
  HEADLIGHT_2_PWM_DUTY_OFF := 255
  CABLIGHT_PWM_DUTY := 20
  CABLIGHT_PWM_DUTY_OFF := 0

/-- Over whatever whole turns the clients of a board take, at no write has the bridge a duty on both of its inputs:
also not while the loco turns, stops or is stopped. -/
theorem bridge_safe (cfg : DRV8871.Config) (lokdef : List Lokdef) (labels : List Label) :
    ∀ duties ∈ (Server.run (DRV8871.hardware cfg) (DRV8871.start cfg lokdef) labels).globals.device.bridge,
      duties.1 = 0 ∨ duties.2 = 0 := by
  have fresh : DRV8871.Safe {} := ⟨.inl rfl,rfl,fun duties member => absurd member List.not_mem_nil⟩
  have started : DRV8871.Safe (DRV8871.start cfg lokdef).globals.device := DRV8871.sendLoco_safe cfg 0 false _ fresh
  exact ((DRV8871.tracks_safe cfg).run (DRV8871.start cfg lokdef) labels started).always

theorem bridge_safe_back :
    (Server.run (DRV8871.hardware .sample) (DRV8871.start .sample oneLocoTable) turnsThenDrives).globals.device.bridge ≠ [] ∧
    (Server.run (DRV8871.hardware .sample) (DRV8871.start .sample oneLocoTable) turnsThenDrives).globals.device.bridge.all
      (fun duties => duties.1 = 0 ∨ duties.2 = 0) = true := by
  refine ⟨by decide +kernel,List.all_eq_true.mpr (fun duties written => decide_eq_true ?_)⟩
  exact bridge_safe .sample oneLocoTable turnsThenDrives duties written

end Btcontrol
