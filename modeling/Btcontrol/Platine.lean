import Btcontrol.Hardware

/-! `USBPlatine.h`/`USBPlatine.cpp`: the boards that drive one motor by direction and PWM
value. A board is what `sendLoco` calls of it; K8055, USBDigispark, RaspiPWM and ESP32PWM
are such boards. -/
namespace Btcontrol

open Exec

def CV_MANUFACTURER : Int := 8

/-- The virtual functions of a board on its own state. `ESP32PWM::fullstop` ends with
`lokdef[0].currspeed=0` and its `setDir` may call it, so these two get the table. -/
structure Platine (δ : Type) where
  setPWM (f_speed : Nat) : EStateM Err δ Unit
  setDir (dir : Nat) : EStateM Err (Globals δ) Unit
  setFunction (nFunc : Int) (func : List Bool) : EStateM Err δ Unit
  commit : EStateM Err δ Unit
  fullstop (stopAll emergencyStop : Bool) : EStateM Err (Globals δ) Unit
  /-- The board's own registers. -/
  getCV (cv value : Int) : EStateM Err δ Int
  clientConnected : EStateM Err δ Unit
  clientDisconnected (all : Bool) : EStateM Err δ Unit
  setDir_effect : ∀ dir, Moves (Effect (fun _ => False)) (setDir dir)
  fullstop_effect : ∀ stopAll emergencyStop, Moves (Effect (fun _ => False)) (fullstop stopAll emergencyStop)

namespace USBPlatine

variable {δ : Type} (platine : Platine δ)

/-- Below the first speed step the motor stands. -/
def f_speed (l : Lokdef) : Nat := if l.currspeed.natAbs < 5 then 0 else l.currspeed.natAbs

/-- The motor part of `sendLoco`. -/
def drive (l : Lokdef) (emergencyStop : Bool) : EStateM Err (Globals δ) Unit :=
  if emergencyStop then platine.fullstop true true
  else do
    platine.setDir (if l.currdir < 0 then 1 else 0)
    onDevice (platine.setPWM (f_speed l))

def sendLoco (addr_index : Nat) (emergencyStop : Bool) : EStateM Err (Globals δ) Unit := do
  let l := (← get).lokdef[addr_index]?.getD .zeroed
  onDevice (platine.setFunction l.nFunc l.flagsOn)
  drive platine l emergencyStop
  onDevice platine.commit

def sendPOM (cv value : Int) : EStateM Err δ Int :=
  if cv = CV_MANUFACTURER then pure 15 else platine.getCV cv value

theorem onBoard_effect {α : Type} (m : EStateM Err δ α) : Moves (Effect (fun _ => False)) (onDevice m) :=
  onDevice_effect (fun _ => id)

theorem sendLoco_effect (i : Nat) (emergencyStop : Bool) :
    Moves (Effect (fun _ => False)) (sendLoco platine i emergencyStop) := by
  refine moves_bind (effect_closed _) (moves_get (effect_closed _)) (fun g => ?_)
  refine moves_bind (effect_closed _) (onBoard_effect _) (fun _ => ?_)
  refine moves_bind (effect_closed _) ?_ (fun _ => onBoard_effect _)
  apply moves_ite
  · exact platine.fullstop_effect true true
  · exact moves_bind (effect_closed _) (platine.setDir_effect _) (fun _ => onBoard_effect _)

end USBPlatine

/-- `class USBPlatine`: no board refuses a loco. -/
def USBPlatine {δ : Type} (platine : Platine δ) : Hardware δ where
  sendLoco _ := USBPlatine.sendLoco platine
  fullstop _ := platine.fullstop
  pwrOn := pure ()
  pwrOff := platine.setDir 0
  getPowerState _ := true
  clientConnected := platine.clientConnected
  clientDisconnected := platine.clientDisconnected
  sendPOM _ := USBPlatine.sendPOM platine
  sendPOMBit _ _ _ _ := pure 0
  refused _ := False
  sendLoco_effect _ := USBPlatine.sendLoco_effect platine
  fullstop_effect _ := platine.fullstop_effect
  pwrOn_effect := moves_pure (effect_closed _) _
  pwrOff_effect := platine.setDir_effect 0
  clientDisconnected_kept _ := fun _ => id

end Btcontrol
