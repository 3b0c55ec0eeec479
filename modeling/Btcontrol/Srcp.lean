import Btcontrol.Hardware

/-! `srcp.h`/`srcp.cpp`: the backend that drives the locos through srcpd. srcpd is any
function from what it has been sent so far to its next reply code; no reply at all
makes `readReply` abort the server. -/
namespace Btcontrol

open Exec

inductive SrcpCmd where
  | power (on : Bool)                                                        -- SET 1 POWER
  | initGL (addr : Int) (protoversion nFahrstufen : Nat) (nFunc : Int)       -- INIT 1 GL
  | setGL (addr : Int) (dir speed nFahrstufen : Nat) (func : List Bool)      -- SET 1 GL
  | getGL (addr : Int)                                                       -- GET 1 GL
  | setCV (addr cv value : Int)                                              -- SET 1 SM ... CV
  | setCVBit (addr cv bitNr : Int) (value : Bool)                            -- SET 1 SM ... CVBIT
  deriving DecidableEq, Repr

inductive SRCPReplyCodeType where
  | INFO | OK | ERROR
  deriving DecidableEq, Repr

def replyType (code : Int) : SRCPReplyCodeType :=
  if code ≥ 500 then .ERROR
  else if code ≥ 400 then .ERROR
  else if code ≥ 200 then .OK
  else if code ≥ 100 then .INFO
  else .ERROR

/-- `class SRCP`: what was sent with the code of each reply, the newest first. -/
structure SRCP where
  log : List (SrcpCmd × Int) := []
  powered : Bool := true
  deriving DecidableEq, Repr

abbrev Srcpd := List (SrcpCmd × Int) → SrcpCmd → Option Int

/-- srcpd answers every command, and with OK. -/
def AnswersOK (srcpd : Srcpd) : Prop := ∀ log cmd, ∃ code, srcpd log cmd = some code ∧ replyType code = .OK

def okSrcpd : Srcpd := fun _ _ => some 200

namespace SRCP

variable (srcpd : Srcpd)

def sendMessage (cmd : SrcpCmd) : EStateM Err SRCP Int := fun s =>
  match srcpd s.log cmd with
  | none => .error .abort s
  | some code => .ok code { s with log := (cmd, code) :: s.log }

def pwrOn : EStateM Err SRCP Unit := do
  let _ ← sendMessage srcpd (.power true)
  modify (fun s => { s with powered := true })

def pwrOff : EStateM Err SRCP Unit := do
  let _ ← sendMessage srcpd (.power false)
  modify (fun s => { s with powered := false })

def sendLocoInit (addr : Int) (nFahrstufen : Nat) (nFunc : Int) : EStateM Err SRCP Int :=
  sendMessage srcpd (.initGL addr (if addr < 128 then 1 else 2) nFahrstufen nFunc)

def sendLocoSpeed (addr : Int) (dir nFahrstufen speed : Nat) (func : List Bool) :
    EStateM Err SRCP Int :=
  sendMessage srcpd (.setGL addr dir speed nFahrstufen func)

/-- The reply is scanned and dropped; `dir`, `dccSpeed` and `func` stay as they are. -/
def getInfo (addr : Int) : EStateM Err SRCP Bool := do
  return replyType (← sendMessage srcpd (.getGL addr)) == .INFO

/-- The speed steps of the decoder. -/
def nFahrstufen (l : Lokdef) : Nat :=
  if l.flags &&& F_DEC14 ≠ 0 then 14 else if l.flags &&& F_DEC28 ≠ 0 then 28 else 128

def dccSpeed (l : Lokdef) : Nat := l.currspeed.natAbs * nFahrstufen l / 255

/-- What the reply to an INIT does to the record. -/
def initReply (addr_index : Nat) (addr code : Int) : EStateM Err (Globals SRCP) Unit :=
  if replyType code ≠ .OK then
    if code = 412 then setLok addr_index (fun l => { l with currspeed := -1 }) else pure ()
  else do
    setLok addr_index (fun l => { l with initDone := true })
    let _ ← onDevice (getInfo srcpd addr)
    pure ()

/-- The INIT of a loco that has not had one. -/
def initLoco (addr_index : Nat) (l : Lokdef) : EStateM Err (Globals SRCP) Unit :=
  if l.initDone then pure ()
  else do
    let code ← onDevice (sendLocoInit srcpd l.addr (nFahrstufen l) l.nFunc)
    initReply srcpd addr_index l.addr code

/-- `dir` of a SET: 0 back, 1 forward, 2 emergency stop. -/
def drivemode (l : Lokdef) (emergencyStop : Bool) : Nat :=
  if emergencyStop then 2 else if l.currdir < 0 then 0 else 1

/-- The speed sent is the one read before the INIT. -/
def sendLoco (addr_index : Nat) (emergencyStop : Bool) : EStateM Err (Globals SRCP) Unit := do
  let l := (← get).lokdef[addr_index]?.getD .zeroed
  initLoco srcpd addr_index l
  let _ ← onDevice (sendLocoSpeed srcpd l.addr (drivemode l emergencyStop) (nFahrstufen l) (dccSpeed l) l.flagsOn)
  pure ()

/-- The locos `fullstop` picks. -/
def stops (clientID : Int) (stopAll : Bool) (l : Lokdef) : Prop :=
  (stopAll = true ∧ l.currspeed ≠ 0) ∨ (stopAll = false ∧ l.lastClientID = clientID)

instance (clientID : Int) (stopAll : Bool) (l : Lokdef) : Decidable (stops clientID stopAll l) :=
  inferInstanceAs (Decidable (_ ∨ _))

def stopLoco (clientID : Int) (stopAll : Bool) (addr_index : Nat) (l : Lokdef) :
    EStateM Err (Globals SRCP) Unit :=
  if stops clientID stopAll l then do
    setLok addr_index (fun l => { l with currspeed := 0 })
    sendLoco srcpd addr_index true
    setLok addr_index (fun l => { l with lastClientID := 0 })
  else pure ()

def fullstopLoop (clientID : Int) (stopAll : Bool) : List Nat → EStateM Err (Globals SRCP) Unit
  | [] => pure ()
  | addr_index :: rest => do
    stopLoco srcpd clientID stopAll addr_index ((← get).lokdef[addr_index]?.getD .zeroed)
    fullstopLoop clientID stopAll rest

def fullstop (clientID : Int) (stopAll : Bool) : EStateM Err (Globals SRCP) Unit := do
  fullstopLoop srcpd clientID stopAll (List.range (nLokdef (← get).lokdef))

def sendPOM (addr cv value : Int) : EStateM Err SRCP Int := do
  if cv < 0 then return -1
  return if replyType (← sendMessage srcpd (.setCV addr cv value)) ≠ .OK then -1 else value

def sendPOMBit (addr cv bitNr : Int) (value : Bool) : EStateM Err SRCP Int := do
  let code ← sendMessage srcpd (.setCVBit addr cv bitNr value)
  return if replyType code ≠ .OK then -1 else if value then 1 else 0

/-- srcpd has answered an INIT with 412: the address is beyond its number_gl. -/
def isRefusal : SrcpCmd × Int → Bool
  | (.initGL _ _ _ _, code) => code == 412
  | _ => false

def refused (s : SRCP) : Prop := ∃ entry ∈ s.log, isRefusal entry = true

instance (s : SRCP) : Decidable (refused s) := inferInstanceAs (Decidable (∃ entry ∈ s.log, _))

theorem sendMessage_kept (cmd : SrcpCmd) :
    Moves (fun s s' => refused s → refused s') (sendMessage srcpd cmd) := by
  intro s before
  simp only [sendMessage]
  split
  · exact before
  · obtain ⟨entry,member,refusal⟩ := before
    exact ⟨entry,List.mem_cons_of_mem _ member,refusal⟩

theorem kept_closed : Closed (fun s s' => refused s → refused s') :=
  ⟨fun _ => id,fun _ _ _ first second => second ∘ first⟩

/-- A power command answered, and its answer noted. -/
theorem power_kept (on : Bool) :
    Moves (fun s s' => refused s → refused s')
      (do let _ ← sendMessage srcpd (.power on); modify (fun s => { s with powered := on })) :=
  moves_bind kept_closed (sendMessage_kept srcpd _) (fun _ => moves_modify _ (fun _ => id))

theorem getInfo_kept (addr : Int) :
    Moves (fun s s' => refused s → refused s') (getInfo srcpd addr) :=
  moves_bind kept_closed (sendMessage_kept srcpd _) (fun _ => moves_pure kept_closed _)

theorem initReply_effect (i : Nat) (addr code : Int) (g : Globals SRCP)
    (answered : code = 412 → refused g.device) :
    Effect refused g (final (initReply srcpd i addr code g)) := by
  simp only [initReply]
  split
  · split
    · rename_i is412
      refine ⟨id,Records.modify (Touched.refl _) _ _ _ ?_⟩
      intro l _
      exact ⟨rfl,rfl,rfl,rfl,rfl,.inr (.inr ⟨answered is412,rfl⟩)⟩
    · exact (effect_closed _).refl g
  · refine moves_bind (effect_closed _) (setLok_effect _ _ _ ?_) (fun _ => ?_) g
    · exact fun _ l => ⟨rfl,rfl,rfl,rfl,rfl,.inl rfl⟩
    · exact moves_bind (effect_closed _) (onDevice_effect (getInfo_kept srcpd addr))
        (fun _ => moves_pure (effect_closed _) _)

theorem initLoco_effect (i : Nat) (l : Lokdef) : Moves (Effect refused) (initLoco srcpd i l) := by
  apply moves_ite
  · exact moves_pure (effect_closed _) _
  -- the -1 is written only after the log shows the 412
  refine moves_bind_post (effect_closed _) (fun code g => code = 412 → refused g.device)
    (onDevice_effect (sendMessage_kept srcpd _)) ?_ (fun code g => initReply_effect srcpd i l.addr code g)
  intro g code g' returned is412
  simp only [onDevice,focus,sendLocoInit,sendMessage] at returned
  cases answer : srcpd g.device.log _ with
  | none =>
    rw [answer] at returned
    cases returned
  | some reply =>
    rw [answer] at returned
    cases returned
    subst is412
    exact ⟨_,List.mem_cons_self,rfl⟩

theorem sendLoco_effect (i : Nat) (emergencyStop : Bool) :
    Moves (Effect refused) (sendLoco srcpd i emergencyStop) := by
  refine moves_bind (effect_closed _) (moves_get (effect_closed _)) (fun g => ?_)
  refine moves_bind (effect_closed _) (initLoco_effect srcpd _ _) (fun _ => ?_)
  refine moves_bind (effect_closed _) (onDevice_effect (sendMessage_kept srcpd _)) (fun _ => ?_)
  exact moves_pure (effect_closed _) _

theorem stopLoco_effect (clientID : Int) (stopAll : Bool) (i : Nat) (l : Lokdef) :
    Moves (Effect refused) (stopLoco srcpd clientID stopAll i l) := by
  apply moves_ite _ (moves_pure (effect_closed _) _)
  refine moves_bind (effect_closed _) (setLok_effect _ _ _ ?_) (fun _ => ?_)
  · exact fun _ l => ⟨rfl,rfl,rfl,rfl,rfl,.inr (.inl rfl)⟩
  refine moves_bind (effect_closed _) (sendLoco_effect srcpd i true) (fun _ => ?_)
  apply setLok_effect
  exact fun _ l => ⟨rfl,rfl,rfl,rfl,rfl,.inl rfl⟩

theorem fullstopLoop_effect (clientID : Int) (stopAll : Bool) (indices : List Nat) :
    Moves (Effect refused) (fullstopLoop srcpd clientID stopAll indices) := by
  induction indices with
  | nil => exact moves_pure (effect_closed _) _
  | cons i rest ih =>
    refine moves_bind (effect_closed _) (moves_get (effect_closed _)) (fun g => ?_)
    exact moves_bind (effect_closed _) (stopLoco_effect srcpd clientID stopAll i _) (fun _ => ih)

end SRCP

def SRCP_Hardware (srcpd : Srcpd) : Hardware SRCP where
  sendLoco _ := SRCP.sendLoco srcpd
  fullstop clientID stopAll _ := SRCP.fullstop srcpd clientID stopAll
  pwrOn := onDevice (SRCP.pwrOn srcpd)
  pwrOff := onDevice (SRCP.pwrOff srcpd)
  getPowerState := SRCP.powered
  clientConnected := pure ()
  clientDisconnected _ := pure ()
  sendPOM := SRCP.sendPOM srcpd
  sendPOMBit := SRCP.sendPOMBit srcpd
  refused := SRCP.refused
  sendLoco_effect _ := SRCP.sendLoco_effect srcpd
  fullstop_effect clientID stopAll _ :=
    moves_bind (effect_closed _) (moves_get (effect_closed _))
      (fun _ => SRCP.fullstopLoop_effect srcpd clientID stopAll _)
  pwrOn_effect := onDevice_effect (SRCP.power_kept srcpd true)
  pwrOff_effect := onDevice_effect (SRCP.power_kept srcpd false)
  clientDisconnected_kept _ := fun _ => id

end Btcontrol
