import Btcontrol.Hardware
import Btcontrol.Protocol

/-! `clientthread.h`/`clientthread.cpp`: what one client thread does with one message. An
exception keeps all that was done before it, as the thread that leaves `run` does. -/
namespace Btcontrol

open DataType FBTCtlMessage Exec

structure LastStatus where
  currspeed : Int := 0
  func : Int := -1
  dir : Int := 0
  deriving DecidableEq, Repr

/-- What a thread sees while it works on a message. `sent` and `sendLocos` only record:
the replies written, and the calls of `hardware->sendLoco` with their `emergencyStop`. -/
structure Ctx (β : Type) where
  globals : Globals β
  lastStatus : List LastStatus
  changedAddrIndex : List Bool
  sent : List FBTCtlMessage := []
  sendLocos : List (Nat × Bool) := []

abbrev Ctx.lokdef {β : Type} (c : Ctx β) : List Lokdef := c.globals.lokdef

/-- BTUtils, where the server is built with it. -/
structure BTUtils where
  remoteAddr : Str
  BTScan (reply : FBTCtlMessage) : Except Err FBTCtlMessage
  BTPush (target : Str) : Except Err Unit

/-- What one message finds outside the server: whether the connection still stands when
the reply is sent, and the files. `SPEED_STEP` is that of `config.h`, which the ESP32 builds have
their own of. -/
structure World where
  connected : Bool
  readFile (filename : Str) : Except Err Str
  bt : Option BTUtils := none
  SPEED_STEP : Nat := 5

inductive Command where
  | PING | ACC | BREAK | DIR | STOP | ACC_MULTI | BREAK_MULTI | DIR_MULTI | STOP_MULTI
  | SETFUNC | GETLOCOS | GETFUNCTIONS | POWER | POM | POMBIT | GETIMAGE | HELO_ERR
  | BTSCAN | BTPUSH
  deriving DecidableEq, Repr

namespace ClientThread

abbrev Action (β α : Type) := EStateM Err (Ctx β) α

variable {β : Type}

def onGlobals {α : Type} (m : EStateM Err (Globals β) α) : Action β α :=
  focus Ctx.globals (fun globals c => { c with globals }) m

def setLoko (i : Nat) (f : Lokdef → Lokdef) : Action β Unit := onGlobals (setLok i f)

/-- `changedAddrIndex[i] = true`. -/
def mark (i : Nat) : Action β Unit :=
  modify (fun c => { c with changedAddrIndex := c.changedAddrIndex.set i true })

def getInt (m : FBTCtlMessage) (name : String) : Except Err Int := do
  (← m.field (str name)).getIntVal

/-- The `speed` of the status messages: the direction alone when the loco stands. -/
def statusSpeed (l : Lokdef) : Int := if l.currspeed = 0 then l.currdir else l.currspeed * l.currdir

/-- `reply["info"][n][name] = value`. -/
def setInfo (n : Nat) (name : String) (value : FBTCtlMessage) (reply : FBTCtlMessage) :
    Except Err FBTCtlMessage :=
  modifyField (str "info") (modifyIndex n (setField (str name) value)) reply

/-- The loop of `setLokStatus`, which has written `n` entries so far. -/
def statusLoop : List Lokdef → List LastStatus → Nat → FBTCtlMessage →
    Except Err (FBTCtlMessage × List LastStatus)
  | l :: rest, last :: others, n, reply =>
    if l.addr = 0 then .ok (reply, last :: others)
    else if l.currspeed ≠ last.currspeed ∨ l.functions ≠ last.func ∨ l.currdir ≠ last.dir then do
      let reply ← setInfo n "addr" (.int l.addr) reply
      let reply ← setInfo n "speed" (.int (statusSpeed l)) reply
      let reply ← setInfo n "functions" (.int l.functions) reply
      let (reply, others) ← statusLoop rest others (n + 1) reply
      return (reply, { currspeed := l.currspeed, func := l.functions, dir := l.currdir } :: others)
    else do
      let (reply, others) ← statusLoop rest others n reply
      return (reply, last :: others)
  | _, lastStatus, _, reply => .ok (reply, lastStatus)

def setLokStatus (lokdef : List Lokdef) (lastStatus : List LastStatus) (reply : FBTCtlMessage) :
    Except Err (FBTCtlMessage × List LastStatus) := do
  let reply ← setField (str "info") (.array []) reply
  statusLoop lokdef lastStatus 0 reply

def sendMessage (w : World) (m : FBTCtlMessage) : Action β Unit :=
  if w.connected then do
    let _ ← lift (getBinaryMessage protocolDat m)
    modify (fun c => { c with sent := c.sent ++ [m] })
  else throw .notConnected

def newMessage (name : String) : Except Err FBTCtlMessage := do
  return .struct (← messageTypeID protocolDat (str name)) []

def sendStatusReply (w : World) : Action β Unit := do
  let c ← get
  let (reply, lastStatus) ← lift (do setLokStatus c.lokdef c.lastStatus (← newMessage "STATUS_REPLY"))
  modify (fun c => { c with lastStatus })
  sendMessage w reply

/-- `getAddrIndex` on an address the command holds. -/
def addrIndex (addr : Except Err Int) : Action β Nat := do
  let addr ← lift addr
  lift (getAddrIndex (← get).lokdef addr)

/-! The commands that drive. Each returns `emergencyStop`. -/

def setSpeed (speed : Int) (l : Lokdef) : Lokdef := { l with currspeed := speed }

def setDir (dir : Int) (l : Lokdef) : Lokdef := { l with currdir := dir }

def faster (SPEED_STEP : Nat) (speed : Int) : Int :=
  if speed + SPEED_STEP > 255 then 255 else speed + SPEED_STEP

def slower (SPEED_STEP : Nat) (least speed : Int) : Int :=
  if speed - SPEED_STEP < least then least else speed - SPEED_STEP

/-- ACC, BREAK and STOP: one loco gets a new speed. -/
def driveOne (w : World) (cmd : FBTCtlMessage) (speed : Int → Int) (emergencyStop : Bool) :
    Action β Bool := do
  let addr_index ← addrIndex (getInt cmd "addr")
  setLoko addr_index (fun l => setSpeed (speed l.currspeed) l)
  sendStatusReply w
  mark addr_index
  return emergencyStop

def ACC (w : World) (cmd : FBTCtlMessage) : Action β Bool := driveOne w cmd (faster w.SPEED_STEP) false

def BREAK (w : World) (cmd : FBTCtlMessage) : Action β Bool := driveOne w cmd (slower w.SPEED_STEP 0) false

def STOP (w : World) (cmd : FBTCtlMessage) : Action β Bool := driveOne w cmd (fun _ => 0) true

def DIR (w : World) (cmd : FBTCtlMessage) : Action β Bool := do
  let addr_index ← addrIndex (getInt cmd "addr")
  let dir ← lift (getInt cmd "dir")
  if dir ≠ 1 ∧ dir ≠ -1 then throw .invalidDir
  else if ((← get).lokdef[addr_index]?.getD .zeroed).currspeed ≠ 0 then throw .speedNotZero
  else
    setLoko addr_index (setDir dir)
    sendStatusReply w
    mark addr_index
    return false

def arraySize (cmd : FBTCtlMessage) : Except Err Nat := do (← cmd.field (str "list")).getArraySize

def addrAt (cmd : FBTCtlMessage) (i : Nat) : Except Err Int := do
  getInt (← (← cmd.field (str "list")).index i) "addr"

/-- The loops over `cmd["list"]`. -/
def setEach (cmd : FBTCtlMessage) (f : Lokdef → Lokdef) : List Nat → Action β Unit
  | [] => pure ()
  | i :: rest => do
    let addr_index ← addrIndex (addrAt cmd i)
    setLoko addr_index f
    mark addr_index
    setEach cmd f rest

/-- ACC_MULTI and BREAK_MULTI: the first loco's new speed goes to the others. -/
def driveMulti (w : World) (cmd : FBTCtlMessage) (speed : Int → Int) : Action β Bool := do
  let n ← lift (arraySize cmd)
  let addr_index ← addrIndex (addrAt cmd 0)
  setLoko addr_index (fun l => setSpeed (speed l.currspeed) l)
  mark addr_index
  let speed := ((← get).lokdef[addr_index]?.getD .zeroed).currspeed
  setEach cmd (setSpeed speed) (List.range' 1 (n - 1))
  sendStatusReply w
  return false

def ACC_MULTI (w : World) (cmd : FBTCtlMessage) : Action β Bool := driveMulti w cmd (faster w.SPEED_STEP)

/-- Unlike `BREAK` this one stops at -255. -/
def BREAK_MULTI (w : World) (cmd : FBTCtlMessage) : Action β Bool := driveMulti w cmd (slower w.SPEED_STEP (-255))

/-- Unlike `DIR` this one checks neither the direction nor the speed. -/
def DIR_MULTI (w : World) (cmd : FBTCtlMessage) : Action β Bool := do
  let n ← lift (arraySize cmd)
  let dir ← lift (getInt cmd "dir")
  setEach cmd (setDir dir) (List.range n)
  sendStatusReply w
  return false

def STOP_MULTI (w : World) (cmd : FBTCtlMessage) : Action β Bool := do
  let n ← lift (arraySize cmd)
  setEach cmd (setSpeed 0) (List.range n)
  sendStatusReply w
  return true

/-! The other commands. -/

def PING (w : World) : Action β Bool := do
  sendStatusReply w
  return false

def setFunc (funcNr value : Int) (l : Lokdef) : Lokdef :=
  if 0 ≤ funcNr ∧ funcNr < l.nFunc then
    let f := l.func.toList[funcNr.toNat]?.getD {}
    { l with func := l.func.setIfInBounds funcNr.toNat { f with ison := value ≠ 0 } }
  else l

def SETFUNC (w : World) (cmd : FBTCtlMessage) : Action β Bool := do
  let addr_index ← addrIndex (getInt cmd "addr")
  let funcNr ← lift (getInt cmd "funcnr")
  let value ← lift (getInt cmd "value")
  setLoko addr_index (setFunc funcNr value)
  sendStatusReply w
  mark addr_index
  return false

def locosLoop : List Lokdef → Nat → FBTCtlMessage → Except Err FBTCtlMessage
  | [], _, reply => .ok reply
  | l :: rest, i, reply =>
    if l.addr = 0 then .ok reply
    else do
      let reply ← setInfo i "addr" (.int l.addr) reply
      let reply ← setInfo i "name" (.string l.name) reply
      let reply ← setInfo i "imgname" (.string l.imgname) reply
      let reply ← setInfo i "speed" (.int (statusSpeed l)) reply
      let reply ← setInfo i "functions" (.int l.functions) reply
      locosLoop rest (i + 1) reply

def GETLOCOS (w : World) : Action β Bool := do
  let reply ← lift (newMessage "GETLOCOS_REPLY")
  let reply ← lift (locosLoop (← get).lokdef 0 reply)
  sendMessage w reply
  return false

def functionsLoop : List Func → Nat → FBTCtlMessage → Except Err FBTCtlMessage
  | [], _, reply => .ok reply
  | f :: rest, i, reply => do
    let reply ← setInfo i "name" (.string f.name) reply
    let reply ← setInfo i "value" (.int (if f.ison then 1 else 0)) reply
    let reply ← setInfo i "imgname" (.string []) reply
    functionsLoop rest (i + 1) reply

def GETFUNCTIONS (w : World) (cmd : FBTCtlMessage) : Action β Bool := do
  let addr_index ← addrIndex (getInt cmd "addr")
  let reply ← lift (newMessage "GETFUNCTIONS_REPLY")
  let l := (← get).lokdef[addr_index]?.getD .zeroed
  let reply ← lift (functionsLoop (l.func.toList.take l.nFunc.toNat) 0 reply)
  sendMessage w reply
  return false

/-- A reply whose only field is an `int` named "value". -/
def sendValue (w : World) (name : String) (value : Int) : Action β Bool := do
  let reply ← lift (newMessage name)
  let reply ← lift (setField (str "value") (.int value) reply)
  sendMessage w reply
  return false

variable (hardware : Hardware β)

/-- The value -1 only asks for the state. -/
def setPower (value : Int) : EStateM Err (Globals β) Unit :=
  if value = -1 then pure () else if value ≠ 0 then hardware.pwrOn else hardware.pwrOff

def POWER (w : World) (cmd : FBTCtlMessage) : Action β Bool := do
  let value ← lift (getInt cmd "value")
  onGlobals (setPower hardware value)
  sendValue w "POWER_REPLY" (if hardware.getPowerState (← get).globals.device then 1 else 0)

def POM (w : World) (cmd : FBTCtlMessage) : Action β Bool := do
  let addr_index ← addrIndex (getInt cmd "addr")
  let cv ← lift (getInt cmd "cv")
  let value ← lift (getInt cmd "value")
  let l := (← get).lokdef[addr_index]?.getD .zeroed
  let rc ← onGlobals (onDevice (hardware.sendPOM l.addr cv value))
  sendValue w "POM_REPLY" rc

def POMBIT (w : World) (cmd : FBTCtlMessage) : Action β Bool := do
  let addr_index ← addrIndex (getInt cmd "addr")
  let cv ← lift (getInt cmd "cv")
  let bitNr ← lift (getInt cmd "bit")
  let value ← lift (getInt cmd "value")
  let l := (← get).lokdef[addr_index]?.getD .zeroed
  let rc ← onGlobals (onDevice (hardware.sendPOMBit l.addr cv bitNr (value ≠ 0)))
  sendValue w "POMBIT_REPLY" rc

def image (w : World) (imageName : Str) : Except Err Str :=
  if imageName = [] then .ok [] else w.readFile (str "img/" ++ imageName)

def GETIMAGE (w : World) (cmd : FBTCtlMessage) : Action β Bool := do
  let imageName ← lift (do (← cmd.field (str "imgname")).getStringVal)
  let reply ← lift (do setField (str "img") (.string (← image w imageName)) (← newMessage "GETIMAGE_REPLY"))
  sendMessage w reply
  return false

/-- Without BTUtils the whole server aborts. -/
def sendClientUpdate (w : World) (target : Option Str) : Except Err Unit :=
  match w.bt with
  | some bt => bt.BTPush (target.getD bt.remoteAddr)
  | none => .error .abort

def HELO_ERR (w : World) (cmd : FBTCtlMessage) : Action β Bool := do
  let _ ← lift (getInt cmd "protohash")
  let _ ← lift (getInt cmd "doupdate")
  lift (sendClientUpdate w none)
  return false

def BTSCAN (w : World) : Action β Bool := do
  let reply ← lift (newMessage "BTSCAN_REPLY")
  let reply ← lift (match w.bt with | some bt => bt.BTScan reply | none => .ok reply)
  sendMessage w reply
  return false

def BTPUSH (w : World) (cmd : FBTCtlMessage) : Action β Bool := do
  let reply ← lift (newMessage "BTPUSH_REPLY")
  let addr ← lift (do (← cmd.field (str "addr")).getStringVal)
  lift (sendClientUpdate w (some addr))
  let reply ← lift (setField (str "rc") (.int 1) reply)
  sendMessage w reply
  return false

/-! The main loop. -/

/-- The names in the order the loop asks for them. -/
def commands (bt : Bool) : List (String × Command) :=
  [("PING", .PING), ("ACC", .ACC), ("BREAK", .BREAK), ("DIR", .DIR), ("STOP", .STOP),
    ("ACC_MULTI", .ACC_MULTI), ("BREAK_MULTI", .BREAK_MULTI), ("DIR_MULTI", .DIR_MULTI),
    ("STOP_MULTI", .STOP_MULTI), ("SETFUNC", .SETFUNC), ("GETLOCOS", .GETLOCOS),
    ("GETFUNCTIONS", .GETFUNCTIONS), ("POWER", .POWER), ("POM", .POM), ("POMBIT", .POMBIT),
    ("GETIMAGE", .GETIMAGE), ("HELO_ERR", .HELO_ERR)] ++
  if bt then [("BTSCAN", .BTSCAN), ("BTPUSH", .BTPUSH)] else []

def commandIn (cmd : FBTCtlMessage) : List (String × Command) → Except Err (Option Command)
  | [] => .ok none
  | (name, command) :: rest => do
    if ← cmd.isType protocolDat (str name) then return some command
    else commandIn cmd rest

/-- The branch a message takes; `none` is "invalid/unimplemented command". -/
def commandOf (w : World) (cmd : FBTCtlMessage) : Except Err (Option Command) :=
  commandIn cmd (commands w.bt.isSome)

def execute (w : World) (cmd : FBTCtlMessage) : Option Command → Action β Bool
  | some .PING => PING w
  | some .ACC => ACC w cmd
  | some .BREAK => BREAK w cmd
  | some .DIR => DIR w cmd
  | some .STOP => STOP w cmd
  | some .ACC_MULTI => ACC_MULTI w cmd
  | some .BREAK_MULTI => BREAK_MULTI w cmd
  | some .DIR_MULTI => DIR_MULTI w cmd
  | some .STOP_MULTI => STOP_MULTI w cmd
  | some .SETFUNC => SETFUNC w cmd
  | some .GETLOCOS => GETLOCOS w
  | some .GETFUNCTIONS => GETFUNCTIONS w cmd
  | some .POWER => POWER hardware w cmd
  | some .POM => POM hardware w cmd
  | some .POMBIT => POMBIT hardware w cmd
  | some .GETIMAGE => GETIMAGE w cmd
  | some .HELO_ERR => HELO_ERR w cmd
  | some .BTSCAN => BTSCAN w
  | some .BTPUSH => BTPUSH w cmd
  | none => pure false

def sendLoco (clientID : Int) (i : Nat) (emergencyStop : Bool) : Action β Unit := do
  modify (fun c => { c with changedAddrIndex := c.changedAddrIndex.set i false })
  setLoko i (fun l => { l with lastClientID := clientID })
  modify (fun c => { c with sendLocos := c.sendLocos ++ [(i, emergencyStop)] })
  onGlobals (hardware.sendLoco clientID i emergencyStop)

/-- The loop over `changedAddrIndex`. The first call takes `emergencyStop` with it. -/
def hardwareLoop (clientID : Int) : List Nat → Bool → Action β Unit
  | [], _ => pure ()
  | i :: rest, emergencyStop => do
    if (← get).changedAddrIndex[i]?.getD false then
      sendLoco hardware clientID i emergencyStop
      hardwareLoop clientID rest false
    else hardwareLoop clientID rest emergencyStop

/-- The start of `run`: the backend is told and the client gets its HELO. -/
def sendHelo (w : World) : Action β Unit := do
  onGlobals (onDevice hardware.clientConnected)
  let reply ← lift (newMessage "HELO")
  let reply ← lift (setField (str "name") (.string (str "my bt server")) reply)
  let reply ← lift (setField (str "version") (.string (str "0.9")) reply)
  let reply ← lift (setField (str "protohash") (.int protocolDat.protocolHash) reply)
  sendMessage w reply

/-- `lastStatus` as `run` sets it up: one slot more than locos, no function word of a
loco in it and no direction. -/
def initialStatus (lokdef : List Lokdef) : List LastStatus := List.replicate (nLokdef lokdef + 1) {}

def noneChanged (lokdef : List Lokdef) : List Bool := List.replicate (nLokdef lokdef + 1) false

/-- One turn of the main loop, after the message has been read. -/
def processMessage (clientID : Int) (w : World) (cmd : FBTCtlMessage) : Action β Unit := do
  let command ← lift (commandOf w cmd)
  let emergencyStop ← execute hardware w cmd command
  hardwareLoop hardware clientID (List.range (← get).changedAddrIndex.length) emergencyStop

end ClientThread
end Btcontrol
