import Btcontrol.Server

/-! Backends along whole runs of the server: what every operation of a backend keeps, and every write to the table,
holds between the start and any state a server reaches. -/
namespace Btcontrol

open Exec ClientThread

/-- What no write of the server to a record changes. -/
structure Shaped (l l' : Lokdef) : Prop where
  addr : l'.addr = l.addr
  nFunc : l'.nFunc = l.nFunc

theorem Shaped.refl (l : Lokdef) : Shaped l l := ⟨rfl,rfl⟩

theorem setSpeed_shaped (speed : Int) (l : Lokdef) : Shaped l (setSpeed speed l) := ⟨rfl,rfl⟩

theorem setDir_shaped (dir : Int) (l : Lokdef) : Shaped l (setDir dir l) := ⟨rfl,rfl⟩

theorem setFunc_shaped (funcNr value : Int) (l : Lokdef) : Shaped l (setFunc funcNr value l) := by
  simp only [setFunc]
  split <;> exact ⟨rfl,rfl⟩

/-- A relation between states of the table and the backend that no step can leave. -/
structure Tracks {β : Type} (hardware : Hardware β) (rel : Globals β → Globals β → Prop) : Prop where
  closed : Closed rel
  table : ∀ g lokdef, Records Shaped g.lokdef lokdef → rel g { g with lokdef }
  sendLoco : ∀ clientID i emergencyStop, Moves rel (hardware.sendLoco clientID i emergencyStop)
  fullstop : ∀ clientID stopAll emergencyStop, Moves rel (hardware.fullstop clientID stopAll emergencyStop)
  pwrOn : Moves rel hardware.pwrOn
  pwrOff : Moves rel hardware.pwrOff
  clientConnected : Moves rel (onDevice hardware.clientConnected)
  clientDisconnected : ∀ all, Moves rel (onDevice (hardware.clientDisconnected all))
  sendPOM : ∀ addr cv value, Moves rel (onDevice (hardware.sendPOM addr cv value))
  sendPOMBit : ∀ addr cv bitNr value, Moves rel (onDevice (hardware.sendPOMBit addr cv bitNr value))

/-- The relation between what two contexts share. -/
def Shared {β : Type} (rel : Globals β → Globals β → Prop) (c c' : Ctx β) : Prop := rel c.globals c'.globals

namespace Tracks

variable {β : Type} {hardware : Hardware β} {rel : Globals β → Globals β → Prop}

theorem still {α : Type} {m : Action β α} (moves : Moves (Still rel) m) : Moves (Shared rel) m :=
  fun c => (moves c).globals

theorem onGlobals {α : Type} {m : EStateM Err (Globals β) α} (moves : Moves rel m) :
    Moves (Shared rel) (onGlobals m) := moves_focus moves (fun _ _ moved => moved)

variable (tracks : Tracks hardware rel)
include tracks

theorem shared : Closed (Shared (β := β) rel) :=
  ⟨fun c => tracks.closed.refl c.globals,fun _ _ _ => tracks.closed.trans _ _ _⟩

theorem lift {α : Type} (x : Except Err α) : Moves (Shared rel) (lift x : Action β α) := moves_lift tracks.shared x

theorem bind {α γ : Type} {m : Action β α} {f : α → Action β γ} (first : Moves (Shared rel) m)
    (next : ∀ a, Moves (Shared rel) (f a)) : Moves (Shared rel) (m >>= f) := moves_bind tracks.shared first next

theorem get : Moves (Shared rel) (MonadStateOf.get : Action β (Ctx β)) := moves_get tracks.shared

theorem pure {α : Type} (a : α) : Moves (Shared rel) (Pure.pure a : Action β α) := moves_pure tracks.shared a

theorem mark (i : Nat) : Moves (Shared rel) (mark i : Action β Unit) :=
  moves_modify _ (fun c => tracks.closed.refl c.globals)

theorem addrIndex (addr : Except Err Int) : Moves (Shared rel) (addrIndex addr : Action β Nat) :=
  still (addrIndex_still tracks.closed addr)

theorem sendStatusReply (w : World) : Moves (Shared rel) (sendStatusReply w : Action β Unit) :=
  still (sendStatusReply_still tracks.closed w)

theorem setLoko (i : Nat) (f : Lokdef → Lokdef) (shaped : ∀ l, Shaped l (f l)) :
    Moves (Shared rel) (setLoko i f : Action β Unit) := by
  apply onGlobals
  apply moves_modify
  intro g
  exact tracks.table g _ (Records.modify Shaped.refl g.lokdef i f (fun l _ => shaped l))

theorem setEach (cmd : FBTCtlMessage) (f : Lokdef → Lokdef) (shaped : ∀ l, Shaped l (f l)) (indices : List Nat) :
    Moves (Shared rel) (setEach cmd f indices : Action β Unit) := by
  induction indices with
  | nil => exact tracks.pure _
  | cons i rest ih =>
    refine tracks.bind (tracks.addrIndex _) (fun j => ?_)
    exact tracks.bind (tracks.setLoko j f shaped) (fun _ => tracks.bind (tracks.mark j) (fun _ => ih))

theorem driveOne (w : World) (cmd : FBTCtlMessage) (speed : Int → Int) (emergencyStop : Bool) :
    Moves (Shared rel) (driveOne w cmd speed emergencyStop : Action β Bool) := by
  refine tracks.bind (tracks.addrIndex _) (fun i => tracks.bind (tracks.setLoko i _ (fun l => ⟨rfl,rfl⟩)) (fun _ => ?_))
  refine tracks.bind (tracks.sendStatusReply w) (fun _ => ?_)
  exact tracks.bind (tracks.mark i) (fun _ => tracks.pure _)

theorem driveMulti (w : World) (cmd : FBTCtlMessage) (speed : Int → Int) :
    Moves (Shared rel) (driveMulti w cmd speed : Action β Bool) := by
  refine tracks.bind (tracks.lift _) (fun n => tracks.bind (tracks.addrIndex _) (fun i => ?_))
  refine tracks.bind (tracks.setLoko i _ (fun l => ⟨rfl,rfl⟩)) (fun _ => tracks.bind (tracks.mark i) (fun _ => ?_))
  refine tracks.bind tracks.get (fun c => tracks.bind (tracks.setEach cmd _ (setSpeed_shaped _) _) (fun _ => ?_))
  exact tracks.bind (tracks.sendStatusReply w) (fun _ => tracks.pure _)

theorem DIR (w : World) (cmd : FBTCtlMessage) : Moves (Shared rel) (DIR w cmd : Action β Bool) := by
  refine tracks.bind (tracks.addrIndex _) (fun i => tracks.bind (tracks.lift _) (fun dir => ?_))
  refine moves_ite (moves_throw tracks.shared _) (tracks.bind tracks.get (fun c => ?_))
  refine moves_ite (moves_throw tracks.shared _) (tracks.bind (tracks.setLoko i _ (fun l => ⟨rfl,rfl⟩)) (fun _ => ?_))
  exact tracks.bind (tracks.sendStatusReply w) (fun _ => tracks.bind (tracks.mark i) (fun _ => tracks.pure _))

theorem SETFUNC (w : World) (cmd : FBTCtlMessage) : Moves (Shared rel) (SETFUNC w cmd : Action β Bool) := by
  refine tracks.bind (tracks.addrIndex _) (fun i => tracks.bind (tracks.lift _) (fun funcNr => ?_))
  refine tracks.bind (tracks.lift _) (fun value => ?_)
  refine tracks.bind (tracks.setLoko i _ (setFunc_shaped funcNr value)) (fun _ => ?_)
  exact tracks.bind (tracks.sendStatusReply w) (fun _ => tracks.bind (tracks.mark i) (fun _ => tracks.pure _))

theorem execute (w : World) (cmd : FBTCtlMessage) (command : Option Command) :
    Moves (Shared rel) (execute hardware w cmd command) := by
  have status : Moves (Shared rel) (do ClientThread.sendStatusReply w; return false : Action β Bool) :=
    tracks.bind (tracks.sendStatusReply w) (fun _ => tracks.pure _)
  have reply (m : FBTCtlMessage) : Moves (Shared rel) (do sendMessage w m; return false : Action β Bool) :=
    still (reply_still tracks.closed w m false)
  have value (name : String) (n : Int) : Moves (Shared rel) (sendValue w name n : Action β Bool) :=
    still (sendValue_still tracks.closed w name n)
  match command with
  | none => exact tracks.pure _
  | some .PING => exact status
  | some .ACC => exact tracks.driveOne w cmd (faster w.SPEED_STEP) false
  | some .BREAK => exact tracks.driveOne w cmd (slower w.SPEED_STEP 0) false
  | some .STOP => exact tracks.driveOne w cmd (fun _ => 0) true
  | some .DIR => exact tracks.DIR w cmd
  | some .ACC_MULTI => exact tracks.driveMulti w cmd (faster w.SPEED_STEP)
  | some .BREAK_MULTI => exact tracks.driveMulti w cmd (slower w.SPEED_STEP (-255))
  | some .DIR_MULTI =>
    refine tracks.bind (tracks.lift _) (fun n => tracks.bind (tracks.lift _) (fun dir => ?_))
    exact tracks.bind (tracks.setEach cmd _ (setDir_shaped dir) _) (fun _ => status)
  | some .STOP_MULTI =>
    refine tracks.bind (tracks.lift _) (fun n => tracks.bind (tracks.setEach cmd _ (setSpeed_shaped 0) _) (fun _ => ?_))
    exact tracks.bind (tracks.sendStatusReply w) (fun _ => tracks.pure _)
  | some .SETFUNC => exact tracks.SETFUNC w cmd
  | some .GETLOCOS =>
    refine tracks.bind (tracks.lift _) (fun m => tracks.bind tracks.get (fun c => ?_))
    exact tracks.bind (tracks.lift _) (fun m => reply m)
  | some .GETFUNCTIONS =>
    refine tracks.bind (tracks.addrIndex _) (fun i => tracks.bind (tracks.lift _) (fun m => ?_))
    exact tracks.bind tracks.get (fun c => tracks.bind (tracks.lift _) (fun m => reply m))
  | some .POWER => exact still (POWER_still tracks.closed hardware tracks.pwrOn tracks.pwrOff w cmd)
  | some .POM =>
    refine tracks.bind (tracks.addrIndex _) (fun i => tracks.bind (tracks.lift _) (fun cv => ?_))
    refine tracks.bind (tracks.lift _) (fun v => tracks.bind tracks.get (fun c => ?_))
    exact tracks.bind (onGlobals (tracks.sendPOM _ _ _)) (fun rc => value _ _)
  | some .POMBIT =>
    refine tracks.bind (tracks.addrIndex _) (fun i => tracks.bind (tracks.lift _) (fun cv => ?_))
    refine tracks.bind (tracks.lift _) (fun bit => tracks.bind (tracks.lift _) (fun v => ?_))
    refine tracks.bind tracks.get (fun c => ?_)
    exact tracks.bind (onGlobals (tracks.sendPOMBit _ _ _ _)) (fun rc => value _ _)
  | some .GETIMAGE => exact tracks.bind (tracks.lift _) (fun _ => tracks.bind (tracks.lift _) (fun m => reply m))
  | some .HELO_ERR =>
    refine tracks.bind (tracks.lift _) (fun _ => tracks.bind (tracks.lift _) (fun _ => ?_))
    exact tracks.bind (tracks.lift _) (fun _ => tracks.pure _)
  | some .BTSCAN => exact tracks.bind (tracks.lift _) (fun _ => tracks.bind (tracks.lift _) (fun m => reply m))
  | some .BTPUSH =>
    refine tracks.bind (tracks.lift _) (fun _ => tracks.bind (tracks.lift _) (fun _ => ?_))
    exact tracks.bind (tracks.lift _) (fun _ => tracks.bind (tracks.lift _) (fun m => reply m))

theorem hardwareLoop (clientID : Int) (indices : List Nat) (emergencyStop : Bool) :
    Moves (Shared rel) (hardwareLoop hardware clientID indices emergencyStop) := by
  induction indices generalizing emergencyStop with
  | nil => exact tracks.pure _
  | cons i rest ih =>
    refine tracks.bind tracks.get (fun c => moves_ite ?_ (ih emergencyStop))
    refine tracks.bind ?_ (fun _ => ih false)
    refine tracks.bind (moves_modify _ (fun c => tracks.closed.refl c.globals)) (fun _ => ?_)
    refine tracks.bind (tracks.setLoko i _ (fun l => ⟨rfl,rfl⟩)) (fun _ => ?_)
    refine tracks.bind (moves_modify _ (fun c => tracks.closed.refl c.globals)) (fun _ => ?_)
    exact onGlobals (tracks.sendLoco clientID i emergencyStop)

theorem processMessage (clientID : Int) (w : World) (cmd : FBTCtlMessage) :
    Moves (Shared rel) (processMessage hardware clientID w cmd) := by
  refine tracks.bind (tracks.lift _) (fun command => tracks.bind (tracks.execute w cmd command) (fun emergencyStop => ?_))
  exact tracks.bind tracks.get (fun c => tracks.hardwareLoop clientID _ emergencyStop)

theorem sendHelo (w : World) : Moves (Shared rel) (sendHelo hardware w) := by
  refine tracks.bind (onGlobals tracks.clientConnected) (fun _ => ?_)
  refine tracks.bind (tracks.lift _) (fun _ => tracks.bind (tracks.lift _) (fun _ => ?_))
  refine tracks.bind (tracks.lift _) (fun _ => tracks.bind (tracks.lift _) (fun m => ?_))
  exact still (sendMessage_still tracks.closed w m)

/-- One step. -/
theorem step (s : Server β) (label : Label) : rel s.globals (Server.step hardware s label).globals := by
  by_cases halted : s.halted = true
  · rw [Server.step_halted hardware s label halted]
    exact tracks.closed.refl _
  have live : s.halted = false := Bool.eq_false_iff.mpr halted
  cases label <;> simp only [Server.step,live,Bool.false_eq_true,↓reduceIte]
  case accept => exact tracks.closed.refl _
  case readFails clientID =>
    split <;> exact tracks.closed.refl _
  case helo clientID w =>
    split
    · have moved := tracks.sendHelo w (s.context [] [])
      cases sent : ClientThread.sendHelo hardware w (s.context [] []) with
      | ok _ c => rw [sent] at moved; exact moved
      | error e c => rw [sent] at moved; exact moved
    · exact tracks.closed.refl _
  case message clientID w cmd =>
    split
    · rename_i lastStatus changedAddrIndex _
      have moved := tracks.processMessage clientID w cmd (s.context lastStatus changedAddrIndex)
      cases processed : ClientThread.processMessage hardware clientID w cmd (s.context lastStatus changedAddrIndex) with
      | ok _ c => rw [processed] at moved; exact moved
      | error e c => rw [processed] at moved; exact moved
    · exact tracks.closed.refl _
  case destroy clientID =>
    split
    · exact moves_bind tracks.closed (tracks.fullstop clientID _ true) (fun _ => tracks.clientDisconnected _) s.globals
    · exact tracks.closed.refl _

/-- The rule for whole runs. -/
theorem run (s : Server β) (labels : List Label) : rel s.globals (Server.run hardware s labels).globals := by
  have kept (s' : Server β) (label : Label) (so_far : rel s.globals s'.globals) :
      rel s.globals (Server.step hardware s' label).globals :=
    tracks.closed.trans _ _ _ so_far (tracks.step s' label)
  exact Transition.run_always kept labels s (tracks.closed.refl s.globals)

end Tracks

theorem shaped_closed {β : Type} : Closed (fun g g' : Globals β => Records Shaped g.lokdef g'.lokdef) := by
  constructor
  · exact fun g => Records.refl Shaped.refl _
  · intro a b c
    exact Records.trans (fun _ _ _ first second => ⟨second.addr.trans first.addr,second.nFunc.trans first.nFunc⟩)

/-- No backend changes the shape of the table. -/
theorem tracks_shape {β : Type} (hardware : Hardware β) :
    Tracks hardware (fun g g' : Globals β => Records Shaped g.lokdef g'.lokdef) := by
  have effect {α : Type} {m : EStateM Err (Globals β) α} (moves : Moves (Effect hardware.refused) m) :
      Moves (fun g g' : Globals β => Records Shaped g.lokdef g'.lokdef) m :=
    fun g => (moves g).records.mono (fun _ _ touched => ⟨touched.addr,touched.nFunc⟩)
  have device {α : Type} (m : EStateM Err β α) :
      Moves (fun g g' : Globals β => Records Shaped g.lokdef g'.lokdef) (onDevice m) := by
    have any : Moves (fun _ _ : β => True) m := fun _ => trivial
    exact moves_focus any (fun g _ _ => Records.refl Shaped.refl g.lokdef)
  constructor
  · exact shaped_closed
  · exact fun _ _ records => records
  · exact fun clientID i emergencyStop => effect (hardware.sendLoco_effect clientID i emergencyStop)
  · exact fun clientID stopAll emergencyStop => effect (hardware.fullstop_effect clientID stopAll emergencyStop)
  · exact effect hardware.pwrOn_effect
  · exact effect hardware.pwrOff_effect
  · exact device hardware.clientConnected
  · exact fun all => device (hardware.clientDisconnected all)
  · exact fun addr cv value => device (hardware.sendPOM addr cv value)
  · exact fun addr cv bitNr value => device (hardware.sendPOMBit addr cv bitNr value)

end Btcontrol
