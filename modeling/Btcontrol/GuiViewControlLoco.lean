import Btcontrol.RemoteLokdef
import Btcontrol.ControlClientThread
import Btcontrol.Transition

/-! `GuiViewControlLoco` of the ESP32 control: the poti sets the speed, buttons stop and turn the loco. The view runs
in the GUI thread, and its table of the locos and the queue of its commands are shared with the client thread, which
may run between any two parts of `loop`. -/
namespace Btcontrol.GuiViewControlLoco

open FBTCtlMessage RemoteLokdef Transition

/-- `buttonConfig_t::action`. -/
inductive Action where
  | sendFunc (funcNr : Int)
  | sendFullStop
  | direction
  deriving DecidableEq, Repr

/-- Where the GUI thread stands in the poti part of `loop`. -/
inductive Part where
  | idle
  | accel
  | brake
  | dir
  deriving DecidableEq, Repr

structure State where
  client : ControlClientThread.State := {}
  /-- NULL until there was a GETLOCOS_REPLY. -/
  lokdef : Option (List Lokdef) := none
  selectedAddrIndex : Int := 0
  forceStop : Bool := false
  dirSwitch : Int := 1
  avg : Int := 0
  lastValues : Vector Int 10 := Vector.replicate 10 0
  lastPotiCheck : UInt32 := 0
  last : UInt32 := 0
  lastBatLevelRefresh : UInt32 := -30000
  batLevelAddr : Int := -1
  batLevelCV : Int := -1
  part : Part := .idle

def ACC : Nat := 9
def BREAK : Nat := 10
def DIR : Nat := 11
def STOP : Nat := 12
def SETFUNC : Nat := 17
def GETFUNCTIONS : Nat := 20
def POM : Nat := 24

example : [ "ACC", "BREAK", "DIR", "STOP", "SETFUNC", "GETFUNCTIONS", "POM" ].map
    (fun name => messageTypeID protocolDat (str name)) =
      [ACC, BREAK, DIR, STOP, SETFUNC, GETFUNCTIONS, POM].map Except.ok := rfl

def command (type : Nat) (fields : List (String × Int)) : FBTCtlMessage :=
  .struct type (fields.map (fun field => (str field.1, .int field.2)))

namespace State

def query (cmd : FBTCtlMessage) (s : State) : State := { s with client := ControlClientThread.query cmd s.client }

/-- `getCurrLok`; without a loco it throws. -/
def getCurrLok (s : State) : Option Lokdef :=
  if s.selectedAddrIndex < 0 then none
  else s.lokdef.bind (fun lokdef => (locos lokdef)[s.selectedAddrIndex.toNat]?)

def getQueueLength (s : State) : Nat := s.client.cmdQueue.length

def selectedAddr (s : State) : Int := ((s.lokdef.getD [])[s.selectedAddrIndex.toNat]?.getD .zeroed).addr

def sendFunc (funcNr : Int) (enable : Bool) (s : State) : State :=
  if s.getQueueLength > ControlClientThread.MAX_QUEUE_LENGTH then s
  else s.query (command SETFUNC [("addr", s.selectedAddr), ("funcnr", funcNr), ("value", if enable then 1 else 0)])

def sendStop (s : State) : State :=
  match s.getCurrLok with
  | none => s
  | some l => s.query (command STOP [("addr", l.addr)])

def sendDir (forward : Bool) (s : State) : State :=
  if s.getQueueLength > ControlClientThread.MAX_QUEUE_LENGTH then s
  else match s.getCurrLok with
    | none => s
    | some l => s.query (command DIR [("addr", l.addr), ("dir", if forward then 1 else -1)])

/-- `sendSpeed`, with the type of its command. -/
def sendSpeed (type : Nat) (s : State) : State :=
  if !s.client.isRunning then s
  else if s.getQueueLength > 1 then s
  else match s.getCurrLok with
    | none => s
    | some l => s.query (command type [("addr", l.addr)])

def refreshBatLevel (s : State) : State :=
  if s.batLevelAddr = -1 then match s.getCurrLok with
    | none => s
    | some l =>
      let s := { s with batLevelAddr := l.addr }
      if l.addr < 0 then s
      else
        let s := s.query (command POM [("addr", l.addr), ("cv", -20), ("value", -1)])
        if s.batLevelCV ≠ -1 then s.query (command POM [("addr", l.addr), ("cv", s.batLevelCV), ("value", -1)]) else s
  else if s.batLevelCV ≠ -1 then
    s.query (command POM [("addr", s.batLevelAddr), ("cv", s.batLevelCV), ("value", -1)])
  else s

def stop (s : State) : State :=
  let s := { s with forceStop := true }
  if s.client.isRunning then s.sendStop else s

def onClick (action : Action) (pressed : Bool) (s : State) : State :=
  match action with
  | .sendFunc funcNr => if s.client.isRunning then s.sendFunc funcNr pressed else s
  | .sendFullStop => s.stop
  | .direction => { s with dirSwitch := if pressed then 1 else -1 }

/-- A new view is started; its buttons are clicks of their own. -/
def init (s : State) : State :=
  let s := { s with batLevelAddr := -1, batLevelCV := -1, lastBatLevelRefresh := -30000 }
  match s.getCurrLok with
  | none => s
  | some l => s.query (command GETFUNCTIONS [("addr", l.addr)])

/-- `loop` gets to its parts while the client thread runs and there is a table. -/
def ready (s : State) : Bool := decide (s.part = .idle) && s.client.isRunning && s.lokdef.isSome

def refresh (now millis : UInt32) (s : State) : State :=
  if s.ready ∧ now > s.last + 200 then
    let s := { s with last := millis }
    if now > s.lastBatLevelRefresh + 30000 then { s with lastBatLevelRefresh := now }.refreshBatLevel else s
  else s

/-- The last ten values with the new one behind them. -/
def shifted (lastValues : Vector Int 10) (poti : Int) : Vector Int 10 :=
  Vector.ofFn (fun i => if later : i.val < 9 then lastValues[i.val + 1] else poti)

/-- `avg` once `analog` is read: `analog*255.0/4095.0` is cut to an `int`. -/
def average (s : State) (analog : Nat) : Int :=
  (shifted s.lastValues (analog * 255 / 4095 : Nat)).toList.sum.tdiv 10

def poti (now : UInt32) (analog : Nat) (s : State) : State :=
  if s.ready ∧ now > s.lastPotiCheck + 200 then
    let s := { s with
      avg := s.average analog
      lastValues := shifted s.lastValues (analog * 255 / 4095 : Nat)
      lastPotiCheck := now }
    if s.forceStop then { s with forceStop := s.avg ≠ 0, part := .dir }
    else { s with part := .accel }
  else s

def speedPart (part next : Part) (type : Nat) (wanted : Int → Int → Prop) [DecidableRel wanted] (s : State) : State :=
  if s.part = part then match s.getCurrLok with
    | none => { s with part := .idle }
    | some l =>
      let s := { s with part := next }
      if wanted s.avg l.currspeed then s.sendSpeed type else s
  else s

def accel : State → State :=
  speedPart .accel .brake ACC (fun avg currspeed => avg ≥ currspeed + 5 ∧ currspeed ≤ 255 - 5)

def brake : State → State :=
  speedPart .brake .dir BREAK (fun avg currspeed => avg ≤ currspeed - 5 ∧ currspeed ≥ 5)

def dir (s : State) : State :=
  if s.part = .dir then match s.getCurrLok with
    | none => { s with part := .idle }
    | some l =>
      let s := { s with part := .idle }
      if s.dirSwitch ≠ l.currdir then
        if absInt l.currspeed > 1 then s.stop
        else s.sendDir (s.dirSwitch > 0)
      else s
  else s

end State

inductive Label where
  | init
  | click (action : Action) (pressed : Bool)
  | refresh (now millis : UInt32)
  | poti (now : UInt32) (analog : Nat)
  | accel
  | brake
  | dir
  /-- The callback of `refreshBatLevel`, with the value of the POM_REPLY. -/
  | batLevelCV (value : Int)
  /-- A step of the client thread, or of the view that starts it. -/
  | thread (label : ControlClientThread.Label)
  /-- What the server sends makes any table of any other. -/
  | status (lokdef : List Lokdef)
  | setCurrLok (index : Int)

/-- The commands of the controls are those of this view. -/
def ofThread : ControlClientThread.Label → Bool
  | .query _ | .sendSpeed _ | .sendFunc _ | .sendDir _ | .sendStop _ => false
  | .init _ | .cancel | .helo | .send _ | .reply | .fault | .exit => true

def step (s : State) : Label → State
  | .init => if s.part = .idle then s.init else s
  | .click action pressed => if s.part = .idle then s.onClick action pressed else s
  | .refresh now millis => s.refresh now millis
  | .poti now analog => s.poti now analog
  | .accel => s.accel
  | .brake => s.brake
  | .dir => s.dir
  | .batLevelCV value =>
    let s := { s with batLevelCV := value }
    if value > 0 then s.refreshBatLevel else s
  | .thread label => if ofThread label then { s with client := ControlClientThread.step s.client label } else s
  | .status lokdef => { s with lokdef := some lokdef }
  | .setCurrLok index => { s with selectedAddrIndex := index }

/-- The step is an iteration of `loop` that reads the poti and gets the average 0. -/
def Observes (s : State) : Label → Prop
  | .poti now analog => (s.ready ∧ now > s.lastPotiCheck + 200) ∧ s.average analog = 0
  | _ => False

def State.enqueued (s : State) : List FBTCtlMessage :=
  s.client.sent.map (fun it => it.2.item) ++ s.client.cmdQueue.map Mailbox.Mail.item

def Standing (m : FBTCtlMessage) : Prop := m.type ≠ ACC ∧ m.type ≠ BREAK

theorem standing_command {type : Nat} (apart : type ≠ ACC ∧ type ≠ BREAK) (fields : List (String × Int)) :
    Standing (command type fields) := apart

/-! ### What a step puts into the queue -/

/-- Commands that meet `ok` were put into the queue. -/
def Adds (ok : FBTCtlMessage → Prop) (s s' : State) : Prop :=
  ∃ commands, s'.enqueued = s.enqueued ++ commands ∧ ∀ m ∈ commands, ok m

section Adds

variable {ok : FBTCtlMessage → Prop} {s s' s'' : State}

theorem adds_same (same : s'.client = s.client) : Adds ok s s' := by
  refine ⟨[],?_,by simp⟩
  rw [State.enqueued,same,List.append_nil]
  rfl

theorem Adds.trans (first : Adds ok s s') (second : Adds ok s' s'') : Adds ok s s'' := by
  obtain ⟨before,queued,fine⟩ := first
  obtain ⟨after,queued',fine'⟩ := second
  refine ⟨before ++ after,?_,?_⟩
  · rw [queued',queued,List.append_assoc]
  · intro m member
    rcases List.mem_append.mp member with here | there
    · exact fine m here
    · exact fine' m there

theorem query_enqueued (cmd : FBTCtlMessage) (s : State) : (s.query cmd).enqueued = s.enqueued ++ [cmd] := by
  simp [State.enqueued,State.query,ControlClientThread.query,Mailbox.Mail.mark]

theorem adds_query {cmd : FBTCtlMessage} (fine : ok cmd) (s : State) : Adds ok s (s.query cmd) :=
  ⟨[cmd],query_enqueued cmd s,by simpa using fine⟩

end Adds

structure Keeps (ok : FBTCtlMessage → Prop) (s s' : State) : Prop where
  forceStop : s'.forceStop = s.forceStop
  part : s'.part = s.part
  adds : Adds ok s s'

section Keeps

variable {ok : FBTCtlMessage → Prop} {s s' s'' : State}

theorem keeps_same (forceStop : s'.forceStop = s.forceStop) (part : s'.part = s.part) (client : s'.client = s.client) :
    Keeps ok s s' := ⟨forceStop,part,adds_same client⟩

theorem Keeps.trans (first : Keeps ok s s') (second : Keeps ok s' s'') : Keeps ok s s'' :=
  ⟨second.forceStop.trans first.forceStop,second.part.trans first.part,first.adds.trans second.adds⟩

theorem keeps_query {cmd : FBTCtlMessage} (fine : ok cmd) (s : State) : Keeps ok s (s.query cmd) :=
  ⟨rfl,rfl,adds_query fine s⟩

/-- A command for the current loco. -/
theorem keeps_currLok {cmd : Lokdef → FBTCtlMessage} (fine : ∀ l, ok (cmd l)) (s : State) :
    Keeps ok s (match s.getCurrLok with
      | none => s
      | some l => s.query (cmd l)) := by
  split
  · exact keeps_same rfl rfl rfl
  · exact keeps_query (fine _) s

theorem keeps_sendFunc (funcNr : Int) (enable : Bool) (s : State) : Keeps Standing s (s.sendFunc funcNr enable) := by
  unfold State.sendFunc
  split
  · exact keeps_same rfl rfl rfl
  · exact keeps_query (standing_command (by decide) _) s

theorem keeps_sendStop (s : State) : Keeps Standing s s.sendStop :=
  keeps_currLok (fun _ => standing_command (by decide) _) s

theorem keeps_sendDir (forward : Bool) (s : State) : Keeps Standing s (s.sendDir forward) := by
  unfold State.sendDir
  split
  · exact keeps_same rfl rfl rfl
  · exact keeps_currLok (fun _ => standing_command (by decide) _) s

theorem keeps_sendSpeed (type : Nat) (s : State) : Keeps (fun _ => True) s (s.sendSpeed type) := by
  unfold State.sendSpeed
  split
  · exact keeps_same rfl rfl rfl
  · split
    · exact keeps_same rfl rfl rfl
    · exact keeps_currLok (fun _ => trivial) s

theorem keeps_refreshBatLevel (s : State) : Keeps Standing s s.refreshBatLevel := by
  have pom := @standing_command POM (by decide)
  unfold State.refreshBatLevel
  split
  · split
    · exact keeps_same rfl rfl rfl
    · rename_i l _
      dsimp only
      have read : Keeps Standing s { s with batLevelAddr := l.addr } := keeps_same rfl rfl rfl
      split
      · exact read
      · apply read.trans
        apply (keeps_query (pom [("addr", l.addr), ("cv", -20), ("value", -1)]) _).trans
        split
        · exact keeps_query (pom _) _
        · exact keeps_same rfl rfl rfl
  · split
    · exact keeps_query (pom _) s
    · exact keeps_same rfl rfl rfl

theorem keeps_init (s : State) : Keeps Standing s s.init := by
  have fresh : Keeps Standing s { s with batLevelAddr := -1, batLevelCV := -1, lastBatLevelRefresh := -30000 } :=
    keeps_same rfl rfl rfl
  exact fresh.trans (keeps_currLok (fun _ => standing_command (by decide) _) _)

theorem keeps_refresh (now millis : UInt32) (s : State) : Keeps Standing s (s.refresh now millis) := by
  unfold State.refresh
  split
  · dsimp only
    have drawn : Keeps Standing s { s with last := millis } := keeps_same rfl rfl rfl
    split
    · have due : Keeps Standing s { s with last := millis, lastBatLevelRefresh := now } := keeps_same rfl rfl rfl
      exact due.trans (keeps_refreshBatLevel _)
    · exact drawn
  · exact keeps_same rfl rfl rfl

/-- The client thread takes commands from the queue and puts none into it. -/
theorem thread_enqueued (s : State) (label : ControlClientThread.Label) (own : ofThread label = true) :
    ({ s with client := ControlClientThread.step s.client label } : State).enqueued = s.enqueued := by
  have faulted (c : ControlClientThread.State) : (ControlClientThread.fault c).sent = c.sent ∧
      (ControlClientThread.fault c).cmdQueue = c.cmdQueue := by
    unfold ControlClientThread.fault
    split <;> exact ⟨rfl,rfl⟩
  cases label with
  | query | sendSpeed | sendFunc | sendDir | sendStop => cases own
  | init connected =>
    simp only [ControlClientThread.step,ControlClientThread.init]
    split
    · rfl
    · split <;> rfl
  | cancel =>
    simp only [ControlClientThread.step]
    split <;> rfl
  | helo =>
    simp only [ControlClientThread.step]
    split <;> rfl
  | send done =>
    simp only [ControlClientThread.step,ControlClientThread.send]
    split
    · split
      · rfl
      · simp only [State.enqueued,faulted]
    · rename_i item rest _ queue
      split
      · simp [State.enqueued,queue]
      · simp [State.enqueued,queue,faulted]
    · rfl
  | reply =>
    simp only [ControlClientThread.step]
    split
    · split
      · simp only [State.enqueued,faulted]
      · rfl
    · rfl
  | fault => simp only [ControlClientThread.step,State.enqueued,faulted]
  | exit =>
    simp only [ControlClientThread.step]
    split <;> rfl

theorem keeps_thread (s : State) (label : ControlClientThread.Label) : Keeps Standing s (step s (.thread label)) := by
  simp only [step]
  split
  · rename_i own
    exact ⟨rfl,rfl,[],by rw [thread_enqueued s label own,List.append_nil],by simp⟩
  · exact keeps_same rfl rfl rfl

end Keeps

/-! ### The latch -/

theorem stop_latches (s : State) : s.stop.forceStop = true ∧ s.stop.part = s.part ∧ Adds Standing s s.stop := by
  have set : Adds Standing s { s with forceStop := true } := adds_same rfl
  unfold State.stop
  dsimp only
  split
  · have sent := keeps_sendStop { s with forceStop := true }
    exact ⟨sent.forceStop,sent.part,set.trans sent.adds⟩
  · exact ⟨rfl,rfl,set⟩

theorem stop_enqueued {s : State} {l : Lokdef} (running : s.client.isRunning = true) (selected : s.getCurrLok = some l) :
    s.stop.enqueued = s.enqueued ++ [command STOP [("addr", l.addr)]] := by
  have current : ({ s with forceStop := true } : State).getCurrLok = some l := selected
  simp only [State.stop,running,↓reduceIte,State.sendStop,current]
  exact query_enqueued _ _

def Resting (s : State) : Prop := s.part = .idle ∨ s.part = .dir

/-- What a step does while the latch is set. -/
structure Held (s s' : State) : Prop where
  forceStop : s'.forceStop = true
  resting : Resting s'
  adds : Adds Standing s s'

theorem Keeps.held {s s' : State} (keeps : Keeps Standing s s') (latched : s.forceStop = true) (resting : Resting s) :
    Held s s' :=
  ⟨keeps.forceStop.trans latched,by rw [Resting,keeps.part]; exact resting,keeps.adds⟩

theorem held_same {s s' : State} (latched : s.forceStop = true) (resting : Resting s)
    (forceStop : s'.forceStop = s.forceStop) (part : s'.part = s.part) (client : s'.client = s.client) : Held s s' :=
  (keeps_same forceStop part client).held latched resting

theorem onClick_held (action : Action) (pressed : Bool) {s : State} (latched : s.forceStop = true)
    (resting : Resting s) : Held s (s.onClick action pressed) := by
  cases action with
  | sendFunc funcNr =>
    simp only [State.onClick]
    split
    · exact (keeps_sendFunc funcNr pressed s).held latched resting
    · exact held_same latched resting rfl rfl rfl
  | sendFullStop =>
    obtain ⟨set,part,adds⟩ := stop_latches s
    exact ⟨set,by rw [Resting,State.onClick,part]; exact resting,adds⟩
  | direction => exact held_same latched resting rfl rfl rfl

theorem dir_held {s : State} (latched : s.forceStop = true) (resting : Resting s) : Held s s.dir := by
  unfold State.dir
  split
  · split
    · exact ⟨latched,.inl rfl,adds_same rfl⟩
    · rename_i l _
      have ended : Adds Standing s { s with part := .idle } := adds_same rfl
      dsimp only
      split
      · split
        · obtain ⟨set,part,adds⟩ := stop_latches { s with part := .idle }
          exact ⟨set,.inl part,ended.trans adds⟩
        · have sent := keeps_sendDir (decide (s.dirSwitch > 0)) { s with part := .idle }
          exact ⟨sent.forceStop.trans latched,.inl sent.part,ended.trans sent.adds⟩
      · exact ⟨latched,.inl rfl,ended⟩
  · exact ⟨latched,resting,adds_same rfl⟩

/-- The poti is read, and unlatches at 0. -/
theorem poti_latched (now : UInt32) (analog : Nat) {s : State} (latched : s.forceStop = true) (resting : Resting s) :
    Resting (s.poti now analog) ∧ Adds Standing s (s.poti now analog) ∧
      (¬ Observes s (.poti now analog) → (s.poti now analog).forceStop = true) := by
  unfold State.poti
  split
  · rename_i due
    simp only [latched,↓reduceIte]
    refine ⟨.inr rfl,adds_same rfl,?_⟩
    intro other
    have moved : s.average analog ≠ 0 := fun zero => other ⟨due,zero⟩
    simpa using moved
  · exact ⟨resting,adds_same rfl,fun _ => latched⟩

theorem step_latched (s : State) (label : Label) (latched : s.forceStop = true) (resting : Resting s) :
    Resting (step s label) ∧ Adds Standing s (step s label) ∧
      (¬ Observes s label → (step s label).forceStop = true) := by
  have all (s' : State) (held : Held s s') : Resting s' ∧ Adds Standing s s' ∧
      (¬ Observes s label → s'.forceStop = true) := ⟨held.resting,held.adds,fun _ => held.forceStop⟩
  have idle : Held s s := held_same latched resting rfl rfl rfl
  cases label with
  | init =>
    apply all
    simp only [step]
    split
    · exact (keeps_init s).held latched resting
    · exact idle
  | click action pressed =>
    apply all
    simp only [step]
    split
    · exact onClick_held action pressed latched resting
    · exact idle
  | refresh now millis => exact all _ ((keeps_refresh now millis s).held latched resting)
  | poti now analog => exact poti_latched now analog latched resting
  | accel =>
    apply all
    have other : s.part ≠ .accel := by rcases resting with part | part <;> simp [part]
    simp only [step,State.accel,State.speedPart,other,↓reduceIte]
    exact idle
  | brake =>
    apply all
    have other : s.part ≠ .brake := by rcases resting with part | part <;> simp [part]
    simp only [step,State.brake,State.speedPart,other,↓reduceIte]
    exact idle
  | dir => exact all _ (dir_held latched resting)
  | batLevelCV value =>
    apply all
    have read : Keeps Standing s { s with batLevelCV := value } := keeps_same rfl rfl rfl
    simp only [step]
    split
    · exact (read.trans (keeps_refreshBatLevel _)).held latched resting
    · exact read.held latched resting
  | thread label => exact all _ ((keeps_thread s label).held latched resting)
  | status lokdef => exact all _ (held_same latched resting rfl rfl rfl)
  | setCurrLok index => exact all _ (held_same latched resting rfl rfl rfl)

/-- The steps that set the latch: the full-stop button, and a switch that is not where the moving loco drives. -/
inductive Sets (s : State) : Label → Prop
  | fullStop (pressed : Bool) (idle : s.part = .idle) : Sets s (.click .sendFullStop pressed)
  | turned (l : Lokdef) (there : s.part = .dir) (current : s.getCurrLok = some l) (other : s.dirSwitch ≠ l.currdir)
      (moving : absInt l.currspeed > 1) : Sets s .dir

theorem Sets.step_stop {s : State} {label : Label} (sets : Sets s label) :
    step s label = ({ s with part := .idle } : State).stop := by
  cases sets with
  | fullStop pressed idle =>
    have same : ({ s with part := .idle } : State) = s := by rw [← idle]
    simp only [step,idle,↓reduceIte,State.onClick,same]
  | turned l there current other moving =>
    simp only [step,State.dir,there,↓reduceIte,current,ne_eq,other,not_false_eq_true,moving]

theorem speedPart_forceStop (part next : Part) (type : Nat) (wanted : Int → Int → Prop) [DecidableRel wanted]
    (s : State) : (s.speedPart part next type wanted).forceStop = s.forceStop := by
  unfold State.speedPart
  split
  · split
    · rfl
    · dsimp only
      split
      · exact (keeps_sendSpeed type _).forceStop
      · rfl
  · rfl

/-- No other step sets it. -/
theorem step_sets (s : State) (label : Label) (free : s.forceStop = false)
    (set : (step s label).forceStop = true) : Sets s label := by
  have unset : ¬ s.forceStop = true := by simp [free]
  have not_kept {ok : FBTCtlMessage → Prop} {s' : State} (keeps : Keeps ok s s') : ¬ s'.forceStop = true := by
    rw [keeps.forceStop]
    exact unset
  cases label with
  | init =>
    simp only [step] at set
    split at set
    · exact absurd set (not_kept (keeps_init s))
    · exact absurd set unset
  | click action pressed =>
    simp only [step] at set
    split at set
    · rename_i idle
      cases action with
      | sendFunc funcNr =>
        simp only [State.onClick] at set
        split at set
        · exact absurd set (not_kept (keeps_sendFunc funcNr pressed s))
        · exact absurd set unset
      | sendFullStop => exact .fullStop pressed idle
      | direction => exact absurd set unset
    · exact absurd set unset
  | refresh now millis => exact absurd set (not_kept (keeps_refresh now millis s))
  | poti now analog =>
    simp only [step,State.poti] at set
    split at set
    · simp [free] at set
    · exact absurd set unset
  | accel =>
    have kept := speedPart_forceStop .accel .brake ACC (fun avg currspeed => avg ≥ currspeed + 5 ∧ currspeed ≤ 255 - 5) s
    exact absurd (kept.symm.trans set) unset
  | brake =>
    have kept := speedPart_forceStop .brake .dir BREAK (fun avg currspeed => avg ≤ currspeed - 5 ∧ currspeed ≥ 5) s
    exact absurd (kept.symm.trans set) unset
  | dir =>
    simp only [step,State.dir] at set
    split at set
    · rename_i there
      split at set
      · exact absurd set unset
      · rename_i l current
        split at set
        · rename_i other
          split at set
          · rename_i moving
            exact .turned l there current other moving
          · rw [(keeps_sendDir _ _).forceStop] at set
            exact absurd set unset
        · exact absurd set unset
    · exact absurd set unset
  | batLevelCV value =>
    have read : Keeps Standing s { s with batLevelCV := value } := keeps_same rfl rfl rfl
    simp only [step] at set
    split at set
    · exact absurd set (not_kept (read.trans (keeps_refreshBatLevel _)))
    · exact absurd set (not_kept read)
  | thread label => exact absurd set (not_kept (keeps_thread s label))
  | status lokdef => exact absurd set unset
  | setCurrLok index => exact absurd set unset

/-! ### Runs -/

/-- The latch is never set on the way to a speed command. -/
theorem run_resting (labels : List Label) :
    (run step {} labels).forceStop = true → Resting (run step {} labels) := by
  apply @run_always _ _ step (fun s => s.forceStop = true → Resting s)
  · intro s label inv set
    cases latched : s.forceStop with
    | true => exact (step_latched s label latched (inv latched)).1
    | false =>
      rw [(step_sets s label latched set).step_stop]
      exact .inl (stop_latches _).2.1
  · intro set
    cases set

/-- Until the average 0 is read, the latch stays and no speed command is put into the queue. -/
theorem run_latched (more : List Label) (s : State) (latched : s.forceStop = true) (resting : Resting s)
    (unread : Along step (fun s label => ¬ Observes s label) s more) : Held s (run step s more) := by
  induction more generalizing s with
  | nil => exact held_same latched resting rfl rfl rfl
  | cons label rest ih =>
    obtain ⟨kept,adds,latch⟩ := step_latched s label latched resting
    have later := ih (step s label) (latch unread.1) kept unread.2
    exact ⟨later.forceStop,later.resting,adds.trans later.adds⟩

/-- The latch is set by the full-stop button and by a turn of the switch while the loco moves, each with a STOP while
the client thread runs. From then on, up to and including the iteration of `loop` that reads the average 0, neither
ACC nor BREAK is put into the queue. -/
theorem forceStop_latches (labels : List Label) :
    (∀ label, (run step {} labels).forceStop = false → (run step {} (labels ++ [label])).forceStop = true →
      Sets (run step {} labels) label) ∧
    (∀ label, Sets (run step {} labels) label → (run step {} (labels ++ [label])).forceStop = true ∧
      ((run step {} labels).client.isRunning = true → ∀ l, (run step {} labels).getCurrLok = some l →
        (run step {} (labels ++ [label])).enqueued =
          (run step {} labels).enqueued ++ [command STOP [("addr", l.addr)]])) ∧
    ((run step {} labels).forceStop = true → ∀ more,
      Along step (fun s label => ¬ Observes s label) (run step {} labels) more → ∀ label,
        ∃ commands, (run step {} (labels ++ more ++ [label])).enqueued = (run step {} labels).enqueued ++ commands ∧
          ∀ m ∈ commands, m.type ≠ ACC ∧ m.type ≠ BREAK) := by
  have last (labels : List Label) (label : Label) : run step {} (labels ++ [label]) = step (run step {} labels) label :=
    run_append step {} labels [label]
  constructor
  · intro label free set
    rw [last] at set
    exact step_sets _ label free set
  constructor
  · intro label sets
    rw [last,sets.step_stop]
    constructor
    · exact (stop_latches _).1
    · intro running l selected
      exact stop_enqueued running selected
  · intro latched more unread label
    have held := run_latched more _ latched (run_resting labels latched) unread
    rw [← run_append] at held
    rw [last]
    exact held.adds.trans (step_latched _ label held.forceStop held.resting).2.1

instance (s : State) : (label : Label) → Decidable (Observes s label)
  | .poti now analog =>
    inferInstanceAs (Decidable ((s.ready ∧ now > s.lastPotiCheck + 200) ∧ s.average analog = 0))
  | .init | .click _ _ | .refresh _ _ | .accel | .brake | .dir | .batLevelCV _ | .thread _ | .status _
  | .setCurrLok _ => inferInstanceAs (Decidable False)

def stoppedRun : List Label :=
  [.status [{ Lokdef.zeroed with addr := 3, currspeed := 40, currdir := 1 }, .zeroed], .thread (.init true), .thread .helo,
    .poti 300 4095, .accel, .brake, .dir, .click .sendFullStop true]

theorem forceStop_latches_stopped :
    ∃ commands, (run step {} (stoppedRun ++ [.poti 600 4095, .dir, .poti 900 4095] ++ [.dir])).enqueued =
      (run step {} stoppedRun).enqueued ++ commands ∧ ∀ m ∈ commands, m.type ≠ ACC ∧ m.type ≠ BREAK :=
  (forceStop_latches stoppedRun).2.2 (by decide +kernel) [.poti 600 4095, .dir, .poti 900 4095] (by decide +kernel) .dir

end Btcontrol.GuiViewControlLoco
