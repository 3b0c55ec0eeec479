import Btcontrol.Mailbox
import Btcontrol.Message
import Btcontrol.Transition

/-! `ControlClientThread.cpp` and `GuiViewConnectServer::init` of the ESP32 control: the GUI puts
commands into `cmdQueue`, the client thread takes them out and sends them. There is one object
and one queue for all connections. -/
namespace Btcontrol.ControlClientThread

open Mailbox

inductive Phase where
  /-- Not started, or `exited`. -/
  | exited
  | helo
  /-- At the top of the loop. -/
  | loop
  /-- A message is sent, `readMessage` is next. -/
  | reply
  /-- `close` was called for an exception, which leaves `run`. -/
  | closed
  deriving DecidableEq, Repr

structure State where
  phase : Phase := .exited
  cancelstate : Bool := false
  cmdQueue : List (Mail FBTCtlMessage) := []
  /-- Records, read by no step: the number of the connection and what was given to
  `sendMessage` in which one. -/
  connections : Nat := 0
  sent : List (Nat × Mail FBTCtlMessage) := []

def State.isRunning (s : State) : Bool := s.phase ≠ .exited

def State.session (s : State) : Option Nat :=
  match s.phase with
  | .exited | .closed => none
  | .helo | .loop | .reply => some s.connections

def MAX_QUEUE_LENGTH : Nat := 5

def query (cmd : FBTCtlMessage) (s : State) : State :=
  { s with cmdQueue := s.cmdQueue ++ [Mail.mark s.session ⟨cmd, []⟩] }

/-- A command of the controls: without a connection or behind more than `limit` others it is
dropped. -/
def queryLimited (limit : Nat) (cmd : FBTCtlMessage) (s : State) : State :=
  if !s.isRunning then s
  else if s.cmdQueue.length > limit then s
  else query cmd s

def sendSpeed : FBTCtlMessage → State → State := queryLimited 1
def sendFunc : FBTCtlMessage → State → State := queryLimited MAX_QUEUE_LENGTH
def sendDir : FBTCtlMessage → State → State := queryLimited MAX_QUEUE_LENGTH

def sendStop (cmd : FBTCtlMessage) (s : State) : State :=
  if s.isRunning then query cmd s else s

/-- `GuiViewConnectServer::init` up to `start`; GETLOCOS is a `query` of its own. A failed
connect starts no thread. -/
def init (connected : Bool) (s : State) : State :=
  if s.isRunning then s
  else if connected then
    { s with phase := .helo, cancelstate := false, connections := s.connections + 1 }
  else s

/-- The catch blocks of `run`. -/
def fault (s : State) : State :=
  match s.phase with
  | .helo | .loop | .reply => { s with phase := .closed }
  | .exited | .closed => s

/-- `sendPing`, or the front of the queue; `done` where `sendMessage` throws nothing. -/
def send (done : Bool) (s : State) : State :=
  match s.phase, s.cmdQueue with
  | .loop, [] => if done then { s with phase := .reply } else fault s
  | .loop, item :: rest =>
    let s := { s with cmdQueue := rest, sent := s.sent ++ [(s.connections, item)] }
    if done then { s with phase := .reply } else fault s
  | _, _ => s

inductive Label where
  | query (cmd : FBTCtlMessage)
  | sendSpeed (cmd : FBTCtlMessage)
  | sendFunc (cmd : FBTCtlMessage)
  | sendDir (cmd : FBTCtlMessage)
  | sendStop (cmd : FBTCtlMessage)
  | init (connected : Bool)
  | cancel
  /-- HELO has come and bears the own hash. -/
  | helo
  | send (done : Bool)
  /-- The reply has come and its callback has returned. -/
  | reply
  /-- Any exception of the thread. -/
  | fault
  /-- The thread ends. -/
  | exit

def step (s : State) : Label → State
  | .query cmd => query cmd s
  | .sendSpeed cmd => sendSpeed cmd s
  | .sendFunc cmd => sendFunc cmd s
  | .sendDir cmd => sendDir cmd s
  | .sendStop cmd => sendStop cmd s
  | .init connected => init connected s
  | .cancel => if s.isRunning then { s with cancelstate := true } else s
  | .helo => if s.phase = .helo then { s with phase := .loop } else s
  | .send done => send done s
  | .reply =>
    if s.phase = .reply then
      -- `testcancel`
      if s.cancelstate then fault s else { s with phase := .loop }
    else s
  | .fault => fault s
  | .exit => if s.phase = .closed then { s with phase := .exited } else s

/-- The queue as a mailbox whose sessions are the connections. -/
def State.box (s : State) : Box FBTCtlMessage := ⟨s.session, s.connections, s.cmdQueue, s.sent⟩

def opens (s : State) : Label → Bool
  | .init true => !s.isRunning
  | _ => false

/-- Nothing of an earlier connection waits when a connection is opened. -/
def Clears (s : State) (label : Label) : Prop := opens s label → Unmarked s.cmdQueue

instance (s : State) (label : Label) : Decidable (Clears s label) :=
  inferInstanceAs (Decidable (_ → _))

/-! ### Every step is one of the mailbox -/

theorem query_simulates (cmd : FBTCtlMessage) (s : State) :
    Relation.ReflTransGen Step s.box (query cmd s).box :=
  .single (.posting s.box cmd)

theorem queryLimited_simulates (limit : Nat) (cmd : FBTCtlMessage) (s : State) :
    Relation.ReflTransGen Step s.box (queryLimited limit cmd s).box := by
  simp only [queryLimited]
  split
  · exact .refl
  · split
    · exact .refl
    · exact query_simulates cmd s

/-- A phase of the same connection, or of none. -/
theorem phase_simulates {s : State} {phase : Phase}
    (same : ({ s with phase } : State).session = s.session) :
    Relation.ReflTransGen Step s.box ({ s with phase } : State).box := by
  have unchanged : ({ s with phase } : State).box = s.box := by simp only [State.box,same]
  rw [unchanged]

theorem fault_simulates (s : State) : Relation.ReflTransGen Step s.box (fault s).box := by
  cases standing : s.phase <;> simp only [fault,standing]
  case exited | closed => exact .refl
  all_goals exact .single (.closing s.box)

theorem init_simulates (connected : Bool) (s : State) (clears : Clears s (.init connected)) :
    Relation.ReflTransGen Step s.box (init connected s).box := by
  simp only [init]
  split
  · exact .refl
  · rename_i idle
    split
    · rename_i connects
      subst connects
      exact .single (.opening s.box (clears (by simpa [opens] using idle)))
    · exact .refl

/-- A message leaves the queue in the connection that is up. -/
theorem send_simulates (done : Bool) (s : State) :
    Relation.ReflTransGen Step s.box (send done s).box := by
  simp only [send]
  split
  · rename_i top _
    split
    · exact phase_simulates (by simp [State.session,top])
    · exact fault_simulates s
  · rename_i item rest top queued
    let s' : State := { s with cmdQueue := rest, sent := s.sent ++ [(s.connections, item)] }
    have up : s.box.session = some s.connections := by simp [State.box,State.session,top]
    have sending := Step.sending s.box s.connections up item (by simp [State.box,queued])
    have taken : Relation.ReflTransGen Step s.box s'.box := by
      refine .tail (.single sending) (.keeping _ rest ?_)
      simp [State.box,queued]
    split
    · exact taken.trans (phase_simulates (by simp [s',State.session,top]))
    · exact taken.trans (fault_simulates s')
  · exact .refl

theorem step_simulates (s : State) (label : Label) (clears : Clears s label) :
    Relation.ReflTransGen Step s.box (step s label).box := by
  cases label with
  | query cmd => exact query_simulates cmd s
  | sendSpeed cmd => exact queryLimited_simulates 1 cmd s
  | sendFunc cmd => exact queryLimited_simulates MAX_QUEUE_LENGTH cmd s
  | sendDir cmd => exact queryLimited_simulates MAX_QUEUE_LENGTH cmd s
  | sendStop cmd =>
    simp only [step,sendStop]
    split
    · exact query_simulates cmd s
    · exact .refl
  | init connected => exact init_simulates connected s clears
  | cancel =>
    simp only [step]
    split <;> exact .refl
  | helo =>
    simp only [step]
    split
    · rename_i here
      exact phase_simulates (by simp [State.session,here])
    · exact .refl
  | send done => exact send_simulates done s
  | reply =>
    simp only [step]
    split
    · rename_i here
      split
      · exact fault_simulates s
      · exact phase_simulates (by simp [State.session,here])
    · exact .refl
  | fault => exact fault_simulates s
  | exit =>
    simp only [step]
    split
    · rename_i here
      exact phase_simulates (by simp [State.session,here])
    · exact .refl

theorem step_current (s : State) (label : Label) (clears : Clears s label) (current : Current s.box) :
    Current (step s label).box :=
  steps_current (step_simulates s label clears) current

end Btcontrol.ControlClientThread
