import Btcontrol.Java
import Btcontrol.Mailbox
import Btcontrol.Transition

/-! `BTcommThread.java`: `addCmdToQueue` leaves a command in `nextMessage`, a queue of one element,
and the thread takes it out in `doClient` and sends it. `run` starts `doClient` again after every
loss of the connection, with the same object. -/
namespace Btcontrol.Java.BTcommThread

open Mailbox

inductive ConnState where
  | disconnected
  | openport
  | connecting
  | connected
  | timeout
  | openerror
  deriving DecidableEq, Repr

inductive Phase where
  /-- At the top of the loop of `run`. -/
  | starting
  | sleeping
  | opening
  | helo
  /-- At the top of the loop of `doClient`. -/
  | loop
  /-- A message is sent, `receiveMessage` is next. -/
  | reply
  /-- Behind the catch blocks of `doClient`. -/
  | ended
  /-- `run` has returned. -/
  | finished
  deriving DecidableEq, Repr

structure State where
  phase : Phase := .starting
  connState : ConnState := .disconnected
  stop : Bool := false
  doupdate : Bool := false
  /-- Whether the streams are open. -/
  streams : Bool := false
  nextMessage : Option (Mail FBTCtlMessage) := none
  /-- The callers inside `addCmdToQueue` past its first test, and whether they have waited. -/
  callers : List (Mail FBTCtlMessage × Bool) := []
  /-- `timeoutTask.called`, and the timers of broken requests, which nobody cancels. -/
  called : Bool := false
  strayTimers : Nat := 0
  timeoutCounter : Nat := 0
  /-- Records, read by no step: the number of the connection and what was given to
  `sendMessage` in which one. -/
  connections : Nat := 0
  sent : List (Nat × Mail FBTCtlMessage) := []

def State.session (s : State) : Option Nat := if s.streams then some s.connections else none

def State.connError (s : State) : Bool := s.connState ≠ .connected && s.connState ≠ .timeout

def close (stop : Bool) (s : State) : State :=
  { s with stop, connState := .disconnected, streams := false }

/-- `addCmdToQueue` up to the synchronized block. -/
def addCmdToQueue (message : FBTCtlMessage) (s : State) : State :=
  if s.connError then s
  else { s with callers := s.callers ++ [(Mail.mark s.session ⟨message, []⟩, false)] }

/-- The synchronized block of a caller: behind another message it waits once, with a timeout,
and then gives up. -/
def enter (i : Nat) (s : State) : State :=
  match s.callers[i]? with
  | none => s
  | some (mail, waited) => match s.nextMessage with
    | none => { s with nextMessage := some (mail.mark s.session), callers := s.callers.eraseIdx i }
    | some _ =>
      if waited then { s with callers := s.callers.eraseIdx i }
      else { s with callers := s.callers.set i (mail, true) }

/-- An exception in `doClient`. The timer of a request that is under way is not cancelled. -/
def fault (s : State) : State :=
  match s.phase with
  | .helo | .loop => { s with phase := .ended }
  | .reply => { s with phase := .ended, strayTimers := s.strayTimers + if s.called then 0 else 1 }
  | _ => s

/-- The next message leaves the queue for `sendMessage`, which writes nothing to closed streams. -/
def takeNext (s : State) : State :=
  match s.nextMessage with
  | some mail =>
    if s.streams then { s with nextMessage := none, sent := s.sent ++ [(s.connections, mail)] }
    else { s with nextMessage := none }
  | none => s

/-- The next message or a PING; `done` where `sendMessage` throws nothing. -/
def send (done : Bool) (s : State) : State :=
  if s.phase = .loop then
    let s := { takeNext s with phase := .reply, called := false }
    if done && s.streams then s else fault s
  else s

def pingDing (s : State) : State :=
  match s.phase with
  | .helo | .loop | .reply | .ended =>
    if s.connState = .timeout then
      let s := { s with timeoutCounter := s.timeoutCounter + 1 }
      if s.timeoutCounter > 10 then close false s else s
    else s
  | _ => s

inductive Label where
  | addCmdToQueue (message : FBTCtlMessage)
  | enter (i : Nat)
  | close (stop : Bool)
  | pingDing
  /-- `TimeoutTask` of the request under way, and of a broken one. -/
  | timeout
  | strayTimeout
  | sleep
  | openPort
  | connect (done : Bool)
  | helo
  /-- HELO bears another hash; the user is asked for an update. -/
  | heloErr (yes : Bool)
  | send (done : Bool)
  /-- The reply has come and its callback has returned. -/
  | reply
  /-- Any exception of the thread. -/
  | fault
  /-- The end of `doClient`. -/
  | cleanup

def step (s : State) : Label → State
  | .addCmdToQueue message => addCmdToQueue message s
  | .enter i => enter i s
  | .close stop => close stop s
  | .pingDing => pingDing s
  | .timeout =>
    if s.phase = .reply && !s.called then { s with called := true, connState := .timeout } else s
  | .strayTimeout =>
    if s.strayTimers = 0 then s
    else { s with strayTimers := s.strayTimers - 1, connState := .timeout }
  | .sleep =>
    if s.phase = .starting then
      if s.stop then { s with phase := .finished }
      else { s with phase := .sleeping, connState := .disconnected }
    else s
  | .openPort =>
    if s.phase = .sleeping then { s with phase := .opening, connState := .openport } else s
  | .connect done =>
    if s.phase = .opening then
      if done then
        { s with phase := .helo, connState := .connecting, streams := true
                 connections := s.connections + 1 }
      else { s with phase := .starting, connState := .openerror }
    else s
  | .helo => if s.phase = .helo then { s with phase := .loop, connState := .connected } else s
  | .heloErr yes =>
    if s.phase = .helo then close true { s with phase := .ended, doupdate := yes } else s
  | .send done => send done s
  | .reply =>
    if s.phase = .reply then
      { s with phase := .loop, timeoutCounter := 0
               connState := if s.called then s.connState else .connected }
    else s
  | .fault => fault s
  | .cleanup =>
    if s.phase = .ended then
      close s.stop { s with phase := if s.doupdate then .finished else .starting }
    else s

/-- The commands that wait, those inside `addCmdToQueue` included. -/
def State.held (s : State) : List (Mail FBTCtlMessage) :=
  s.nextMessage.toList ++ s.callers.map Prod.fst

/-- The queue as a mailbox whose sessions are the connections. -/
def State.box (s : State) : Box FBTCtlMessage := ⟨s.session, s.connections, s.held, s.sent⟩

def opens (s : State) : Label → Bool
  | .connect true => s.phase = .opening
  | _ => false

/-- Nothing of an earlier connection waits when a connection is opened. -/
def Clears (s : State) (label : Label) : Prop := opens s label → Unmarked s.held

instance (s : State) (label : Label) : Decidable (Clears s label) :=
  inferInstanceAs (Decidable (_ → _))

/-! ### Every step is one of the mailbox -/

theorem close_simulates (stop : Bool) (s : State) :
    Relation.ReflTransGen Step s.box (close stop s).box :=
  .single (.closing s.box)

theorem fault_simulates (s : State) : Relation.ReflTransGen Step s.box (fault s).box := by
  simp only [fault]
  split <;> exact .refl

theorem addCmdToQueue_simulates (message : FBTCtlMessage) (s : State) :
    Relation.ReflTransGen Step s.box (addCmdToQueue message s).box := by
  simp only [addCmdToQueue]
  split
  · exact .refl
  · have posted := Step.posting s.box message
    refine .single ?_
    simpa [State.box,State.held,State.session] using posted

theorem enter_simulates (i : Nat) (s : State) :
    Relation.ReflTransGen Step s.box (enter i s).box := by
  simp only [enter]
  split
  · exact .refl
  · rename_i mail waited found
    have caller : (mail,waited) ∈ s.callers := List.mem_of_getElem? found
    have member : mail ∈ s.held :=
      List.mem_append_right _ (List.mem_map_of_mem caller)
    have fewer : ((s.callers.eraseIdx i).map Prod.fst) ⊆ s.callers.map Prod.fst :=
      List.map_subset _ (List.eraseIdx_subset)
    split
    · rename_i empty
      -- the command moves from its caller to the queue
      refine .tail (.single (.moving s.box mail member)) (.keeping _ _ ?_)
      refine List.cons_subset_cons _ ?_
      exact List.subset_append_of_subset_right _ fewer
    · split
      · refine .single (.keeping s.box _ ?_)
        exact List.append_subset.mpr ⟨List.subset_append_left _ _,
          List.subset_append_of_subset_right _ fewer⟩
      · refine .single (.keeping s.box _ ?_)
        refine List.append_subset.mpr ⟨List.subset_append_left _ _,fun other inside => ?_⟩
        obtain ⟨it,set,rfl⟩ := List.mem_map.mp inside
        rcases List.mem_or_eq_of_mem_set set with old | rfl
        · exact List.mem_append_right _ (List.mem_map_of_mem old)
        · exact member

theorem takeNext_simulates (s : State) : Relation.ReflTransGen Step s.box (takeNext s).box := by
  have fewer : (s.callers.map Prod.fst) ⊆ s.held := List.subset_append_right _ _
  simp only [takeNext]
  split
  · rename_i mail next
    split
    · rename_i up
      have session : s.box.session = some s.connections := by simp [State.box,State.session,up]
      have member : mail ∈ s.box.held := by simp [State.box,State.held,next]
      exact .tail (.single (.sending s.box s.connections session mail member)) (.keeping _ _ fewer)
    · exact .single (.keeping s.box _ fewer)
  · exact .refl

theorem send_simulates (done : Bool) (s : State) :
    Relation.ReflTransGen Step s.box (send done s).box := by
  have taken := takeNext_simulates s
  simp only [send]
  split
  · split
    · exact taken
    · exact taken.trans (fault_simulates { takeNext s with phase := .reply, called := false })
  · exact .refl

theorem pingDing_simulates (s : State) : Relation.ReflTransGen Step s.box (pingDing s).box := by
  simp only [pingDing]
  split
  case h_5 => exact .refl
  all_goals
    split
    · split
      · exact close_simulates false { s with timeoutCounter := s.timeoutCounter + 1 }
      · exact .refl
    · exact .refl

theorem step_simulates (s : State) (label : Label) (clears : Clears s label) :
    Relation.ReflTransGen Step s.box (step s label).box := by
  cases label with
  | addCmdToQueue message => exact addCmdToQueue_simulates message s
  | enter i => exact enter_simulates i s
  | close stop => exact close_simulates stop s
  | pingDing => exact pingDing_simulates s
  | timeout =>
    simp only [step]
    split <;> exact .refl
  | strayTimeout =>
    simp only [step]
    split <;> exact .refl
  | sleep =>
    simp only [step]
    split
    · split <;> exact .refl
    · exact .refl
  | openPort =>
    simp only [step]
    split <;> exact .refl
  | connect done =>
    simp only [step]
    split
    · rename_i here
      split
      · rename_i connects
        subst connects
        exact .single (.opening s.box (clears (by simpa [opens] using here)))
      · exact .refl
    · exact .refl
  | helo =>
    simp only [step]
    split <;> exact .refl
  | heloErr yes =>
    simp only [step]
    split
    · exact close_simulates true { s with phase := .ended, doupdate := yes }
    · exact .refl
  | send done => exact send_simulates done s
  | reply =>
    simp only [step]
    split <;> exact .refl
  | fault => exact fault_simulates s
  | cleanup =>
    simp only [step]
    split
    · exact close_simulates s.stop { s with phase := if s.doupdate then .finished else .starting }
    · exact .refl

theorem step_current (s : State) (label : Label) (clears : Clears s label) (current : Current s.box) :
    Current (step s label).box :=
  steps_current (step_simulates s label clears) current

end Btcontrol.Java.BTcommThread
