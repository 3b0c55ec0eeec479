import Btcontrol.BTcommThread
import Btcontrol.ControlClientThread

/-! Commands across connections. Neither client empties its queue when a connection ends, so what
is left in it goes out on the next connection, to whichever server that is. -/
namespace Btcontrol

open Mailbox Transition

namespace ControlClientThread

/-- What stands in the queue is sent in the connection that is up, if that lasts. -/
theorem queued_sent (before : List (Mail FBTCtlMessage)) (mail : Mail FBTCtlMessage)
    (after : List (Mail FBTCtlMessage)) (s : State) (top : s.phase = .loop)
    (goesOn : s.cancelstate = false) (queued : s.cmdQueue = before ++ mail :: after) :
    ∃ labels, (s.connections,mail) ∈ (run step s labels).sent := by
  -- each round of the loop takes one command from the front
  induction before generalizing s with
  | nil => exact ⟨[.send true],by simp [run,step,send,top,queued]⟩
  | cons first rest ih =>
    let s' : State := { s with cmdQueue := rest ++ mail :: after, sent := s.sent ++ [(s.connections,first)] }
    have round : run step s [.send true,.reply] = s' := by
      simp [run,step,send,top,queued,goesOn,s']
    obtain ⟨labels,found⟩ := ih s' top goesOn rfl
    refine ⟨[.send true,.reply] ++ labels,?_⟩
    rw [run_append,round]
    exact found

theorem leftover_sent (s : State) (idle : s.phase = .exited) (mail : Mail FBTCtlMessage)
    (member : mail ∈ s.cmdQueue) :
    ∃ labels, (s.connections + 1,mail) ∈ (run step (step s (.init true)) labels).sent := by
  obtain ⟨before,after,queued⟩ := List.append_of_mem member
  let s' : State := { s with phase := .loop, cancelstate := false, connections := s.connections + 1 }
  have opened : run step (step s (.init true)) [.helo] = s' := by
    simp [run,step,init,State.isRunning,idle,s']
  obtain ⟨labels,found⟩ := queued_sent before mail after s' rfl rfl queued
  refine ⟨[.helo] ++ labels,?_⟩
  rw [run_append,opened]
  exact found

theorem run_current (labels : List Label) (clears : Along step Clears {} labels) :
    Current (run step {} labels).box := by
  refine run_invariant step_current labels {} ?_ clears
  exact ⟨by simp [State.box],by simp [State.box],by simp [State.box,State.session],by simp [State.box]⟩

/-- The condition is no more than is needed: a connection that opens upon a command of an earlier
one can transmit it. -/
theorem leftover_late (labels : List Label) (clears : Along step Clears {} labels) (label : Label)
    (opening : opens (run step {} labels) label = true)
    (leftover : ¬ Unmarked (run step {} labels).cmdQueue) :
    ∃ more, ¬ Punctual (run step {} (labels ++ label :: more)).sent := by
  have numbered := (run_current labels clears).numbered
  generalize reached : run step {} labels = s at opening leftover numbered
  have idle : s.phase = .exited ∧ label = .init true := by
    cases label with
    | init connected =>
      cases connected with
      | true => simpa [opens,State.isRunning] using opening
      | false => simp [opens] at opening
    | _ => simp [opens] at opening
  obtain ⟨mail,member,marked⟩ : ∃ mail ∈ s.cmdQueue, mail.during ≠ [] := by
    simpa [Unmarked] using leftover
  obtain ⟨more,late⟩ := leftover_sent s idle.1 mail member
  refine ⟨more,?_⟩
  rw [run_append,reached,idle.2]
  exact not_punctual numbered member marked (List.Subset.refl _) late

end ControlClientThread

namespace Java.BTcommThread

/-- A command in the queue is sent in the connection that is up, if that lasts. -/
theorem next_sent (s : State) (top : s.phase = .loop) (up : s.streams = true)
    (mail : Mail FBTCtlMessage) (next : s.nextMessage = some mail) :
    (s.connections,mail) ∈ (run step s [.send true]).sent := by
  simp [run,step,send,takeNext,top,up,next]

theorem caller_sent (s : State) (top : s.phase = .loop) (up : s.streams = true)
    (empty : s.nextMessage = none) (i : Nat) (mail : Mail FBTCtlMessage) (waited : Bool)
    (found : s.callers[i]? = some (mail,waited)) :
    (s.connections,mail.mark s.session) ∈ (run step s [.enter i,.send true]).sent := by
  simp [run,step,enter,send,takeNext,found,empty,top,up]

/-- A caller of `addCmdToQueue` finds the queue empty after the next round at the latest. -/
theorem held_sent (s : State) (top : s.phase = .loop) (up : s.streams = true)
    (mail : Mail FBTCtlMessage) (member : mail ∈ s.held) :
    ∃ labels sentMail, mail.during ⊆ sentMail.during ∧
      (s.connections,sentMail) ∈ (run step s labels).sent := by
  rcases List.mem_append.mp member with queued | calling
  · have next : s.nextMessage = some mail := by simpa using queued
    exact ⟨[.send true],mail,List.Subset.refl _,next_sent s top up mail next⟩
  · obtain ⟨⟨other,waited⟩,inside,same⟩ := List.mem_map.mp calling
    cases same
    obtain ⟨i,found⟩ := List.mem_iff_getElem?.mp inside
    cases next : s.nextMessage with
    | none =>
      exact ⟨_,_,List.subset_append_left _ _,caller_sent s top up next i other waited found⟩
    | some first =>
      let s' : State := { s with
        nextMessage := none, called := false, timeoutCounter := 0, connState := .connected
        sent := s.sent ++ [(s.connections,first)] }
      have round : run step s [.send true,.reply] = s' := by
        simp [run,step,send,takeNext,top,up,next,s']
      have later := caller_sent s' top up rfl i other waited found
      refine ⟨[.send true,.reply] ++ [.enter i,.send true],other.mark s'.session,
        List.subset_append_left _ _,?_⟩
      rw [run_append,round]
      exact later

theorem leftover_sent (s : State) (here : s.phase = .opening) (mail : Mail FBTCtlMessage)
    (member : mail ∈ s.held) :
    ∃ labels sentMail, mail.during ⊆ sentMail.during ∧
      (s.connections + 1,sentMail) ∈ (run step (step s (.connect true)) labels).sent := by
  let s' : State := { s with
    phase := .loop, connState := .connected, streams := true, connections := s.connections + 1 }
  have opened : run step (step s (.connect true)) [.helo] = s' := by
    simp [run,step,here,s']
  obtain ⟨labels,sentMail,same,found⟩ := held_sent s' rfl rfl mail member
  refine ⟨[.helo] ++ labels,sentMail,same,?_⟩
  rw [run_append,opened]
  exact found

theorem run_current (labels : List Label) (clears : Along step Clears {} labels) :
    Current (run step {} labels).box := by
  refine run_invariant step_current labels {} ?_ clears
  exact ⟨by simp [State.box,State.session],by simp [State.box],by simp [State.box,State.session],
    by simp [State.box,State.held]⟩

theorem leftover_late (labels : List Label) (clears : Along step Clears {} labels) (label : Label)
    (opening : opens (run step {} labels) label = true)
    (leftover : ¬ Unmarked (run step {} labels).held) :
    ∃ more, ¬ Punctual (run step {} (labels ++ label :: more)).sent := by
  have numbered := (run_current labels clears).numbered
  generalize reached : run step {} labels = s at opening leftover numbered
  have here : s.phase = .opening ∧ label = .connect true := by
    cases label with
    | connect done =>
      cases done with
      | true => simpa [opens] using opening
      | false => simp [opens] at opening
    | _ => simp [opens] at opening
  obtain ⟨mail,member,marked⟩ : ∃ mail ∈ s.held, mail.during ≠ [] := by
    simpa [Unmarked] using leftover
  obtain ⟨more,sentMail,same,late⟩ := leftover_sent s here.1 mail member
  refine ⟨more,?_⟩
  rw [run_append,reached,here.2]
  exact not_punctual numbered member marked same late

end Java.BTcommThread

/-- In every run of either client in which no connection is opened while a command of an earlier
one waits, no command is transmitted on a later connection than it was enqueued in. -/
theorem commands_stay_in_connection (esp32 : List ControlClientThread.Label)
    (midp : List Java.BTcommThread.Label) :
    (Along ControlClientThread.step ControlClientThread.Clears {} esp32 →
      Punctual (run ControlClientThread.step {} esp32).sent) ∧
    (Along Java.BTcommThread.step Java.BTcommThread.Clears {} midp →
      Punctual (run Java.BTcommThread.step {} midp).sent) := by
  constructor
  · intro clears
    exact (ControlClientThread.run_current esp32 clears).punctual
  · intro clears
    exact (Java.BTcommThread.run_current midp clears).punctual

/-- ACC for the loco 3, in each client's own form. -/
def ControlClientThread.acc : FBTCtlMessage := .struct 9 [(str "addr", .int 3)]
def Java.BTcommThread.acc : FBTCtlMessage := .struct 9 [(str "addr", .int 3)]

def ControlClientThread.getlocos : FBTCtlMessage := .struct 22 []

def ControlClientThread.promptRun : List Label :=
  [.init true, .query getlocos, .helo, .send true, .reply, .sendSpeed acc, .send true, .reply,
    .fault, .exit, .init true, .query getlocos, .helo, .send true]
def Java.BTcommThread.promptRun : List Label :=
  [.sleep, .openPort, .connect true, .helo, .addCmdToQueue acc, .enter 0, .send true, .reply,
    .fault, .cleanup, .sleep, .openPort, .connect true, .helo]

theorem prompt_commands_stay :
    Punctual (run ControlClientThread.step {} ControlClientThread.promptRun).sent ∧
    Punctual (run Java.BTcommThread.step {} Java.BTcommThread.promptRun).sent := by
  obtain ⟨esp32,midp⟩ :=
    commands_stay_in_connection ControlClientThread.promptRun Java.BTcommThread.promptRun
  exact ⟨esp32 (by decide +kernel),midp (by decide +kernel)⟩

/-- The connection is lost before ACC is taken from the queue; the next connection starts with it. -/
def ControlClientThread.staleRun : List Label :=
  [.init true, .query getlocos, .helo, .send true, .reply, .sendSpeed acc, .fault, .exit,
    .init true, .query getlocos, .helo, .send true]
def Java.BTcommThread.staleRun : List Label :=
  [.sleep, .openPort, .connect true, .helo, .addCmdToQueue acc, .enter 0, .fault, .cleanup,
    .sleep, .openPort, .connect true, .helo, .send true]

theorem stale_acc_transmitted :
    (¬ ∀ labels, Punctual (run ControlClientThread.step {} labels).sent) ∧
    (¬ ∀ labels, Punctual (run Java.BTcommThread.step {} labels).sent) := by
  constructor
  · intro always
    exact absurd (always ControlClientThread.staleRun) (by decide +kernel)
  · intro always
    exact absurd (always Java.BTcommThread.staleRun) (by decide +kernel)

end Btcontrol
