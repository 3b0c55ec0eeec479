import Btcontrol.BTcommThread

/-! `BTcommThread.execCmd`: a command is handed to the thread of `BTcommThread` and the call waits
for the reply. All calls share one `callbackExecCmd`; its flag is taken at the start of a call and
given back only by a call that returns. -/
namespace Btcontrol.Java.BTcommThread.ExecCmd

open Mailbox Transition

/-- `class CallbackExecCmd`; `none` is null. -/
structure CallbackExecCmd where
  inUse : Bool := false
  reply : Option FBTCtlMessage := none

inductive Place where
  /-- Before `addCmdToQueue`. -/
  | adding (message : FBTCtlMessage)
  /-- Before the synchronized block of `addCmdToQueue`, or in its wait. -/
  | entering (mail : Mail FBTCtlMessage) (waited : Bool)
  /-- The command is in the queue, or was. -/
  | waiting

inductive Exception where
  | alreadyInUse    -- "execCmd already in use"
  | replyNotNull    -- "reply != null"
  | noComm          -- "addCmdToQueue: no comm"
  | timeout         -- "addCmdToQueue: timeout"
  | interrupted     -- InterruptedException of queue_wait.wait
  deriving DecidableEq, Repr

inductive Exit where
  | returned (ret : Option FBTCtlMessage)
  | threw (exception : Exception)

structure State where
  comm : BTcommThread.State := {}
  callbackExecCmd : CallbackExecCmd := {}
  /-- The call that has taken the flag. -/
  call : Option Place := none
  /-- Whether `callbackExecCmd` is the callback of `nextMessage`, and of `currMessage`. -/
  next : Bool := false
  curr : Bool := false

inductive Label where
  | execCmd (message : FBTCtlMessage)
  | addCmdToQueue
  | enter (interrupted : Bool)
  /-- The reply is taken, or the wait for it has ended without one. -/
  | wake (interrupted : Bool)
  /-- A step of the thread or of another caller; `reply` is read where a reply comes in. -/
  | comm (label : BTcommThread.Label) (reply : FBTCtlMessage)

/-- A call that fails leaves the flag as it is. -/
def throwing (exception : Exception) (s : State) : State × Option Exit :=
  ({ s with call := none }, some (.threw exception))

/-- `execCmd` up to `addCmdToQueue`. The flag is tested and set in one step. -/
def start (message : FBTCtlMessage) (s : State) : State × Option Exit :=
  if s.callbackExecCmd.inUse then (s, some (.threw .alreadyInUse))
  else
    let s := { s with callbackExecCmd.inUse := true }
    if s.callbackExecCmd.reply.isSome then throwing .replyNotNull s
    else ({ s with call := some (.adding message) }, none)

/-- `addCmdToQueue` up to its synchronized block. -/
def addCmdToQueue (s : State) : State × Option Exit :=
  match s.call with
  | some (.adding message) =>
    if s.comm.connError then throwing .noComm s
    else ({ s with call := some (.entering (Mail.mark s.comm.session ⟨message, []⟩) false) }, none)
  | _ => (s, none)

/-- The synchronized block, which waits once. The queue is not tested again between the end of the
wait and the message, so "queue not empty" is never thrown. -/
def enter (interrupted : Bool) (s : State) : State × Option Exit :=
  match s.call with
  | some (.entering mail waited) =>
    if waited && interrupted then throwing .interrupted s
    else match s.comm.nextMessage with
      | none => ({ s with
          comm.nextMessage := some (mail.mark s.comm.session), call := some .waiting, next := true }, none)
      | some _ =>
        if waited then throwing .timeout s
        else ({ s with call := some (.entering mail true) }, none)
  | _ => (s, none)

/-- The block over `reply_sync` and the end of the call. An interrupted wait is caught, and the
reply is then taken as it stands. -/
def wake (interrupted : Bool) (s : State) : State × Option Exit :=
  match s.call with
  | some .waiting =>
    if s.callbackExecCmd.reply.isSome || interrupted then
      ({ s with callbackExecCmd := {}, call := none }, some (.returned s.callbackExecCmd.reply))
    else (s, none)
  | _ => (s, none)

def callbacks (label : BTcommThread.Label) (reply : FBTCtlMessage) (s : State) : State :=
  match label with
  | .send _ => if s.comm.phase = .loop then { s with next := false, curr := s.next } else s
  | .reply =>
    if s.comm.phase = .reply && s.curr then
      { s with callbackExecCmd.reply := some reply, curr := false }
    else s
  | _ => s

def perform (s : State) : Label → State × Option Exit
  | .execCmd message => start message s
  | .addCmdToQueue => addCmdToQueue s
  | .enter interrupted => enter interrupted s
  | .wake interrupted => wake interrupted s
  | .comm label reply => ({ callbacks label reply s with comm := BTcommThread.step s.comm label }, none)

def step (s : State) (label : Label) : State := (perform s label).1

/-- A call that has failed for another reason than the flag has left the callback free. -/
def Released (s : State) (label : Label) : Prop :=
  ∀ exception, (perform s label).2 = some (.threw exception) → exception ≠ .alreadyInUse →
    (step s label).callbackExecCmd.inUse = false ∧ (step s label).callbackExecCmd.reply = none

/-- The call finds no reply of an earlier one, the connection is up, and the queue is empty when
the call enters it or after its wait. -/
def Accepted (s : State) : Label → Prop
  | .execCmd _ => s.callbackExecCmd.inUse = false → s.callbackExecCmd.reply = none
  | .addCmdToQueue => ∀ message, s.call = some (.adding message) → s.comm.connError = false
  | .enter interrupted => ∀ mail, s.call = some (.entering mail true) →
      interrupted = false ∧ s.comm.nextMessage = none
  | _ => True

/-- The call under way holds the flag. -/
def Holding (s : State) : Prop := s.call.isSome → s.callbackExecCmd.inUse = true

/-! ### Every failed call keeps the flag -/

theorem step_holding (s : State) (label : Label) (holding : Holding s) : Holding (step s label) := by
  cases label with
  | execCmd message =>
    simp only [step,perform,start]
    split
    · exact holding
    · split <;> exact fun _ => rfl
  | addCmdToQueue =>
    simp only [step,perform,addCmdToQueue]
    split
    · rename_i message adding
      have held := holding (by rw [adding]; rfl)
      split <;> exact fun _ => held
    · exact holding
  | enter interrupted =>
    simp only [step,perform,enter]
    split
    · rename_i mail waited entering
      have held := holding (by rw [entering]; rfl)
      split
      · exact fun _ => held
      · split
        · exact fun _ => held
        · split <;> exact fun _ => held
    · exact holding
  | wake interrupted =>
    simp only [step,perform,wake]
    split
    · split
      · intro none
        cases none
      · exact holding
    · exact holding
  | comm label reply =>
    simp only [step,perform,callbacks]
    split
    · split <;> exact holding
    · split <;> exact holding
    · exact holding

/-- Where a call fails the flag stays set, whoever set it. -/
theorem threw_inUse {s : State} {label : Label} {exception : Exception} (holding : Holding s)
    (threw : (perform s label).2 = some (.threw exception)) :
    (step s label).callbackExecCmd.inUse = true := by
  cases label with
  | execCmd message =>
    simp only [step,perform,start]
    split
    · assumption
    · split <;> rfl
  | addCmdToQueue =>
    simp only [step,perform,addCmdToQueue] at threw ⊢
    split at threw
    · rename_i message adding
      have held := holding (by rw [adding]; rfl)
      split <;> exact held
    · cases threw
  | enter interrupted =>
    simp only [step,perform,enter] at threw ⊢
    split at threw
    · rename_i mail waited entering
      have held := holding (by rw [entering]; rfl)
      split
      · exact held
      · split
        · exact held
        · split <;> exact held
    · cases threw
  | wake interrupted =>
    simp only [perform,wake] at threw
    split at threw
    · split at threw <;> cases threw
    · cases threw
  | comm label reply => cases threw

/-- The steps that make a call fail for another reason than the flag. -/
theorem accepted_iff (s : State) (label : Label) :
    Accepted s label ↔
      ∀ exception, (perform s label).2 = some (.threw exception) → exception = .alreadyInUse := by
  cases label with
  | execCmd message =>
    simp only [Accepted,perform,start]
    cases used : s.callbackExecCmd.inUse <;> cases found : s.callbackExecCmd.reply <;> simp [throwing]
  | addCmdToQueue =>
    simp only [Accepted,perform,addCmdToQueue]
    split
    · rename_i message adding
      cases down : s.comm.connError <;> simp [adding,throwing]
    · rename_i other
      simpa using fun message adding => absurd adding (other message)
  | enter interrupted =>
    simp only [Accepted,perform,enter]
    split
    · rename_i mail waited entering
      cases waited with
      | false =>
        cases queued : s.comm.nextMessage <;> simp [entering]
      | true =>
        cases interrupted <;> cases queued : s.comm.nextMessage <;> simp [entering,throwing]
    · rename_i other
      simpa using fun mail entering => absurd entering (other mail true)
  | wake interrupted =>
    simp only [Accepted,perform,wake]
    split
    · split <;> simp
    · simp
  | comm label reply => simp [Accepted,perform]

theorem released_iff (s : State) (label : Label) (holding : Holding s) :
    Released s label ↔ Accepted s label := by
  rw [accepted_iff]
  constructor
  · intro released exception threw
    by_contra other
    have free := (released exception threw other).1
    rw [threw_inUse holding threw] at free
    cases free
  · intro onlyFlag exception threw other
    exact absurd (onlyFlag exception threw) other

/-- In every run the calls that fail leave the callback free exactly if none fails but by the
flag: each step finds no leftover reply, a connection and room in the queue. -/
theorem execCmd_releases (labels : List Label) :
    Along step Released {} labels ↔ Along step Accepted {} labels :=
  along_congr step_holding released_iff labels {} (fun none => nomatch none)

/-- The connection is down when a first command is given: every later one is refused. -/
theorem execCmd_wedged :
    ¬ Along step Released {} [.execCmd .undef, .addCmdToQueue] ∧
      (perform (run step {} [.execCmd .undef, .addCmdToQueue]) (.execCmd .undef)).2 =
        some (.threw .alreadyInUse) := by
  refine ⟨?_,rfl⟩
  intro released
  have free := (released.2.1 .noComm rfl (by decide)).1
  cases free

/-! ### After a failed call -/

def Wedged (s : State) : Prop := s.callbackExecCmd.inUse = true ∧ s.call = none

theorem step_wedged (s : State) (label : Label) (wedged : Wedged s) : Wedged (step s label) := by
  obtain ⟨used,idle⟩ := wedged
  cases label with
  | execCmd message => simpa [step,perform,start,used] using ⟨used,idle⟩
  | addCmdToQueue => simpa [step,perform,addCmdToQueue,idle] using ⟨used,idle⟩
  | enter interrupted => simpa [step,perform,enter,idle] using ⟨used,idle⟩
  | wake interrupted => simpa [step,perform,wake,idle] using ⟨used,idle⟩
  | comm label reply =>
    simp only [step,perform,callbacks]
    split
    · split <;> exact ⟨used,idle⟩
    · split <;> exact ⟨used,idle⟩
    · exact ⟨used,idle⟩

theorem threw_wedged {s : State} {label : Label} {exception : Exception} (holding : Holding s)
    (threw : (perform s label).2 = some (.threw exception)) (other : exception ≠ .alreadyInUse) :
    Wedged (step s label) := by
  refine ⟨threw_inUse holding threw,?_⟩
  cases label with
  | execCmd message =>
    simp only [step,perform,start] at threw ⊢
    split at threw
    · cases threw
      exact absurd rfl other
    · split at threw
      · rename_i free set
        simp [free,set,throwing]
      · cases threw
  | addCmdToQueue =>
    simp only [step,perform,addCmdToQueue] at threw ⊢
    split at threw
    · split at threw
      · rename_i down
        simp [down,throwing]
      · cases threw
    · cases threw
  | enter interrupted =>
    simp only [step,perform,enter] at threw ⊢
    split at threw
    · split at threw
      · rename_i ended
        simp only [ended,↓reduceIte,throwing]
      · rename_i goesOn
        simp only [goesOn]
        split at threw
        · cases threw
        · split at threw
          · rename_i waited
            simp [waited,throwing]
          · cases threw
    · cases threw
  | wake interrupted =>
    simp only [perform,wake] at threw
    split at threw
    · split at threw <;> cases threw
    · cases threw
  | comm label reply => cases threw

/-- Whatever happens after a failed call, with the connection or without, no call is accepted. -/
theorem refused_ever_after (labels more : List Label) (label : Label) (exception : Exception)
    (threw : (perform (run step {} labels) label).2 = some (.threw exception))
    (other : exception ≠ .alreadyInUse) (message : FBTCtlMessage) :
    (perform (run step {} (labels ++ label :: more)) (.execCmd message)).2 =
      some (.threw .alreadyInUse) := by
  have holding : Holding (run step {} labels) :=
    run_always step_holding labels {} (fun none => nomatch none)
  have wedged : Wedged (run step {} (labels ++ label :: more)) := by
    rw [run_append]
    exact run_always step_wedged more _ (threw_wedged holding threw other)
  simp [perform,start,wedged.1]

/-! ### Replies that nobody waits for -/

/-- No wait for a reply ends without it. -/
def Patient (s : State) : Label → Prop
  | .wake interrupted => interrupted = true → s.callbackExecCmd.reply.isSome = true
  | _ => True

structure Tidy (s : State) : Prop where
  idle : s.call ≠ some .waiting → s.callbackExecCmd.reply = none ∧ s.next = false ∧ s.curr = false
  taken : s.curr = true → s.next = false
  arrived : s.callbackExecCmd.reply.isSome = true → s.next = false ∧ s.curr = false

theorem callbacks_tidy (label : BTcommThread.Label) (reply : FBTCtlMessage) (s : State) (tidy : Tidy s) :
    Tidy (callbacks label reply s) := by
  simp only [callbacks]
  split
  · split
    · refine ⟨fun idle => ?_,fun _ => rfl,fun there => ?_⟩
      · obtain ⟨empty,next,_⟩ := tidy.idle idle
        exact ⟨empty,rfl,next⟩
      · exact ⟨rfl,(tidy.arrived there).1⟩
    · exact tidy
  · split
    · rename_i own
      have curr : s.curr = true := by simp_all
      refine ⟨fun idle => ?_,fun again => (nomatch again),fun _ => ⟨tidy.taken curr,rfl⟩⟩
      rw [(tidy.idle idle).2.2] at curr
      cases curr
    · exact tidy
  · exact tidy

/-- While no call waits, nothing is on its way, wherever the call goes next. -/
theorem Tidy.elsewhere {s s' : State} (tidy : Tidy s) (idle : s.call ≠ some .waiting)
    (reply : s'.callbackExecCmd.reply = s.callbackExecCmd.reply) (next : s'.next = s.next)
    (curr : s'.curr = s.curr) : Tidy s' := by
  obtain ⟨empty,noNext,noCurr⟩ := tidy.idle idle
  rw [empty] at reply
  rw [noNext] at next
  rw [noCurr] at curr
  exact ⟨fun _ => ⟨reply,next,curr⟩,fun _ => next,fun _ => ⟨next,curr⟩⟩

theorem step_tidy (s : State) (label : Label) (patient : Patient s label) (holding : Holding s)
    (tidy : Tidy s) : Tidy (step s label) := by
  cases label with
  | execCmd message =>
    simp only [step,perform,start]
    split
    · exact tidy
    · rename_i free
      have idle : s.call ≠ some .waiting := by
        intro waiting
        exact free (holding (by rw [waiting]; rfl))
      split
      · exact tidy.elsewhere idle rfl rfl rfl
      · exact tidy.elsewhere idle rfl rfl rfl
  | addCmdToQueue =>
    simp only [step,perform,addCmdToQueue]
    split
    · rename_i message adding
      have idle : s.call ≠ some .waiting := by simp [adding]
      split
      · exact tidy.elsewhere idle rfl rfl rfl
      · exact tidy.elsewhere idle rfl rfl rfl
    · exact tidy
  | enter interrupted =>
    simp only [step,perform,enter]
    split
    · rename_i mail waited entering
      have idle : s.call ≠ some .waiting := by simp [entering]
      obtain ⟨empty,noNext,noCurr⟩ := tidy.idle idle
      split
      · exact tidy.elsewhere idle rfl rfl rfl
      · split
        · refine ⟨fun other => absurd rfl other,fun curr => ?_,fun there => ?_⟩
          · rw [noCurr] at curr
            cases curr
          · rw [empty] at there
            cases there
        · split
          · exact tidy.elsewhere idle rfl rfl rfl
          · exact tidy.elsewhere idle rfl rfl rfl
    · exact tidy
  | wake interrupted =>
    simp only [step,perform,wake]
    split
    · split
      · rename_i ended
        have there : s.callbackExecCmd.reply.isSome = true := by
          rcases (Bool.or_eq_true ..).mp ended with there | broken
          · exact there
          · exact patient broken
        have nothing := tidy.arrived there
        exact ⟨fun _ => ⟨rfl,nothing⟩,fun _ => nothing.1,fun _ => nothing⟩
      · exact tidy
    · exact tidy
  | comm label reply =>
    have followed := callbacks_tidy label reply s tidy
    exact ⟨followed.idle,followed.taken,followed.arrived⟩

/-- Where no wait is broken off, a call that gets the flag finds no reply. -/
theorem patient_unclaimed (labels : List Label) (patient : Along step Patient {} labels)
    (free : (run step {} labels).callbackExecCmd.inUse = false) :
    (run step {} labels).callbackExecCmd.reply = none := by
  have kept : ∀ s label, Patient s label → Holding s ∧ Tidy s → Holding (step s label) ∧ Tidy (step s label) :=
    fun s label patient both => ⟨step_holding s label both.1,step_tidy s label patient both.1 both.2⟩
  have start : Holding {} ∧ Tidy {} :=
    ⟨fun none => (nomatch none),fun _ => ⟨rfl,rfl,rfl⟩,fun _ => rfl,fun _ => ⟨rfl,rfl⟩⟩
  obtain ⟨holding,tidy⟩ := run_invariant kept labels {} start patient
  refine (tidy.idle ?_).1
  intro waiting
  have used := holding (by rw [waiting]; rfl)
  rw [free] at used
  cases used

end Btcontrol.Java.BTcommThread.ExecCmd
