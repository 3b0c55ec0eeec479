import Btcontrol.Framing
import Btcontrol.OneLoco

/-! Requests and replies. Both clients send one request and wait for its reply, so a message
that the loop reads, works on and does not answer leaves the two waiting for each other. -/
namespace Btcontrol

open Exec ClientThread

/-- How many messages a thread has sent while it works on one. -/
def replies {β : Type} (c : Ctx β) : Nat := c.sent.length

section Branches

variable {β : Type} (w : World) (cmd : FBTCtlMessage)

theorem onGlobals_silent {α : Type} (m : EStateM Err (Globals β) α) : Adds replies 0 (onGlobals m) := by
  apply adds_focus
  intro c globals
  rfl

theorem setLoko_silent (i : Nat) (f : Lokdef → Lokdef) : Adds replies 0 (setLoko i f : Action β Unit) :=
  onGlobals_silent _

theorem mark_silent (i : Nat) : Adds replies 0 (mark i : Action β Unit) := adds_modify _ (fun _ => rfl)

theorem addrIndex_silent (addr : Except Err Int) : Adds replies 0 (addrIndex addr : Action β Nat) :=
  adds_after (adds_lift _) (fun _ => adds_after adds_get (fun _ => adds_lift _))

theorem sendMessage_replies (m : FBTCtlMessage) :
    Adds replies 1 (ClientThread.sendMessage w m : Action β Unit) := by
  apply adds_ite
  · refine adds_after (adds_lift _) (fun _ => adds_modify _ ?_)
    intro c
    simp [replies]
  · exact adds_throw _

theorem sendStatusReply_replies : Adds replies 1 (sendStatusReply w : Action β Unit) := by
  refine adds_after adds_get (fun c => adds_after (adds_lift _) (fun _ => ?_))
  exact adds_after (adds_modify _ (fun _ => rfl)) (fun _ => sendMessage_replies w _)

/-- A reply and the `emergencyStop` of the branch. -/
theorem reply_replies (m : FBTCtlMessage) (emergencyStop : Bool) :
    Adds replies 1 (do ClientThread.sendMessage w m; return emergencyStop : Action β Bool) :=
  adds_before (sendMessage_replies w m) (fun _ => adds_pure _)

theorem sendValue_replies (name : String) (value : Int) :
    Adds replies 1 (sendValue w name value : Action β Bool) :=
  adds_after (adds_lift _) (fun _ => adds_after (adds_lift _) (fun _ => reply_replies w _ _))

theorem setEach_silent (f : Lokdef → Lokdef) (indices : List Nat) :
    Adds replies 0 (setEach cmd f indices : Action β Unit) := by
  induction indices with
  | nil => exact adds_pure _
  | cons i rest ih =>
    refine adds_after (addrIndex_silent _) (fun _ => ?_)
    exact adds_after (setLoko_silent _ _) (fun _ => adds_after (mark_silent _) (fun _ => ih))

theorem driveOne_replies (speed : Int → Int) (emergencyStop : Bool) :
    Adds replies 1 (driveOne w cmd speed emergencyStop : Action β Bool) := by
  refine adds_after (addrIndex_silent _) (fun _ => adds_after (setLoko_silent _ _) (fun _ => ?_))
  refine adds_before (sendStatusReply_replies w) (fun _ => ?_)
  exact adds_after (mark_silent _) (fun _ => adds_pure _)

theorem driveMulti_replies (speed : Int → Int) :
    Adds replies 1 (driveMulti w cmd speed : Action β Bool) := by
  refine adds_after (adds_lift _) (fun _ => adds_after (addrIndex_silent _) (fun _ => ?_))
  refine adds_after (setLoko_silent _ _) (fun _ => adds_after (mark_silent _) (fun _ => ?_))
  refine adds_after adds_get (fun _ => adds_after (setEach_silent cmd _ _) (fun _ => ?_))
  exact adds_before (sendStatusReply_replies w) (fun _ => adds_pure _)

theorem DIR_replies : Adds replies 1 (DIR w cmd : Action β Bool) := by
  refine adds_after (addrIndex_silent _) (fun _ => adds_after (adds_lift _) (fun _ => ?_))
  apply adds_ite (adds_throw _)
  refine adds_after adds_get (fun _ => ?_)
  apply adds_ite (adds_throw _)
  refine adds_after (setLoko_silent _ _) (fun _ => adds_before (sendStatusReply_replies w) (fun _ => ?_))
  exact adds_after (mark_silent _) (fun _ => adds_pure _)

variable (hardware : Hardware β)

/-- Every branch but that of HELO_ERR replies once where it returns. -/
theorem execute_replies (command : Command) (other : command ≠ .HELO_ERR) :
    Adds replies 1 (execute hardware w cmd (some command)) := by
  have status : Adds replies 1 (do sendStatusReply w; return false : Action β Bool) :=
    adds_before (sendStatusReply_replies w) (fun _ => adds_pure _)
  cases command with
  | HELO_ERR => exact absurd rfl other
  | PING => exact status
  | ACC => exact driveOne_replies w cmd (faster w.SPEED_STEP) false
  | BREAK => exact driveOne_replies w cmd (slower w.SPEED_STEP 0) false
  | STOP => exact driveOne_replies w cmd (fun _ => 0) true
  | DIR => exact DIR_replies w cmd
  | ACC_MULTI => exact driveMulti_replies w cmd (faster w.SPEED_STEP)
  | BREAK_MULTI => exact driveMulti_replies w cmd (slower w.SPEED_STEP (-255))
  | DIR_MULTI =>
    refine adds_after (adds_lift _) (fun _ => adds_after (adds_lift _) (fun _ => ?_))
    exact adds_after (setEach_silent cmd _ _) (fun _ => status)
  | STOP_MULTI =>
    refine adds_after (adds_lift _) (fun _ => adds_after (setEach_silent cmd _ _) (fun _ => ?_))
    exact adds_before (sendStatusReply_replies w) (fun _ => adds_pure _)
  | SETFUNC =>
    refine adds_after (addrIndex_silent _) (fun _ => adds_after (adds_lift _) (fun _ => ?_))
    refine adds_after (adds_lift _) (fun _ => adds_after (setLoko_silent _ _) (fun _ => ?_))
    refine adds_before (sendStatusReply_replies w) (fun _ => ?_)
    exact adds_after (mark_silent _) (fun _ => adds_pure _)
  | GETLOCOS =>
    refine adds_after (adds_lift _) (fun _ => adds_after adds_get (fun _ => ?_))
    exact adds_after (adds_lift _) (fun _ => reply_replies w _ _)
  | GETFUNCTIONS =>
    refine adds_after (addrIndex_silent _) (fun _ => adds_after (adds_lift _) (fun _ => ?_))
    refine adds_after adds_get (fun _ => adds_after (adds_lift _) (fun _ => ?_))
    exact reply_replies w _ _
  | POWER =>
    refine adds_after (adds_lift _) (fun _ => adds_after (onGlobals_silent _) (fun _ => ?_))
    exact adds_after adds_get (fun _ => sendValue_replies w _ _)
  | POM =>
    refine adds_after (addrIndex_silent _) (fun _ => adds_after (adds_lift _) (fun _ => ?_))
    refine adds_after (adds_lift _) (fun _ => adds_after adds_get (fun _ => ?_))
    exact adds_after (onGlobals_silent _) (fun _ => sendValue_replies w _ _)
  | POMBIT =>
    refine adds_after (addrIndex_silent _) (fun _ => adds_after (adds_lift _) (fun _ => ?_))
    refine adds_after (adds_lift _) (fun _ => adds_after (adds_lift _) (fun _ => ?_))
    refine adds_after adds_get (fun _ => ?_)
    exact adds_after (onGlobals_silent _) (fun _ => sendValue_replies w _ _)
  | GETIMAGE =>
    refine adds_after (adds_lift _) (fun _ => adds_after (adds_lift _) (fun _ => ?_))
    exact reply_replies w _ _
  | BTSCAN =>
    refine adds_after (adds_lift _) (fun _ => adds_after (adds_lift _) (fun _ => ?_))
    exact reply_replies w _ _
  | BTPUSH =>
    refine adds_after (adds_lift _) (fun _ => adds_after (adds_lift _) (fun _ => ?_))
    refine adds_after (adds_lift _) (fun _ => adds_after (adds_lift _) (fun _ => ?_))
    exact reply_replies w _ _

/-- The loop over the marks sends nothing to the client. -/
theorem hardwareLoop_silent (clientID : Int) (indices : List Nat) (emergencyStop : Bool) :
    Adds replies 0 (hardwareLoop hardware clientID indices emergencyStop) := by
  induction indices generalizing emergencyStop with
  | nil => exact adds_pure _
  | cons i rest ih =>
    refine adds_after adds_get (fun c => adds_ite ?_ (ih emergencyStop))
    refine adds_after ?_ (fun _ => ih false)
    refine adds_after (adds_modify _ (fun _ => rfl)) (fun _ => adds_after (setLoko_silent _ _) (fun _ => ?_))
    exact adds_after (adds_modify _ (fun _ => rfl)) (fun _ => onGlobals_silent _)

end Branches

/-- The loop has a branch for messages of this type. -/
def Implemented (bt : Bool) (type : Nat) : Prop :=
  ∃ entry ∈ commands bt, messageTypeID protocolDat (str entry.1) = .ok type

instance (bt : Bool) (type : Nat) : Decidable (Implemented bt type) :=
  inferInstanceAs (Decidable (∃ entry ∈ commands bt, _))

/-- Every name the loop asks for is in protocol.dat. -/
theorem commands_named (bt : Bool) : ∀ entry ∈ commands bt, ∃ type,
    messageTypeID protocolDat (str entry.1) = .ok type := by
  have named : ∀ bt, ∀ entry ∈ commands bt,
      (messageTypeID protocolDat (str entry.1)).toOption.isSome = true := by
    decide +kernel
  intro entry member
  cases found : messageTypeID protocolDat (str entry.1) with
  | ok type => exact ⟨type,rfl⟩
  | error e =>
    have defined := named bt entry member
    rw [found] at defined
    cases defined

/-- The chain of `isType` ends in the branch of the message's type, if there is one. -/
theorem commandIn_cases (cmd : FBTCtlMessage) (entries : List (String × Command))
    (named : ∀ entry ∈ entries, ∃ type, messageTypeID protocolDat (str entry.1) = .ok type) :
    (∃ entry ∈ entries, messageTypeID protocolDat (str entry.1) = .ok cmd.type ∧
      commandIn cmd entries = .ok (some entry.2)) ∨
    ((∀ entry ∈ entries, messageTypeID protocolDat (str entry.1) ≠ .ok cmd.type) ∧
      commandIn cmd entries = .ok none) := by
  induction entries with
  | nil => exact .inr ⟨fun entry member => absurd member List.not_mem_nil,rfl⟩
  | cons first rest ih =>
    obtain ⟨name,command⟩ := first
    obtain ⟨type,found⟩ := named (name, command) List.mem_cons_self
    simp only [commandIn,FBTCtlMessage.isType,found,bind,Except.bind,pure,Except.pure]
    by_cases same : cmd.type = type
    · refine .inl ⟨(name, command),List.mem_cons_self,same ▸ found,?_⟩
      simp [same]
    · simp only [beq_eq_false_iff_ne.mpr same,Bool.false_eq_true,↓reduceIte]
      rcases ih (fun entry member => named entry (List.mem_cons_of_mem _ member)) with
        ⟨entry,member,typed,taken⟩ | ⟨others,none⟩
      · exact .inl ⟨entry,List.mem_cons_of_mem _ member,typed,taken⟩
      · refine .inr ⟨?_,none⟩
        intro entry member
        rcases List.mem_cons.mp member with rfl | later
        · rw [found]
          exact fun equal => same (Except.ok.inj equal).symm
        · exact others entry later

/-- The branch of a message that has one is not that of another name. -/
theorem commandOf_implemented (w : World) (cmd : FBTCtlMessage) (branch : Implemented w.bt.isSome cmd.type) :
    ∃ command, commandOf w cmd = .ok (some command) ∧
      (command = .HELO_ERR → messageTypeID protocolDat (str "HELO_ERR") = .ok cmd.type) := by
  have only : ∀ bt, ∀ entry ∈ commands bt, entry.2 = .HELO_ERR → entry.1 = "HELO_ERR" := by
    decide
  rcases commandIn_cases cmd (commands w.bt.isSome) (commands_named _) with
    ⟨entry,member,typed,taken⟩ | ⟨others,_⟩
  · refine ⟨entry.2,taken,?_⟩
    intro helo
    rw [only _ entry member helo] at typed
    exact typed
  · obtain ⟨entry,member,typed⟩ := branch
    exact absurd typed (others entry member)

/-- The thread has sent one reply when it is about to read the next message, or it has left
`run` by an exception. -/
def Answered {β : Type} (outcome : EStateM.Result Err (Ctx β) Unit) : Prop :=
  (∃ c reply, outcome = .ok () c ∧ c.sent = [reply]) ∨ ∃ e c, outcome = .error e c

/-- Without a branch nothing is done, sent or marked. -/
theorem processMessage_unimplemented {β : Type} (hardware : Hardware β) (clientID : Int) (w : World)
    (cmd : FBTCtlMessage) (c : Ctx β) (unmarked : Unmarked c.changedAddrIndex)
    (branch : commandOf w cmd = .ok none) : processMessage hardware clientID w cmd c = .ok () c := by
  simp only [processMessage,branch,bind_apply,lift_ok,execute,pure_apply,get_apply]
  exact hardwareLoop_unmarked hardware clientID _ false c (fun i _ => unmarked i)

theorem unanswered {β : Type} (c : Ctx β) (nothing : c.sent = []) : ¬Answered (.ok () c) := by
  rintro (⟨c',reply,same,sent⟩ | ⟨e,c',thrown⟩)
  · cases same
    rw [nothing] at sent
    cases sent
  · cases thrown

/-- In every reachable state a message is answered, or ends the connection, exactly when
the loop has a branch for its type. -/
theorem replies_once {β : Type} (hardware : Hardware β) (lokdef : List Lokdef) (device : β)
    (labels : List Label) (clientID : Int) (lastStatus : List LastStatus) (changedAddrIndex : List Bool)
    (w : World) (cmd : FBTCtlMessage)
    (running : (Server.run hardware (Server.start lokdef device) labels).phaseOf clientID =
      some (.running lastStatus changedAddrIndex))
    (other : messageTypeID protocolDat (str "HELO_ERR") ≠ .ok cmd.type) :
    Answered (processMessage hardware clientID w cmd
      ((Server.run hardware (Server.start lokdef device) labels).context lastStatus changedAddrIndex)) ↔
    Implemented w.bt.isSome cmd.type := by
  have ready := (Server.run_ready hardware lokdef device labels).running running
  generalize Server.run hardware (Server.start lokdef device) labels = s at running ready ⊢
  constructor
  · intro answered
    rcases commandIn_cases cmd (commands w.bt.isSome) (commands_named _) with
      ⟨entry,member,typed,_⟩ | ⟨_,none⟩
    · exact ⟨entry,member,typed⟩
    · rw [processMessage_unimplemented hardware clientID w cmd _ ready.1 none] at answered
      exact absurd answered (unanswered _ rfl)
  · intro branch
    obtain ⟨command,taken,helo⟩ := commandOf_implemented w cmd branch
    have once : Adds replies 1 (processMessage hardware clientID w cmd) := by
      intro c a c' returned
      simp only [processMessage,taken,bind_apply,lift_ok] at returned
      have both := adds_before (execute_replies w cmd hardware command (fun same => other (helo same)))
        (fun emergencyStop => adds_after adds_get
          (fun d : Ctx β => hardwareLoop_silent hardware clientID (List.range d.changedAddrIndex.length) emergencyStop))
      exact both c a c' (by simpa only [bind_apply] using returned)
    cases outcome : processMessage hardware clientID w cmd (s.context lastStatus changedAddrIndex) with
    | error e c => exact .inr ⟨e,c,rfl⟩
    | ok a c =>
      obtain ⟨reply,sent⟩ := List.length_eq_one_iff.mp (once _ a c outcome)
      exact .inl ⟨c,reply,rfl,sent⟩

/-- A PING of a client that has just joined. -/
theorem replies_once_ping : Answered (processMessage (SRCP_Hardware okSrcpd) 1 online (.struct 7 [])
    (oneClient.context (initialStatus twoLocos) (noneChanged twoLocos))) :=
  (replies_once (SRCP_Hardware okSrcpd) twoLocos {} joined 1 (initialStatus twoLocos) (noneChanged twoLocos)
    online (.struct 7 []) rfl (by decide +kernel)).mpr (by decide +kernel)

/-- A BTSCAN at a server that is built without BTUtils: the message is read, nothing is sent
and the thread is back in its main loop. -/
theorem btscan_unanswered :
    (∃ so, CommThread.readMessage protocolDat [[1, 0, 0, 0, 30]] = .ok (.struct 30 [], so)) ∧
    messageTypeID protocolDat (str "BTSCAN") = .ok 30 ∧
    oneClient.phaseOf 1 = some (.running (initialStatus twoLocos) (noneChanged twoLocos)) ∧
    ¬Answered (processMessage (SRCP_Hardware okSrcpd) 1 online (.struct 30 [])
      (oneClient.context (initialStatus twoLocos) (noneChanged twoLocos))) := by
  refine ⟨?_,rfl,rfl,?_⟩
  · have delivered : Bytes.Delivered [[(1 : UInt8), 0, 0, 0, 30]] := by
      simp [Bytes.Delivered]
    obtain ⟨so,read,_⟩ := CommThread.readMessage_front protocolDat (.mk 30 [] []) (.struct 30 []) rfl
      ⟨by decide,trivial⟩ ⟨by decide,by decide,trivial⟩ (by decide) [] [[1, 0, 0, 0, 30]] delivered rfl
    exact ⟨so,read⟩
  · have unmarked : Unmarked (noneChanged twoLocos) := by
      intro i marked
      simp [noneChanged,List.getElem?_replicate] at marked
    rw [processMessage_unimplemented _ 1 online (.struct 30 [])
      (oneClient.context (initialStatus twoLocos) (noneChanged twoLocos)) unmarked rfl]
    exact unanswered _ rfl

end Btcontrol
