import Btcontrol.Deliverable
import Btcontrol.Logging
import Btcontrol.Serving

/-! The replies on the wire: which message answers which command, and that a thread in its main
loop has answered every command it has read, in their order. -/
namespace Btcontrol

open DataType Exec ClientThread FBTCtlMessage

/-- The message that answers a command; HELO_ERR has none. -/
def replyName : Command → Option String
  | .PING | .ACC | .BREAK | .DIR | .STOP | .ACC_MULTI | .BREAK_MULTI | .DIR_MULTI | .STOP_MULTI | .SETFUNC =>
    some "STATUS_REPLY"
  | .GETLOCOS => some "GETLOCOS_REPLY"
  | .GETFUNCTIONS => some "GETFUNCTIONS_REPLY"
  | .POWER => some "POWER_REPLY"
  | .POM => some "POM_REPLY"
  | .POMBIT => some "POMBIT_REPLY"
  | .GETIMAGE => some "GETIMAGE_REPLY"
  | .BTSCAN => some "BTSCAN_REPLY"
  | .BTPUSH => some "BTPUSH_REPLY"
  | .HELO_ERR => none

/-- The message is answered, by a server that is built with BTUtils or without. -/
def isAnswered (bt : Bool) (cmd : FBTCtlMessage) : Bool :=
  match commandIn cmd (commands bt) with
  | .ok (some command) => (replyName command).isSome
  | _ => false

/-- A message without its list is not encoded. -/
theorem unset_refused {type : Nat} {name : Str} {it : MessageLayout} {rest : List MessageLayout}
    (found : getMessageLayout protocolDat type = .ok (.mk type name (it :: rest))) (bytes : List UInt8) :
    getBinaryMessage protocolDat (.struct type []) ≠ .ok bytes := by
  intro encoded
  simp only [getBinaryMessage,FBTCtlMessage.type,found,encode,writers,writeFields,MessageLayout.childLayouts,
    List.lookup,bind,Except.bind] at encoded
  cases named : messageTypeName protocolDat type with
  | error e => simp only [named,reduceCtorEq] at encoded
  | ok struct => simp only [named,reduceCtorEq] at encoded

/-! ### What a branch has sent when it returns -/

def helo : FBTCtlMessage := .struct 5 [(str "name", .string (str "my bt server")), (str "version", .string (str "0.9")),
  (str "protohash", .int protocolDat.protocolHash)]

def valueReply (type : Nat) (value : Int) : FBTCtlMessage := .struct type [(str "value", .int value)]

/-- The reply to a command, as it is built from the table and the backend the branch has left, and the status the
thread then keeps of it. -/
inductive Replied {β : Type} (hardware : Hardware β) (w : World) (cmd : FBTCtlMessage) (globals : Globals β)
    (lastStatus : List LastStatus) : Command → FBTCtlMessage → List LastStatus → Prop
  | status {command : Command} (named : replyName command = some "STATUS_REPLY") :
    Replied hardware w cmd globals lastStatus command
      (statusReply ((changedLocos globals.lokdef lastStatus).map statusEntry)) (nextStatus globals.lokdef lastStatus)
  | locos : Replied hardware w cmd globals lastStatus .GETLOCOS
      (infoReply 23 ((locos globals.lokdef).map locoEntry)) lastStatus
  | functions (i : Nat) (l : Lokdef) (found : located globals.lokdef (getInt cmd "addr") = .ok i)
      (there : globals.lokdef[i]? = some l) : Replied hardware w cmd globals lastStatus .GETFUNCTIONS
      (infoReply 21 ((l.func.toList.take l.nFunc.toNat).map functionEntry)) lastStatus
  | power : Replied hardware w cmd globals lastStatus .POWER
      (valueReply 19 (if hardware.getPowerState globals.device then 1 else 0)) lastStatus
  | pom (i : Nat) (l : Lokdef) (found : located globals.lokdef (getInt cmd "addr") = .ok i)
      (there : globals.lokdef[i]? = some l) {cv value rc : Int} {before : β} (cvGiven : getInt cmd "cv" = .ok cv)
      (valueGiven : getInt cmd "value" = .ok value)
      (written : hardware.sendPOM l.addr cv value before = .ok rc globals.device) :
    Replied hardware w cmd globals lastStatus .POM (valueReply 25 rc) lastStatus
  | pombit (i : Nat) (l : Lokdef) (found : located globals.lokdef (getInt cmd "addr") = .ok i)
      (there : globals.lokdef[i]? = some l) {cv bitNr value rc : Int} {before : β} (cvGiven : getInt cmd "cv" = .ok cv)
      (bitGiven : getInt cmd "bit" = .ok bitNr) (valueGiven : getInt cmd "value" = .ok value)
      (written : hardware.sendPOMBit l.addr cv bitNr (value ≠ 0) before = .ok rc globals.device) :
    Replied hardware w cmd globals lastStatus .POMBIT (valueReply 27 rc) lastStatus
  | image (name content : Str) (named : imageName cmd = .ok name) (read : image w name = .ok content) :
    Replied hardware w cmd globals lastStatus .GETIMAGE (.struct 29 [(str "img", .string content)]) lastStatus
  | btscan (bt : BTUtils) {reply : FBTCtlMessage} (built : w.bt = some bt)
      (scanned : bt.BTScan (.struct 31 []) = .ok reply) : Replied hardware w cmd globals lastStatus .BTSCAN reply lastStatus
  | btpush : Replied hardware w cmd globals lastStatus .BTPUSH (.struct 33 [(str "rc", .int 1)]) lastStatus

section Branches

variable {β : Type} (hardware : Hardware β) (w : World) (cmd : FBTCtlMessage)

/-- Nothing is sent and the status kept of the client stays. -/
abbrev Mute {α : Type} (m : Action β α) : Prop := Silent (fun c : Ctx β => (c.sent, c.lastStatus)) m

/-- Nor is the table or the backend written. -/
abbrev Mere {α : Type} (m : Action β α) : Prop := Silent (fun c : Ctx β => (c.sent, c.lastStatus, c.globals)) m

def Tells (command : Command) {α : Type} (m : Action β α) : Prop :=
  Ensures (fun c c' : Ctx β => ∃ reply, c'.sent = c.sent ++ [reply] ∧
    Replied hardware w cmd c'.globals c.lastStatus command reply c'.lastStatus) m

section Order

variable {hardware : Hardware β} {w : World} {cmd : FBTCtlMessage} {command : Command}

theorem tells_after {α γ : Type} {m : Action β α} {f : α → Action β γ} (first : Mute m)
    (next : ∀ a, Tells hardware w cmd command (f a)) : Tells hardware w cmd command (m >>= f) := by
  refine ensures_after ?_ first next
  rintro c c1 c2 same ⟨reply,sent,told⟩
  obtain ⟨sentSame,lastSame⟩ := Prod.mk.inj same
  exact ⟨reply,sentSame ▸ sent,lastSame ▸ told⟩

theorem tells_before {α γ : Type} {m : Action β α} {f : α → Action β γ} (first : Tells hardware w cmd command m)
    (next : ∀ a, Mere (f a)) : Tells hardware w cmd command (m >>= f) := by
  refine ensures_before ?_ first next
  rintro c c1 c2 same ⟨reply,sent,told⟩
  obtain ⟨sentSame,kept⟩ := Prod.mk.inj same
  obtain ⟨lastSame,globalsSame⟩ := Prod.mk.inj kept
  refine ⟨reply,sentSame.trans sent,?_⟩
  rw [lastSame,globalsSame]
  exact told

end Order

variable {command : Command}

theorem onGlobals_mute {α : Type} (m : EStateM Err (Globals β) α) : Mute (onGlobals m) := by
  apply silent_focus
  intro globals c
  rfl

theorem setLoko_mute (i : Nat) (f : Lokdef → Lokdef) : Mute (setLoko i f : Action β Unit) := onGlobals_mute _

theorem mark_mere (i : Nat) : Mere (mark i : Action β Unit) := silent_modify _ (fun _ => rfl)

theorem mark_mute (i : Nat) : Mute (mark i : Action β Unit) := silent_modify _ (fun _ => rfl)

theorem addrIndex_mute (addr : Except Err Int) : Mute (addrIndex addr : Action β Nat) :=
  silent_bind (silent_lift _) (fun _ => silent_bind silent_get (fun _ => silent_lift _))

theorem setEach_mute (f : Lokdef → Lokdef) (indices : List Nat) : Mute (setEach cmd f indices : Action β Unit) := by
  induction indices with
  | nil => exact silent_pure _
  | cons i rest ih =>
    refine silent_bind (addrIndex_mute _) (fun _ => ?_)
    exact silent_bind (setLoko_mute _ _) (fun _ => silent_bind (mark_mute _) (fun _ => ih))

/-- A message that was sent has been encoded. -/
theorem sendMessage_returned {m : FBTCtlMessage} {c c' : Ctx β}
    (returned : ClientThread.sendMessage w m c = .ok () c') :
    c' = { c with sent := c.sent ++ [m] } ∧ ∃ bytes, getBinaryMessage protocolDat m = .ok bytes := by
  simp only [ClientThread.sendMessage] at returned
  split at returned
  · obtain ⟨bytes,c1,encoded,returned⟩ := returned_of_bind returned
    cases encoding : getBinaryMessage protocolDat m with
    | error e =>
      rw [encoding] at encoded
      cases encoded
    | ok _ =>
      rw [encoding] at encoded
      cases encoded
      cases returned
      exact ⟨rfl,_,rfl⟩
  · cases returned

theorem sendStatusReply_tells (named : replyName command = some "STATUS_REPLY") :
    Tells hardware w cmd command (sendStatusReply w : Action β Unit) := by
  intro c a c' returned
  cases connected : w.connected with
  | true =>
    rw [sendStatusReply_sent w connected c] at returned
    cases returned
    exact ⟨_,rfl,.status named⟩
  | false =>
    rw [sendStatusReply_closed w connected c] at returned
    cases returned

theorem lift_returned {α : Type} {x : Except Err α} {c c' : Ctx β} {a : α}
    (returned : (lift x : Action β α) c = .ok a c') : x = .ok a ∧ c' = c := by
  cases x with
  | error e => cases returned
  | ok _ =>
    cases returned
    exact ⟨rfl,rfl⟩

theorem addrIndex_returned {addr : Except Err Int} {c c' : Ctx β} {i : Nat}
    (returned : (addrIndex addr : Action β Nat) c = .ok i c') : located c.lokdef addr = .ok i ∧ c' = c := by
  rw [addrIndex_apply] at returned
  exact lift_returned returned

/-- A reply that is one number. -/
theorem sendValue_returned {name : String} {type : Nat} {value : Int} {c c' : Ctx β} {emergencyStop : Bool}
    (made : newMessage name = .ok (.struct type []))
    (writable : setField (str "value") (.int value) (.struct type []) = .ok (valueReply type value))
    (returned : (sendValue w name value : Action β Bool) c = .ok emergencyStop c') :
    c' = { c with sent := c.sent ++ [valueReply type value] } := by
  obtain ⟨m,c1,lifted,returned⟩ := returned_of_bind returned
  obtain ⟨new,rfl⟩ := lift_returned lifted
  rw [made] at new
  cases new
  obtain ⟨reply,c2,lifted,returned⟩ := returned_of_bind returned
  obtain ⟨written,rfl⟩ := lift_returned lifted
  rw [writable] at written
  cases written
  obtain ⟨_,c3,sent,finished⟩ := returned_of_bind returned
  cases finished
  exact (sendMessage_returned w sent).1

theorem onDevice_returned {α : Type} {m : EStateM Err β α} {c c' : Ctx β} {a : α}
    (returned : onGlobals (onDevice m) c = .ok a c') :
    ∃ device, m c.globals.device = .ok a device ∧ c' = { c with globals := { c.globals with device } } := by
  cases ran : m c.globals.device with
  | error e device =>
    simp only [onGlobals,onDevice,focus,ran] at returned
    cases returned
  | ok b device =>
    simp only [onGlobals,onDevice,focus,ran] at returned
    cases returned
    exact ⟨device,rfl,rfl⟩

theorem driveOne_tells (named : replyName command = some "STATUS_REPLY") (speed : Int → Int) (emergencyStop : Bool) :
    Tells hardware w cmd command (driveOne w cmd speed emergencyStop : Action β Bool) := by
  refine tells_after (addrIndex_mute _) (fun _ => tells_after (setLoko_mute _ _) (fun _ => ?_))
  refine tells_before (sendStatusReply_tells hardware w cmd named) (fun _ => ?_)
  exact silent_bind (mark_mere _) (fun _ => silent_pure _)

theorem driveMulti_tells (named : replyName command = some "STATUS_REPLY") (speed : Int → Int) :
    Tells hardware w cmd command (driveMulti w cmd speed : Action β Bool) := by
  refine tells_after (silent_lift _) (fun _ => tells_after (addrIndex_mute _) (fun _ => ?_))
  refine tells_after (setLoko_mute _ _) (fun _ => tells_after (mark_mute _) (fun _ => ?_))
  refine tells_after silent_get (fun _ => tells_after (setEach_mute cmd _ _) (fun _ => ?_))
  exact tells_before (sendStatusReply_tells hardware w cmd named) (fun _ => silent_pure _)

theorem DIR_tells : Tells hardware w cmd .DIR (DIR w cmd : Action β Bool) := by
  refine tells_after (addrIndex_mute _) (fun _ => tells_after (silent_lift _) (fun _ => ?_))
  refine ensures_ite (ensures_throw _) (tells_after silent_get (fun _ => ensures_ite (ensures_throw _) ?_))
  refine tells_after (setLoko_mute _ _) (fun _ => tells_before (sendStatusReply_tells hardware w cmd rfl) (fun _ => ?_))
  exact silent_bind (mark_mere _) (fun _ => silent_pure _)

theorem GETLOCOS_tells : Tells hardware w cmd .GETLOCOS (GETLOCOS w : Action β Bool) := by
  refine ensures_lift (fun m made => ?_)
  obtain rfl : .struct 23 [] = m := Except.ok.inj made
  intro c stop c' returned
  simp only [bind_apply,get_apply,locosLoop_start,lift_ok] at returned
  obtain ⟨_,c1,sent,finished⟩ := returned_of_bind returned
  cases finished
  obtain ⟨rfl,bytes,encoded⟩ := sendMessage_returned w sent
  -- a list that was never set is not encoded
  have some : locos c.lokdef ≠ [] := by
    intro none
    rw [if_pos none] at encoded
    exact unset_refused rfl bytes encoded
  rw [if_neg some]
  exact ⟨_,rfl,.locos⟩

theorem GETFUNCTIONS_tells : Tells hardware w cmd .GETFUNCTIONS (GETFUNCTIONS w cmd : Action β Bool) := by
  intro c stop c' executed
  obtain ⟨i,c1,found,returned⟩ := returned_of_bind executed
  obtain ⟨place,rfl⟩ := addrIndex_returned found
  have made : newMessage "GETFUNCTIONS_REPLY" = .ok (.struct 21 []) := rfl
  simp only [bind_apply,made,get_apply,functionsLoop_start,lift_ok] at returned
  obtain ⟨_,c2,sent,finished⟩ := returned_of_bind returned
  cases finished
  obtain ⟨rfl,bytes,encoded⟩ := sendMessage_returned w sent
  obtain ⟨l,there,_⟩ := (located_record place).2
  have some : (c1.lokdef[i]?.getD .zeroed).func.toList.take (c1.lokdef[i]?.getD .zeroed).nFunc.toNat ≠ [] := by
    intro none
    rw [if_pos none] at encoded
    exact unset_refused rfl bytes encoded
  rw [if_neg some,there]
  exact ⟨_,rfl,.functions i l place there⟩

theorem POWER_tells : Tells hardware w cmd .POWER (POWER hardware w cmd) := by
  refine tells_after (silent_lift _) (fun value => tells_after (onGlobals_mute _) (fun _ => ?_))
  intro c stop c' returned
  simp only [bind_apply,get_apply] at returned
  obtain rfl := @sendValue_returned _ w "POWER_REPLY" 19 _ _ _ _ rfl rfl returned
  exact ⟨_,rfl,.power⟩

theorem POM_tells : Tells hardware w cmd .POM (POM hardware w cmd) := by
  intro c stop c' executed
  obtain ⟨i,c1,found,next1⟩ := returned_of_bind executed
  obtain ⟨place,rfl⟩ := addrIndex_returned found
  obtain ⟨cv,c2,lifted,next2⟩ := returned_of_bind next1
  obtain ⟨cvGiven,rfl⟩ := lift_returned lifted
  obtain ⟨value,c3,lifted,next3⟩ := returned_of_bind next2
  obtain ⟨valueGiven,rfl⟩ := lift_returned lifted
  obtain ⟨l,there,_⟩ := (located_record place).2
  simp only [bind_apply,get_apply,there,Option.getD_some] at next3
  obtain ⟨rc,c4,wrote,next4⟩ := returned_of_bind next3
  obtain ⟨device,written,rfl⟩ := onDevice_returned wrote
  obtain rfl := @sendValue_returned _ w "POM_REPLY" 25 _ _ _ _ rfl rfl next4
  refine ⟨_,rfl,.pom i l ?_ ?_ cvGiven valueGiven written⟩
  · exact place
  · exact there

theorem POMBIT_tells : Tells hardware w cmd .POMBIT (POMBIT hardware w cmd) := by
  intro c stop c' executed
  obtain ⟨i,c1,found,next1⟩ := returned_of_bind executed
  obtain ⟨place,rfl⟩ := addrIndex_returned found
  obtain ⟨cv,c2,lifted,next2⟩ := returned_of_bind next1
  obtain ⟨cvGiven,rfl⟩ := lift_returned lifted
  obtain ⟨bitNr,c3,lifted,next3⟩ := returned_of_bind next2
  obtain ⟨bitGiven,rfl⟩ := lift_returned lifted
  obtain ⟨value,c4,lifted,next4⟩ := returned_of_bind next3
  obtain ⟨valueGiven,rfl⟩ := lift_returned lifted
  obtain ⟨l,there,_⟩ := (located_record place).2
  simp only [bind_apply,get_apply,there,Option.getD_some] at next4
  obtain ⟨rc,c5,wrote,next5⟩ := returned_of_bind next4
  obtain ⟨device,written,rfl⟩ := onDevice_returned wrote
  obtain rfl := @sendValue_returned _ w "POMBIT_REPLY" 27 _ _ _ _ rfl rfl next5
  refine ⟨_,rfl,.pombit i l ?_ ?_ cvGiven bitGiven valueGiven written⟩
  · exact place
  · exact there

/-- A reply that tells nothing of the table, and the `emergencyStop` of its branch. -/
theorem reply_tells {reply : FBTCtlMessage} (replied : ∀ (globals : Globals β) (lastStatus : List LastStatus),
    Replied hardware w cmd globals lastStatus command reply lastStatus) :
    Tells hardware w cmd command (do ClientThread.sendMessage w reply; return false : Action β Bool) := by
  refine tells_before ?_ (fun _ => silent_pure _)
  intro c a c' returned
  obtain ⟨rfl,_⟩ := sendMessage_returned w returned
  exact ⟨reply,rfl,replied _ _⟩

theorem GETIMAGE_tells : Tells hardware w cmd .GETIMAGE (GETIMAGE w cmd : Action β Bool) := by
  refine ensures_lift (fun name named => ensures_lift (fun reply made => ?_))
  obtain ⟨content,read,made⟩ := ok_of_bind made
  obtain rfl : .struct 29 [(str "img", .string content)] = reply := Except.ok.inj made
  exact reply_tells hardware w cmd (fun _ _ => .image name content named read)

theorem BTSCAN_tells (built : w.bt.isSome) : Tells hardware w cmd .BTSCAN (BTSCAN w : Action β Bool) := by
  obtain ⟨bt,built⟩ := Option.isSome_iff_exists.mp built
  refine ensures_lift (fun m made => ensures_lift (fun reply scanned => ?_))
  obtain rfl : .struct 31 [] = m := Except.ok.inj made
  rw [built] at scanned
  exact reply_tells hardware w cmd (fun _ _ => .btscan bt built scanned)

theorem BTPUSH_tells : Tells hardware w cmd .BTPUSH (BTPUSH w cmd : Action β Bool) := by
  refine ensures_lift (fun m made => tells_after (silent_lift _) (fun addr => ?_))
  refine tells_after (silent_lift _) (fun _ => ensures_lift (fun reply written => ?_))
  obtain rfl : .struct 33 [] = m := Except.ok.inj made
  obtain rfl : .struct 33 [(str "rc", .int 1)] = reply := Except.ok.inj written
  exact reply_tells hardware w cmd (fun _ _ => .btpush)

/-- A branch that returns has sent the reply to its command. -/
theorem execute_tells (replies : (replyName command).isSome)
    (known : ∃ entry ∈ commands w.bt.isSome, entry.2 = command) :
    Tells hardware w cmd command (execute hardware w cmd (some command)) := by
  have status {command : Command} (named : replyName command = some "STATUS_REPLY") :
      Tells hardware w cmd command (do sendStatusReply w; return false : Action β Bool) :=
    tells_before (sendStatusReply_tells hardware w cmd named) (fun _ => silent_pure _)
  cases command with
  | HELO_ERR => cases replies
  | PING => exact status rfl
  | ACC => exact driveOne_tells hardware w cmd rfl (faster w.SPEED_STEP) false
  | BREAK => exact driveOne_tells hardware w cmd rfl (slower w.SPEED_STEP 0) false
  | STOP => exact driveOne_tells hardware w cmd rfl (fun _ => 0) true
  | DIR => exact DIR_tells hardware w cmd
  | ACC_MULTI => exact driveMulti_tells hardware w cmd rfl (faster w.SPEED_STEP)
  | BREAK_MULTI => exact driveMulti_tells hardware w cmd rfl (slower w.SPEED_STEP (-255))
  | DIR_MULTI =>
    refine tells_after (silent_lift _) (fun _ => tells_after (silent_lift _) (fun _ => ?_))
    exact tells_after (setEach_mute cmd _ _) (fun _ => status rfl)
  | STOP_MULTI =>
    refine tells_after (silent_lift _) (fun _ => tells_after (setEach_mute cmd _ _) (fun _ => ?_))
    exact tells_before (sendStatusReply_tells hardware w cmd rfl) (fun _ => silent_pure _)
  | SETFUNC =>
    refine tells_after (addrIndex_mute _) (fun _ => tells_after (silent_lift _) (fun _ => ?_))
    refine tells_after (silent_lift _) (fun _ => tells_after (setLoko_mute _ _) (fun _ => ?_))
    refine tells_before (sendStatusReply_tells hardware w cmd rfl) (fun _ => ?_)
    exact silent_bind (mark_mere _) (fun _ => silent_pure _)
  | GETLOCOS => exact GETLOCOS_tells hardware w cmd
  | GETFUNCTIONS => exact GETFUNCTIONS_tells hardware w cmd
  | POWER => exact POWER_tells hardware w cmd
  | POM => exact POM_tells hardware w cmd
  | POMBIT => exact POMBIT_tells hardware w cmd
  | GETIMAGE => exact GETIMAGE_tells hardware w cmd
  | BTSCAN =>
    refine BTSCAN_tells hardware w cmd ?_
    by_contra without
    rw [Bool.eq_false_iff.mpr without] at known
    exact absurd known (by decide)
  | BTPUSH => exact BTPUSH_tells hardware w cmd

theorem hardwareLoop_mute (clientID : Int) (indices : List Nat) (emergencyStop : Bool) :
    Mute (hardwareLoop hardware clientID indices emergencyStop) := by
  induction indices generalizing emergencyStop with
  | nil => exact silent_pure _
  | cons i rest ih =>
    refine silent_bind silent_get (fun c => silent_ite ?_ (ih emergencyStop))
    refine silent_bind ?_ (fun _ => ih false)
    refine silent_bind (silent_modify _ (fun _ => rfl)) (fun _ => silent_bind (setLoko_mute _ _) (fun _ => ?_))
    exact silent_bind (silent_modify _ (fun _ => rfl)) (fun _ => onGlobals_mute _)

end Branches

/-! ### A turn -/

/-- The first name that fits is taken, whatever stands after it. -/
theorem commandIn_append {cmd : FBTCtlMessage} {entries : List (String × Command)} {command : Command}
    (more : List (String × Command)) (taken : commandIn cmd entries = .ok (some command)) :
    commandIn cmd (entries ++ more) = .ok (some command) := by
  induction entries with
  | nil => cases taken
  | cons first rest ih =>
    obtain ⟨name,own⟩ := first
    obtain ⟨fits,typed,taken⟩ := ok_of_bind taken
    simp only [List.cons_append,commandIn,typed,bind,Except.bind]
    cases fits with
    | true => exact taken
    | false => exact ih taken

theorem commandIn_mem {cmd : FBTCtlMessage} {entries : List (String × Command)} {command : Command}
    (taken : commandIn cmd entries = .ok (some command)) : ∃ entry ∈ entries, entry.2 = command := by
  induction entries with
  | nil => cases taken
  | cons first rest ih =>
    obtain ⟨name,own⟩ := first
    obtain ⟨fits,_,taken⟩ := ok_of_bind taken
    cases fits with
    | true =>
      cases taken
      exact ⟨_,List.mem_cons_self,rfl⟩
    | false =>
      obtain ⟨entry,member,same⟩ := ih taken
      exact ⟨entry,List.mem_cons_of_mem _ member,same⟩

theorem answered_branch {bt : Bool} {cmd : FBTCtlMessage} (answers : isAnswered bt cmd = true) :
    ∃ command, commandIn cmd (commands bt) = .ok (some command) ∧ (replyName command).isSome := by
  simp only [isAnswered] at answers
  split at answers
  case h_1 command taken => exact ⟨command,taken,answers⟩
  case h_2 => cases answers

/-- A command whose branch replies has been answered when its turn is over, from the table its branch has left. -/
theorem processMessage_replied {β : Type} {hardware : Hardware β} {clientID : Int} {w : World} {cmd : FBTCtlMessage}
    {c c' : Ctx β} {command : Command} (taken : commandOf w cmd = .ok (some command))
    (replies : (replyName command).isSome) (returned : processMessage hardware clientID w cmd c = .ok () c') :
    ∃ reply emergencyStop c1, c'.sent = c.sent ++ [reply] ∧
      execute hardware w cmd (some command) c = .ok emergencyStop c1 ∧
      Replied hardware w cmd c1.globals c.lastStatus command reply c'.lastStatus := by
  obtain ⟨chosen,_,branch,returned⟩ := returned_of_bind returned
  rw [taken] at branch
  cases branch
  obtain ⟨emergencyStop,c1,executed,returned⟩ := returned_of_bind returned
  obtain ⟨reply,sent,told⟩ := execute_tells hardware w cmd replies (commandIn_mem taken) c _ c1 executed
  have mute : Mute (do hardwareLoop hardware clientID (List.range (← get).changedAddrIndex.length) emergencyStop) :=
    silent_bind silent_get (fun _ => hardwareLoop_mute hardware clientID _ _)
  obtain ⟨sentSame,lastSame⟩ := Prod.mk.inj (mute c1 () c' returned)
  exact ⟨reply,emergencyStop,c1,sentSame.trans sent,executed,lastSame ▸ told⟩

/-- The same for a table that only commands have written. -/
theorem processMessage_tells {β : Type} {hardware : Hardware β} {rel : Globals β → Globals β → Prop}
    (tracks : Tracks hardware rel) (clientID : Int) (w : World) {cmd : FBTCtlMessage} {c c' : Ctx β}
    {command : Command} (taken : commandIn cmd (commands false) = .ok (some command))
    (replies : (replyName command).isSome) (returned : processMessage hardware clientID w cmd c = .ok () c') :
    ∃ reply globals, c'.sent = c.sent ++ [reply] ∧ rel c.globals globals ∧
      Replied hardware w cmd globals c.lastStatus command reply c'.lastStatus := by
  obtain ⟨reply,emergencyStop,c1,sent,executed,told⟩ :=
    processMessage_replied (commandIn_append _ taken) replies returned
  have moved := tracks.execute w cmd (some command) c
  rw [executed] at moved
  exact ⟨reply,c1.globals,sent,moved,told⟩

/-- A message that is not answered. -/
theorem processMessage_mute {β : Type} {hardware : Hardware β} {clientID : Int} {w : World} {cmd : FBTCtlMessage}
    {c c' : Ctx β} (unanswered : isAnswered w.bt.isSome cmd = false)
    (processed : processMessage hardware clientID w cmd c = .ok () c') :
    c'.sent = c.sent ∧ c'.lastStatus = c.lastStatus := by
  have mute (branch : Option Command) (none : branch.bind replyName = none) :
      Mute (execute hardware w cmd branch) := by
    cases branch with
    | none => exact silent_pure _
    | some command =>
      cases command with
      | HELO_ERR =>
        refine silent_bind (silent_lift _) (fun _ => silent_bind (silent_lift _) (fun _ => ?_))
        exact silent_bind (silent_lift _) (fun _ => silent_pure _)
      | _ => cases none
  obtain ⟨branch,c1,lifted,returned⟩ := returned_of_bind processed
  obtain ⟨taken,rfl⟩ := lift_returned lifted
  have none : branch.bind replyName = none := by
    rw [isAnswered,show commandIn cmd (commands w.bt.isSome) = .ok branch from taken] at unanswered
    cases branch with
    | none => rfl
    | some command => simpa using unanswered
  have whole : Mute (do
      let emergencyStop ← execute hardware w cmd branch
      hardwareLoop hardware clientID (List.range (← get).changedAddrIndex.length) emergencyStop) :=
    silent_bind (mute branch none)
      (fun _ => silent_bind silent_get (fun _ => hardwareLoop_mute hardware clientID _ _))
  exact Prod.mk.inj (whole c1 () c' returned)

theorem sendHelo_sends {β : Type} (hardware : Hardware β) (w : World) :
    Logs Ctx.sent (fun added => added = [helo]) (sendHelo hardware w) := by
  have mute := (onGlobals_mute (onDevice hardware.clientConnected)).part Prod.fst
  refine logs_after mute (fun _ => ensures_lift (fun m made => ensures_lift (fun m1 written1 => ?_)))
  refine ensures_lift (fun m2 written2 => ensures_lift (fun m3 written3 => ?_))
  obtain rfl : .struct 5 [] = m := Except.ok.inj made
  cases written1
  cases written2
  cases written3
  intro c a c' returned
  obtain ⟨rfl,_⟩ := sendMessage_returned w returned
  exact ⟨[helo],rfl,rfl⟩

/-! ### Every connection -/

/-- Commands and their replies, in order. Each reply is what the branch of its command has sent at a turn of the
thread, where `lastStatus` is what the replies before it have left. -/
inductive Exchanged {β : Type} (hardware : Hardware β) (turned : Globals β → World → Prop) (first : List LastStatus) :
    List FBTCtlMessage → List FBTCtlMessage → List LastStatus → Prop
  | nil : Exchanged hardware turned first [] [] first
  | snoc {cmds replies : List FBTCtlMessage} {lastStatus after : List LastStatus} {cmd reply : FBTCtlMessage}
      {globals : Globals β} {w : World} {changedAddrIndex : List Bool} {command : Command} {emergencyStop : Bool}
      {c : Ctx β} (before : Exchanged hardware turned first cmds replies lastStatus) (turn : turned globals w)
      (branch : commandOf w cmd = .ok (some command))
      (executed : execute hardware w cmd (some command) { globals, lastStatus, changedAddrIndex } = .ok emergencyStop c)
      (replied : Replied hardware w cmd c.globals lastStatus command reply after) :
    Exchanged hardware turned first (cmds ++ [cmd]) (replies ++ [reply]) after

namespace WireServer

variable {β : Type} (hardware : Hardware β) (lokdef : List Lokdef)

/-- The run gives this client a turn, which finds this. -/
def Turned (device : β) (labels : List WireLabel) (clientID : Int) (globals : Globals β) (w : World) : Prop :=
  ∃ front, front ++ [.turn clientID w] <+: labels ∧
    (run hardware (start lokdef device) front).server.globals = globals

/-- What has gone through a connection, by where its thread stands: the replies to the commands that are answered. -/
def Standing (bt : Bool) (turned : Int → Globals β → World → Prop) (c : Connection) : Option Phase → Prop
  | some .accepted => c.commands = [] ∧ c.replies = []
  | some (.running lastStatus _) => ∃ replies, c.replies = helo :: replies ∧
    Exchanged hardware (turned c.clientID) (initialStatus lokdef) (c.commands.filter (isAnswered bt)) replies lastStatus
  | _ => True

theorem serves_standing (bt : Bool) (turned : Int → Globals β → World → Prop) :
    Serves hardware lokdef (fun clientID globals w => turned clientID globals w ∧ w.bt.isSome = bt)
      (Standing hardware lokdef bt turned) := by
  refine ⟨fun _ => trivial,fun _ => trivial,fun _ _ => ⟨rfl,rfl⟩,?_,?_⟩
  · intro c globals w c' shaped fresh sent
    obtain ⟨_,same,rfl⟩ := sendHelo_sends hardware w _ _ c' sent
    refine ⟨[],?_,?_⟩
    · simp only [Connection.write,fresh.2,same,List.nil_append]
    · have addrs := shaped.map_eq Lokdef.addr (fun _ _ shape => shape.addr)
      simp only [Connection.write,fresh.1,List.filter_nil,initialStatus,nLokdef_congr addrs]
      exact .nil
  · rintro c globals lastStatus changedAddrIndex w cmd so c' _ ⟨turn,rfl⟩ ⟨replies,sent,told⟩ processed
    cases answers : isAnswered w.bt.isSome cmd with
    | false =>
      obtain ⟨same,lastSame⟩ := processMessage_mute answers processed
      refine ⟨replies,?_,?_⟩
      · simp only [Connection.write,Connection.take,sent,same,List.append_nil]
      · simp only [Connection.write,Connection.take,List.filter_append,List.filter_cons,List.filter_nil,answers,
          Bool.false_eq_true,↓reduceIte,List.append_nil,lastSame]
        exact told
    | true =>
      obtain ⟨command,taken,named⟩ := answered_branch answers
      obtain ⟨reply,_,_,same,executed,replied⟩ := processMessage_replied taken named processed
      refine ⟨replies ++ [reply],?_,?_⟩
      · simp only [Connection.write,Connection.take,sent,same,List.nil_append,List.cons_append]
      · simp only [Connection.write,Connection.take,List.filter_append,List.filter_cons,List.filter_nil,answers,
          ↓reduceIte]
        exact .snoc told turn taken executed replied

end WireServer

/-- In every reachable state a client in its main loop has been sent HELO and then, in the order of the commands that
were read from it, one reply for each that its server answers: what the branch of the command sends at that turn.
A STATUS_REPLY lists the locos that have changed since the status replies before it. -/
theorem replies_in_order {β : Type} (hardware : Hardware β) (lokdef : List Lokdef) (device : β) (bt : Bool)
    (labels : List WireLabel) (build : ∀ clientID w, .turn clientID w ∈ labels → w.bt.isSome = bt) (c : Connection)
    (opened : c ∈ (WireServer.run hardware (WireServer.start lokdef device) labels).connections)
    (lastStatus : List LastStatus) (changedAddrIndex : List Bool)
    (running : (WireServer.run hardware (WireServer.start lokdef device) labels).server.phaseOf c.clientID =
      some (.running lastStatus changedAddrIndex)) :
    ∃ replies, c.replies = helo :: replies ∧
      Exchanged hardware (WireServer.Turned hardware lokdef device labels c.clientID) (initialStatus lokdef)
        (c.commands.filter (isAnswered bt)) replies lastStatus := by
  have standing := ((WireServer.serves_standing hardware lokdef bt
    (WireServer.Turned hardware lokdef device labels)).run device labels (fun front clientID w within =>
      ⟨⟨front,within,rfl⟩,build clientID w (within.subset (by simp))⟩)).standing c opened
  rw [running] at standing
  exact standing

theorem replies_in_order_ping : ∃ c ∈ pinged.connections, ∃ lastStatus replies, c.replies = helo :: replies ∧
    Exchanged (SRCP_Hardware okSrcpd) (WireServer.Turned (SRCP_Hardware okSrcpd) twoLocos {}
      [.accept [[1, 0, 0], [0, 7]], .turn 1 online, .turn 1 online] c.clientID)
      (initialStatus twoLocos) (c.commands.filter (isAnswered false)) replies lastStatus := by
  obtain ⟨c,there,id,_⟩ := pinged_connection
  let sent : LastStatus := { currspeed := 0, func := 1, dir := 1 }
  have phase : pinged.server.phaseOf 1 = some (.running [sent, sent, {}] [false, false, false]) := by
    decide +kernel
  have build : ∀ clientID w, .turn clientID w ∈ [WireLabel.accept [[1, 0, 0], [0, 7]], .turn 1 online, .turn 1 online] →
      w.bt.isSome = false := by
    intro clientID w member
    simp only [List.mem_cons,reduceCtorEq,WireLabel.turn.injEq,List.not_mem_nil,or_false,false_or,or_self] at member
    rw [member.2]
    rfl
  exact ⟨c,there,_,replies_in_order (SRCP_Hardware okSrcpd) twoLocos {} false _ build c there _ _ (by rw [id]; exact phase)⟩

end Btcontrol
