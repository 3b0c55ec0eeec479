import Btcontrol.Marks

/-! Servers with one loco, as every board that drives its motor itself has. What a message
does then is one of four things: the backend is called for the loco, the message is cut
short between the table and the backend, the power is switched, or nothing happens. -/
namespace Btcontrol

open Exec ClientThread

/-- The table holds the loco `l` and its end. -/
structure OneLoco (lokdef : List Lokdef) (l : Lokdef) : Prop where
  one : nLokdef lokdef = 1
  record : lokdef[0]? = some l

theorem OneLoco.first {lokdef : List Lokdef} {l : Lokdef} (one : OneLoco lokdef l) {i : Nat}
    (bound : i < nLokdef lokdef) : i = 0 := by
  have := one.one
  omega

theorem OneLoco.write {lokdef : List Lokdef} {l : Lokdef} (one : OneLoco lokdef l) (l' : Lokdef)
    (addr : l'.addr = l.addr) : OneLoco (lokdef.set 0 l') l' := by
  cases lokdef with
  | nil => cases one.record
  | cons first rest =>
    have same : first = l := Option.some.inj one.record
    subst same
    have one := one.one
    simp only [nLokdef] at one
    exact ⟨by simpa only [List.set_cons_zero,nLokdef,addr] using one,rfl⟩

theorem OneLoco.modify {lokdef : List Lokdef} {l : Lokdef} (one : OneLoco lokdef l) (f : Lokdef → Lokdef) :
    lokdef.modify 0 f = lokdef.set 0 (f l) := by
  cases lokdef with
  | nil => rfl
  | cons first rest =>
    have same : first = l := Option.some.inj one.record
    subst same
    rfl

/-- What a command makes of the loco, where it writes it: the record, and whether the backend
gets an emergency stop. -/
def ordered (w : World) (cmd : FBTCtlMessage) (lokdef : List Lokdef) (l : Lokdef) (command : Command) :
    Option (Lokdef × Bool) :=
  if command = .SETFUNC then
    match requested cmd lokdef with
    | .ok (_, funcNr, value) => some (setFunc funcNr value l, false)
    | .error _ => none
  else
    match plan w cmd lokdef command with
    | some p => if p.named = [] then none else some (p.write.apply l, p.emergencyStop)
    | none => none

/-- Nothing stops a command between the table and the backend: no element of its list, and
not the connection. -/
def Completes (w : World) (cmd : FBTCtlMessage) (lokdef : List Lokdef) (command : Command) : Prop :=
  w.connected = true ∧ ∀ p, plan w cmd lokdef command = some p → p.error = none

theorem setFunc_addr (funcNr value : Int) (l : Lokdef) : (setFunc funcNr value l).addr = l.addr := by
  simp only [setFunc]
  split <;> rfl

theorem ordered_addr {w : World} {cmd : FBTCtlMessage} {lokdef : List Lokdef} {l l' : Lokdef} {command : Command}
    {emergencyStop : Bool} (order : ordered w cmd lokdef l command = some (l', emergencyStop)) :
    l'.addr = l.addr := by
  simp only [ordered] at order
  split at order
  · split at order
    · cases order
      exact setFunc_addr _ _ l
    · cases order
  · split at order
    · split at order
      · cases order
      · cases order
        exact Write.apply_addr _ l
    · cases order

theorem ordered_emergency {w : World} {cmd : FBTCtlMessage} {lokdef : List Lokdef} {l l' : Lokdef} {command : Command}
    (order : ordered w cmd lokdef l command = some (l', true)) : l'.currspeed = 0 := by
  simp only [ordered] at order
  split at order
  · split at order
    · simp at order
    · cases order
  · split at order
    · rename_i p planned
      split at order
      · cases order
      · simp only [Option.some.injEq,Prod.mk.injEq] at order
        rw [← order.1,plan_emergency planned order.2]
        rfl
    · cases order

/-- A plan for one loco writes it or nothing. -/
theorem writeAll_one {lokdef : List Lokdef} {l : Lokdef} (one : OneLoco lokdef l) (write : Write)
    (named : List Nat) (first : ∀ i ∈ named, i = 0) (some : named ≠ []) :
    writeAll write.apply named lokdef = lokdef.set 0 (write.apply l) := by
  rw [← one.modify write.apply]
  apply List.ext_getElem?
  intro i
  rw [writeAll_getElem?,List.getElem?_modify]
  by_cases zero : i = 0
  · subst zero
    obtain ⟨j,member⟩ := List.exists_mem_of_ne_nil named some
    have named0 : 0 ∈ named := first j member ▸ member
    simp [named0]
  · have absent : i ∉ named := fun member => zero (first i member)
    simp [absent,Ne.symm zero]

section

variable {β : Type}

/-- The marks after a command on the loco. -/
def MarkedFirst (changedAddrIndex changedAddrIndex' : List Bool) : Prop :=
  changedAddrIndex'.length = changedAddrIndex.length ∧
    ∀ i : Nat, changedAddrIndex'[i]? = some true ↔
      (i = 0 ∧ 0 < changedAddrIndex.length) ∨ changedAddrIndex[i]? = some true

theorem markedFirst_markAll (named : List Nat) (first : ∀ i ∈ named, i = 0) (some : named ≠ [])
    (changedAddrIndex : List Bool) : MarkedFirst changedAddrIndex (markAll named changedAddrIndex) := by
  refine ⟨markAll_length named changedAddrIndex,?_⟩
  intro i
  obtain ⟨j,member⟩ := List.exists_mem_of_ne_nil named some
  have named0 : 0 ∈ named := first j member ▸ member
  rw [markAll_marked]
  constructor
  · rintro (⟨member,bound⟩ | before)
    · have zero := first i member
      exact .inl ⟨zero,zero ▸ bound⟩
    · exact .inr before
  · rintro (⟨rfl,bound⟩ | before)
    · exact .inl ⟨named0,bound⟩
    · exact .inr before

/-- A command that writes the loco: the table is written in any case, and only a command
that nothing stops marks the loco and returns. -/
structure Wrote (w : World) (cmd : FBTCtlMessage) (command : Command) (c : Ctx β) (l' : Lokdef)
    (emergencyStop : Bool) (r : EStateM.Result Err (Ctx β) Bool) : Prop where
  globals : (final r).globals = { c.globals with lokdef := c.lokdef.set 0 l' }
  through : Completes w cmd c.lokdef command →
    ∃ c', r = .ok emergencyStop c' ∧ MarkedFirst c.changedAddrIndex c'.changedAddrIndex
  short : ¬Completes w cmd c.lokdef command → ∃ e c', r = .error e c'

theorem SETFUNC_wrote (w : World) (cmd : FBTCtlMessage) (c : Ctx β) (l : Lokdef) (one : OneLoco c.lokdef l)
    (i : Nat) (funcNr value : Int) (asked : requested cmd c.lokdef = .ok (i, funcNr, value)) :
    Wrote w cmd .SETFUNC c (setFunc funcNr value l) false (SETFUNC w cmd c) := by
  have zero : i = 0 := one.first (located_record (requested_located asked)).1
  subst zero
  rw [SETFUNC_apply]
  simp only [asked,bind_apply,setLoko_apply,one.modify]
  cases connected : w.connected with
  | true =>
    simp only [sendStatusReply_sent w connected,mark_apply,pure_apply]
    refine ⟨rfl,fun _ => ⟨_,rfl,markedFirst_markAll [0] (by simp) (by simp) _⟩,?_⟩
    intro short
    exact absurd ⟨connected,fun p planned => by cases planned⟩ short
  | false =>
    simp only [sendStatusReply_closed w connected]
    refine ⟨rfl,?_,fun _ => ⟨_,_,rfl⟩⟩
    intro completes
    rw [completes.1] at connected
    cases connected

variable (hardware : Hardware β)

theorem execute_wrote (w : World) (cmd : FBTCtlMessage) (command : Command) (c : Ctx β) (l l' : Lokdef)
    (emergencyStop : Bool) (one : OneLoco c.lokdef l)
    (order : ordered w cmd c.lokdef l command = some (l', emergencyStop)) :
    Wrote w cmd command c l' emergencyStop (execute hardware w cmd (some command) c) := by
  simp only [ordered] at order
  by_cases func : command = .SETFUNC
  · subst func
    cases asked : requested cmd c.lokdef with
    | error e => simp [asked] at order
    | ok request =>
      obtain ⟨i,funcNr,value⟩ := request
      simp only [asked,↓reduceIte,Option.some.injEq,Prod.mk.injEq] at order
      obtain ⟨rfl,rfl⟩ := order
      exact SETFUNC_wrote w cmd c l one i funcNr value asked
  · cases planned : plan w cmd c.lokdef command with
    | none => simp [func,planned] at order
    | some p =>
      by_cases none : p.named = []
      · simp [func,planned,none] at order
      simp only [func,planned,none,↓reduceIte,Option.some.injEq,Prod.mk.injEq] at order
      obtain ⟨rfl,rfl⟩ := order
      have first : ∀ i ∈ p.named, i = 0 := fun i member =>
        one.first (plan_first w cmd c.lokdef command p planned i member).1
      have driven := execute_driven hardware w cmd command c p planned
      refine ⟨by rw [driven.globals,writeAll_one one p.write p.named first none],?_,?_⟩
      · rintro ⟨connected,fine⟩
        rcases driven.outcome with ⟨e,_,error,_⟩ | ⟨_,closed,_⟩ | ⟨_,_,c',returned,marks⟩
        · rw [fine p planned] at error; cases error
        · rw [connected] at closed; cases closed
        · exact ⟨c',returned,marks ▸ markedFirst_markAll p.named first none _⟩
      · intro short
        rcases driven.outcome with ⟨e,c',_,thrown⟩ | ⟨_,_,c',thrown⟩ | ⟨fine,connected,_⟩
        · exact ⟨e,c',thrown⟩
        · exact ⟨_,c',thrown⟩
        · refine absurd ⟨connected,?_⟩ short
          intro q again
          rw [planned] at again
          cases again
          exact fine

/-- A command that does not write the loco, and is not `POWER`. -/
theorem execute_unordered {device : β → β → Prop} (respects : Respects hardware device) (w : World)
    (cmd : FBTCtlMessage) (command : Option Command) (c : Ctx β) (l : Lokdef)
    (order : command.bind (ordered w cmd c.lokdef l) = none) (noPower : command ≠ some .POWER) :
    Leaves device c.globals (final (execute hardware w cmd command c)).globals ∧
      ∀ emergencyStop c', execute hardware w cmd command c = .ok emergencyStop c' →
        c'.changedAddrIndex = c.changedAddrIndex := by
  have same := (leaves_closed respects.closed).refl c.globals
  cases planned : command.bind (plan w cmd c.lokdef) with
  | none =>
    by_cases func : command = some .SETFUNC
    · subst func
      cases asked : requested cmd c.lokdef with
      | error e =>
        have thrown : execute hardware w cmd (some .SETFUNC) c = .error e c := by
          show SETFUNC w cmd c = _
          rw [SETFUNC_apply,asked]
        rw [thrown]
        exact ⟨same,fun _ _ returned => by cases returned⟩
      | ok request => simp [ordered,asked] at order
    · have still := execute_still respects w cmd c.lokdef command planned func (fun is => absurd is noPower) c
      refine ⟨still.globals,?_⟩
      intro emergencyStop c' returned
      rw [returned] at still
      exact still.marks
  | some p =>
    obtain ⟨name,rfl,drives⟩ := Option.bind_eq_some_iff.mp planned
    have noFunc : name ≠ .SETFUNC := by rintro rfl; cases drives
    have none : p.named = [] := by
      by_contra written
      simp only [Option.bind_some,ordered,noFunc,↓reduceIte] at order
      rw [drives] at order
      simp [written] at order
    have driven := execute_driven hardware w cmd name c p drives
    refine ⟨?_,?_⟩
    · rw [driven.globals,none]
      exact same
    · intro emergencyStop c' returned
      rcases driven.outcome with ⟨_,_,_,thrown⟩ | ⟨_,_,_,thrown⟩ | ⟨_,_,c1,fine,marks⟩
      · rw [returned] at thrown; cases thrown
      · rw [returned] at thrown; cases thrown
      · rw [returned] at fine
        cases fine
        rw [marks,none]
        rfl

/-- Without a mark the hardware loop does nothing. -/
theorem hardwareLoop_unmarked (clientID : Int) (indices : List Nat) (emergencyStop : Bool) (c : Ctx β)
    (unmarked : ∀ i ∈ indices, c.changedAddrIndex[i]? ≠ some true) :
    hardwareLoop hardware clientID indices emergencyStop c = .ok () c := by
  induction indices with
  | nil => rfl
  | cons i rest ih =>
    have clear : ¬c.changedAddrIndex[i]?.getD false = true :=
      fun changed => unmarked i List.mem_cons_self (marked_of_changed changed)
    rw [hardwareLoop,bind_apply,get_apply]
    simp only [clear,Bool.false_eq_true,↓reduceIte]
    exact ih (fun j member => unmarked j (List.mem_cons_of_mem i member))

/-- With the loco marked it is the one call for it. -/
theorem hardwareLoop_first (clientID : Int) (emergencyStop : Bool) (c : Ctx β) (changedAddrIndex : List Bool)
    (unmarked : Unmarked changedAddrIndex) (slots : changedAddrIndex.length = 2)
    (marked : MarkedFirst changedAddrIndex c.changedAddrIndex) :
    (final (hardwareLoop hardware clientID (List.range c.changedAddrIndex.length) emergencyStop c)).globals =
      final (hardware.sendLoco clientID 0 emergencyStop { c.globals with
        lokdef := c.lokdef.modify 0 (fun l => { l with lastClientID := clientID }) }) := by
  have first : c.changedAddrIndex[0]? = some true := (marked.2 0).mpr (.inl ⟨rfl,by omega⟩)
  have second : c.changedAddrIndex[1]? ≠ some true := by
    intro flag
    rcases (marked.2 1).mp flag with ⟨zero,_⟩ | before
    · cases zero
    · exact unmarked 1 before
  have two : List.range c.changedAddrIndex.length = [0, 1] := by rw [marked.1,slots]; rfl
  rw [two,hardwareLoop,bind_apply,get_apply]
  simp only [first,Option.getD_some,↓reduceIte]
  have marks := (sendLoco_marks hardware clientID 0 emergencyStop c).1
  have called : (final (ClientThread.sendLoco hardware clientID 0 emergencyStop c)).globals =
      final (hardware.sendLoco clientID 0 emergencyStop { c.globals with
        lokdef := c.lokdef.modify 0 (fun l => { l with lastClientID := clientID }) }) := by
    simp only [ClientThread.sendLoco,bind_apply,modify_apply,setLoko_apply,onGlobals,final_focus]
  rw [bind_apply]
  cases sent : ClientThread.sendLoco hardware clientID 0 emergencyStop c with
  | error e c' =>
    rw [sent] at called
    exact called
  | ok _ c' =>
    rw [sent,final_ok] at called marks
    simp only []
    rw [hardwareLoop_unmarked]
    · exact called
    · intro i member
      rw [List.mem_singleton] at member
      subst member
      rw [marks,List.getElem?_set_ne (by decide)]
      exact second

inductive Told (device : β → β → Prop) (clientID : Int) (w : World) (cmd : FBTCtlMessage) (g : Globals β)
    (l : Lokdef) (g' : Globals β) : Prop where
  | called (command : Command) (l' : Lokdef) (emergencyStop : Bool)
      (branch : commandOf w cmd = .ok (some command))
      (order : ordered w cmd g.lokdef l command = some (l', emergencyStop))
      (through : Completes w cmd g.lokdef command)
      (sent : g' = final (hardware.sendLoco clientID 0 emergencyStop
        { g with lokdef := g.lokdef.set 0 { l' with lastClientID := clientID } }))
  | cut (command : Command) (l' : Lokdef) (emergencyStop : Bool)
      (branch : commandOf w cmd = .ok (some command))
      (order : ordered w cmd g.lokdef l command = some (l', emergencyStop))
      (short : ¬Completes w cmd g.lokdef command)
      (written : g' = { g with lokdef := g.lokdef.set 0 l' })
  | power (value : Int) (branch : commandOf w cmd = .ok (some .POWER))
      (switched : g' = final (setPower hardware value g))
  | still (unordered : ∀ command, commandOf w cmd = .ok (some command) → ordered w cmd g.lokdef l command = none)
      (leaves : Leaves device g g')

theorem POWER_globals (w : World) (cmd : FBTCtlMessage) (c : Ctx β) :
    (final (POWER hardware w cmd c)).globals = c.globals ∨
      ∃ value, (final (POWER hardware w cmd c)).globals = final (setPower hardware value c.globals) := by
  simp only [POWER,bind_apply]
  cases getInt cmd "value" with
  | error e => exact .inl rfl
  | ok value =>
    refine .inr ⟨value,?_⟩
    simp only [lift_ok]
    have switched : (final (onGlobals (setPower hardware value) c)).globals =
        final (setPower hardware value c.globals) := by rw [onGlobals,final_focus]
    cases outcome : onGlobals (setPower hardware value) c with
    | error e c' =>
      rw [outcome] at switched
      exact switched
    | ok _ c' =>
      rw [outcome,final_ok] at switched
      simp only [get_apply]
      rw [(sendValue_still closed_eq w _ _ c').globals,switched]

/-- A command that leaves no mark is the whole message. -/
theorem processMessage_clear (clientID : Int) (w : World) (cmd : FBTCtlMessage) (command : Option Command)
    (c : Ctx β) (branch : commandOf w cmd = .ok command)
    (clear : ∀ emergencyStop c', execute hardware w cmd command c = .ok emergencyStop c' →
      Unmarked c'.changedAddrIndex) :
    (final (processMessage hardware clientID w cmd c)).globals =
      (final (execute hardware w cmd command c)).globals := by
  simp only [processMessage,bind_apply,branch,lift_ok]
  cases outcome : execute hardware w cmd command c with
  | error e c' => rfl
  | ok emergencyStop c' =>
    simp only [get_apply]
    rw [hardwareLoop_unmarked hardware clientID _ emergencyStop c' (fun i _ => clear emergencyStop c' outcome i)]
    rfl

/-- A message to a server with one loco. -/
theorem processMessage_told {device : β → β → Prop} (respects : Respects hardware device) (clientID : Int)
    (w : World) (cmd : FBTCtlMessage) (c : Ctx β) (l : Lokdef) (one : OneLoco c.lokdef l)
    (unmarked : Unmarked c.changedAddrIndex) (slots : c.changedAddrIndex.length = nLokdef c.lokdef + 1) :
    Told hardware device clientID w cmd c.globals l
      (final (processMessage hardware clientID w cmd c)).globals := by
  have two : c.changedAddrIndex.length = 2 := by rw [slots,one.one]
  cases branch : commandOf w cmd with
  | error e =>
    rw [processMessage,bind_apply,branch]
    refine .still (fun command found => ?_) ((leaves_closed respects.closed).refl _)
    rw [branch] at found
    cases found
  | ok command =>
    by_cases power : command = some .POWER
    · subst power
      rw [processMessage_clear hardware clientID w cmd (some .POWER) c branch]
      · show Told hardware device clientID w cmd c.globals l (final (POWER hardware w cmd c)).globals
        rcases POWER_globals hardware w cmd c with same | ⟨value,switched⟩
        · rw [same]
          refine .still (fun command found => ?_) ((leaves_closed respects.closed).refl _)
          rw [branch] at found
          cases found
          rfl
        · exact .power value branch switched
      · intro emergencyStop c' returned
        have marks := (POWER_effect hardware w cmd c).marks
        rw [show POWER hardware w cmd c = .ok emergencyStop c' from returned] at marks
        exact fun i => marks ▸ unmarked i
    cases order : command.bind (ordered w cmd c.lokdef l) with
    | none =>
      obtain ⟨leaves,marks⟩ := execute_unordered hardware respects w cmd command c l order power
      rw [processMessage_clear hardware clientID w cmd command c branch]
      · refine .still (fun name found => ?_) leaves
        rw [branch] at found
        cases found
        exact order
      · intro emergencyStop c' returned i
        rw [marks emergencyStop c' returned]
        exact unmarked i
    | some pair =>
      obtain ⟨l',emergencyStop⟩ := pair
      obtain ⟨name,rfl,written⟩ := Option.bind_eq_some_iff.mp order
      have wrote := execute_wrote hardware w cmd name c l l' emergencyStop one written
      have globals := wrote.globals
      simp only [processMessage,bind_apply,branch,lift_ok]
      by_cases completes : Completes w cmd c.lokdef name
      · obtain ⟨c',returned,marked⟩ := wrote.through completes
        rw [returned,final_ok] at globals
        refine .called name l' emergencyStop branch written completes ?_
        simp only [returned,get_apply]
        rw [hardwareLoop_first hardware clientID emergencyStop c' c.changedAddrIndex unmarked two marked,
          Ctx.lokdef,globals]
        have next := one.write l' (ordered_addr written)
        simp only [next.modify,List.set_set]
      · obtain ⟨e,c',thrown⟩ := wrote.short completes
        rw [thrown] at globals
        refine .cut name l' emergencyStop branch written completes ?_
        rw [thrown]
        exact globals

/-- A message that comes to its end was not cut short. -/
theorem completes_of_returned {clientID : Int} {w : World} {cmd : FBTCtlMessage} {c c' : Ctx β} {command : Command}
    {l l' : Lokdef} {emergencyStop : Bool} (one : OneLoco c.lokdef l)
    (branch : commandOf w cmd = .ok (some command))
    (order : ordered w cmd c.lokdef l command = some (l', emergencyStop))
    (returned : processMessage hardware clientID w cmd c = .ok () c') : Completes w cmd c.lokdef command := by
  by_contra short
  obtain ⟨e,c1,thrown⟩ := (execute_wrote hardware w cmd command c l l' emergencyStop one order).short short
  simp only [processMessage,bind_apply,branch,lift_ok,thrown] at returned
  cases returned

/-- What one step of a server with one loco comes to. -/
inductive OneStep (device : β → β → Prop) (s : Server β) (label : Label) (l : Lokdef) (g' : Globals β) : Prop where
  | idle (leaves : Leaves device s.globals g')
  | told (clientID : Int) (w : World) (cmd : FBTCtlMessage) (turn : Turn s label clientID w cmd)
      (told : Told hardware device clientID w cmd s.globals l g')
  | destroyed (clientID : Int) (last : Bool) (goes : label = .destroy clientID)
      (left : s.phaseOf clientID = some .left) (live : s.halted = false)
      (stopped : g' = final (Server.destructor hardware clientID last s.globals))

theorem step_one {device : β → β → Prop} (respects : Respects hardware device)
    (connected : Moves device hardware.clientConnected) (s : Server β) (label : Label) (l : Lokdef)
    (one : OneLoco s.lokdef l) (ready : s.Ready) :
    OneStep hardware device s label l (Server.step hardware s label).globals := by
  have same : Leaves device s.globals s.globals := (leaves_closed respects.closed).refl _
  by_cases halted : s.halted = true
  · rw [Server.step_halted hardware s label halted]
    exact .idle same
  have live : s.halted = false := Bool.eq_false_iff.mpr halted
  cases label <;> simp only [Server.step,live,Bool.false_eq_true,↓reduceIte]
  case accept => exact .idle same
  case readFails clientID => split <;> exact .idle same
  case helo clientID w =>
    split
    · have leaves := (sendHelo_leaves hardware respects.closed connected w (s.context [] [])).globals
      cases sent : sendHelo hardware w (s.context [] []) with
      | ok _ c => rw [sent] at leaves; exact .idle leaves
      | error e c => rw [sent] at leaves; exact .idle leaves
    · exact .idle same
  case message clientID w cmd =>
    split
    · rename_i lastStatus changedAddrIndex phase
      obtain ⟨unmarked,slots⟩ := ready.running phase
      have told := processMessage_told hardware respects clientID w cmd
        (s.context lastStatus changedAddrIndex) l one unmarked slots
      have turn : Turn s (.message clientID w cmd) clientID w cmd := ⟨rfl,⟨_,_,phase⟩,live⟩
      cases processed : processMessage hardware clientID w cmd (s.context lastStatus changedAddrIndex) with
      | ok _ c => rw [processed] at told; exact .told clientID w cmd turn told
      | error e c => rw [processed] at told; exact .told clientID w cmd turn told
    · exact .idle same
  case destroy clientID =>
    split
    · rename_i left
      exact .destroyed clientID _ rfl left live rfl
    · exact .idle same

end

/-- A table of one loco stays one. -/
theorem run_oneLoco {β : Type} (hardware : Hardware β) (s : Server β) (one : nLokdef s.lokdef = 1)
    (labels : List Label) : ∃ l, OneLoco (Server.run hardware s labels).lokdef l := by
  have step : ∀ (s : Server β) label, nLokdef s.lokdef = 1 → nLokdef (Server.step hardware s label).lokdef = 1 := by
    intro s label one
    rw [nLokdef_congr (Server.step_addrs hardware s label)]
    exact one
  have kept : nLokdef (Server.run hardware s labels).lokdef = 1 := Transition.run_always step labels s one
  have short := nLokdef_le (Server.run hardware s labels).lokdef
  exact ⟨_,kept,List.getElem?_eq_getElem (by omega)⟩

/-- No element of the command's list and no lost connection stops it. -/
def completes (w : World) (cmd : FBTCtlMessage) (lokdef : List Lokdef) (command : Command) : Bool :=
  w.connected && ((plan w cmd lokdef command).all (fun p => p.error.isNone))

theorem completes_iff (w : World) (cmd : FBTCtlMessage) (lokdef : List Lokdef) (command : Command) :
    completes w cmd lokdef command = true ↔ Completes w cmd lokdef command := by
  simp only [completes,Completes,Bool.and_eq_true]
  cases plan w cmd lokdef command <;> simp

instance (w : World) (cmd : FBTCtlMessage) (lokdef : List Lokdef) (command : Command) :
    Decidable (Completes w cmd lokdef command) :=
  decidable_of_iff _ (completes_iff w cmd lokdef command)

/-! A table to look at. -/

def oneLocoCsv : Str := str "3,F_DEFAULT,lok3,,0\n"

theorem headlight_fits : (1 : Int) ≤ MAX_NFUNC := by
  decide

def oneLocoTable : List Lokdef :=
  [{ addr := 3, name := str "lok3", nFunc := 1, func := headlight, currdir := 1
     nFunc_le := headlight_fits }, Lokdef.zeroed]

theorem readLokdef_oneLoco : readLokdef oneLocoCsv = .ok oneLocoTable := rfl

end Btcontrol
