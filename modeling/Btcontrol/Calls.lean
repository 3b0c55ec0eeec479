import Btcontrol.Replies

/-! Which locos a drive command hands to the backend. The commands mark by index while their
lists are in any order and may repeat; the loop over `changedAddrIndex` goes through the table. -/
namespace Btcontrol

open Exec ClientThread

/-- The commands with a list of locos. -/
def Command.Multi (command : Command) : Prop :=
  command = .ACC_MULTI ∨ command = .BREAK_MULTI ∨ command = .DIR_MULTI ∨ command = .STOP_MULTI

/-- The commands with one loco that change something. -/
def Command.Single (command : Command) : Prop :=
  command = .ACC ∨ command = .BREAK ∨ command = .DIR ∨ command = .STOP ∨ command = .SETFUNC

/-- Loco `i` is named: the address in `addr`, or one of those in `list`, is looked up to it. -/
def Named (cmd : FBTCtlMessage) (lokdef : List Lokdef) (command : Command) (i : Nat) : Prop :=
  command.Single ∧ located lokdef (getInt cmd "addr") = .ok i ∨
  command.Multi ∧ ∃ n k, arraySize cmd = .ok n ∧ k < n ∧ located lokdef (addrAt cmd k) = .ok i

section

variable {β : Type} (hardware : Hardware β) (clientID : Int)

/-- `hardware->sendLoco` called for one loco after the other, each noted as the client's before. -/
inductive Calls : Globals β → List (Nat × Bool) → Globals β → Prop where
  | done (g : Globals β) : Calls g [] g
  | call {g g1 g2 : Globals β} {i : Nat} {emergencyStop : Bool} {rest : List (Nat × Bool)}
      (ran : hardware.sendLoco clientID i emergencyStop
        { g with lokdef := g.lokdef.modify i (fun l => { l with lastClientID := clientID }) } = .ok () g1)
      (more : Calls g1 rest g2) : Calls g ((i, emergencyStop) :: rest) g2

/-- A record that no call is for and that the backend leaves alone. -/
theorem Calls.frame {g g' : Globals β} {calls : List (Nat × Bool)} (made : Calls hardware clientID g calls g')
    {i : Nat} (other : i ∉ calls.map Prod.fst)
    (kept : ∀ j emergencyStop g g', hardware.sendLoco clientID j emergencyStop g = .ok () g' →
      g'.lokdef[i]? = g.lokdef[i]?) : g'.lokdef[i]? = g.lokdef[i]? := by
  induction made with
  | done g => rfl
  | @call g g1 g2 j emergencyStop rest ran more ih =>
    simp only [List.map_cons,List.mem_cons,not_or] at other
    rw [ih other.2,kept j emergencyStop _ g1 ran]
    exact List.getElem?_modify_ne _ _ (Ne.symm other.1)

/-- One call of the loop. -/
theorem sendLoco_returned {i : Nat} {emergencyStop : Bool} {c c' : Ctx β}
    (returned : ClientThread.sendLoco hardware clientID i emergencyStop c = .ok () c') :
    c'.sent = c.sent ∧ c'.sendLocos = c.sendLocos ++ [(i, emergencyStop)] ∧
    c'.changedAddrIndex = c.changedAddrIndex.set i false ∧
    hardware.sendLoco clientID i emergencyStop { c.globals with
      lokdef := c.lokdef.modify i (fun l => { l with lastClientID := clientID }) } = .ok () c'.globals := by
  simp only [ClientThread.sendLoco,bind_apply,modify_apply,setLoko_apply,onGlobals,focus] at returned
  split at returned
  · rename_i ran
    cases returned
    exact ⟨rfl,rfl,rfl,ran⟩
  · cases returned

/-- The loop calls the backend for exactly the marked locos, in its own order. -/
theorem hardwareLoop_returned {indices : List Nat} (distinct : indices.Nodup) {emergencyStop : Bool}
    {c c' : Ctx β} (returned : hardwareLoop hardware clientID indices emergencyStop c = .ok () c') :
    ∃ calls, c'.sendLocos = c.sendLocos ++ calls ∧ c'.sent = c.sent ∧
      calls.map Prod.fst = indices.filter (fun i => c.changedAddrIndex[i]?.getD false) ∧
      Calls hardware clientID c.globals calls c'.globals := by
  induction indices generalizing emergencyStop c with
  | nil =>
    cases returned
    exact ⟨[],by simp,rfl,rfl,.done _⟩
  | cons first rest ih =>
    rw [List.nodup_cons] at distinct
    rw [hardwareLoop,bind_apply,get_apply] at returned
    by_cases changed : c.changedAddrIndex[first]?.getD false = true
    · simp only [changed,↓reduceIte] at returned
      obtain ⟨_,c1,sent,later⟩ := returned_of_bind returned
      obtain ⟨silent,recorded,marks,ran⟩ := sendLoco_returned hardware clientID sent
      obtain ⟨calls,more,same,order,made⟩ := ih distinct.2 later
      refine ⟨(first, emergencyStop) :: calls,?_,same.trans silent,?_,.call ran made⟩
      · rw [more,recorded,List.append_assoc]
        rfl
      · -- the mark that was taken stands behind the loop
        have others : rest.filter (fun i => c1.changedAddrIndex[i]?.getD false) =
            rest.filter (fun i => c.changedAddrIndex[i]?.getD false) := by
          apply List.filter_congr
          intro i member
          have apart : first ≠ i := by
            rintro rfl
            exact distinct.1 member
          rw [marks,List.getElem?_set_ne apart]
        rw [List.map_cons,order,others,List.filter_cons,if_pos changed]
    · simp only [changed,Bool.false_eq_true,↓reduceIte] at returned
      obtain ⟨calls,more,same,order,made⟩ := ih distinct.2 returned
      exact ⟨calls,more,same,by rw [order,List.filter_cons,if_neg changed],made⟩

end

/-! ### The locos of a command -/

theorem named_single {cmd : FBTCtlMessage} {lokdef : List Lokdef} {command : Command} (single : command.Single)
    (i : Nat) : Named cmd lokdef command i ↔ located lokdef (getInt cmd "addr") = .ok i := by
  constructor
  · rintro (⟨_,found⟩ | ⟨multi,_⟩)
    · exact found
    · rcases single with rfl | rfl | rfl | rfl | rfl <;> simp [Command.Multi] at multi
  · intro found
    exact .inl ⟨single,found⟩

theorem named_multi {cmd : FBTCtlMessage} {lokdef : List Lokdef} {command : Command} (multi : command.Multi)
    {n : Nat} (size : arraySize cmd = .ok n) (i : Nat) :
    Named cmd lokdef command i ↔ ∃ k ∈ List.range n, located lokdef (addrAt cmd k) = .ok i := by
  constructor
  · rintro (⟨single,_⟩ | ⟨_,m,k,same,inside,found⟩)
    · rcases multi with rfl | rfl | rfl | rfl <;> simp [Command.Single] at single
    · rw [size] at same
      cases same
      exact ⟨k,List.mem_range.mpr inside,found⟩
  · rintro ⟨k,member,found⟩
    exact .inr ⟨multi,n,k,size,List.mem_range.mp member,found⟩

/-- A list that resolves as a whole. -/
theorem resolve_members {cmd : FBTCtlMessage} {lokdef : List Lokdef} {indices : List Nat}
    (whole : (resolve cmd lokdef indices).2 = none) (i : Nat) :
    i ∈ (resolve cmd lokdef indices).1 ↔ ∃ k ∈ indices, located lokdef (addrAt cmd k) = .ok i := by
  induction indices with
  | nil => simp [resolve]
  | cons k rest ih =>
    simp only [resolve] at whole ⊢
    cases here : located lokdef (addrAt cmd k) with
    | error e =>
      rw [here] at whole
      cases whole
    | ok addr_index =>
      rw [here] at whole
      simp only [List.mem_cons,ih whole,exists_eq_or_imp,here,Except.ok.injEq,eq_comm (a := i)]

/-- `cmd["list"][0]` of an empty list is a new STRUCT, without an address. -/
theorem addrAt_empty {cmd : FBTCtlMessage} (size : arraySize cmd = .ok 0) :
    addrAt cmd 0 = .error .notInt := by
  obtain ⟨list,found,empty⟩ := ok_of_bind size
  cases list with
  | array arrayVal =>
    simp only [FBTCtlMessage.getArraySize,Except.ok.injEq,List.length_eq_zero_iff] at empty
    subst empty
    rw [addrAt,found]
    rfl
  | _ => cases empty

theorem planOne_named {cmd : FBTCtlMessage} {lokdef : List Lokdef} {speed : Int → Int} {emergencyStop : Bool}
    (fine : (planOne cmd speed emergencyStop lokdef).error = none) (i : Nat) :
    i ∈ (planOne cmd speed emergencyStop lokdef).named ↔ located lokdef (getInt cmd "addr") = .ok i := by
  simp only [planOne] at fine ⊢
  cases found : located lokdef (getInt cmd "addr") with
  | error e =>
    rw [found] at fine
    cases fine
  | ok addr_index => simp [eq_comm]

theorem planMulti_named {cmd : FBTCtlMessage} {lokdef : List Lokdef} {speed : Int → Int} {n : Nat}
    (size : arraySize cmd = .ok n) (fine : (planMulti cmd speed lokdef).error = none) (i : Nat) :
    i ∈ (planMulti cmd speed lokdef).named ↔ ∃ k ∈ List.range n, located lokdef (addrAt cmd k) = .ok i := by
  simp only [planMulti,size] at fine ⊢
  cases first : located lokdef (addrAt cmd 0) with
  | error e =>
    rw [first] at fine
    cases fine
  | ok addr_index =>
    rw [first] at fine
    cases n with
    | zero =>
      rw [addrAt_empty size] at first
      cases first
    | succ n =>
      rw [List.mem_cons,resolve_members fine,List.range_eq_range',List.range'_succ,Nat.add_sub_cancel]
      simp only [List.mem_cons,exists_eq_or_imp,first,Except.ok.injEq,eq_comm (a := i),Nat.zero_add]

theorem planDir_named {cmd : FBTCtlMessage} {lokdef : List Lokdef} (fine : (planDir cmd lokdef).error = none)
    (i : Nat) : i ∈ (planDir cmd lokdef).named ↔ located lokdef (getInt cmd "addr") = .ok i := by
  simp only [planDir] at fine ⊢
  cases found : located lokdef (getInt cmd "addr") with
  | error e =>
    rw [found] at fine
    cases fine
  | ok addr_index =>
    cases given : getInt cmd "dir" with
    | error e =>
      rw [found,given] at fine
      cases fine
    | ok dir =>
      rw [found,given] at fine
      simp only at fine ⊢
      split at fine
      · cases fine
      · split at fine
        · cases fine
        · rename_i valid standing
          simp only [valid,standing,↓reduceIte,List.mem_singleton,Except.ok.injEq,eq_comm]

theorem planDirMulti_named {cmd : FBTCtlMessage} {lokdef : List Lokdef} {n : Nat} (size : arraySize cmd = .ok n)
    (fine : (planDirMulti cmd lokdef).error = none) (i : Nat) :
    i ∈ (planDirMulti cmd lokdef).named ↔ ∃ k ∈ List.range n, located lokdef (addrAt cmd k) = .ok i := by
  simp only [planDirMulti,size] at fine ⊢
  cases given : getInt cmd "dir" with
  | error e =>
    rw [given] at fine
    cases fine
  | ok dir =>
    rw [given] at fine
    exact resolve_members fine i

/-- The list of a command that came through. -/
theorem sized {cmd : FBTCtlMessage} {p : Nat → Plan} {q : Plan}
    (fine : q.error = none) (is : q = match arraySize cmd with
      | .error e => failing e
      | .ok n => p n) : ∃ n, arraySize cmd = .ok n := by
  cases size : arraySize cmd with
  | error e =>
    rw [is,size] at fine
    cases fine
  | ok n => exact ⟨n,rfl⟩

/-- A plan without an error writes exactly the named locos. -/
theorem plan_named {w : World} {cmd : FBTCtlMessage} {lokdef : List Lokdef} {command : Command} {p : Plan}
    (planned : plan w cmd lokdef command = some p) (fine : p.error = none) (i : Nat) :
    i ∈ p.named ↔ Named cmd lokdef command i := by
  cases command with
  | ACC =>
    cases planned
    rw [planOne_named fine,named_single (by simp [Command.Single])]
  | BREAK =>
    cases planned
    rw [planOne_named fine,named_single (by simp [Command.Single])]
  | STOP =>
    cases planned
    rw [planOne_named fine,named_single (by simp [Command.Single])]
  | DIR =>
    cases planned
    rw [planDir_named fine,named_single (by simp [Command.Single])]
  | ACC_MULTI =>
    cases planned
    obtain ⟨n,size⟩ := sized fine rfl
    rw [planMulti_named size fine,named_multi (by simp [Command.Multi]) size]
  | BREAK_MULTI =>
    cases planned
    obtain ⟨n,size⟩ := sized fine rfl
    rw [planMulti_named size fine,named_multi (by simp [Command.Multi]) size]
  | DIR_MULTI =>
    cases planned
    obtain ⟨n,size⟩ := sized fine rfl
    rw [planDirMulti_named size fine,named_multi (by simp [Command.Multi]) size]
  | STOP_MULTI =>
    cases planned
    obtain ⟨n,size⟩ := sized fine rfl
    simp only [planStopMulti,size] at fine ⊢
    rw [resolve_members fine,named_multi (by simp [Command.Multi]) size]
  | _ => cases planned

/-! ### A command that completes -/

section

variable {β : Type}

/-- What a command has done when its loop begins. -/
structure Updated (cmd : FBTCtlMessage) (command : Command) (named : List Nat) (c c1 : Ctx β) : Prop where
  members : ∀ i, i ∈ named ↔ Named cmd c.lokdef command i
  marks : c1.changedAddrIndex = markAll named c.changedAddrIndex
  calls : c1.sendLocos = c.sendLocos
  device : c1.globals.device = c.globals.device
  others : ∀ i, ¬Named cmd c.lokdef command i → c1.lokdef[i]? = c.lokdef[i]?

/-- The eight commands with a plan. -/
theorem planned_updated (hardware : Hardware β) {w : World} {cmd : FBTCtlMessage} {command : Command}
    {c c1 : Ctx β} {emergencyStop : Bool} {p : Plan} (planned : plan w cmd c.lokdef command = some p)
    (returned : execute hardware w cmd (some command) c = .ok emergencyStop c1) :
    Updated cmd command p.named c c1 ∧
      c1.lokdef = writeAll p.write.apply p.named c.lokdef := by
  have driven := execute_driven hardware w cmd command c p planned
  rw [returned] at driven
  have table : c1.globals = { c.globals with lokdef := writeAll p.write.apply p.named c.lokdef } := driven.globals
  rcases driven.outcome with ⟨_,_,_,thrown⟩ | ⟨_,_,_,thrown⟩ | ⟨fine,_,c2,same,marks⟩
  · cases thrown
  · cases thrown
  · cases same
    have members := plan_named planned fine
    refine ⟨⟨members,marks,driven.calls,by rw [table],?_⟩,by rw [Ctx.lokdef,table]⟩
    intro i unnamed
    rw [Ctx.lokdef,table,writeAll_getElem?,if_neg (fun member => unnamed ((members i).mp member))]

theorem setfunc_updated {w : World} {cmd : FBTCtlMessage} {c c1 : Ctx β} {emergencyStop : Bool}
    (returned : SETFUNC w cmd c = .ok emergencyStop c1) : ∃ i, Updated cmd .SETFUNC [i] c c1 := by
  rw [SETFUNC_apply] at returned
  cases asked : requested cmd c.lokdef with
  | error e =>
    rw [asked] at returned
    cases returned
  | ok request =>
    obtain ⟨i,funcNr,value⟩ := request
    have members (j : Nat) : j ∈ [i] ↔ Named cmd c.lokdef .SETFUNC j := by
      rw [named_single (by simp [Command.Single]),requested_located asked]
      simp [eq_comm]
    simp only [asked,bind_apply,setLoko_apply] at returned
    cases connected : w.connected with
    | false =>
      rw [sendStatusReply_closed w connected] at returned
      cases returned
    | true =>
      rw [sendStatusReply_sent w connected] at returned
      simp only [mark_apply,pure_apply] at returned
      cases returned
      refine ⟨i,members,rfl,rfl,rfl,?_⟩
      intro j unnamed
      have apart : i ≠ j := by
        rintro rfl
        exact unnamed ((members i).mp List.mem_cons_self)
      exact List.getElem?_modify_ne _ _ apart

theorem execute_updated (hardware : Hardware β) {w : World} {cmd : FBTCtlMessage} {command : Command}
    (drives : command.Single ∨ command.Multi) {c c1 : Ctx β} {emergencyStop : Bool}
    (returned : execute hardware w cmd (some command) c = .ok emergencyStop c1) :
    ∃ named, Updated cmd command named c c1 := by
  cases planned : plan w cmd c.lokdef command with
  | some p => exact ⟨p.named,(planned_updated hardware planned returned).1⟩
  | none =>
    have only : command = .SETFUNC := by
      rcases drives with (rfl | rfl | rfl | rfl | rfl) | (rfl | rfl | rfl | rfl) <;>
        first | rfl | cases planned
    subst only
    obtain ⟨i,updated⟩ := setfunc_updated returned
    exact ⟨[i],updated⟩

/-- A drive command from its start in `c` to its end in `c'`. In `c1` its updates are made and its
reply is sent; from there on the backend alone acts. -/
structure CommandedOnce (hardware : Hardware β) (clientID : Int) (w : World) (cmd : FBTCtlMessage)
    (command : Command) (c c1 c' : Ctx β) : Prop where
  executed : ∃ emergencyStop, execute hardware w cmd (some command) c = .ok emergencyStop c1 ∧
    hardwareLoop hardware clientID (List.range c1.changedAddrIndex.length) emergencyStop c1 = .ok () c'
  replied : replies c1 = replies c + 1
  uncalled : c1.sendLocos = c.sendLocos
  unnamed : ∀ i, ¬Named cmd c.lokdef command i → c1.lokdef[i]? = c.lokdef[i]?
  silent : c'.sent = c1.sent
  /-- In table order, each named loco once and no other. -/
  calls : ∃ calls, c'.sendLocos = c.sendLocos ++ calls ∧ Calls hardware clientID c1.globals calls c'.globals ∧
    (calls.map Prod.fst).Pairwise (· < ·) ∧ ∀ i, i ∈ calls.map Prod.fst ↔ Named cmd c.lokdef command i
  /-- What becomes of the other records is the backend's doing. -/
  kept : ∀ i, ¬Named cmd c.lokdef command i →
    (∀ j emergencyStop g g', hardware.sendLoco clientID j emergencyStop g = .ok () g' →
      g'.lokdef[i]? = g.lokdef[i]?) → c'.lokdef[i]? = c.lokdef[i]?

theorem named_bound {cmd : FBTCtlMessage} {lokdef : List Lokdef} {command : Command} {i : Nat}
    (named : Named cmd lokdef command i) : i < nLokdef lokdef := by
  rcases named with ⟨_,found⟩ | ⟨_,_,_,_,_,found⟩
  · exact (located_record found).1
  · exact (located_record found).1

theorem commandedOnce_of_updated (hardware : Hardware β) (clientID : Int) {w : World} {cmd : FBTCtlMessage}
    {command : Command} (drives : command.Single ∨ command.Multi) {c c1 c' : Ctx β} {emergencyStop : Bool}
    (unmarked : Unmarked c.changedAddrIndex) (slots : c.changedAddrIndex.length = nLokdef c.lokdef + 1)
    (executed : execute hardware w cmd (some command) c = .ok emergencyStop c1)
    (looped : hardwareLoop hardware clientID (List.range c1.changedAddrIndex.length) emergencyStop c1 =
      .ok () c') : CommandedOnce hardware clientID w cmd command c c1 c' := by
  obtain ⟨named,updated⟩ := execute_updated hardware drives executed
  obtain ⟨calls,more,silent,order,made⟩ := hardwareLoop_returned hardware clientID List.nodup_range looped
  have members (i : Nat) : i ∈ calls.map Prod.fst ↔ Named cmd c.lokdef command i := by
    rw [order,List.mem_filter,List.mem_range,updated.marks,markAll_length,← updated.members]
    constructor
    · rintro ⟨_,changed⟩
      rcases (markAll_marked named c.changedAddrIndex i).mp (marked_of_changed changed) with ⟨member,_⟩ | before
      · exact member
      · exact absurd before (unmarked i)
    · intro member
      have bound := named_bound ((updated.members i).mp member)
      have marked := (markAll_marked named c.changedAddrIndex i).mpr (.inl ⟨member,by omega⟩)
      rw [marked]
      exact ⟨by omega,rfl⟩
  have sorted : (calls.map Prod.fst).Pairwise (· < ·) := by
    rw [order]
    exact List.Pairwise.filter _ List.pairwise_lt_range
  have other : command ≠ .HELO_ERR := by
    rintro rfl
    simp [Command.Single,Command.Multi] at drives
  refine ⟨⟨emergencyStop,executed,looped⟩,execute_replies w cmd hardware command other c _ c1 executed,updated.calls,updated.others,silent,
    ⟨calls,by rw [more,updated.calls],made,sorted,members⟩,?_⟩
  intro i unnamed left
  rw [Ctx.lokdef,made.frame hardware clientID (fun member => unnamed ((members i).mp member)) left]
  exact updated.others i unnamed

theorem faster_min (SPEED_STEP : Nat) (speed : Int) : faster SPEED_STEP speed = min 255 (speed + SPEED_STEP) := by
  unfold faster
  omega

/-- All locos of an ACC_MULTI get the new speed of the first. -/
theorem acc_multi_speed (hardware : Hardware β) {w : World} {cmd : FBTCtlMessage} {c c1 : Ctx β}
    {emergencyStop : Bool} (returned : execute hardware w cmd (some .ACC_MULTI) c = .ok emergencyStop c1)
    {first : Nat} (leads : located c.lokdef (addrAt cmd 0) = .ok first) {i : Nat}
    (named : Named cmd c.lokdef .ACC_MULTI i) :
    (c1.lokdef[i]?).map Lokdef.currspeed = some (min 255 (speedAt c.lokdef first + w.SPEED_STEP)) := by
  have planned : plan w cmd c.lokdef .ACC_MULTI = some (planMulti cmd (faster w.SPEED_STEP) c.lokdef) := rfl
  obtain ⟨updated,table⟩ := planned_updated hardware planned returned
  have write : (planMulti cmd (faster w.SPEED_STEP) c.lokdef).write = .speed (min 255 (speedAt c.lokdef first + w.SPEED_STEP)) := by
    obtain ⟨_,n,k,size,_⟩ := named.resolve_left (by simp [Command.Single])
    simp only [planMulti,size,leads,faster_min]
  have member := (updated.members i).mpr named
  have bound : i < c.lokdef.length := Nat.lt_of_lt_of_le (named_bound named) (nLokdef_le c.lokdef)
  rw [table,writeAll_getElem?,if_pos member,write,List.getElem?_eq_getElem bound]
  rfl

end

/-- In every reachable state, a drive command that completes has first updated the table and sent its
reply, and has then called the backend for the locos it names, each once and in table order. -/
theorem commanded_once {β : Type} (hardware : Hardware β) (lokdef : List Lokdef) (device : β)
    (labels : List Label) (clientID : Int) (lastStatus : List LastStatus) (changedAddrIndex : List Bool)
    (w : World) (cmd : FBTCtlMessage) (command : Command) (c' : Ctx β)
    (running : (Server.run hardware (Server.start lokdef device) labels).phaseOf clientID =
      some (.running lastStatus changedAddrIndex))
    (branch : commandOf w cmd = .ok (some command)) (drives : command.Single ∨ command.Multi)
    (completed : processMessage hardware clientID w cmd
      ((Server.run hardware (Server.start lokdef device) labels).context lastStatus changedAddrIndex) = .ok () c') :
    ∃ c1, CommandedOnce hardware clientID w cmd command
      ((Server.run hardware (Server.start lokdef device) labels).context lastStatus changedAddrIndex) c1 c' ∧
      (command = .ACC_MULTI → ∀ first,
        located (Server.run hardware (Server.start lokdef device) labels).lokdef (addrAt cmd 0) = .ok first →
        ∀ i, Named cmd (Server.run hardware (Server.start lokdef device) labels).lokdef command i →
          (c1.lokdef[i]?).map Lokdef.currspeed =
            some (min 255 (speedAt (Server.run hardware (Server.start lokdef device) labels).lokdef first + w.SPEED_STEP))) := by
  have ready := (Server.run_ready hardware lokdef device labels).running running
  generalize Server.run hardware (Server.start lokdef device) labels = s at running completed ready ⊢
  rw [processMessage,branch] at completed
  obtain ⟨_,_,⟨⟩,completed⟩ := returned_of_bind completed
  obtain ⟨emergencyStop,c1,executed,completed⟩ := returned_of_bind completed
  obtain ⟨_,_,⟨⟩,looped⟩ := returned_of_bind completed
  refine ⟨c1,commandedOnce_of_updated hardware clientID drives ready.1 ready.2 executed looped,?_⟩
  rintro rfl first leads i named
  exact acc_multi_speed hardware executed leads named

/-- Both locos get faster; the list names one of them twice, the later one of the table first. -/
theorem commanded_once_acc_multi : ∃ c1 c',
    CommandedOnce (SRCP_Hardware okSrcpd) 1 online (manyLocos 13 [4, 3, 4]) .ACC_MULTI
      (oneClient.context (initialStatus twoLocos) (noneChanged twoLocos)) c1 c' ∧
    (c1.lokdef[0]?).map Lokdef.currspeed = some 5 := by
  have ends : returned (processMessage (SRCP_Hardware okSrcpd) 1 online (manyLocos 13 [4, 3, 4])
      (oneClient.context (initialStatus twoLocos) (noneChanged twoLocos))) = true := by
    decide +kernel
  obtain ⟨_,c',completed⟩ := ok_of_returned ends
  obtain ⟨c1,once,speeds⟩ := commanded_once (SRCP_Hardware okSrcpd) twoLocos {} joined 1 (initialStatus twoLocos)
    (noneChanged twoLocos) online (manyLocos 13 [4, 3, 4]) .ACC_MULTI c' rfl rfl (by simp [Command.Multi]) completed
  refine ⟨c1,c',once,?_⟩
  exact speeds rfl 1 rfl 0 (.inr ⟨by simp [Command.Multi],3,1,rfl,by decide,rfl⟩)

end Btcontrol
