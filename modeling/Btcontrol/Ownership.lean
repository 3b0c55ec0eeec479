import Btcontrol.Runaway

/-! `lastClientID`: the client whose command was the last to reach a loco, as long as no
`fullstop` has stopped it. It is written in the hardware loop, cleared in `fullstop`, and is
all that the destructor of a client that is not the last one looks at. -/
namespace Btcontrol

open Exec ClientThread Transition

/-- What decides whose loco it is: a call of `hardware->sendLoco` for a command of a client,
and a `fullstop` that stops the loco. -/
inductive Event where
  | sendLoco (clientID : Int) (addr_index : Nat)
  | released (addr_index : Nat)
  deriving DecidableEq, Repr

/-- The client of the newest call for a loco, unless a `fullstop` came later. The newest
event comes first. -/
def owner : List Event → Nat → Option Int
  | [], _ => none
  | .sendLoco clientID i :: rest, addr_index => if i = addr_index then some clientID else owner rest addr_index
  | .released i :: rest, addr_index => if i = addr_index then none else owner rest addr_index

def lastClient (lokdef : List Lokdef) (i : Nat) : Option Int := lokdef[i]?.map Lokdef.lastClientID

theorem lastClient_congr {rel : Lokdef → Lokdef → Prop} (same : ∀ l l', rel l l' → l'.lastClientID = l.lastClientID)
    {lokdef lokdef' : List Lokdef} (records : Records rel lokdef lokdef') (i : Nat) :
    lastClient lokdef' i = lastClient lokdef i := by
  have column := congrArg (fun ids => ids[i]?) (records.map_eq Lokdef.lastClientID same)
  simpa only [lastClient,List.getElem?_map] using column

/-- Calls of one client make the locos its own. -/
theorem owner_calls (clientID : Int) (calls : List (Nat × Bool)) (past : List Event) (i : Nat) :
    owner ((calls.map (fun call => Event.sendLoco clientID call.1)).reverse ++ past) i =
      if i ∈ calls.map Prod.fst then some clientID else owner past i := by
  induction calls generalizing past with
  | nil => rfl
  | cons call rest ih =>
    rw [List.map_cons,List.reverse_cons,List.append_assoc,List.singleton_append,ih,List.map_cons,owner]
    by_cases later : i ∈ rest.map Prod.fst
    · simp [later]
    · by_cases here : call.1 = i
      · simp [here]
      · simp [later,here,Ne.symm here]

theorem owner_released (indices : List Nat) (past : List Event) (i : Nat) :
    owner (indices.map Event.released ++ past) i = if i ∈ indices then none else owner past i := by
  induction indices with
  | nil => rfl
  | cons first rest ih =>
    rw [List.map_cons,List.cons_append,owner,ih]
    by_cases here : first = i
    · simp [here]
    · simp [here,Ne.symm here]

section Message

variable {β : Type} (hardware : Hardware β)

/-- A backend whose `sendLoco` does not write `lastClientID`. -/
def KeepsOwner : Prop := ∀ clientID i emergencyStop,
  Moves (fun g g' : Globals β => ∀ j, lastClient g'.lokdef j = lastClient g.lokdef j)
    (hardware.sendLoco clientID i emergencyStop)

theorem clientSendLoco_owns (keeps : KeepsOwner hardware) (clientID : Int) (i : Nat) (emergencyStop : Bool)
    (c : Ctx β) (j : Nat) :
    lastClient (final (ClientThread.sendLoco hardware clientID i emergencyStop c)).lokdef j =
      if j = i then (lastClient c.lokdef j).map (fun _ => clientID) else lastClient c.lokdef j := by
  have kept := keeps clientID i emergencyStop
    { c.globals with lokdef := c.lokdef.modify i (fun l => { l with lastClientID := clientID }) } j
  simp only [ClientThread.sendLoco,bind_apply,modify_apply,setLoko_apply,onGlobals,final_focus]
  refine kept.trans ?_
  simp only [lastClient,List.getElem?_modify]
  by_cases same : j = i
  · subst same
    cases c.lokdef[j]? <;> simp
  · cases c.lokdef[j]? <;> simp [same,Ne.symm same]

/-- The loop gives the client every loco it calls the backend for, returned or not. -/
theorem hardwareLoop_owns (keeps : KeepsOwner hardware) (clientID : Int) (indices : List Nat)
    (emergencyStop : Bool) (c : Ctx β) :
    ∃ calls, (final (hardwareLoop hardware clientID indices emergencyStop c)).sendLocos = c.sendLocos ++ calls ∧
      (∀ i ∈ calls.map Prod.fst, c.changedAddrIndex[i]? = some true) ∧
      ∀ i, lastClient (final (hardwareLoop hardware clientID indices emergencyStop c)).lokdef i =
        if i ∈ calls.map Prod.fst then (lastClient c.lokdef i).map (fun _ => clientID)
        else lastClient c.lokdef i := by
  induction indices generalizing emergencyStop c with
  | nil =>
    refine ⟨[],(List.append_nil _).symm,?_,fun _ => rfl⟩
    intro i member
    cases member
  | cons first rest ih =>
    rw [hardwareLoop,bind_apply,get_apply]
    by_cases changed : c.changedAddrIndex[first]?.getD false = true
    · simp only [changed,↓reduceIte,bind_apply]
      obtain ⟨marks,recorded⟩ := sendLoco_marks hardware clientID first emergencyStop c
      have owns := clientSendLoco_owns hardware keeps clientID first emergencyStop c
      cases sent : ClientThread.sendLoco hardware clientID first emergencyStop c with
      | error e c1 =>
        rw [sent,final_error] at recorded owns
        refine ⟨[(first, emergencyStop)],recorded,?_,?_⟩
        · intro i member
          rw [List.map_singleton,List.mem_singleton] at member
          exact member ▸ marked_of_changed changed
        · intro i
          simpa using owns i
      | ok _ c1 =>
        rw [sent,final_ok] at marks recorded owns
        obtain ⟨calls,more,marked,later⟩ := ih false c1
        refine ⟨(first, emergencyStop) :: calls,?_,?_,?_⟩
        · rw [more,recorded,List.append_assoc,List.singleton_append]
        · intro i member
          rcases List.mem_cons.mp member with rfl | member
          · exact marked_of_changed changed
          · have flag := marked i member
            rw [marks] at flag
            exact (marked_of_set flag).2
        · intro i
          rw [later i,owns i,List.map_cons]
          by_cases here : i = first
          · subst here
            cases lastClient c.lokdef i <;> simp
          · simp [here]
    · simp only [changed,Bool.false_eq_true,↓reduceIte]
      exact ih emergencyStop c

/-- The calls a client has made are for locos, and `lastClientID` has changed there only. -/
structure Owns (clientID : Int) (lokdef : List Lokdef) (c : Ctx β) : Prop where
  locos : ∀ i ∈ c.sendLocos.map Prod.fst, i < nLokdef lokdef
  ids : ∀ i, lastClient c.lokdef i = if i ∈ c.sendLocos.map Prod.fst
    then (lastClient lokdef i).map (fun _ => clientID) else lastClient lokdef i

/-- An exception before the loop. -/
theorem owns_nothing (clientID : Int) (lokdef : List Lokdef) (c : Ctx β) (calls : c.sendLocos = [])
    (kept : ∀ i, lastClient c.lokdef i = lastClient lokdef i) : Owns clientID lokdef c := by
  constructor
  · intro i member
    rw [calls] at member
    cases member
  · intro i
    rw [calls]
    exact kept i

/-- The loop, after a command that has left `lastClientID` alone. -/
theorem owns_marked (keeps : KeepsOwner hardware) (clientID : Int) (lokdef : List Lokdef)
    (emergencyStop : Bool) (c : Ctx β) (calls : c.sendLocos = [])
    (kept : ∀ i, lastClient c.lokdef i = lastClient lokdef i)
    (firsts : ∀ i : Nat, c.changedAddrIndex[i]? = some true → First lokdef i) :
    Owns clientID lokdef
      (final (hardwareLoop hardware clientID (List.range c.changedAddrIndex.length) emergencyStop c)) := by
  obtain ⟨more,recorded,marked,owns⟩ := hardwareLoop_owns hardware keeps clientID
    (List.range c.changedAddrIndex.length) emergencyStop c
  rw [calls,List.nil_append] at recorded
  constructor
  · intro i member
    rw [recorded] at member
    obtain ⟨l,_,found⟩ := firsts i (marked i member)
    exact (getAddrIndex_located found).2.1
  · intro i
    rw [recorded,owns i,kept i]

theorem processMessage_owns (keeps : KeepsOwner hardware) {device : β → β → Prop}
    (respects : Respects hardware device) (powers : PowersOnly hardware device) (clientID : Int) (w : World)
    (cmd : FBTCtlMessage) (c : Ctx β) (unmarked : Unmarked c.changedAddrIndex) (fresh : c.sendLocos = []) :
    Owns clientID c.lokdef (final (processMessage hardware clientID w cmd c)) := by
  rw [processMessage,bind_apply]
  cases branch : commandOf w cmd with
  | error e => exact owns_nothing clientID c.lokdef c fresh (fun _ => rfl)
  | ok command =>
    rw [lift_ok]
    simp only [bind_apply]
    cases planned : command.bind (plan w cmd c.lokdef) with
    | none =>
      have quiet := execute_quiet respects w cmd c.lokdef command planned (fun _ => powers) c
      have kept := lastClient_congr (fun _ _ idle => idle.lastClientID) quiet.records
      cases executed : execute hardware w cmd command c with
      | error e c1 =>
        rw [executed,final_error] at quiet kept
        exact owns_nothing clientID c.lokdef c1 (quiet.calls.trans fresh) kept
      | ok emergencyStop c1 =>
        rw [executed,final_ok] at quiet kept
        refine owns_marked hardware keeps clientID c.lokdef emergencyStop c1 (quiet.calls.trans fresh) kept ?_
        intro i flag
        exact (quiet.marked i flag).resolve_left (unmarked i)
    | some p =>
      obtain ⟨name,rfl,planned⟩ := Option.bind_eq_some_iff.mp planned
      have driven := execute_driven hardware w cmd name c p planned
      have globals := driven.globals
      have calls := driven.calls
      have kept (i : Nat) : lastClient (writeAll p.write.apply p.named c.lokdef) i = lastClient c.lokdef i := by
        rw [lastClient,writeAll_getElem?]
        split
        · rw [Option.map_map]
          refine congrArg (fun f => Option.map f c.lokdef[i]?) (funext fun l => ?_)
          cases p.write <;> rfl
        · rfl
      rcases driven.outcome with ⟨e,c1,_,cut⟩ | ⟨_,_,c1,cut⟩ | ⟨_,_,c1,returned,marks⟩
      · rw [cut,final_error] at globals calls
        simp only [cut]
        refine owns_nothing clientID c.lokdef c1 (calls.trans fresh) (fun i => ?_)
        rw [Ctx.lokdef,globals]
        exact kept i
      · rw [cut,final_error] at globals calls
        simp only [cut]
        refine owns_nothing clientID c.lokdef c1 (calls.trans fresh) (fun i => ?_)
        rw [Ctx.lokdef,globals]
        exact kept i
      · rw [returned,final_ok] at globals calls
        simp only [returned,get_apply]
        refine owns_marked hardware keeps clientID c.lokdef p.emergencyStop c1 (calls.trans fresh) (fun i => ?_)
          (fun i flag => ?_)
        · rw [Ctx.lokdef,globals]
          exact kept i
        · rw [marks,markAll_marked] at flag
          rcases flag with ⟨member,_⟩ | before
          · exact (plan_first w cmd c.lokdef name p planned i member).2
          · exact absurd before (unmarked i)

end Message

/-- srcpd answers every command, and with OK where it is not asked for information. -/
def Accepts (srcpd : Srcpd) : Prop :=
  ∀ log cmd, ∃ code, srcpd log cmd = some code ∧ ((∀ addr, cmd ≠ .getGL addr) → replyType code = .OK)

namespace SRCP

theorem keepsOwner (srcpd : Srcpd) : KeepsOwner (SRCP_Hardware srcpd) := by
  have closed : Closed (fun g g' : Globals SRCP => ∀ j, lastClient g'.lokdef j = lastClient g.lokdef j) :=
    ⟨fun _ _ => rfl,fun _ _ _ first second j => (second j).trans (first j)⟩
  have device {α : Type} (m : EStateM Err SRCP α) :
      Moves (fun g g' : Globals SRCP => ∀ j, lastClient g'.lokdef j = lastClient g.lokdef j) (onDevice m) := by
    intro g j
    rw [onDevice_lokdef]
  have written (i : Nat) (f : Lokdef → Lokdef) (same : ∀ l, (f l).lastClientID = l.lastClientID) :
      Moves (fun g g' : Globals SRCP => ∀ j, lastClient g'.lokdef j = lastClient g.lokdef j) (setLok i f) := by
    intro g
    have records : Records (fun l l' => l'.lastClientID = l.lastClientID) g.lokdef (g.lokdef.modify i f) := by
      apply Records.modify
      · exact fun _ => rfl
      · exact fun l _ => same l
    exact lastClient_congr (fun _ _ same => same) records
  intro clientID i emergencyStop
  refine moves_bind closed (moves_get closed) (fun g => ?_)
  refine moves_bind closed ?_ (fun _ => moves_bind closed (device _) (fun _ => moves_pure closed _))
  refine moves_ite (moves_pure closed _) (moves_bind closed (device _) (fun code => ?_))
  refine moves_ite ?_ (moves_bind closed (written _ _ (fun _ => rfl)) (fun _ => ?_))
  · exact moves_ite (written _ _ (fun _ => rfl)) (moves_pure closed _)
  · exact moves_bind closed (device _) (fun _ => moves_pure closed _)

/-! `fullstop` as a whole, where srcpd accepts every command. -/

def isSetGL : SrcpCmd → Bool
  | .setGL .. => true
  | _ => false

/-- The SET GL commands of a part of the log. -/
def sets (log : List (SrcpCmd × Int)) : List SrcpCmd := (log.map Prod.fst).filter isSetGL

theorem sets_append (log log' : List (SrcpCmd × Int)) : sets (log ++ log') = sets log ++ sets log' := by
  simp [sets]

def emergency (l : Lokdef) : SrcpCmd := .setGL l.addr 2 0 (nFahrstufen l) l.flagsOn

def halted (l : Lokdef) : Lokdef := { l with currspeed := 0, lastClientID := 0, initDone := true }

section Accepted

variable {srcpd : Srcpd} (accepts : Accepts srcpd)
include accepts

theorem sendMessage_accepted (cmd : SrcpCmd) (s : SRCP) :
    ∃ code, ((∀ addr, cmd ≠ .getGL addr) → replyType code = .OK) ∧
      sendMessage srcpd cmd s = .ok code { s with log := (cmd, code) :: s.log } := by
  obtain ⟨code,answered,fine⟩ := accepts s.log cmd
  exact ⟨code,fine,by simp only [sendMessage,answered]⟩

/-- The INIT of a loco that has not had one writes `initDone` and sends no SET GL. -/
theorem initLoco_accepted (i : Nat) (g : Globals SRCP) (l : Lokdef) (record : g.lokdef[i]? = some l) :
    ∃ g' added, initLoco srcpd i l g = .ok () g' ∧
      (∀ j, g'.lokdef[j]? = if j = i then some { l with initDone := true } else g.lokdef[j]?) ∧
      g'.device.log = added ++ g.device.log ∧ sets added = [] := by
  by_cases done : l.initDone = true
  · refine ⟨g,[],by simp only [initLoco,done,↓reduceIte,pure_apply],?_,rfl,rfl⟩
    intro j
    split
    · rename_i same
      rw [same,record,← done]
    · rfl
  obtain ⟨code,fine,sent⟩ := sendMessage_accepted accepts
    (.initGL l.addr (if l.addr < 128 then 1 else 2) (nFahrstufen l) l.nFunc) g.device
  obtain ⟨info,_,asked⟩ := sendMessage_accepted accepts (.getGL l.addr)
    { g.device with log := (.initGL l.addr (if l.addr < 128 then 1 else 2) (nFahrstufen l) l.nFunc, code) :: g.device.log }
  refine ⟨⟨g.lokdef.modify i (fun l => { l with initDone := true }),
    { g.device with log := (.getGL l.addr, info) ::
      (.initGL l.addr (if l.addr < 128 then 1 else 2) (nFahrstufen l) l.nFunc, code) :: g.device.log }⟩,
    [(.getGL l.addr, info), (.initGL l.addr (if l.addr < 128 then 1 else 2) (nFahrstufen l) l.nFunc, code)],
    ?_,?_,rfl,rfl⟩
  · have ok : replyType code = .OK := fine (fun _ other => by cases other)
    simp only [initLoco,done,Bool.false_eq_true,↓reduceIte,bind_apply,onDevice,focus,sendLocoInit,sent,
      initReply,ok,ne_eq,not_true_eq_false,setLok,modify_apply,getInfo,asked,pure_apply]
  · intro j
    rw [List.getElem?_modify]
    by_cases same : j = i
    · subst same
      simp [record]
    · simp [same,Ne.symm same]

theorem sendLoco_accepted (i : Nat) (emergencyStop : Bool) (g : Globals SRCP) (l : Lokdef)
    (record : g.lokdef[i]? = some l) :
    ∃ g' added, sendLoco srcpd i emergencyStop g = .ok () g' ∧
      (∀ j, g'.lokdef[j]? = if j = i then some { l with initDone := true } else g.lokdef[j]?) ∧
      g'.device.log = added ++ g.device.log ∧
      sets added = [.setGL l.addr (drivemode l emergencyStop) (dccSpeed l) (nFahrstufen l) l.flagsOn] := by
  obtain ⟨g1,added,initialised,records,log,silent⟩ := initLoco_accepted accepts i g l record
  obtain ⟨code,_,sent⟩ := sendMessage_accepted accepts
    (.setGL l.addr (drivemode l emergencyStop) (dccSpeed l) (nFahrstufen l) l.flagsOn) g1.device
  refine ⟨⟨g1.lokdef,{ g1.device with log :=
    (.setGL l.addr (drivemode l emergencyStop) (dccSpeed l) (nFahrstufen l) l.flagsOn, code) :: g1.device.log }⟩,
    (.setGL l.addr (drivemode l emergencyStop) (dccSpeed l) (nFahrstufen l) l.flagsOn, code) :: added,?_,records,?_,?_⟩
  · simp only [sendLoco,bind_apply,get_apply,record,Option.getD_some,initialised,onDevice,focus,
      sendLocoSpeed,sent,pure_apply]
  · rw [List.cons_append,log]
  · exact congrArg (List.cons _) silent

/-- One turn of the loop of `fullstop`. -/
theorem stopLoco_accepted (clientID : Int) (stopAll : Bool) (i : Nat) (g : Globals SRCP) (l : Lokdef)
    (record : g.lokdef[i]? = some l) :
    ∃ g' added, stopLoco srcpd clientID stopAll i l g = .ok () g' ∧
      (∀ j, g'.lokdef[j]? =
        if j = i then some (if stops clientID stopAll l then halted l else l) else g.lokdef[j]?) ∧
      g'.device.log = added ++ g.device.log ∧
      sets added = if stops clientID stopAll l then [emergency l] else [] := by
  by_cases picked : stops clientID stopAll l
  · have written : (g.lokdef.modify i (fun l => { l with currspeed := 0 }))[i]? =
        some { l with currspeed := 0 } := by
      simp [record]
    obtain ⟨g1,added,sent,records,log,told⟩ := sendLoco_accepted accepts i true
      { g with lokdef := g.lokdef.modify i (fun l => { l with currspeed := 0 }) } _ written
    refine ⟨{ g1 with lokdef := g1.lokdef.modify i (fun l => { l with lastClientID := 0 }) },added,?_,?_,log,?_⟩
    · simp only [stopLoco,picked,↓reduceIte,bind_apply,setLok,modify_apply,sent]
    · intro j
      rw [List.getElem?_modify,records j]
      by_cases same : j = i
      · subst same
        simp [picked,halted]
      · simp [same,Ne.symm same]
    · have zero : dccSpeed { l with currspeed := 0 } = 0 := by simp [dccSpeed]
      rw [told,zero,if_pos picked]
      rfl
  · refine ⟨g,[],by simp only [stopLoco,picked,↓reduceIte,pure_apply],?_,rfl,by rw [if_neg picked]; rfl⟩
    intro j
    rw [if_neg picked]
    split
    · rename_i same
      rw [same,record]
    · rfl

/-- The whole loop: every loco it picks, and no other record. -/
theorem fullstopLoop_accepted (clientID : Int) (stopAll : Bool) (indices : List Nat) (nodup : indices.Nodup)
    (g : Globals SRCP) (inside : ∀ i ∈ indices, ∃ l, g.lokdef[i]? = some l) :
    ∃ g' added, fullstopLoop srcpd clientID stopAll indices g = .ok () g' ∧
      (∀ j, g'.lokdef[j]? = if j ∈ indices
        then g.lokdef[j]?.map (fun l => if stops clientID stopAll l then halted l else l) else g.lokdef[j]?) ∧
      g'.device.log = added ++ g.device.log ∧
      sets added = ((indices.filter (fun i => stops clientID stopAll (g.lokdef[i]?.getD .zeroed))).map
        (fun i => emergency (g.lokdef[i]?.getD .zeroed))).reverse := by
  induction indices generalizing g with
  | nil => exact ⟨g,[],rfl,fun _ => rfl,rfl,rfl⟩
  | cons i rest ih =>
    obtain ⟨apart,nodup⟩ := List.nodup_cons.mp nodup
    obtain ⟨l,record⟩ := inside i List.mem_cons_self
    obtain ⟨g1,first,here,records,log,told⟩ := stopLoco_accepted accepts clientID stopAll i g l record
    have same (j : Nat) (member : j ∈ rest) : g1.lokdef[j]? = g.lokdef[j]? := by
      rw [records j,if_neg]
      intro at_
      exact apart (at_ ▸ member)
    obtain ⟨g2,more,later,records2,log2,told2⟩ := ih nodup g1 (fun j member => by
      rw [same j member]
      exact inside j (List.mem_cons_of_mem _ member))
    refine ⟨g2,more ++ first,?_,?_,?_,?_⟩
    · simp only [fullstopLoop,bind_apply,get_apply,record,Option.getD_some,here]
      exact later
    · intro j
      rw [records2 j]
      by_cases this : j = i
      · subst this
        rw [if_neg apart,records j,if_pos rfl,if_pos List.mem_cons_self,record,Option.map_some]
      · by_cases member : j ∈ rest
        · rw [if_pos member,if_pos (List.mem_cons_of_mem _ member),same j member]
        · rw [if_neg member,if_neg (by simp [this,member]),records j,if_neg this]
    · rw [log2,log,List.append_assoc]
    · have filtered : rest.filter (fun j => stops clientID stopAll (g1.lokdef[j]?.getD .zeroed)) =
          rest.filter (fun j => stops clientID stopAll (g.lokdef[j]?.getD .zeroed)) :=
        List.filter_congr (fun j member => by rw [same j member])
      have commands : (rest.filter (fun j => stops clientID stopAll (g.lokdef[j]?.getD .zeroed))).map
            (fun j => emergency (g1.lokdef[j]?.getD .zeroed)) =
          (rest.filter (fun j => stops clientID stopAll (g.lokdef[j]?.getD .zeroed))).map
            (fun j => emergency (g.lokdef[j]?.getD .zeroed)) :=
        List.map_congr_left (fun j member => by rw [same j (List.mem_of_mem_filter member)])
      rw [sets_append,told2,told,filtered,commands,List.filter_cons,record,Option.getD_some]
      by_cases picked : stops clientID stopAll l
      · simp [picked,record]
      · simp [picked]

/-- The destructor. -/
theorem destructor_accepted (clientID : Int) (stopAll : Bool) (g : Globals SRCP) :
    ∃ g' added, Server.destructor (SRCP_Hardware srcpd) clientID stopAll g = .ok () g' ∧
      (∀ j, g'.lokdef[j]? = if j < nLokdef g.lokdef
        then g.lokdef[j]?.map (fun l => if stops clientID stopAll l then halted l else l) else g.lokdef[j]?) ∧
      g'.device.log = added ++ g.device.log ∧
      sets added = (((List.range (nLokdef g.lokdef)).filter
        (fun i => stops clientID stopAll (g.lokdef[i]?.getD .zeroed))).map
          (fun i => emergency (g.lokdef[i]?.getD .zeroed))).reverse := by
  have inside : ∀ i ∈ List.range (nLokdef g.lokdef), ∃ l, g.lokdef[i]? = some l := by
    intro i member
    have bound := Nat.lt_of_lt_of_le (List.mem_range.mp member) (nLokdef_le g.lokdef)
    exact ⟨g.lokdef[i],List.getElem?_eq_getElem bound⟩
  obtain ⟨g',added,looped,records,log,told⟩ := fullstopLoop_accepted accepts clientID stopAll
    (List.range (nLokdef g.lokdef)) List.nodup_range g inside
  refine ⟨g',added,?_,?_,log,told⟩
  · simp only [Server.destructor,SRCP_Hardware,fullstop,bind_apply,get_apply,looped]
    rfl
  · intro j
    simp only [records j,List.mem_range]

end Accepted

/-! The history of a run. -/

variable (srcpd : Srcpd)

/-- What a step does to the locos, the newest first. -/
def events (s : Server SRCP) (label : Label) : List Event :=
  if s.halted then []
  else match label with
  | .message clientID w cmd => match s.phaseOf clientID with
    | some (.running lastStatus changedAddrIndex) =>
      ((final (processMessage (SRCP_Hardware srcpd) clientID w cmd
        (s.context lastStatus changedAddrIndex))).sendLocos.map (fun call => .sendLoco clientID call.1)).reverse
    | _ => []
  | .destroy clientID => match s.phaseOf clientID with
    | some .left => ((List.range (nLokdef s.lokdef)).filter (fun i =>
        stops clientID (s.numClients - 1 = 0) (s.lokdef[i]?.getD .zeroed))).map .released
    | _ => []
  | _ => []

/-- The server together with all that has happened so far. -/
def stepRecorded (s : Server SRCP × List Event) (label : Label) : Server SRCP × List Event :=
  (Server.step (SRCP_Hardware srcpd) s.1 label, events srcpd s.1 label ++ s.2)

def history (s : Server SRCP) (labels : List Label) : List Event :=
  (Transition.run (stepRecorded srcpd) (s, []) labels).2

theorem run_recorded (labels : List Label) (s : Server SRCP) (past : List Event) :
    (Transition.run (stepRecorded srcpd) (s, past) labels).1 = Server.run (SRCP_Hardware srcpd) s labels := by
  induction labels generalizing s past with
  | nil => rfl
  | cons label rest ih => exact ih _ _

/-- `lastClientID` tells the owner. -/
structure Tracks (s : Server SRCP) (past : List Event) : Prop where
  ids : ∀ i l, s.lokdef[i]? = some l → l.lastClientID = (owner past i).getD 0
  owned : ∀ i clientID, owner past i = some clientID → clientID ≠ 0 ∧ i < nLokdef s.lokdef
  clients : ∀ client ∈ s.clients, 0 < client.clientID
  counter : 0 < s.clientID_counter

theorem Tracks.phaseOf {s : Server SRCP} {past : List Event} (tracks : Tracks s past) {clientID : Int}
    {phase : Phase} (found : s.phaseOf clientID = some phase) : clientID ≠ 0 := by
  obtain ⟨client,located,_⟩ := Option.map_eq_some_iff.mp found
  have same : client.clientID = clientID := by simpa using List.find?_some located
  have positive := tracks.clients client (List.mem_of_find?_eq_some located)
  omega

/-- A step that leaves the table alone. -/
theorem Tracks.same {s s' : Server SRCP} {past : List Event} (tracks : Tracks s past)
    (lokdef : s'.lokdef = s.lokdef) (clients : ∀ client ∈ s'.clients, 0 < client.clientID)
    (counter : 0 < s'.clientID_counter) : Tracks s' past :=
  ⟨lokdef ▸ tracks.ids,lokdef ▸ tracks.owned,clients,counter⟩

theorem setPhase_clients {s : Server SRCP} (positive : ∀ client ∈ s.clients, 0 < client.clientID)
    (clientID : Int) (phase : Phase) : ∀ client ∈ (s.setPhase clientID phase).clients, 0 < client.clientID := by
  intro client member
  obtain ⟨old,before,rfl⟩ := List.mem_map.mp member
  split
  · exact positive old before
  · exact positive old before

/-- A table after one more message of a client. -/
theorem Tracks.message {s s' : Server SRCP} {past : List Event} (tracks : Tracks s past) {clientID : Int}
    {c : Ctx SRCP} (nonzero : clientID ≠ 0) (owns : Owns clientID s.lokdef c) (table : s'.lokdef = c.lokdef)
    (addrs : s'.lokdef.map Lokdef.addr = s.lokdef.map Lokdef.addr)
    (clients : ∀ client ∈ s'.clients, 0 < client.clientID) (counter : 0 < s'.clientID_counter) :
    Tracks s' ((c.sendLocos.map (fun call => Event.sendLoco clientID call.1)).reverse ++ past) := by
  refine ⟨?_,?_,clients,counter⟩
  · intro i l record
    have now : lastClient c.lokdef i = some l.lastClientID := by
      rw [lastClient,← table,record]
      rfl
    rw [owns.ids i] at now
    rw [owner_calls]
    split at now
    · rename_i called
      rw [if_pos called]
      obtain ⟨_,_,same⟩ := Option.map_eq_some_iff.mp now
      exact same.symm
    · rename_i uncalled
      rw [if_neg uncalled]
      obtain ⟨before,here,same⟩ := Option.map_eq_some_iff.mp now
      exact same ▸ tracks.ids i before here
  · intro i other
    rw [owner_calls]
    split
    · rename_i called
      intro same
      cases same
      exact ⟨nonzero,nLokdef_congr addrs ▸ owns.locos i called⟩
    · intro same
      exact nLokdef_congr addrs ▸ tracks.owned i other same

section Run

variable {srcpd : Srcpd} (accepts : Accepts srcpd)
include accepts

/-- A table after `fullstop`. -/
theorem Tracks.destroy {s s' : Server SRCP} {past : List Event} (tracks : Tracks s past) (clientID : Int)
    (stopAll : Bool)
    (table : s'.globals = final (Server.destructor (SRCP_Hardware srcpd) clientID stopAll s.globals))
    (clients : ∀ client ∈ s'.clients, 0 < client.clientID) (counter : 0 < s'.clientID_counter) :
    Tracks s' (((List.range (nLokdef s.lokdef)).filter (fun i =>
      stops clientID stopAll (s.lokdef[i]?.getD .zeroed))).map .released ++ past) := by
  have addrs : s'.lokdef.map Lokdef.addr = s.lokdef.map Lokdef.addr := by
    rw [Server.lokdef,table]
    exact (destructor_effect (SRCP_Hardware srcpd) clientID stopAll s.globals).addrs
  obtain ⟨g',added,stopped,records,_,_⟩ := destructor_accepted accepts clientID stopAll s.globals
  rw [stopped,final_ok] at table
  refine ⟨?_,?_,clients,counter⟩
  · intro i l record
    rw [Server.lokdef,table,records i] at record
    simp only [owner_released,List.mem_filter,List.mem_range]
    split at record
    · rename_i bound
      obtain ⟨before,here,rfl⟩ := Option.map_eq_some_iff.mp record
      rw [here,Option.getD_some]
      by_cases picked : stops clientID stopAll before
      · simp [picked,bound,halted]
      · simp [picked,tracks.ids i before here]
    · rename_i outside
      simp [outside,tracks.ids i l record]
  · intro i other
    rw [owner_released]
    split
    · intro none
      cases none
    · intro same
      exact nLokdef_congr addrs ▸ tracks.owned i other same

theorem step_tracks (s : Server SRCP) (past : List Event) (label : Label) (ready : s.Ready)
    (tracks : Tracks s past) :
    Tracks (Server.step (SRCP_Hardware srcpd) s label) (events srcpd s label ++ past) := by
  have addrs := Server.step_addrs (SRCP_Hardware srcpd) s label
  by_cases halted : s.halted = true
  · have none : events srcpd s label = [] := by simp only [events,halted,↓reduceIte]
    rw [Server.step_halted _ s label halted,none]
    exact tracks
  have live : s.halted = false := Bool.eq_false_iff.mpr halted
  cases label <;> simp only [Server.step,events,live,Bool.false_eq_true,↓reduceIte] at addrs ⊢
  case accept =>
    refine tracks.same rfl ?_ (Int.add_pos tracks.counter Int.one_pos)
    intro client member
    rcases List.mem_append.mp member with old | new
    · exact tracks.clients client old
    · rw [List.mem_singleton] at new
      exact new ▸ tracks.counter
  case readFails clientID =>
    split
    · exact tracks.same rfl (setPhase_clients tracks.clients clientID _) tracks.counter
    · exact tracks
  case helo clientID w =>
    split
    · have same := sendHelo_globals srcpd w (s.context [] [])
      cases sent : sendHelo (SRCP_Hardware srcpd) w (s.context [] []) with
      | ok _ c =>
        rw [sent,final_ok] at same
        exact tracks.same (congrArg Globals.lokdef same) (setPhase_clients tracks.clients clientID _) tracks.counter
      | error e c =>
        rw [sent,final_error] at same
        exact tracks.same (congrArg Globals.lokdef same) (setPhase_clients tracks.clients clientID _) tracks.counter
    · exact tracks
  case message clientID w cmd =>
    cases phase : s.phaseOf clientID with
    | none => exact tracks
    | some state => cases state with
      | accepted => exact tracks
      | left => exact tracks
      | running lastStatus changedAddrIndex =>
        simp only [phase] at addrs
        have owns := processMessage_owns (SRCP_Hardware srcpd) (keepsOwner srcpd) (respects_sameSpeeds srcpd)
          (powersOnly_sameSpeeds srcpd) clientID w cmd (s.context lastStatus changedAddrIndex)
          (ready.running phase).1 rfl
        dsimp only
        cases processed : processMessage (SRCP_Hardware srcpd) clientID w cmd
            (s.context lastStatus changedAddrIndex) with
        | ok _ c =>
          simp only [processed] at addrs
          rw [processed,final_ok] at owns
          exact tracks.message (tracks.phaseOf phase) owns rfl addrs
            (setPhase_clients tracks.clients clientID _) tracks.counter
        | error e c =>
          simp only [processed] at addrs
          rw [processed,final_error] at owns
          exact tracks.message (tracks.phaseOf phase) owns rfl addrs
            (setPhase_clients tracks.clients clientID _) tracks.counter
  case destroy clientID =>
    cases phase : s.phaseOf clientID with
    | none => exact tracks
    | some state => cases state with
      | accepted => exact tracks
      | running lastStatus changedAddrIndex => exact tracks
      | left =>
        refine tracks.destroy accepts clientID _ rfl ?_ tracks.counter
        intro client member
        exact tracks.clients client (List.mem_filter.mp member).1

theorem run_tracks (lokdefCsv : Str) (lokdef : List Lokdef) (read : readLokdef lokdefCsv = .ok lokdef)
    (labels : List Label) :
    Tracks (Server.run (SRCP_Hardware srcpd) (Server.start lokdef {}) labels)
      (history srcpd (Server.start lokdef {}) labels) := by
  have start : Tracks (Server.start lokdef {}) [] := by
    refine ⟨?_,?_,?_,Int.one_pos⟩
    · intro i l record
      exact (readLokdef_fresh lokdefCsv lokdef read l (List.mem_of_getElem? record)).lastClientID
    · intro i clientID owned
      cases owned
    · intro client member
      cases member
  have preserved (s : Server SRCP × List Event) (label : Label) (inv : Tracks s.1 s.2 ∧ s.1.Ready) :
      Tracks (stepRecorded srcpd s label).1 (stepRecorded srcpd s label).2 ∧
        (stepRecorded srcpd s label).1.Ready :=
    ⟨step_tracks accepts s.1 s.2 label inv.2 inv.1,Server.step_ready (SRCP_Hardware srcpd) s.1 label inv.2⟩
  have all := run_always preserved labels (Server.start lokdef {}, [])
    ⟨start,fun client member => by cases member⟩
  rw [run_recorded] at all
  exact all.1

end Run

end SRCP

/-- In every run, the destructor of a client that is not the last one stops the locos whose
newest command was its own, sends an emergency stop for each of them and for no other, and
leaves every other record as it is. -/
theorem disconnect_stops_own (srcpd : Srcpd) (accepts : Accepts srcpd) (lokdefCsv : Str) (lokdef : List Lokdef)
    (read : readLokdef lokdefCsv = .ok lokdef) (labels : List Label) (clientID : Int)
    (left : (Server.run (SRCP_Hardware srcpd) (Server.start lokdef {}) labels).phaseOf clientID = some .left)
    (live : (Server.run (SRCP_Hardware srcpd) (Server.start lokdef {}) labels).halted = false)
    (others : (Server.step (SRCP_Hardware srcpd)
      (Server.run (SRCP_Hardware srcpd) (Server.start lokdef {}) labels) (.destroy clientID)).numClients ≠ 0) :
    let s := Server.run (SRCP_Hardware srcpd) (Server.start lokdef {}) labels
    let s' := Server.step (SRCP_Hardware srcpd) s (.destroy clientID)
    let past := SRCP.history srcpd (Server.start lokdef {}) labels
    (∀ i l, s.lokdef[i]? = some l →
      s'.lokdef[i]? = some (if owner past i = some clientID then SRCP.halted l else l)) ∧
    ∃ added, s'.globals.device.log = added ++ s.globals.device.log ∧
      SRCP.sets added = (((List.range (nLokdef s.lokdef)).filter (fun i => owner past i = some clientID)).map
        (fun i => SRCP.emergency (s.lokdef[i]?.getD .zeroed))).reverse := by
  have tracks := SRCP.run_tracks accepts lokdefCsv lokdef read labels
  generalize Server.run (SRCP_Hardware srcpd) (Server.start lokdef {}) labels = s at left live others tracks ⊢
  generalize SRCP.history srcpd (Server.start lokdef {}) labels = past at tracks ⊢
  have nonzero := tracks.phaseOf left
  -- what the loop of `fullstop` asks is who the owner is
  have picked (i : Nat) (l : Lokdef) (record : s.lokdef[i]? = some l) :
      SRCP.stops clientID false l ↔ owner past i = some clientID := by
    simp only [SRCP.stops,Bool.false_eq_true,false_and,true_and,false_or,tracks.ids i l record]
    cases owner past i with
    | none => simp [Ne.symm nonzero]
    | some other => simp
  simp only [Server.step,live,Bool.false_eq_true,↓reduceIte,left] at others ⊢
  rw [decide_eq_false others]
  obtain ⟨g',added,stopped,records,log,told⟩ := SRCP.destructor_accepted accepts clientID false s.globals
  simp only [stopped,final_ok]
  refine ⟨?_,added,log,?_⟩
  · intro i l record
    rw [records i]
    split
    · rw [record,Option.map_some]
      simp only [picked i l record]
    · rename_i outside
      rw [if_neg]
      · exact record
      · exact fun owned => outside (tracks.owned i clientID owned).2
  · rw [told]
    congr 2
    apply List.filter_congr
    intro i member
    have bound := Nat.lt_of_lt_of_le (List.mem_range.mp member) (nLokdef_le s.lokdef)
    have record : s.lokdef[i]? = some s.lokdef[i] := List.getElem?_eq_getElem bound
    rw [record,Option.getD_some]
    exact decide_eq_decide.mpr (picked i _ record)

/-- Two clients, each with a loco; the first one goes. -/
def eachOneLoco : List Label :=
  [.accept, .accept, .helo 1 online, .helo 2 online, .message 1 online (oneLoco 9 3),
    .message 2 online (oneLoco 9 4), .readFails 1]

theorem disconnect_stops_own_first :
    let s := Server.run (SRCP_Hardware okSrcpd) (Server.start twoLocos {}) eachOneLoco
    let s' := Server.step (SRCP_Hardware okSrcpd) s (.destroy 1)
    s'.lokdef.map Lokdef.currspeed = [0, 5, 0] ∧
    ∃ added, s'.globals.device.log = added ++ s.globals.device.log ∧
      SRCP.sets added = [.setGL 3 2 0 128 [true]] := by
  have accepts : Accepts okSrcpd := fun _ _ => ⟨200,rfl,fun _ => rfl⟩
  obtain ⟨_,added,log,told⟩ := disconnect_stops_own okSrcpd accepts twoLocosCsv twoLocos readLokdef_twoLocos
    eachOneLoco 1 (by decide +kernel) (by decide +kernel) (by decide +kernel)
  refine ⟨by decide +kernel,added,log,?_⟩
  rw [told]
  decide +kernel

end Btcontrol
