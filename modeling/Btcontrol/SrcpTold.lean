import Btcontrol.Calls
import Btcontrol.Devices
import Btcontrol.EmergencyStop
import Btcontrol.Logging
import Btcontrol.SrcpStream

/-! What srcpd was last told of each loco, next to what the table says of it. A command that comes to its end tells
srcpd what it has written. One that throws behind its first write leaves srcpd with what was before. -/
namespace Btcontrol

open Exec ClientThread Words

namespace SRCP

def drives (addr : Int) : SrcpCmd → Bool
  | .setGL other _ _ _ _ => other == addr
  | _ => false

/-- The last command that drove a loco. -/
def told (s : SRCP) (addr : Int) : Option SrcpCmd := (s.log.map Prod.fst).find? (drives addr)

def setFor (l : Lokdef) (emergencyStop : Bool) : SrcpCmd :=
  .setGL l.addr (drivemode l emergencyStop) (dccSpeed l) (nFahrstufen l) l.flagsOn

/-- The command drives the loco as its record says. One that stands may have been stopped. -/
def Agrees (l : Lokdef) (cmd : SrcpCmd) : Prop := ∃ emergencyStop, cmd = setFor l emergencyStop ∧
  (emergencyStop = true → l.currspeed = 0)

/-- A record in which nothing has changed that a command for it tells. -/
def Steady (l l' : Lokdef) : Prop :=
  l' = { l with initDone := l'.initDone, lastClientID := l'.lastClientID }

theorem Steady.refl (l : Lokdef) : Steady l l := rfl

theorem Steady.trans {l m n : Lokdef} (first : Steady l m) (second : Steady m n) : Steady l n := by
  rw [Steady] at first second ⊢
  rw [second,first]

theorem Steady.addr {l l' : Lokdef} (steady : Steady l l') : l'.addr = l.addr := by
  rw [steady]

theorem Steady.currspeed {l l' : Lokdef} (steady : Steady l l') : l'.currspeed = l.currspeed := by
  rw [steady]

theorem Steady.setFor {l l' : Lokdef} (steady : Steady l l') (emergencyStop : Bool) :
    setFor l' emergencyStop = setFor l emergencyStop := by
  rw [steady]
  rfl

theorem Steady.agrees {l l' : Lokdef} (steady : Steady l l') {cmd : SrcpCmd} (agrees : Agrees l cmd) : Agrees l' cmd := by
  obtain ⟨emergencyStop,same,stands⟩ := agrees
  exact ⟨emergencyStop,same.trans (steady.setFor emergencyStop).symm,fun stop => steady.currspeed.trans (stands stop)⟩

theorem steady_closed : Closed (fun lokdef lokdef' => Records Steady lokdef lokdef') :=
  ⟨Records.refl Steady.refl,fun _ _ _ => Records.trans (fun _ _ _ => Steady.trans)⟩

theorem told_other (addr : Int) {cmd : SrcpCmd} (other : drives addr cmd = false) (code : Int) (s : SRCP) :
    told { s with log := (cmd, code) :: s.log } addr = told s addr := by
  simp [told,other]

theorem drives_setFor (l : Lokdef) (emergencyStop : Bool) (addr : Int) :
    drives addr (setFor l emergencyStop) = (l.addr == addr) := rfl

/-! ### One loco -/

/-- The device part of a computation that drives no loco. -/
def Untold (s s' : SRCP) : Prop := ∀ addr, told s' addr = told s addr

theorem untold_closed : Closed Untold :=
  ⟨fun _ _ => rfl,fun _ _ _ first second addr => (second addr).trans (first addr)⟩

variable (srcpd : Srcpd)

theorem sendMessage_untold {cmd : SrcpCmd} (other : ∀ addr, drives addr cmd = false) :
    Moves Untold (sendMessage srcpd cmd) := by
  intro s addr
  simp only [sendMessage]
  split
  · rfl
  · exact told_other addr (other addr) _ s

/-- srcpd knows every loco it was to initialise. -/
abbrev Welcomed (g : Globals SRCP) : Prop := ¬ refused g.device

/-- What the INIT of a loco leaves, and what it tells. -/
theorem initLoco_told {i : Nat} {l : Lokdef} {g g' : Globals SRCP}
    (returned : initLoco srcpd i l g = .ok () g') (welcomed : Welcomed g') :
    Untold g.device g'.device ∧ Records Steady g.lokdef g'.lokdef := by
  simp only [initLoco] at returned
  split at returned
  · cases returned
    exact ⟨untold_closed.refl _,steady_closed.refl _⟩
  obtain ⟨code,g1,sent,returned⟩ := returned_of_bind returned
  have untold : Untold g.device g1.device ∧ g1.lokdef = g.lokdef ∧
      (code = 412 → refused g1.device) := by
    simp only [onDevice,focus,sendLocoInit,sendMessage] at sent
    cases answer : srcpd g.device.log _ with
    | none =>
      rw [answer] at sent
      cases sent
    | some reply =>
      rw [answer] at sent
      cases sent
      refine ⟨fun addr => told_other addr rfl _ _,rfl,?_⟩
      rintro rfl
      exact ⟨_,List.mem_cons_self,rfl⟩
  obtain ⟨first,table,answer⟩ := untold
  simp only [initReply] at returned
  split at returned
  · split at returned
    · rename_i refusal
      cases returned
      exact absurd (answer refusal) welcomed
    · cases returned
      exact ⟨first,table ▸ steady_closed.refl _⟩
  · obtain ⟨_,g2,set,returned⟩ := returned_of_bind returned
    obtain ⟨info,g3,asked,last⟩ := returned_of_bind returned
    cases last
    cases set
    have moved : Moves Untold (getInfo srcpd l.addr) :=
      moves_bind untold_closed (sendMessage_untold srcpd (fun _ => rfl)) (fun _ => moves_pure untold_closed _)
    have second := moved g1.device
    simp only [onDevice,focus] at asked
    cases answered : getInfo srcpd l.addr g1.device with
    | error e s =>
      rw [answered] at asked
      cases asked
    | ok known s =>
      rw [answered] at asked second
      cases asked
      refine ⟨untold_closed.trans _ _ _ first second,?_⟩
      rw [← table]
      exact Records.modify Steady.refl _ _ _ (fun _ _ => rfl)

/-- What `sendLoco` tells, and whom. -/
theorem sendLoco_told {i : Nat} {emergencyStop : Bool} {l : Lokdef} {g g' : Globals SRCP}
    (returned : sendLoco srcpd i emergencyStop g = .ok () g') (record : g.lokdef[i]? = some l) (welcomed : Welcomed g') :
    Records Steady g.lokdef g'.lokdef ∧ told g'.device l.addr = some (setFor l emergencyStop) ∧
      ∀ addr, addr ≠ l.addr → told g'.device addr = told g.device addr := by
  simp only [sendLoco,bind_apply,get_apply,record,Option.getD_some] at returned
  cases begun : initLoco srcpd i l g with
  | error e g1 =>
    rw [begun] at returned
    cases returned
  | ok _ g1 =>
    rw [begun] at returned
    simp only [onDevice,focus,sendLocoSpeed,sendMessage] at returned
    cases answer : srcpd g1.device.log
        (.setGL l.addr (drivemode l emergencyStop) (dccSpeed l) (nFahrstufen l) l.flagsOn) with
    | none =>
      rw [answer] at returned
      cases returned
    | some code =>
      rw [answer] at returned
      cases returned
      have before : Welcomed g1 := by
        rintro ⟨entry,member,refusal⟩
        exact welcomed ⟨entry,List.mem_cons_of_mem _ member,refusal⟩
      obtain ⟨untold,steady⟩ := initLoco_told srcpd begun before
      refine ⟨steady,by simp [told,drives,setFor],?_⟩
      intro addr other
      have apart : drives addr (setFor l emergencyStop) = false := by
        rw [drives_setFor]
        simpa using Ne.symm other
      exact (told_other addr apart code g1.device).trans (untold addr)

/-! ### One loco among the others -/

def Distinct (lokdef : List Lokdef) : Prop := ∀ i < nLokdef lokdef, First lokdef i

theorem Distinct.apart {lokdef : List Lokdef} (distinct : Distinct lokdef) {i j : Nat} {l m : Lokdef}
    (boundI : i < nLokdef lokdef) (boundJ : j < nLokdef lokdef) (recordI : lokdef[i]? = some l)
    (recordJ : lokdef[j]? = some m) (other : i ≠ j) : l.addr ≠ m.addr :=
  fun same => other (first_unique (distinct i boundI) (distinct j boundJ) recordI recordJ same)

theorem listed_record {lokdef : List Lokdef} {i : Nat} (bound : i < nLokdef lokdef) : ∃ l, lokdef[i]? = some l :=
  ⟨_,List.getElem?_eq_getElem (Nat.lt_of_lt_of_le bound (nLokdef_le lokdef))⟩

abbrev SameLocos (lokdef lokdef' : List Lokdef) : Prop := lokdef'.map Lokdef.addr = lokdef.map Lokdef.addr

theorem Distinct.kept {lokdef lokdef' : List Lokdef} (distinct : Distinct lokdef) (same : SameLocos lokdef lokdef') :
    Distinct lokdef' := by
  intro i bound
  rw [nLokdef_congr same] at bound
  exact first_congr same (distinct i bound)

theorem shaped_locos {lokdef lokdef' : List Lokdef} (shaped : Records Shaped lokdef lokdef') : SameLocos lokdef lokdef' :=
  shaped.map_eq Lokdef.addr (fun _ _ shape => shape.addr)

theorem steady_locos {lokdef lokdef' : List Lokdef} (steady : Records Steady lokdef lokdef') : SameLocos lokdef lokdef' :=
  steady.map_eq Lokdef.addr (fun _ _ steady => steady.addr)

/-- A loco from one state to another: nothing has changed for srcpd, or srcpd was told how it stands. -/
inductive Moved (s s' : SRCP) (l l' : Lokdef) : Prop where
  | kept (steady : Steady l l') (same : told s' l.addr = told s l.addr)
  | sent (addr : l'.addr = l.addr) (cmd : SrcpCmd) (last : told s' l.addr = some cmd) (agrees : Agrees l' cmd)

/-! ### The loop of a command -/

theorem calls_refused {clientID : Int} {g g' : Globals SRCP} {calls : List (Nat × Bool)}
    (made : Calls (SRCP_Hardware srcpd) clientID g calls g') (before : refused g.device) : refused g'.device := by
  induction made with
  | done g => exact before
  | @call g g1 g2 i emergencyStop rest ran more ih =>
    have effect := (SRCP_Hardware srcpd).sendLoco_effect clientID i emergencyStop
      { g with lokdef := g.lokdef.modify i (fun l => { l with lastClientID := clientID }) }
    rw [ran] at effect
    exact ih (effect.kept before)

theorem record_steady {lokdef lokdef' : List Lokdef} (steady : Records Steady lokdef lokdef') {i : Nat} {l : Lokdef}
    (record : lokdef[i]? = some l) : ∃ l', lokdef'[i]? = some l' ∧ Steady l l' := by
  have bound : i < lokdef'.length := steady.1 ▸ (List.getElem?_eq_some_iff.mp record).1
  exact ⟨_,List.getElem?_eq_getElem bound,steady.2 i l _ record (List.getElem?_eq_getElem bound)⟩

/-- The locos of the calls are told how they stand, and no other is told anything. -/
theorem calls_told {clientID : Int} {g g' : Globals SRCP} {calls : List (Nat × Bool)}
    (made : Calls (SRCP_Hardware srcpd) clientID g calls g') (welcomed : Welcomed g') (distinct : Distinct g.lokdef)
    (inside : ∀ i ∈ calls.map Prod.fst, i < nLokdef g.lokdef) (once : (calls.map Prod.fst).Nodup)
    (stand : ∀ call ∈ calls, call.2 = true → ∀ l, g.lokdef[call.1]? = some l → l.currspeed = 0)
    {i : Nat} {l : Lokdef} (bound : i < nLokdef g.lokdef) (record : g.lokdef[i]? = some l) :
    ∃ l', g'.lokdef[i]? = some l' ∧ Steady l l' ∧
      (i ∉ calls.map Prod.fst → told g'.device l.addr = told g.device l.addr) ∧
      (i ∈ calls.map Prod.fst → ∃ cmd, told g'.device l.addr = some cmd ∧ Agrees l' cmd) := by
  induction made generalizing l with
  | done g => exact ⟨l,record,Steady.refl l,fun _ => rfl,fun member => by cases member⟩
  | @call g g1 g2 j emergencyStop rest ran more ih =>
    simp only [List.map_cons,List.nodup_cons,List.mem_cons,forall_eq_or_imp] at once inside stand
    obtain ⟨m,whose⟩ := listed_record inside.1
    have noted : Records Steady g.lokdef (g.lokdef.modify j (fun l => { l with lastClientID := clientID })) :=
      Records.modify Steady.refl _ _ _ (fun _ _ => rfl)
    have first : Welcomed g1 := fun refusal => welcomed (calls_refused srcpd more refusal)
    obtain ⟨m',noted',here⟩ := record_steady noted whose
    obtain ⟨steady,told1,others⟩ := sendLoco_told srcpd ran noted' first
    have steps := steady_closed.trans _ _ _ noted steady
    have same := steady_locos steps
    obtain ⟨l1,record1,steady1⟩ := record_steady steps record
    have later := ih welcomed (distinct.kept same) (fun i member => nLokdef_congr same ▸ inside.2 i member) once.2
      (fun call member flag l1 record1 => by
        obtain ⟨l,before,steady⟩ := steps.before record1
        exact steady.currspeed.trans (stand.2 call member flag l before))
      (nLokdef_congr same ▸ bound) record1
    obtain ⟨l',last,steady2,untold,spoken⟩ := later
    rw [steady1.addr] at untold spoken
    refine ⟨l',last,steady1.trans steady2,?_,?_⟩
    · intro absent
      simp only [List.map_cons,List.mem_cons,not_or] at absent
      rw [untold absent.2,others]
      rw [here.addr]
      exact distinct.apart bound inside.1 record whose absent.1
    · intro member
      rcases List.mem_cons.mp member with is | behind
      · -- nothing behind the call speaks of its loco
        have is : i = j := is
        subst is
        rw [record] at whose
        cases whose
        refine ⟨_,(untold once.1).trans (here.addr ▸ told1),emergencyStop,?_,?_⟩
        · rw [here.setFor,(steady1.trans steady2).setFor]
        · intro flag
          exact (steady1.trans steady2).currspeed.trans (stand.1 flag l record)
      · exact spoken behind

/-! ### A message -/

theorem power_untold (on : Bool) : Moves (Leaves Untold)
    (onDevice (do let _ ← sendMessage srcpd (.power on); modify (fun s => { s with powered := on }))) := by
  refine onDevice_leaves (moves_bind untold_closed (sendMessage_untold srcpd (fun _ => rfl)) (fun _ => ?_))
  exact moves_modify _ (fun _ _ => rfl)

theorem respects_untold : Respects (SRCP_Hardware srcpd) Untold := by
  refine ⟨untold_closed,fun addr cv value => ?_,fun addr cv bitNr value => ?_⟩
  · refine moves_ite (moves_pure untold_closed _) ?_
    exact moves_bind untold_closed (sendMessage_untold srcpd (fun _ => rfl)) (fun _ => moves_pure untold_closed _)
  · exact moves_bind untold_closed (sendMessage_untold srcpd (fun _ => rfl)) (fun _ => moves_pure untold_closed _)

theorem powers_untold : PowersOnly (SRCP_Hardware srcpd) Untold := ⟨power_untold srcpd true,power_untold srcpd false⟩

/-- Before the loop a message tells srcpd of no loco. -/
theorem execute_untold (w : World) (cmd : FBTCtlMessage) (command : Option Command) (c : Ctx SRCP) :
    Untold c.globals.device (final (execute (SRCP_Hardware srcpd) w cmd command c)).globals.device := by
  cases planned : command.bind (plan w cmd c.lokdef) with
  | none =>
    exact (execute_quiet (respects_untold srcpd) w cmd c.lokdef command planned (fun _ => powers_untold srcpd) c).device
  | some p =>
    obtain ⟨name,rfl,planned⟩ := Option.bind_eq_some_iff.mp planned
    rw [(execute_driven (SRCP_Hardware srcpd) w cmd name c p planned).globals]
    exact untold_closed.refl _

/-- A command that does not drive leaves the whole table. -/
theorem execute_undriven (w : World) (cmd : FBTCtlMessage) {command : Option Command}
    (idle : ∀ name, command = some name → ¬ (name.Single ∨ name.Multi)) (c : Ctx SRCP) :
    (final (execute (SRCP_Hardware srcpd) w cmd command c)).lokdef = c.lokdef ∧
      (final (execute (SRCP_Hardware srcpd) w cmd command c)).changedAddrIndex = c.changedAddrIndex := by
  have unplanned : command.bind (plan w cmd c.lokdef) = none := by
    match command with
    | none => rfl
    | some name =>
      have none := idle name rfl
      cases name <;> first | rfl | exact absurd (by simp [Command.Single,Command.Multi]) none
  have still := execute_still (respects_untold srcpd) w cmd c.lokdef command unplanned
    (fun is => idle .SETFUNC is (by simp [Command.Single])) (fun _ => powers_untold srcpd) c
  exact ⟨still.globals.1,still.marks⟩

theorem setfunc_calm {w : World} {cmd : FBTCtlMessage} {c c1 : Ctx SRCP} {emergencyStop : Bool}
    (returned : SETFUNC w cmd c = .ok emergencyStop c1) : emergencyStop = false := by
  rw [SETFUNC_apply] at returned
  split at returned
  · cases returned
  obtain ⟨_,_,_,returned⟩ := returned_of_bind returned
  obtain ⟨_,_,_,returned⟩ := returned_of_bind returned
  obtain ⟨_,_,_,last⟩ := returned_of_bind returned
  cases last
  rfl

/-- The commands with an emergency stop have stopped their locos in the table. -/
theorem execute_stops {w : World} {cmd : FBTCtlMessage} {command : Command} {c c1 : Ctx SRCP}
    (drives : command.Single ∨ command.Multi)
    (returned : execute (SRCP_Hardware srcpd) w cmd (some command) c = .ok true c1) {i : Nat} {l : Lokdef}
    (named : Named cmd c.lokdef command i) (record : c1.lokdef[i]? = some l) : l.currspeed = 0 := by
  cases planned : plan w cmd c.lokdef command with
  | none =>
    have only : command = .SETFUNC := by
      rcases drives with (rfl | rfl | rfl | rfl | rfl) | (rfl | rfl | rfl | rfl) <;>
        first | rfl | cases planned
    subst only
    cases setfunc_calm returned
  | some p =>
    obtain ⟨updated,table⟩ := planned_updated (SRCP_Hardware srcpd) planned returned
    have stop : p.emergencyStop = true := by
      rcases (execute_driven (SRCP_Hardware srcpd) w cmd command c p planned).outcome with
        ⟨_,_,_,thrown⟩ | ⟨_,_,_,thrown⟩ | ⟨_,_,_,same,_⟩
      · rw [returned] at thrown; cases thrown
      · rw [returned] at thrown; cases thrown
      · rw [returned] at same
        exact (EStateM.Result.ok.inj same).1.symm
    rw [table,writeAll_getElem?,if_pos ((updated.members i).mpr named),plan_emergency planned stop] at record
    obtain ⟨before,_,rfl⟩ := Option.map_eq_some_iff.mp record
    rfl

/-- A driving command that comes to its end. -/
theorem driven_moved {clientID : Int} {w : World} {cmd : FBTCtlMessage} {command : Command} {c c1 c' : Ctx SRCP}
    {emergencyStop : Bool} (drives : command.Single ∨ command.Multi)
    (executed : execute (SRCP_Hardware srcpd) w cmd (some command) c = .ok emergencyStop c1)
    (looped : hardwareLoop (SRCP_Hardware srcpd) clientID (List.range c1.changedAddrIndex.length) emergencyStop c1 =
      .ok () c')
    (unmarked : Unmarked c.changedAddrIndex) (slots : c.changedAddrIndex.length = nLokdef c.lokdef + 1)
    (welcomed : Welcomed c'.globals) (distinct : Distinct c.lokdef) {i : Nat} {l : Lokdef}
    (bound : i < nLokdef c.lokdef) (record : c.lokdef[i]? = some l) :
    ∃ l', c'.lokdef[i]? = some l' ∧ Moved c.globals.device c'.globals.device l l' := by
  have untold := execute_untold srcpd w cmd (some command) c
  have shaped := (tracks_shape (SRCP_Hardware srcpd)).execute w cmd (some command) c
  rw [executed,final_ok] at untold shaped
  have same : SameLocos c.lokdef c1.lokdef := shaped_locos shaped
  have once := commandedOnce_of_updated (SRCP_Hardware srcpd) clientID drives unmarked slots executed looped
  obtain ⟨calls,more,made,sorted,members⟩ := once.calls
  have stand : ∀ call ∈ calls, call.2 = true → ∀ m, c1.lokdef[call.1]? = some m → m.currspeed = 0 := by
    intro call member flag m record1
    have flags := hardwareLoop_calls (SRCP_Hardware srcpd) clientID (List.range c1.changedAddrIndex.length)
      emergencyStop c1
    rw [looped,final_ok] at flags
    obtain ⟨calls',more',flagged,_⟩ := flags
    rw [more,once.uncalled] at more'
    obtain rfl := List.append_cancel_left more'
    have stop := flagged call member flag
    subst stop
    exact execute_stops srcpd drives executed ((members call.1).mp (List.mem_map_of_mem member)) record1
  obtain ⟨l1,record1,whose⟩ := record_congr same record
  obtain ⟨l',last,steady,silent,spoken⟩ := calls_told srcpd made welcomed (distinct.kept same)
    (fun j member => nLokdef_congr same ▸ named_bound ((members j).mp member)) (sorted.imp Nat.ne_of_lt) stand
    (nLokdef_congr same ▸ bound) record1
  refine ⟨l',last,?_⟩
  by_cases named : i ∈ calls.map Prod.fst
  · obtain ⟨cmd,told,agrees⟩ := spoken named
    exact .sent (steady.addr.trans whose) cmd (whose ▸ told) agrees
  · have before := once.unnamed i (fun is => named ((members i).mpr is))
    rw [record,record1] at before
    cases before
    exact .kept steady ((silent named).trans (untold l.addr))

/-- A message that comes to its end. -/
theorem processMessage_moved {clientID : Int} {w : World} {cmd : FBTCtlMessage} {c c' : Ctx SRCP}
    (returned : processMessage (SRCP_Hardware srcpd) clientID w cmd c = .ok () c') (unmarked : Unmarked c.changedAddrIndex)
    (slots : c.changedAddrIndex.length = nLokdef c.lokdef + 1) (welcomed : Welcomed c'.globals)
    (distinct : Distinct c.lokdef) {i : Nat} {l : Lokdef} (bound : i < nLokdef c.lokdef)
    (record : c.lokdef[i]? = some l) :
    ∃ l', c'.lokdef[i]? = some l' ∧ Moved c.globals.device c'.globals.device l l' := by
  obtain ⟨command,_,branch,returned⟩ := returned_of_bind returned
  cases outcome : commandOf w cmd with
  | error e =>
    rw [outcome] at branch
    cases branch
  | ok command' =>
    rw [outcome] at branch
    cases branch
    obtain ⟨emergencyStop,c1,executed,returned⟩ := returned_of_bind returned
    obtain ⟨_,_,⟨⟩,looped⟩ := returned_of_bind returned
    by_cases driving : ∃ name, command = some name ∧ (name.Single ∨ name.Multi)
    · obtain ⟨name,rfl,drives⟩ := driving
      exact driven_moved srcpd drives executed looped unmarked slots welcomed distinct bound record
    · have idle : ∀ name, command = some name → ¬ (name.Single ∨ name.Multi) :=
        fun name is drives => driving ⟨name,is,drives⟩
      have untold := execute_untold srcpd w cmd command c
      obtain ⟨table,marks⟩ := execute_undriven srcpd w cmd idle c
      rw [executed,final_ok] at untold table marks
      -- without a mark the loop calls nobody
      rw [hardwareLoop_unmarked _ _ _ _ _ (fun j _ => marks ▸ unmarked j)] at looped
      cases looped
      exact ⟨l,table ▸ record,.kept (Steady.refl l) (untold l.addr)⟩

/-! ### What srcpd knows -/

/-- The last command for a loco is how it stands. One there was none for stands still. -/
structure Knows (last : Option SrcpCmd) (l : Lokdef) : Prop where
  told : ∀ cmd, last = some cmd → Agrees l cmd
  untold : last = none → l.currspeed = 0

theorem knows_some {l : Lokdef} {cmd : SrcpCmd} (agrees : Agrees l cmd) : Knows (some cmd) l := by
  constructor
  · rintro _ ⟨⟩
    exact agrees
  · rintro ⟨⟩

theorem Moved.knows {s s' : SRCP} {l l' : Lokdef} (moved : Moved s s' l l') (before : Knows (told s l.addr) l) :
    Knows (told s' l'.addr) l' := by
  cases moved with
  | kept steady same =>
    rw [steady.addr,same]
    exact ⟨fun cmd last => steady.agrees (before.told cmd last),fun none => steady.currspeed.trans (before.untold none)⟩
  | sent addr cmd last agrees =>
    rw [addr,last]
    exact knows_some agrees

/-- Of every loco of the table. -/
def Aligned (g : Globals SRCP) : Prop :=
  ∀ i < nLokdef g.lokdef, ∀ l, g.lokdef[i]? = some l → Knows (told g.device l.addr) l

theorem Aligned.still {g g' : Globals SRCP} (aligned : Aligned g) (table : g'.lokdef = g.lokdef)
    (untold : Untold g.device g'.device) : Aligned g' := by
  intro i bound l record
  rw [table] at bound record
  exact (Moved.kept (Steady.refl l) (untold l.addr)).knows (aligned i bound l record)

theorem processMessage_aligned {clientID : Int} {w : World} {cmd : FBTCtlMessage} {c c' : Ctx SRCP}
    (returned : processMessage (SRCP_Hardware srcpd) clientID w cmd c = .ok () c') (unmarked : Unmarked c.changedAddrIndex)
    (slots : c.changedAddrIndex.length = nLokdef c.lokdef + 1) (welcomed : Welcomed c'.globals)
    (distinct : Distinct c.lokdef) (aligned : Aligned c.globals) : Aligned c'.globals := by
  have shaped := (tracks_shape (SRCP_Hardware srcpd)).processMessage clientID w cmd c
  rw [returned,final_ok] at shaped
  have same : SameLocos c.lokdef c'.lokdef := shaped_locos shaped
  intro i bound l' record'
  rw [nLokdef_congr same] at bound
  obtain ⟨l,record,_⟩ := shaped.before record'
  obtain ⟨l'',there,moved⟩ := processMessage_moved srcpd returned unmarked slots welcomed distinct bound record
  rw [record'] at there
  cases there
  exact moved.knows (aligned i bound l record)

/-! ### The end of a connection -/

/-- A loco that is stopped is told so, and no other is told anything. -/
theorem stopLoco_aligned {clientID : Int} {stopAll : Bool} {i : Nat} {l : Lokdef} {g g' : Globals SRCP}
    (returned : stopLoco srcpd clientID stopAll i l g = .ok () g') (welcomed : Welcomed g')
    (distinct : Distinct g.lokdef) (listed : i < nLokdef g.lokdef) (aligned : Aligned g) :
    SameLocos g.lokdef g'.lokdef ∧ Aligned g' := by
  simp only [stopLoco] at returned
  split at returned
  case isFalse =>
    cases returned
    exact ⟨rfl,aligned⟩
  obtain ⟨_,g1,stopped,returned⟩ := returned_of_bind returned
  obtain ⟨_,g2,sent,last⟩ := returned_of_bind returned
  cases stopped
  cases last
  obtain ⟨m,whose⟩ := listed_record listed
  have stands : (g.lokdef.modify i (fun l => { l with currspeed := 0 }))[i]? = some { m with currspeed := 0 } := by
    rw [List.getElem?_modify_eq,whose]
    rfl
  obtain ⟨steady,tells,others⟩ := sendLoco_told srcpd sent stands welcomed
  have steps : Records Steady (g.lokdef.modify i (fun l => { l with currspeed := 0 }))
      (g2.lokdef.modify i (fun l => { l with lastClientID := 0 })) :=
    steady_closed.trans _ _ _ steady (Records.modify Steady.refl _ _ _ (fun _ _ => rfl))
  have shaped : Records Shaped g.lokdef (g.lokdef.modify i (fun l => { l with currspeed := 0 })) :=
    Records.modify Shaped.refl _ _ _ (fun _ _ => ⟨rfl,rfl⟩)
  have same : SameLocos g.lokdef (g2.lokdef.modify i (fun l => { l with lastClientID := 0 })) :=
    (steady_locos steps).trans (shaped_locos shaped)
  refine ⟨same,?_⟩
  intro j bound l' record
  rw [nLokdef_congr same] at bound
  obtain ⟨l1,before,kept⟩ := steps.before record
  by_cases is : j = i
  · subst is
    rw [stands] at before
    cases before
    rw [kept.addr]
    exact tells ▸ knows_some ⟨true,(kept.setFor true).symm,fun _ => kept.currspeed⟩
  · rw [List.getElem?_modify_ne _ _ (Ne.symm is)] at before
    have apart : l1.addr ≠ m.addr := distinct.apart bound listed before whose is
    exact (Moved.kept kept (others l1.addr apart)).knows (aligned j bound l1 before)

theorem fullstopLoop_aligned {clientID : Int} {stopAll : Bool} {indices : List Nat} {g g' : Globals SRCP}
    (returned : fullstopLoop srcpd clientID stopAll indices g = .ok () g') (welcomed : Welcomed g')
    (distinct : Distinct g.lokdef) (listed : ∀ i ∈ indices, i < nLokdef g.lokdef) (aligned : Aligned g) : Aligned g' := by
  induction indices generalizing g with
  | nil =>
    cases returned
    exact aligned
  | cons i rest ih =>
    obtain ⟨_,_,⟨⟩,returned⟩ := returned_of_bind returned
    obtain ⟨_,g1,stopped,more⟩ := returned_of_bind returned
    have first : Welcomed g1 := by
      intro refusal
      have effect := fullstopLoop_effect srcpd clientID stopAll rest g1
      rw [more,final_ok] at effect
      exact welcomed (effect.kept refusal)
    obtain ⟨same,between⟩ := stopLoco_aligned srcpd stopped first distinct (listed i List.mem_cons_self) aligned
    exact ih more (distinct.kept same)
      (fun j member => nLokdef_congr same ▸ listed j (List.mem_cons_of_mem _ member)) between

theorem destructor_aligned {clientID : Int} {last : Bool} {g g' : Globals SRCP}
    (returned : Server.destructor (SRCP_Hardware srcpd) clientID last g = .ok () g') (welcomed : Welcomed g')
    (distinct : Distinct g.lokdef) (aligned : Aligned g) : Aligned g' := by
  obtain ⟨_,g1,stopped,returned⟩ := returned_of_bind returned
  cases returned
  obtain ⟨_,_,⟨⟩,looped⟩ := returned_of_bind stopped
  exact fullstopLoop_aligned srcpd looped welcomed distinct (fun i member => List.mem_range.mp member) aligned

/-! ### A message that throws -/

theorem sendMessage_aborts (cmd : SrcpCmd) : Throws (· = Err.abort) (sendMessage srcpd cmd) := by
  intro s e s' thrown
  simp only [sendMessage] at thrown
  split at thrown
  · cases thrown
    rfl
  · cases thrown

theorem initLoco_aborts (i : Nat) (l : Lokdef) : Throws (· = Err.abort) (initLoco srcpd i l) := by
  refine throws_ite (throws_pure _) (throws_bind (throws_focus (sendMessage_aborts srcpd _)) (fun code => ?_))
  refine throws_ite (throws_ite (throws_modify _) (throws_pure _)) (throws_bind (throws_modify _) (fun _ => ?_))
  have asked : Throws (· = Err.abort) (getInfo srcpd l.addr) :=
    throws_bind (sendMessage_aborts srcpd _) (fun _ => throws_pure _)
  exact throws_bind (throws_focus asked) (fun _ => throws_pure _)

theorem sendLoco_aborts (i : Nat) (emergencyStop : Bool) : Throws (· = Err.abort) (sendLoco srcpd i emergencyStop) := by
  refine throws_bind throws_get (fun g => throws_bind (initLoco_aborts srcpd i _) (fun _ => ?_))
  exact throws_bind (throws_focus (sendMessage_aborts srcpd _)) (fun _ => throws_pure _)

/-- Once a command has written the table, only an abort stops its loop. -/
theorem hardwareLoop_aborts (clientID : Int) (indices : List Nat) (emergencyStop : Bool) :
    Throws (· = Err.abort) (hardwareLoop (SRCP_Hardware srcpd) clientID indices emergencyStop) := by
  induction indices generalizing emergencyStop with
  | nil => exact throws_pure _
  | cons i rest ih =>
    refine throws_bind throws_get (fun c => throws_ite (throws_bind ?_ (fun _ => ih false)) (ih emergencyStop))
    have noted : Throws (· = Err.abort) (setLoko i (fun l => { l with lastClientID := clientID }) : Action SRCP Unit) := by
      intro c e c' thrown
      rw [setLoko_apply] at thrown
      cases thrown
    refine throws_bind (throws_modify _) (fun _ => throws_bind noted (fun _ => ?_))
    exact throws_bind (throws_modify _) (fun _ => throws_focus (sendLoco_aborts srcpd i emergencyStop))

theorem processMessage_untold {clientID : Int} {w : World} {cmd : FBTCtlMessage} {c c' : Ctx SRCP} {e : Err}
    (thrown : processMessage (SRCP_Hardware srcpd) clientID w cmd c = .error e c') (goes : e ≠ .abort) :
    Untold c.globals.device c'.globals.device := by
  rw [processMessage,bind_apply] at thrown
  cases branch : commandOf w cmd with
  | error e' =>
    rw [branch] at thrown
    cases thrown
    exact untold_closed.refl _
  | ok command =>
    rw [branch,lift_ok] at thrown
    simp only [bind_apply] at thrown
    have untold := execute_untold srcpd w cmd command c
    cases executed : execute (SRCP_Hardware srcpd) w cmd command c with
    | error e' c1 =>
      rw [executed] at thrown untold
      cases thrown
      exact untold
    | ok emergencyStop c1 =>
      simp only [executed,get_apply] at thrown
      exact absurd (hardwareLoop_aborts srcpd clientID _ _ _ _ _ thrown) goes

/-! ### Runs -/

/-- The message of the step comes to its end, or has written nothing. -/
def clean (s : Server SRCP) : Label → Bool
  | .message clientID w cmd => match s.phaseOf clientID with
    | some (.running lastStatus changedAddrIndex) =>
      match processMessage (SRCP_Hardware srcpd) clientID w cmd (s.context lastStatus changedAddrIndex) with
      | .ok _ _ => true
      | .error _ c => decide (c.lokdef = s.lokdef)
    | _ => true
  | _ => true

theorem tracks_refused :
    Btcontrol.Tracks (SRCP_Hardware srcpd) (fun g g' : Globals SRCP => refused g.device → refused g'.device) := by
  have device {α : Type} {m : EStateM Err SRCP α} (moves : Moves (fun s s' => refused s → refused s') m) :
      Moves (fun g g' : Globals SRCP => refused g.device → refused g'.device) (onDevice m) :=
    fun g => (onDevice_effect moves g).kept
  constructor
  · exact ⟨fun _ => id,fun _ _ _ first second => second ∘ first⟩
  · exact fun _ _ _ => id
  · exact fun clientID i emergencyStop g => (sendLoco_effect srcpd i emergencyStop g).kept
  · exact fun clientID stopAll emergencyStop g =>
      ((SRCP_Hardware srcpd).fullstop_effect clientID stopAll emergencyStop g).kept
  · exact device (power_kept srcpd true)
  · exact device (power_kept srcpd false)
  · exact device (moves_pure kept_closed _)
  · exact fun all => device (moves_pure kept_closed _)
  · intro addr cv value
    refine device (moves_ite (moves_pure kept_closed _) ?_)
    exact moves_bind kept_closed (sendMessage_kept srcpd _) (fun _ => moves_pure kept_closed _)
  · intro addr cv bitNr value
    exact device (moves_bind kept_closed (sendMessage_kept srcpd _) (fun _ => moves_pure kept_closed _))

structure Watched (s : Server SRCP) : Prop where
  ready : s.Ready
  distinct : Distinct s.lokdef
  aligned : s.halted = false → Welcomed s.globals → Aligned s.globals

/-- One step. -/
theorem step_watched (s : Server SRCP) (label : Label) (fine : clean srcpd s label = true) (watched : Watched s) :
    Watched (Server.step (SRCP_Hardware srcpd) s label) := by
  refine ⟨Server.step_ready _ s label watched.ready,
    watched.distinct.kept (Server.step_addrs (SRCP_Hardware srcpd) s label),?_⟩
  intro running welcomed
  by_cases halted : s.halted = true
  · rw [Server.step_halted _ s label halted,halted] at running
    cases running
  have live : s.halted = false := Bool.eq_false_iff.mpr halted
  have aligned := watched.aligned live (fun refusal => welcomed ((tracks_refused srcpd).step s label refusal))
  cases label <;> simp only [Server.step,live,Bool.false_eq_true,↓reduceIte] at running welcomed ⊢
  case accept => exact aligned
  case readFails clientID => split <;> exact aligned
  case helo clientID w =>
    split
    · have left := sendHelo_leaves (SRCP_Hardware srcpd) untold_closed (moves_pure untold_closed _) w (s.context [] [])
      cases sent : sendHelo (SRCP_Hardware srcpd) w (s.context [] []) with
      | ok _ c =>
        rw [sent] at left
        exact aligned.still left.globals.1 left.globals.2
      | error e c =>
        rw [sent] at left
        exact aligned.still left.globals.1 left.globals.2
    · exact aligned
  case message clientID w cmd =>
    split
    · rename_i lastStatus changedAddrIndex phase
      simp only [phase] at running welcomed
      cases processed : processMessage (SRCP_Hardware srcpd) clientID w cmd (s.context lastStatus changedAddrIndex) with
      | ok _ c =>
        simp only [processed] at welcomed
        obtain ⟨unmarked,slots⟩ := watched.ready.running phase
        exact processMessage_aligned srcpd processed unmarked slots welcomed watched.distinct aligned
      | error e c =>
        simp only [processed,Server.leave,decide_eq_false_iff_not] at running
        simp only [clean,phase,processed,decide_eq_true_eq] at fine
        exact aligned.still fine (processMessage_untold srcpd processed running)
    · exact aligned
  case destroy clientID =>
    split
    · rename_i phase
      simp only [phase] at running welcomed
      cases stopped : Server.destructor (SRCP_Hardware srcpd) clientID (s.numClients - 1 = 0) s.globals with
      | ok _ g =>
        rw [stopped] at welcomed
        exact destructor_aligned srcpd stopped welcomed watched.distinct aligned
      | error e g =>
        rw [stopped] at running
        cases running
    · exact aligned

theorem run_watched {lokdefCsv : Str} {lokdef : List Lokdef} (read : readLokdef lokdefCsv = .ok lokdef)
    (distinct : Distinct lokdef) {labels : List Label}
    (fine : Transition.Along (Server.step (SRCP_Hardware srcpd)) (fun s label => clean srcpd s label = true)
      (Server.start lokdef {}) labels) :
    Watched (Server.run (SRCP_Hardware srcpd) (Server.start lokdef {}) labels) := by
  refine Transition.run_invariant (step_watched srcpd) labels _ ?_ fine
  refine ⟨(fun client member => by cases member),distinct,fun _ _ i _ l record => ?_⟩
  have fresh := readLokdef_fresh lokdefCsv lokdef read l (List.mem_of_getElem? record)
  exact ⟨(fun cmd last => by cases last),fun _ => fresh.currspeed⟩

end SRCP

/-- Whatever the clients send, and however the turns of their threads interleave: as long as every message that
throws has written nothing, srcpd was last told of every loco what the table says of it: the direction, the speed,
the speed steps and the functions, or to stop one that stands. A loco it was told nothing of stands still. -/
theorem srcpd_follows (srcpd : Srcpd) (lokdefCsv : Str) (lokdef : List Lokdef)
    (read : readLokdef lokdefCsv = .ok lokdef) (distinct : SRCP.Distinct lokdef) (labels : List Label)
    (fine : Transition.Along (Server.step (SRCP_Hardware srcpd)) (fun s label => SRCP.clean srcpd s label = true)
      (Server.start lokdef {}) labels)
    (running : (Server.run (SRCP_Hardware srcpd) (Server.start lokdef {}) labels).halted = false)
    (welcomed : ¬ SRCP.refused (Server.run (SRCP_Hardware srcpd) (Server.start lokdef {}) labels).globals.device)
    (i : Nat) (l : Lokdef)
    (listed : i < nLokdef (Server.run (SRCP_Hardware srcpd) (Server.start lokdef {}) labels).lokdef)
    (record : (Server.run (SRCP_Hardware srcpd) (Server.start lokdef {}) labels).lokdef[i]? = some l) :
    SRCP.Knows (SRCP.told (Server.run (SRCP_Hardware srcpd) (Server.start lokdef {}) labels).globals.device l.addr) l :=
  (SRCP.run_watched srcpd read distinct fine).aligned running welcomed i listed l record

def accelerated : List Label := joined ++ [.message 1 online (oneLoco 9 3)]

theorem twoLocos_distinct : SRCP.Distinct twoLocos := by
  intro i bound
  have two : nLokdef twoLocos = 2 := rfl
  rw [two] at bound
  match i with
  | 0 => exact ⟨_,rfl,rfl⟩
  | 1 => exact ⟨_,rfl,rfl⟩

theorem srcpd_follows_acc : SRCP.Knows
    (SRCP.told (Server.run (SRCP_Hardware okSrcpd) (Server.start twoLocos {}) accelerated).globals.device 3)
    ((Server.run (SRCP_Hardware okSrcpd) (Server.start twoLocos {}) accelerated).lokdef[0]?.getD .zeroed) := by
  have reached : (Server.run (SRCP_Hardware okSrcpd) (Server.start twoLocos {}) accelerated).halted = false ∧
      ¬ SRCP.refused (Server.run (SRCP_Hardware okSrcpd) (Server.start twoLocos {}) accelerated).globals.device ∧
      0 < nLokdef (Server.run (SRCP_Hardware okSrcpd) (Server.start twoLocos {}) accelerated).lokdef ∧
      ((Server.run (SRCP_Hardware okSrcpd) (Server.start twoLocos {}) accelerated).lokdef[0]?).map Lokdef.addr =
        some 3 := by
    decide +kernel
  obtain ⟨running,welcomed,listed,first⟩ := reached
  obtain ⟨l,record,addr⟩ := Option.map_eq_some_iff.mp first
  rw [record,← addr]
  exact srcpd_follows okSrcpd twoLocosCsv twoLocos readLokdef_twoLocos twoLocos_distinct accelerated (by decide +kernel)
    running welcomed 0 l listed record

/-! ### What srcpd hears -/

namespace SRCP

/-- The commands srcpd reads behind the greeting. -/
def heard (received : Str) : List SrcpCmd := ((pieces 10 [] received).drop greeting.length).filterMap Reader.readCmd

theorem heard_written {s : SRCP} (readable : Readable s) : heard (written s) = commands s := by
  have read := congrArg (List.filterMap id) (read_written readable)
  rw [List.filterMap_map,List.filterMap_map] at read
  exact read.trans List.filterMap_some

def lastFor (cmds : List SrcpCmd) (addr : Int) : Option SrcpCmd := cmds.reverse.find? (drives addr)

theorem lastFor_commands (s : SRCP) (addr : Int) : lastFor (commands s) addr = told s addr := by
  rw [lastFor,commands,← List.map_reverse,List.reverse_reverse]
  rfl

end SRCP

/-- From the bytes of the clients to those of srcpd: whatever arrives on any connection, in any pieces and any order
of whole turns, as long as every message that throws has written nothing, the last command for a loco that srcpd
reads off its socket is how the loco stands in the table. -/
theorem srcpd_hears (srcpd : Srcpd) (lokdefCsv : Str) (lokdef : List Lokdef)
    (read : readLokdef lokdefCsv = .ok lokdef) (distinct : SRCP.Distinct lokdef) (labels : List WireLabel)
    (fine : Transition.Along (Server.step (SRCP_Hardware srcpd)) (fun s label => SRCP.clean srcpd s label = true)
      (Server.start lokdef {}) (WireServer.run (SRCP_Hardware srcpd) (WireServer.start lokdef {}) labels).trace)
    (running : (WireServer.run (SRCP_Hardware srcpd) (WireServer.start lokdef {}) labels).server.halted = false)
    (welcomed : ¬ SRCP.refused
      (WireServer.run (SRCP_Hardware srcpd) (WireServer.start lokdef {}) labels).server.globals.device)
    (i : Nat) (l : Lokdef)
    (listed : i < nLokdef (WireServer.run (SRCP_Hardware srcpd) (WireServer.start lokdef {}) labels).server.lokdef)
    (record : (WireServer.run (SRCP_Hardware srcpd) (WireServer.start lokdef {}) labels).server.lokdef[i]? = some l) :
    SRCP.Knows (SRCP.lastFor (SRCP.heard (SRCP.written
      (WireServer.run (SRCP_Hardware srcpd) (WireServer.start lokdef {}) labels).server.globals.device)) l.addr) l := by
  have readable := (SRCP.run_sane srcpd read labels).log
  have wired : WireServer.Wired (SRCP_Hardware srcpd) lokdef ({} : SRCP) _ :=
    WireServer.run_wired lokdef ({} : SRCP) labels
  have watched := SRCP.run_watched srcpd read distinct fine
  rw [← wired.simulates] at watched
  rw [SRCP.heard_written readable,SRCP.lastFor_commands]
  exact watched.aligned running welcomed i listed l record

theorem srcpd_hears_acc : SRCP.Knows (SRCP.lastFor (SRCP.heard (SRCP.written
      (WireServer.run (SRCP_Hardware okSrcpd) (WireServer.start twoLocos {}) accelerating).server.globals.device)) 3)
    ((WireServer.run (SRCP_Hardware okSrcpd) (WireServer.start twoLocos {}) accelerating).server.lokdef[0]?.getD
      .zeroed) := by
  have reached : (WireServer.run (SRCP_Hardware okSrcpd) (WireServer.start twoLocos {}) accelerating).server.halted =
        false ∧
      ¬ SRCP.refused
        (WireServer.run (SRCP_Hardware okSrcpd) (WireServer.start twoLocos {}) accelerating).server.globals.device ∧
      0 < nLokdef (WireServer.run (SRCP_Hardware okSrcpd) (WireServer.start twoLocos {}) accelerating).server.lokdef ∧
      ((WireServer.run (SRCP_Hardware okSrcpd) (WireServer.start twoLocos {}) accelerating).server.lokdef[0]?).map
        Lokdef.addr = some 3 := by
    decide +kernel
  obtain ⟨running,welcomed,listed,first⟩ := reached
  obtain ⟨l,record,addr⟩ := Option.map_eq_some_iff.mp first
  rw [record,← addr]
  exact srcpd_hears okSrcpd twoLocosCsv twoLocos readLokdef_twoLocos twoLocos_distinct accelerating (by decide +kernel)
    running welcomed 0 l listed record

end Btcontrol
