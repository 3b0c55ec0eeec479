import Btcontrol.Deliverable
import Btcontrol.Devices
import Btcontrol.Logging
import Btcontrol.SrcpText

/-! What srcpd receives of a whole run. Every number that reaches a command comes from `lokdef.csv` or
from a message of a client, so it is an `int`, and no command is cut or misread. -/
namespace Btcontrol

open Bytes Exec ClientThread Words

/-! ### Numbers of a message -/

theorem carried_lookup {structVal : List (Str × FBTCtlMessage)} (carried : Wire.CarriedFields structVal) {name : Str}
    {value : FBTCtlMessage} (found : structVal.lookup name = some value) : Wire.Carried value := by
  induction structVal with
  | nil => cases found
  | cons first rest ih =>
    obtain ⟨key,old⟩ := first
    rw [List.lookup_cons] at found
    split at found
    · cases found
      exact carried.1
    · exact ih carried.2 found

theorem getInt_fits {cmd : FBTCtlMessage} (carried : Wire.Carried cmd) {name : String} {n : Int}
    (found : getInt cmd name = .ok n) : Fits32 n := by
  obtain ⟨value,field,int⟩ := ok_of_bind found
  have small : Wire.Carried value := by
    cases cmd with
    | struct type structVal =>
      simp only [FBTCtlMessage.field] at field
      split at field
      · cases field
      · cases field
        cases there : structVal.lookup (str name) with
        | none => trivial
        | some value => exact carried_lookup carried there
    | null type =>
      simp only [FBTCtlMessage.field] at field
      split at field
      · cases field
      · cases field
        trivial
    | _ => cases field
  cases value with
  | int ival =>
    cases int
    exact small
  | _ => cases int

theorem readMessage_carried {so so' : List (List UInt8)} {cmd : FBTCtlMessage}
    (read : CommThread.readMessage protocolDat so = .ok (cmd, so')) : Wire.Carried cmd := by
  obtain ⟨⟨header,so1⟩,_,read⟩ := ok_of_bind read
  dsimp only at read
  split at read
  · cases read
  · obtain ⟨⟨buffer,so2⟩,_,read⟩ := ok_of_bind read
    obtain ⟨⟨cmd,input⟩,decoded,read⟩ := ok_of_bind read
    cases read
    exact Codec.readMessage_carried _ _ _ _ decoded

/-! ### Numbers of a record -/

/-- What a record gives to a command. -/
structure Printable (l : Lokdef) : Prop where
  addr : Fits32 l.addr
  nFunc : Fits32 l.nFunc
  currspeed : -255 ≤ l.currspeed ∧ l.currspeed ≤ 255

theorem readLine_nFunc {lineNo : Nat} {line : Str} {l : Lokdef} (read : readLine lineNo line = .ok (some l)) :
    Fits32 l.nFunc := by
  simp only [readLine] at read
  split at read
  · cases read
  split at read
  · cases read
  split at read
  · cases read
  split at read
  · cases read
  split at read
  · cases read
  rename_i nFuncPos _
  split at read
  · cases read
  rename_i small
  obtain ⟨⟨pos,func⟩,_,read⟩ := ok_of_bind read
  dsimp only at read
  split at read
  · cases read
  · cases read
    have bounds := atoi_fits nFuncPos
    have most : (MAX_NFUNC : Int) = 32 := rfl
    unfold Fits32 at bounds ⊢
    dsimp only
    omega

theorem readLokdef_printable {lokdefCsv : Str} {lokdef : List Lokdef} (read : readLokdef lokdefCsv = .ok lokdef) :
    ∀ l ∈ lokdef, Printable l := by
  refine readLokdef_all ⟨by decide,by decide,by decide⟩ ?_ lokdefCsv lokdef read
  intro lineNo line l here
  obtain ⟨fresh,addr,_⟩ := readLine_record lineNo line l here
  refine ⟨addr ▸ atoi_fits line,readLine_nFunc here,?_⟩
  rw [fresh.currspeed]
  decide

theorem printable_zeroed : Printable .zeroed := ⟨by decide,by decide,by decide⟩

namespace SRCP

theorem nFahrstufen_le (l : Lokdef) : nFahrstufen l ≤ 128 := by
  simp only [nFahrstufen]
  split
  · decide
  · split <;> decide

theorem dccSpeed_le {l : Lokdef} (slow : -255 ≤ l.currspeed ∧ l.currspeed ≤ 255) : dccSpeed l ≤ 128 := by
  have steps := nFahrstufen_le l
  have speed : l.currspeed.natAbs ≤ 255 := by omega
  calc l.currspeed.natAbs * nFahrstufen l / 255 ≤ 255 * 128 / 255 :=
      Nat.div_le_div_right (Nat.mul_le_mul speed steps)
    _ = 128 := by decide

theorem small_fits {n : Nat} (small : n ≤ 128) : Fits32 (n : Int) := by
  unfold Fits32
  omega

theorem set_sound {l : Lokdef} (printable : Printable l) (emergencyStop : Bool) :
    (SrcpCmd.setGL l.addr (drivemode l emergencyStop) (dccSpeed l) (nFahrstufen l) l.flagsOn).Sound := by
  refine ⟨printable.addr,?_,small_fits (dccSpeed_le printable.currspeed),small_fits (nFahrstufen_le l),?_⟩
  · apply small_fits
    simp only [drivemode]
    split
    · decide
    · split <;> decide
  · simp only [Lokdef.flagsOn,List.length_map,List.length_take,Vector.length_toList]
    omega

/-- Every command so far can be read. -/
def Readable (s : SRCP) : Prop := ∀ entry ∈ s.log, entry.1.Sound

theorem readable_closed : Closed (fun s s' : SRCP => Readable s → Readable s') :=
  ⟨fun _ => id,fun _ _ _ first second => second ∘ first⟩

structure Sane (g : Globals SRCP) : Prop where
  table : ∀ l ∈ g.lokdef, Printable l
  log : Readable g.device

theorem sane_closed : Closed (fun g g' : Globals SRCP => Sane g → Sane g') :=
  ⟨fun _ => id,fun _ _ _ first second => second ∘ first⟩

theorem Sane.record {g : Globals SRCP} (sane : Sane g) (i : Nat) : Printable (g.lokdef[i]?.getD .zeroed) := by
  cases there : g.lokdef[i]? with
  | none => exact printable_zeroed
  | some l => exact sane.table l (List.mem_of_getElem? there)

/-- What a table keeps whose records keep their addresses and whose speeds stay in bounds. -/
theorem printable_table {lokdef lokdef' : List Lokdef} (table : ∀ l ∈ lokdef, Printable l)
    (shaped : Records Shaped lokdef lokdef')
    (slow : Speeds (fun speed => -255 ≤ speed ∧ speed ≤ 255) lokdef') : ∀ l ∈ lokdef', Printable l := by
  intro l' member
  obtain ⟨i,there⟩ := List.mem_iff_getElem?.mp member
  obtain ⟨l,here,shape⟩ := shaped.before there
  have before := table l (List.mem_of_getElem? here)
  exact ⟨shape.addr ▸ before.addr,shape.nFunc ▸ before.nFunc,slow l' member⟩

theorem Sane.slow {g : Globals SRCP} (sane : Sane g) : Speeds (fun speed => -255 ≤ speed ∧ speed ≤ 255) g.lokdef :=
  fun l member => (sane.table l member).currspeed

variable (srcpd : Srcpd)

theorem sendMessage_readable {cmd : SrcpCmd} (sound : cmd.Sound) :
    Moves (fun s s' : SRCP => Readable s → Readable s') (sendMessage srcpd cmd) := by
  intro s readable
  simp only [sendMessage]
  split
  · exact readable
  · intro entry member
    rcases List.mem_cons.mp member with rfl | before
    · exact sound
    · exact readable entry before

theorem onDevice_sane {α : Type} {m : EStateM Err SRCP α} (moved : Moves (fun s s' => Readable s → Readable s') m) :
    Moves (fun g g' : Globals SRCP => Sane g → Sane g') (onDevice m) :=
  moves_focus moved (fun _ _ readable sane => ⟨sane.table,readable sane.log⟩)

theorem setLok_sane (i : Nat) (f : Lokdef → Lokdef) (kept : ∀ l, Printable l → Printable (f l)) :
    Moves (fun g g' : Globals SRCP => Sane g → Sane g') (setLok i f) := by
  intro g sane
  refine ⟨?_,sane.log⟩
  have records : Records (fun l l' => Printable l → Printable l') g.lokdef (g.lokdef.modify i f) := by
    apply Records.modify
    · exact fun _ => id
    · exact fun l _ => kept l
  intro l' member
  obtain ⟨j,there⟩ := List.mem_iff_getElem?.mp member
  obtain ⟨l,here,keeps⟩ := records.before there
  exact keeps (sane.table l (List.mem_of_getElem? here))

theorem initLoco_sane (i : Nat) {l : Lokdef} (printable : Printable l) :
    Moves (fun g g' : Globals SRCP => Sane g → Sane g') (initLoco srcpd i l) := by
  have version : Fits32 ((if l.addr < 128 then 1 else 2 : Nat) : Int) := by split <;> decide
  apply moves_ite
  · exact moves_pure sane_closed _
  refine moves_bind sane_closed (onDevice_sane (sendMessage_readable srcpd
    ⟨printable.addr,version,small_fits (nFahrstufen_le l),printable.nFunc⟩)) (fun code => ?_)
  apply moves_ite
  · apply moves_ite
    · exact setLok_sane i _ (fun l ok => ⟨ok.addr,ok.nFunc,by simp⟩)
    · exact moves_pure sane_closed _
  refine moves_bind sane_closed (setLok_sane i _ (fun l ok => ⟨ok.addr,ok.nFunc,ok.currspeed⟩)) (fun _ => ?_)
  have asked : Moves (fun s s' : SRCP => Readable s → Readable s') (getInfo srcpd l.addr) :=
    moves_bind readable_closed (@sendMessage_readable srcpd (.getGL l.addr) printable.addr)
      (fun _ => moves_pure readable_closed _)
  exact moves_bind sane_closed (onDevice_sane asked) (fun _ => moves_pure sane_closed _)

theorem sendLoco_sane (i : Nat) (emergencyStop : Bool) :
    Moves (fun g g' : Globals SRCP => Sane g → Sane g') (sendLoco srcpd i emergencyStop) := by
  intro g sane
  -- the record is read once, before anything is sent
  have printable := sane.record i
  have sent : Moves (fun g g' : Globals SRCP => Sane g → Sane g') (do
      initLoco srcpd i (g.lokdef[i]?.getD .zeroed)
      let _ ← onDevice (sendLocoSpeed srcpd (g.lokdef[i]?.getD .zeroed).addr
        (drivemode (g.lokdef[i]?.getD .zeroed) emergencyStop) (nFahrstufen (g.lokdef[i]?.getD .zeroed))
        (dccSpeed (g.lokdef[i]?.getD .zeroed)) (g.lokdef[i]?.getD .zeroed).flagsOn)
      pure ()) := by
    refine moves_bind sane_closed (initLoco_sane srcpd i printable) (fun _ => ?_)
    exact moves_bind sane_closed (onDevice_sane (sendMessage_readable srcpd (set_sound printable emergencyStop)))
      (fun _ => moves_pure sane_closed _)
  exact sent g sane

theorem stopLoco_sane (clientID : Int) (stopAll : Bool) (i : Nat) (l : Lokdef) :
    Moves (fun g g' : Globals SRCP => Sane g → Sane g') (stopLoco srcpd clientID stopAll i l) := by
  apply moves_ite _ (moves_pure sane_closed _)
  refine moves_bind sane_closed (setLok_sane i _ (fun l ok => ⟨ok.addr,ok.nFunc,by simp⟩)) (fun _ => ?_)
  refine moves_bind sane_closed (sendLoco_sane srcpd i true) (fun _ => ?_)
  exact setLok_sane i _ (fun l ok => ⟨ok.addr,ok.nFunc,ok.currspeed⟩)

theorem fullstopLoop_sane (clientID : Int) (stopAll : Bool) (indices : List Nat) :
    Moves (fun g g' : Globals SRCP => Sane g → Sane g') (fullstopLoop srcpd clientID stopAll indices) := by
  induction indices with
  | nil => exact moves_pure sane_closed _
  | cons i rest ih =>
    refine moves_bind sane_closed (moves_get sane_closed) (fun g => ?_)
    exact moves_bind sane_closed (stopLoco_sane srcpd clientID stopAll i _) (fun _ => ih)

theorem power_sane (on : Bool) : Moves (fun g g' : Globals SRCP => Sane g → Sane g')
    (onDevice (do let _ ← sendMessage srcpd (.power on); modify (fun s => { s with powered := on }))) := by
  refine onDevice_sane (moves_bind readable_closed (@sendMessage_readable srcpd (.power on) trivial) (fun _ => ?_))
  exact moves_modify _ (fun _ => id)

/-! ### A message -/

/-- The backend without its programming commands. -/
def unprogrammed : Hardware SRCP :=
  { SRCP_Hardware srcpd with sendPOM := fun _ _ _ => pure 0, sendPOMBit := fun _ _ _ _ => pure 0 }

theorem unprogrammed_respects : Respects (unprogrammed srcpd) (fun s s' => s' = s) :=
  ⟨closed_eq,fun _ _ _ _ => rfl,fun _ _ _ _ _ => rfl⟩

theorem execute_unprogrammed {command : Option Command} (pom : command ≠ some .POM) (pomBit : command ≠ some .POMBIT)
    (w : World) (cmd : FBTCtlMessage) :
    execute (SRCP_Hardware srcpd) w cmd command = execute (unprogrammed srcpd) w cmd command := by
  match command with
  | some .POM => exact absurd rfl pom
  | some .POMBIT => exact absurd rfl pomBit
  | none | some .PING | some .ACC | some .BREAK | some .DIR | some .STOP | some .ACC_MULTI | some .BREAK_MULTI
  | some .DIR_MULTI | some .STOP_MULTI | some .SETFUNC | some .GETLOCOS | some .GETFUNCTIONS | some .POWER
  | some .GETIMAGE | some .HELO_ERR | some .BTSCAN | some .BTPUSH => rfl

/-- Two contexts of a message, by what they share. -/
abbrev Sanely (c c' : Ctx SRCP) : Prop := Sane c.globals → Sane c'.globals

theorem sanely_closed : Closed Sanely := ⟨fun _ => id,fun _ _ _ first second => second ∘ first⟩

theorem addrIndex_sane (addr : Except Err Int) : Moves Sanely (addrIndex addr : Action SRCP Nat) := by
  intro c
  rw [addrIndex_apply]
  exact moves_lift sanely_closed _ c

theorem sendValue_sane (w : World) (name : String) (value : Int) :
    Moves Sanely (sendValue w name value : Action SRCP Bool) :=
  fun c => (sendValue_still sane_closed w name value c).globals

theorem sendPOM_readable {addr cv value : Int} (sound : (SrcpCmd.setCV addr cv value).Sound) :
    Moves (fun s s' : SRCP => Readable s → Readable s') (sendPOM srcpd addr cv value) := by
  apply moves_ite
  · exact moves_pure readable_closed _
  · exact moves_bind readable_closed (sendMessage_readable srcpd sound) (fun _ => moves_pure readable_closed _)

theorem sendPOMBit_readable {addr cv bitNr : Int} {value : Bool} (sound : (SrcpCmd.setCVBit addr cv bitNr value).Sound) :
    Moves (fun s s' : SRCP => Readable s → Readable s') (sendPOMBit srcpd addr cv bitNr value) :=
  moves_bind readable_closed (sendMessage_readable srcpd sound) (fun _ => moves_pure readable_closed _)

/-- What follows a part of the message may rely on its value. -/
theorem sanely_given {α β : Type} {x : Except Err α} {f : α → Action SRCP β}
    (next : ∀ a, x = .ok a → Moves Sanely (f a)) : Moves Sanely (lift x >>= f) := by
  intro c
  cases value : x with
  | error e => exact id
  | ok a => exact next a value c

theorem programming_sane (w : World) {cmd : FBTCtlMessage} (carried : Wire.Carried cmd) {command : Option Command}
    (programs : command = some .POM ∨ command = some .POMBIT) :
    Moves Sanely (execute (SRCP_Hardware srcpd) w cmd command) := by
  rcases programs with rfl | rfl
  · refine moves_bind sanely_closed (addrIndex_sane _) (fun i => sanely_given (fun cv cvGiven => ?_))
    refine sanely_given (fun value valueGiven => ?_)
    intro c sane
    have sound : (SrcpCmd.setCV (c.lokdef[i]?.getD .zeroed).addr cv value).Sound :=
      ⟨(sane.record i).addr,getInt_fits carried cvGiven,getInt_fits carried valueGiven⟩
    exact moves_bind sanely_closed (onGlobals_moves (onDevice_sane (sendPOM_readable srcpd sound)))
      (fun rc => sendValue_sane w "POM_REPLY" rc) c sane
  · refine moves_bind sanely_closed (addrIndex_sane _) (fun i => sanely_given (fun cv cvGiven => ?_))
    refine sanely_given (fun bitNr bitGiven => sanely_given (fun value _ => ?_))
    intro c sane
    have sound : (SrcpCmd.setCVBit (c.lokdef[i]?.getD .zeroed).addr cv bitNr (value ≠ 0)).Sound :=
      ⟨(sane.record i).addr,getInt_fits carried cvGiven,getInt_fits carried bitGiven⟩
    exact moves_bind sanely_closed (onGlobals_moves (onDevice_sane (sendPOMBit_readable srcpd sound)))
      (fun rc => sendValue_sane w "POMBIT_REPLY" rc) c sane

theorem execute_sane (w : World) {cmd : FBTCtlMessage} (carried : Wire.Carried cmd) {command : Option Command}
    (branch : commandOf w cmd = .ok command) : Moves Sanely (execute (SRCP_Hardware srcpd) w cmd command) := by
  by_cases programs : command = some .POM ∨ command = some .POMBIT
  · exact programming_sane srcpd w carried programs
  rw [not_or] at programs
  by_cases power : command = some .POWER
  · subst power
    exact fun c => (POWER_still sane_closed (SRCP_Hardware srcpd) (power_sane srcpd true) (power_sane srcpd false) w cmd c).globals
  intro c sane
  have shaped := (tracks_shape (SRCP_Hardware srcpd)).execute w cmd command c
  have slow : Speeds (fun speed => -255 ≤ speed ∧ speed ≤ 255)
      (final (execute (SRCP_Hardware srcpd) w cmd command c)).lokdef ∧
      (final (execute (SRCP_Hardware srcpd) w cmd command c)).globals.device = c.globals.device := by
    cases planned : command.bind (plan w cmd c.lokdef) with
    | none =>
      have quiet := execute_quiet (unprogrammed_respects srcpd) w cmd c.lokdef command planned
        (fun is => absurd is power) c
      rw [← execute_unprogrammed srcpd programs.1 programs.2] at quiet
      exact ⟨speeds_of_records quiet.records sane.slow (fun l l' idle kept => idle.currspeed ▸ kept),quiet.device⟩
    | some p =>
      obtain ⟨name,rfl,planned⟩ := Option.bind_eq_some_iff.mp planned
      have driven := (execute_driven (SRCP_Hardware srcpd) w cmd name c p planned).globals
      refine ⟨commanded_within byte_bounds w cmd c.globals _ (.driven name p branch planned driven) sane.slow ?_,
        by rw [driven]⟩
      intro _ i _
      have range := speedAt_within byte_bounds sane.slow i
      simp only [slower]
      constructor <;> split <;> omega
  refine ⟨printable_table sane.table shaped slow.1,?_⟩
  rw [slow.2]
  exact sane.log

theorem hardwareLoop_sane (clientID : Int) (indices : List Nat) (emergencyStop : Bool) :
    Moves Sanely (hardwareLoop (SRCP_Hardware srcpd) clientID indices emergencyStop) := by
  induction indices generalizing emergencyStop with
  | nil => exact moves_pure sanely_closed _
  | cons i rest ih =>
    refine moves_bind sanely_closed (moves_get sanely_closed) (fun c => moves_ite ?_ (ih emergencyStop))
    refine moves_bind sanely_closed ?_ (fun _ => ih false)
    refine moves_bind sanely_closed (moves_modify _ (fun _ => id)) (fun _ => ?_)
    refine moves_bind sanely_closed ?_ (fun _ => ?_)
    · exact onGlobals_moves (setLok_sane i (fun l => { l with lastClientID := clientID })
        (fun l ok => ⟨ok.addr,ok.nFunc,ok.currspeed⟩))
    refine moves_bind sanely_closed (moves_modify _ (fun _ => id)) (fun _ => ?_)
    exact onGlobals_moves (sendLoco_sane srcpd i emergencyStop)

/-- One message of a client. -/
theorem processMessage_sane (clientID : Int) (w : World) {cmd : FBTCtlMessage} (carried : Wire.Carried cmd) :
    Moves Sanely (processMessage (SRCP_Hardware srcpd) clientID w cmd) := by
  refine sanely_given (fun command branch => ?_)
  refine moves_bind sanely_closed (execute_sane srcpd w carried branch) (fun emergencyStop => ?_)
  refine moves_bind sanely_closed (moves_get sanely_closed) (fun c => ?_)
  exact hardwareLoop_sane srcpd clientID _ emergencyStop

/-! ### A run -/

/-- One step of the server. -/
theorem step_sane (s : Server SRCP) (label : Label)
    (carried : ∀ clientID w cmd, label = .message clientID w cmd → Wire.Carried cmd) (sane : Sane s.globals) :
    Sane (Server.step (SRCP_Hardware srcpd) s label).globals := by
  by_cases halted : s.halted = true
  · rw [Server.step_halted _ s label halted]
    exact sane
  have live : s.halted = false := Bool.eq_false_iff.mpr halted
  cases label <;> simp only [Server.step,live,Bool.false_eq_true,↓reduceIte]
  case accept => exact sane
  case readFails clientID =>
    split <;> exact sane
  case helo clientID w =>
    split
    · have leaves := (sendHelo_leaves (SRCP_Hardware srcpd) (closed_eq (σ := SRCP)) (fun _ => rfl) w
        (s.context [] [])).globals
      have same : Sane (final (sendHelo (SRCP_Hardware srcpd) w (s.context [] []))).globals :=
        ⟨leaves.1 ▸ sane.table,leaves.2 ▸ sane.log⟩
      cases sent : sendHelo (SRCP_Hardware srcpd) w (s.context [] []) with
      | ok _ c => rw [sent] at same; exact same
      | error e c => rw [sent] at same; exact same
    · exact sane
  case message clientID w cmd =>
    split
    · rename_i lastStatus changedAddrIndex _
      have moved := processMessage_sane srcpd clientID w (carried clientID w cmd rfl)
        (s.context lastStatus changedAddrIndex) sane
      cases processed : processMessage (SRCP_Hardware srcpd) clientID w cmd (s.context lastStatus changedAddrIndex) with
      | ok _ c => rw [processed] at moved; exact moved
      | error e c => rw [processed] at moved; exact moved
    · exact sane
  case destroy clientID =>
    split
    · have stopped : Moves (fun g g' : Globals SRCP => Sane g → Sane g')
          (Server.destructor (SRCP_Hardware srcpd) clientID (s.numClients - 1 = 0)) := by
        refine moves_bind sane_closed ?_ (fun _ => onDevice_sane (moves_pure readable_closed _))
        refine moves_bind sane_closed (moves_get sane_closed) (fun g => ?_)
        exact fullstopLoop_sane srcpd clientID _ _
      exact stopped s.globals sane
    · exact sane

theorem wireStep_sane (s : WireServer SRCP) (label : WireLabel) (sane : Sane s.server.globals) :
    Sane (WireServer.step (SRCP_Hardware srcpd) s label).server.globals := by
  have other (label : Label) (quiet : ∀ clientID w cmd, label ≠ .message clientID w cmd) :
      Sane (Server.step (SRCP_Hardware srcpd) s.server label).globals :=
    step_sane srcpd s.server label (fun clientID w cmd is => absurd is (quiet clientID w cmd)) sane
  simp only [WireServer.step]
  split
  · exact sane
  cases label with
  | accept so => exact other .accept (by simp)
  | hangup clientID => exact other (.readFails clientID) (by simp)
  | destroy clientID => exact other (.destroy clientID) (by simp)
  | turn clientID w =>
    dsimp only
    split
    · exact other (.helo clientID w) (by simp)
    · split
      · rename_i c _
        cases read : CommThread.readMessage protocolDat c.so with
        | error e =>
          simp only [WireServer.serve,read]
          exact other (.readFails clientID) (by simp)
        | ok next =>
          simp only [WireServer.serve,read]
          refine step_sane srcpd s.server _ ?_ sane
          rintro _ _ _ ⟨⟩
          exact readMessage_carried read
      · exact sane
    · exact sane

theorem run_sane {lokdefCsv : Str} {lokdef : List Lokdef} (read : readLokdef lokdefCsv = .ok lokdef)
    (labels : List WireLabel) :
    Sane (WireServer.run (SRCP_Hardware srcpd) (WireServer.start lokdef {}) labels).server.globals := by
  refine Transition.run_always (fun s label sane => wireStep_sane srcpd s label sane) labels _ ?_
  refine ⟨readLokdef_printable read,?_⟩
  intro entry member
  cases member

/-! ### The stream -/

/-- What the constructor sends before the first command. -/
def greeting : List Str :=
  [str "SET PROTOCOL SRCP 0.8", str "SET CONNECTIONMODE SRCP COMMAND", str "GO", str "SET 1 POWER ON"]

def commands (s : SRCP) : List SrcpCmd := s.log.reverse.map Prod.fst

def written (s : SRCP) : Str := (greeting ++ (commands s).map SrcpCmd.text).flatMap line

theorem commands_sound {s : SRCP} (readable : Readable s) : ∀ cmd ∈ commands s, cmd.Sound := by
  intro cmd member
  obtain ⟨entry,inside,rfl⟩ := List.mem_map.mp member
  exact readable entry (List.mem_reverse.mp inside)

theorem pieces_written {s : SRCP} (readable : Readable s) :
    pieces 10 [] (written s) = greeting ++ (commands s).map SrcpCmd.text := by
  have greetings : ∀ text ∈ greeting, 10 ∉ text := by decide
  refine pieces_flatMap (fun text member => ?_)
  rcases List.mem_append.mp member with first | later
  · exact greetings text first
  · obtain ⟨cmd,sent,rfl⟩ := List.mem_map.mp later
    rw [SrcpCmd.text_whole (commands_sound readable cmd sent)]
    exact cmd.output_line

theorem read_written {s : SRCP} (readable : Readable s) :
    ((pieces 10 [] (written s)).drop greeting.length).map Reader.readCmd = (commands s).map some := by
  rw [pieces_written readable,List.drop_left,List.map_map]
  exact List.map_congr_left (fun cmd sent => readCmd_text (commands_sound readable cmd sent))

end SRCP

/-- Whatever bytes the clients send, and however the turns of their threads interleave: srcpd, cutting what it has received into
lines and reading each behind the greeting, gets exactly the commands of the server, in their order. With only a part
of the stream received it has the first of them, and nothing else. -/
theorem srcpd_reads (srcpd : Srcpd) (lokdefCsv : Str) (lokdef : List Lokdef)
    (read : readLokdef lokdefCsv = .ok lokdef) (labels : List WireLabel) (received : Str)
    (part : received <+: SRCP.written
      (WireServer.run (SRCP_Hardware srcpd) (WireServer.start lokdef {}) labels).server.globals.device) :
    ((pieces 10 [] received).drop SRCP.greeting.length).map Reader.readCmd <+:
      (SRCP.commands
        (WireServer.run (SRCP_Hardware srcpd) (WireServer.start lokdef {}) labels).server.globals.device).map some ∧
    (received = SRCP.written
        (WireServer.run (SRCP_Hardware srcpd) (WireServer.start lokdef {}) labels).server.globals.device →
      ((pieces 10 [] received).drop SRCP.greeting.length).map Reader.readCmd =
        (SRCP.commands
          (WireServer.run (SRCP_Hardware srcpd) (WireServer.start lokdef {}) labels).server.globals.device).map some) := by
  have readable := (SRCP.run_sane srcpd read labels).log
  generalize (WireServer.run (SRCP_Hardware srcpd) (WireServer.start lokdef {}) labels).server.globals.device = s
    at part readable ⊢
  refine ⟨?_,fun all => all ▸ SRCP.read_written readable⟩
  rw [← SRCP.read_written readable]
  exact ((pieces_starts 10 part).drop _).map _

def accelerating : List WireLabel := [.accept [[6, 0, 0, 0, 9, 1, 3, 0, 0, 0]], .turn 1 online, .turn 1 online]

theorem srcpd_reads_acc : ((pieces 10 [] (SRCP.written (WireServer.run (SRCP_Hardware okSrcpd)
    (WireServer.start twoLocos {}) accelerating).server.globals.device)).drop SRCP.greeting.length).map Reader.readCmd =
      [some (.initGL 3 1 128 1), some (.getGL 3), some (.setGL 3 1 2 128 [true])] := by
  have sent : SRCP.commands (WireServer.run (SRCP_Hardware okSrcpd) (WireServer.start twoLocos {})
      accelerating).server.globals.device = [.initGL 3 1 128 1, .getGL 3, .setGL 3 1 2 128 [true]] := by
    decide +kernel
  have reads := (srcpd_reads okSrcpd twoLocosCsv twoLocos rfl accelerating _ (List.prefix_refl _)).2 rfl
  rw [sent] at reads
  exact reads

end Btcontrol
