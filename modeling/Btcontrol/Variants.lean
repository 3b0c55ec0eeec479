import Btcontrol.Server

/-! Each driving command comes in two branches, one for one loco and one for a list. A client
picks the branch by the number of selected locos, so on a list of one they should do the
same. -/
namespace Btcontrol

open Exec ClientThread

/-- The four commands that exist in both forms. -/
inductive Variant where
  | ACC
  | BREAK
  | DIR (dir : Int)
  | STOP
  deriving DecidableEq

namespace Variant

def single (addr : Int) : Variant → FBTCtlMessage
  | .ACC => oneLoco 9 addr
  | .BREAK => oneLoco 10 addr
  | .DIR dir => .struct 11 [(str "addr", .int addr), (str "dir", .int dir)]
  | .STOP => oneLoco 12 addr

/-- The request for a list, here with one loco in it. -/
def multi (addr : Int) : Variant → FBTCtlMessage
  | .ACC => manyLocos 13 [addr]
  | .BREAK => manyLocos 14 [addr]
  | .DIR dir => .struct 15 [(str "dir", .int dir), (str "list", .array [oneLoco DataType.STRUCT addr])]
  | .STOP => manyLocos 16 [addr]

def singleCommand : Variant → Command
  | .ACC => .ACC
  | .BREAK => .BREAK
  | .DIR _ => .DIR
  | .STOP => .STOP

def multiCommand : Variant → Command
  | .ACC => .ACC_MULTI
  | .BREAK => .BREAK_MULTI
  | .DIR _ => .DIR_MULTI
  | .STOP => .STOP_MULTI

theorem commandOf_single (w : World) (addr : Int) (variant : Variant) :
    commandOf w (variant.single addr) = .ok (some variant.singleCommand) := by
  cases variant <;> rfl

theorem commandOf_multi (w : World) (addr : Int) (variant : Variant) :
    commandOf w (variant.multi addr) = .ok (some variant.multiCommand) := by
  cases variant <;> rfl

end Variant

/-- What one message comes to: the exception it ends with, the table, the replies and the
calls of the backend. -/
structure Outcome where
  thrown : Option Err
  lokdef : List Lokdef
  sent : List FBTCtlMessage
  sendLocos : List (Nat × Bool)

section

variable {β : Type}

def outcome {α : Type} (r : EStateM.Result Err (Ctx β) α) : Outcome where
  thrown := match r with | .ok _ _ => none | .error e _ => some e
  lokdef := (final r).lokdef
  sent := (final r).sent
  sendLocos := (final r).sendLocos

def Variant.Agrees (hardware : Hardware β) (SPEED_STEP : Nat) (clientID : Int) (c : Ctx β) (addr : Int)
    (variant : Variant) : Prop :=
  ∀ w, w.SPEED_STEP = SPEED_STEP → outcome (processMessage hardware clientID w (variant.multi addr) c) =
    outcome (processMessage hardware clientID w (variant.single addr) c)

/-- What the forms for a list do not check: `BREAK` stops at 0, and `DIR` wants a valid
direction and a loco that stands. -/
def Variant.Unguarded (SPEED_STEP : Nat) (lokdef : List Lokdef) (addr : Int) : Variant → Prop
  | .ACC | .STOP => False
  | .BREAK => ∃ i, getAddrIndex lokdef addr = .ok i ∧ speedAt lokdef i < SPEED_STEP
  | .DIR dir => ∃ i, getAddrIndex lokdef addr = .ok i ∧ ((dir ≠ 1 ∧ dir ≠ -1) ∨ speedAt lokdef i ≠ 0)

def markFirst (w : World) (i : Nat) (f : Lokdef → Lokdef) (emergencyStop : Bool) : Action β Bool := do
  setLoko i f
  mark i
  sendStatusReply w
  return emergencyStop

/-- The same with the mark after it. -/
def markLast (w : World) (i : Nat) (f : Lokdef → Lokdef) (emergencyStop : Bool) : Action β Bool := do
  setLoko i f
  sendStatusReply w
  mark i
  return emergencyStop

/-- A command that is the same to the rest of the message: only the marks of a command that
throws may differ. -/
def SameReturn (r r' : EStateM.Result Err (Ctx β) Bool) : Prop :=
  r = r' ∨ ∃ e c c', r = .error e c ∧ r' = .error e c' ∧ outcome r = outcome r'

theorem markFirst_same (w : World) (i : Nat) (f : Lokdef → Lokdef) (emergencyStop : Bool) (c : Ctx β) :
    SameReturn (markFirst w i f emergencyStop c) (markLast w i f emergencyStop c) := by
  simp only [markFirst,markLast,bind_apply,setLoko_apply,mark_apply]
  cases connected : w.connected with
  | true =>
    simp only [sendStatusReply_sent w connected]
    exact .inl rfl
  | false =>
    simp only [sendStatusReply_closed w connected]
    exact .inr ⟨_,_,_,rfl,rfl,rfl⟩

/-- The form for a list of one, once its address is found. -/
def multiAt (w : World) (lokdef : List Lokdef) (i : Nat) : Variant → Action β Bool
  | .ACC => markFirst w i (setSpeed (faster w.SPEED_STEP (speedAt lokdef i))) false
  | .BREAK => markFirst w i (setSpeed (slower w.SPEED_STEP (-255) (speedAt lokdef i))) false
  | .DIR dir => markFirst w i (setDir dir) false
  | .STOP => markFirst w i (setSpeed 0) true

/-- The form for one loco, once its address is found. -/
def singleAt (w : World) (lokdef : List Lokdef) (i : Nat) : Variant → Action β Bool
  | .ACC => markLast w i (setSpeed (faster w.SPEED_STEP (speedAt lokdef i))) false
  | .BREAK => markLast w i (setSpeed (slower w.SPEED_STEP 0 (speedAt lokdef i))) false
  | .DIR dir =>
    if dir ≠ 1 ∧ dir ≠ -1 then throw .invalidDir
    else if speedAt lokdef i ≠ 0 then throw .speedNotZero
    else markLast w i (setDir dir) false
  | .STOP => markLast w i (setSpeed 0) true

theorem execute_single (hardware : Hardware β) (w : World) (addr : Int) (variant : Variant) (c : Ctx β) :
    execute hardware w (variant.single addr) (some variant.singleCommand) c =
      match getAddrIndex c.lokdef addr with
      | .error e => .error e c
      | .ok i => singleAt w c.lokdef i variant c := by
  have found : located c.lokdef (getInt (variant.single addr) "addr") = getAddrIndex c.lokdef addr := by
    cases variant <;> rfl
  cases variant with
  | ACC =>
    show driveOne w (Variant.ACC.single addr) (faster w.SPEED_STEP) false c = _
    simp only [driveOne,bind_apply,addrIndex_apply,found]
    cases getAddrIndex c.lokdef addr with
    | error e => rfl
    | ok i =>
      simp only [lift_ok,setLoko_apply,modify_speed]
      rfl
  | BREAK =>
    show driveOne w (Variant.BREAK.single addr) (slower w.SPEED_STEP 0) false c = _
    simp only [driveOne,bind_apply,addrIndex_apply,found]
    cases getAddrIndex c.lokdef addr with
    | error e => rfl
    | ok i =>
      simp only [lift_ok,setLoko_apply,modify_speed]
      rfl
  | STOP =>
    show driveOne w (Variant.STOP.single addr) (fun _ => 0) true c = _
    simp only [driveOne,bind_apply,addrIndex_apply,found]
    cases getAddrIndex c.lokdef addr <;> rfl
  | DIR dir =>
    have given : getInt ((Variant.DIR dir).single addr) "dir" = .ok dir := rfl
    show DIR w ((Variant.DIR dir).single addr) c = _
    simp only [DIR,bind_apply,addrIndex_apply,found,given]
    cases getAddrIndex c.lokdef addr with
    | error e => rfl
    | ok i =>
      simp only [lift_ok,singleAt,speedAt]
      by_cases invalid : dir ≠ 1 ∧ dir ≠ -1
      · rw [if_pos invalid,if_pos invalid]
      by_cases moving : (c.lokdef[i]?.getD .zeroed).currspeed ≠ 0
      · simp only [invalid,moving,↓reduceIte,bind_apply,get_apply,ne_eq,not_false_eq_true]
      · simp only [invalid,moving,↓reduceIte,bind_apply,get_apply,ne_eq,markLast]

theorem execute_multi (hardware : Hardware β) (w : World) (addr : Int) (variant : Variant) (c : Ctx β) :
    execute hardware w (variant.multi addr) (some variant.multiCommand) c =
      match getAddrIndex c.lokdef addr with
      | .error e => .error e c
      | .ok i => multiAt w c.lokdef i variant c := by
  have size : arraySize (variant.multi addr) = .ok 1 := by cases variant <;> rfl
  have found : located c.lokdef (addrAt (variant.multi addr) 0) = getAddrIndex c.lokdef addr := by
    cases variant <;> rfl
  have drive (speed : Int → Int) : driveMulti w (variant.multi addr) speed c =
      match getAddrIndex c.lokdef addr with
      | .error e => .error e c
      | .ok i => markFirst w i (setSpeed (speed (speedAt c.lokdef i))) false c := by
    simp only [driveMulti,bind_apply,size,lift_ok,addrIndex_apply,found]
    cases getAddrIndex c.lokdef addr with
    | error e => rfl
    | ok i =>
      simp only [lift_ok,setLoko_apply,modify_speed]
      rfl
  have each (f : Lokdef → Lokdef) (emergencyStop : Bool) :
      ((do setEach (variant.multi addr) f (List.range 1); sendStatusReply w; return emergencyStop : Action β Bool) c) =
      match getAddrIndex c.lokdef addr with
      | .error e => .error e c
      | .ok i => markFirst w i f emergencyStop c := by
    simp only [List.range_one,setEach,bind_apply,addrIndex_apply,found]
    cases getAddrIndex c.lokdef addr <;> rfl
  cases variant with
  | ACC => exact drive (faster w.SPEED_STEP)
  | BREAK => exact drive (slower w.SPEED_STEP (-255))
  | STOP =>
    show STOP_MULTI w _ c = _
    rw [STOP_MULTI,bind_apply,size,lift_ok]
    exact each (setSpeed 0) true
  | DIR dir =>
    have given : getInt ((Variant.DIR dir).multi addr) "dir" = .ok dir := rfl
    show DIR_MULTI w _ c = _
    rw [DIR_MULTI,bind_apply,size,lift_ok]
    simp only []
    rw [bind_apply,given,lift_ok]
    exact each (setDir dir) false

/-- What follows the command depends on the command's result only. -/
theorem processMessage_same (hardware : Hardware β) (clientID : Int) (w : World) (addr : Int) (variant : Variant)
    (c : Ctx β)
    (same : SameReturn (execute hardware w (variant.multi addr) (some variant.multiCommand) c)
      (execute hardware w (variant.single addr) (some variant.singleCommand) c)) :
    outcome (processMessage hardware clientID w (variant.multi addr) c) =
      outcome (processMessage hardware clientID w (variant.single addr) c) := by
  simp only [processMessage,bind_apply,variant.commandOf_single,variant.commandOf_multi,lift_ok]
  rcases same with same | ⟨e,c1,c2,multi,single,seen⟩
  · rw [same]
  · rw [multi,single] at seen
    simp only [multi,single]
    exact seen

theorem slower_same (SPEED_STEP : Nat) (speed : Int) :
    slower SPEED_STEP (-255) speed = slower SPEED_STEP 0 speed ↔ ¬speed < SPEED_STEP := by
  simp only [slower]
  by_cases slow : speed - SPEED_STEP < 0
  · rw [if_pos slow]
    split <;> omega
  · rw [if_neg slow,if_neg (by omega)]
    constructor
    · intro _
      omega
    · exact fun _ => rfl

/-- Where nothing is unguarded, the two forms are the same to the rest of the message. -/
theorem guarded_same (hardware : Hardware β) (w : World) (addr : Int) (variant : Variant) (c : Ctx β)
    (guarded : ¬variant.Unguarded w.SPEED_STEP c.lokdef addr) :
    SameReturn (execute hardware w (variant.multi addr) (some variant.multiCommand) c)
      (execute hardware w (variant.single addr) (some variant.singleCommand) c) := by
  rw [execute_single,execute_multi]
  cases found : getAddrIndex c.lokdef addr with
  | error e => exact .inl rfl
  | ok i =>
    cases variant with
    | ACC => exact markFirst_same w i _ false c
    | STOP => exact markFirst_same w i _ true c
    | BREAK =>
      have fast : ¬speedAt c.lokdef i < w.SPEED_STEP := fun slow => guarded ⟨i,found,slow⟩
      simp only [multiAt,singleAt,(slower_same _ _).mpr fast]
      exact markFirst_same w i _ false c
    | DIR dir =>
      have valid : ¬(dir ≠ 1 ∧ dir ≠ -1) := fun invalid => guarded ⟨i,found,.inl invalid⟩
      have stands : ¬speedAt c.lokdef i ≠ 0 := fun moving => guarded ⟨i,found,.inr moving⟩
      simp only [multiAt,singleAt,if_neg valid,if_neg stands]
      exact markFirst_same w i _ false c

def offline (SPEED_STEP : Nat) : World := { online with connected := false, SPEED_STEP }

/-- Without a connection a command ends at its reply, with the record written. -/
theorem markFirst_offline (SPEED_STEP : Nat) (i : Nat) (f : Lokdef → Lokdef) (emergencyStop : Bool) (c : Ctx β) :
    ∃ c', markFirst (offline SPEED_STEP) i f emergencyStop c = .error .notConnected c' ∧ c'.lokdef = c.lokdef.modify i f := by
  simp only [markFirst,bind_apply,setLoko_apply,mark_apply,sendStatusReply_closed (offline SPEED_STEP) rfl]
  exact ⟨_,rfl,rfl⟩

theorem markLast_offline (SPEED_STEP : Nat) (i : Nat) (f : Lokdef → Lokdef) (emergencyStop : Bool) (c : Ctx β) :
    ∃ c', markLast (offline SPEED_STEP) i f emergencyStop c = .error .notConnected c' ∧ c'.lokdef = c.lokdef.modify i f := by
  simp only [markLast,bind_apply,setLoko_apply,sendStatusReply_closed (offline SPEED_STEP) rfl]
  exact ⟨_,rfl,rfl⟩

/-- A missing guard shows, at the latest when the connection is lost before the reply. -/
theorem unguarded_differs (hardware : Hardware β) (SPEED_STEP : Nat) (clientID : Int) (addr : Int)
    (variant : Variant) (c : Ctx β) (unguarded : variant.Unguarded SPEED_STEP c.lokdef addr) :
    outcome (processMessage hardware clientID (offline SPEED_STEP) (variant.multi addr) c) ≠
      outcome (processMessage hardware clientID (offline SPEED_STEP) (variant.single addr) c) := by
  simp only [processMessage,bind_apply,variant.commandOf_single,variant.commandOf_multi,lift_ok,
    execute_single,execute_multi]
  cases variant with
  | ACC => exact unguarded.elim
  | STOP => exact unguarded.elim
  | BREAK =>
    obtain ⟨i,found,slow⟩ := unguarded
    obtain ⟨_,_,l,record,_⟩ := getAddrIndex_located found
    have stepOffline : (offline SPEED_STEP).SPEED_STEP = SPEED_STEP := rfl
    obtain ⟨c1,multi,table1⟩ := markFirst_offline SPEED_STEP i
      (setSpeed (slower SPEED_STEP (-255) (speedAt c.lokdef i))) false c
    obtain ⟨c2,single,table2⟩ := markLast_offline SPEED_STEP i
      (setSpeed (slower SPEED_STEP 0 (speedAt c.lokdef i))) false c
    simp only [found,multiAt,singleAt,stepOffline,multi,single]
    intro same
    have tables : c1.lokdef = c2.lokdef := congrArg Outcome.lokdef same
    rw [table1,table2] at tables
    have speeds := congrArg (fun lokdef => speedAt lokdef i) tables
    simp only [speedAt,List.getElem?_modify_eq,record,Option.map_eq_map,Option.map_some,Option.getD_some,
      setSpeed] at speeds
    rw [speedAt,record] at slow
    exact (slower_same _ _).mp speeds slow
  | DIR dir =>
    obtain ⟨i,found,unguarded⟩ := unguarded
    obtain ⟨c1,multi,_⟩ := markFirst_offline SPEED_STEP i (setDir dir) false c
    simp only [found,multiAt,singleAt,multi]
    intro same
    have thrown := congrArg Outcome.thrown same
    by_cases invalid : dir ≠ 1 ∧ dir ≠ -1
    · rw [if_pos invalid] at thrown
      cases thrown
    · rw [if_neg invalid,if_pos (unguarded.resolve_left invalid)] at thrown
      cases thrown

/-- In every state of the server and for every loco and direction, the form for a list of one
loco has the outcome of the form for one loco exactly when it misses no guard: `BREAK_MULTI`
of a loco below one speed step, and `DIR_MULTI` with an invalid direction or of a moving loco
differ; ACC and STOP never do. -/
theorem list_of_one_agrees (hardware : Hardware β) (SPEED_STEP : Nat) (s : Server β) (clientID : Int)
    (lastStatus : List LastStatus) (changedAddrIndex : List Bool) (addr : Int) (variant : Variant) :
    variant.Agrees hardware SPEED_STEP clientID (s.context lastStatus changedAddrIndex) addr ↔
      ¬variant.Unguarded SPEED_STEP s.lokdef addr := by
  constructor
  · intro agrees unguarded
    exact unguarded_differs hardware SPEED_STEP clientID addr variant _ unguarded (agrees (offline SPEED_STEP) rfl)
  · rintro guarded w rfl
    exact processMessage_same hardware clientID w addr variant _
      (guarded_same hardware w addr variant (s.context lastStatus changedAddrIndex) guarded)

end

/-- A standing loco: `BREAK` leaves it at 0, `BREAK_MULTI` brings it to -5. `DIR` refuses
direction 5, `DIR_MULTI` takes it. -/
theorem list_of_one_differs :
    oneClient.phaseOf 1 = some (.running (initialStatus twoLocos) (noneChanged twoLocos)) ∧
    ∀ variant ∈ [Variant.BREAK, .DIR 5],
      outcome (processMessage (SRCP_Hardware okSrcpd) 1 online (variant.multi 3)
        (oneClient.context (initialStatus twoLocos) (noneChanged twoLocos))) ≠
      outcome (processMessage (SRCP_Hardware okSrcpd) 1 online (variant.single 3)
        (oneClient.context (initialStatus twoLocos) (noneChanged twoLocos))) := by
  refine ⟨by decide +kernel,?_⟩
  intro variant member same
  have tables := congrArg Outcome.lokdef same
  rw [List.mem_cons,List.mem_singleton] at member
  rcases member with rfl | rfl
  · exact absurd tables (by decide +kernel)
  · exact absurd tables (by decide +kernel)

end Btcontrol
