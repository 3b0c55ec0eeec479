import Btcontrol.Turn

/-! The range of `currspeed`. `BREAK` stops at 0 but `BREAK_MULTI` at -255, and a loco that
srcpd refuses gets speed -1; without these two every speed stays between 0 and 255. -/
namespace Btcontrol

open Exec ClientThread Transition

def InRange (lokdef : List Lokdef) : Prop := ∀ l ∈ lokdef, 0 ≤ l.currspeed ∧ l.currspeed ≤ 255

instance (lokdef : List Lokdef) : Decidable (InRange lokdef) :=
  inferInstanceAs (Decidable (∀ l ∈ lokdef, _))

/-- A BREAK_MULTI whose first loco is at least one step fast. -/
def BrakesFromSpeed {β : Type} (s : Server β) (label : Label) : Prop :=
  ∀ clientID w cmd, Turn s label clientID w cmd → commandOf w cmd = .ok (some .BREAK_MULTI) →
    ∀ i, located s.lokdef (addrAt cmd 0) = .ok i → w.SPEED_STEP ≤ speedAt s.lokdef i

def Speeds (within : Int → Prop) (lokdef : List Lokdef) : Prop := ∀ l ∈ lokdef, within l.currspeed

/-- Bounds that ACC, BREAK and STOP keep. -/
structure Bounds (within : Int → Prop) : Prop where
  zero : within 0
  faster : ∀ SPEED_STEP speed, within speed → within (faster SPEED_STEP speed)
  slower : ∀ SPEED_STEP speed, within speed → within (slower SPEED_STEP 0 speed)

section

variable {within : Int → Prop}

theorem speeds_record {lokdef : List Lokdef} (speeds : Speeds within lokdef) {i : Nat} {l : Lokdef}
    (record : lokdef[i]? = some l) : within l.currspeed :=
  speeds l (List.mem_of_getElem? record)

theorem speeds_of_records {rel : Lokdef → Lokdef → Prop} {lokdef lokdef' : List Lokdef}
    (records : Records rel lokdef lokdef') (speeds : Speeds within lokdef)
    (kept : ∀ l l', rel l l' → within l.currspeed → within l'.currspeed) : Speeds within lokdef' := by
  intro l' member
  obtain ⟨i,there⟩ := List.mem_iff_getElem?.mp member
  obtain ⟨l,here,related⟩ := records.before there
  exact kept l l' related (speeds_record speeds here)

variable (bounds : Bounds within)
include bounds

theorem speedAt_within {lokdef : List Lokdef} (speeds : Speeds within lokdef) (i : Nat) :
    within (speedAt lokdef i) := by
  simp only [speedAt]
  cases record : lokdef[i]? with
  | none => exact bounds.zero
  | some l => exact speeds_record speeds record

/-- Every speed a plan writes is within the bounds. -/
theorem plan_within (w : World) (cmd : FBTCtlMessage) (lokdef : List Lokdef) (command : Command) (p : Plan)
    (planned : plan w cmd lokdef command = some p) (speeds : Speeds within lokdef)
    (brakes : command = .BREAK_MULTI →
      ∀ i, located lokdef (addrAt cmd 0) = .ok i → within (slower w.SPEED_STEP (-255) (speedAt lokdef i))) :
    ∀ speed, p.write = .speed speed → within speed := by
  have one (next : Int → Int) (emergencyStop : Bool) (kept : ∀ speed, within speed → within (next speed)) :
      ∀ speed, (planOne cmd next emergencyStop lokdef).write = .speed speed → within speed := by
    intro speed written
    simp only [planOne] at written
    split at written
    · cases written; exact bounds.zero
    · cases written; exact kept _ (speedAt_within bounds speeds _)
  have multi (next : Int → Int)
      (kept : ∀ i, located lokdef (addrAt cmd 0) = .ok i → within (next (speedAt lokdef i))) :
      ∀ speed, (planMulti cmd next lokdef).write = .speed speed → within speed := by
    intro speed written
    simp only [planMulti] at written
    split at written
    · cases written; exact bounds.zero
    · split at written
      · cases written; exact bounds.zero
      · rename_i found
        cases written
        exact kept _ found
  cases command with
  | ACC => cases planned; exact one (faster w.SPEED_STEP) false (bounds.faster _)
  | BREAK => cases planned; exact one (slower w.SPEED_STEP 0) false (bounds.slower _)
  | STOP => cases planned; exact one (fun _ => 0) true (fun _ _ => bounds.zero)
  | ACC_MULTI => cases planned; exact multi (faster w.SPEED_STEP) (fun i _ => bounds.faster _ _ (speedAt_within bounds speeds i))
  | BREAK_MULTI => cases planned; exact multi (slower w.SPEED_STEP (-255)) (brakes rfl)
  | DIR =>
    cases planned
    intro speed written
    simp only [planDir] at written
    repeat' split at written
    all_goals cases written
    all_goals exact bounds.zero
  | DIR_MULTI =>
    cases planned
    intro speed written
    simp only [planDirMulti] at written
    repeat' split at written
    all_goals cases written
    all_goals exact bounds.zero
  | STOP_MULTI =>
    cases planned
    intro speed written
    simp only [planStopMulti] at written
    split at written <;> cases written <;> exact bounds.zero
  | _ => cases planned

theorem commanded_within {β : Type} (w : World) (cmd : FBTCtlMessage) (g g' : Globals β)
    (commanded : Commanded w cmd g g') (speeds : Speeds within g.lokdef)
    (brakes : commandOf w cmd = .ok (some .BREAK_MULTI) →
      ∀ i, located g.lokdef (addrAt cmd 0) = .ok i → within (slower w.SPEED_STEP (-255) (speedAt g.lokdef i))) :
    Speeds within g'.lokdef := by
  cases commanded with
  | quiet records =>
    exact speeds_of_records records speeds (fun l l' idle kept => idle.currspeed ▸ kept)
  | driven command p branch planned written =>
    subst written
    have kept := plan_within bounds w cmd g.lokdef command p planned speeds (fun is => brakes (is ▸ branch))
    intro l' member
    obtain ⟨i,there⟩ := List.mem_iff_getElem?.mp member
    rw [writeAll_getElem?] at there
    split at there
    · obtain ⟨l,here,rfl⟩ := Option.map_eq_some_iff.mp there
      cases write : p.write with
      | speed value => exact kept value write
      | dir value =>
        have same := speeds_record speeds here
        exact same
    · exact speeds_record speeds there

theorem effect_within {β : Type} {refused : β → Prop} {g g' : Globals β} (effect : Effect refused g g')
    (accepted : refused g'.device → within (-1)) (speeds : Speeds within g.lokdef) : Speeds within g'.lokdef := by
  refine speeds_of_records effect.records speeds ?_
  intro l l' touched kept
  rcases touched.currspeed with same | stopped | ⟨no,marked⟩
  · exact same ▸ kept
  · rw [stopped]; exact bounds.zero
  · rw [marked]; exact accepted no

/-- One step whose BREAK_MULTI keeps the bounds, and which marks no refused loco or marks it
within them. -/
theorem step_within {β : Type} (hardware : Hardware β) (s : Server β) (label : Label)
    (brakes : ∀ clientID w cmd, Turn s label clientID w cmd → commandOf w cmd = .ok (some .BREAK_MULTI) →
      ∀ i, located s.lokdef (addrAt cmd 0) = .ok i → within (slower w.SPEED_STEP (-255) (speedAt s.lokdef i)))
    (accepted : hardware.refused (Server.step hardware s label).globals.device → within (-1))
    (speeds : Speeds within s.lokdef) : Speeds within (Server.step hardware s label).lokdef := by
  cases step_stepped hardware s label with
  | idle same =>
    rw [Server.lokdef,same]
    exact speeds
  | turn clientID w cmd turn mid commanded effect =>
    refine effect_within bounds effect accepted ?_
    exact commanded_within bounds w cmd s.globals mid commanded speeds (brakes clientID w cmd turn)
  | stopped effect => exact effect_within bounds effect accepted speeds

end

theorem forward_bounds : Bounds (fun speed => 0 ≤ speed ∧ speed ≤ 255) := by
  refine ⟨by decide,?_,?_⟩
  · intro SPEED_STEP speed range
    simp only [faster]
    constructor <;> split <;> omega
  · intro SPEED_STEP speed range
    simp only [slower]
    constructor <;> split <;> omega

theorem byte_bounds : Bounds (fun speed => -255 ≤ speed ∧ speed ≤ 255) := by
  refine ⟨by decide,?_,?_⟩
  · intro SPEED_STEP speed range
    simp only [faster]
    constructor <;> split <;> omega
  · intro SPEED_STEP speed range
    simp only [slower]
    constructor <;> split <;> omega

/-- One admitted step. -/
theorem step_range {β : Type} (hardware : Hardware β) (s : Server β) (label : Label)
    (ok : BrakesFromSpeed s label ∧ ¬hardware.refused (Server.step hardware s label).globals.device)
    (inRange : InRange s.lokdef) : InRange (Server.step hardware s label).lokdef := by
  refine step_within forward_bounds hardware s label ?_ (fun no => absurd no ok.2) inRange
  intro clientID w cmd turn branch i found
  have fast := ok.1 clientID w cmd turn branch i found
  have range := speedAt_within forward_bounds inRange i
  simp only [slower]
  constructor <;> split <;> omega

/-- With any backend and whatever the clients send, no speed leaves -255 to 255. -/
theorem run_bounded {β : Type} (hardware : Hardware β) (s : Server β) (labels : List Label)
    (start : Speeds (fun speed => -255 ≤ speed ∧ speed ≤ 255) s.lokdef) :
    Speeds (fun speed => -255 ≤ speed ∧ speed ≤ 255) (Server.run hardware s labels).lokdef := by
  have kept : ∀ (s : Server β) label, Speeds (fun speed => -255 ≤ speed ∧ speed ≤ 255) s.lokdef →
      Speeds (fun speed => -255 ≤ speed ∧ speed ≤ 255) (Server.step hardware s label).lokdef := by
    intro s label speeds
    refine step_within byte_bounds hardware s label ?_ (fun _ => by decide) speeds
    intro clientID w cmd turn branch i found
    have range := speedAt_within byte_bounds speeds i
    simp only [slower]
    constructor <;> split <;> omega
  exact run_always kept labels s start

/-- With any backend, in every state of a run whose BREAK_MULTIs start from at least one
step of speed and in which no loco is refused, all speeds are in range. -/
theorem currspeed_in_range {β : Type} (hardware : Hardware β) (device : β) (lokdefCsv : Str)
    (lokdef : List Lokdef) (read : readLokdef lokdefCsv = .ok lokdef) (labels : List Label)
    (admitted : Along (Server.step hardware)
      (fun s label => BrakesFromSpeed s label ∧ ¬hardware.refused (Server.step hardware s label).globals.device)
      (Server.start lokdef device) labels) :
    InRange (Server.run hardware (Server.start lokdef device) labels).lokdef := by
  refine run_invariant (fun s label ok range => step_range hardware s label ok range) labels _ ?_ admitted
  intro l member
  rw [(readLokdef_fresh lokdefCsv lokdef read l member).currspeed]
  decide

/-- A client that only accelerates. -/
theorem currspeed_in_range_acc :
    InRange (Server.run (SRCP_Hardware okSrcpd) (Server.start twoLocos {})
      [.accept, .helo 1 online, .message 1 online (oneLoco 9 3)]).lokdef := by
  refine currspeed_in_range (SRCP_Hardware okSrcpd) {} twoLocosCsv twoLocos readLokdef_twoLocos _ ?_
  have noBrake {s : Server SRCP} {label : Label} (other : ∀ clientID w cmd,
      label = .message clientID w cmd → commandOf w cmd ≠ .ok (some .BREAK_MULTI)) :
      BrakesFromSpeed s label := by
    intro clientID w cmd turn branch
    exact absurd branch (other clientID w cmd turn.label)
  refine ⟨⟨noBrake ?_,?_⟩,⟨noBrake ?_,?_⟩,⟨noBrake ?_,?_⟩,trivial⟩
  · rintro clientID w cmd ⟨⟩
  · show ¬SRCP.refused _
    decide +kernel
  · rintro clientID w cmd ⟨⟩
  · show ¬SRCP.refused _
    decide +kernel
  · rintro clientID w cmd ⟨⟩ ⟨⟩
  · show ¬SRCP.refused _
    decide +kernel

/-- A BREAK_MULTI on a loco that stands. -/
theorem currspeed_below_zero : readLokdef twoLocosCsv = .ok twoLocos ∧
    ¬InRange (Server.run (SRCP_Hardware okSrcpd) (Server.start twoLocos {})
      [.accept, .helo 1 online, .message 1 online (manyLocos 14 [3])]).lokdef :=
  ⟨readLokdef_twoLocos,by decide +kernel⟩

end Btcontrol
