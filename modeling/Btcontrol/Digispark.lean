import Btcontrol.Transition

/-! `USBDigispark.cpp`: the calls of the board leave their commands in one string buffer, and
the communication thread copies it and writes it to the device character by character. The
receiving end is the line buffer of `putzlok.ino`. -/
namespace Btcontrol.Digispark

open Transition

/-- What `loop` of `putzlok.ino` keeps of the characters it reads. -/
structure Device where
  line : List Char := []
  /-- The complete lines, newest first. -/
  lines : List (List Char) := []
deriving DecidableEq

namespace Device

def receive (device : Device) (c : Char) : Device :=
  if device.line.length < 20 then
    if c = '\n' then { line := [], lines := (device.line ++ [c]) :: device.lines }
    else { device with line := device.line ++ [c] }
  else { device with line := [] }

def receiveAll (device : Device) (text : List Char) : Device := text.foldl receive device

def last (device : Device) (key : Char) : Option (List Char) :=
  device.lines.find? (fun line => line.head? == some key)

end Device

def dirCommand (dir : UInt8) : List Char := 'D' :: (Nat.toDigits 10 dir.toNat ++ ['\n'])

def pwmCommand (pwm : UInt8) : List Char :=
  ['M',Nat.digitChar (pwm.toNat / 16),Nat.digitChar (pwm.toNat % 16),'\n']

def versionCommand : List Char := ['V','\n']

inductive Caller where
  | outside
  /-- `sendCmd` has returned, `this->dir=dir` is next. -/
  | assignDir (dir : UInt8)
  /-- The same for `this->pwm=pwm`, in `setPWM` itself or under `fullstop`. -/
  | assignPWM (pwm : UInt8) (fullstop : Bool)
  /-- The timed wait of `fullstop`. -/
  | waiting
deriving DecidableEq

inductive Thread where
  /-- Between two iterations. -/
  | sleeping
  | reading
  /-- `x > y` was seen, `y++` is next. -/
  | decided
  /-- The buffer is copied next. -/
  | copying
  | writing (rest : List Char)
  | aborted
deriving DecidableEq

structure State where
  dir : UInt8 := 0
  pwm : UInt8 := 0
  commBuffer : List Char := []
  x : Nat := 0
  y : Nat := 0
  caller : Caller := .outside
  thread : Thread := .sleeping
  forceRead : Bool := false
  device : Device := {}
  /-- Records, read by no step: whether the two values were assigned since the start, and
  whether `commBuffer` was copied since it was last written. -/
  dirSet : Bool := false
  pwmSet : Bool := false
  unread : Bool := false
deriving DecidableEq

/-- The body between lock and unlock. -/
def sendCmd (cmd : List Char) (s : State) : State :=
  { s with commBuffer := cmd, x := s.x + 1, unread := true }

/-- The PWM value for a speed. The double arithmetic is exact up to the quotient by 255, whose
rounding never reaches the next integer; the result is stored in an `unsigned char`. -/
def pwmUnits (motorStart f_speed : Int) : UInt8 :=
  if 0 < f_speed then UInt8.ofInt ((f_speed * (128 - motorStart) + motorStart * 255).tdiv 255)
  else 0

def setDir (dir : UInt8) (s : State) : State :=
  if s.dir ≠ dir then { sendCmd (dirCommand dir) s with caller := .assignDir dir } else s

/-- `setPWM` up to its assignment, called by itself or by `fullstop`. -/
def setPWM (motorStart f_speed : Int) (fullstop : Bool) (s : State) : State :=
  if s.pwm ≠ pwmUnits motorStart f_speed then
    { sendCmd (pwmCommand (pwmUnits motorStart f_speed)) s with
      caller := .assignPWM (pwmUnits motorStart f_speed) fullstop }
  else { s with caller := if fullstop then .waiting else .outside }

/-- The assignment after `sendCmd`. -/
def assign (s : State) : State :=
  match s.caller with
  | .outside | .waiting => s
  | .assignDir dir => { s with dir := dir, dirSet := true, caller := .outside }
  | .assignPWM pwm fullstop =>
    { s with pwm := pwm, pwmSet := true, caller := if fullstop then .waiting else .outside }

/-- One step of `startCommThread`; `ok` is the outcome of the USB transfer, of `read` whether a
character came. -/
def commStep (ok : Bool) (s : State) : State :=
  match s.thread with
  | .sleeping =>
    if s.x ≤ s.y ∨ s.forceRead = true then { s with thread := .reading, forceRead := false }
    else { s with thread := .decided }
  | .reading => if ok then s else { s with thread := .sleeping }
  | .decided => { s with y := s.y + 1, thread := .copying }
  | .copying => { s with thread := .writing s.commBuffer, unread := false }
  | .writing [] => { s with thread := .sleeping, forceRead := true }
  | .writing (c :: rest) =>
    if ok then { s with device := s.device.receive c, thread := .writing rest }
    else { s with thread := .aborted }
  | .aborted => s

inductive Label where
  | setDir (dir : UInt8)
  | setPWM (f_speed : Int)
  | fullstop
  | assign
  /-- The wait of `fullstop` ends, by signal or by timeout. -/
  | wake
  | comm (ok : Bool)
deriving DecidableEq

/-- The calls follow each other; the communication thread moves at any time. An aborted process
does nothing. -/
def step (motorStart : Int) (s : State) (label : Label) : State :=
  if s.thread = .aborted then s
  else match label with
  | .setDir dir => if s.caller = .outside then setDir dir s else s
  | .setPWM f_speed => if s.caller = .outside then setPWM motorStart f_speed false s else s
  | .fullstop => if s.caller = .outside then setPWM motorStart 0 true s else s
  | .assign => assign s
  | .wake => if s.caller = .waiting then { s with caller := .outside } else s
  | .comm ok => commStep ok s

/-- The end of `init`. -/
def start (motorStart : Int) (cfg_noInitCommand : Bool) : State :=
  if cfg_noInitCommand then {} else setPWM motorStart 0 false (sendCmd versionCommand {})

/-- All commands are with the device: the counters agree, the thread is between iterations and
no call stands between its `sendCmd` and its assignment. -/
def HandedOver (s : State) : Prop :=
  s.x = s.y ∧ s.thread = .sleeping ∧ (s.caller = .outside ∨ s.caller = .waiting)

/-- The device has the cached values, where they were assigned at all. -/
def Arrived (s : State) : Prop :=
  (s.dirSet = true → s.device.last 'D' = some (dirCommand s.dir)) ∧
  (s.pwmSet = true → s.device.last 'M' = some (pwmCommand s.pwm))

/-- What `sendCmd` overwrites is no loss to a command with this letter: the thread has it
already, it has the same letter, or it is the version query. -/
def Replaceable (s : State) (key : Char) : Prop :=
  s.unread = true → s.commBuffer.head? = some key ∨ s.commBuffer.head? = some 'V'

/-- A call that sends overwrites no unread command of the other letter. -/
def Timely (motorStart : Int) (s : State) : Label → Prop
  | .setDir dir => s.caller = .outside → s.dir ≠ dir → Replaceable s 'D'
  | .setPWM f_speed => s.caller = .outside → s.pwm ≠ pwmUnits motorStart f_speed → Replaceable s 'M'
  | .fullstop => s.caller = .outside → s.pwm ≠ pwmUnits motorStart 0 → Replaceable s 'M'
  | .assign | .wake | .comm _ => True

instance (s : State) (key : Char) : Decidable (Replaceable s key) :=
  inferInstanceAs (Decidable (s.unread = true → s.commBuffer.head? = some key ∨ s.commBuffer.head? = some 'V'))

instance (motorStart : Int) (s : State) : (label : Label) → Decidable (Timely motorStart s label)
  | .setDir dir => inferInstanceAs (Decidable (s.caller = .outside → s.dir ≠ dir → Replaceable s 'D'))
  | .setPWM f_speed => inferInstanceAs
    (Decidable (s.caller = .outside → s.pwm ≠ pwmUnits motorStart f_speed → Replaceable s 'M'))
  | .fullstop => inferInstanceAs
    (Decidable (s.caller = .outside → s.pwm ≠ pwmUnits motorStart 0 → Replaceable s 'M'))
  | .assign | .wake | .comm _ => inferInstanceAs (Decidable True)

instance (s : State) : Decidable (HandedOver s) := inferInstanceAs (Decidable (_ ∧ _))

instance (s : State) : Decidable (Arrived s) := inferInstanceAs (Decidable (_ ∧ _))

def IsCommand (text : List Char) : Prop :=
  ∃ key body, text = key :: (body ++ ['\n']) ∧ '\n' ∉ key :: body ∧ body.length < 19

theorem receiveAll_plain (device : Device) (text : List Char) (plain : '\n' ∉ text)
    (short : device.line.length + text.length ≤ 20) :
    device.receiveAll text = { device with line := device.line ++ text } := by
  induction text generalizing device with
  | nil => simp [Device.receiveAll]
  | cons c rest ih =>
    simp only [List.mem_cons,not_or,List.length_cons] at plain short
    have taken : device.receive c = { device with line := device.line ++ [c] } := by
      simp only [Device.receive]
      rw [if_pos (by omega),if_neg (Ne.symm plain.1)]
    have later := ih (device.receive c) plain.2 (by rw [taken]; simp; omega)
    simp only [Device.receiveAll,List.foldl_cons] at later ⊢
    rw [later,taken]
    simp

theorem receiveAll_command {device : Device} {text : List Char} (between : device.line = [])
    (command : IsCommand text) :
    device.receiveAll text = { line := [], lines := text :: device.lines } := by
  obtain ⟨key,body,rfl,plain,short⟩ := command
  have body' := receiveAll_plain device (key :: body) plain (by simp [between]; omega)
  rw [between,List.nil_append] at body'
  simp only [Device.receiveAll] at body' ⊢
  rw [← List.cons_append,List.foldl_append,body']
  simp only [List.foldl_cons,List.foldl_nil,Device.receive]
  rw [if_pos (by rw [List.length_cons]; omega)]
  simp

theorem last_command {device : Device} {text : List Char} (between : device.line = [])
    (command : IsCommand text) (key : Char) :
    (device.receiveAll text).last key =
      if text.head? = some key then some text else device.last key := by
  rw [receiveAll_command between command]
  by_cases same : text.head? = some key <;> simp [Device.last,same]

theorem dirCommand_isCommand (dir : UInt8) : IsCommand (dirCommand dir) := by
  refine ⟨'D',Nat.toDigits 10 dir.toNat,rfl,?_,?_⟩
  · intro member
    rcases List.mem_cons.mp member with impossible | digit
    · exact absurd impossible (by decide)
    · exact absurd (Nat.isDigit_of_mem_toDigits (by decide) (by decide) digit) (by decide)
  · have size : (Nat.toDigits 10 dir.toNat).length ≤ 3 := by
      rw [Nat.length_toDigits_le_iff (by decide) (by decide)]
      exact Nat.lt_of_lt_of_le dir.toNat_lt (by decide)
    omega

theorem digitChar_plain (n : Nat) (hex : n < 16) : '\n' ≠ Nat.digitChar n := by
  revert n
  decide

theorem pwmCommand_isCommand (pwm : UInt8) : IsCommand (pwmCommand pwm) := by
  refine ⟨'M',[Nat.digitChar (pwm.toNat / 16),Nat.digitChar (pwm.toNat % 16)],rfl,?_,by simp⟩
  have size := pwm.toNat_lt
  have high := digitChar_plain (pwm.toNat / 16) (by omega)
  have low := digitChar_plain (pwm.toNat % 16) (by omega)
  simp [high,low]

theorem versionCommand_isCommand : IsCommand versionCommand :=
  ⟨'V',[],rfl,by decide,by decide⟩

/-- The device once the command that is being written is through. -/
def settled (s : State) : Device :=
  match s.thread with
  | .writing rest => s.device.receiveAll rest
  | .sleeping | .reading | .decided | .copying | .aborted => s.device

/-- The device once the buffer is through too. -/
def eventual (s : State) : Device :=
  if s.unread then (settled s).receiveAll s.commBuffer else settled s

def wantedDir (s : State) : Option UInt8 :=
  match s.caller with
  | .assignDir dir => some dir
  | .outside | .assignPWM _ _ | .waiting => if s.dirSet then some s.dir else none

def wantedPWM (s : State) : Option UInt8 :=
  match s.caller with
  | .assignPWM pwm _ => some pwm
  | .outside | .assignDir _ | .waiting => if s.pwmSet then some s.pwm else none

/-- The part of the invariant that does not look at the values. -/
structure Handover (s : State) : Prop where
  counted : s.y ≤ s.x
  decided : s.thread = .decided → s.y < s.x
  taken : s.thread = .copying → 0 < s.y
  pending : s.unread = true → s.y < s.x ∨ s.thread = .copying
  buffered : s.x = 0 ∨ IsCommand s.commBuffer
  copied : s.unread = false → s.x = 0 ∨ (settled s).lines.head? = some s.commBuffer
  between : (settled s).line = []

structure Invariant (s : State) : Prop extends Handover s where
  dir : ∀ dir, wantedDir s = some dir → (eventual s).last 'D' = some (dirCommand dir)
  pwm : ∀ pwm, wantedPWM s = some pwm → (eventual s).last 'M' = some (pwmCommand pwm)

theorem sendCmd_handover {s : State} {cmd : List Char} (command : IsCommand cmd)
    (kept : Handover s) : Handover (sendCmd cmd s) where
  counted := Nat.le_succ_of_le kept.counted
  decided at_ := Nat.lt_succ_of_lt (kept.decided at_)
  taken := kept.taken
  pending _ := .inl (Nat.lt_succ_of_le kept.counted)
  buffered := .inr command
  copied := nofun
  between := kept.between

/-- The command just sent is what the device will have. -/
theorem sendCmd_arrives {s : State} {cmd : List Char} {key : Char} (command : IsCommand cmd)
    (letter : cmd.head? = some key) (kept : Handover s) :
    (eventual (sendCmd cmd s)).last key = some cmd := by
  have last := last_command kept.between command key
  rw [if_pos letter] at last
  exact last

/-- A replaceable buffer holds nothing for another letter than the one sent. -/
theorem sendCmd_other {s : State} {cmd : List Char} {key other : Char} (command : IsCommand cmd)
    (letter : cmd.head? = some key) (differ : other ≠ key) (queried : other ≠ 'V')
    (replaceable : Replaceable s key) (kept : Handover s) :
    (eventual (sendCmd cmd s)).last other = (eventual s).last other := by
  have sent := last_command kept.between command other
  rw [if_neg (by rw [letter]; simpa using Ne.symm differ)] at sent
  refine Eq.trans sent ?_
  cases unread : s.unread with
  | false => simp [eventual,unread]
  | true =>
    have filled : IsCommand s.commBuffer := by
      rcases kept.buffered with none | command
      · rcases kept.pending unread with waiting | copying
        · omega
        · have := kept.taken copying
          have := kept.counted
          omega
      · exact command
    have buffered := last_command kept.between filled other
    have foreign : s.commBuffer.head? ≠ some other := by
      rcases replaceable unread with same | version
      · rw [same]
        simpa using Ne.symm differ
      · rw [version]
        simpa using Ne.symm queried
    rw [if_neg foreign] at buffered
    simp [eventual,unread,buffered]

/-- The caller's place is no part of the handover. -/
theorem handover_at {s : State} (caller : Caller) (kept : Handover s) :
    Handover { s with caller := caller } :=
  ⟨kept.counted,kept.decided,kept.taken,kept.pending,kept.buffered,kept.copied,kept.between⟩

theorem setDir_invariant (dir : UInt8) {s : State} (idle : s.caller = .outside)
    (timely : s.dir ≠ dir → Replaceable s 'D') (kept : Invariant s) : Invariant (setDir dir s) := by
  simp only [setDir]
  split
  · rename_i differs
    have command := dirCommand_isCommand dir
    refine ⟨handover_at _ (sendCmd_handover command kept.toHandover),?_,?_⟩
    · intro sent same
      cases same
      exact sendCmd_arrives (s := s) command rfl kept.toHandover
    · intro pwm wanted
      have before : wantedPWM s = some pwm := by
        simp only [wantedPWM,idle]
        exact wanted
      have other := sendCmd_other command rfl (by decide : 'M' ≠ 'D') (by decide) (timely differs)
        kept.toHandover
      exact other.trans (kept.pwm pwm before)
  · exact kept

theorem setPWM_invariant (motorStart f_speed : Int) (fullstop : Bool) {s : State}
    (idle : s.caller = .outside)
    (timely : s.pwm ≠ pwmUnits motorStart f_speed → Replaceable s 'M') (kept : Invariant s) :
    Invariant (setPWM motorStart f_speed fullstop s) := by
  simp only [setPWM]
  split
  · rename_i differs
    have command := pwmCommand_isCommand (pwmUnits motorStart f_speed)
    refine ⟨handover_at _ (sendCmd_handover command kept.toHandover),?_,?_⟩
    · intro dir wanted
      have before : wantedDir s = some dir := by
        simp only [wantedDir,idle]
        exact wanted
      have other := sendCmd_other command rfl (by decide : 'D' ≠ 'M') (by decide) (timely differs)
        kept.toHandover
      exact other.trans (kept.dir dir before)
    · intro sent same
      cases same
      exact sendCmd_arrives (s := s) command rfl kept.toHandover
  · refine ⟨handover_at _ kept.toHandover,fun dir wanted => kept.dir dir ?_,fun pwm wanted => kept.pwm pwm ?_⟩
    · simp only [wantedDir,idle]
      cases fullstop <;> exact wanted
    · simp only [wantedPWM,idle]
      cases fullstop <;> exact wanted

theorem assign_invariant {s : State} (kept : Invariant s) : Invariant (assign s) := by
  simp only [assign]
  split
  · exact kept
  · exact kept
  · rename_i dir caller
    refine ⟨⟨kept.counted,kept.decided,kept.taken,kept.pending,kept.buffered,kept.copied,kept.between⟩,?_,?_⟩
    · intro sent same
      exact kept.dir sent (by simpa [wantedDir,caller] using same)
    · intro pwm wanted
      exact kept.pwm pwm (by simpa [wantedPWM,caller] using wanted)
  · rename_i pwm fullstop caller
    refine ⟨⟨kept.counted,kept.decided,kept.taken,kept.pending,kept.buffered,kept.copied,kept.between⟩,?_,?_⟩
    · intro dir wanted
      exact kept.dir dir (by cases fullstop <;> simpa [wantedDir,caller] using wanted)
    · intro sent same
      exact kept.pwm sent (by cases fullstop <;> simpa [wantedPWM,caller] using same)

theorem wake_invariant {s : State} (waiting : s.caller = .waiting) (kept : Invariant s) :
    Invariant { s with caller := .outside } :=
  ⟨handover_at _ kept.toHandover,
    fun dir wanted => kept.dir dir (by simpa [wantedDir,waiting] using wanted),
    fun pwm wanted => kept.pwm pwm (by simpa [wantedPWM,waiting] using wanted)⟩

/-- A step of the thread changes neither the caller nor the values it keeps, so what the device
will have decides. -/
theorem invariant_of_last {s s' : State} (kept : Invariant s) (caller : s'.caller = s.caller)
    (dir : s'.dir = s.dir) (pwm : s'.pwm = s.pwm) (dirSet : s'.dirSet = s.dirSet)
    (pwmSet : s'.pwmSet = s.pwmSet) (handover : Handover s')
    (last : ∀ key, (eventual s').last key = (eventual s).last key) : Invariant s' := by
  refine ⟨handover,fun d wanted => ?_,fun p wanted => ?_⟩
  · rw [last]
    exact kept.dir d (by simpa [wantedDir,caller,dir,dirSet] using wanted)
  · rw [last]
    exact kept.pwm p (by simpa [wantedPWM,caller,pwm,pwmSet] using wanted)

/-- The steps that do not touch the buffer. -/
theorem moved_invariant {s : State} (kept : Invariant s) (y : Nat) (thread : Thread)
    (forceRead : Bool) (device : Device)
    (same : settled { s with y := y, thread := thread, forceRead := forceRead, device := device } = settled s)
    (counted : y ≤ s.x) (decided : thread = .decided → y < s.x) (taken : thread = .copying → 0 < y)
    (pending : s.unread = true → y < s.x ∨ thread = .copying) :
    Invariant { s with y := y, thread := thread, forceRead := forceRead, device := device } := by
  refine invariant_of_last kept rfl rfl rfl rfl rfl
    ⟨counted,decided,taken,pending,kept.buffered,?_,?_⟩ (fun key => ?_)
  · rw [same]
    exact kept.copied
  · rw [same]
    exact kept.between
  · simp only [eventual]
    rw [same]

/-- A command received twice in a row leaves the same last lines. -/
theorem last_again {device : Device} {text : List Char} (between : device.line = [])
    (command : IsCommand text) (before : device.lines.head? = some text) (key : Char) :
    (device.receiveAll text).last key = device.last key := by
  rw [last_command between command]
  obtain ⟨earlier,lines⟩ := List.head?_eq_some_iff.mp before
  by_cases same : text.head? = some key <;> simp [Device.last,lines,same]

theorem copying_invariant {s : State} (copying : s.thread = .copying) (kept : Invariant s) :
    Invariant { s with thread := .writing s.commBuffer, unread := false } := by
  have settled_eq : settled s = s.device := by simp [settled,copying]
  have between := kept.between
  have copied := kept.copied
  rw [settled_eq] at between copied
  have counted : 0 < s.x := Nat.lt_of_lt_of_le (kept.taken copying) kept.counted
  have command : IsCommand s.commBuffer := kept.buffered.resolve_left (by omega)
  have through := receiveAll_command between command
  refine invariant_of_last kept rfl rfl rfl rfl rfl
    ⟨kept.counted,nofun,nofun,nofun,kept.buffered,?_,?_⟩ ?_
  · exact fun _ => .inr (by simp [settled,through])
  · simp [settled,through]
  · intro key
    have sent : eventual { s with thread := .writing s.commBuffer, unread := false } =
        s.device.receiveAll s.commBuffer := rfl
    rw [sent]
    cases unread : s.unread with
    | true => simp [eventual,unread,settled_eq]
    | false =>
      have same := last_again between command ((copied unread).resolve_left (by omega)) key
      simp [eventual,unread,settled_eq,same]

theorem commStep_invariant (ok : Bool) {s : State} (kept : Invariant s) :
    (commStep ok s).thread = .aborted ∨ Invariant (commStep ok s) := by
  have pending (elsewhere : s.thread ≠ .copying) (unread : s.unread = true) : s.y < s.x :=
    (kept.pending unread).resolve_right elsewhere
  cases at_ : s.thread with
  | sleeping =>
    right
    simp only [commStep,at_]
    split
    · exact moved_invariant kept s.y .reading false s.device (by simp [settled,at_]) kept.counted nofun nofun
        (fun unread => .inl (pending (by simp [at_]) unread))
    · rename_i more
      simp only [not_or,Nat.not_le] at more
      exact moved_invariant kept s.y .decided s.forceRead s.device (by simp [settled,at_]) kept.counted
        (fun _ => more.1) nofun (fun _ => .inl more.1)
  | reading =>
    right
    simp only [commStep,at_]
    split
    · exact kept
    · exact moved_invariant kept s.y .sleeping s.forceRead s.device (by simp [settled,at_]) kept.counted
        nofun nofun (fun unread => .inl (pending (by simp [at_]) unread))
  | decided =>
    right
    simp only [commStep,at_]
    exact moved_invariant kept (s.y + 1) .copying s.forceRead s.device (by simp [settled,at_])
      (kept.decided at_) nofun (fun _ => Nat.succ_pos _) (fun _ => .inr rfl)
  | copying =>
    right
    simp only [commStep,at_]
    exact copying_invariant at_ kept
  | writing rest =>
    cases rest with
    | nil =>
      right
      simp only [commStep,at_]
      exact moved_invariant kept s.y .sleeping true s.device (by simp [settled,at_,Device.receiveAll])
        kept.counted nofun nofun (fun unread => .inl (pending (by simp [at_]) unread))
    | cons c rest =>
      simp only [commStep,at_]
      split
      · right
        exact moved_invariant kept s.y (.writing rest) s.forceRead (s.device.receive c)
          (by simp [settled,at_,Device.receiveAll]) kept.counted nofun nofun
          (fun unread => .inl (pending (by simp [at_]) unread))
      · exact .inl rfl
  | aborted => exact .inl (by simp [commStep,at_])

theorem step_invariant (motorStart : Int) (s : State) (label : Label)
    (timely : Timely motorStart s label) (kept : s.thread = .aborted ∨ Invariant s) :
    (step motorStart s label).thread = .aborted ∨ Invariant (step motorStart s label) := by
  by_cases dead : s.thread = .aborted
  · left
    simp [step,dead]
  · have kept := kept.resolve_left dead
    simp only [step,dead,if_false]
    cases label with
    | setDir dir =>
      right
      dsimp only
      split
      · rename_i idle
        exact setDir_invariant dir idle (timely idle) kept
      · exact kept
    | setPWM f_speed =>
      right
      dsimp only
      split
      · rename_i idle
        exact setPWM_invariant motorStart f_speed false idle (timely idle) kept
      · exact kept
    | fullstop =>
      right
      dsimp only
      split
      · rename_i idle
        exact setPWM_invariant motorStart 0 true idle (timely idle) kept
      · exact kept
    | assign => exact .inr (assign_invariant kept)
    | wake =>
      right
      dsimp only
      split
      · rename_i waiting
        exact wake_invariant waiting kept
      · exact kept
    | comm ok => exact commStep_invariant ok kept

theorem start_invariant (motorStart : Int) (cfg_noInitCommand : Bool) :
    Invariant (start motorStart cfg_noInitCommand) := by
  have empty : Invariant {} := by
    refine ⟨⟨Nat.le_refl _,nofun,nofun,nofun,.inl rfl,fun _ => .inl rfl,rfl⟩,?_,?_⟩
    · simp [wantedDir]
    · simp [wantedPWM]
  cases cfg_noInitCommand with
  | true => exact empty
  | false =>
    have sent : Invariant (sendCmd versionCommand {}) := by
      refine ⟨sendCmd_handover versionCommand_isCommand empty.toHandover,?_,?_⟩
      · simp [wantedDir,sendCmd]
      · simp [wantedPWM,sendCmd]
    exact setPWM_invariant motorStart 0 false rfl (fun differs => absurd rfl differs) sent

theorem arrived_of_invariant {s : State} (kept : Invariant s) (handed : HandedOver s) : Arrived s := by
  obtain ⟨equal,sleeping,caller⟩ := handed
  have read : s.unread = false := by
    cases unread : s.unread with
    | false => rfl
    | true =>
      rcases kept.pending unread with waiting | copying
      · omega
      · rw [sleeping] at copying
        contradiction
  have now : eventual s = s.device := by simp [eventual,read,settled,sleeping]
  rw [Arrived,← now]
  constructor
  · intro set
    apply kept.dir
    rcases caller with caller | caller <;> simp [wantedDir,caller,set]
  · intro set
    apply kept.pwm
    rcases caller with caller | caller <;> simp [wantedPWM,caller,set]

/-- Along every interleaving in which no call overwrites an unread command of the other letter,
the device has the cached direction and PWM value whenever everything is handed over. -/
theorem handed_over_arrived (motorStart : Int) (cfg_noInitCommand : Bool) (labels : List Label)
    (timely : Along (step motorStart) (Timely motorStart) (start motorStart cfg_noInitCommand) labels)
    (handed : HandedOver (run (step motorStart) (start motorStart cfg_noInitCommand) labels)) :
    Arrived (run (step motorStart) (start motorStart cfg_noInitCommand) labels) := by
  have kept := run_invariant (step_invariant motorStart) labels _
    (.inr (start_invariant motorStart cfg_noInitCommand)) timely
  rcases kept with aborted | kept
  · have sleeping := handed.2.1
    rw [aborted] at sleeping
    contradiction
  · exact arrived_of_invariant kept handed

def spaced : List Label := List.flatten [
  List.replicate 6 (.comm true), [.setDir 1, .assign, .comm true, .comm false],
  List.replicate 7 (.comm true), [.setPWM 100, .assign, .comm true, .comm false],
  List.replicate 8 (.comm true)]

theorem handed_over_arrived_spaced :
    (run (step 70) (start 70 false) spaced).dirSet = true ∧
    (run (step 70) (start 70 false) spaced).pwmSet = true ∧
    Arrived (run (step 70) (start 70 false) spaced) :=
  ⟨by decide +kernel,by decide +kernel,
    handed_over_arrived 70 false spaced (by decide +kernel) (by decide +kernel)⟩

/-- `sendLoco` as the source has it, both commands before the thread wakes up. -/
def backToBack : List Label := List.flatten [
  List.replicate 6 (.comm true), [.setDir 1, .assign, .setPWM 100, .assign, .comm true, .comm false],
  List.replicate 8 (.comm true), [.comm true, .comm false], List.replicate 8 (.comm true)]

/-- The PWM command goes out twice and the direction never. -/
theorem direction_overwritten :
    HandedOver (run (step 70) (start 70 false) backToBack) ∧
    ¬Arrived (run (step 70) (start 70 false) backToBack) := by
  decide +kernel

end Btcontrol.Digispark
