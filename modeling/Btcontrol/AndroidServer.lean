import Btcontrol.Bytes
import Btcontrol.Transition

/-! The Android server (`BTcommThread.java`, `USBArduino.java`) and the Arduino behind its serial
line (`monster_shield.ino`). Every connection keeps its own speed and direction; there is one
motor. -/
namespace Btcontrol

open Bytes

/-! ### The firmware -/

namespace MonsterShield

inductive Direction where
  | BRAKEVCC
  | CW
  | CCW
  | BRAKEGND
  deriving DecidableEq, Repr

structure State where
  target_pwm : Int := 0
  dir : Direction := .CW
  line : List Char := []
  /-- The pins of motor 0. -/
  inApin : Bool := false
  inBpin : Bool := false
  pwmpin : Int := 0
  deriving DecidableEq, Repr

def hex2val (c : Char) : Int :=
  if '0' ≤ c ∧ c ≤ '9' then c.toNat - '0'.toNat
  else if 'a' ≤ c ∧ c ≤ 'f' then c.toNat - 'a'.toNat + 10
  else -1

def motorGo (s : State) : State := { s with
  inApin := s.dir = .BRAKEVCC || s.dir = .CW
  inBpin := s.dir = .BRAKEVCC || s.dir = .CCW
  pwmpin := s.target_pwm }

def processCmd (s : State) : State × Bool :=
  let line := if s.line.getLast? = some '\r' then s.line.dropLast else s.line
  match line with
  | ['M', digit1, digit2] =>
    if hex2val digit1 < 0 then (s, false)
    else if hex2val digit2 < 0 then (s, false)
    else (motorGo { s with target_pwm := hex2val digit1 * 16 + hex2val digit2 }, true)
  | 'M' :: _ => (s, false)
  | 'D' :: rest => (motorGo { s with dir := if rest.head? = some '0' then .CW else .CCW }, true)
  | ['Q'] => (s, true)
  | ['V'] => (s, true)
  | _ => (s, false)

/-- `loop`, for one character. -/
def receive (s : State) (c : Char) : State :=
  if c = '\n' then { (processCmd s).1 with line := [] } else { s with line := s.line ++ [c] }

end MonsterShield

/-! ### The server -/

namespace AndroidServer

structure BTcommThread where
  currspeed : Int := 0
  currDir : Int := 1
  deriving DecidableEq, Repr

/-- `String.format("%02x", value)`. -/
def format02x (value : Int) : List Char :=
  let digits := Nat.toDigits 16 (pattern32 value)
  List.replicate (2 - digits.length) '0' ++ digits

def sendCommand (cmd : List Char) (firmware : MonsterShield.State) : MonsterShield.State :=
  (cmd ++ ['\r', '\n']).foldl MonsterShield.receive firmware

/-- The messages; `other` is every one without a branch. -/
inductive Command where
  | ping
  | acc
  | break
  | dir (dir : Int)
  | power
  | stop
  | getLocos
  | getFunctions
  | other
  deriving DecidableEq, Repr

inductive Reply where
  | statusReply (speed : Int)
  | powerReply (value : Int)
  | getLocosReply (speed : Int)
  | getFunctionsReply
  deriving DecidableEq, Repr

/-- The speed that `setLokStatus` and GETLOCOS report. -/
def BTcommThread.lokStatus (t : BTcommThread) : Int :=
  if t.currspeed = 0 then t.currDir else t.currspeed * t.currDir

/-- A branch of `run`: the thread after it, the reply, and the command for the Arduino. Without
a result it has thrown. -/
def perform (cmd : Command) (t : BTcommThread) : Option (BTcommThread × Reply × Option (List Char)) :=
  match cmd with
  | .ping => some (t, .statusReply t.lokStatus, none)
  | .acc =>
    let t := { t with currspeed := if t.currspeed + 5 > 255 then 255 else t.currspeed + 5 }
    some (t, .statusReply t.lokStatus, some ('M' :: format02x t.currspeed))
  | .break =>
    let t := { t with currspeed := if t.currspeed - 5 < 0 then 0 else t.currspeed - 5 }
    some (t, .statusReply t.lokStatus, some ('M' :: format02x t.currspeed))
  | .dir dir =>
    if dir ≠ 1 ∧ dir ≠ -1 then none
    else if t.currspeed ≠ 0 then none
    else
      let t := { t with currDir := dir }
      some (t, .statusReply t.lokStatus, some ['D', if t.currDir = 1 then '1' else '0'])
  | .power => some (t, .powerReply (-1), some ['M', '0', '0'])
  | .stop =>
    let t := { t with currspeed := 0 }
    some (t, .statusReply t.lokStatus, some ['M', '0', '0'])
  | .getLocos => some (t, .getLocosReply t.lokStatus, none)
  | .getFunctions => some (t, .getFunctionsReply, none)
  | .other => none

structure State where
  clients : List BTcommThread := []
  firmware : MonsterShield.State := {}
  deriving DecidableEq, Repr

inductive Label where
  /-- A new connection, or one that fails in `connect` or HELO. -/
  | connect (done : Bool)
  /-- A whole command of a connection. -/
  | command (i : Nat) (cmd : Command)
  /-- The end of a connection, by any exception, also in the middle of a command. -/
  | disconnect (i : Nat)
  deriving DecidableEq, Repr

/-- The finally block. -/
def stopMotor (s : State) : State := { s with firmware := sendCommand ['M', '0', '0'] s.firmware }

def disconnect (i : Nat) (s : State) : State := stopMotor { s with clients := s.clients.eraseIdx i }

def step (s : State) : Label → State
  | .connect done => if done then { s with clients := s.clients ++ [{}] } else stopMotor s
  | .command i cmd => match s.clients[i]? with
    | none => s
    | some t => match perform cmd t with
      | none => disconnect i s
      | some (t, _, line) => {
          clients := s.clients.set i t
          firmware := match line with
            | none => s.firmware
            | some cmd => sendCommand cmd s.firmware }
  | .disconnect i => if i < s.clients.length then disconnect i s else s

/-! ### What a command line does -/

theorem receive_text (text : List Char) (firmware : MonsterShield.State) (plain : '\n' ∉ text) :
    text.foldl MonsterShield.receive firmware = { firmware with line := firmware.line ++ text } := by
  induction text generalizing firmware with
  | nil => simp
  | cons c rest ih =>
    have here : c ≠ '\n' := fun h => plain (by simp [h])
    have later : '\n' ∉ rest := fun h => plain (List.mem_cons_of_mem _ h)
    simp only [List.foldl_cons,MonsterShield.receive,here,if_false,ih _ later,List.append_assoc,
      List.singleton_append]

theorem sendCommand_eq (cmd : List Char) (firmware : MonsterShield.State) (plain : '\n' ∉ cmd) :
    sendCommand cmd firmware =
      { (MonsterShield.processCmd { firmware with line := firmware.line ++ cmd ++ ['\r'] }).1 with
        line := [] } := by
  have text : '\n' ∉ cmd ++ ['\r'] := by simpa using plain
  have split : cmd ++ ['\r','\n'] = (cmd ++ ['\r']) ++ ['\n'] := by simp
  rw [sendCommand,split,List.foldl_append,receive_text _ _ text]
  simp [MonsterShield.receive]

theorem processCmd_speed (s : MonsterShield.State) (digit1 digit2 : Char)
    (line : s.line = ['M',digit1,digit2,'\r']) (valid1 : ¬ MonsterShield.hex2val digit1 < 0)
    (valid2 : ¬ MonsterShield.hex2val digit2 < 0) :
    (MonsterShield.processCmd s).1 = MonsterShield.motorGo { s with
      target_pwm := MonsterShield.hex2val digit1 * 16 + MonsterShield.hex2val digit2 } := by
  have stripped : MonsterShield.processCmd s =
      if MonsterShield.hex2val digit1 < 0 then (s,false)
      else if MonsterShield.hex2val digit2 < 0 then (s,false)
      else (MonsterShield.motorGo { s with
        target_pwm := MonsterShield.hex2val digit1 * 16 + MonsterShield.hex2val digit2 },true) := by
    cases s
    cases line
    rfl
  rw [stripped,if_neg valid1,if_neg valid2]

theorem hex2val_digitChar : ∀ d : Fin 16,
    MonsterShield.hex2val (Nat.digitChar d.val) = (d.val : Int) ∧ Nat.digitChar d.val ≠ '\n' := by
  decide +kernel

theorem format02x_digits : ∀ v : Fin 256,
    format02x (v.val : Int) = [Nat.digitChar (v.val / 16),Nat.digitChar (v.val % 16)] := by
  decide +kernel

/-- The firmware behind a speed command, at the start of a line. -/
structure Runs (firmware : MonsterShield.State) (pwm : Int) (dir : MonsterShield.Direction) : Prop where
  target_pwm : firmware.target_pwm = pwm
  dir : firmware.dir = dir
  line : firmware.line = []

theorem sendCommand_speed (v : Int) (firmware : MonsterShield.State) (low : 0 ≤ v) (high : v ≤ 255)
    (fresh : firmware.line = []) :
    Runs (sendCommand ('M' :: format02x v) firmware) v firmware.dir := by
  obtain ⟨n,rfl⟩ := Int.eq_ofNat_of_zero_le low
  have small : n < 256 := by omega
  obtain ⟨high16,plainHigh⟩ := hex2val_digitChar ⟨n / 16,by omega⟩
  obtain ⟨low16,plainLow⟩ := hex2val_digitChar ⟨n % 16,by omega⟩
  dsimp only at high16 low16 plainHigh plainLow
  have plain : '\n' ∉ ['M',Nat.digitChar (n / 16),Nat.digitChar (n % 16)] := by
    simp [Ne.symm plainHigh,Ne.symm plainLow]
  have value : (n / 16 : Nat) * 16 + (n % 16 : Nat) = (n : Int) := by omega
  rw [format02x_digits ⟨n,small⟩,sendCommand_eq _ _ plain,fresh,processCmd_speed _ _ _ rfl
    (by rw [high16]; omega) (by rw [low16]; omega),high16,low16,value]
  exact ⟨rfl,rfl,rfl⟩

theorem sendCommand_stop (firmware : MonsterShield.State) (fresh : firmware.line = []) :
    Runs (sendCommand ['M','0','0'] firmware) 0 firmware.dir :=
  sendCommand_speed 0 firmware (by decide) (by decide) fresh

theorem sendCommand_dir (currDir : Int) (firmware : MonsterShield.State) (fresh : firmware.line = []) :
    Runs (sendCommand ['D',if currDir = 1 then '1' else '0'] firmware) firmware.target_pwm
      (if currDir = 1 then .CCW else .CW) := by
  split
  · rw [sendCommand_eq _ _ (by decide),fresh]
    exact ⟨rfl,rfl,rfl⟩
  · rw [sendCommand_eq _ _ (by decide),fresh]
    exact ⟨rfl,rfl,rfl⟩

/-! ### Motor and connections -/

/-- The motor turns as the next reply of every connection would report. -/
def Paced (s : State) : Prop := ∀ t ∈ s.clients, s.firmware.target_pwm = t.currspeed
def Directed (s : State) : Prop := ∀ t ∈ s.clients, (s.firmware.dir = .CCW ↔ t.currDir = 1)

def Agree (s : State) : Prop := Paced s ∧ Directed s

def completed (s : State) : Label → Bool
  | .command i cmd => (s.clients[i]?.bind (perform cmd)).isSome
  | _ => false

/-- What a command of the connection `t`, the `i`-th, has to find: the part of the state that it
does not write agrees already, and the other connections have what it is about to write. -/
def Finds (s : State) (i : Nat) (t : BTcommThread) : Command → Prop
  | .acc => Directed s ∧ ∀ other ∈ s.clients.eraseIdx i, other.currspeed = min 255 (t.currspeed + 5)
  | .break => Directed s ∧ ∀ other ∈ s.clients.eraseIdx i, other.currspeed = max 0 (t.currspeed - 5)
  | .stop => Directed s ∧ ∀ other ∈ s.clients.eraseIdx i, other.currspeed = 0
  | .power => Directed s ∧ ∀ t ∈ s.clients, t.currspeed = 0
  | .dir dir => Paced s ∧ ∀ other ∈ s.clients.eraseIdx i, (other.currDir = 1 ↔ dir = 1)
  | .ping | .getLocos | .getFunctions | .other => Agree s

def Meets (s : State) : Label → Prop
  | .command i cmd => match s.clients[i]? with
    | some t => Finds s i t cmd
    | none => True
  | _ => True

/-- The speed has two hex digits. -/
structure BTcommThread.Sound (t : BTcommThread) : Prop where
  low : 0 ≤ t.currspeed
  high : t.currspeed ≤ 255
  currDir : t.currDir = 1 ∨ t.currDir = -1

/-- Besides, every command starts on a fresh line. -/
structure Sound (s : State) : Prop where
  line : s.firmware.line = []
  clients : ∀ t ∈ s.clients, t.Sound

/-- In agreement, what a connection reports is the speed of the motor with the sign of its
direction, or the sign alone where it stands. -/
theorem agree_reports {s : State} (sound : Sound s) (agree : Agree s) {t : BTcommThread}
    (member : t ∈ s.clients) :
    t.lokStatus = (if s.firmware.target_pwm = 0 then 1 else s.firmware.target_pwm) *
      (if s.firmware.dir = .CCW then 1 else -1) := by
  have paced := agree.1 t member
  have directed := agree.2 t member
  simp only [BTcommThread.lokStatus,paced,directed]
  rcases (sound.clients t member).currDir with forward | backward
  · simp only [forward,if_true]
    split <;> simp
  · simp only [backward]
    split <;> simp

theorem forall_set {α : Type} {l : List α} {i : Nat} {a : α} {p : α → Prop} (inside : i < l.length) :
    (∀ x ∈ l.set i a, p x) ↔ p a ∧ ∀ x ∈ l.eraseIdx i, p x := by
  rw [List.set_eq_take_append_cons_drop,if_pos inside,List.eraseIdx_eq_take_drop_succ]
  simp only [List.mem_append,List.mem_cons]
  constructor
  · intro all
    exact ⟨all a (.inr (.inl rfl)),fun x member => all x (member.imp_right .inr)⟩
  · rintro ⟨here,others⟩ x (before | rfl | after)
    · exact others x (.inl before)
    · exact here
    · exact others x (.inr after)

theorem forall_split {α : Type} {l : List α} {i : Nat} {a : α} {p : α → Prop} (found : l[i]? = some a) :
    (∀ x ∈ l, p x) ↔ p a ∧ ∀ x ∈ l.eraseIdx i, p x := by
  obtain ⟨inside,here⟩ := List.getElem?_eq_some_iff.mp found
  rw [← forall_set inside,← here,List.set_getElem_self]

/-- The state behind a command, in terms of what its connection and the motor have become. -/
theorem agree_after {s : State} {i : Nat} {t : BTcommThread} {firmware : MonsterShield.State} {pwm : Int}
    {dir : MonsterShield.Direction} (inside : i < s.clients.length) (runs : Runs firmware pwm dir) :
    Agree ⟨s.clients.set i t,firmware⟩ ↔
      (pwm = t.currspeed ∧ ∀ other ∈ s.clients.eraseIdx i, pwm = other.currspeed) ∧
      ((dir = .CCW ↔ t.currDir = 1) ∧
        ∀ other ∈ s.clients.eraseIdx i, (dir = .CCW ↔ other.currDir = 1)) := by
  simp only [Agree,Paced,Directed,forall_set inside,runs.target_pwm,runs.dir]

/-- A command that sets the speed of its connection and sends it to the motor. -/
theorem speed_agree {s : State} {i : Nat} {t : BTcommThread} {v : Int} {firmware : MonsterShield.State}
    (found : s.clients[i]? = some t) (runs : Runs firmware v s.firmware.dir) :
    Agree ⟨s.clients.set i { t with currspeed := v },firmware⟩ ↔
      Directed s ∧ ∀ other ∈ s.clients.eraseIdx i, other.currspeed = v := by
  obtain ⟨inside,_⟩ := List.getElem?_eq_some_iff.mp found
  rw [agree_after inside runs,Directed,forall_split found]
  simp only [true_and,eq_comm (a := v)]
  exact and_comm

theorem power_agree {s : State} {i : Nat} {t : BTcommThread} {firmware : MonsterShield.State}
    (found : s.clients[i]? = some t) (runs : Runs firmware 0 s.firmware.dir) :
    Agree ⟨s.clients.set i t,firmware⟩ ↔ Directed s ∧ ∀ t ∈ s.clients, t.currspeed = 0 := by
  obtain ⟨inside,_⟩ := List.getElem?_eq_some_iff.mp found
  rw [agree_after inside runs,Directed,forall_split found,forall_split found]
  simp only [eq_comm (a := (0 : Int))]
  exact and_comm

theorem dir_agree {s : State} {i : Nat} {t : BTcommThread} {dir : Int} {firmware : MonsterShield.State}
    (found : s.clients[i]? = some t)
    (runs : Runs firmware s.firmware.target_pwm (if dir = 1 then .CCW else .CW)) :
    Agree ⟨s.clients.set i { t with currDir := dir },firmware⟩ ↔
      Paced s ∧ ∀ other ∈ s.clients.eraseIdx i, (other.currDir = 1 ↔ dir = 1) := by
  obtain ⟨inside,_⟩ := List.getElem?_eq_some_iff.mp found
  have turned : ((if dir = 1 then MonsterShield.Direction.CCW else .CW) = .CCW) ↔ dir = 1 := by
    split <;> simp_all
  rw [agree_after inside runs,Paced,forall_split found]
  simp only [turned,true_and,iff_comm (a := dir = 1)]

theorem command_agree_iff {s : State} {i : Nat} {t : BTcommThread} {cmd : Command} (sound : Sound s)
    (found : s.clients[i]? = some t) (done : (perform cmd t).isSome) :
    Agree (step s (.command i cmd)) ↔ Finds s i t cmd := by
  have unchanged : s.clients.set i t = s.clients := by
    obtain ⟨inside,here⟩ := List.getElem?_eq_some_iff.mp found
    rw [← here,List.set_getElem_self]
  obtain ⟨low,high,_⟩ := sound.clients t (List.mem_of_getElem? found)
  cases cmd with
  | ping => simp only [step,found,perform,unchanged,Finds]
  | getLocos => simp only [step,found,perform,unchanged,Finds]
  | getFunctions => simp only [step,found,perform,unchanged,Finds]
  | acc =>
    have clipped : (if t.currspeed + 5 > 255 then 255 else t.currspeed + 5) = min 255 (t.currspeed + 5) := by
      omega
    simp only [step,found,perform,clipped,Finds]
    exact speed_agree found (sendCommand_speed _ _ (by omega) (by omega) sound.line)
  | «break» =>
    have clipped : (if t.currspeed - 5 < 0 then 0 else t.currspeed - 5) = max 0 (t.currspeed - 5) := by
      omega
    simp only [step,found,perform,clipped,Finds]
    exact speed_agree found (sendCommand_speed _ _ (by omega) (by omega) sound.line)
  | stop =>
    simp only [step,found,perform,Finds]
    exact speed_agree found (sendCommand_stop _ sound.line)
  | power =>
    simp only [step,found,perform,Finds]
    exact power_agree found (sendCommand_stop _ sound.line)
  | dir dir =>
    simp only [perform] at done
    split at done
    · contradiction
    · rename_i valid
      split at done
      · contradiction
      · rename_i stands
        simp only [step,found,perform,if_neg valid,if_neg stands,Finds]
        exact dir_agree found (sendCommand_dir dir _ sound.line)
  | other => contradiction

/-- What a branch of `run` leaves to its thread and to the line. -/
theorem perform_sound {cmd : Command} {t t' : BTcommThread} {reply : Reply} {line : Option (List Char)}
    (done : perform cmd t = some (t',reply,line)) (sound : t.Sound) :
    t'.Sound ∧ ∀ text ∈ line, ∀ firmware : MonsterShield.State, firmware.line = [] →
      (sendCommand text firmware).line = [] := by
  obtain ⟨low,high,currDir⟩ := sound
  cases cmd with
  | ping | getLocos | getFunctions =>
    cases done
    exact ⟨⟨low,high,currDir⟩,by simp⟩
  | acc | «break» =>
    cases done
    refine ⟨⟨by dsimp only; omega,by dsimp only; omega,currDir⟩,fun text written firmware fresh => ?_⟩
    cases written
    exact (sendCommand_speed _ firmware (by dsimp only; omega) (by dsimp only; omega) fresh).line
  | stop =>
    cases done
    refine ⟨⟨Int.le_refl 0,by dsimp only; omega,currDir⟩,fun text written firmware fresh => ?_⟩
    cases written
    exact (sendCommand_stop firmware fresh).line
  | power =>
    cases done
    refine ⟨⟨low,high,currDir⟩,fun text written firmware fresh => ?_⟩
    cases written
    exact (sendCommand_stop firmware fresh).line
  | dir dir =>
    simp only [perform] at done
    split at done
    · contradiction
    · rename_i valid
      split at done
      · contradiction
      · cases done
        refine ⟨⟨low,high,by dsimp only; omega⟩,fun text written firmware fresh => ?_⟩
        cases written
        exact (sendCommand_dir dir firmware fresh).line
  | other => contradiction

theorem stopMotor_sound {s : State} (sound : Sound s) : Sound (stopMotor s) :=
  ⟨(sendCommand_stop s.firmware sound.line).line,sound.clients⟩

theorem disconnect_sound {s : State} (i : Nat) (sound : Sound s) : Sound (disconnect i s) :=
  stopMotor_sound ⟨sound.line,fun t member => sound.clients t (List.mem_of_mem_eraseIdx member)⟩

theorem step_sound (s : State) (label : Label) (sound : Sound s) : Sound (step s label) := by
  cases label with
  | connect done =>
    simp only [step]
    split
    · refine ⟨sound.line,fun t member => ?_⟩
      rcases List.mem_append.mp member with old | new
      · exact sound.clients t old
      · cases List.mem_singleton.mp new
        exact ⟨by decide,by decide,.inl rfl⟩
    · exact stopMotor_sound sound
  | command i cmd =>
    simp only [step]
    split
    · exact sound
    · rename_i t found
      split
      · exact disconnect_sound i sound
      · rename_i t' reply line done
        obtain ⟨kept,written⟩ := perform_sound done (sound.clients t (List.mem_of_getElem? found))
        refine ⟨?_,fun other member => ?_⟩
        · cases line with
          | none => exact sound.line
          | some text => exact written text rfl s.firmware sound.line
        · rcases List.mem_or_eq_of_mem_set member with old | rfl
          · exact sound.clients other old
          · exact kept
  | disconnect i =>
    simp only [step]
    split
    · exact disconnect_sound i sound
    · exact sound

/-- A completed command leaves motor and connections in agreement exactly if it finds what it has
to find. -/
theorem completed_agree_iff (s : State) (label : Label) (sound : Sound s) :
    (completed s label = true → Agree (step s label)) ↔ (completed s label = true → Meets s label) := by
  apply imp_congr_right
  intro done
  cases label with
  | connect => contradiction
  | disconnect => contradiction
  | command i cmd =>
    cases found : s.clients[i]? with
    | none => simp [completed,found] at done
    | some t =>
      simp only [completed,found,Option.bind_some] at done
      simp only [Meets,found]
      exact command_agree_iff sound found done

/-- Over every run: each completed command leaves the motor as every connection would report it,
exactly if each finds what it has to find. -/
theorem motor_agrees_iff (labels : List Label) :
    Transition.Along step (fun s label => completed s label = true → Agree (step s label)) {} labels ↔
      Transition.Along step (fun s label => completed s label = true → Meets s label) {} labels :=
  Transition.along_congr step_sound completed_agree_iff labels {} ⟨rfl,by simp⟩

instance (s : State) : Decidable (Agree s) :=
  inferInstanceAs (Decidable ((∀ t ∈ s.clients, s.firmware.target_pwm = t.currspeed) ∧
    ∀ t ∈ s.clients, (s.firmware.dir = .CCW ↔ t.currDir = 1)))

/-- One client drives off and sends POWER: the motor stands, the connection still reports 5. -/
def powerRun : List Label :=
  [.connect true, .command 0 (.dir 1), .command 0 .acc, .command 0 .power]

theorem power_keeps_speed :
    ¬ ∀ labels, Transition.Along step
      (fun s label => completed s label = true → Agree (step s label)) {} labels := by
  intro always
  exact absurd (always powerRun) (by decide +kernel)

end AndroidServer

end Btcontrol
