import Btcontrol.Digispark
import Btcontrol.LokdefText

/-! `putzlok.ino`, the firmware of the Digispark, compiled with CABLIGHT and DEBUG_FLICKER_IN_STOP: `loop` moves the
driven PWM value one step towards the commanded one and then reads what has arrived, character by character. -/
namespace Btcontrol.Putzlok

open Transition

inductive Answer where
  | m (target_pwm : Int)
  | d (level : Bool)
  | query (usbDeviceAddr : UInt8) (usbError pwm_hw dir : Int)
  | version
  | EP (pos : Nat)
  | EC (line : Str)
  | EO (pos : Nat)
  deriving DecidableEq

def println (text : Str) : Str := text ++ str "\r\n"

def hex (n : Int) : Str := (Nat.toDigits 16 n.toNat).map (fun digit => digit.toUpper.toUInt8)

def Answer.text : Answer → Str
  | .m target_pwm => println (str "m" ++ hex target_pwm)
  | .d level => println (if level then str "d1" else str "d0")
  | .query usbDeviceAddr usbError pwm_hw dir =>
    println (str "usb addr=" ++ decimal usbDeviceAddr.toNat) ++ println (str "usberrors=" ++ decimal usbError) ++
      println (str "speed=" ++ decimal pwm_hw) ++ println (str "dir=" ++ decimal dir)
  | .version => println (str "Version 1.1") ++ println (str "DEBUG_FLICKER_IN_STOP") ++ println (str "CABLIGHT")
  | .EP pos => println (str "EP=" ++ decimal pos)
  | .EC line => println (str "EC: " ++ line)
  | .EO pos => println (str "EO" ++ decimal pos)

def size : Nat := 20

structure State where
  line : Vector UInt8 size := Vector.replicate size 0
  pos : Nat := 0
  target_pwm : Int := 0
  pwm_hw : Int := 0
  dir : Int := 0
  debugloop : Int16 := 0
  usbDeviceAddr : UInt8 := 0
  usbError : Int := 0
  /-- The last `analogWrite(1, ...)`. -/
  pwmPin : Int := 0
  /-- The last `digitalWrite(5, ...)`. -/
  dirPin : Bool := false
  cablightFront : Bool := false
  cablightRear : Bool := false
  answers : List Answer := []
  /-- `resetFunc` was called: what follows is another run, from the start. -/
  reset : Bool := false
  /-- Records, read by no step: the indexes `line` was used with, the characters since the last newline, the driven
  value when the last M command was completed and the iterations that were begun since then. -/
  indexed : List Nat := []
  whole : Str := []
  rampStart : Int := 0
  iterations : Nat := 0
  deriving DecidableEq

def hex2val (c : UInt8) : Int :=
  if 48 ≤ c ∧ c ≤ 57 then c.toNat - 48
  else if 97 ≤ c ∧ c ≤ 102 then c.toNat - 97 + 10
  else -1

def lineAt (i : Nat) : StateM State UInt8 := do
  let s ← get
  set { s with indexed := i :: s.indexed }
  return s.line[i]?.getD 0

def setLine (i : Nat) (c : UInt8) : StateM State Unit :=
  modify (fun s => { s with line := s.line.setIfInBounds i c, indexed := i :: s.indexed })

def answer (a : Answer) : StateM State Unit := modify (fun s => { s with answers := s.answers ++ [a] })

def isCmd (n : Nat) (c : UInt8) : StateM State Bool := do
  if (← get).pos = n then return (← lineAt 0) = c else return false

def invalid : StateM State Bool := do
  answer (.EP (← get).pos)
  return false

/-- The branch of an M command. -/
def setTarget : StateM State Bool := do
  let c1 := hex2val (← lineAt 1)
  if c1 < 0 then return false
  let c2 := hex2val (← lineAt 2)
  if c2 < 0 then return false
  modify (fun s => { s with target_pwm := c1 * 16 + c2, rampStart := s.pwm_hw, iterations := 0 })
  answer (.m (c1 * 16 + c2))
  return true

/-- `digitalWrite(5, level)` and what follows it. -/
def setDir (level : Bool) : StateM State Bool := do
  modify (fun s => { s with dirPin := level, dir := if level then 1 else 0 })
  answer (.d level)
  return true

def processCmd : StateM State Bool := do
  if ← isCmd 4 77 then setTarget
  else if ← isCmd 3 68 then
    if (← lineAt 1) = 48 then setDir false
    else if (← lineAt 1) = 49 then setDir true
    else invalid
  else if ← isCmd 2 81 then
    let s ← get
    answer (.query s.usbDeviceAddr s.usbError s.pwm_hw s.dir)
    return true
  else if ← isCmd 2 86 then
    answer .version
    return true
  else invalid

/-- `println(line)` reads up to the NUL. -/
def printLine : StateM State Unit := do
  let s ← get
  let text := s.line.toList.takeWhile (· ≠ 0)
  set { s with indexed := List.range (text.length + 1) ++ s.indexed }
  answer (.EC text)

def complete : StateM State Unit := do
  unless ← processCmd do printLine

/-- One turn of the `while` of `loop`. -/
def read (c : UInt8) : StateM State Unit := do
  let pos := (← get).pos
  if pos < size then
    setLine pos c
    modify (fun s => { s with pos := pos + 1 })
    if (← lineAt pos) = 10 then
      setLine pos 0
      complete
      modify (fun s => { s with pos := 0 })
  else
    answer (.EO pos)
    modify (fun s => { s with pos := 0 })
  modify (fun s => { s with whole := if c = 10 then [] else s.whole ++ [c] })

def setCablight (s : State) : State :=
  if s.pwm_hw = 0 then
    if s.dir = 0 then { s with cablightFront := false } else { s with cablightRear := false }
  else { s with cablightFront := true, cablightRear := true }

def ramp (s : State) : State :=
  if s.pwm_hw < s.target_pwm then setCablight { s with pwm_hw := s.pwm_hw + 1, pwmPin := s.pwm_hw + 1 }
  else if s.pwm_hw > s.target_pwm then setCablight { s with pwm_hw := s.pwm_hw - 1, pwmPin := s.pwm_hw - 1 }
  else s

def flicker (s : State) : State :=
  if s.pwm_hw = 0 then
    let debugloop := s.debugloop + 1
    { s with debugloop, pwmPin := if debugloop % 10 = 0 then 1 else 0 }
  else s

/-- An iteration of `loop` up to its `while`. -/
def loop (usbDeviceAddr : UInt8) (s : State) : State :=
  let s := { s with usbDeviceAddr }
  if usbDeviceAddr = 0 then
    if s.usbError > 20 then { s with pwmPin := 0, reset := true }
    -- `usbError%1` is 0
    else ramp (flicker { s with usbError := s.usbError + 1, pwmPin := 0, iterations := s.iterations + 1 })
  else ramp (flicker { s with usbError := 0, iterations := s.iterations + 1 })

inductive Label where
  | loop (usbDeviceAddr : UInt8)
  | read (c : UInt8)
  deriving DecidableEq

def step (s : State) (label : Label) : State :=
  if s.reset then s
  else match label with
    | .loop usbDeviceAddr => loop usbDeviceAddr s
    | .read c => ((read c).run s).2

inductive Command where
  | pwm (value : Int)
  | dir (level : Bool)
  deriving DecidableEq

/-- The text of a line before its newline: `M` and two hex digits, `D0` or `D1`. -/
def commandOf : Str → Option Command
  | [key,level] =>
    if key = 68 ∧ level = 48 then some (.dir false)
    else if key = 68 ∧ level = 49 then some (.dir true)
    else none
  | [key,high,low] =>
    if key = 77 ∧ 0 ≤ hex2val high ∧ 0 ≤ hex2val low then some (.pwm (hex2val high * 16 + hex2val low)) else none
  | _ => none

def obey (s : State) : Option Command → State
  | none => s
  | some (.pwm value) => { s with target_pwm := value, rampStart := s.pwm_hw, iterations := 0 }
  | some (.dir level) => { s with dirPin := level, dir := if level then 1 else 0 }

def Answer.isError : Answer → Bool
  | .EC _ | .EO _ => true
  | .m _ | .d _ | .query .. | .version | .EP _ => false

/-- A completed line: what it commands is obeyed, `line` was used below 3 and no answer is an error. -/
def Processed (s : State) (text : Str) (ok : Bool) (result : Bool × State) : Prop :=
  ∃ indexed answers, result = (ok,{ obey s (commandOf text) with
      indexed := indexed ++ s.indexed, answers := s.answers ++ answers }) ∧
    (∀ i ∈ indexed, i < 3) ∧ ∀ a ∈ answers, a.isError = false

def accepted (text : Str) : Bool := (commandOf text).isSome || decide (text = [81]) || decide (text = [86])

section Processed

variable {s : State} {text : Str}

theorem processed_dir {key level : UInt8} (ended : s.pos = 3) (first : s.line[0]?.getD 0 = key)
    (second : s.line[1]?.getD 0 = level) :
    Processed s [key,level] (accepted [key,level]) (processCmd.run s) := by
  by_cases d : key = 68
  · by_cases low : level = 48
    · refine ⟨[1,0],[.d false],?_,by simp,by simp [Answer.isError]⟩
      simp [processCmd,isCmd,ended,lineAt,first,second,d,low,setDir,answer,obey,accepted,commandOf]
      rfl
    · by_cases high : level = 49
      · refine ⟨[1,1,0],[.d true],?_,by simp,by simp [Answer.isError]⟩
        simp [processCmd,isCmd,ended,lineAt,first,second,d,high,setDir,answer,obey,accepted,commandOf]
        rfl
      · refine ⟨[1,1,0],[.EP 3],?_,by simp,by simp [Answer.isError]⟩
        simp [processCmd,isCmd,ended,lineAt,first,second,d,low,high,invalid,answer,obey,accepted,commandOf]
        rfl
  · refine ⟨[0],[.EP 3],?_,by simp,by simp [Answer.isError]⟩
    simp [processCmd,isCmd,ended,lineAt,first,d,invalid,answer,obey,accepted,commandOf]
    rfl

theorem processed_pwm {key high low : UInt8} (ended : s.pos = 4) (first : s.line[0]?.getD 0 = key)
    (second : s.line[1]?.getD 0 = high) (third : s.line[2]?.getD 0 = low) :
    Processed s [key,high,low] (accepted [key,high,low]) (processCmd.run s) := by
  by_cases m : key = 77
  · by_cases c1 : hex2val high < 0
    · refine ⟨[1,0],[],?_,by simp,by simp⟩
      simp [processCmd,isCmd,ended,lineAt,first,second,m,c1,setTarget,obey,accepted,commandOf,not_le.mpr c1]
      rfl
    · by_cases c2 : hex2val low < 0
      · refine ⟨[2,1,0],[],?_,by simp,by simp⟩
        simp [processCmd,isCmd,ended,lineAt,first,second,third,m,c1,c2,setTarget,obey,accepted,commandOf,not_le.mpr c2]
        rfl
      · refine ⟨[2,1,0],[.m (hex2val high * 16 + hex2val low)],?_,by simp,by simp [Answer.isError]⟩
        simp [processCmd,isCmd,ended,lineAt,first,second,third,m,c1,c2,setTarget,answer,obey,accepted,commandOf,
          not_lt.mp c1,not_lt.mp c2]
        rfl
  · refine ⟨[0],[.EP 4],?_,by simp,by simp [Answer.isError]⟩
    simp [processCmd,isCmd,ended,lineAt,first,m,invalid,answer,obey,accepted,commandOf]
    rfl

theorem processed_query {key : UInt8} (ended : s.pos = 2) (first : s.line[0]?.getD 0 = key) :
    Processed s [key] (accepted [key]) (processCmd.run s) := by
  by_cases q : key = 81
  · refine ⟨[0],[.query s.usbDeviceAddr s.usbError s.pwm_hw s.dir],?_,by simp,by simp [Answer.isError]⟩
    simp [processCmd,isCmd,ended,lineAt,first,q,answer,obey,accepted,commandOf]
    rfl
  · by_cases v : key = 86
    · refine ⟨[0,0],[.version],?_,by simp,by simp [Answer.isError]⟩
      simp [processCmd,isCmd,ended,lineAt,first,v,answer,obey,accepted,commandOf]
      rfl
    · refine ⟨[0,0],[.EP 2],?_,by simp,by simp [Answer.isError]⟩
      simp [processCmd,isCmd,ended,lineAt,first,q,v,invalid,answer,obey,accepted,commandOf]
      rfl

theorem processed_invalid (ended : s.pos = text.length + 1) (other : text = [] ∨ 3 < text.length) :
    Processed s text (accepted text) (processCmd.run s) := by
  have none : commandOf text = none ∧ accepted text = false := by
    match text with
    | [] => exact ⟨rfl,rfl⟩
    | [_] | [_,_] | [_,_,_] => simp at other
    | a :: b :: c :: d :: rest => simp [accepted,commandOf]
  have elsewhere : s.pos ≠ 4 ∧ s.pos ≠ 3 ∧ s.pos ≠ 2 := by
    rcases other with rfl | long
    · simp [ended]
    · omega
  refine ⟨[],[.EP s.pos],?_,by simp,by simp [Answer.isError]⟩
  simp [processCmd,isCmd,elsewhere,none,invalid,answer,obey]
  rfl

theorem processed (ended : s.pos = text.length + 1)
    (stored : ∀ i, i < text.length → s.line[i]?.getD 0 = text[i]?.getD 0) :
    Processed s text (accepted text) (processCmd.run s) := by
  match text with
  | [] => exact processed_invalid ended (.inl rfl)
  | [_] => exact processed_query ended (stored 0 (by simp))
  | [_,_] => exact processed_dir ended (stored 0 (by simp)) (stored 1 (by simp))
  | [_,_,_] => exact processed_pwm ended (stored 0 (by simp)) (stored 1 (by simp)) (stored 2 (by simp))
  | _ :: _ :: _ :: _ :: _ => exact processed_invalid ended (.inr (by simp))

end Processed

def content (s : State) : Str := s.line.toList.take s.pos

def extend (text : Str) (c : UInt8) : Str :=
  if text.length < size ∧ c ≠ 10 then text ++ [c] else []

/-- What a character makes the firmware do. -/
def commanded (text : Str) (c : UInt8) : Option Command :=
  if text.length < size ∧ c = 10 then commandOf text else none

theorem content_length {s : State} (bound : s.pos ≤ size) : (content s).length = s.pos := by
  simp [content,bound]

theorem content_stored {s : State} (bound : s.pos ≤ size) (buffer : Vector UInt8 size)
    (same : buffer.toList.take s.pos = content s) (i : Nat) (below : i < (content s).length) :
    buffer[i]?.getD 0 = (content s)[i]?.getD 0 := by
  rw [← same]
  rw [content_length bound] at below
  simp [below]

theorem read_text {s : State} {c : UInt8} (bound : s.pos < size) (plain : c ≠ 10) :
    ((read c).run s).2 = { s with
      line := s.line.setIfInBounds s.pos c
      pos := s.pos + 1
      indexed := s.pos :: s.pos :: s.indexed
      whole := s.whole ++ [c] } := by
  simp [read,bound,setLine,lineAt,plain]
  rfl

theorem read_long {s : State} (c : UInt8) (full : s.pos = size) : ((read c).run s).2 = { s with
    pos := 0
    answers := s.answers ++ [.EO size]
    whole := if c = 10 then [] else s.whole ++ [c] } := by
  simp [read,full,answer]
  rfl

/-- The buffer and the records do not matter to what a command does. -/
theorem obey_frame (s : State) (cmd : Option Command) (line : Vector UInt8 size) (pos : Nat) (indexed : List Nat) :
    obey { s with line, pos, indexed } cmd = { obey s cmd with line, pos, indexed } := by
  match cmd with
  | none | some (.pwm _) | some (.dir _) => rfl

theorem obey_kept (s : State) (cmd : Option Command) : (obey s cmd).line = s.line ∧ (obey s cmd).pos = s.pos ∧
    (obey s cmd).indexed = s.indexed ∧ (obey s cmd).answers = s.answers ∧ (obey s cmd).whole = s.whole ∧
    (obey s cmd).pwm_hw = s.pwm_hw ∧ (obey s cmd).reset = s.reset := by
  match cmd with
  | none | some (.pwm _) | some (.dir _) => exact ⟨rfl,rfl,rfl,rfl,rfl,rfl,rfl⟩

theorem complete_accepted {s s' : State} (outcome : processCmd.run s = (true,s')) : (complete.run s).2 = s' := by
  simp [complete,outcome]
  rfl

theorem complete_rejected {s s' : State} (outcome : processCmd.run s = (false,s')) :
    (complete.run s).2 = (printLine.run s').2 := by
  simp [complete,outcome]
  rfl

theorem takeWhile_short {α : Type} (p : α → Bool) {l : List α} {i : Nat} {a : α} (here : l[i]? = some a)
    (stop : p a = false) : (l.takeWhile p).length ≤ i := by
  induction l generalizing i with
  | nil => simp at here
  | cons b rest ih =>
    cases i with
    | zero =>
      obtain rfl : b = a := by simpa using here
      simp [stop]
    | succ i =>
      rw [List.takeWhile_cons]
      split
      · exact Nat.succ_le_succ (ih (by simpa using here))
      · exact Nat.zero_le _

theorem read_newline {s : State} (bound : s.pos < size) :
    ∃ line indexed answers, ((read 10).run s).2 = { obey s (commandOf (content s)) with
        line, pos := 0, indexed := indexed ++ s.indexed, answers := s.answers ++ answers, whole := [] } ∧
      (∀ i ∈ indexed, i < size) ∧ (accepted (content s) = true → ∀ a ∈ answers, a.isError = false) := by
  let line := (s.line.setIfInBounds s.pos 10).setIfInBounds s.pos 0
  let ended : State := { s with line, pos := s.pos + 1, indexed := s.pos :: s.pos :: s.pos :: s.indexed }
  have kept : line.toList.take s.pos = content s := by simp [line,content,List.take_set_of_le]
  have result : Processed ended (content s) (accepted (content s)) (processCmd.run ended) := by
    apply processed
    · rw [content_length bound.le]
    · exact content_stored bound.le line kept
  obtain ⟨indexed,answers,outcome,below,fine⟩ := result
  rw [obey_frame] at outcome
  have final : ((read 10).run s).2 = { (complete.run ended).2 with pos := 0, whole := [] } := by
    simp [read,bound,setLine,lineAt,ended,line]
    rfl
  have used : ∀ i ∈ indexed ++ [s.pos,s.pos,s.pos], i < size := by
    intro i member
    rcases List.mem_append.mp member with early | here
    · exact (below i early).trans (by decide)
    · obtain rfl : i = s.pos := by simpa using here
      exact bound
  cases ok : accepted (content s) with
  | true =>
    rw [ok] at outcome
    refine ⟨line,indexed ++ [s.pos,s.pos,s.pos],answers,?_,used,fun _ => fine⟩
    rw [final,complete_accepted outcome,List.append_assoc]
    rfl
  | false =>
    rw [ok] at outcome
    let text := line.toList.takeWhile (· ≠ 0)
    have short : text.length < size := by
      refine lt_of_le_of_lt (takeWhile_short _ (a := 0) (i := s.pos) ?_ (by simp)) bound
      simp [line,bound]
    refine ⟨line,List.range (text.length + 1) ++ (indexed ++ [s.pos,s.pos,s.pos]),answers ++ [.EC text],?_,?_,nofun⟩
    · rw [final,complete_rejected outcome,List.append_assoc,List.append_assoc,← List.append_assoc]
      rfl
    · intro i member
      rcases List.mem_append.mp member with printed | early
      · have := List.mem_range.mp printed
        omega
      · exact used i early

/-- What a character does, in one form for its three cases. -/
theorem read_spec {s : State} (bound : s.pos ≤ size) (c : UInt8) :
    ∃ line pos indexed answers, ((read c).run s).2 = { obey s (commanded (content s) c) with
        line, pos, indexed := indexed ++ s.indexed, answers := s.answers ++ answers
        whole := if c = 10 then [] else s.whole ++ [c] } ∧
      pos ≤ size ∧ line.toList.take pos = extend (content s) c ∧ (∀ i ∈ indexed, i < size) ∧
      ((content s).length < size → (c = 10 → accepted (content s) = true) → ∀ a ∈ answers, a.isError = false) := by
  have length := content_length bound
  rcases Nat.lt_or_eq_of_le bound with room | full
  · by_cases newline : c = 10
    · subst newline
      obtain ⟨line,indexed,answers,result,below,fine⟩ := read_newline room
      refine ⟨line,0,indexed,answers,?_,Nat.zero_le _,by simp [extend],below,fun _ ok => fine (ok rfl)⟩
      simp [result,commanded,length,room]
    · refine ⟨s.line.setIfInBounds s.pos c,s.pos + 1,[s.pos,s.pos],[],?_,room,?_,by simpa using room,by simp⟩
      · simp [read_text room newline,commanded,newline,obey]
      · simp [extend,room,newline,content,List.take_add_one,List.take_set_of_le]
  · refine ⟨s.line,0,[],[.EO size],?_,Nat.zero_le _,?_,by simp,?_⟩
    · simp [read_long c full,commanded,length,full,obey]
    · simp [extend,length,full]
    · intro room
      omega

/-! ### Lines of any length -/

/-- What is left of a line in the buffer: every 21st character is dropped, with the 20 before it. -/
def remainder (whole : Str) : Str := whole.drop (21 * (whole.length / 21))

theorem remainder_length (whole : Str) : (remainder whole).length = whole.length % 21 := by
  rw [remainder,List.length_drop]
  omega

theorem remainder_short {whole : Str} (short : whole.length ≤ size) : remainder whole = whole := by
  have none : whole.length / 21 = 0 := Nat.div_eq_of_lt (by unfold size at short; omega)
  simp [remainder,none]

theorem extend_remainder (whole : Str) {c : UInt8} (plain : c ≠ 10) :
    extend (remainder whole) c = remainder (whole ++ [c]) := by
  have next : remainder (whole ++ [c]) = (whole ++ [c]).drop (21 * ((whole.length + 1) / 21)) := by
    rw [remainder,List.length_append,List.length_singleton]
  rw [next,extend,remainder_length]
  by_cases room : whole.length % 21 < size
  · have same : (whole.length + 1) / 21 = whole.length / 21 := by unfold size at room; omega
    rw [if_pos ⟨room,plain⟩,same,List.drop_append_of_le_length (by omega),remainder]
  · have full : 21 * ((whole.length + 1) / 21) = whole.length + 1 := by unfold size at room; omega
    rw [if_neg (fun both => room both.1),full,List.drop_of_length_le (by simp)]

/-- The buffer holds the remainder of the line, and was never used outside of its bounds. -/
structure Buffered (s : State) : Prop where
  bound : s.pos ≤ size
  held : content s = remainder s.whole
  inside : ∀ i ∈ s.indexed, i < size

/-- A step that neither reads nor sets the direction. -/
structure Unread (s s' : State) : Prop where
  line : s'.line = s.line
  pos : s'.pos = s.pos
  whole : s'.whole = s.whole
  indexed : s'.indexed = s.indexed
  target_pwm : s'.target_pwm = s.target_pwm
  dir : s'.dir = s.dir
  dirPin : s'.dirPin = s.dirPin
  answers : s'.answers = s.answers
  rampStart : s'.rampStart = s.rampStart

theorem Unread.trans {s s' s'' : State} (first : Unread s s') (second : Unread s' s'') : Unread s s'' where
  line := second.line.trans first.line
  pos := second.pos.trans first.pos
  whole := second.whole.trans first.whole
  indexed := second.indexed.trans first.indexed
  target_pwm := second.target_pwm.trans first.target_pwm
  dir := second.dir.trans first.dir
  dirPin := second.dirPin.trans first.dirPin
  answers := second.answers.trans first.answers
  rampStart := second.rampStart.trans first.rampStart

theorem setCablight_unread (s : State) : Unread s (setCablight s) := by
  unfold setCablight
  split
  · split <;> exact ⟨rfl,rfl,rfl,rfl,rfl,rfl,rfl,rfl,rfl⟩
  · exact ⟨rfl,rfl,rfl,rfl,rfl,rfl,rfl,rfl,rfl⟩

theorem ramp_unread (s : State) : Unread s (ramp s) := by
  have moved (pwm_hw : Int) : Unread s { s with pwm_hw, pwmPin := pwm_hw } := ⟨rfl,rfl,rfl,rfl,rfl,rfl,rfl,rfl,rfl⟩
  unfold ramp
  split
  · exact (moved _).trans (setCablight_unread _)
  · split
    · exact (moved _).trans (setCablight_unread _)
    · exact ⟨rfl,rfl,rfl,rfl,rfl,rfl,rfl,rfl,rfl⟩

theorem flicker_unread (s : State) : Unread s (flicker s) := by
  unfold flicker
  split <;> exact ⟨rfl,rfl,rfl,rfl,rfl,rfl,rfl,rfl,rfl⟩

theorem loop_unread (usbDeviceAddr : UInt8) (s : State) : Unread s (loop usbDeviceAddr s) := by
  have begun (usbError pwmPin : Int) (iterations : Nat) :
      Unread s { s with usbDeviceAddr, usbError, pwmPin, iterations } := ⟨rfl,rfl,rfl,rfl,rfl,rfl,rfl,rfl,rfl⟩
  unfold loop
  dsimp only
  split
  · split
    · exact ⟨rfl,rfl,rfl,rfl,rfl,rfl,rfl,rfl,rfl⟩
    · exact (begun _ 0 _).trans ((flicker_unread _).trans (ramp_unread _))
  · exact (begun 0 s.pwmPin _).trans ((flicker_unread _).trans (ramp_unread _))

theorem buffered_step (s : State) (label : Label) (kept : Buffered s) : Buffered (step s label) := by
  unfold step
  split
  · exact kept
  cases label with
  | loop usbDeviceAddr =>
    have same := loop_unread usbDeviceAddr s
    refine ⟨?_,?_,?_⟩
    · rw [same.pos]
      exact kept.bound
    · rw [content,same.line,same.pos,same.whole]
      exact kept.held
    · rw [same.indexed]
      exact kept.inside
  | read c =>
    obtain ⟨line,pos,indexed,answers,result,bound,held,below,-⟩ := read_spec kept.bound c
    dsimp only
    rw [result]
    refine ⟨bound,?_,?_⟩
    · refine Eq.trans held ?_
      rw [kept.held]
      by_cases newline : c = 10
      · simp [newline,extend,remainder]
      · rw [if_neg newline,extend_remainder s.whole newline]
    · intro i member
      rcases List.mem_append.mp member with used | before
      · exact below i used
      · exact kept.inside i before

theorem buffered_start : Buffered {} := ⟨Nat.zero_le _,rfl,nofun⟩

/-! ### What drives the motor -/

def IsHex (c : UInt8) : Prop := (48 ≤ c ∧ c ≤ 57) ∨ (97 ≤ c ∧ c ≤ 102)

/-- `M` and two hex digits, `D0` or `D1`. -/
def IsDrive (whole : Str) : Prop :=
  (∃ high low, whole = [77,high,low] ∧ IsHex high ∧ IsHex low) ∨ whole = [68,48] ∨ whole = [68,49]

def Changes (s : State) : Command → Prop
  | .pwm value => value ≠ s.target_pwm
  | .dir level => (if level then 1 else 0) ≠ s.dir

/-- `target_pwm` and `dir` only change when a newline completes such a line. -/
def OnlyByDrive (s : State) (label : Label) : Prop :=
  (step s label).target_pwm ≠ s.target_pwm ∨ (step s label).dir ≠ s.dir → label = .read 10 ∧ IsDrive s.whole

/-- What is left of an over-long line changes nothing when its newline comes. -/
def RemainderHarmless (s : State) (label : Label) : Prop :=
  label = .read 10 → s.reset = false → size < s.whole.length →
    ∀ cmd, commandOf (remainder s.whole) = some cmd → ¬Changes s cmd

theorem hex2val_isHex (c : UInt8) : 0 ≤ hex2val c ↔ IsHex c := by
  unfold hex2val IsHex
  split
  · rename_i digit
    have : 48 ≤ c.toNat := digit.1
    exact iff_of_true (by omega) (.inl digit)
  · rename_i noDigit
    split
    · rename_i letter
      have : 97 ≤ c.toNat := letter.1
      exact iff_of_true (by omega) (.inr letter)
    · rename_i noLetter
      exact iff_of_false (by decide) (not_or.mpr ⟨noDigit,noLetter⟩)

theorem commandOf_isDrive (text : Str) : (∃ cmd, commandOf text = some cmd) ↔ IsDrive text := by
  unfold IsDrive
  match text with
  | [] | [_] | _ :: _ :: _ :: _ :: _ => simp [commandOf]
  | [key,level] =>
    by_cases low : key = 68 ∧ level = 48
    · simp [commandOf,low]
    · by_cases high : key = 68 ∧ level = 49
      · simp [commandOf,high]
      · simp [commandOf,low,high]
  | [key,high,low] =>
    have same : (key = 77 ∧ 0 ≤ hex2val high ∧ 0 ≤ hex2val low) ↔ key = 77 ∧ IsHex high ∧ IsHex low := by
      rw [hex2val_isHex,hex2val_isHex]
    by_cases drives : key = 77 ∧ IsHex high ∧ IsHex low
    · refine iff_of_true ⟨_,if_pos (same.mpr drives)⟩ (.inl ⟨high,low,?_,drives.2⟩)
      rw [drives.1]
    · refine iff_of_false ?_ ?_
      · rintro ⟨cmd,found⟩
        rw [commandOf,if_neg (mt same.mp drives)] at found
        cases found
      · rintro (⟨high',low',whole,hex⟩ | impossible | impossible)
        · simp only [List.cons.injEq,and_true] at whole
          obtain ⟨rfl,rfl,rfl⟩ := whole
          exact drives ⟨rfl,hex⟩
        · simp at impossible
        · simp at impossible

theorem commandOf_short {text : Str} {cmd : Command} (found : commandOf text = some cmd) : text.length ≤ 3 := by
  rcases (commandOf_isDrive text).mp ⟨cmd,found⟩ with ⟨high,low,rfl,-⟩ | rfl | rfl
  · exact le_refl 3
  · decide
  · decide

theorem commanded_newline (text : Str) : commanded text 10 = commandOf text := by
  unfold commanded
  split
  · rfl
  · rename_i long
    cases found : commandOf text with
    | none => rfl
    | some cmd =>
      have short : text.length < size := lt_of_le_of_lt (commandOf_short found) (by decide)
      exact absurd ⟨short,rfl⟩ long

theorem obey_changes (s : State) (cmd : Option Command) :
    ((obey s cmd).target_pwm ≠ s.target_pwm ∨ (obey s cmd).dir ≠ s.dir) ↔ ∃ drive, cmd = some drive ∧ Changes s drive := by
  match cmd with
  | none | some (.pwm _) | some (.dir _) => simp [obey,Changes]

theorem onlyByDrive_step {s : State} (kept : Buffered s) (label : Label) :
    OnlyByDrive s label ↔ RemainderHarmless s label := by
  unfold OnlyByDrive RemainderHarmless step
  cases reset : s.reset with
  | true => simp
  | false =>
    cases label with
    | loop usbDeviceAddr => simp [(loop_unread usbDeviceAddr s).target_pwm,(loop_unread usbDeviceAddr s).dir]
    | read c =>
      obtain ⟨line,pos,indexed,answers,result,-⟩ := read_spec kept.bound c
      by_cases newline : c = 10
      · subst newline
        rw [kept.held,commanded_newline] at result
        simp only [Bool.false_eq_true,↓reduceIte,result,obey_changes,true_and,true_implies]
        by_cases short : s.whole.length ≤ size
        · refine iff_of_true ?_ (fun long => absurd long (by omega))
          rintro ⟨cmd,found,-⟩
          rw [remainder_short short] at found
          exact (commandOf_isDrive s.whole).mp ⟨cmd,found⟩
        · have long : ¬IsDrive s.whole := by
            intro drives
            obtain ⟨cmd,found⟩ := (commandOf_isDrive s.whole).mpr drives
            have := commandOf_short found
            unfold size at short
            omega
          constructor
          · intro only _ cmd found changes
            exact long (only ⟨cmd,found,changes⟩)
          · rintro harmless ⟨cmd,found,changes⟩
            exact absurd changes (harmless (by omega) cmd found)
      · have nothing : commanded (content s) c = none := by simp [commanded,newline]
        rw [nothing] at result
        simp [result,obey,newline]

/-- `line` is only used within its bounds, and only whole commands drive the motor, exactly in the runs in which no
over-long line leaves a command behind. -/
theorem drives_iff (labels : List Label) :
    ((∀ i ∈ (run step {} labels).indexed, i < size) ∧ Along step OnlyByDrive {} labels) ↔
      Along step RemainderHarmless {} labels := by
  have inside := (run_always buffered_step labels {} buffered_start).inside
  rw [along_congr buffered_step (fun s label kept => onlyByDrive_step kept label) labels {} buffered_start]
  exact and_iff_right inside

def reads (text : String) : List Label := (str text).map .read

def longLine : List Label := .loop 1 :: reads "012345678901234567890M10"

theorem longLine_drives : ¬((∀ i ∈ (run step {} (longLine ++ [.read 10])).indexed, i < size) ∧
    Along step OnlyByDrive {} (longLine ++ [.read 10])) := by
  rintro ⟨-,only⟩
  obtain ⟨-,last⟩ := along_split longLine (.read 10) [] _ only
  have changed : (step (run step {} longLine) (.read 10)).target_pwm ≠ (run step {} longLine).target_pwm := by
    decide +kernel
  have whole : (run step {} longLine).whole.length = 24 := by decide +kernel
  obtain ⟨cmd,found⟩ := (commandOf_isDrive _).mpr (last (.inl changed)).2
  have := commandOf_short found
  omega
end Btcontrol.Putzlok
