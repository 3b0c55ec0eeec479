import Btcontrol.Transition

/-! `ESP32_MAS.cpp` and `ESP32_MAS_Speed.cpp`: the sound of a board. The player task mixes the motor, channel
0, and the horn, channel 1, in blocks; where a file ends in the middle of a block the rest of the block is filled
from the next one. Which file that is `openFile` decides from two speed steps, of which the main task writes one
while the player reads it. Pitch is never set. -/
namespace Btcontrol

open Transition

/-- The target as the assertion of `setFahrstufe` lets it be. -/
abbrev Fahrstufe := { n : Int // -1 ≤ n ∧ n ≤ 5 }

/-- A sound of the motor, and the steps it starts and ends at. -/
structure Fahrsound where
  curr : Int
  next : Int
  deriving DecidableEq

namespace Fahrsound

def filename (f : Fahrsound) : String :=
  if f.curr = f.next then "/sounds/F" ++ toString f.curr ++ ".raw"
  else "/sounds/F" ++ toString f.curr ++ "-F" ++ toString f.next ++ ".raw"

end Fahrsound

/-- `aiff_file[h]`, what is left of it, and `file_buf[h]`. -/
structure Voice where
  aiff_file : Option (List UInt8) := none
  file_buf : List UInt8

/-- A task that runs `ESP32_MAS::run`, one for each `startDAC`. -/
structure Player where
  motor : Voice
  horn : Voice
  /-- Records of the motor since it was last silent: the sounds opened and the samples mixed. -/
  opened : List Fahrsound := []
  played : List UInt8 := []
  /-- The same, of the times before. -/
  silenced : List (List Fahrsound × List UInt8) := []

structure ESP32_MAS_Speed where
  Audio_Player_run : Bool := false
  curr_fahrstufe : Int := -1
  target_fahrstufe : Fahrstufe := ⟨-1, by decide⟩
  /-- `Channel[0]` and `Channel[1]`: 0 is STOP, 2 PLAY, 3 LOOP, 4 RUN, 5 OUT, 6 the end of the file. -/
  motor : Nat := 0
  horn : Nat := 0
  /-- `lokdef[0].func[1].ison` and that of `SOUND_ON_OFF_FUNC`. -/
  func1 : Bool := false
  func3 : Bool := false
  players : List Player := []
  /-- Records: the tasks that have ended, the sounds that all of them opened, how often the horn was started and
  how often it was done. -/
  ended : List Player := []
  opened : List Fahrsound := []
  hornStarted : Nat := 0
  hornDone : Nat := 0

namespace ESP32_MAS_Speed

def BUF_LEN : Nat := 512

/-- What was on the stack for `file_buf`. -/
structure Stack where
  motor : { b : List UInt8 // b.length = BUF_LEN }
  horn : { b : List UInt8 // b.length = BUF_LEN }

/-- What the tests of one `openFile` see in `target_fahrstufe`. -/
structure Reads where
  silent : Fahrstufe
  equal : Fahrstufe
  less : Fahrstufe

inductive Label where
  | setFahrstufe (fahrstufe : Fahrstufe)
  /-- A client has switched a function, or `readLokdef` has set it. -/
  | setFunc (func1 func3 : Bool)
  | begin (stack : Stack)
  | stop
  | stopDAC
  | startPlayFuncSound (numClients : Nat) (nFunc : Int) (stack : Stack)
  /-- One turn of the loop of a task. A turn opens up to two files of the motor. -/
  | turn (player : Nat) (first next : Reads)

abbrev SPIFFS := String → Option (List UInt8)

variable (spiffs : SPIFFS)

/-! ### A channel -/

/-- What `openFile` leaves of `Channel[channel]`. -/
def switched (channel : Nat) : Nat :=
  match channel with
  | 2 => 5
  | 3 => 4
  | other => other

/-- A channel in a turn: `Channel[h]` and the files and buffers of the task. -/
structure Turning where
  mas : ESP32_MAS_Speed
  channel : Nat
  voice : Voice

def Turning.available (t : Turning) : Nat := (t.voice.aiff_file.getD []).length

def Turning.stopDAC (t : Turning) : Turning := { t with mas := { t.mas with Audio_Player_run := false } }

/-- `ESP32_MAS_Speed::openFile` for the motor. -/
def openMotor (reads : Reads) (t : Turning) : Turning :=
  if t.mas.curr_fahrstufe = -1 ∧ reads.silent.val = -1 then
    { mas := { t.mas with Audio_Player_run := false }, channel := 0, voice := { t.voice with aiff_file := none } }
  else
    let curr := t.mas.curr_fahrstufe
    let next := if curr = reads.equal then curr else if curr > reads.less then curr - 1 else curr + 1
    let sound : Fahrsound := ⟨curr, next⟩
    let file := spiffs sound.filename
    { mas := { t.mas with
        curr_fahrstufe := next
        opened := t.mas.opened ++ [sound]
        Audio_Player_run := t.mas.Audio_Player_run && file.isSome }
      channel := switched t.channel
      voice := { t.voice with aiff_file := file } }

/-- `ESP32_MAS::openFile` for the horn: without the file it changes nothing. -/
def openHorn (t : Turning) : Turning :=
  match spiffs "/sounds/horn.raw" with
  | some file => { t with channel := switched t.channel, voice := { t.voice with aiff_file := some file } }
  | none => t

def Turning.readFile (t : Turning) : Turning :=
  let file := t.voice.aiff_file.getD []
  let file_buf_len := min file.length BUF_LEN
  { t with voice := {
    aiff_file := some (file.drop file_buf_len)
    file_buf := file.take file_buf_len ++ t.voice.file_buf.drop file_buf_len } }

/-- `read new file to buffer`, behind `file_buf_len` samples. -/
def Turning.readNewFile (file_buf_len : Nat) (t : Turning) : Turning :=
  let file := t.voice.aiff_file.getD []
  let filled := min file.length (BUF_LEN - file_buf_len)
  { t with voice := {
    aiff_file := some (file.drop filled)
    file_buf := t.voice.file_buf.take file_buf_len ++ file.take filled ++
      List.replicate (BUF_LEN - file_buf_len - filled) 0 } }

def Turning.clear (file_buf_len : Nat) (t : Turning) : Turning :=
  { t with channel := 6, voice := {
    aiff_file := none
    file_buf := t.voice.file_buf.take file_buf_len ++ List.replicate (BUF_LEN - file_buf_len) 0 } }

/-- The body of the loop over the channels, and whether it breaks out of the loop. -/
def readChannel (openFile openNext : Turning → Turning) (t : Turning) : Turning × Bool :=
  let t := if t.available = 0 then openFile t else t
  if t.available = 0 then (t.stopDAC, true)
  else if BUF_LEN < t.available then (t.readFile, false)
  else if 1 < t.channel ∧ t.channel < 5 then
    let opened := openNext t.readFile
    if opened.available = 0 then (opened.stopDAC, true) else (opened.readNewFile t.available, false)
  else (t.readFile.clear t.available, false)

/-! ### A turn of a task -/

/-- The motor's part of a turn, with its records. -/
def turnMotor (first next : Reads) (s : ESP32_MAS_Speed) (p : Player) : ESP32_MAS_Speed × Player × Bool :=
  if 1 < s.motor then
    let (t, broken) := readChannel (openMotor spiffs first) (openMotor spiffs next) ⟨s, s.motor, p.motor⟩
    let opened := p.opened ++ t.mas.opened.drop s.opened.length
    let p := { p with motor := t.voice }
    -- a channel that has stopped is not mixed
    ({ t.mas with motor := t.channel },
      if 1 < t.channel then { p with opened, played := p.played ++ t.voice.file_buf }
      else { p with opened := [], played := [], silenced := p.silenced ++ [(opened, p.played)] }, broken)
  else (s, p, false)

def turnHorn (s : ESP32_MAS_Speed) (p : Player) : ESP32_MAS_Speed × Player :=
  if 1 < s.horn then
    let (t, _) := readChannel (openHorn spiffs) (openHorn spiffs) ⟨s, s.horn, p.horn⟩
    ({ t.mas with horn := t.channel }, { p with horn := t.voice })
  else (s, p)

/-- The calls of `playDoneCallback` after the block is written; only the horn has one that does anything. -/
def playDone (s : ESP32_MAS_Speed) : ESP32_MAS_Speed :=
  let s := if s.motor = 6 then { s with motor := 0 } else s
  if s.horn = 6 then { s with horn := 0, func1 := false, hornDone := s.hornDone + 1 } else s

def turn (i : Nat) (first next : Reads) (s : ESP32_MAS_Speed) : ESP32_MAS_Speed :=
  match s.players[i]? with
  | none => s
  | some p =>
    if s.Audio_Player_run then
      let (s', p, broken) := turnMotor spiffs first next s p
      let (s', p) := if broken then (s', p) else turnHorn spiffs s' p
      { playDone s' with players := s.players.set i p }
    else { s with players := s.players.eraseIdx i, ended := s.ended ++ [p] }

/-! ### The main task -/

def begin_ (stack : Stack) (s : ESP32_MAS_Speed) : ESP32_MAS_Speed :=
  if s.Audio_Player_run then s
  else { s with
    target_fahrstufe := ⟨0, by decide⟩
    motor := 3
    Audio_Player_run := true
    players := s.players ++ [{ motor := { file_buf := stack.motor }, horn := { file_buf := stack.horn } }] }

def startPlayFuncSound (numClients : Nat) (nFunc : Int) (stack : Stack) (s : ESP32_MAS_Speed) : ESP32_MAS_Speed :=
  if numClients = 0 then s
  else
    let s := if nFunc > 1 ∧ s.func1 = true ∧ s.horn = 0 then { s with horn := 2, hornStarted := s.hornStarted + 1 } else s
    if nFunc > 3 ∧ s.func3 ≠ s.Audio_Player_run then
      if s.func3 then begin_ stack s else { s with Audio_Player_run := false }
    else s

def step (s : ESP32_MAS_Speed) : Label → ESP32_MAS_Speed
  | .setFahrstufe fahrstufe => { s with target_fahrstufe := fahrstufe }
  | .setFunc func1 func3 => { s with func1, func3 }
  | .begin stack => begin_ stack s
  | .stop => { s with target_fahrstufe := ⟨-1, by decide⟩ }
  | .stopDAC => { s with Audio_Player_run := false }
  | .startPlayFuncSound numClients nFunc stack => startPlayFuncSound numClients nFunc stack s
  | .turn player first next => turn spiffs player first next s

def run (s : ESP32_MAS_Speed) (labels : List Label) : ESP32_MAS_Speed := Transition.run (step spiffs) s labels

/-! ### The sounds follow each other -/

/-- A way from step `a` to step `b`: each sound starts where the one before it ends, and goes one step at most. -/
def Walks (a b : Int) : List Fahrsound → Prop
  | [] => a = b
  | f :: rest => f.curr = a ∧ (f.next - f.curr).natAbs ≤ 1 ∧ Walks f.next b rest

theorem walks_append {a b : Int} {sounds more : List Fahrsound} :
    Walks a b (sounds ++ more) ↔ ∃ mid, Walks a mid sounds ∧ Walks mid b more := by
  induction sounds generalizing a with
  | nil => simp [Walks]
  | cons f rest ih =>
    simp only [List.cons_append,Walks,ih]
    constructor
    · rintro ⟨starts,near,mid,front,back⟩
      exact ⟨mid,⟨starts,near,front⟩,back⟩
    · rintro ⟨mid,⟨starts,near,front⟩,back⟩
      exact ⟨starts,near,mid,front,back⟩

def Within (top : Int) (sounds : List Fahrsound) : Prop :=
  ∀ f ∈ sounds, (-1 ≤ f.curr ∧ f.curr ≤ top) ∧ (-1 ≤ f.next ∧ f.next ≤ top)

structure Walked (top : Int) (s s' : ESP32_MAS_Speed) (sounds : List Fahrsound) : Prop where
  opened : s'.opened = s.opened ++ sounds
  walks : Walks s.curr_fahrstufe s'.curr_fahrstufe sounds
  within : Within top sounds
  level : -1 ≤ s'.curr_fahrstufe ∧ s'.curr_fahrstufe ≤ top

/-- A relation that looks at the sounds opened and at the step only, and can be followed along a run. -/
structure Followed (R : ESP32_MAS_Speed → ESP32_MAS_Speed → Prop) : Prop where
  same : ∀ s s', s'.opened = s.opened → s'.curr_fahrstufe = s.curr_fahrstufe → R s s'
  trans : ∀ s s' s'', R s s' → R s' s'' → R s s''

def Moves (top : Int) (s s' : ESP32_MAS_Speed) : Prop :=
  -1 ≤ s.curr_fahrstufe ∧ s.curr_fahrstufe ≤ top → ∃ sounds, Walked top s s' sounds

theorem moves_followed (top : Int) : Followed (Moves top) := by
  refine ⟨fun s s' opened curr level => ?_,fun s s' s'' first later level => ?_⟩
  · refine ⟨[],by rw [opened,List.append_nil],curr.symm,?_,by rw [curr]; exact level⟩
    intro f member
    cases member
  · obtain ⟨sounds,walked⟩ := first level
    obtain ⟨more,after⟩ := later walked.level
    refine ⟨sounds ++ more,?_,walks_append.mpr ⟨_,walked.walks,after.walks⟩,?_,after.level⟩
    · rw [after.opened,walked.opened,List.append_assoc]
    · intro f member
      rcases List.mem_append.mp member with here | there
      · exact walked.within f here
      · exact after.within f there

/-- Every sound opened brings the motor one step nearer to the target, as long as there is a step to go. -/
def Nears (target : Fahrstufe) (s s' : ESP32_MAS_Speed) : Prop :=
  ∃ sounds, s'.opened = s.opened ++ sounds ∧
    (s'.curr_fahrstufe - target).natAbs = (s.curr_fahrstufe - target).natAbs - sounds.length

theorem nears_followed (target : Fahrstufe) : Followed (Nears target) := by
  refine ⟨fun s s' opened curr => ?_,?_⟩
  · exact ⟨[],by rw [opened,List.append_nil],by rw [curr]; rfl⟩
  · rintro s s' s'' ⟨sounds,opened,near⟩ ⟨more,openedMore,nearer⟩
    refine ⟨sounds ++ more,by rw [openedMore,opened,List.append_assoc],?_⟩
    rw [nearer,near,List.length_append]
    omega

/-- The step behind a sound, by what the two tests see. -/
def nextStep (curr : Int) (reads : Reads) : Int :=
  if curr = reads.equal then curr else if curr > reads.less then curr - 1 else curr + 1

theorem nextStep_near (curr : Int) (reads : Reads) : (nextStep curr reads - curr).natAbs ≤ 1 := by
  simp only [nextStep]
  split
  · omega
  · split <;> omega

theorem nextStep_level {curr : Int} (reads : Reads) (level : -1 ≤ curr ∧ curr ≤ 6) :
    -1 ≤ nextStep curr reads ∧ nextStep curr reads ≤ 6 := by
  have seen := reads.less.2
  simp only [nextStep]
  split
  · exact level
  · split <;> omega

/-- A target that does not change between the tests. -/
def Reads.Steady (reads : Reads) (target : Fahrstufe) : Prop :=
  reads.silent = target ∧ reads.equal = target ∧ reads.less = target

theorem nextStep_steady {curr : Int} {reads : Reads} {target : Fahrstufe} (steady : reads.Steady target)
    (level : -1 ≤ curr ∧ curr ≤ 5) : -1 ≤ nextStep curr reads ∧ nextStep curr reads ≤ 5 := by
  have seen := target.2
  simp only [nextStep,steady.2.1,steady.2.2]
  split
  · exact level
  · split <;> omega

theorem openMotor_moves {top : Int} (reads : Reads)
    (keeps : ∀ curr, -1 ≤ curr ∧ curr ≤ top → -1 ≤ nextStep curr reads ∧ nextStep curr reads ≤ top) (t : Turning) :
    Moves top t.mas (openMotor spiffs reads t).mas := by
  simp only [openMotor]
  split
  · exact (moves_followed top).same _ _ rfl rfl
  · intro level
    have after := keeps t.mas.curr_fahrstufe level
    refine ⟨[⟨t.mas.curr_fahrstufe, nextStep t.mas.curr_fahrstufe reads⟩],rfl,⟨rfl,nextStep_near _ reads,rfl⟩,?_,after⟩
    intro f member
    rw [List.mem_singleton.mp member]
    exact ⟨level,after⟩

theorem openMotor_nears {target : Fahrstufe} (reads : Reads) (steady : reads.Steady target) (t : Turning) :
    Nears target t.mas (openMotor spiffs reads t).mas := by
  simp only [openMotor]
  split
  · exact (nears_followed target).same _ _ rfl rfl
  · refine ⟨[_],rfl,?_⟩
    show (nextStep t.mas.curr_fahrstufe reads - target).natAbs = (t.mas.curr_fahrstufe - target).natAbs - 1
    simp only [nextStep,steady.2.1,steady.2.2]
    split
    · omega
    · split <;> omega

section Frame

variable {R : ESP32_MAS_Speed → ESP32_MAS_Speed → Prop} (followed : Followed R)
include followed

/-- A turn of a channel changes the board by its two calls of `openFile` and `stopDAC` only. -/
theorem readChannel_follows {openFile openNext : Turning → Turning} (first : ∀ t, R t.mas (openFile t).mas)
    (next : ∀ t, R t.mas (openNext t).mas) (t : Turning) : R t.mas (readChannel openFile openNext t).1.mas := by
  have stopped (t : Turning) : R t.mas t.stopDAC.mas := followed.same _ _ rfl rfl
  have opening : R t.mas (if t.available = 0 then openFile t else t).mas := by
    split
    · exact first t
    · exact followed.same _ _ rfl rfl
  simp only [readChannel]
  generalize (if t.available = 0 then openFile t else t) = t1 at opening ⊢
  split
  · exact followed.trans _ _ _ opening (stopped t1)
  split
  · exact opening
  split
  · have opened : R t.mas (openNext t1.readFile).mas := followed.trans _ _ _ opening (next t1.readFile)
    split
    · exact followed.trans _ _ _ opened (stopped _)
    · exact opened
  · exact opening

theorem turnMotor_follows {reads next : Reads} (first : ∀ t : Turning, R t.mas (openMotor spiffs reads t).mas)
    (second : ∀ t : Turning, R t.mas (openMotor spiffs next t).mas) (s : ESP32_MAS_Speed) (p : Player) :
    R s (turnMotor spiffs reads next s p).1 := by
  simp only [turnMotor]
  split
  · have read := readChannel_follows followed first second ⟨s,s.motor,p.motor⟩
    exact followed.trans _ _ _ read (followed.same _ _ rfl rfl)
  · exact followed.same _ _ rfl rfl

omit followed in
theorem openHorn_mas (t : Turning) : (openHorn spiffs t).mas = t.mas := by
  simp only [openHorn]
  split <;> rfl

theorem turnHorn_follows (s : ESP32_MAS_Speed) (p : Player) : R s (turnHorn spiffs s p).1 := by
  have opens (t : Turning) : R t.mas (openHorn spiffs t).mas := by
    rw [openHorn_mas]
    exact followed.same _ _ rfl rfl
  simp only [turnHorn]
  split
  · have read := readChannel_follows followed opens opens ⟨s,s.horn,p.horn⟩
    exact followed.trans _ _ _ read (followed.same _ _ rfl rfl)
  · exact followed.same _ _ rfl rfl

theorem playDone_follows (s : ESP32_MAS_Speed) : R s (playDone s) := by
  simp only [playDone]
  split <;> split <;> exact followed.same _ _ rfl rfl

theorem turn_follows {first next : Reads} (opens : ∀ t : Turning, R t.mas (openMotor spiffs first t).mas)
    (opensNext : ∀ t : Turning, R t.mas (openMotor spiffs next t).mas) (i : Nat) (s : ESP32_MAS_Speed) :
    R s (turn spiffs i first next s) := by
  simp only [turn]
  split
  · exact followed.same _ _ rfl rfl
  rename_i p _
  split
  · have motor := turnMotor_follows spiffs followed opens opensNext s p
    refine followed.trans _ (playDone _) _ ?_ (followed.same _ _ rfl rfl)
    split
    · exact followed.trans _ _ _ motor (playDone_follows followed _)
    · have horn := turnHorn_follows spiffs followed (turnMotor spiffs first next s p).1 (turnMotor spiffs first next s p).2.1
      exact followed.trans _ _ _ motor (followed.trans _ _ _ horn (playDone_follows followed _))
  · exact followed.same _ _ rfl rfl

theorem begin_follows (stack : Stack) (s : ESP32_MAS_Speed) : R s (begin_ stack s) := by
  simp only [begin_]
  split <;> exact followed.same _ _ rfl rfl

theorem startPlayFuncSound_follows (numClients : Nat) (nFunc : Int) (stack : Stack) (s : ESP32_MAS_Speed) :
    R s (startPlayFuncSound numClients nFunc stack s) := by
  simp only [startPlayFuncSound]
  split
  · exact followed.same _ _ rfl rfl
  have horn : R s (if nFunc > 1 ∧ s.func1 = true ∧ s.horn = 0 then
      { s with horn := 2, hornStarted := s.hornStarted + 1 } else s) := by
    split <;> exact followed.same _ _ rfl rfl
  generalize (if nFunc > 1 ∧ s.func1 = true ∧ s.horn = 0 then
    { s with horn := 2, hornStarted := s.hornStarted + 1 } else s) = s1 at horn ⊢
  split
  · split
    · exact followed.trans _ _ _ horn (begin_follows followed stack s1)
    · exact followed.trans _ _ _ horn (followed.same _ _ rfl rfl)
  · exact horn

/-- Steps that are no turns open nothing; turns open by `openMotor`. -/
theorem step_follows (s : ESP32_MAS_Speed) (label : Label)
    (opens : ∀ i first next, label = .turn i first next →
      (∀ t : Turning, R t.mas (openMotor spiffs first t).mas) ∧
        ∀ t : Turning, R t.mas (openMotor spiffs next t).mas) : R s (step spiffs s label) := by
  cases label with
  | setFahrstufe fahrstufe => exact followed.same _ _ rfl rfl
  | setFunc func1 func3 => exact followed.same _ _ rfl rfl
  | begin stack => exact begin_follows followed stack s
  | stop => exact followed.same _ _ rfl rfl
  | stopDAC => exact followed.same _ _ rfl rfl
  | startPlayFuncSound numClients nFunc stack => exact startPlayFuncSound_follows followed numClients nFunc stack s
  | turn i first next =>
    obtain ⟨opensFirst,opensNext⟩ := opens i first next rfl
    exact turn_follows spiffs followed opensFirst opensNext i s

end Frame

/-- A turn in which nobody writes the target while `openFile` reads it. -/
def Steady (s : ESP32_MAS_Speed) : Label → Prop
  | .turn _ first next => first.Steady s.target_fahrstufe ∧ next.Steady s.target_fahrstufe
  | _ => True

theorem step_steady (s : ESP32_MAS_Speed) (label : Label) (steady : Steady s label) :
    Moves 5 s (step spiffs s label) := by
  refine step_follows spiffs (moves_followed _) s label ?_
  rintro i first next rfl
  exact ⟨openMotor_moves spiffs first (fun _ => nextStep_steady steady.1),
    openMotor_moves spiffs next (fun _ => nextStep_steady steady.2)⟩

theorem step_racing (s : ESP32_MAS_Speed) (label : Label) : Moves 6 s (step spiffs s label) := by
  refine step_follows spiffs (moves_followed _) s label ?_
  rintro i first next rfl
  exact ⟨openMotor_moves spiffs first (fun _ => nextStep_level first),
    openMotor_moves spiffs next (fun _ => nextStep_level next)⟩

end ESP32_MAS_Speed

namespace ESP32_MAS_Speed

/-- Nobody writes the target, neither while it is read nor in between. -/
def Held (spiffs : SPIFFS) (s : ESP32_MAS_Speed) (label : Label) : Prop :=
  Steady s label ∧ (step spiffs s label).target_fahrstufe = s.target_fahrstufe

theorem step_held (spiffs : SPIFFS) (s : ESP32_MAS_Speed) (label : Label) (held : Held spiffs s label) :
    Nears s.target_fahrstufe s (step spiffs s label) := by
  refine step_follows spiffs (nears_followed _) s label ?_
  rintro i first next rfl
  exact ⟨openMotor_nears spiffs first held.1.1,openMotor_nears spiffs next held.1.2⟩

end ESP32_MAS_Speed

namespace ESP32_MAS_Speed

def Reads.all (target : Fahrstufe) : Reads := ⟨target, target, target⟩

def blank : Stack := ⟨⟨List.replicate BUF_LEN 0, List.length_replicate⟩, ⟨List.replicate BUF_LEN 0, List.length_replicate⟩⟩

def driving (fahrstufe : Fahrstufe) : ESP32_MAS_Speed :=
  run (fun _ => some [0]) {} [.begin blank, .setFahrstufe fahrstufe]

end ESP32_MAS_Speed

end Btcontrol
