import Btcontrol.Putzlok

/-! The host and the firmware of the Digispark: what `USBDigispark.cpp` formats is what `putzlok.ino` reads, however
the characters are spread over the iterations of `loop`, while the driven value runs behind the commanded one. -/
namespace Btcontrol.Putzlok

open Transition

/-! ### The ramp -/

def towards (value target : Int) : Int :=
  if value < target then value + 1 else if value > target then value - 1 else value

/-- A step is at most one, and never away from the target. -/
theorem towards_near (value target : Int) :
    |towards value target - value| ≤ 1 ∧ |target - towards value target| ≤ |target - value| := by
  simp only [Int.abs_eq_natAbs]
  unfold towards
  split
  · omega
  · split <;> omega

def approach (start target : Int) (k : Nat) : Int :=
  if start ≤ target then min (start + k) target else max (start - k) target

theorem approach_zero (start target : Int) : approach start target 0 = start := by
  unfold approach
  split <;> omega

theorem approach_succ (start target : Int) (k : Nat) :
    approach start target (k + 1) = towards (approach start target k) target := by
  unfold approach towards
  push_cast
  split <;> split <;> omega

theorem approach_standstill {start target : Int} (started : 0 ≤ start) (aimed : 0 ≤ target) (k : Nat) :
    approach start target k = 0 ↔ (target = 0 ∧ start ≤ k) ∨ (start = 0 ∧ k = 0) := by
  unfold approach
  split <;> omega

/-- The driven value is where its ramp has got to. -/
structure Ramped (s : State) : Prop where
  target : 0 ≤ s.target_pwm ∧ s.target_pwm ≤ 255
  start : 0 ≤ s.rampStart ∧ s.rampStart ≤ 255
  driven : s.pwm_hw = approach s.rampStart s.target_pwm s.iterations

theorem Ramped.bounds {s : State} (kept : Ramped s) : 0 ≤ s.pwm_hw ∧ s.pwm_hw ≤ 255 := by
  obtain ⟨target,start,driven⟩ := kept
  rw [driven]
  unfold approach
  split <;> omega

theorem setCablight_ramp (s : State) : (setCablight s).pwm_hw = s.pwm_hw ∧ (setCablight s).iterations = s.iterations ∧
    (setCablight s).reset = s.reset := by
  unfold setCablight
  split
  · split <;> exact ⟨rfl,rfl,rfl⟩
  · exact ⟨rfl,rfl,rfl⟩

theorem ramp_towards (s : State) : (ramp s).pwm_hw = towards s.pwm_hw s.target_pwm ∧
    (ramp s).iterations = s.iterations ∧ (ramp s).reset = s.reset := by
  unfold ramp towards
  split
  · exact setCablight_ramp _
  · split
    · exact setCablight_ramp _
    · exact ⟨rfl,rfl,rfl⟩

theorem flicker_ramp (s : State) : (flicker s).pwm_hw = s.pwm_hw ∧ (flicker s).iterations = s.iterations ∧
    (flicker s).reset = s.reset := by
  unfold flicker
  split <;> exact ⟨rfl,rfl,rfl⟩

/-- An iteration moves the driven value one step, unless it ends in `resetFunc`. -/
theorem loop_towards (usbDeviceAddr : UInt8) (s : State) :
    ((loop usbDeviceAddr s).pwm_hw = towards s.pwm_hw s.target_pwm ∧
      (loop usbDeviceAddr s).iterations = s.iterations + 1 ∧ (loop usbDeviceAddr s).reset = s.reset) ∨
    (usbDeviceAddr = 0 ∧ (loop usbDeviceAddr s).reset = true ∧ (loop usbDeviceAddr s).pwm_hw = s.pwm_hw ∧
      (loop usbDeviceAddr s).iterations = s.iterations) := by
  have moved (s' : State) (pwm_hw : s'.pwm_hw = s.pwm_hw) (target_pwm : s'.target_pwm = s.target_pwm)
      (iterations : s'.iterations = s.iterations + 1) (reset : s'.reset = s.reset) :
      (ramp (flicker s')).pwm_hw = towards s.pwm_hw s.target_pwm ∧
        (ramp (flicker s')).iterations = s.iterations + 1 ∧ (ramp (flicker s')).reset = s.reset := by
    have stepped := ramp_towards (flicker s')
    have still := flicker_ramp s'
    rw [still.1,still.2.1,still.2.2,(flicker_unread s').target_pwm,pwm_hw,target_pwm,iterations,reset] at stepped
    exact stepped
  unfold loop
  dsimp only
  split
  · rename_i unplugged
    split
    · exact .inr ⟨unplugged,rfl,rfl,rfl⟩
    · exact .inl (moved _ rfl rfl rfl rfl)
  · exact .inl (moved _ rfl rfl rfl rfl)

theorem hex2val_bound (c : UInt8) : hex2val c ≤ 15 := by
  unfold hex2val
  split
  · rename_i digit
    have : c.toNat ≤ 57 := digit.2
    omega
  · split
    · rename_i letter
      have : c.toNat ≤ 102 := letter.2
      omega
    · decide

theorem commandOf_bound {text : Str} {value : Int} (found : commandOf text = some (.pwm value)) :
    0 ≤ value ∧ value ≤ 255 := by
  match text with
  | [] | [_] | _ :: _ :: _ :: _ :: _ => cases found
  | [key,level] =>
    simp only [commandOf] at found
    split at found
    · cases found
    · split at found <;> cases found
  | [key,high,low] =>
    simp only [commandOf] at found
    split at found
    · rename_i drives
      cases found
      have := hex2val_bound high
      have := hex2val_bound low
      omega
    · cases found

theorem commanded_some {text : Str} {c : UInt8} {cmd : Command} (found : commanded text c = some cmd) :
    c = 10 ∧ commandOf text = some cmd := by
  unfold commanded at found
  split at found
  · rename_i newline
    exact ⟨newline.2,found⟩
  · cases found

theorem ramped_step {s : State} (buffered : Buffered s) (kept : Ramped s) (label : Label) : Ramped (step s label) := by
  have bounds := kept.bounds
  obtain ⟨target,start,driven⟩ := kept
  unfold step
  split
  · exact ⟨target,start,driven⟩
  cases label with
  | loop usbDeviceAddr =>
    have same := loop_unread usbDeviceAddr s
    dsimp only
    rcases loop_towards usbDeviceAddr s with ⟨moved,counted,-⟩ | ⟨-,-,still,uncounted⟩
    · refine ⟨?_,?_,?_⟩
      · rwa [same.target_pwm]
      · rwa [same.rampStart]
      · rw [moved,counted,same.target_pwm,same.rampStart,approach_succ,← driven]
    · refine ⟨?_,?_,?_⟩
      · rwa [same.target_pwm]
      · rwa [same.rampStart]
      · rwa [still,uncounted,same.target_pwm,same.rampStart]
  | read c =>
    obtain ⟨line,pos,indexed,answers,result,-⟩ := read_spec buffered.bound c
    dsimp only
    rw [result]
    cases found : commanded (content s) c with
    | none => exact ⟨target,start,driven⟩
    | some cmd =>
      cases cmd with
      | pwm value =>
        exact ⟨commandOf_bound (commanded_some found).2,bounds,(approach_zero s.pwm_hw value).symm⟩
      | dir level => exact ⟨target,start,driven⟩

theorem ramped_start : Ramped {} := ⟨by decide,by decide,rfl⟩

/-! ### Reversing -/

/-- A D command is completed and changes the level of pin 5. -/
def Reverses (s : State) (label : Label) : Prop :=
  ∃ level, label = .read 10 ∧ commandOf (content s) = some (.dir level) ∧ level ≠ s.dirPin

instance (s : State) (label : Label) : Decidable (Reverses s label) :=
  inferInstanceAs (Decidable (∃ level, label = .read 10 ∧ commandOf (content s) = some (.dir level) ∧ level ≠ s.dirPin))

/-- Whenever the level of pin 5 changes, the driven value is 0. -/
def AtStandstill (s : State) (label : Label) : Prop :=
  (step s label).dirPin ≠ s.dirPin → (step s label).pwm_hw = 0

theorem step_dirPin {s : State} (bound : s.pos ≤ size) (live : s.reset = false) (label : Label) :
    ((step s label).dirPin ≠ s.dirPin ↔ Reverses s label) ∧ (Reverses s label → (step s label).pwm_hw = s.pwm_hw) := by
  unfold step Reverses
  rw [live]
  cases label with
  | loop usbDeviceAddr => simp [(loop_unread usbDeviceAddr s).dirPin]
  | read c =>
    obtain ⟨line,pos,indexed,answers,result,-⟩ := read_spec bound c
    simp only [Bool.false_eq_true,↓reduceIte,result,(obey_kept s (commanded (content s) c)).2.2.2.2.2.1,implies_true,
      and_true,Label.read.injEq]
    cases found : commanded (content s) c with
    | none =>
      refine iff_of_false (fun changed => changed rfl) ?_
      rintro ⟨level,rfl,reverses,-⟩
      rw [commanded_newline,reverses] at found
      cases found
    | some cmd =>
      obtain ⟨rfl,read⟩ := commanded_some found
      rw [read]
      cases cmd with
      | pwm value => simp [obey]
      | dir level => simp [obey]

theorem atStandstill_step {s : State} (buffered : Buffered s) (ramped : Ramped s) (live : s.reset = false)
    (label : Label) : AtStandstill s label ↔ (Reverses s label →
      (s.target_pwm = 0 ∧ s.rampStart ≤ s.iterations) ∨ (s.rampStart = 0 ∧ s.iterations = 0)) := by
  obtain ⟨changes,driven⟩ := step_dirPin buffered.bound live label
  unfold AtStandstill
  rw [changes,← approach_standstill ramped.start.1 ramped.target.1,← ramped.driven]
  constructor
  · intro standstill reverses
    rw [← driven reverses]
    exact standstill reverses
  · intro standstill reverses
    rw [driven reverses]
    exact standstill reverses

/-! ### The commands of the host -/

inductive HostCommand where
  | M (pwm : UInt8)
  | D (dir : Bool)
  | V
  deriving DecidableEq

def HostCommand.text (cmd : HostCommand) : Str :=
  (match cmd with
    | .M pwm => Digispark.pwmCommand pwm
    | .D dir => Digispark.dirCommand (if dir then 1 else 0)
    | .V => Digispark.versionCommand).map Char.toUInt8

def lastM (commands : List HostCommand) : Int :=
  commands.foldl (fun last cmd => match cmd with
    | .M pwm => pwm.toNat
    | .D _ | .V => last) 0

def lastD (commands : List HostCommand) : Bool :=
  commands.foldl (fun last cmd => match cmd with
    | .D dir => dir
    | .M _ | .V => last) false

def HostCommand.drive : HostCommand → Option Command
  | .M pwm => some (.pwm pwm.toNat)
  | .D dir => some (.dir dir)
  | .V => none

theorem hex2val_digitChar : ∀ d : Fin 16, hex2val (Nat.digitChar d.val).toUInt8 = d.val ∧
    (Nat.digitChar d.val).toUInt8 ≠ 10 := by decide

/-- The firmware reads what the host has formatted: a short line with the values of the command. -/
theorem text_line (cmd : HostCommand) : ∃ body, cmd.text = body ++ [10] ∧ body.length < size ∧ 10 ∉ body ∧
    accepted body = true ∧ commandOf body = cmd.drive := by
  cases cmd with
  | M pwm =>
    have small := pwm.toNat_lt
    obtain ⟨high,plainHigh⟩ := hex2val_digitChar ⟨pwm.toNat / 16,by omega⟩
    obtain ⟨low,plainLow⟩ := hex2val_digitChar ⟨pwm.toNat % 16,by omega⟩
    dsimp only at high low plainHigh plainLow
    have read : commandOf [77,(Nat.digitChar (pwm.toNat / 16)).toUInt8,(Nat.digitChar (pwm.toNat % 16)).toUInt8] =
        some (.pwm pwm.toNat) := by
      rw [commandOf,if_pos ⟨rfl,by omega,by omega⟩,high,low]
      congr 2
      omega
    refine ⟨_,rfl,by simp [size],?_,?_,read⟩
    · simp [Ne.symm plainHigh,Ne.symm plainLow]
    · simp [accepted,read]
  | D dir =>
    cases dir with
    | false => exact ⟨[68,48],rfl,by decide,by decide,by decide,by decide⟩
    | true => exact ⟨[68,49],rfl,by decide,by decide,by decide,by decide⟩
  | V => exact ⟨[86],rfl,by decide,by decide,by decide,by decide⟩

/-- Where the next character of a command stands. -/
theorem text_next {cmd : HostCommand} {part later : Str} {c : UInt8} (text : cmd.text = part ++ c :: later) :
    part.length < size ∧ ((c = 10 ∧ later = [] ∧ accepted part = true ∧ commandOf part = cmd.drive) ∨
      (c ≠ 10 ∧ later ≠ [])) := by
  obtain ⟨body,ended,short,plain,ok,drives⟩ := text_line cmd
  rcases List.eq_nil_or_concat later with rfl | ⟨inner,last,rfl⟩
  · obtain ⟨rfl,newline⟩ := List.append_inj' (text.symm.trans ended) rfl
    exact ⟨short,.inl ⟨by simpa using newline,rfl,ok,drives⟩⟩
  · have whole : part ++ c :: inner ++ [last] = body ++ [10] := by
      rw [← ended,text]
      simp
    obtain ⟨rfl,-⟩ := List.append_inj' whole rfl
    refine ⟨?_,.inr ⟨?_,by simp⟩⟩
    · simp only [List.length_append,List.length_cons] at short
      omega
    · rintro rfl
      simp at plain

theorem lastM_snoc (commands : List HostCommand) (cmd : HostCommand) : lastM (commands ++ [cmd]) =
    match cmd with
    | .M pwm => (pwm.toNat : Int)
    | .D _ | .V => lastM commands := by
  rw [lastM,List.foldl_append]
  rfl

theorem lastD_snoc (commands : List HostCommand) (cmd : HostCommand) : lastD (commands ++ [cmd]) =
    match cmd with
    | .D dir => dir
    | .M _ | .V => lastD commands := by
  rw [lastD,List.foldl_append]
  rfl

def bytes : List Label → Str
  | [] => []
  | .loop _ :: rest => bytes rest
  | .read c :: rest => c :: bytes rest

/-- The commands `done` are read, and `part` of the next one. -/
structure Follows (done todo : List HostCommand) (part : Str) (s : State) : Prop where
  buffered : Buffered s
  ramped : Ramped s
  held : content s = part
  next : (todo = [] ∧ part = []) ∨ ∃ cmd rest pending, todo = cmd :: rest ∧ cmd.text = part ++ pending ∧ pending ≠ []
  target : s.target_pwm = lastM done
  dirPin : s.dirPin = lastD done
  dir : s.dir = if lastD done then 1 else 0
  fine : ∀ a ∈ s.answers, a.isError = false

theorem next_fresh (commands : List HostCommand) : (commands = [] ∧ ([] : Str) = []) ∨
    ∃ cmd rest pending, commands = cmd :: rest ∧ cmd.text = [] ++ pending ∧ pending ≠ [] := by
  cases commands with
  | nil => exact .inl ⟨rfl,rfl⟩
  | cons cmd rest =>
    obtain ⟨body,text,-⟩ := text_line cmd
    exact .inr ⟨cmd,rest,cmd.text,rfl,rfl,by simp [text]⟩

theorem follows_start (commands : List HostCommand) : Follows [] commands [] {} :=
  ⟨buffered_start,ramped_start,rfl,next_fresh commands,rfl,rfl,rfl,nofun⟩

theorem run_reset {s : State} (reset : s.reset = true) (labels : List Label) : run step s labels = s := by
  induction labels with
  | nil => rfl
  | cons label rest ih =>
    have stays : step s label = s := by simp [step,reset]
    rw [run,List.foldl_cons,stays]
    exact ih

section Follows

variable {done todo : List HostCommand} {part : Str} {s : State}

theorem follows_loop (live : s.reset = false) (kept : Follows done todo part s) (usbDeviceAddr : UInt8) :
    Follows done todo part (step s (.loop usbDeviceAddr)) := by
  have buffered := buffered_step s (.loop usbDeviceAddr) kept.buffered
  have ramped := ramped_step kept.buffered kept.ramped (.loop usbDeviceAddr)
  have same := loop_unread usbDeviceAddr s
  have stepped : step s (.loop usbDeviceAddr) = loop usbDeviceAddr s := by simp [step,live]
  rw [stepped] at buffered ramped ⊢
  refine ⟨buffered,ramped,?_,kept.next,?_,?_,?_,?_⟩
  · rw [content,same.line,same.pos]
    exact kept.held
  · rw [same.target_pwm,kept.target]
  · rw [same.dirPin,kept.dirPin]
  · rw [same.dir,kept.dir]
  · rw [same.answers]
    exact kept.fine

/-- The next character is one of the next command. -/
theorem follows_next (kept : Follows done todo part s) {c : UInt8}
    (arrives : part ++ [c] <+: todo.flatMap HostCommand.text) :
    ∃ cmd rest later, todo = cmd :: rest ∧ cmd.text = part ++ c :: later := by
  obtain ⟨rfl,rfl⟩ | ⟨cmd,rest,pending,rfl,text,some⟩ := kept.next
  · simp at arrives
  obtain ⟨c',later,rfl⟩ := List.exists_cons_of_ne_nil some
  rw [List.flatMap_cons,text,List.append_assoc,List.cons_append] at arrives
  have same : [c] <+: c' :: (later ++ rest.flatMap HostCommand.text) := (List.prefix_append_right_inj part).mp arrives
  obtain rfl : c = c' := by simpa using same
  exact ⟨cmd,rest,later,rfl,text⟩

/-- A character of the next command: it goes into the buffer, or ends the command. -/
theorem follows_read (live : s.reset = false) (kept : Follows done todo part s) {c : UInt8}
    (arrives : part ++ [c] <+: todo.flatMap HostCommand.text) : ∃ done' todo' part',
      done' ++ todo' = done ++ todo ∧
      done'.flatMap HostCommand.text ++ part' = done.flatMap HostCommand.text ++ (part ++ [c]) ∧
      Follows done' todo' part' (step s (.read c)) := by
  have buffered := buffered_step s (.read c) kept.buffered
  have ramped := ramped_step kept.buffered kept.ramped (.read c)
  obtain ⟨line,pos,indexed,answers,result,-,held,-,fine⟩ := read_spec kept.buffered.bound c
  have stepped : step s (.read c) = ((read c).run s).2 := by simp [step,live]
  rw [stepped,result] at buffered ramped ⊢
  obtain ⟨cmd,rest,later,rfl,text⟩ := follows_next kept arrives
  rw [kept.held] at *
  obtain ⟨room,⟨rfl,rfl,ok,drives⟩ | ⟨letter,more⟩⟩ := text_next text
  · -- the newline
    refine ⟨done ++ [cmd],rest,[],by simp,by simp [text],buffered,ramped,?_,next_fresh rest,?_,?_,?_,?_⟩
    · refine Eq.trans held ?_
      simp [extend]
    · have target := kept.target
      rw [lastM_snoc,commanded_newline,drives]
      cases cmd <;> simp [HostCommand.drive,obey,target]
    · have dirPin := kept.dirPin
      rw [lastD_snoc,commanded_newline,drives]
      cases cmd <;> simp [HostCommand.drive,obey,dirPin]
    · have dir := kept.dir
      rw [lastD_snoc,commanded_newline,drives]
      cases cmd <;> simp [HostCommand.drive,obey,dir]
    · intro a member
      rcases List.mem_append.mp member with before | new
      · exact kept.fine a before
      · exact fine room (fun _ => ok) a new
  · -- within the line
    have nothing : commanded part c = none := by simp [commanded,letter]
    rw [nothing] at buffered ramped ⊢
    refine ⟨done,cmd :: rest,part ++ [c],rfl,rfl,buffered,ramped,?_,?_,kept.target,kept.dirPin,kept.dir,?_⟩
    · refine Eq.trans held ?_
      simp [extend,room,letter]
    · exact .inr ⟨cmd,rest,later,rfl,by simp [text],more⟩
    · intro a member
      rcases List.mem_append.mp member with before | new
      · exact kept.fine a before
      · exact fine room (fun newline => absurd newline letter) a new

/-- What is left after the next character. -/
theorem delivered_later {done' todo' : List HostCommand} {part' : Str} {c : UInt8} {labels : List Label}
    (same : done' ++ todo' = done ++ todo)
    (read : done'.flatMap HostCommand.text ++ part' = done.flatMap HostCommand.text ++ (part ++ [c]))
    (delivered : part ++ bytes (.read c :: labels) <+: todo.flatMap HostCommand.text) :
    part' ++ bytes labels <+: todo'.flatMap HostCommand.text := by
  apply (List.prefix_append_right_inj (done'.flatMap HostCommand.text)).mp
  rw [← List.append_assoc,read,← List.flatMap_append,same,List.flatMap_append,List.append_assoc]
  apply (List.prefix_append_right_inj _).mpr
  simpa [bytes] using delivered

/-- A run that reads what is left of the commands, in any pieces. -/
theorem follows_run (labels : List Label) (kept : Follows done todo part s)
    (delivered : part ++ bytes labels <+: todo.flatMap HostCommand.text) :
    (run step s labels).reset = true ∨ ∃ done' todo' part', done' ++ todo' = done ++ todo ∧
      done'.flatMap HostCommand.text ++ part' = done.flatMap HostCommand.text ++ (part ++ bytes labels) ∧
      Follows done' todo' part' (run step s labels) := by
  induction labels generalizing done todo part s with
  | nil => exact .inr ⟨done,todo,part,rfl,by simp [bytes],kept⟩
  | cons label rest ih =>
    cases live : s.reset with
    | true => exact .inl (by rw [run_reset live,live])
    | false =>
      cases label with
      | loop usbDeviceAddr => exact ih (follows_loop live kept usbDeviceAddr) delivered
      | read c =>
        have arrives : part ++ [c] <+: todo.flatMap HostCommand.text := by
          refine List.IsPrefix.trans ?_ delivered
          simp [bytes]
        obtain ⟨done',todo',part',same,read,follows⟩ := follows_read live kept arrives
        rcases ih follows (delivered_later same read delivered) with reset | ⟨done'',todo'',part'',same',read',follows'⟩
        · exact .inl reset
        · refine .inr ⟨done'',todo'',part'',same'.trans same,?_,follows'⟩
          rw [read',← List.append_assoc,read]
          simp [bytes]

/-- All commands are read: nothing of them is left. -/
theorem follows_all {commands : List HostCommand} (same : done ++ todo = commands)
    (read : done.flatMap HostCommand.text ++ part = commands.flatMap HostCommand.text)
    (kept : Follows done todo part s) : done = commands := by
  rw [← same,List.flatMap_append] at read
  have rest := List.append_cancel_left read
  obtain ⟨rfl,-⟩ | ⟨cmd,more,pending,rfl,text,some⟩ := kept.next
  · simpa using same
  · rw [List.flatMap_cons,text,List.append_assoc] at rest
    have nothing := List.append_cancel_left ((List.append_nil part).trans rest)
    exact absurd (List.append_eq_nil_iff.mp nothing.symm).1 some

end Follows

theorem live_step {s : State} (buffered : Buffered s) (live : s.reset = false) (label : Label)
    (connected : label ≠ .loop 0) : (step s label).reset = false := by
  unfold step
  rw [live]
  cases label with
  | loop usbDeviceAddr =>
    rcases loop_towards usbDeviceAddr s with ⟨-,-,same⟩ | ⟨rfl,-⟩
    · exact same.trans live
    · exact absurd rfl connected
  | read c =>
    obtain ⟨line,pos,indexed,answers,result,-⟩ := read_spec buffered.bound c
    simp only [Bool.false_eq_true,↓reduceIte,result]
    exact (obey_kept s (commanded (content s) c)).2.2.2.2.2.2.trans live

theorem run_live {s : State} (buffered : Buffered s) (live : s.reset = false) (labels : List Label)
    (connected : Label.loop 0 ∉ labels) : (run step s labels).reset = false := by
  induction labels generalizing s with
  | nil => exact live
  | cons label rest ih =>
    obtain ⟨here,later⟩ := not_or.mp (mt List.mem_cons.mpr connected)
    exact ih (buffered_step s label buffered) (live_step buffered live label (Ne.symm here)) later

/-- Host and firmware speak the same protocol: while the board is connected, no command is refused, the commanded
values arrive, and the driven value goes to them step by step. -/
theorem commands_followed (commands : List HostCommand) (labels : List Label) (connected : Label.loop 0 ∉ labels)
    (delivered : bytes labels <+: commands.flatMap HostCommand.text) :
    let s := run step {} labels
    (∀ a ∈ s.answers, a.isError = false) ∧
    (∀ done, bytes labels = done.flatMap HostCommand.text →
      s.target_pwm = lastM done ∧ s.dir = if lastD done then 1 else 0) ∧
    (0 ≤ s.pwm_hw ∧ s.pwm_hw ≤ 255) ∧
    ∀ usbDeviceAddr, usbDeviceAddr ≠ 0 → |(step s (.loop usbDeviceAddr)).pwm_hw - s.pwm_hw| ≤ 1 ∧
      |s.target_pwm - (step s (.loop usbDeviceAddr)).pwm_hw| ≤ |s.target_pwm - s.pwm_hw| := by
  have live := run_live buffered_start rfl labels connected
  have follows (all : List HostCommand) (delivered : bytes labels <+: all.flatMap HostCommand.text) :
      ∃ done todo part, done ++ todo = all ∧ done.flatMap HostCommand.text ++ part = bytes labels ∧
        Follows done todo part (run step {} labels) := by
    rcases follows_run labels (follows_start all) delivered with reset | found
    · rw [live] at reset
      cases reset
    · simpa using found
  obtain ⟨done,todo,part,same,read,kept⟩ := follows commands delivered
  refine ⟨kept.fine,?_,kept.ramped.bounds,?_⟩
  · intro all complete
    obtain ⟨done,todo,part,same,read,kept⟩ := follows all (complete ▸ List.prefix_refl _)
    obtain rfl := follows_all same (read.trans complete) kept
    exact ⟨kept.target,kept.dir⟩
  · intro usbDeviceAddr plugged
    have stepped : step (run step {} labels) (.loop usbDeviceAddr) = loop usbDeviceAddr (run step {} labels) := by
      simp [step,live]
    rcases loop_towards usbDeviceAddr (run step {} labels) with ⟨moved,-⟩ | ⟨unplugged,-⟩
    · rw [stepped,moved]
      exact towards_near _ _
    · exact absurd unplugged plugged

def spread : List Label :=
  [.loop 7] ++ reads "M0a" ++ [.loop 7,.read 10,.loop 7] ++ reads "D1" ++ [.loop 7,.read 10]

theorem commands_followed_spread : (.loop 0 ∉ spread ∧ bytes spread <+: [.M 10,.D true,.V].flatMap HostCommand.text) ∧
    0 ≤ (run step {} spread).pwm_hw ∧ (run step {} spread).pwm_hw ≤ 255 := by
  have plugged : .loop 0 ∉ spread := by decide
  have delivered : bytes spread <+: [.M 10,.D true,.V].flatMap HostCommand.text := by decide
  obtain ⟨-,-,bounds,-⟩ := commands_followed [.M 10,.D true,.V] spread plugged delivered
  exact ⟨⟨plugged,delivered⟩,bounds⟩

/-! ### The host reverses when it has commanded standstill -/

/-- Every D command that changes the direction comes when the last M command was M00. -/
def Guarded (commands : List HostCommand) : Prop :=
  ∀ before dir after, commands = before ++ .D dir :: after → dir ≠ lastD before → lastM before = 0

/-- When the level changes, at least as many iterations have begun since the last M command was completed as the driven
value was high then. -/
def RampFinished (s : State) (label : Label) : Prop :=
  s.reset = false → Reverses s label → s.rampStart ≤ s.iterations

instance (s : State) (label : Label) : Decidable (RampFinished s label) :=
  inferInstanceAs (Decidable (s.reset = false → Reverses s label → s.rampStart ≤ s.iterations))

theorem guarded_target {done todo : List HostCommand} {part : Str} {s : State} {label : Label}
    (kept : Follows done todo part s) (guarded : Guarded (done ++ todo))
    (arrives : part ++ bytes [label] <+: todo.flatMap HostCommand.text) (reverses : Reverses s label) :
    s.target_pwm = 0 := by
  obtain ⟨level,rfl,read,changes⟩ := reverses
  obtain ⟨cmd,rest,later,rfl,text⟩ := follows_next kept arrives
  obtain ⟨-,⟨-,-,-,drives⟩ | ⟨letter,-⟩⟩ := text_next text
  · rw [kept.held,drives] at read
    rw [kept.target]
    cases cmd with
    | M pwm => cases read
    | D dir =>
      obtain rfl : dir = level := by simpa [HostCommand.drive] using read
      exact guarded done dir rest rfl (kept.dirPin ▸ changes)
    | V => cases read
  · exact absurd rfl letter

theorem reverses_run (labels : List Label) {done todo : List HostCommand} {part : Str} {s : State}
    (kept : Follows done todo part s) (guarded : Guarded (done ++ todo))
    (delivered : part ++ bytes labels <+: todo.flatMap HostCommand.text) :
    Along step AtStandstill s labels ↔ Along step RampFinished s labels := by
  induction labels generalizing done todo part s with
  | nil => rfl
  | cons label rest ih =>
    cases live : s.reset with
    | true =>
      have stays (s' : State) (label : Label) (reset : s'.reset = true) : step s' label = s' := by simp [step,reset]
      refine along_congr (fun s' label reset => by rwa [stays s' label reset]) ?_ (label :: rest) s live
      intro s' label reset
      refine iff_of_true (fun changed => absurd ?_ changed) (fun live' => ?_)
      · rw [stays s' label reset]
      · rw [reset] at live'
        cases live'
    | false =>
      have here : AtStandstill s label ↔ RampFinished s label := by
        have arrives : part ++ bytes [label] <+: todo.flatMap HostCommand.text := by
          refine List.IsPrefix.trans ?_ delivered
          cases label <;> simp [bytes]
        have stopped := guarded_target kept guarded arrives
        rw [atStandstill_step kept.buffered kept.ramped live]
        constructor
        · intro standstill _ reverses
          rcases standstill reverses with ⟨-,finished⟩ | ⟨start,-⟩
          · exact finished
          · omega
        · intro finished reverses
          exact .inl ⟨stopped reverses,finished live reverses⟩
      refine and_congr here ?_
      cases label with
      | loop usbDeviceAddr => exact ih (follows_loop live kept usbDeviceAddr) guarded delivered
      | read c =>
        have arrives : part ++ [c] <+: todo.flatMap HostCommand.text := by
          refine List.IsPrefix.trans ?_ delivered
          simp [bytes]
        obtain ⟨done',todo',part',same,read,follows⟩ := follows_read live kept arrives
        exact ih follows (same ▸ guarded) (delivered_later same read delivered)

/-- The board reverses at standstill only, exactly where the host has left it the time to get there. -/
theorem reverses_iff (commands : List HostCommand) (guarded : Guarded commands) (labels : List Label)
    (delivered : bytes labels <+: commands.flatMap HostCommand.text) :
    Along step AtStandstill {} labels ↔ Along step RampFinished {} labels :=
  reverses_run labels (follows_start commands) guarded delivered

def reversing : List HostCommand := [.M 16,.M 0,.D true]

theorem reversing_guarded : Guarded reversing := by
  rintro before dir after split -
  match before with
  | [] | [_] | _ :: _ :: _ :: _ => simp [reversing] at split
  | [first,second] =>
    simp only [reversing,List.cons_append,List.cons.injEq] at split
    obtain ⟨rfl,rfl,-⟩ := split
    rfl

/-- The commands in one piece, with `between` iterations before the M00 and `after` behind it. -/
def reversingRun (between after : Nat) : List Label :=
  [.loop 7] ++ reads "M10\n" ++ List.replicate between (.loop 7) ++ reads "M00\n" ++ List.replicate after (.loop 7) ++
    reads "D1\n"

theorem reverses_iff_waiting : Guarded reversing ∧ bytes (reversingRun 2 2) <+: reversing.flatMap HostCommand.text ∧
    Along step AtStandstill {} (reversingRun 2 2) := by
  have delivered : bytes (reversingRun 2 2) <+: reversing.flatMap HostCommand.text := by decide
  have waited : Along step RampFinished {} (reversingRun 2 2) := by decide +kernel
  exact ⟨reversing_guarded,delivered,(reverses_iff reversing reversing_guarded (reversingRun 2 2) delivered).mpr waited⟩

/-- The level changes while the driven value is still 1. -/
theorem reverses_moving : Guarded reversing ∧ bytes (reversingRun 2 1) <+: reversing.flatMap HostCommand.text ∧
    ¬Along step AtStandstill {} (reversingRun 2 1) := by
  have delivered : bytes (reversingRun 2 1) <+: reversing.flatMap HostCommand.text := by decide
  have early : ¬Along step RampFinished {} (reversingRun 2 1) := by decide +kernel
  refine ⟨reversing_guarded,delivered,?_⟩
  rwa [reverses_run (reversingRun 2 1) (follows_start reversing) reversing_guarded delivered]

end Btcontrol.Putzlok
