import Btcontrol.ESP32MAS

/-! The motor's sound has no gaps: what a task mixes is one sound after the other, each from its first sample
to its last, however they fall into the blocks. -/
namespace Btcontrol

open Transition

namespace ESP32_MAS_Speed

/-- The board has all sounds between STOP and step 5, and each fills a block. -/
def Complete (spiffs : SPIFFS) : Prop := ∀ f : Fahrsound, -1 ≤ f.curr → f.curr ≤ 5 → -1 ≤ f.next → f.next ≤ 5 →
  (f.next - f.curr).natAbs ≤ 1 → f ≠ ⟨-1, -1⟩ → ∃ data, spiffs f.filename = some data ∧ BUF_LEN ≤ data.length

def samples (spiffs : SPIFFS) (sounds : List Fahrsound) : List UInt8 :=
  sounds.flatMap (fun f => (spiffs f.filename).getD [])

theorem samples_append (spiffs : SPIFFS) (sounds more : List Fahrsound) :
    samples spiffs (sounds ++ more) = samples spiffs sounds ++ samples spiffs more := List.flatMap_append

variable {spiffs : SPIFFS}

def Turning.file (t : Turning) : List UInt8 := t.voice.aiff_file.getD []

/-- The motor in the middle of a turn that has come from `s`. -/
structure Midway (s : ESP32_MAS_Speed) (t : Turning) : Prop where
  level : -1 ≤ t.mas.curr_fahrstufe ∧ t.mas.curr_fahrstufe ≤ 5
  target : t.mas.target_fahrstufe = s.target_fahrstufe
  ended : t.mas.ended = s.ended
  channel : t.channel = 3 ∨ t.channel = 4
  buffer : t.voice.file_buf.length = BUF_LEN

structure Silent (s : ESP32_MAS_Speed) (t : Turning) : Prop where
  ended : t.mas.ended = s.ended
  channel : t.channel = 0
  closed : t.voice.aiff_file = none
  buffer : t.voice.file_buf.length = BUF_LEN

/-- One call of `openFile`: the motor is at rest, or a sound is open from its start. -/
theorem openMotor_cases (complete : Complete spiffs) {s : ESP32_MAS_Speed} {t : Turning} (mid : Midway s t)
    {reads : Reads} (steady : reads.Steady s.target_fahrstufe) :
    (Silent s (openMotor spiffs reads t) ∧ (openMotor spiffs reads t).mas.opened = t.mas.opened) ∨
    (Midway s (openMotor spiffs reads t) ∧ BUF_LEN ≤ (openMotor spiffs reads t).file.length ∧
      (openMotor spiffs reads t).voice.file_buf = t.voice.file_buf ∧
      ∃ f, (openMotor spiffs reads t).mas.opened = t.mas.opened ++ [f] ∧
        samples spiffs [f] = (openMotor spiffs reads t).file) := by
  by_cases rest : t.mas.curr_fahrstufe = -1 ∧ reads.silent.val = -1
  · left
    simp only [openMotor,rest,and_self,↓reduceIte]
    exact ⟨⟨mid.ended,rfl,rfl,mid.buffer⟩,trivial⟩
  right
  have level := nextStep_steady steady mid.level
  have moving : (⟨t.mas.curr_fahrstufe, nextStep t.mas.curr_fahrstufe reads⟩ : Fahrsound) ≠ ⟨-1, -1⟩ := by
    intro same
    obtain ⟨curr,next⟩ := Fahrsound.mk.inj same
    -- a motor at -1 that is not at rest has a target above it
    have above : reads.silent.val ≠ -1 := fun low => rest ⟨curr,low⟩
    rw [steady.1] at above
    have seen := s.target_fahrstufe.2
    rw [curr] at next
    simp only [nextStep,steady.2.1,steady.2.2] at next
    split at next
    · rename_i equal
      exact above equal.symm
    · split at next <;> omega
  obtain ⟨data,found,long⟩ := complete ⟨t.mas.curr_fahrstufe, nextStep t.mas.curr_fahrstufe reads⟩ mid.level.1
    mid.level.2 level.1 level.2 (nextStep_near _ reads) moving
  have opened : openMotor spiffs reads t =
      { mas := { t.mas with
          curr_fahrstufe := nextStep t.mas.curr_fahrstufe reads
          opened := t.mas.opened ++ [⟨t.mas.curr_fahrstufe, nextStep t.mas.curr_fahrstufe reads⟩]
          Audio_Player_run := t.mas.Audio_Player_run && (some data).isSome }
        channel := switched t.channel
        voice := { t.voice with aiff_file := some data } } := by
    rw [← found]
    simp only [openMotor,rest,↓reduceIte]
    rfl
  rw [opened]
  refine ⟨⟨level,mid.target,mid.ended,?_,mid.buffer⟩,long,rfl,_,rfl,?_⟩
  · rcases mid.channel with three | four
    · exact .inr (by rw [three]; rfl)
    · exact .inr (by rw [four]; rfl)
  · simp [samples,found,Turning.file]

/-- A motor that plays has put the next block into the buffer. -/
structure Filled (spiffs : SPIFFS) (s : ESP32_MAS_Speed) (t t' : Turning) (sounds : List Fahrsound) : Prop where
  midway : Midway s t'
  block : t.file ++ samples spiffs sounds = t'.voice.file_buf ++ t'.file

/-- A motor that comes to rest has less than a block left, which is not played. -/
structure Rests (spiffs : SPIFFS) (s : ESP32_MAS_Speed) (t t' : Turning) (sounds : List Fahrsound) : Prop where
  silent : Silent s t'
  short : (t.file ++ samples spiffs sounds).length ≤ BUF_LEN

theorem readFile_file (t : Turning) : t.readFile.file = t.file.drop (min t.file.length BUF_LEN) := rfl

theorem readFile_buffer (t : Turning) : t.readFile.voice.file_buf =
    t.file.take (min t.file.length BUF_LEN) ++ t.voice.file_buf.drop (min t.file.length BUF_LEN) := rfl

theorem available_file (t : Turning) : t.available = t.file.length := rfl

theorem Midway.readFile {s : ESP32_MAS_Speed} {t : Turning} (mid : Midway s t) : Midway s t.readFile := by
  refine ⟨mid.level,mid.target,mid.ended,mid.channel,?_⟩
  rw [readFile_buffer,List.length_append,List.length_take,List.length_drop,mid.buffer]
  omega

/-- The end of a file in the middle of a block. -/
theorem readNewFile_block {n : Nat} {t : Turning} (short : n ≤ BUF_LEN) (buffer : t.voice.file_buf.length = BUF_LEN)
    (long : BUF_LEN ≤ t.file.length) :
    (t.readNewFile n).voice.file_buf = t.voice.file_buf.take n ++ t.file.take (BUF_LEN - n) ∧
    (t.readNewFile n).file = t.file.drop (BUF_LEN - n) ∧ (t.readNewFile n).voice.file_buf.length = BUF_LEN := by
  have filled : min t.file.length (BUF_LEN - n) = BUF_LEN - n := by omega
  have buf : (t.readNewFile n).voice.file_buf = t.voice.file_buf.take n ++ t.file.take (BUF_LEN - n) := by
    show t.voice.file_buf.take n ++ t.file.take (min t.file.length (BUF_LEN - n)) ++
      List.replicate (BUF_LEN - n - min t.file.length (BUF_LEN - n)) 0 = _
    rw [filled,Nat.sub_self,List.replicate_zero,List.append_nil]
  refine ⟨buf,?_,?_⟩
  · show t.file.drop (min t.file.length (BUF_LEN - n)) = _
    rw [filled]
  · rw [buf,List.length_append,List.length_take,List.length_take,buffer]
    omega

/-- The part of a turn behind the first `openFile`. -/
theorem read_cases (complete : Complete spiffs) {s : ESP32_MAS_Speed} {t : Turning} (mid : Midway s t)
    {next : Reads} (steady : next.Steady s.target_fahrstufe) (some : t.file ≠ []) :
    ∃ sounds t' broken, (if t.available = 0 then (t.stopDAC, true)
      else if BUF_LEN < t.available then (t.readFile, false)
      else if 1 < t.channel ∧ t.channel < 5 then
        if (openMotor spiffs next t.readFile).available = 0 then ((openMotor spiffs next t.readFile).stopDAC, true)
        else ((openMotor spiffs next t.readFile).readNewFile t.available, false)
      else (t.readFile.clear t.available, false)) = (t', broken) ∧
      t'.mas.opened = t.mas.opened ++ sounds ∧ (Filled spiffs s t t' sounds ∨ Rests spiffs s t t' sounds) := by
  have positive : t.available ≠ 0 := by
    rw [available_file]
    exact fun zero => some (List.length_eq_zero_iff.mp zero)
  rw [if_neg positive]
  by_cases long : BUF_LEN < t.available
  · refine ⟨[],t.readFile,false,if_pos long,(List.append_nil _).symm,.inl ⟨mid.readFile,?_⟩⟩
    rw [available_file] at long
    have whole : min t.file.length BUF_LEN = BUF_LEN := by omega
    rw [readFile_file,readFile_buffer,whole,List.drop_of_length_le (Nat.le_of_eq mid.buffer),List.append_nil,
      List.take_append_drop]
    exact List.append_nil _
  rw [if_neg long]
  rw [available_file] at long positive
  have looping : 1 < t.channel ∧ t.channel < 5 := by
    rcases mid.channel with three | four <;> omega
  have all : min t.file.length BUF_LEN = t.file.length := by omega
  have used : t.readFile.file = [] := by
    rw [readFile_file,all,List.drop_length]
  rw [if_pos looping]
  rcases openMotor_cases complete mid.readFile steady with ⟨silent,same⟩ | ⟨more,full,buffer,f,opened,content⟩
  · have nothing : (openMotor spiffs next t.readFile).available = 0 := by
      simp only [Turning.available,silent.closed]
      rfl
    rw [if_pos nothing]
    refine ⟨[],_,true,rfl,?_,.inr ⟨⟨silent.ended,silent.channel,silent.closed,silent.buffer⟩,?_⟩⟩
    · rw [List.append_nil]
      exact same
    · have empty : samples spiffs [] = [] := rfl
      rw [empty,List.append_nil]
      omega
  · have something : (openMotor spiffs next t.readFile).available ≠ 0 := by
      have block : 0 < BUF_LEN := by decide
      rw [available_file]
      omega
    rw [if_neg something]
    have short : t.file.length ≤ BUF_LEN := by omega
    obtain ⟨block,rest,length⟩ := readNewFile_block short more.buffer full
    refine ⟨[f],_,false,rfl,opened,.inl ⟨⟨more.level,more.target,more.ended,more.channel,length⟩,?_⟩⟩
    have front : (openMotor spiffs next t.readFile).voice.file_buf.take t.file.length = t.file := by
      rw [buffer,readFile_buffer,all,List.take_length]
      exact List.take_left
    rw [available_file] at *
    rw [block,rest,front,content,List.append_assoc,List.take_append_drop]

/-- A turn of the motor's channel. -/
theorem readChannel_motor (complete : Complete spiffs) {s : ESP32_MAS_Speed} {t : Turning} (mid : Midway s t)
    {first next : Reads} (steadyFirst : first.Steady s.target_fahrstufe) (steadyNext : next.Steady s.target_fahrstufe) :
    ∃ sounds, (readChannel (openMotor spiffs first) (openMotor spiffs next) t).1.mas.opened = t.mas.opened ++ sounds ∧
      (Filled spiffs s t (readChannel (openMotor spiffs first) (openMotor spiffs next) t).1 sounds ∨
        Rests spiffs s t (readChannel (openMotor spiffs first) (openMotor spiffs next) t).1 sounds) := by
  by_cases empty : t.file = []
  · have nothing : t.available = 0 := by
      rw [available_file,empty]
      rfl
    simp only [readChannel,nothing,↓reduceIte]
    rcases openMotor_cases complete mid steadyFirst with ⟨silent,same⟩ | ⟨more,full,_,f,opened,content⟩
    · have still : (openMotor spiffs first t).available = 0 := by
        simp only [Turning.available,silent.closed]
        rfl
      rw [if_pos still]
      refine ⟨[],?_,.inr ⟨⟨silent.ended,silent.channel,silent.closed,silent.buffer⟩,?_⟩⟩
      · rw [List.append_nil]
        exact same
      · rw [empty]
        exact Nat.zero_le _
    · have some : (openMotor spiffs first t).file ≠ [] := by
        intro none
        rw [none] at full
        exact absurd full (by decide)
      obtain ⟨sounds,t',broken,same,log,outcome⟩ := read_cases complete more steadyNext some
      rw [same]
      refine ⟨f :: sounds,?_,?_⟩
      · rw [log,opened,List.append_assoc]
        rfl
      · have all : t.file ++ samples spiffs (f :: sounds) = (openMotor spiffs first t).file ++ samples spiffs sounds := by
          rw [← content,empty,List.nil_append,← samples_append]
          rfl
        rcases outcome with filled | rests
        · exact .inl ⟨filled.midway,all.trans filled.block⟩
        · exact .inr ⟨rests.silent,all ▸ rests.short⟩
  · obtain ⟨sounds,t',broken,same,log,outcome⟩ := read_cases complete mid steadyNext empty
    have positive : t.available ≠ 0 := by
      rw [available_file]
      exact fun zero => empty (List.length_eq_zero_iff.mp zero)
    have read : readChannel (openMotor spiffs first) (openMotor spiffs next) t = (t', broken) := by
      simp only [readChannel,if_neg positive] at same ⊢
      exact same
    rw [read]
    exact ⟨sounds,log,outcome⟩

/-! ### Every task -/

/-- What a task has mixed since its motor was silent, out of all sounds opened: the sounds are some that follow
each other, and the samples are theirs from the first on. -/
structure Stretch (spiffs : SPIFFS) (all sounds : List Fahrsound) (played : List UInt8) : Prop where
  infixes : sounds <:+: all
  starts : played <+: samples spiffs sounds

structure Current (spiffs : SPIFFS) (all : List Fahrsound) (p : Player) : Prop where
  buffer : p.motor.file_buf.length = BUF_LEN
  whole : p.played ++ p.motor.aiff_file.getD [] = samples spiffs p.opened
  last : p.opened <:+ all

/-- The stretches before it: at most a block is missing at their end. -/
def Before (spiffs : SPIFFS) (all : List Fahrsound) (p : Player) : Prop := ∀ stretch ∈ p.silenced,
  Stretch spiffs all stretch.1 stretch.2 ∧ (samples spiffs stretch.1).length ≤ stretch.2.length + BUF_LEN

structure Smooth (spiffs : SPIFFS) (s : ESP32_MAS_Speed) : Prop where
  lone : s.players.length ≤ 1
  level : -1 ≤ s.curr_fahrstufe ∧ s.curr_fahrstufe ≤ 5
  channel : s.motor = 0 ∨ s.motor = 3 ∨ s.motor = 4
  current : ∀ p ∈ s.players, Current spiffs s.opened p ∧ Before spiffs s.opened p
  ended : ∀ p ∈ s.ended, Stretch spiffs s.opened p.opened p.played ∧ Before spiffs s.opened p

theorem Stretch.more {all sounds : List Fahrsound} {played : List UInt8} (stretch : Stretch spiffs all sounds played)
    (added : List Fahrsound) : Stretch spiffs (all ++ added) sounds played :=
  ⟨stretch.infixes.trans (List.prefix_append _ _).isInfix,stretch.starts⟩

theorem Before.more {all : List Fahrsound} {p : Player} (before : Before spiffs all p) (added : List Fahrsound) :
    Before spiffs (all ++ added) p :=
  fun stretch member => ⟨(before stretch member).1.more added,(before stretch member).2⟩

theorem Current.stretch {all : List Fahrsound} {p : Player} (current : Current spiffs all p) :
    Stretch spiffs all p.opened p.played :=
  ⟨current.last.isInfix,⟨_,current.whole⟩⟩

theorem Smooth.same {s s' : ESP32_MAS_Speed} (smooth : Smooth spiffs s) (players : s'.players = s.players)
    (ended : s'.ended = s.ended) (curr : s'.curr_fahrstufe = s.curr_fahrstufe) (motor : s'.motor = s.motor)
    (opened : s'.opened = s.opened) : Smooth spiffs s' := by
  refine ⟨players ▸ smooth.lone,curr ▸ smooth.level,motor ▸ smooth.channel,?_,?_⟩
  · rw [players,opened]
    exact smooth.current
  · rw [ended,opened]
    exact smooth.ended

/-- The motor's part of a turn. -/
theorem turnMotor_current (complete : Complete spiffs) {s : ESP32_MAS_Speed} (smooth : Smooth spiffs s) {p : Player}
    (current : Current spiffs s.opened p) (before : Before spiffs s.opened p) {first next : Reads}
    (steadyFirst : first.Steady s.target_fahrstufe) (steadyNext : next.Steady s.target_fahrstufe) :
    ∃ sounds, (turnMotor spiffs first next s p).1.opened = s.opened ++ sounds ∧
      (turnMotor spiffs first next s p).1.ended = s.ended ∧
      ((turnMotor spiffs first next s p).1.motor = 0 ∨ (turnMotor spiffs first next s p).1.motor = 3 ∨
        (turnMotor spiffs first next s p).1.motor = 4) ∧
      Current spiffs (s.opened ++ sounds) (turnMotor spiffs first next s p).2.1 ∧
      Before spiffs (s.opened ++ sounds) (turnMotor spiffs first next s p).2.1 := by
  by_cases plays : 1 < s.motor
  · have channel : s.motor = 3 ∨ s.motor = 4 := by
      rcases smooth.channel with zero | running
      · omega
      · exact running
    have mid : Midway s ⟨s, s.motor, p.motor⟩ := ⟨smooth.level,rfl,rfl,channel,current.buffer⟩
    obtain ⟨sounds,opened,outcome⟩ := readChannel_motor complete mid steadyFirst steadyNext
    simp only [turnMotor,if_pos plays]
    generalize readChannel (openMotor spiffs first) (openMotor spiffs next) ⟨s, s.motor, p.motor⟩ = result
      at opened outcome ⊢
    obtain ⟨t,broken⟩ := result
    have opened : t.mas.opened = s.opened ++ sounds := opened
    have added : p.opened ++ t.mas.opened.drop s.opened.length = p.opened ++ sounds := by
      rw [opened,List.drop_left]
    have last : p.opened ++ sounds <:+ s.opened ++ sounds := by
      obtain ⟨front,same⟩ := current.last
      exact ⟨front,by rw [← List.append_assoc,same]⟩
    have all : p.played ++ (p.motor.aiff_file.getD [] ++ samples spiffs sounds) = samples spiffs (p.opened ++ sounds) := by
      rw [← List.append_assoc,current.whole,samples_append]
    dsimp only
    rw [added]
    rcases outcome with filled | rests
    · have running : t.channel = 3 ∨ t.channel = 4 := filled.midway.channel
      have playing : 1 < t.channel := by omega
      rw [if_pos playing]
      refine ⟨sounds,opened,filled.midway.ended,.inr running,⟨filled.midway.buffer,?_,last⟩,before.more sounds⟩
      show (p.played ++ t.voice.file_buf) ++ t.file = samples spiffs (p.opened ++ sounds)
      rw [List.append_assoc,← filled.block]
      exact all
    · have stopped : t.channel = 0 := rests.silent.channel
      have silent : ¬1 < t.channel := by omega
      have closed : t.voice.aiff_file = none := rests.silent.closed
      rw [if_neg silent]
      refine ⟨sounds,opened,rests.silent.ended,.inl stopped,⟨rests.silent.buffer,?_,List.nil_suffix⟩,?_⟩
      · show [] ++ t.voice.aiff_file.getD [] = samples spiffs []
        rw [closed]
        rfl
      · intro stretch member
        rcases List.mem_append.mp member with old | new
        · exact before.more sounds stretch old
        · rw [List.mem_singleton.mp new]
          refine ⟨⟨last.isInfix,_,all⟩,?_⟩
          rw [← all,List.length_append]
          exact Nat.add_le_add_left rests.short _
  · simp only [turnMotor,if_neg plays]
    refine ⟨[],(List.append_nil _).symm,trivial,smooth.channel,?_⟩
    rw [List.append_nil]
    exact ⟨current,before⟩

/-- The horn's part of a turn can stop the sound, and leaves the motor as it is. -/
theorem readChannel_horn (t : Turning) : ∃ running,
    (readChannel (openHorn spiffs) (openHorn spiffs) t).1.mas = { t.mas with Audio_Player_run := running } := by
  have first : (if t.available = 0 then openHorn spiffs t else t).mas = t.mas := by
    split
    · exact openHorn_mas spiffs t
    · rfl
  simp only [readChannel]
  generalize (if t.available = 0 then openHorn spiffs t else t) = t1 at first ⊢
  split
  · exact ⟨false,by rw [← first]; rfl⟩
  split
  · exact ⟨t.mas.Audio_Player_run,first⟩
  split
  · have next : (openHorn spiffs t1.readFile).mas = t.mas := (openHorn_mas spiffs t1.readFile).trans first
    split
    · exact ⟨false,by rw [← next]; rfl⟩
    · exact ⟨t.mas.Audio_Player_run,next⟩
  · exact ⟨t.mas.Audio_Player_run,first⟩

theorem turnHorn_motor (s : ESP32_MAS_Speed) (p : Player) : ∃ running horn voice, turnHorn spiffs s p =
    ({ s with Audio_Player_run := running, horn }, { p with horn := voice }) := by
  by_cases plays : 1 < s.horn
  · obtain ⟨running,same⟩ := @readChannel_horn spiffs ⟨s,s.horn,p.horn⟩
    simp only [turnHorn,if_pos plays,same]
    exact ⟨_,_,_,rfl⟩
  · simp only [turnHorn,if_neg plays]
    exact ⟨_,_,_,rfl⟩

theorem playDone_motor (s : ESP32_MAS_Speed) (channel : s.motor = 0 ∨ s.motor = 3 ∨ s.motor = 4) :
    (playDone s).motor = s.motor ∧ (playDone s).opened = s.opened ∧ (playDone s).ended = s.ended := by
  have other : s.motor ≠ 6 := by omega
  simp only [playDone,if_neg other]
  split <;> exact ⟨rfl,rfl,rfl⟩

/-- A second task is not started before the first has ended. -/
def Alone (s : ESP32_MAS_Speed) : Label → Prop
  | .begin _ | .startPlayFuncSound _ _ _ => s.Audio_Player_run = true ∨ s.players = []
  | _ => True

theorem begin_smooth {s : ESP32_MAS_Speed} (smooth : Smooth spiffs s) (stack : Stack)
    (alone : s.Audio_Player_run = true ∨ s.players = []) : Smooth spiffs (begin_ stack s) := by
  simp only [begin_]
  split
  · exact smooth
  · rename_i stopped
    have none : s.players = [] := alone.resolve_left stopped
    refine ⟨?_,smooth.level,.inr (.inl rfl),?_,smooth.ended⟩
    · rw [none]
      exact Nat.le_refl 1
    · intro p member
      rw [none] at member
      rw [List.mem_singleton.mp member]
      exact ⟨⟨stack.motor.2,rfl,List.nil_suffix⟩,fun stretch silenced => absurd silenced List.not_mem_nil⟩

theorem startPlayFuncSound_smooth {s : ESP32_MAS_Speed} (smooth : Smooth spiffs s) (numClients : Nat) (nFunc : Int)
    (stack : Stack) (alone : s.Audio_Player_run = true ∨ s.players = []) :
    Smooth spiffs (startPlayFuncSound numClients nFunc stack s) := by
  simp only [startPlayFuncSound]
  split
  · exact smooth
  have horn : Smooth spiffs (if nFunc > 1 ∧ s.func1 = true ∧ s.horn = 0 then
        { s with horn := 2, hornStarted := s.hornStarted + 1 } else s) ∧
      ((if nFunc > 1 ∧ s.func1 = true ∧ s.horn = 0 then
        { s with horn := 2, hornStarted := s.hornStarted + 1 } else s).Audio_Player_run = true ∨
      (if nFunc > 1 ∧ s.func1 = true ∧ s.horn = 0 then
        { s with horn := 2, hornStarted := s.hornStarted + 1 } else s).players = []) := by
    split
    · exact ⟨smooth.same rfl rfl rfl rfl rfl,alone⟩
    · exact ⟨smooth,alone⟩
  generalize (if nFunc > 1 ∧ s.func1 = true ∧ s.horn = 0 then
    { s with horn := 2, hornStarted := s.hornStarted + 1 } else s) = s1 at horn ⊢
  split
  · split
    · exact begin_smooth horn.1 stack horn.2
    · exact horn.1.same rfl rfl rfl rfl rfl
  · exact horn.1

theorem turn_smooth (complete : Complete spiffs) {s : ESP32_MAS_Speed} (smooth : Smooth spiffs s) (i : Nat)
    {first next : Reads} (steady : Steady s (.turn i first next)) : Smooth spiffs (turn spiffs i first next s) := by
  have level := (step_steady spiffs s (.turn i first next) steady smooth.level).choose_spec.level
  simp only [step] at level
  cases found : s.players[i]? with
  | none =>
    simp only [turn,found]
    exact smooth
  | some p =>
    have member := List.mem_of_getElem? found
    obtain ⟨current,before⟩ := smooth.current p member
    have bound := (List.getElem?_eq_some_iff.mp found).1
    have lone := smooth.lone
    simp only [turn,found] at level ⊢
    split
    · rename_i running
      rw [if_pos running] at level
      obtain ⟨sounds,opened,ended,channel,now,old⟩ :=
        turnMotor_current complete smooth current before steady.1 steady.2
      generalize turnMotor spiffs first next s p = result at opened ended channel now old level ⊢
      obtain ⟨s1,p1,broken⟩ := result
      dsimp only at opened ended channel now old level ⊢
      -- the horn and the callbacks touch nothing of it
      have rest : ∃ s2 p2, (if broken = true then (s1, p1) else turnHorn spiffs s1 p1) = (s2, p2) ∧
          s2.opened = s1.opened ∧ s2.ended = s1.ended ∧ s2.motor = s1.motor ∧
          Current spiffs (s.opened ++ sounds) p2 ∧ Before spiffs (s.opened ++ sounds) p2 := by
        split
        · exact ⟨s1,p1,rfl,rfl,rfl,rfl,now,old⟩
        · obtain ⟨running,horn,voice,same⟩ := @turnHorn_motor spiffs s1 p1
          exact ⟨_,_,same,rfl,rfl,rfl,⟨now.buffer,now.whole,now.last⟩,old⟩
      obtain ⟨s2,p2,same,opened2,ended2,motor2,now2,old2⟩ := rest
      rw [same] at level ⊢
      dsimp only at level ⊢
      obtain ⟨motor3,opened3,ended3⟩ := playDone_motor s2 (motor2 ▸ channel)
      have log : (playDone s2).opened = s.opened ++ sounds := by rw [opened3,opened2,opened]
      refine ⟨?_,level,?_,?_,?_⟩
      · rw [List.length_set]
        exact lone
      · show (playDone s2).motor = 0 ∨ (playDone s2).motor = 3 ∨ (playDone s2).motor = 4
        rw [motor3,motor2]
        exact channel
      · intro other there
        have only : other = p2 := by
          rcases List.mem_or_eq_of_mem_set there with here | same
          · -- the one task is the one that has had its turn
            obtain ⟨j,place,value⟩ := List.mem_iff_getElem.mp there
            rw [List.length_set] at place
            have first : j = i := by omega
            subst first
            rw [List.getElem_set_self] at value
            exact value.symm
          · exact same
        rw [only]
        show Current spiffs (playDone s2).opened p2 ∧ Before spiffs (playDone s2).opened p2
        rw [log]
        exact ⟨now2,old2⟩
      · intro other there
        have there : other ∈ (playDone s2).ended := there
        rw [ended3,ended2,ended] at there
        obtain ⟨stretch,silenced⟩ := smooth.ended other there
        show Stretch spiffs (playDone s2).opened other.opened other.played ∧ Before spiffs (playDone s2).opened other
        rw [log]
        exact ⟨stretch.more sounds,silenced.more sounds⟩
    · refine ⟨?_,smooth.level,smooth.channel,?_,?_⟩
      · rw [List.length_eraseIdx_of_lt bound]
        omega
      · exact fun other there => smooth.current other (List.mem_of_mem_eraseIdx there)
      · intro other there
        rcases List.mem_append.mp there with old | new
        · exact smooth.ended other old
        · rw [List.mem_singleton.mp new]
          exact ⟨current.stretch,before⟩

theorem step_smooth (complete : Complete spiffs) (s : ESP32_MAS_Speed) (label : Label)
    (ok : Steady s label ∧ Alone s label) (smooth : Smooth spiffs s) : Smooth spiffs (step spiffs s label) := by
  cases label with
  | setFahrstufe fahrstufe => exact smooth.same rfl rfl rfl rfl rfl
  | setFunc func1 func3 => exact smooth.same rfl rfl rfl rfl rfl
  | begin stack => exact begin_smooth smooth stack ok.2
  | stop => exact smooth.same rfl rfl rfl rfl rfl
  | stopDAC => exact smooth.same rfl rfl rfl rfl rfl
  | startPlayFuncSound numClients nFunc stack => exact startPlayFuncSound_smooth smooth numClients nFunc stack ok.2
  | turn i first next => exact turn_smooth complete smooth i ok.1

/-- A part of a walk is a walk. -/
theorem walks_infix {a b : Int} {sounds all : List Fahrsound} (walks : Walks a b all) (part : sounds <:+: all) :
    ∃ c d, Walks c d sounds := by
  obtain ⟨front,back,rfl⟩ := part
  obtain ⟨d,inner,_⟩ := walks_append.mp walks
  obtain ⟨c,_,own⟩ := walks_append.mp inner
  exact ⟨c,d,own⟩

end ESP32_MAS_Speed

end Btcontrol
