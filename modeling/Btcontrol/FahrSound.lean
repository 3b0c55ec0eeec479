import Btcontrol.Zsp
import Btcontrol.Transition

/-! `FahrSound::diOutloop` of `sound.cpp`: the sound of a diesel loco. The thread follows the target
step by step and plays one sample in each iteration; `cancel` comes from another thread. -/
namespace Btcontrol.Sound

open Zsp Transition

/-- The members of `FahrSound` that change while the sound is on. -/
structure FahrSound where
  doRun : Bool := false
  /-- −1 off, 0 stop, 1 … n driving. -/
  currFahrstufe : Int := -1
  currSpeed : Int := 0
  deriving DecidableEq, Repr

/-- With the local variable of `diOutloop`. -/
structure DiLoop extends FahrSound where
  lastFahrstufe : Int
  deriving DecidableEq, Repr

/-- `steps[i]`; what is read is noted by `diTurn`. -/
def stepAt (diSoundFiles : DiSoundType) (i : Int) : DiSoundStepType := diSoundFiles.steps.getD i.toNat {}

variable (diSoundFiles : DiSoundType)

/-- `diOutloop` up to its loop. -/
def enter (sound : FahrSound) : DiLoop :=
  { sound with lastFahrstufe := sound.currFahrstufe, currFahrstufe := 0 }

def cancel (loop : DiLoop) : DiLoop := { loop with currFahrstufe := -1, doRun := false }

def diTest (loop : DiLoop) : Bool := loop.doRun || decide (0 ≤ loop.lastFahrstufe)

def search (currSpeed : Int) : Option Nat :=
  (List.range diSoundFiles.nsteps.toNat).find? (fun i => decide (currSpeed < (stepAt diSoundFiles i).limit))

/-- The steps the search reads. -/
def searched (currSpeed : Int) : List Int :=
  match search diSoundFiles currSpeed with
  | some i => (List.range (i + 1)).map (fun (j : Nat) => (j : Int))
  | none => (List.range diSoundFiles.nsteps.toNat).map (fun (j : Nat) => (j : Int))

def shutdown (currSpeed : Int) (loop : DiLoop) : Bool :=
  decide (currSpeed = 0) && decide (loop.lastFahrstufe = 0) && !loop.doRun

/-- The new `currFahrstufe`. A search that finds nothing leaves the old one. -/
def target (currSpeed : Int) (loop : DiLoop) : Int :=
  if shutdown currSpeed loop then -1
  else match search diSoundFiles currSpeed with
    | some i => i
    | none => loop.currFahrstufe

structure Turn where
  loop : DiLoop
  /-- The elements of `steps` that are read. -/
  reads : List Int
  /-- The sample played; `none` where the iteration sleeps. -/
  sample : Option Sample

/-- The body of the loop, with `lokdef[0].currspeed`. -/
def diTurn (currspeed : Int) (loop : DiLoop) : Turn :=
  let limits := if shutdown currspeed loop then [] else searched diSoundFiles currspeed
  let loop := { loop with currSpeed := currspeed, currFahrstufe := target diSoundFiles currspeed loop }
  let last := loop.lastFahrstufe
  if loop.currFahrstufe = last then
    if last = -1 then ⟨loop, limits, none⟩
    else ⟨loop, limits ++ [last], some (stepAt diSoundFiles last).run⟩
  else if loop.currFahrstufe < last then
    ⟨{ loop with lastFahrstufe := last - 1 }, limits ++ [last], some (stepAt diSoundFiles last).down⟩
  else
    ⟨{ loop with lastFahrstufe := last + 1 }, limits ++ [last + 1], some (stepAt diSoundFiles (last + 1)).up⟩

/-! ### The target -/

/-- The least step whose limit is above the speed, and the last step where there is none. -/
def Picks (speed : Int) (stufe : Int) : Prop :=
  (∃ i : Nat, stufe = i ∧ i < diSoundFiles.nsteps ∧ speed < (stepAt diSoundFiles i).limit ∧
    ∀ j < i, (stepAt diSoundFiles j).limit ≤ speed) ∨
  (∀ i : Nat, i < diSoundFiles.nsteps → (stepAt diSoundFiles i).limit ≤ speed) ∧
    stufe = diSoundFiles.nsteps - 1

def Limited (speed : Int) : Prop :=
  ∃ i : Nat, i < diSoundFiles.nsteps ∧ speed < (stepAt diSoundFiles i).limit

theorem search_some {speed : Int} {i : Nat} (found : search diSoundFiles speed = some i) :
    i < diSoundFiles.nsteps ∧ speed < (stepAt diSoundFiles i).limit ∧
      ∀ j < i, (stepAt diSoundFiles j).limit ≤ speed := by
  unfold search at found
  rw [List.find?_range_eq_some] at found
  obtain ⟨above,bound,before⟩ := found
  refine ⟨?_,of_decide_eq_true above,?_⟩
  · have := List.mem_range.mp bound
    omega
  · intro j below
    have := before j below
    simpa using this

theorem search_none {speed : Int} (missing : search diSoundFiles speed = none) (i : Nat)
    (bound : i < diSoundFiles.nsteps) : (stepAt diSoundFiles i).limit ≤ speed := by
  have := List.find?_eq_none.mp missing i (List.mem_range.mpr (by omega))
  simpa using this

theorem target_running {speed : Int} {loop : DiLoop} (running : loop.doRun = true) :
    target diSoundFiles speed loop =
      match search diSoundFiles speed with
      | some i => (i : Int)
      | none => loop.currFahrstufe := by
  simp [target,shutdown,running]

/-- The body changes neither flag nor what the target was chosen to be. -/
theorem diTurn_doRun (speed : Int) (loop : DiLoop) :
    (diTurn diSoundFiles speed loop).loop.doRun = loop.doRun := by
  simp only [diTurn]
  split
  · split <;> rfl
  · split <;> rfl

theorem diTurn_currFahrstufe (speed : Int) (loop : DiLoop) :
    (diTurn diSoundFiles speed loop).loop.currFahrstufe = target diSoundFiles speed loop := by
  simp only [diTurn]
  split
  · split <;> rfl
  · split <;> rfl

/-- An iteration picks the right target if the search finds one, or else if it was right before. -/
theorem diTurn_picks {speed : Int} {loop : DiLoop} (running : loop.doRun = true) :
    Picks diSoundFiles speed (diTurn diSoundFiles speed loop).loop.currFahrstufe ↔
      Limited diSoundFiles speed ∨ loop.currFahrstufe = diSoundFiles.nsteps - 1 := by
  rw [diTurn_currFahrstufe,target_running diSoundFiles running]
  cases found : search diSoundFiles speed with
  | some i =>
    obtain ⟨bound,above,before⟩ := search_some diSoundFiles found
    exact iff_of_true (.inl ⟨i,rfl,bound,above,before⟩) (.inl ⟨i,bound,above⟩)
  | none =>
    have low := search_none diSoundFiles found
    have unlimited : ¬ Limited diSoundFiles speed := by
      rintro ⟨i,bound,above⟩
      have := low i bound
      omega
    constructor
    · rintro (⟨i,-,bound,above,-⟩ | ⟨-,last⟩)
      · exact absurd ⟨i,bound,above⟩ unlimited
      · exact .inr last
    · rintro (limited | last)
      · exact absurd limited unlimited
      · exact .inr ⟨low,last⟩

def diNext (loop : DiLoop) (currspeed : Int) : DiLoop := (diTurn diSoundFiles currspeed loop).loop

/-- The target of the iteration is the right one. -/
def Picked (loop : DiLoop) (currspeed : Int) : Prop :=
  Picks diSoundFiles currspeed (diNext diSoundFiles loop currspeed).currFahrstufe

/-- The iterations of a run pick the right targets exactly if each that finds no limit above its
speed has the last step as its target already. -/
theorem diOutloop_picks (loop : DiLoop) (running : loop.doRun = true) (speeds : List Int) :
    Along (diNext diSoundFiles) (Picked diSoundFiles) loop speeds ↔
      Along (diNext diSoundFiles)
        (fun loop speed => Limited diSoundFiles speed ∨ loop.currFahrstufe = diSoundFiles.nsteps - 1)
        loop speeds := by
  have kept : ∀ (loop : DiLoop) (speed : Int),
      loop.doRun = true → (diNext diSoundFiles loop speed).doRun = true :=
    fun loop speed running => (diTurn_doRun diSoundFiles speed loop).trans running
  exact along_congr kept (fun _ _ running => diTurn_picks diSoundFiles running) speeds loop running

def twoSteps : DiSoundType where
  lok := 0
  nsteps := 2
  steps := { limit := 1 } :: List.replicate 19 {}

theorem diOutloop_picks_slower :
    Along (diNext twoSteps) (Picked twoSteps) (enter { doRun := true }) [0,100,254,255,0] := by
  refine (diOutloop_picks twoSteps (enter { doRun := true }) rfl _).mpr ?_
  refine ⟨.inl ⟨0,?_⟩,.inl ⟨1,?_⟩,.inl ⟨1,?_⟩,.inr ?_,.inl ⟨0,?_⟩,trivial⟩ <;> decide

/-- The sound is turned on at full speed, and idles. -/
theorem diOutloop_picks_idle :
    ¬ Along (diNext twoSteps) (Picked twoSteps) (enter { doRun := true }) [255] := by
  rintro ⟨⟨i,target,-,above,-⟩ | ⟨-,target⟩,-⟩
  · have first : i = 0 := by
      have : (diNext twoSteps (enter { doRun := true }) 255).currFahrstufe = 0 := by decide
      omega
    subst first
    exact absurd above (by decide)
  · exact absurd target (by decide)

/-! ### The walk over the steps -/

inductive Label where
  /-- The condition and, where it holds, the body. -/
  | iteration (currspeed : Int)
  | cancel

def step (loop : DiLoop) : Label → DiLoop
  | .iteration currspeed => if diTest loop then diNext diSoundFiles loop currspeed else loop
  | .cancel => cancel loop

/-- An iteration plays the run of a step, or goes to the next step and plays its up, or plays the
down of a step and goes to the one below. The step is one of the set, and one that the iteration reads. -/
def Plays (last : Int) (turn : Turn) : Prop :=
  ∃ i ∈ turn.reads, (0 ≤ i ∧ i < diSoundFiles.nsteps) ∧
    (turn.loop.lastFahrstufe = last ∧ i = last ∧ turn.sample = some (stepAt diSoundFiles i).run ∨
      turn.loop.lastFahrstufe = last + 1 ∧ i = last + 1 ∧ turn.sample = some (stepAt diSoundFiles i).up ∨
      turn.loop.lastFahrstufe = last - 1 ∧ i = last ∧ turn.sample = some (stepAt diSoundFiles i).down)

/-- What every iteration does. -/
def Walks (loop : DiLoop) : Label → Prop
  | .iteration currspeed => diTest loop →
      (-1 ≤ loop.lastFahrstufe ∧ loop.lastFahrstufe < diSoundFiles.nsteps) ∧
      (∀ i ∈ (diTurn diSoundFiles currspeed loop).reads, 0 ≤ i ∧ i < diSoundFiles.nsteps) ∧
      Plays diSoundFiles loop.lastFahrstufe (diTurn diSoundFiles currspeed loop)
  | .cancel => True

/-- Both steps are steps of the set or off; the target is off only once the sound is cancelled. -/
structure Stays (loop : DiLoop) : Prop where
  last : -1 ≤ loop.lastFahrstufe ∧ loop.lastFahrstufe < diSoundFiles.nsteps
  curr : -1 ≤ loop.currFahrstufe ∧ loop.currFahrstufe < diSoundFiles.nsteps
  running : loop.doRun = true → 0 ≤ loop.currFahrstufe

variable {diSoundFiles}

theorem searched_mem {speed i : Int} (member : i ∈ searched diSoundFiles speed) :
    0 ≤ i ∧ i < diSoundFiles.nsteps := by
  unfold searched at member
  split at member
  · rename_i found
    obtain ⟨bound,-⟩ := search_some diSoundFiles found
    obtain ⟨j,inside,rfl⟩ := List.mem_map.mp member
    have := List.mem_range.mp inside
    exact ⟨Int.natCast_nonneg j,by omega⟩
  · obtain ⟨j,inside,rfl⟩ := List.mem_map.mp member
    have := List.mem_range.mp inside
    exact ⟨Int.natCast_nonneg j,by omega⟩

theorem target_range (speed : Int) {loop : DiLoop} (stays : Stays diSoundFiles loop)
    (steps : 1 ≤ diSoundFiles.nsteps) :
    -1 ≤ target diSoundFiles speed loop ∧ target diSoundFiles speed loop < diSoundFiles.nsteps := by
  unfold target
  split
  · omega
  · split
    · rename_i found
      obtain ⟨bound,-⟩ := search_some diSoundFiles found
      omega
    · exact stays.curr

/-- While the sound is on there is a step to go to. -/
theorem target_on (speed : Int) {loop : DiLoop} (stays : Stays diSoundFiles loop)
    (running : loop.doRun = true) : 0 ≤ target diSoundFiles speed loop := by
  rw [target_running diSoundFiles running]
  split
  · exact Int.natCast_nonneg _
  · exact stays.running running

/-- The reads of an iteration are those of the search and one step. -/
theorem reads_inside {limits : List Int} {last : Int} (inside : ∀ i ∈ limits, 0 ≤ i ∧ i < diSoundFiles.nsteps)
    (one : 0 ≤ last ∧ last < diSoundFiles.nsteps) :
    ∀ i ∈ limits ++ [last], 0 ≤ i ∧ i < diSoundFiles.nsteps := by
  intro i member
  rcases List.mem_append.mp member with searched | same
  · exact inside i searched
  · rw [List.mem_singleton.mp same]
    exact one

theorem limits_inside (diSoundFiles : DiSoundType) (speed : Int) (loop : DiLoop) :
    ∀ i ∈ (if shutdown speed loop then [] else searched diSoundFiles speed), 0 ≤ i ∧ i < diSoundFiles.nsteps := by
  intro i member
  split at member
  · exact absurd member List.not_mem_nil
  · exact searched_mem member

/-- An iteration that the condition lets in plays a sample and stays inside of the set. -/
theorem diTurn_walks {speed : Int} {loop : DiLoop} (steps : 1 ≤ diSoundFiles.nsteps)
    (stays : Stays diSoundFiles loop) (test : diTest loop) :
    (∀ i ∈ (diTurn diSoundFiles speed loop).reads, 0 ≤ i ∧ i < diSoundFiles.nsteps) ∧
      Plays diSoundFiles loop.lastFahrstufe (diTurn diSoundFiles speed loop) := by
  have limits := limits_inside diSoundFiles speed loop
  have range := target_range speed stays steps
  have last := stays.last
  simp only [diTurn]
  split
  · rename_i same
    split
    · rename_i off
      -- off at both ends: the sound is on then, and has a step to go to
      have running : loop.doRun = true := by
        simp only [diTest,Bool.or_eq_true,decide_eq_true_eq] at test
        exact test.resolve_right (by omega)
      have := target_on speed stays running
      omega
    · have inside : 0 ≤ loop.lastFahrstufe ∧ loop.lastFahrstufe < diSoundFiles.nsteps := by omega
      exact ⟨reads_inside limits inside,_,List.mem_append_right _ List.mem_cons_self,inside,.inl ⟨rfl,rfl,rfl⟩⟩
  · split
    · have inside : 0 ≤ loop.lastFahrstufe ∧ loop.lastFahrstufe < diSoundFiles.nsteps := by omega
      exact ⟨reads_inside limits inside,_,List.mem_append_right _ List.mem_cons_self,inside,
        .inr (.inr ⟨rfl,rfl,rfl⟩)⟩
    · have inside : 0 ≤ loop.lastFahrstufe + 1 ∧ loop.lastFahrstufe + 1 < diSoundFiles.nsteps := by omega
      exact ⟨reads_inside limits inside,_,List.mem_append_right _ List.mem_cons_self,inside,
        .inr (.inl ⟨rfl,rfl,rfl⟩)⟩

theorem diTurn_stays {speed : Int} {loop : DiLoop} (steps : 1 ≤ diSoundFiles.nsteps)
    (stays : Stays diSoundFiles loop) : Stays diSoundFiles (diTurn diSoundFiles speed loop).loop := by
  have range := target_range speed stays steps
  have last := stays.last
  constructor
  · simp only [diTurn]
    split
    · split <;> exact last
    · split <;> exact ⟨by simp only; omega,by simp only; omega⟩
  · rw [diTurn_currFahrstufe]
    exact range
  · rw [diTurn_currFahrstufe,diTurn_doRun]
    exact target_on speed stays

theorem step_stays (steps : 1 ≤ diSoundFiles.nsteps) (loop : DiLoop) (label : Label)
    (stays : Stays diSoundFiles loop) : Stays diSoundFiles (step diSoundFiles loop label) := by
  cases label with
  | iteration speed =>
    simp only [step]
    split
    · exact diTurn_stays steps stays
    · exact stays
  | cancel => exact ⟨stays.last,⟨by simp [step,cancel],by simp only [step,cancel]; omega⟩,fun on => nomatch on⟩

/-- The loop is entered with the sound off, and a first step to go to. -/
theorem enter_stays {sound : FahrSound} (steps : 1 ≤ diSoundFiles.nsteps) (off : sound.currFahrstufe = -1) :
    Stays diSoundFiles (enter sound) :=
  ⟨⟨by simp [enter,off],by simp [enter,off]; omega⟩,⟨by simp [enter],by simp [enter]; omega⟩,fun _ => by simp [enter]⟩

/-- From one iteration to the next the sound moves by at most one step, and the sample is that of
the move. -/
theorem diOutloop_walks (steps : 1 ≤ diSoundFiles.nsteps) (sound : FahrSound)
    (off : sound.currFahrstufe = -1) (labels : List Label) :
    Along (step diSoundFiles) (Walks diSoundFiles) (enter sound) labels := by
  refine along_always (step_stays steps) ?_ labels (enter sound) (enter_stays steps off)
  intro loop label stays
  cases label with
  | iteration speed => exact fun test => ⟨stays.last,diTurn_walks steps stays test⟩
  | cancel => trivial

theorem diOutloop_walks_twoSteps :
    Along (step twoSteps) (Walks twoSteps) (enter { doRun := true })
      [.iteration 0,.iteration 200,.cancel,.iteration 200,.iteration 0,.iteration 0] :=
  diOutloop_walks (by decide) { doRun := true } rfl _

end Btcontrol.Sound
