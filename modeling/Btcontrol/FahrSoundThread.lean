import Btcontrol.FahrSound
import Btcontrol.Halting

/-! `FahrSound::run` as a thread: `start` and `cancel` are called by other threads and strike between
any two of its accesses to `doRun` and `currFahrstufe`. `cancel` itself makes two assignments. -/
namespace Btcontrol.Sound.Run

open Zsp Transition Halting

structure Program (π : Type) where
  first : π
  action : Int → π → FahrSound → Option π × FahrSound

structure State (π : Type) where
  sound : FahrSound := {}
  /-- Where the thread stands, while it is running. -/
  place : Option π := none
  /-- The calls of `cancel` between their two assignments. -/
  cancelling : Nat := 0

inductive Label where
  | start
  /-- The thread goes on, with `lokdef[0].currspeed`. -/
  | action (currspeed : Int)
  | cancelFahrstufe
  | cancelRun

variable {π : Type} (program : Program π)

/-- The thread goes on by one access. -/
def act (currspeed : Int) (s : State π) : State π :=
  match s.place with
  | none => s
  | some place =>
    { s with
      place := (program.action currspeed place s.sound).1
      sound := (program.action currspeed place s.sound).2 }

def step (s : State π) : Label → State π
  | .start =>
    if s.place.isSome then s      -- "FahrSound::start already started"
    else { s with sound.doRun := true, place := some program.first }
  | .action currspeed => act program currspeed s
  | .cancelFahrstufe => { s with sound.currFahrstufe := -1, cancelling := s.cancelling + 1 }
  | .cancelRun =>
    if s.cancelling = 0 then s
    else { s with sound.doRun := false, cancelling := s.cancelling - 1 }

/-- The thread leaves the loop if it goes on alone with the loco standing. -/
def Leaves (s : State π) : Prop := Halts (act program 0) (fun s => s.place = none) s

/-! ### `diOutloop` -/

/-- The places of `diOutloop`, each with at most one access to a shared member. -/
inductive DiPlace where
  | entry                           -- lastFahrstufe=this->currFahrstufe
  | zero (last : Int)               -- this->currFahrstufe=0
  | test (last : Int)
  | speed (last : Int)
  | shutdown (last : Int)
  | off (last : Int)                -- this->currFahrstufe = -1
  | search (last : Int)
  | same (last : Int)
  | less (last : Int)
  deriving DecidableEq, Repr

variable (diSoundFiles : DiSoundType)

def diAction (currspeed : Int) (place : DiPlace) (sound : FahrSound) : Option DiPlace × FahrSound :=
  match place with
  | .entry => (some (.zero sound.currFahrstufe), sound)
  | .zero last => (some (.test last), { sound with currFahrstufe := 0 })
  | .test last => (if sound.doRun ∨ 0 ≤ last then some (.speed last) else none, sound)
  | .speed last => (some (.shutdown last), { sound with currSpeed := currspeed })
  | .shutdown last =>
    (if sound.currSpeed = 0 ∧ last = 0 ∧ sound.doRun = false then some (.off last) else some (.search last), sound)
  | .off last => (some (.same last), { sound with currFahrstufe := -1 })
  | .search last =>
    (some (.same last), match search diSoundFiles sound.currSpeed with
      | some i => { sound with currFahrstufe := i }
      | none => sound)
  -- what is played between here and the test changes nothing
  | .same last => (if sound.currFahrstufe = last then some (.test last) else some (.less last), sound)
  | .less last => (some (.test (if sound.currFahrstufe < last then last - 1 else last + 1)), sound)

def diOutloop : Program DiPlace := ⟨.entry, diAction diSoundFiles⟩

/-! ### `steamOutloop` -/

inductive SteamPlace where
  | test                            -- this->doRun
  | testFahrstufe                   -- this->currFahrstufe >= 0
  | speed
  | choose                          -- this->currFahrstufe=this->currSpeed/(256.0) * nsteps
  | standing                        -- this->currSpeed <= 0
  | sample                          -- steps[this->currFahrstufe]
  | rest                            -- sleep, or writeSound
  /-- An element outside of `steps` has been read. -/
  | outside
  deriving DecidableEq, Repr

variable (dSoundFiles : SteamSoundType)

/-- The quotient is exact in a double and cut off towards zero. -/
def fahrstufe (currSpeed : Int) : Int := (currSpeed * dSoundFiles.nsteps).tdiv 256

def steamAction (currspeed : Int) (place : SteamPlace) (sound : FahrSound) : Option SteamPlace × FahrSound :=
  match place with
  | .test => (if sound.doRun then some .speed else some .testFahrstufe, sound)
  | .testFahrstufe => (if 0 ≤ sound.currFahrstufe then some .speed else none, sound)
  | .speed => (some .choose, { sound with currSpeed := currspeed })
  | .choose => (some .standing, { sound with currFahrstufe := fahrstufe dSoundFiles sound.currSpeed })
  | .standing => (if sound.currSpeed ≤ 0 then some .rest else some .sample, sound)
  | .sample =>
    (if 0 ≤ sound.currFahrstufe ∧ sound.currFahrstufe < SteamSoundType.maxSteps then some .rest else some .outside, sound)
  | .rest => (some .test, sound)
  | .outside => (some .outside, sound)

def steamOutloop : Program SteamPlace := ⟨.test, steamAction dSoundFiles⟩

/-! ### The steam loop after a cancel -/

/-- The thread will find a negative step at its next test, and does not use it before: it is past the assignment and
the sample, or is about to assign one from a speed read before. -/
def Passed (s : State SteamPlace) : Prop :=
  match s.place with
  | none => True
  | some .test | some .testFahrstufe | some .rest => s.sound.currFahrstufe < 0
  | some .choose => fahrstufe dSoundFiles s.sound.currSpeed < 0
  | some .standing => s.sound.currSpeed ≤ 0 ∧ s.sound.currFahrstufe < 0
  | some .speed | some .sample | some .outside => False

theorem fahrstufe_zero : fahrstufe dSoundFiles 0 = 0 := by simp [fahrstufe]

theorem fahrstufe_neg (steps : 1 ≤ dSoundFiles.nsteps) {currSpeed : Int}
    (negative : fahrstufe dSoundFiles currSpeed < 0) : currSpeed ≤ 0 := by
  by_contra driving
  have up : 0 ≤ currSpeed * dSoundFiles.nsteps := Int.mul_nonneg (by omega) (by omega)
  exact absurd (Int.tdiv_nonneg up (by decide)) (not_le.mpr negative)

theorem act_doRun (currspeed : Int) (s : State SteamPlace) :
    (act (steamOutloop dSoundFiles) currspeed s).sound.doRun = s.sound.doRun := by
  unfold act
  split
  · rfl
  · rename_i place _
    cases place <;> rfl

/-- Standing, the thread that will find no negative step goes on without one. -/
theorem act_passed (steps : 1 ≤ dSoundFiles.nsteps) (s : State SteamPlace) (cancelled : s.sound.doRun = false) :
    Passed dSoundFiles (act (steamOutloop dSoundFiles) 0 s) ↔ Passed dSoundFiles s := by
  cases at_ : s.place with
  | none => simp only [act,at_]
  | some place =>
    cases place with
    | test => simp [act,at_,steamOutloop,steamAction,Passed,cancelled]
    | testFahrstufe =>
      by_cases on : 0 ≤ s.sound.currFahrstufe
      · simp [act,at_,steamOutloop,steamAction,Passed,on]
      · simp [act,at_,steamOutloop,steamAction,Passed,on,not_le.mp on]
    | speed => simp [act,at_,steamOutloop,steamAction,Passed,fahrstufe_zero]
    | choose =>
      simp only [act,at_,steamOutloop,steamAction,Passed]
      exact and_iff_right_of_imp (fahrstufe_neg dSoundFiles steps)
    | standing =>
      by_cases stands : s.sound.currSpeed ≤ 0 <;> simp [act,at_,steamOutloop,steamAction,Passed,stands]
    | sample =>
      -- inside of the array the step is not negative
      by_cases inside : 0 ≤ s.sound.currFahrstufe ∧ s.sound.currFahrstufe < SteamSoundType.maxSteps
      · simp [act,at_,steamOutloop,steamAction,Passed,inside]
      · simp [act,at_,steamOutloop,steamAction,Passed,inside]
    | rest => simp [act,at_,steamOutloop,steamAction,Passed]
    | outside => simp [act,at_,steamOutloop,steamAction,Passed]

def left : Option SteamPlace → Nat
  | none => 0
  | some .testFahrstufe => 1
  | some .test => 2
  | some .rest => 3
  | some .standing => 4
  | some .choose => 5
  | some .speed | some .sample | some .outside => 6

/-- A thread that has passed comes nearer to the end with every action. -/
theorem act_left (s : State SteamPlace) (cancelled : s.sound.doRun = false) (passed : Passed dSoundFiles s)
    (running : s.place ≠ none) : left (act (steamOutloop dSoundFiles) 0 s).place < left s.place := by
  cases at_ : s.place with
  | none => exact absurd at_ running
  | some place =>
    cases place with
    | test => simp [act,at_,steamOutloop,steamAction,cancelled,left]
    | testFahrstufe =>
      have off : ¬ 0 ≤ s.sound.currFahrstufe := by
        simpa [Passed,at_] using passed
      simp [act,at_,steamOutloop,steamAction,off,left]
    | speed | sample | outside => simp [Passed,at_] at passed
    | choose => simp [act,at_,steamOutloop,steamAction,left]
    | standing =>
      have stands : s.sound.currSpeed ≤ 0 ∧ s.sound.currFahrstufe < 0 := by
        simpa [Passed,at_] using passed
      simp [act,at_,steamOutloop,steamAction,left,stands.1]
    | rest => simp [act,at_,steamOutloop,steamAction,left]

theorem steam_leaves_iff (steps : 1 ≤ dSoundFiles.nsteps) (s : State SteamPlace) (cancelled : s.sound.doRun = false) :
    Leaves (steamOutloop dSoundFiles) s ↔ Passed dSoundFiles s := by
  constructor
  · contrapose
    intro missed
    refine not_halts (fun s => s.sound.doRun = false ∧ ¬ Passed dSoundFiles s) ?_ ?_ ⟨cancelled,missed⟩
    · rintro s ⟨cancelled,missed⟩
      exact ⟨(act_doRun dSoundFiles 0 s).trans cancelled,mt (act_passed dSoundFiles steps s cancelled).mp missed⟩
    · rintro s ⟨-,missed⟩ ended
      exact missed (by simp [Passed,ended])
  · intro passed
    refine halts_of_measure (fun s => s.sound.doRun = false ∧ Passed dSoundFiles s) (fun s => left s.place) ?_
      ⟨cancelled,passed⟩
    rintro s ⟨cancelled,passed⟩
    by_cases ended : s.place = none
    · exact .inl (halts_of_final ended)
    · have sounding := (act_doRun dSoundFiles 0 s).trans cancelled
      exact .inr ⟨1,⟨sounding,(act_passed dSoundFiles steps s cancelled).mpr passed⟩,
        act_left dSoundFiles s cancelled passed ended⟩

/-! ### The diesel loop after a cancel -/

def top : Int := max 0 (diSoundFiles.nsteps - 1)

/-- No step is above the last one. At the second comparison there is a step above, or the way is
down; `cancel` may have changed the target since the first. -/
def Below (s : State DiPlace) : Prop :=
  s.sound.currFahrstufe ≤ top diSoundFiles ∧
  match s.place with
  | none | some .entry => True
  | some (.zero last) | some (.test last) | some (.speed last) | some (.shutdown last) | some (.off last)
  | some (.search last) | some (.same last) => last ≤ top diSoundFiles
  | some (.less last) =>
    last ≤ top diSoundFiles ∧ (s.sound.currFahrstufe < last ∨ last < top diSoundFiles)

theorem top_nonneg : 0 ≤ top diSoundFiles := le_max_left _ _

theorem search_top {speed : Int} {i : Nat} (found : search diSoundFiles speed = some i) :
    (i : Int) ≤ top diSoundFiles := by
  obtain ⟨bound,-⟩ := search_some diSoundFiles found
  unfold top
  omega

theorem act_below (currspeed : Int) (s : State DiPlace) (below : Below diSoundFiles s) :
    Below diSoundFiles (act (diOutloop diSoundFiles) currspeed s) := by
  have bottom := top_nonneg diSoundFiles
  obtain ⟨curr,last⟩ := below
  cases at_ : s.place with
  | none => simpa [act,at_,Below] using curr
  | some place =>
    simp only [at_] at last
    cases place with
    | entry => simpa [act,at_,diOutloop,diAction,Below] using curr
    | zero => exact ⟨by simpa [act,at_,diOutloop,diAction] using bottom,by simpa [act,at_,diOutloop,diAction] using last⟩
    | test =>
      simp only [act,at_,diOutloop,diAction]
      split
      · exact ⟨curr,last⟩
      · exact ⟨curr,trivial⟩
    | speed => simpa [act,at_,diOutloop,diAction,Below] using ⟨curr,last⟩
    | shutdown =>
      simp only [act,at_,diOutloop,diAction]
      split <;> exact ⟨curr,last⟩
    | off => simpa [act,at_,diOutloop,diAction,Below] using ⟨by omega,last⟩
    | search =>
      simp only [act,at_,diOutloop,diAction]
      split
      · rename_i found
        exact ⟨search_top diSoundFiles found,last⟩
      · exact ⟨curr,last⟩
    | same =>
      simp only [act,at_,diOutloop,diAction]
      split
      · exact ⟨curr,last⟩
      · exact ⟨curr,last,by simp only; omega⟩
    | less =>
      simp only [act,at_,diOutloop,diAction]
      refine ⟨curr,?_⟩
      simp only
      split <;> omega

theorem step_below (s : State DiPlace) (label : Label) (below : Below diSoundFiles s) :
    Below diSoundFiles (step (diOutloop diSoundFiles) s label) := by
  have bottom := top_nonneg diSoundFiles
  cases label with
  | start =>
    simp only [step]
    split
    · exact below
    · exact ⟨below.1,trivial⟩
  | action currspeed => exact act_below diSoundFiles currspeed s below
  | cancelFahrstufe =>
    obtain ⟨-,last⟩ := below
    refine ⟨by simp only [step]; omega,?_⟩
    cases at_ : s.place with
    | none => simp only [step,at_]
    | some place =>
      simp only [step,at_] at last ⊢
      cases place with
      | entry => trivial
      | less l =>
        -- with a target of -1 the way is down, or there is a step above
        exact ⟨last.1,by omega⟩
      | _ => exact last
  | cancelRun =>
    simp only [step]
    split
    · exact below
    · exact below

/-- The object before the first start, and whatever is called from then on. -/
theorem run_below (labels : List Label) :
    Below diSoundFiles (run (step (diOutloop diSoundFiles)) {} labels) := by
  refine run_always (step_below diSoundFiles) labels {} ⟨?_,trivial⟩
  have bottom := top_nonneg diSoundFiles
  simp only
  omega

theorem act_cancelled (currspeed : Int) (s : State DiPlace) :
    (act (diOutloop diSoundFiles) currspeed s).sound.doRun = s.sound.doRun := by
  cases at_ : s.place with
  | none => simp only [act,at_]
  | some place =>
    cases place with
    | search =>
      simp only [act,at_,diOutloop,diAction]
      split <;> rfl
    | _ => simp only [act,at_,diOutloop,diAction]

/-- Where nobody strikes, the actions from test to test are an iteration. -/
theorem acts_turn (currspeed : Int) (s : State DiPlace) (last : Int) (at_ : s.place = some (.test last))
    (test : diTest ⟨s.sound,last⟩) :
    ∃ n, (act (diOutloop diSoundFiles) currspeed)^[n] s =
      { s with
        sound := (diTurn diSoundFiles currspeed ⟨s.sound,last⟩).loop.toFahrSound
        place := some (.test (diTurn diSoundFiles currspeed ⟨s.sound,last⟩).loop.lastFahrstufe) } := by
  have inside : s.sound.doRun = true ∨ 0 ≤ last := by simpa [diTest] using test
  by_cases ends : currspeed = 0 ∧ last = 0 ∧ s.sound.doRun = false
  · obtain ⟨rfl,rfl,cancelled⟩ := ends
    refine ⟨6,?_⟩
    simp [act,at_,diOutloop,diAction,diTurn,target,shutdown,cancelled]
  · have going : shutdown currspeed ⟨s.sound,last⟩ = false := by
      simpa [shutdown] using ends
    cases found : search diSoundFiles currspeed with
    | none =>
      by_cases same : s.sound.currFahrstufe = last
      · refine ⟨5,?_⟩
        by_cases off : last = -1
        · have running : s.sound.doRun = true := inside.resolve_right (by omega)
          simp [act,at_,diOutloop,diAction,running,found,diTurn,target,same,off]
        · simp [act,at_,diOutloop,diAction,inside,ends,found,diTurn,target,going,same,off]
      · refine ⟨6,?_⟩
        by_cases down : s.sound.currFahrstufe < last <;>
          simp [act,at_,diOutloop,diAction,inside,ends,found,diTurn,target,going,same,down]
    | some i =>
      by_cases same : (i : Int) = last
      · refine ⟨5,?_⟩
        have on : last ≠ -1 := by omega
        simp [act,at_,diOutloop,diAction,inside,ends,found,diTurn,target,going,same,on]
      · refine ⟨6,?_⟩
        by_cases down : (i : Int) < last <;>
          simp [act,at_,diOutloop,diAction,inside,ends,found,diTurn,target,going,same,down]

variable {diSoundFiles}

/-- Above step 0 a standing loco finds step 0. -/
theorem search_standing (limit : (stepAt diSoundFiles 0).limit = 1) (steps : 1 ≤ diSoundFiles.nsteps) :
    search diSoundFiles 0 = some 0 := by
  unfold search
  rw [List.find?_range_eq_some]
  refine ⟨?_,List.mem_range.mpr (by omega),fun j below => absurd below (Nat.not_lt_zero j)⟩
  simp only [Nat.cast_zero,limit]
  decide

/-- After a cancel an iteration at standstill goes down by one step. -/
theorem diTurn_down {loop : DiLoop} (limit : (stepAt diSoundFiles 0).limit = 1)
    (cancelled : loop.doRun = false) (on : 0 ≤ loop.lastFahrstufe)
    (below : loop.lastFahrstufe ≤ top diSoundFiles) :
    (diTurn diSoundFiles 0 loop).loop.lastFahrstufe = loop.lastFahrstufe - 1 := by
  have lower : target diSoundFiles 0 loop < loop.lastFahrstufe := by
    by_cases last : loop.lastFahrstufe = 0
    · simp [target,shutdown,last,cancelled]
    · have steps : 1 ≤ diSoundFiles.nsteps := by
        unfold top at below
        omega
      simp only [target,shutdown,last,search_standing limit steps]
      simp
      omega
  simp only [diTurn]
  rw [if_neg (by omega),if_pos lower]

/-- From the test on. -/
theorem test_leaves (limit : (stepAt diSoundFiles 0).limit = 1) (s : State DiPlace) (last : Int)
    (at_ : s.place = some (.test last)) (cancelled : s.sound.doRun = false) (below : last ≤ top diSoundFiles) :
    Leaves (diOutloop diSoundFiles) s := by
  induction size : (last + 1).toNat generalizing s last with
  | zero =>
    refine halts_next (halts_of_final ?_)
    have off : ¬ 0 ≤ last := by omega
    simp [act,at_,diOutloop,diAction,cancelled,off]
  | succ n ih =>
    have on : 0 ≤ last := by omega
    obtain ⟨acts,turned⟩ := acts_turn diSoundFiles 0 s last at_ (by simp [diTest,on])
    have down : (diTurn diSoundFiles 0 ⟨s.sound,last⟩).loop.lastFahrstufe = last - 1 :=
      diTurn_down limit cancelled on below
    refine halts_after acts ?_
    rw [turned]
    exact ih _ (last - 1) (by rw [down]) ((diTurn_doRun diSoundFiles 0 ⟨s.sound,last⟩).trans cancelled)
      (by omega) (by omega)

def untilTest : Option DiPlace → Nat
  | none | some (.test _) => 0
  | some (.less _) | some (.zero _) => 1
  | some (.same _) | some .entry => 2
  | some (.off _) | some (.search _) => 3
  | some (.shutdown _) => 4
  | some (.speed _) => 5

theorem act_untilTest (currspeed : Int) (s : State DiPlace) (far : untilTest s.place ≠ 0) :
    untilTest (act (diOutloop diSoundFiles) currspeed s).place < untilTest s.place := by
  cases at_ : s.place with
  | none => simp [untilTest,at_] at far
  | some place =>
    simp only [act,at_,diOutloop,diAction]
    cases place with
    | test last => simp [untilTest,at_] at far
    | shutdown last | same last => simp only; split <;> simp [untilTest]
    | _ => simp [untilTest]

/-- From wherever the cancel finds the thread. -/
theorem diesel_leaves (limit : (stepAt diSoundFiles 0).limit = 1) (s : State DiPlace)
    (cancelled : s.sound.doRun = false) (below : Below diSoundFiles s) :
    Leaves (diOutloop diSoundFiles) s := by
  refine halts_of_measure (fun s => s.sound.doRun = false ∧ Below diSoundFiles s) (fun s => untilTest s.place) ?_
    ⟨cancelled,below⟩
  rintro s ⟨cancelled,below⟩
  by_cases far : untilTest s.place = 0
  · cases at_ : s.place with
    | none => exact .inl (halts_of_final at_)
    | some place =>
      cases place with
      | test last =>
        have bound := below.2
        simp only [at_] at bound
        exact .inl (test_leaves limit s last at_ cancelled bound)
      | _ => simp [untilTest,at_] at far
  · exact .inr ⟨1,⟨(act_cancelled diSoundFiles 0 s).trans cancelled,act_below diSoundFiles 0 s below⟩,
      act_untilTest 0 s far⟩

/-- After a cancel, with the loco standing, the diesel loop always ends; the steam loop ends exactly
if the step of the cancel, or of a negative speed, is still there at its next test and no sample is taken with it. -/
theorem cancel_ends (diSoundFiles : DiSoundType) (dSoundFiles : SteamSoundType) (labels : List Label) :
    ((stepAt diSoundFiles 0).limit = 1 →
      (run (step (diOutloop diSoundFiles)) {} labels).sound.doRun = false →
        Leaves (diOutloop diSoundFiles) (run (step (diOutloop diSoundFiles)) {} labels)) ∧
    (1 ≤ dSoundFiles.nsteps →
      (run (step (steamOutloop dSoundFiles)) {} labels).sound.doRun = false →
        (Leaves (steamOutloop dSoundFiles) (run (step (steamOutloop dSoundFiles)) {} labels) ↔
          Passed dSoundFiles (run (step (steamOutloop dSoundFiles)) {} labels))) := by
  constructor
  · intro limit cancelled
    exact diesel_leaves limit _ cancelled (run_below diSoundFiles labels)
  · intro steps cancelled
    exact steam_leaves_iff dSoundFiles steps _ cancelled

/-- Both loops once: the cancel comes while the steam loop sleeps. -/
theorem cancel_ends_sleeping :
    Leaves (diOutloop twoSteps) (run (step (diOutloop twoSteps)) {}
      [.start,.action 0,.action 0,.action 0,.action 9,.cancelFahrstufe,.cancelRun]) ∧
    Leaves (steamOutloop ⟨0,3,4,[]⟩) (run (step (steamOutloop ⟨0,3,4,[]⟩)) {}
      [.start,.action 0,.action 0,.action 0,.action 0,.cancelFahrstufe,.cancelRun]) := by
  constructor
  · exact (cancel_ends twoSteps ⟨0,3,4,[]⟩ _).1 (by decide) (by decide)
  · refine ((cancel_ends twoSteps ⟨0,3,4,[]⟩ _).2 (by decide) (by decide)).mpr ?_
    simp [run,step,act,steamOutloop,steamAction,Passed]

/-- The cancel comes after the test: the standing steam loop overwrites its step and goes on for ever. -/
theorem cancel_overwritten :
    ¬ Leaves (steamOutloop ⟨0,3,4,[]⟩) (run (step (steamOutloop ⟨0,3,4,[]⟩)) {}
      [.start,.action 0,.cancelFahrstufe,.cancelRun]) := by
  refine mt (steam_leaves_iff ⟨0,3,4,[]⟩ (by decide) _ (by decide)).mp ?_
  simp [run,step,act,steamOutloop,steamAction,Passed]

end Btcontrol.Sound.Run
