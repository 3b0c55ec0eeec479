import Btcontrol.Transition

/-! The life of a `Thread` (`Thread.cpp`): one controlling thread calls `start` and `cancel(true)`, the threads
it starts go through `startupThread`. The object is not deleted. -/
namespace Btcontrol.Thread

open Transition

inductive Phase where
  | absent        -- no such thread
  | created
  | entered       -- has set exited=false
  | running       -- in run()
  | leaving       -- run() has returned or thrown
  | unwinding     -- run() is left by a forced unwind
  | exited        -- has set exited=true
  | ended
  deriving DecidableEq

inductive Controller where
  | outside
  | creating      -- in start(), after the check
  | created       -- in start(), after pthread_create
  | joining       -- in cancel(), in pthread_join
  deriving DecidableEq

/-- The threads have the numbers 1 to `started`; in `thread` 0 is none. -/
structure State where
  thread : Nat := 0
  exited : Bool := false
  started : Nat := 0
  phase : Nat → Phase := fun _ => .absent
  canceled : Nat → Bool := fun _ => false
  controller : Controller := .outside
  /-- The thread of the last `start` that has returned, until `cancel` is called; no variable of the source. -/
  watched : Nat := 0

def isRunning (s : State) : Bool := s.thread ≠ 0 && !s.exited

inductive Label where
  | start
  | create
  | createFails (thread : Nat)      -- leaves anything in `thread`
  | returns
  | cancel (accepted : Bool)
  | join
  | joinFails
  /-- A step of a thread, `forced` when it is the cancellation that acts. -/
  | act (id : Nat) (forced : Bool)
  deriving DecidableEq

/-- Where a thread goes next. In `created` and `leaving` a message is printed outside of the `try`. -/
def next : Bool → Phase → Option Phase
  | false, .created => some .entered
  | false, .entered => some .running
  | false, .running => some .leaving
  | false, .leaving | false, .unwinding => some .exited
  | false, .exited => some .ended
  | true, .created | true, .leaving | true, .exited => some .ended
  | true, .running => some .unwinding
  | _, _ => none

/-- What is in `exited` as the thread gets there. -/
def assign : Phase → Bool → Bool
  | .entered, _ => false
  | .exited, _ => true
  | _, exited => exited

def startupThread (s : State) (id : Nat) (forced : Bool) : State :=
  if forced && !s.canceled id then s else
  match next forced (s.phase id) with
  | none => s
  | some phase => { s with exited := assign phase s.exited, phase := Function.update s.phase id phase }

def step (s : State) : Label → State
  | .start =>
    if s.controller = .outside then
      if isRunning s then s        -- "Thread::start() => thread already running!"
      else { s with controller := .creating }
    else s
  | .create =>
    if s.controller = .creating then
      { s with
        started := s.started + 1
        thread := s.started + 1
        phase := Function.update s.phase (s.started + 1) .created
        controller := .created }
    else s
  | .createFails thread =>
    if s.controller = .creating then { s with thread := thread, controller := .outside } else s
  | .returns =>
    if s.controller = .created then { s with watched := s.started, controller := .outside } else s
  | .cancel accepted =>
    if s.controller = .outside then
      if s.thread = 0 then { s with watched := 0 }        -- "thread not started"
      else if accepted = false ∨ s.phase s.thread = .absent then { s with watched := 0 }
      else
        { s with
          watched := 0
          canceled := Function.update s.canceled s.thread true
          controller := .joining }
    else s
  | .join =>
    if s.controller = .joining ∧ s.phase s.thread = .ended then { s with thread := 0, controller := .outside }
    else s
  | .joinFails => if s.controller = .joining then { s with controller := .outside } else s
  | .act id forced => startupThread s id forced

/-- `run` has not ended yet. -/
def RunAhead (phase : Phase) : Prop := phase = .created ∨ phase = .entered ∨ phase = .running

/-- The thread has still to set `exited`. -/
def Live (phase : Phase) : Prop := RunAhead phase ∨ phase = .leaving ∨ phase = .unwinding

instance (phase : Phase) : Decidable (RunAhead phase) := inferInstanceAs (Decidable (_ ∨ _))

instance (phase : Phase) : Decidable (Live phase) := inferInstanceAs (Decidable (_ ∨ _))

/-- From the return of `start` to the end of `run` or a call of `cancel` the thread is reported. -/
def Reported (s : State) : Prop := RunAhead (s.phase s.watched) → isRunning s = true

def RunsOnce (s : State) : Prop := ∀ id other, s.phase id = .running → s.phase other = .running → id = other

def Safe (s : State) : Prop := Reported s ∧ RunsOnce s

/-- When `start` returns, `exited` has been reset, or `run` is already over. -/
def Reset (s : State) (label : Label) : Prop :=
  label = .returns → s.controller = .created → s.exited = false ∨ ¬RunAhead (s.phase s.started)

def Current (s : State) : Prop :=
  match s.controller with
  | .outside | .joining => Live (s.phase s.started) → s.thread = s.started ∧ s.exited = false
  | .creating => ¬Live (s.phase s.started)
  | .created => s.thread = s.started ∧ (Live (s.phase s.started) → s.phase s.started ≠ .created → s.exited = false)

structure Invariant (s : State) : Prop where
  absent : ∀ id, id = 0 ∨ s.started < id → s.phase id = .absent
  older : ∀ id, id ≠ s.started → ¬Live (s.phase id)
  current : Current s
  watched : s.watched ≤ s.started
  returning : s.controller = .created → s.watched < s.started

section Steps

variable {s : State}

/-- What a step of a thread does to the thread and to `exited`. -/
structure Moved (before after : Phase) (exited exited' : Bool) : Prop where
  absent : before = .absent → after = .absent
  live : Live after → Live before
  kept : ¬Live before → exited' = exited
  reset : Live after → exited' = false ∨ exited' = exited ∧ (before = .created → after = .created)

theorem next_moved (forced : Bool) (before after : Phase) (exited : Bool) (goes : next forced before = some after) :
    Moved before after exited (assign after exited) := by
  cases forced <;> cases before <;> simp only [next,Option.some.injEq,reduceCtorEq] at goes <;> subst goes <;>
    constructor <;> simp [Live,RunAhead,assign]

theorem startupThread_spec (s : State) (id : Nat) (forced : Bool) : ∃ phase exited,
    startupThread s id forced = { s with exited := exited, phase := Function.update s.phase id phase } ∧
      Moved (s.phase id) phase s.exited exited := by
  have stays : s = { s with exited := s.exited, phase := Function.update s.phase id (s.phase id) } := by
    rw [Function.update_eq_self]
  have same : Moved (s.phase id) (s.phase id) s.exited s.exited :=
    ⟨fun absent => absent,fun live => live,fun _ => rfl,fun _ => .inr ⟨rfl,fun created => created⟩⟩
  unfold startupThread
  split
  · exact ⟨_,_,stays,same⟩
  · split
    · exact ⟨_,_,stays,same⟩
    · rename_i phase goes
      exact ⟨phase,_,rfl,next_moved forced _ phase s.exited goes⟩

theorem act_current {phase : Phase} {exited : Bool} (moved : Moved (s.phase s.started) phase s.exited exited)
    (current : Current s) :
    Current { s with exited := exited, phase := Function.update s.phase s.started phase } := by
  have idle : (Live (s.phase s.started) → s.thread = s.started ∧ s.exited = false) →
      Live phase → s.thread = s.started ∧ exited = false := by
    intro before live
    obtain ⟨thread,cleared⟩ := before (moved.live live)
    rcases moved.reset live with cleared' | ⟨same,-⟩
    · exact ⟨thread,cleared'⟩
    · exact ⟨thread,same.trans cleared⟩
  unfold Current at current ⊢
  simp only [Function.update_self]
  cases place : s.controller with
  | outside =>
    rw [place] at current
    exact idle current
  | joining =>
    rw [place] at current
    exact idle current
  | creating =>
    rw [place] at current
    exact fun live => current (moved.live live)
  | created =>
    rw [place] at current
    refine ⟨current.1,?_⟩
    intro live further
    rcases moved.reset live with cleared | ⟨same,created⟩
    · exact cleared
    · exact same.trans (current.2 (moved.live live) fun before => further (created before))

/-- Only the last thread can still set `exited`. -/
theorem act_invariant (id : Nat) (forced : Bool) (invariant : Invariant s) :
    Invariant (startupThread s id forced) := by
  obtain ⟨phase,exited,acts,moved⟩ := startupThread_spec s id forced
  obtain ⟨absent,older,current,watched,returning⟩ := invariant
  rw [acts]
  refine ⟨?_,?_,?_,watched,returning⟩
  · intro other outside
    by_cases same : other = id
    · subst same
      simp only [Function.update_self]
      exact moved.absent (absent other outside)
    · simp only [Function.update_of_ne same]
      exact absent other outside
  · intro other different
    by_cases same : other = id
    · subst same
      simp only [Function.update_self]
      exact fun live => older other different (moved.live live)
    · simp only [Function.update_of_ne same]
      exact older other different
  · by_cases last : id = s.started
    · subst last
      exact act_current moved current
    · have kept := moved.kept (older id last)
      unfold Current at current ⊢
      simp only [Function.update_of_ne (Ne.symm last),kept]
      exact current

theorem current_idle (current : Current s) (idle : s.controller = .outside ∨ s.controller = .joining) :
    Live (s.phase s.started) → s.thread = s.started ∧ s.exited = false := by
  unfold Current at current
  rcases idle with place | place <;> rwa [place] at current

theorem current_creating (current : Current s) (creating : s.controller = .creating) :
    ¬Live (s.phase s.started) := by
  unfold Current at current
  rwa [creating] at current

theorem current_created (current : Current s) (created : s.controller = .created) :
    s.thread = s.started ∧ (Live (s.phase s.started) → s.phase s.started ≠ .created → s.exited = false) := by
  unfold Current at current
  rwa [created] at current

theorem started_some (absent : ∀ id, id = 0 ∨ s.started < id → s.phase id = .absent)
    (live : Live (s.phase s.started)) : s.started ≠ 0 := by
  intro none
  rw [absent s.started (.inl none)] at live
  exact absurd live (by decide)

/-- The check of `start` passes only when the last thread is over. -/
theorem start_over (absent : ∀ id, id = 0 ∨ s.started < id → s.phase id = .absent) (current : Current s)
    (outside : s.controller = .outside) (idle : ¬isRunning s = true) : ¬Live (s.phase s.started) := by
  intro live
  obtain ⟨thread,cleared⟩ := current_idle current (.inl outside) live
  have some := started_some absent live
  exact idle (by simp [isRunning,thread,cleared,some])

theorem step_invariant (label : Label) (invariant : Invariant s) (reset : Reset s label) :
    Invariant (step s label) := by
  have whole := invariant
  obtain ⟨absent,older,current,watched,returning⟩ := invariant
  cases label with
  | start =>
    simp only [step]
    split
    · rename_i outside
      split
      · exact whole
      · rename_i idle
        have done := start_over absent current outside idle
        exact ⟨absent,older,done,watched,nofun⟩
    · exact whole
  | create =>
    simp only [step]
    split
    · rename_i creating
      have done := current_creating current creating
      refine ⟨?_,?_,⟨rfl,?_⟩,Nat.le_succ_of_le watched,fun _ => Nat.lt_succ_of_le watched⟩
      · intro id outside
        have beyond : id = 0 ∨ s.started + 1 < id := outside
        have other : id ≠ s.started + 1 := by omega
        simp only [Function.update_of_ne other]
        exact absent id (by omega)
      · intro id other
        simp only [Function.update_of_ne other]
        by_cases last : id = s.started
        · exact last ▸ done
        · exact older id last
      · simp
    · exact whole
  | createFails thread =>
    simp only [step]
    split
    · rename_i creating
      have done := current_creating current creating
      exact ⟨absent,older,fun live => absurd live done,watched,nofun⟩
    · exact whole
  | returns =>
    simp only [step]
    split
    · rename_i created
      obtain ⟨thread,cleared⟩ := current_created current created
      refine ⟨absent,older,?_,Nat.le_refl _,nofun⟩
      intro live
      refine ⟨thread,?_⟩
      rcases reset rfl created with cleared | done
      · exact cleared
      · exact cleared live fun first => done (.inl first)
    · exact whole
  | cancel accepted =>
    simp only [step]
    split
    · rename_i outside
      have idle := current_idle current (.inl outside)
      have called : Invariant { s with watched := 0 } := by
        refine ⟨absent,older,current,Nat.zero_le _,?_⟩
        intro created
        rw [outside] at created
        cases created
      split
      · exact called
      · split
        · exact called
        · exact ⟨absent,older,idle,Nat.zero_le _,nofun⟩
    · exact whole
  | join =>
    simp only [step]
    split
    · rename_i joining
      have idle := current_idle current (.inr joining.1)
      refine ⟨absent,older,?_,watched,nofun⟩
      intro live
      have ended := joining.2
      rw [(idle live).1] at ended
      rw [ended] at live
      exact absurd live (by decide)
    · exact whole
  | joinFails =>
    simp only [step]
    split
    · rename_i joining
      have idle := current_idle current (.inr joining)
      exact ⟨absent,older,idle,watched,nofun⟩
    · exact whole
  | act id forced => exact act_invariant id forced whole

theorem invariant_safe (invariant : Invariant s) : Safe s := by
  obtain ⟨absent,older,current,watched,returning⟩ := invariant
  constructor
  · intro ahead
    have live : Live (s.phase s.watched) := .inl ahead
    have last : s.watched = s.started := by
      by_contra different
      exact older s.watched different live
    rw [last] at live
    have idle : s.controller = .outside ∨ s.controller = .joining := by
      cases place : s.controller with
      | outside => exact .inl rfl
      | joining => exact .inr rfl
      | creating => exact absurd live (current_creating current place)
      | created => exact absurd (returning place) (by omega)
    obtain ⟨thread,cleared⟩ := current_idle current idle live
    have some : s.started ≠ 0 := started_some absent live
    simp [isRunning,thread,cleared,some]
  · intro id other first second
    have last : ∀ id, s.phase id = .running → id = s.started := by
      intro id running
      by_contra different
      exact older id different (by rw [running]; decide)
    rw [last id first,last other second]

/-- A `start` that returns while an earlier `exited` stands is not reported. -/
theorem safe_reset (label : Label) (safe : Safe (step s label)) : Reset s label := by
  rintro rfl created
  by_contra stands
  obtain ⟨set,ahead⟩ := not_or.mp stands
  have reported := safe.1
  simp only [step,created,↓reduceIte,Reported,isRunning] at reported
  have running := reported (not_not.mp ahead)
  rw [Bool.not_eq_false] at set
  simp [set] at running

end Steps

theorem start_invariant : Invariant {} := by
  have none : ¬Live .absent := by decide
  exact ⟨fun _ _ => rfl,fun _ _ => none,fun live => absurd live none,Nat.le_refl _,nofun⟩

/-- `Thread` keeps its promises exactly as long as `exited` has been reset when `start` returns. -/
theorem safe_iff (labels : List Label) :
    (∀ before, before <+: labels → Safe (run step {} before)) ↔ Along step Reset {} labels := by
  have kept (s : State) (label : Label) (invariant : Invariant s) (reset : Reset s label) :
    Invariant (step s label) := step_invariant label invariant reset
  have needed (s : State) (label : Label) (_ : Invariant s) (safe : Safe (step s label)) :
    Reset s label := safe_reset label safe
  exact safe_iff_along (fun _ => invariant_safe) kept needed labels _ start_invariant

def startCalled : List Label := [.start,.create,.returns]

def runsOut (id : Nat) : List Label := List.replicate 4 (.act id false)

theorem restarted_unsafe :
    ¬Reported (run step {} (startCalled ++ runsOut 1 ++ startCalled)) ∧
    ¬RunsOnce (run step {} (startCalled ++ runsOut 1 ++ startCalled ++ startCalled ++
      [.act 2 false,.act 2 false,.act 3 false,.act 3 false])) := by
  constructor
  · intro reported
    exact absurd (reported (.inl rfl)) (by decide)
  · intro once
    exact absurd (once 2 3 rfl rfl) (by decide)

end Btcontrol.Thread
