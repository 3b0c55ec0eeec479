import Btcontrol.Turn

/-! `changedAddrIndex` between the commands: a message that is processed to its end leaves
no mark behind, so every thread in its main loop starts the next one without marks. -/
namespace Btcontrol

open Exec ClientThread

def Unmarked (changedAddrIndex : List Bool) : Prop := ∀ i : Nat, changedAddrIndex[i]? ≠ some true

/-- The test of the hardware loop. -/
theorem marked_of_changed {changedAddrIndex : List Bool} {i : Nat}
    (changed : changedAddrIndex[i]?.getD false = true) : changedAddrIndex[i]? = some true := by
  cases flag : changedAddrIndex[i]? with
  | none =>
    rw [flag] at changed
    cases changed
  | some value =>
    rw [flag] at changed
    exact congrArg some changed

/-- Taking one mark away leaves the others. -/
theorem marked_of_set {changedAddrIndex : List Bool} {i j : Nat}
    (marked : (changedAddrIndex.set i false)[j]? = some true) :
    j ≠ i ∧ changedAddrIndex[j]? = some true := by
  rw [List.getElem?_set] at marked
  by_cases same : i = j
  · subst same
    by_cases bound : i < changedAddrIndex.length <;> simp [bound] at marked
  · simp only [same,↓reduceIte] at marked
    exact ⟨Ne.symm same,marked⟩

section

variable {β : Type} (hardware : Hardware β)

/-- A call of the backend takes its mark and is recorded, returned or not. -/
theorem sendLoco_marks (clientID : Int) (i : Nat) (emergencyStop : Bool) (c : Ctx β) :
    (final (ClientThread.sendLoco hardware clientID i emergencyStop c)).changedAddrIndex =
      c.changedAddrIndex.set i false ∧
    (final (ClientThread.sendLoco hardware clientID i emergencyStop c)).sendLocos =
      c.sendLocos ++ [(i, emergencyStop)] := by
  simp only [ClientThread.sendLoco,bind_apply,modify_apply,setLoko_apply,onGlobals,final_focus,and_self]

theorem hardwareLoop_marks (clientID : Int) (indices : List Nat) (emergencyStop : Bool) (c : Ctx β) :
    (final (hardwareLoop hardware clientID indices emergencyStop c)).changedAddrIndex.length =
      c.changedAddrIndex.length ∧
    ∀ c', hardwareLoop hardware clientID indices emergencyStop c = .ok () c' →
      ∀ i : Nat, c'.changedAddrIndex[i]? = some true → c.changedAddrIndex[i]? = some true ∧ i ∉ indices := by
  induction indices generalizing emergencyStop c with
  | nil =>
    refine ⟨rfl,?_⟩
    rintro c' ⟨⟩ i marked
    exact ⟨marked,List.not_mem_nil⟩
  | cons first rest ih =>
    rw [hardwareLoop,bind_apply,get_apply]
    by_cases changed : c.changedAddrIndex[first]?.getD false = true
    · simp only [changed,↓reduceIte,bind_apply]
      have marks := (sendLoco_marks hardware clientID first emergencyStop c).1
      cases sent : ClientThread.sendLoco hardware clientID first emergencyStop c with
      | error e c1 =>
        rw [sent,final_error] at marks
        refine ⟨?_,fun c' thrown => by cases thrown⟩
        rw [final_error,marks,List.length_set]
      | ok _ c1 =>
        rw [sent,final_ok] at marks
        obtain ⟨length,later⟩ := ih false c1
        refine ⟨by rw [length,marks,List.length_set],?_⟩
        intro c' returned i marked
        obtain ⟨before,absent⟩ := later c' returned i marked
        rw [marks] at before
        obtain ⟨other,before⟩ := marked_of_set before
        exact ⟨before,by simp [other,absent]⟩
    · simp only [changed,Bool.false_eq_true,↓reduceIte]
      obtain ⟨length,later⟩ := ih emergencyStop c
      refine ⟨length,?_⟩
      intro c' returned i marked
      obtain ⟨before,absent⟩ := later c' returned i marked
      have other : i ≠ first := by
        intro same
        subst same
        exact changed (by rw [before]; rfl)
      exact ⟨before,by simp [other,absent]⟩

theorem markAll_length (named : List Nat) (changedAddrIndex : List Bool) :
    (markAll named changedAddrIndex).length = changedAddrIndex.length := by
  induction named generalizing changedAddrIndex with
  | nil => rfl
  | cons i rest ih => exact (ih _).trans List.length_set

theorem markAll_marked (named : List Nat) (changedAddrIndex : List Bool) (i : Nat) :
    (markAll named changedAddrIndex)[i]? = some true ↔
      (i ∈ named ∧ i < changedAddrIndex.length) ∨ changedAddrIndex[i]? = some true := by
  induction named generalizing changedAddrIndex with
  | nil => simp [markAll]
  | cons first rest ih =>
    have later := ih (changedAddrIndex.set first true)
    rw [List.length_set,List.getElem?_set] at later
    simp only [markAll,List.foldl_cons] at later ⊢
    rw [later]
    by_cases same : first = i
    · subst same
      by_cases bound : first < changedAddrIndex.length <;> simp [bound]
    · simp [same,Ne.symm same]

theorem execute_slots (w : World) (cmd : FBTCtlMessage) (command : Option Command) (c c' : Ctx β)
    (emergencyStop : Bool) (returned : execute hardware w cmd command c = .ok emergencyStop c') :
    c'.changedAddrIndex.length = c.changedAddrIndex.length := by
  cases planned : command.bind (plan w cmd c.lokdef) with
  | none =>
    by_cases power : command = some .POWER
    · subst power
      have powered := POWER_effect hardware w cmd c
      rw [show POWER hardware w cmd c = .ok emergencyStop c' from returned] at powered
      exact congrArg List.length powered.marks
    · have quiet := execute_quiet (respects_any hardware) w cmd c.lokdef command planned
        (fun is => absurd is power) c
      rw [returned] at quiet
      exact quiet.slots
  | some p =>
    obtain ⟨name,rfl,planned⟩ := Option.bind_eq_some_iff.mp planned
    rcases (execute_driven hardware w cmd name c p planned).outcome with
      ⟨e,c1,_,thrown⟩ | ⟨_,_,c1,thrown⟩ | ⟨_,_,c1,fine,marks⟩
    · rw [returned] at thrown; cases thrown
    · rw [returned] at thrown; cases thrown
    · rw [returned] at fine
      cases fine
      rw [marks,markAll_length]

/-- A processed message leaves no mark, and as many slots as there were. -/
theorem processMessage_unmarked (clientID : Int) (w : World) (cmd : FBTCtlMessage) (c c' : Ctx β)
    (returned : processMessage hardware clientID w cmd c = .ok () c') :
    Unmarked c'.changedAddrIndex ∧ c'.changedAddrIndex.length = c.changedAddrIndex.length := by
  rw [processMessage,bind_apply] at returned
  cases branch : commandOf w cmd with
  | error e => rw [branch] at returned; cases returned
  | ok command =>
    rw [branch,lift_ok] at returned
    simp only [bind_apply] at returned
    cases executed : execute hardware w cmd command c with
    | error e c1 => rw [executed] at returned; cases returned
    | ok emergencyStop c1 =>
      simp only [executed,get_apply] at returned
      obtain ⟨length,later⟩ := hardwareLoop_marks hardware clientID
        (List.range c1.changedAddrIndex.length) emergencyStop c1
      rw [returned] at length
      refine ⟨?_,length.trans (execute_slots hardware w cmd command c c1 emergencyStop executed)⟩
      intro i marked
      obtain ⟨before,absent⟩ := later c' returned i marked
      exact absent (List.mem_range.mpr (List.getElem?_eq_some_iff.mp before).1)

end

namespace Server

variable {β : Type}

/-- Every thread in its main loop has no mark, and a slot for every loco and one more. -/
def Ready (s : Server β) : Prop := ∀ client ∈ s.clients, ∀ lastStatus changedAddrIndex,
  client.phase = .running lastStatus changedAddrIndex →
    Unmarked changedAddrIndex ∧ changedAddrIndex.length = nLokdef s.lokdef + 1

theorem mem_of_phaseOf {s : Server β} {clientID : Int} {phase : Phase}
    (found : s.phaseOf clientID = some phase) : ∃ client ∈ s.clients, client.phase = phase := by
  obtain ⟨client,located,rfl⟩ := Option.map_eq_some_iff.mp found
  exact ⟨client,List.mem_of_find?_eq_some located,rfl⟩

theorem Ready.running {s : Server β} (ready : s.Ready) {clientID : Int} {lastStatus : List LastStatus}
    {changedAddrIndex : List Bool}
    (phase : s.phaseOf clientID = some (.running lastStatus changedAddrIndex)) :
    Unmarked changedAddrIndex ∧ changedAddrIndex.length = nLokdef s.lokdef + 1 := by
  obtain ⟨client,member,running⟩ := mem_of_phaseOf phase
  exact ready client member _ _ running

/-- The other threads keep their phase. -/
theorem Ready.setPhase {s : Server β} (ready : s.Ready) (clientID : Int) (phase : Phase)
    (fresh : ∀ lastStatus changedAddrIndex, phase = .running lastStatus changedAddrIndex →
      Unmarked changedAddrIndex ∧ changedAddrIndex.length = nLokdef s.lokdef + 1) :
    (s.setPhase clientID phase).Ready := by
  intro client member lastStatus changedAddrIndex running
  obtain ⟨old,before,rfl⟩ := List.mem_map.mp member
  split at running
  · exact fresh lastStatus changedAddrIndex running
  · exact ready old before lastStatus changedAddrIndex running

variable (hardware : Hardware β)

theorem step_addrs (s : Server β) (label : Label) :
    (step hardware s label).lokdef.map Lokdef.addr = s.lokdef.map Lokdef.addr := by
  cases step_stepped hardware s label with
  | idle same => rw [Server.lokdef,Server.lokdef,same]
  | stopped effect => exact effect.addrs
  | turn clientID w cmd turn mid commanded effect =>
    refine effect.addrs.trans ?_
    cases commanded with
    | quiet records => exact records.map_eq Lokdef.addr (fun _ _ idle => idle.addr)
    | driven command p branch planned made => rw [made]; exact writeAll_addrs p.write p.named s.lokdef

theorem Ready.addrs {s s' : Server β} (ready : s.Ready) (clients : s'.clients = s.clients)
    (same : s'.lokdef.map Lokdef.addr = s.lokdef.map Lokdef.addr) : s'.Ready := by
  intro client member lastStatus changedAddrIndex running
  rw [nLokdef_congr same]
  exact ready client (clients ▸ member) lastStatus changedAddrIndex running

/-- One step. -/
theorem step_ready (s : Server β) (label : Label) (ready : s.Ready) : (step hardware s label).Ready := by
  have addrs := step_addrs hardware s label
  by_cases halted : s.halted = true
  · rw [step_halted hardware s label halted]
    exact ready
  have live : s.halted = false := Bool.eq_false_iff.mpr halted
  -- a thread that leaves has no marks to speak of
  have gone (clientID : Int) : (s.setPhase clientID .left).Ready :=
    ready.setPhase clientID .left (fun _ _ running => by cases running)
  cases label <;> simp only [step,live,Bool.false_eq_true,↓reduceIte] at addrs ⊢
  case accept =>
    intro client member lastStatus changedAddrIndex running
    rcases List.mem_append.mp member with old | new
    · exact ready client old lastStatus changedAddrIndex running
    · rw [List.mem_singleton] at new
      subst new
      cases running
  case readFails clientID =>
    split
    · exact gone clientID
    · exact ready
  case helo clientID w =>
    split
    · rename_i phase
      simp only [phase] at addrs
      cases sent : sendHelo hardware w (s.context [] []) with
      | ok _ c =>
        simp only [sent] at addrs
        refine Ready.addrs (s := s.setPhase clientID
          (.running (initialStatus s.lokdef) (noneChanged s.lokdef))) ?_ rfl addrs
        refine ready.setPhase clientID _ ?_
        rintro _ _ ⟨⟩
        refine ⟨?_,List.length_replicate⟩
        intro i marked
        simp [noneChanged,List.getElem?_replicate] at marked
      | error e c =>
        simp only [sent] at addrs
        exact (gone clientID).addrs rfl addrs
    · exact ready
  case message clientID w cmd =>
    split
    · rename_i lastStatus changedAddrIndex phase
      simp only [phase] at addrs
      cases processed : processMessage hardware clientID w cmd (s.context lastStatus changedAddrIndex) with
      | ok _ c =>
        simp only [processed] at addrs
        obtain ⟨unmarked,slots⟩ := processMessage_unmarked hardware clientID w cmd _ c processed
        refine Ready.addrs (s := s.setPhase clientID (.running c.lastStatus c.changedAddrIndex)) ?_ rfl addrs
        refine ready.setPhase clientID _ ?_
        rintro _ _ ⟨⟩
        exact ⟨unmarked,slots.trans (ready.running phase).2⟩
      | error e c =>
        simp only [processed] at addrs
        exact (gone clientID).addrs rfl addrs
    · exact ready
  case destroy clientID =>
    split
    · rename_i phase
      simp only [phase] at addrs
      intro client member lastStatus changedAddrIndex running
      rw [nLokdef_congr addrs]
      exact ready client (List.mem_filter.mp member).1 lastStatus changedAddrIndex running
    · exact ready

/-- Every state a server reaches. -/
theorem run_ready (lokdef : List Lokdef) (device : β) (labels : List Label) :
    (run hardware (start lokdef device) labels).Ready :=
  Transition.run_always (fun s label ready => step_ready hardware s label ready) labels _
    (fun client member => by cases member)

end Server

end Btcontrol
