import Btcontrol.Connections
import Btcontrol.Devices

/-! Connections along whole runs of the server: what the turns of its thread keep of a connection, by where the
thread stands, holds in every state a server reaches, whatever the other threads do. -/
namespace Btcontrol

open DataType Exec ClientThread FBTCtlMessage

/-! ### Phases -/

def threadOf : Label → Option Int
  | .accept => none
  | .helo clientID _ | .message clientID _ _ | .readFails clientID | .destroy clientID => some clientID

namespace Server

variable {β : Type} {hardware : Hardware β}

theorem phaseOf_setPhase (s : Server β) (clientID other : Int) (phase : Phase) :
    (s.setPhase clientID phase).phaseOf other =
      if other = clientID then (s.phaseOf clientID).map (fun _ => phase) else s.phaseOf other := by
  have named : (fun client : Client => client.clientID == other) ∘
      (fun client => if client.clientID = clientID then { client with phase } else client) =
      fun client => client.clientID == other := by
    funext client
    by_cases own : client.clientID = clientID <;> simp [own]
  simp only [phaseOf,setPhase,List.find?_map,named,Option.map_map]
  by_cases same : other = clientID
  · subst same
    rw [if_pos rfl]
    cases found : s.clients.find? (fun client => client.clientID == other) with
    | none => rfl
    | some client =>
      have own : client.clientID = other := by simpa using List.find?_some found
      simp [own]
  · rw [if_neg same]
    cases found : s.clients.find? (fun client => client.clientID == other) with
    | none => rfl
    | some client =>
      have own : client.clientID ≠ clientID := by
        have other' : client.clientID = other := by simpa using List.find?_some found
        exact other' ▸ same
      simp [own]

theorem phaseOf_same {s s' : Server β} (clients : s'.clients = s.clients) (clientID : Int) :
    s'.phaseOf clientID = s.phaseOf clientID := by
  simp only [phaseOf,clients]

theorem phaseOf_leave (s : Server β) (clientID other : Int) (globals : Globals β) (e : Err) (apart : other ≠ clientID) :
    (s.leave clientID globals e).phaseOf other = s.phaseOf other := by
  have clients := @phaseOf_same _ (s.setPhase clientID .left) (s.leave clientID globals e) rfl other
  rw [clients,phaseOf_setPhase,if_neg apart]

/-- A step of one thread leaves the phases of the others. -/
theorem step_others (s : Server β) (label : Label) (clientID : Int) (apart : threadOf label ≠ some clientID)
    (known : clientID < s.clientID_counter) : (step hardware s label).phaseOf clientID = s.phaseOf clientID := by
  by_cases halted : s.halted = true
  · rw [step_halted hardware s label halted]
  have live : s.halted = false := Bool.eq_false_iff.mpr halted
  cases label <;> simp only [step,live,Bool.false_eq_true,↓reduceIte]
  case accept =>
    have new : s.clientID_counter ≠ clientID := by omega
    simp only [phaseOf,List.find?_append]
    simp [new]
  case helo other w =>
    have apart : clientID ≠ other := fun same => apart (congrArg some same.symm)
    split
    · cases sendHelo hardware w (s.context [] []) with
      | ok _ c => exact (phaseOf_same rfl clientID).trans ((phaseOf_setPhase s other clientID _).trans (if_neg apart))
      | error e c => exact phaseOf_leave s other clientID _ e apart
    · rfl
  case message other w cmd =>
    have apart : clientID ≠ other := fun same => apart (congrArg some same.symm)
    split
    · rename_i lastStatus changedAddrIndex _
      cases processMessage hardware other w cmd (s.context lastStatus changedAddrIndex) with
      | ok _ c => exact (phaseOf_same rfl clientID).trans ((phaseOf_setPhase s other clientID _).trans (if_neg apart))
      | error e c => exact phaseOf_leave s other clientID _ e apart
    · rfl
  case readFails other =>
    have apart : clientID ≠ other := fun same => apart (congrArg some same.symm)
    split
    · rw [phaseOf_setPhase,if_neg apart]
    · rfl
  case destroy other =>
    have apart : clientID ≠ other := fun same => apart (congrArg some same.symm)
    split
    · have own : (fun client : Client =>
          decide (decide (client.clientID ≠ other) = true ∧ (client.clientID == clientID) = true)) =
          fun client => client.clientID == clientID := by
        funext client
        by_cases same : client.clientID = clientID <;> simp [same,apart]
      simp only [phaseOf,List.find?_filter,own]
    · rfl

/-- Numbers are given once. -/
theorem step_fresh (s : Server β) (label : Label)
    (fresh : ∀ client ∈ s.clients, client.clientID < s.clientID_counter) :
    ∀ client ∈ (step hardware s label).clients, client.clientID < (step hardware s label).clientID_counter := by
  by_cases halted : s.halted = true
  · rw [step_halted hardware s label halted]
    exact fresh
  have live : s.halted = false := Bool.eq_false_iff.mpr halted
  have phases (clientID : Int) (phase : Phase) :
      ∀ client ∈ (s.setPhase clientID phase).clients, client.clientID < s.clientID_counter := by
    intro client member
    obtain ⟨old,before,rfl⟩ := List.mem_map.mp member
    split <;> exact fresh old before
  cases label <;> simp only [step,live,Bool.false_eq_true,↓reduceIte]
  case accept =>
    intro client member
    rcases List.mem_append.mp member with old | new
    · exact Int.lt_add_one_of_le (Int.le_of_lt (fresh client old))
    · rw [List.mem_singleton.mp new]
      exact Int.lt_succ _
  case helo clientID w =>
    split
    · cases sendHelo hardware w (s.context [] []) with
      | ok _ c => exact phases clientID _
      | error e c => exact phases clientID _
    · exact fresh
  case message clientID w cmd =>
    split
    · rename_i lastStatus changedAddrIndex _
      cases processMessage hardware clientID w cmd (s.context lastStatus changedAddrIndex) with
      | ok _ c => exact phases clientID _
      | error e c => exact phases clientID _
    · exact fresh
  case readFails clientID =>
    split
    · exact phases clientID _
    · exact fresh
  case destroy clientID =>
    split
    · exact fun client member => fresh client (List.mem_filter.mp member).1
    · exact fresh

end Server

/-! ### Every connection -/

namespace WireServer

variable {β : Type} {hardware : Hardware β} {lokdef : List Lokdef} {turned : Int → Globals β → World → Prop}
  {standing : Connection → Option Phase → Prop}

/-- A property of a connection, by where its thread stands, that the turns of the thread keep. `turned` is what is
known of a turn: its client, what it finds in the table and the backend, and what it finds outside. -/
structure Serves (hardware : Hardware β) (lokdef : List Lokdef) (turned : Int → Globals β → World → Prop)
    (standing : Connection → Option Phase → Prop) : Prop where
  gone : ∀ c, standing c none
  left : ∀ c, standing c (some .left)
  accepted : ∀ clientID so, standing { clientID, so, stream := so } (some .accepted)
  helo : ∀ c globals w c', Records Shaped lokdef globals.lokdef → standing c (some .accepted) →
    sendHelo hardware w { globals, lastStatus := [], changedAddrIndex := [] } = .ok () c' →
    standing (c.write c'.sent) (some (.running (initialStatus globals.lokdef) (noneChanged globals.lokdef)))
  turn : ∀ c globals lastStatus changedAddrIndex w cmd so c', Records Shaped lokdef globals.lokdef →
    turned c.clientID globals w → standing c (some (.running lastStatus changedAddrIndex)) →
    processMessage hardware c.clientID w cmd { globals, lastStatus, changedAddrIndex } = .ok () c' →
    standing ((c.take cmd so).write c'.sent) (some (.running c'.lastStatus c'.changedAddrIndex))

structure Kept (lokdef : List Lokdef) (standing : Connection → Option Phase → Prop) (s : WireServer β) : Prop where
  shaped : Records Shaped lokdef s.server.lokdef
  fresh : ∀ client ∈ s.server.clients, client.clientID < s.server.clientID_counter
  below : ∀ c ∈ s.connections, c.clientID < s.server.clientID_counter
  standing : ∀ c ∈ s.connections, standing c (s.server.phaseOf c.clientID)

theorem counter_le (s : Server β) (label : Label) :
    s.clientID_counter ≤ (Server.step hardware s label).clientID_counter := by
  rcases step_counter hardware s label with same | ⟨_,next⟩
  · rw [same]
  · rw [next]
    exact Int.le_of_lt (Int.lt_succ _)

theorem Kept.shape {s : WireServer β} (kept : Kept lokdef standing s) (label : Label) :
    Records Shaped lokdef (Server.step hardware s.server label).lokdef :=
  Records.trans (fun _ _ _ first second => ⟨second.addr.trans first.addr,second.nFunc.trans first.nFunc⟩) kept.shaped
    ((tracks_shape hardware).step s.server label)

/-- A step of one thread, and what it does on its connection. -/
theorem Kept.own {s : WireServer β} (kept : Kept lokdef standing s) (label : Label) (clientID : Int)
    (f : Connection → Connection) (mine : threadOf label = some clientID) (named : ∀ c, (f c).clientID = c.clientID)
    (own : ∀ c ∈ s.connections, c.clientID = clientID →
      standing (f c) ((Server.step hardware s.server label).phaseOf clientID)) :
    Kept lokdef standing ((s.takes hardware label).onConnection clientID f) := by
  refine ⟨kept.shape label,Server.step_fresh s.server label kept.fresh,?_,?_⟩
  · intro c member
    rcases mem_onConnection member with ⟨before,there,_,rfl⟩ | ⟨there,_⟩
    · rw [named]
      exact Int.lt_of_lt_of_le (kept.below before there) (counter_le s.server label)
    · exact Int.lt_of_lt_of_le (kept.below c there) (counter_le s.server label)
  · intro c member
    rcases mem_onConnection member with ⟨before,there,same,rfl⟩ | ⟨there,apart⟩
    · rw [named,same]
      exact own before there same
    · have other : threadOf label ≠ some c.clientID := by
        rw [mine]
        exact fun same => apart (Option.some.inj same).symm
      show standing c ((Server.step hardware s.server label).phaseOf c.clientID)
      rw [Server.step_others s.server label c.clientID other (kept.below c there)]
      exact kept.standing c there

/-- A thread that writes nothing. -/
theorem Kept.silent {s : WireServer β} (kept : Kept lokdef standing s) (label : Label) (clientID : Int)
    (mine : threadOf label = some clientID)
    (own : ∀ c ∈ s.connections, c.clientID = clientID →
      standing c ((Server.step hardware s.server label).phaseOf clientID)) :
    Kept lokdef standing (s.takes hardware label) := by
  have same : (s.takes hardware label).onConnection clientID id = s.takes hardware label := by
    simp [onConnection]
  rw [← same]
  exact kept.own label clientID id mine (fun _ => rfl) own

section Turns

variable (serves : Serves hardware lokdef turned standing)
include serves

theorem Serves.closed (c : Connection) (s : Server β) (clientID : Int) :
    standing c ((s.setPhase clientID .left).phaseOf clientID) := by
  rw [Server.phaseOf_setPhase,if_pos rfl]
  cases s.phaseOf clientID with
  | none => exact serves.gone c
  | some phase => exact serves.left c

theorem Serves.leave (c : Connection) (s : Server β) (clientID : Int) (globals : Globals β) (e : Err) :
    standing c ((s.leave clientID globals e).phaseOf clientID) := by
  rw [@Server.phaseOf_same _ (s.setPhase clientID .left) (s.leave clientID globals e) rfl clientID]
  exact serves.closed c s clientID

/-- The first turn of a thread. -/
theorem Kept.helo {s : WireServer β} (kept : Kept lokdef standing s) (live : s.server.halted = false) (clientID : Int)
    (w : World) (phase : s.server.phaseOf clientID = some .accepted) :
    Kept lokdef standing ((s.takes hardware (.helo clientID w)).onConnection clientID
      (Connection.write (final (sendHelo hardware w (s.server.context [] []))).sent)) := by
  refine kept.own _ clientID _ rfl (fun _ => rfl) ?_
  intro c member mine
  have fresh := kept.standing c member
  rw [mine,phase] at fresh
  simp only [Server.step,live,Bool.false_eq_true,↓reduceIte,phase]
  cases sent : sendHelo hardware w (s.server.context [] []) with
  | error e c' => exact serves.leave _ _ _ _ e
  | ok _ c' =>
    have running : Server.phaseOf { s.server.setPhase clientID (.running (initialStatus s.server.lokdef)
        (noneChanged s.server.lokdef)) with globals := c'.globals } clientID = some (.running _ _) :=
      (Server.phaseOf_same rfl clientID).trans
        ((Server.phaseOf_setPhase s.server clientID clientID _).trans (by rw [if_pos rfl,phase]; rfl))
    dsimp only
    rw [running]
    exact serves.helo c s.server.globals w c' kept.shaped fresh sent

/-- A turn on a message that has come. -/
theorem Kept.turn {s : WireServer β} (kept : Kept lokdef standing s) (live : s.server.halted = false) {clientID : Int}
    (w : World) {lastStatus : List LastStatus} {changedAddrIndex : List Bool} (cmd : FBTCtlMessage)
    (so : List (List UInt8)) (phase : s.server.phaseOf clientID = some (.running lastStatus changedAddrIndex))
    (happens : turned clientID s.server.globals w) :
    Kept lokdef standing ((s.takes hardware (.message clientID w cmd)).onConnection clientID
      (fun c => (c.take cmd so).write (final (processMessage hardware clientID w cmd
        (s.server.context lastStatus changedAddrIndex))).sent)) := by
  refine kept.own _ clientID _ rfl (fun _ => rfl) ?_
  intro c member mine
  have before := kept.standing c member
  rw [mine,phase] at before
  simp only [Server.step,live,Bool.false_eq_true,↓reduceIte,phase]
  cases processed : processMessage hardware clientID w cmd (s.server.context lastStatus changedAddrIndex) with
  | error e c' => exact serves.leave _ _ _ _ e
  | ok _ c' =>
    have running : Server.phaseOf { s.server.setPhase clientID (.running c'.lastStatus c'.changedAddrIndex) with
        globals := c'.globals } clientID = some (.running c'.lastStatus c'.changedAddrIndex) :=
      (Server.phaseOf_same rfl clientID).trans
        ((Server.phaseOf_setPhase s.server clientID clientID _).trans (by rw [if_pos rfl,phase]; rfl))
    dsimp only
    rw [running]
    exact serves.turn c s.server.globals lastStatus changedAddrIndex w cmd so c' kept.shaped (mine ▸ happens) before
      (mine ▸ processed)

/-- One step. -/
theorem step_kept (s : WireServer β) (label : WireLabel)
    (happens : ∀ clientID w, label = .turn clientID w → turned clientID s.server.globals w)
    (kept : Kept lokdef standing s) : Kept lokdef standing (step hardware s label) := by
  by_cases halted : s.server.halted = true
  · simp only [step,halted,↓reduceIte]
    exact kept
  have live : s.server.halted = false := Bool.eq_false_iff.mpr halted
  simp only [step,live,Bool.false_eq_true,↓reduceIte]
  cases label with
  | accept so =>
    have counter : (Server.step hardware s.server .accept).clientID_counter = s.server.clientID_counter + 1 := by
      simp only [Server.step,live,Bool.false_eq_true,↓reduceIte]
    refine ⟨@Kept.shape _ hardware _ _ _ kept .accept,@Server.step_fresh _ hardware s.server .accept kept.fresh,?_,?_⟩
    · intro c member
      show c.clientID < (Server.step hardware s.server .accept).clientID_counter
      rw [counter]
      rcases List.mem_append.mp member with old | new
      · exact Int.lt_add_one_of_le (Int.le_of_lt (kept.below c old))
      · rw [List.mem_singleton.mp new]
        exact Int.lt_succ _
    · intro c member
      show standing c ((Server.step hardware s.server .accept).phaseOf c.clientID)
      rcases List.mem_append.mp member with old | new
      · rw [Server.step_others s.server .accept c.clientID (by simp [threadOf]) (kept.below c old)]
        exact kept.standing c old
      · -- no thread has had this number
        have none_before : s.server.clients.find? (fun client => client.clientID == s.server.clientID_counter) = none := by
          refine List.find?_eq_none.mpr (fun client there => ?_)
          have below := kept.fresh client there
          simp only [beq_iff_eq]
          omega
        rw [List.mem_singleton.mp new]
        simp only [Server.step,live,Bool.false_eq_true,↓reduceIte,Server.phaseOf,List.find?_append,none_before]
        simpa using serves.accepted s.server.clientID_counter so
  | hangup clientID =>
    refine kept.silent _ clientID rfl (fun c member mine => ?_)
    have before := kept.standing c member
    rw [mine] at before
    simp only [Server.step,live,Bool.false_eq_true,↓reduceIte]
    split
    · exact serves.closed c s.server clientID
    · exact before
  | destroy clientID =>
    refine kept.silent _ clientID rfl (fun c member mine => ?_)
    have before := kept.standing c member
    rw [mine] at before
    simp only [Server.step,live,Bool.false_eq_true,↓reduceIte]
    split
    · have gone : List.find? (fun client : Client =>
          decide (decide (client.clientID ≠ clientID) = true ∧ (client.clientID == clientID) = true))
            s.server.clients = none := by
        refine List.find?_eq_none.mpr (fun client _ => ?_)
        simp
      simp only [Server.phaseOf,List.find?_filter,gone,Option.map_none]
      exact serves.gone c
    · exact before
  | turn clientID w =>
    dsimp only
    split
    · rename_i phase
      exact kept.helo serves live clientID w phase
    · rename_i lastStatus changedAddrIndex phase
      split
      · rename_i c _
        cases read : CommThread.readMessage protocolDat c.so with
        | error e =>
          simp only [serve,read]
          refine kept.silent _ clientID rfl (fun c _ mine => ?_)
          simp only [Server.step,live,Bool.false_eq_true,↓reduceIte,phase]
          exact serves.closed c s.server clientID
        | ok next =>
          simp only [serve,read]
          exact kept.turn serves live w next.1 next.2 phase (happens clientID w rfl)
      · exact kept
    · exact kept

/-- The rule for whole runs. -/
theorem Serves.run (device : β) (labels : List WireLabel)
    (happens : ∀ front clientID w, front ++ [.turn clientID w] <+: labels →
      turned clientID (run hardware (start lokdef device) front).server.globals w) :
    Kept lokdef standing (run hardware (start lokdef device) labels) := by
  refine Transition.run_front (fun front label within kept => ?_) ?_
  · refine step_kept serves _ label ?_ kept
    rintro clientID w rfl
    exact happens front clientID w within
  · refine ⟨Records.refl Shaped.refl lokdef,?_,?_,?_⟩ <;> intro c member <;> cases member

end Turns

end WireServer

end Btcontrol
