import Btcontrol.Server

/-! What one message, and with it one step of the server, can do to the loco table: a
command writes it, and then the backend does what backends do. -/
namespace Btcontrol

open Exec ClientThread

section

variable {β : Type}

/-- The part of a message before the hardware loop. -/
inductive Commanded (w : World) (cmd : FBTCtlMessage) (g g' : Globals β) : Prop where
  | driven (command : Command) (p : Plan) (branch : commandOf w cmd = .ok (some command))
      (planned : plan w cmd g.lokdef command = some p)
      (written : g' = { g with lokdef := writeAll p.write.apply p.named g.lokdef })
  | quiet (records : Records Idle g.lokdef g'.lokdef)

theorem Commanded.refl (w : World) (cmd : FBTCtlMessage) (g : Globals β) : Commanded w cmd g g :=
  .quiet (Records.refl Idle.refl _)

theorem context_closed (refused : β → Prop) :
    Closed (fun c c' : Ctx β => Effect refused c.globals c'.globals) :=
  ⟨fun c => (effect_closed refused).refl c.globals,fun _ _ _ => (effect_closed refused).trans _ _ _⟩

theorem onGlobals_moves {α : Type} {rel : Globals β → Globals β → Prop} {m : EStateM Err (Globals β) α}
    (moved : Moves rel m) : Moves (fun c c' : Ctx β => rel c.globals c'.globals) (onGlobals m) := by
  intro c
  rw [onGlobals,final_focus]
  exact moved c.globals

variable (hardware : Hardware β)

theorem sendLoco_effect (clientID : Int) (i : Nat) (emergencyStop : Bool) :
    Moves (fun c c' => Effect hardware.refused c.globals c'.globals)
      (ClientThread.sendLoco hardware clientID i emergencyStop) := by
  have closed := context_closed hardware.refused
  refine moves_bind closed (moves_modify _ (fun c => (effect_closed _).refl c.globals)) (fun _ => ?_)
  refine moves_bind closed ?_ (fun _ => ?_)
  · refine onGlobals_moves (setLok_effect hardware.refused i _ ?_)
    exact fun _ l => ⟨rfl,rfl,rfl,rfl,rfl,.inl rfl⟩
  refine moves_bind closed (moves_modify _ (fun c => (effect_closed _).refl c.globals)) (fun _ => ?_)
  exact onGlobals_moves (hardware.sendLoco_effect clientID i emergencyStop)

theorem hardwareLoop_effect (clientID : Int) (indices : List Nat) (emergencyStop : Bool) :
    Moves (fun c c' => Effect hardware.refused c.globals c'.globals)
      (hardwareLoop hardware clientID indices emergencyStop) := by
  have closed := context_closed hardware.refused
  induction indices generalizing emergencyStop with
  | nil => exact moves_pure closed _
  | cons i rest ih =>
    refine moves_bind closed (moves_get closed) (fun c => ?_)
    apply moves_ite
    · exact moves_bind closed (sendLoco_effect hardware clientID i emergencyStop) (fun _ => ih false)
    · exact ih emergencyStop

theorem POWER_effect (w : World) (cmd : FBTCtlMessage) :
    Moves (Still (Effect hardware.refused)) (POWER hardware w cmd) :=
  POWER_still (effect_closed _) hardware hardware.pwrOn_effect hardware.pwrOff_effect w cmd

/-- One message: the command, then the backend. -/
theorem processMessage_globals (clientID : Int) (w : World) (cmd : FBTCtlMessage) (c : Ctx β) :
    ∃ g, Commanded w cmd c.globals g ∧
      Effect hardware.refused g (final (processMessage hardware clientID w cmd c)).globals := by
  rw [processMessage,bind_apply]
  cases branch : commandOf w cmd with
  | error e => exact ⟨c.globals,.refl w cmd c.globals,(effect_closed _).refl _⟩
  | ok command =>
    rw [lift_ok]
    -- whatever the command does, the backend's part follows on the state it leaves
    have executed : ∃ g, Commanded w cmd c.globals g ∧
        Effect hardware.refused g (final (execute hardware w cmd command c)).globals := by
      cases planned : command.bind (plan w cmd c.lokdef) with
      | none =>
        by_cases power : command = some .POWER
        · subst power
          exact ⟨c.globals,.refl w cmd c.globals,(POWER_effect hardware w cmd c).globals⟩
        · have quiet := execute_quiet (respects_any hardware) w cmd c.lokdef command planned
            (fun is => absurd is power) c
          exact ⟨_,.quiet quiet.records,(effect_closed _).refl _⟩
      | some p =>
        obtain ⟨name,rfl,planned⟩ := Option.bind_eq_some_iff.mp planned
        exact ⟨_,.driven name p branch planned (execute_driven hardware w cmd name c p planned).globals,
          (effect_closed _).refl _⟩
    obtain ⟨g,commanded,effect⟩ := executed
    refine ⟨g,commanded,(effect_closed _).trans _ _ _ effect ?_⟩
    show Effect _ _ (final ((execute hardware w cmd command >>= fun emergencyStop =>
      get >>= fun c' => hardwareLoop hardware clientID (List.range c'.changedAddrIndex.length) emergencyStop) c)).globals
    rw [bind_apply]
    cases execute hardware w cmd command c with
    | error e c' => exact (effect_closed _).refl _
    | ok emergencyStop c' => exact hardwareLoop_effect hardware clientID _ emergencyStop c'

theorem destructor_effect (clientID : Int) (last : Bool) :
    Moves (Effect hardware.refused) (Server.destructor hardware clientID last) :=
  moves_bind (effect_closed _) (hardware.fullstop_effect clientID last true)
    (fun _ => onDevice_effect (hardware.clientDisconnected_kept last))

/-- Before its main loop a thread only tells the backend that a client is there. -/
theorem sendHelo_leaves {device : β → β → Prop} (closed : Closed device)
    (connected : Moves device hardware.clientConnected) (w : World) :
    Moves (Still (Leaves device)) (sendHelo hardware w) := by
  have leaves := leaves_closed closed
  have still := still_closed leaves
  refine moves_bind still (onGlobals_still (onDevice_leaves connected)) (fun _ => ?_)
  refine moves_bind still (moves_lift still _) (fun _ => ?_)
  refine moves_bind still (moves_lift still _) (fun _ => ?_)
  refine moves_bind still (moves_lift still _) (fun _ => ?_)
  exact moves_bind still (moves_lift still _) (fun m => sendMessage_still leaves w m)

theorem sendHelo_lokdef (w : World) :
    Moves (fun c c' : Ctx β => c'.lokdef = c.lokdef) (sendHelo hardware w) := by
  intro c
  have any : Closed (fun _ _ : β => True) := ⟨fun _ => trivial,fun _ _ _ _ _ => trivial⟩
  exact (sendHelo_leaves hardware any (fun _ => trivial) w c).globals.1

structure Turn (s : Server β) (label : Label) (clientID : Int) (w : World) (cmd : FBTCtlMessage) : Prop where
  label : label = .message clientID w cmd
  running : ∃ lastStatus changedAddrIndex, s.phaseOf clientID = some (.running lastStatus changedAddrIndex)
  live : s.halted = false

/-- All that a step can do to the loco table. -/
inductive Stepped (s : Server β) (label : Label) (g : Globals β) : Prop where
  | idle (same : g.lokdef = s.lokdef)
  | turn (clientID : Int) (w : World) (cmd : FBTCtlMessage) (turn : Turn s label clientID w cmd)
      (mid : Globals β) (commanded : Commanded w cmd s.globals mid) (effect : Effect hardware.refused mid g)
  | stopped (effect : Effect hardware.refused s.globals g)

theorem step_stepped (s : Server β) (label : Label) :
    Stepped hardware s label (Server.step hardware s label).globals := by
  by_cases halted : s.halted = true
  · rw [Server.step_halted hardware s label halted]
    exact .idle rfl
  have live : s.halted = false := Bool.eq_false_iff.mpr halted
  cases label <;> simp only [Server.step,live,Bool.false_eq_true,↓reduceIte]
  case accept => exact .idle rfl
  case readFails clientID =>
    split <;> exact .idle rfl
  case helo clientID w =>
    split
    · have same := sendHelo_lokdef hardware w (s.context [] [])
      cases outcome : sendHelo hardware w (s.context [] []) with
      | ok _ c => rw [outcome] at same; exact .idle same
      | error e c => rw [outcome] at same; exact .idle same
    · exact .idle rfl
  case message clientID w cmd =>
    split
    · rename_i lastStatus changedAddrIndex phase
      obtain ⟨mid,commanded,effect⟩ := processMessage_globals hardware clientID w cmd
        (s.context lastStatus changedAddrIndex)
      have turn : Turn s (.message clientID w cmd) clientID w cmd := ⟨rfl,⟨_,_,phase⟩,live⟩
      cases outcome : processMessage hardware clientID w cmd (s.context lastStatus changedAddrIndex) with
      | ok _ c => rw [outcome] at effect; exact .turn clientID w cmd turn mid commanded effect
      | error e c => rw [outcome] at effect; exact .turn clientID w cmd turn mid commanded effect
    · exact .idle rfl
  case destroy clientID =>
    split
    · exact .stopped (destructor_effect hardware clientID _ s.globals)
    · exact .idle rfl

end

end Btcontrol
