import Btcontrol.Drive

/-! The commands that do not drive. Whatever they return or throw, they leave speeds and
directions alone, and what they do to the backend is what its own state allows. -/
namespace Btcontrol.ClientThread

open DataType FBTCtlMessage Exec

/-- A record whose functions alone may have been switched. -/
structure Idle (l l' : Lokdef) : Prop where
  addr : l'.addr = l.addr
  flags : l'.flags = l.flags
  currspeed : l'.currspeed = l.currspeed
  currdir : l'.currdir = l.currdir
  initDone : l'.initDone = l.initDone
  lastClientID : l'.lastClientID = l.lastClientID
  names : l'.func.map Func.name = l.func.map Func.name

theorem Idle.refl (l : Lokdef) : Idle l l := ⟨rfl,rfl,rfl,rfl,rfl,rfl,rfl⟩

theorem Idle.trans {l m n : Lokdef} (first : Idle l m) (second : Idle m n) : Idle l n :=
  ⟨second.addr.trans first.addr,second.flags.trans first.flags,second.currspeed.trans first.currspeed,
    second.currdir.trans first.currdir,second.initDone.trans first.initDone,
    second.lastClientID.trans first.lastClientID,second.names.trans first.names⟩

/-- A part of a command that drives nothing, where `device` tells what the backend's own
state may do. New marks are on locos. -/
structure Quiet {β : Type} (device : β → β → Prop) (c c' : Ctx β) : Prop where
  records : Records Idle c.lokdef c'.lokdef
  device : device c.globals.device c'.globals.device
  marked : ∀ i : Nat, c'.changedAddrIndex[i]? = some true →
    c.changedAddrIndex[i]? = some true ∨ First c.lokdef i
  slots : c'.changedAddrIndex.length = c.changedAddrIndex.length
  calls : c'.sendLocos = c.sendLocos

/-- The operations of a backend that do not get the table. -/
structure Respects {β : Type} (hardware : Hardware β) (device : β → β → Prop) : Prop where
  closed : Closed device
  sendPOM : ∀ addr cv value, Moves device (hardware.sendPOM addr cv value)
  sendPOMBit : ∀ addr cv bitNr value, Moves device (hardware.sendPOMBit addr cv bitNr value)

theorem respects_any {β : Type} (hardware : Hardware β) : Respects hardware (fun _ _ => True) :=
  ⟨⟨fun _ => trivial,fun _ _ _ _ _ => trivial⟩,fun _ _ _ _ => trivial,fun _ _ _ _ _ => trivial⟩

/-- The table stays as it is. -/
def Leaves {β : Type} (device : β → β → Prop) (g g' : Globals β) : Prop :=
  g'.lokdef = g.lokdef ∧ device g.device g'.device

/-- A backend whose power commands do not touch the table. That of the ESP32 does. -/
structure PowersOnly {β : Type} (hardware : Hardware β) (device : β → β → Prop) : Prop where
  pwrOn : Moves (Leaves device) hardware.pwrOn
  pwrOff : Moves (Leaves device) hardware.pwrOff

theorem Quiet.addrs {β : Type} {device : β → β → Prop} {c c' : Ctx β} (quiet : Quiet device c c') :
    c'.lokdef.map Lokdef.addr = c.lokdef.map Lokdef.addr :=
  quiet.records.map_eq Lokdef.addr (fun _ _ idle => idle.addr)

section

variable {β : Type} {device : β → β → Prop}

theorem quiet_closed (closed : Closed device) : Closed (Quiet device) := by
  constructor
  · intro c
    exact ⟨Records.refl Idle.refl _,closed.refl _,fun _ => .inl,rfl,rfl⟩
  · intro a b c first second
    refine ⟨Records.trans (fun _ _ _ before after => before.trans after) first.records second.records,
      closed.trans _ _ _ first.device second.device,?_,second.slots.trans first.slots,
      second.calls.trans first.calls⟩
    intro i flag
    rcases second.marked i flag with before | here
    · exact first.marked i before
    · exact .inr (first_congr first.addrs.symm here)

/-- What `SETFUNC` asks for: the loco, the function and its value. -/
def requested (cmd : FBTCtlMessage) (lokdef : List Lokdef) : Except Err (Nat × Int × Int) := do
  let addr_index ← located lokdef (getInt cmd "addr")
  let funcNr ← getInt cmd "funcnr"
  let value ← getInt cmd "value"
  return (addr_index, funcNr, value)

theorem requested_located {cmd : FBTCtlMessage} {lokdef : List Lokdef} {request : Nat × Int × Int}
    (asked : requested cmd lokdef = .ok request) : located lokdef (getInt cmd "addr") = .ok request.1 := by
  simp only [requested] at asked
  cases found : located lokdef (getInt cmd "addr") with
  | error e => rw [found] at asked; cases asked
  | ok i =>
    rw [found] at asked
    cases given : getInt cmd "funcnr" with
    | error e => rw [given] at asked; cases asked
    | ok funcNr =>
      rw [given] at asked
      cases number : getInt cmd "value" with
      | error e => rw [number] at asked; cases asked
      | ok value =>
        rw [number] at asked
        cases asked
        rfl

theorem SETFUNC_apply (w : World) (cmd : FBTCtlMessage) (c : Ctx β) :
    SETFUNC w cmd c = match requested cmd c.lokdef with
      | .error e => .error e c
      | .ok (i, funcNr, value) =>
        (do setLoko i (setFunc funcNr value); sendStatusReply w; mark i; return false : Action β Bool) c := by
  simp only [SETFUNC,bind_apply,addrIndex_apply,requested]
  cases located c.lokdef (getInt cmd "addr") with
  | error e => rfl
  | ok i =>
    cases getInt cmd "funcnr" with
    | error e => rfl
    | ok funcNr => cases getInt cmd "value" <;> rfl

theorem setFunc_idle (funcNr value : Int) (l : Lokdef) : Idle l (setFunc funcNr value l) := by
  simp only [setFunc]
  split
  · refine ⟨rfl,rfl,rfl,rfl,rfl,rfl,?_⟩
    apply Vector.ext
    intro j bound
    simp only [Vector.getElem_map,Vector.getElem_setIfInBounds]
    split
    · rename_i same
      subst same
      simp [bound]
    · rfl
  · exact Idle.refl l

theorem SETFUNC_quiet (closed : Closed device) (w : World) (cmd : FBTCtlMessage) :
    Moves (Quiet device) (SETFUNC w cmd : Action β Bool) := by
  intro c
  rw [SETFUNC_apply]
  cases asked : requested cmd c.lokdef with
  | error e => exact (quiet_closed closed).refl c
  | ok request =>
    obtain ⟨i,funcNr,value⟩ := request
    have found := requested_located asked
    have records : Records Idle c.lokdef (c.lokdef.modify i (setFunc funcNr value)) := by
      apply Records.modify Idle.refl
      exact fun l _ => setFunc_idle funcNr value l
    simp only [bind_apply,setLoko_apply]
    cases connected : w.connected with
    | true =>
      simp only [sendStatusReply_sent w connected,mark_apply]
      refine ⟨records,closed.refl _,?_,List.length_set,rfl⟩
      intro j flag
      by_cases same : i = j
      · exact .inr (same ▸ (located_record found).2)
      · refine .inl ?_
        simpa [List.getElem?_set,same] using flag
    | false =>
      simp only [sendStatusReply_closed w connected]
      exact ⟨records,closed.refl _,fun _ => .inl,rfl,rfl⟩

end

structure Still {β : Type} (rel : Globals β → Globals β → Prop) (c c' : Ctx β) : Prop where
  globals : rel c.globals c'.globals
  marks : c'.changedAddrIndex = c.changedAddrIndex
  calls : c'.sendLocos = c.sendLocos

section

variable {β : Type} {rel : Globals β → Globals β → Prop}

theorem still_closed (closed : Closed rel) : Closed (Still rel) :=
  ⟨fun _ => ⟨closed.refl _,rfl,rfl⟩,fun _ _ _ first second =>
    ⟨closed.trans _ _ _ first.globals second.globals,second.marks.trans first.marks,
      second.calls.trans first.calls⟩⟩

theorem sendStatusReply_still (closed : Closed rel) (w : World) :
    Moves (Still rel) (sendStatusReply w : Action β Unit) := by
  intro c
  cases connected : w.connected with
  | true =>
    rw [sendStatusReply_sent w connected]
    exact ⟨closed.refl _,rfl,rfl⟩
  | false =>
    rw [sendStatusReply_closed w connected]
    exact ⟨closed.refl _,rfl,rfl⟩

theorem sendMessage_still (closed : Closed rel) (w : World) (m : FBTCtlMessage) :
    Moves (Still rel) (sendMessage w m : Action β Unit) := by
  apply moves_ite
  · refine moves_bind (still_closed closed) (moves_lift (still_closed closed) _) (fun _ => ?_)
    apply moves_modify
    intro c
    exact ⟨closed.refl _,rfl,rfl⟩
  · exact moves_throw (still_closed closed) _

theorem addrIndex_still (closed : Closed rel) (addr : Except Err Int) :
    Moves (Still rel) (addrIndex addr : Action β Nat) := by
  intro c
  rw [addrIndex_apply]
  exact moves_lift (still_closed closed) _ c

theorem onGlobals_still {α : Type} {m : EStateM Err (Globals β) α} (moved : Moves rel m) :
    Moves (Still rel) (onGlobals m) :=
  moves_focus moved (fun _ _ part => ⟨part,rfl,rfl⟩)

/-- A command that ends with its reply. -/
theorem reply_still (closed : Closed rel) (w : World) (m : FBTCtlMessage) (emergencyStop : Bool) :
    Moves (Still rel) (do sendMessage w m; return emergencyStop : Action β Bool) :=
  moves_bind (still_closed closed) (sendMessage_still closed w m) (fun _ => moves_pure (still_closed closed) _)

theorem sendValue_still (closed : Closed rel) (w : World) (name : String) (value : Int) :
    Moves (Still rel) (sendValue w name value : Action β Bool) := by
  refine moves_bind (still_closed closed) (moves_lift (still_closed closed) _) (fun _ => ?_)
  refine moves_bind (still_closed closed) (moves_lift (still_closed closed) _) (fun _ => ?_)
  exact reply_still closed w _ false

/-- `POWER` does to the globals what the backend does. -/
theorem POWER_still (closed : Closed rel) (hardware : Hardware β) (pwrOn : Moves rel hardware.pwrOn)
    (pwrOff : Moves rel hardware.pwrOff) (w : World) (cmd : FBTCtlMessage) :
    Moves (Still rel) (POWER hardware w cmd) := by
  have switched (value : Int) : Moves rel (setPower hardware value) :=
    moves_ite (moves_pure closed _) (moves_ite pwrOn pwrOff)
  refine moves_bind (still_closed closed) (moves_lift (still_closed closed) _) (fun value => ?_)
  refine moves_bind (still_closed closed) (onGlobals_still (switched value)) (fun _ => ?_)
  exact moves_bind (still_closed closed) (moves_get (still_closed closed)) (fun _ => sendValue_still closed w _ _)

end

section

variable {β : Type} {device : β → β → Prop}

theorem leaves_closed (closed : Closed device) : Closed (Leaves device) :=
  ⟨fun _ => ⟨rfl,closed.refl _⟩,fun _ _ _ first second =>
    ⟨second.1.trans first.1,closed.trans _ _ _ first.2 second.2⟩⟩

theorem onDevice_leaves {α : Type} {m : EStateM Err β α} (moved : Moves device m) :
    Moves (Leaves device) (onDevice m) := moves_focus moved (fun _ _ moved => ⟨rfl,moved⟩)

theorem Still.quiet {c c' : Ctx β} (still : Still (Leaves device) c c') : Quiet device c c' := by
  refine ⟨?_,still.globals.2,fun i flag => .inl (still.marks ▸ flag),congrArg List.length still.marks,still.calls⟩
  rw [Ctx.lokdef,Ctx.lokdef,still.globals.1]
  exact Records.refl Idle.refl _

end

/-- No command without a plan drives, and but for `SETFUNC` it leaves the whole table. What
`POWER` does is the backend's. -/
theorem execute_still {β : Type} {device : β → β → Prop} {hardware : Hardware β}
    (respects : Respects hardware device) (w : World) (cmd : FBTCtlMessage) (lokdef : List Lokdef)
    (command : Option Command) (unplanned : command.bind (plan w cmd lokdef) = none)
    (noFunc : command ≠ some .SETFUNC) (power : command = some .POWER → PowersOnly hardware device) :
    Moves (Still (Leaves device)) (execute hardware w cmd command) := by
  have closed := leaves_closed respects.closed
  have lifted {α : Type} (x : Except Err α) : Moves (Still (Leaves device)) (lift x : Action β α) :=
    moves_lift (still_closed closed) x
  have read : Moves (Still (Leaves device)) (get : Action β (Ctx β)) := moves_get (still_closed closed)
  have returned : Moves (Still (Leaves device)) (pure false : Action β Bool) := moves_pure (still_closed closed) _
  have seq {α γ : Type} {m : Action β α} {f : α → Action β γ} (first : Moves (Still (Leaves device)) m)
      (next : ∀ a, Moves (Still (Leaves device)) (f a)) : Moves (Still (Leaves device)) (m >>= f) :=
    moves_bind (still_closed closed) first next
  have found (addr : Except Err Int) : Moves (Still (Leaves device)) (addrIndex addr : Action β Nat) :=
    addrIndex_still closed addr
  match command with
  | none => exact returned
  | some .PING => exact seq (sendStatusReply_still closed w) (fun _ => returned)
  | some .SETFUNC => exact absurd rfl noFunc
  | some .GETLOCOS =>
    exact seq (lifted _) (fun _ => seq read (fun _ => seq (lifted _) (fun _ => reply_still closed w _ false)))
  | some .GETFUNCTIONS =>
    exact seq (found _) (fun _ => seq (lifted _) (fun _ => seq read (fun _ => seq (lifted _)
      (fun _ => reply_still closed w _ false))))
  | some .POWER => exact POWER_still closed hardware (power rfl).pwrOn (power rfl).pwrOff w cmd
  | some .POM =>
    exact seq (found _) (fun _ => seq (lifted _) (fun _ => seq (lifted _) (fun _ => seq read
      (fun _ => seq (onGlobals_still (onDevice_leaves (respects.sendPOM _ _ _)))
        (fun _ => sendValue_still closed w _ _)))))
  | some .POMBIT =>
    exact seq (found _) (fun _ => seq (lifted _) (fun _ => seq (lifted _) (fun _ => seq (lifted _)
      (fun _ => seq read (fun _ => seq (onGlobals_still (onDevice_leaves (respects.sendPOMBit _ _ _ _)))
        (fun _ => sendValue_still closed w _ _))))))
  | some .GETIMAGE =>
    exact seq (lifted _) (fun _ => seq (lifted _) (fun _ => reply_still closed w _ false))
  | some .HELO_ERR =>
    exact seq (lifted _) (fun _ => seq (lifted _) (fun _ => seq (lifted _) (fun _ => returned)))
  | some .BTSCAN =>
    exact seq (lifted _) (fun _ => seq (lifted _) (fun _ => reply_still closed w _ false))
  | some .BTPUSH =>
    exact seq (lifted _) (fun _ => seq (lifted _) (fun _ => seq (lifted _) (fun _ => seq (lifted _)
      (fun _ => reply_still closed w _ false))))
  | some .ACC | some .BREAK | some .STOP | some .DIR | some .ACC_MULTI | some .BREAK_MULTI
  | some .DIR_MULTI | some .STOP_MULTI => cases unplanned

/-- What all commands without a plan have in common. -/
theorem execute_quiet {β : Type} {device : β → β → Prop} {hardware : Hardware β}
    (respects : Respects hardware device) (w : World) (cmd : FBTCtlMessage) (lokdef : List Lokdef)
    (command : Option Command) (unplanned : command.bind (plan w cmd lokdef) = none)
    (power : command = some .POWER → PowersOnly hardware device) :
    Moves (Quiet device) (execute hardware w cmd command) := by
  by_cases func : command = some .SETFUNC
  · subst func
    exact SETFUNC_quiet respects.closed w cmd
  · intro c
    exact (execute_still respects w cmd lokdef command unplanned func power c).quiet

end Btcontrol.ClientThread
