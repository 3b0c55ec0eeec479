import Btcontrol.Status

/-! What the driving commands do, as one description for all eight: the records they
write before anything stops them, the value they write, and what stops them. Lookups read
addresses only and no command changes an address, so all of it follows from the table the
command starts with. -/
namespace Btcontrol.ClientThread

open DataType FBTCtlMessage Exec

/-- The one field a driving command writes. -/
inductive Write where
  | speed (value : Int)
  | dir (value : Int)
  deriving DecidableEq, Repr

def Write.apply : Write → Lokdef → Lokdef
  | .speed value => setSpeed value
  | .dir value => setDir value

/-- A driving command on a given table: the positions it writes, in the order of the
command, up to the first element that fails. -/
structure Plan where
  named : List Nat
  write : Write
  error : Option Err
  emergencyStop : Bool
  deriving DecidableEq, Repr

def located (lokdef : List Lokdef) (addr : Except Err Int) : Except Err Nat := do
  getAddrIndex lokdef (← addr)

def resolve (cmd : FBTCtlMessage) (lokdef : List Lokdef) : List Nat → List Nat × Option Err
  | [] => ([], none)
  | i :: rest => match located lokdef (addrAt cmd i) with
    | .error e => ([], some e)
    | .ok addr_index => (addr_index :: (resolve cmd lokdef rest).1, (resolve cmd lokdef rest).2)

def failing (e : Err) : Plan := ⟨[], .speed 0, some e, false⟩

def speedAt (lokdef : List Lokdef) (addr_index : Nat) : Int := (lokdef[addr_index]?.getD .zeroed).currspeed

def planOne (cmd : FBTCtlMessage) (speed : Int → Int) (emergencyStop : Bool) (lokdef : List Lokdef) : Plan :=
  match located lokdef (getInt cmd "addr") with
  | .error e => failing e
  | .ok addr_index => ⟨[addr_index], .speed (speed (speedAt lokdef addr_index)), none, emergencyStop⟩

def planDir (cmd : FBTCtlMessage) (lokdef : List Lokdef) : Plan :=
  match located lokdef (getInt cmd "addr") with
  | .error e => failing e
  | .ok addr_index => match getInt cmd "dir" with
    | .error e => failing e
    | .ok dir =>
      if dir ≠ 1 ∧ dir ≠ -1 then failing .invalidDir
      else if speedAt lokdef addr_index ≠ 0 then failing .speedNotZero
      else ⟨[addr_index], .dir dir, none, false⟩

def planMulti (cmd : FBTCtlMessage) (speed : Int → Int) (lokdef : List Lokdef) : Plan :=
  match arraySize cmd with
  | .error e => failing e
  | .ok n => match located lokdef (addrAt cmd 0) with
    | .error e => failing e
    | .ok addr_index =>
      let others := resolve cmd lokdef (List.range' 1 (n - 1))
      ⟨addr_index :: others.1, .speed (speed (speedAt lokdef addr_index)), others.2, false⟩

def planDirMulti (cmd : FBTCtlMessage) (lokdef : List Lokdef) : Plan :=
  match arraySize cmd with
  | .error e => failing e
  | .ok n => match getInt cmd "dir" with
    | .error e => failing e
    | .ok dir =>
      let all := resolve cmd lokdef (List.range n)
      ⟨all.1, .dir dir, all.2, false⟩

def planStopMulti (cmd : FBTCtlMessage) (lokdef : List Lokdef) : Plan :=
  match arraySize cmd with
  | .error e => failing e
  | .ok n =>
    let all := resolve cmd lokdef (List.range n)
    ⟨all.1, .speed 0, all.2, true⟩

/-- The plan of a driving command; the other commands have none. -/
def plan (w : World) (cmd : FBTCtlMessage) (lokdef : List Lokdef) : Command → Option Plan
  | .ACC => some (planOne cmd (faster w.SPEED_STEP) false lokdef)
  | .BREAK => some (planOne cmd (slower w.SPEED_STEP 0) false lokdef)
  | .STOP => some (planOne cmd (fun _ => 0) true lokdef)
  | .DIR => some (planDir cmd lokdef)
  | .ACC_MULTI => some (planMulti cmd (faster w.SPEED_STEP) lokdef)
  | .BREAK_MULTI => some (planMulti cmd (slower w.SPEED_STEP (-255)) lokdef)
  | .DIR_MULTI => some (planDirMulti cmd lokdef)
  | .STOP_MULTI => some (planStopMulti cmd lokdef)
  | _ => none

def writeAll (f : Lokdef → Lokdef) (named : List Nat) (lokdef : List Lokdef) : List Lokdef :=
  named.foldl (fun lokdef i => lokdef.modify i f) lokdef

def markAll (named : List Nat) (changedAddrIndex : List Bool) : List Bool :=
  named.foldl (fun changedAddrIndex i => changedAddrIndex.set i true) changedAddrIndex

theorem setLoko_apply {β : Type} (i : Nat) (f : Lokdef → Lokdef) (c : Ctx β) :
    setLoko i f c = .ok () { c with globals := { c.globals with lokdef := c.lokdef.modify i f } } := rfl

theorem mark_apply {β : Type} (i : Nat) (c : Ctx β) :
    mark i c = .ok () { c with changedAddrIndex := c.changedAddrIndex.set i true } := rfl

theorem addrIndex_apply {β : Type} (addr : Except Err Int) (c : Ctx β) :
    addrIndex addr c = lift (located c.lokdef addr) c := by
  cases addr <;> rfl

/-- A write that leaves the address alone leaves every lookup alone. -/
theorem located_modify (lokdef : List Lokdef) (i : Nat) (f : Lokdef → Lokdef)
    (kept : ∀ l, (f l).addr = l.addr) (addr : Except Err Int) :
    located (lokdef.modify i f) addr = located lokdef addr := by
  have records : Records (fun l l' => l'.addr = l.addr) lokdef (lokdef.modify i f) := by
    apply Records.modify
    · exact fun _ => rfl
    · exact fun l _ => kept l
  have same := records.map_eq Lokdef.addr (fun _ _ h => h)
  cases addr with
  | error e => rfl
  | ok addr => exact getAddrIndex_congr same addr

theorem resolve_modify (cmd : FBTCtlMessage) (lokdef : List Lokdef) (i : Nat) (f : Lokdef → Lokdef)
    (kept : ∀ l, (f l).addr = l.addr) (indices : List Nat) :
    resolve cmd (lokdef.modify i f) indices = resolve cmd lokdef indices := by
  induction indices with
  | nil => rfl
  | cons first rest ih => simp only [resolve,located_modify lokdef i f kept,ih]

/-- The loop writes and marks exactly the resolved positions. -/
theorem setEach_apply {β : Type} (cmd : FBTCtlMessage) (f : Lokdef → Lokdef)
    (kept : ∀ l, (f l).addr = l.addr) (indices : List Nat) (c : Ctx β) :
    setEach cmd f indices c =
      let c' := { c with
        globals := { c.globals with lokdef := writeAll f (resolve cmd c.lokdef indices).1 c.lokdef }
        changedAddrIndex := markAll (resolve cmd c.lokdef indices).1 c.changedAddrIndex }
      match (resolve cmd c.lokdef indices).2 with
      | none => .ok () c'
      | some e => .error e c' := by
  induction indices generalizing c with
  | nil => rfl
  | cons i rest ih =>
    simp only [setEach,bind_apply,addrIndex_apply,resolve]
    cases here : located c.lokdef (addrAt cmd i) with
    | error e => rfl
    | ok addr_index =>
      simp only [lift_ok,setLoko_apply,mark_apply,ih,resolve_modify cmd c.lokdef addr_index f kept,
        writeAll,markAll,List.foldl_cons]

theorem Write.apply_addr (write : Write) (l : Lokdef) : (write.apply l).addr = l.addr := by
  cases write <;> rfl

theorem Write.apply_twice (write : Write) (l : Lokdef) : write.apply (write.apply l) = write.apply l := by
  cases write <;> rfl

/-- A position named twice is written twice with the same value. -/
theorem writeAll_getElem? (write : Write) (named : List Nat) (lokdef : List Lokdef) (i : Nat) :
    (writeAll write.apply named lokdef)[i]? =
      if i ∈ named then (lokdef[i]?).map write.apply else lokdef[i]? := by
  induction named generalizing lokdef with
  | nil => simp [writeAll]
  | cons first rest ih =>
    have head := ih (lokdef.modify first write.apply)
    rw [List.getElem?_modify] at head
    simp only [writeAll,List.foldl_cons] at head ⊢
    rw [head]
    by_cases same : first = i
    · subst same
      cases lokdef[first]? <;> simp [Write.apply_twice]
    · have other : i ≠ first := Ne.symm same
      simp [same,other]

theorem writeAll_addrs (write : Write) (named : List Nat) (lokdef : List Lokdef) :
    (writeAll write.apply named lokdef).map Lokdef.addr = lokdef.map Lokdef.addr := by
  apply List.ext_getElem?
  intro i
  rw [List.getElem?_map,List.getElem?_map,writeAll_getElem?]
  split
  · cases lokdef[i]? <;> simp [Write.apply_addr]
  · rfl

/-- The new speed of a record is computed from the record itself. -/
theorem modify_speed (speed : Int → Int) (lokdef : List Lokdef) (i : Nat) :
    lokdef.modify i (fun l => setSpeed (speed l.currspeed) l) =
      lokdef.modify i (setSpeed (speed (speedAt lokdef i))) := by
  apply List.ext_getElem?
  intro j
  rw [List.getElem?_modify,List.getElem?_modify]
  by_cases same : i = j
  · subst same
    cases here : lokdef[i]? <;> simp [speedAt,here]
  · simp [same]

/-- A driving command did what its plan says: the table is written whatever happens then;
only a command that resolves all it names and can reply returns. -/
structure Driven {β : Type} (p : Plan) (w : World) (c : Ctx β) (r : EStateM.Result Err (Ctx β) Bool) :
    Prop where
  globals : (final r).globals =
    { c.globals with lokdef := writeAll p.write.apply p.named c.lokdef }
  calls : (final r).sendLocos = c.sendLocos
  outcome : (∃ e c', p.error = some e ∧ r = .error e c') ∨
    (p.error = none ∧ w.connected = false ∧ ∃ c', r = .error .notConnected c') ∨
    (p.error = none ∧ w.connected = true ∧ ∃ c', r = .ok p.emergencyStop c' ∧
      c'.changedAddrIndex = markAll p.named c.changedAddrIndex)

theorem driven_failing {β : Type} (e : Err) (w : World) (c : Ctx β) :
    Driven (failing e) w c (.error e c) :=
  ⟨rfl,rfl,.inl ⟨e,c,rfl,rfl⟩⟩

/-- The end of the commands for one loco: it is written, the reply, the mark. -/
theorem writeOne_driven {β : Type} (w : World) (i : Nat) (f : Lokdef → Lokdef) (write : Write) (emergencyStop : Bool)
    (c : Ctx β) (same : c.lokdef.modify i f = c.lokdef.modify i write.apply) :
    Driven ⟨[i], write, none, emergencyStop⟩ w c
      ((do setLoko i f; sendStatusReply w; mark i; return emergencyStop : Action β Bool) c) := by
  simp only [bind_apply,setLoko_apply,same]
  cases connected : w.connected with
  | true =>
    simp only [sendStatusReply_sent w connected,mark_apply]
    exact ⟨rfl,rfl,.inr (.inr ⟨rfl,connected,_,rfl,rfl⟩)⟩
  | false =>
    simp only [sendStatusReply_closed w connected]
    exact ⟨rfl,rfl,.inr (.inl ⟨rfl,connected,_,rfl⟩)⟩

theorem driveOne_driven {β : Type} (w : World) (cmd : FBTCtlMessage) (speed : Int → Int)
    (emergencyStop : Bool) (c : Ctx β) :
    Driven (planOne cmd speed emergencyStop c.lokdef) w c (driveOne w cmd speed emergencyStop c) := by
  rw [driveOne,bind_apply,addrIndex_apply,planOne]
  cases located c.lokdef (getInt cmd "addr") with
  | error e => exact driven_failing e w c
  | ok i => exact writeOne_driven w i _ (.speed _) emergencyStop c (modify_speed speed c.lokdef i)

theorem DIR_driven {β : Type} (w : World) (cmd : FBTCtlMessage) (c : Ctx β) :
    Driven (planDir cmd c.lokdef) w c (DIR w cmd c) := by
  simp only [DIR,bind_apply,addrIndex_apply,planDir]
  cases located c.lokdef (getInt cmd "addr") with
  | error e => exact driven_failing e w c
  | ok i =>
    simp only [lift_ok]
    cases getInt cmd "dir" with
    | error e => exact driven_failing e w c
    | ok dir =>
      simp only [lift_ok]
      by_cases invalid : dir ≠ 1 ∧ dir ≠ -1
      · simp only [invalid,and_self,↓reduceIte,ne_eq,not_false_eq_true]
        exact driven_failing .invalidDir w c
      by_cases moving : (c.lokdef[i]?.getD .zeroed).currspeed ≠ 0
      · simp only [invalid,moving,speedAt,↓reduceIte,bind_apply,get_apply,ne_eq,not_false_eq_true]
        exact driven_failing .speedNotZero w c
      simp only [invalid,moving,speedAt,↓reduceIte,bind_apply,get_apply,ne_eq]
      exact writeOne_driven w i (setDir dir) (.dir dir) false c rfl

/-- The end of the four multi commands: the loop, the reply, the flag. -/
theorem setEach_driven {β : Type} (w : World) (cmd : FBTCtlMessage) (write : Write) (emergencyStop : Bool)
    (indices : List Nat) (c : Ctx β) :
    Driven ⟨(resolve cmd c.lokdef indices).1, write, (resolve cmd c.lokdef indices).2, emergencyStop⟩ w c
      ((do setEach cmd write.apply indices; sendStatusReply w; return emergencyStop : Action β Bool) c) := by
  simp only [bind_apply,setEach_apply cmd write.apply write.apply_addr]
  cases (resolve cmd c.lokdef indices).2 with
  | some e => exact ⟨rfl,rfl,.inl ⟨e,_,rfl,rfl⟩⟩
  | none =>
    cases connected : w.connected with
    | true =>
      simp only [sendStatusReply_sent w connected]
      exact ⟨rfl,rfl,.inr (.inr ⟨rfl,connected,_,rfl,rfl⟩)⟩
    | false =>
      simp only [sendStatusReply_closed w connected]
      exact ⟨rfl,rfl,.inr (.inl ⟨rfl,connected,_,rfl⟩)⟩

def wrote {β : Type} (c : Ctx β) (i : Nat) (write : Write) : Ctx β := { c with
  globals := { c.globals with lokdef := c.lokdef.modify i write.apply }
  changedAddrIndex := c.changedAddrIndex.set i true }

theorem wrote_lokdef {β : Type} (c : Ctx β) (i : Nat) (write : Write) :
    (wrote c i write).lokdef = c.lokdef.modify i write.apply := rfl

/-- A position written and marked before the rest. -/
theorem driven_cons {β : Type} (p : Plan) (w : World) (c : Ctx β) (i : Nat)
    (r : EStateM.Result Err (Ctx β) Bool) (rest : Driven p w (wrote c i p.write) r) :
    Driven { p with named := i :: p.named } w c r :=
  ⟨rest.globals,rest.calls,rest.outcome⟩

theorem located_record {lokdef : List Lokdef} {addr : Except Err Int} {i : Nat}
    (found : located lokdef addr = .ok i) :
    i < nLokdef lokdef ∧ First lokdef i := by
  cases addr with
  | error e => cases found
  | ok addr =>
    obtain ⟨_,bound,l,record,same⟩ := getAddrIndex_located found
    exact ⟨bound,l,record,same ▸ found⟩

theorem driveMulti_driven {β : Type} (w : World) (cmd : FBTCtlMessage) (speed : Int → Int) (c : Ctx β) :
    Driven (planMulti cmd speed c.lokdef) w c (driveMulti w cmd speed c) := by
  simp only [driveMulti,bind_apply,planMulti]
  cases arraySize cmd with
  | error e => exact driven_failing e w c
  | ok n =>
    simp only [lift_ok,addrIndex_apply]
    cases found : located c.lokdef (addrAt cmd 0) with
    | error e => exact driven_failing e w c
    | ok i =>
      obtain ⟨_,l,record,_⟩ := located_record found
      -- the speed read back for the others is the one just written
      have readBack : ((c.lokdef.modify i (setSpeed (speed (speedAt c.lokdef i))))[i]?.getD .zeroed).currspeed =
          speed (speedAt c.lokdef i) := by
        simp [record,setSpeed]
      have rest := setEach_driven w cmd (.speed (speed (speedAt c.lokdef i))) false
        (List.range' 1 (n - 1)) (wrote c i (.speed (speed (speedAt c.lokdef i))))
      rw [wrote_lokdef,resolve_modify cmd c.lokdef i _ (Write.apply_addr _)] at rest
      simp only [lift_ok,setLoko_apply,modify_speed,mark_apply,get_apply,readBack]
      exact driven_cons _ w c i _ rest

theorem DIR_MULTI_driven {β : Type} (w : World) (cmd : FBTCtlMessage) (c : Ctx β) :
    Driven (planDirMulti cmd c.lokdef) w c (DIR_MULTI w cmd c) := by
  rw [DIR_MULTI,bind_apply,planDirMulti]
  cases arraySize cmd with
  | error e => exact driven_failing e w c
  | ok n =>
    simp only [lift_ok]
    rw [bind_apply]
    cases getInt cmd "dir" with
    | error e => exact driven_failing e w c
    | ok dir => exact setEach_driven w cmd (.dir dir) false (List.range n) c

theorem STOP_MULTI_driven {β : Type} (w : World) (cmd : FBTCtlMessage) (c : Ctx β) :
    Driven (planStopMulti cmd c.lokdef) w c (STOP_MULTI w cmd c) := by
  rw [STOP_MULTI,bind_apply,planStopMulti]
  cases arraySize cmd with
  | error e => exact driven_failing e w c
  | ok n => exact setEach_driven w cmd (.speed 0) true (List.range n) c

/-- Every driving command follows its plan. -/
theorem execute_driven {β : Type} (hardware : Hardware β) (w : World) (cmd : FBTCtlMessage)
    (command : Command) (c : Ctx β) (p : Plan) (planned : plan w cmd c.lokdef command = some p) :
    Driven p w c (execute hardware w cmd (some command) c) := by
  cases command with
  | ACC => cases planned; exact driveOne_driven w cmd (faster w.SPEED_STEP) false c
  | BREAK => cases planned; exact driveOne_driven w cmd (slower w.SPEED_STEP 0) false c
  | STOP => cases planned; exact driveOne_driven w cmd (fun _ => 0) true c
  | DIR => cases planned; exact DIR_driven w cmd c
  | ACC_MULTI => cases planned; exact driveMulti_driven w cmd (faster w.SPEED_STEP) c
  | BREAK_MULTI => cases planned; exact driveMulti_driven w cmd (slower w.SPEED_STEP (-255)) c
  | DIR_MULTI => cases planned; exact DIR_MULTI_driven w cmd c
  | STOP_MULTI => cases planned; exact STOP_MULTI_driven w cmd c
  | _ => cases planned

theorem resolve_first (cmd : FBTCtlMessage) (lokdef : List Lokdef) (indices : List Nat) :
    ∀ i ∈ (resolve cmd lokdef indices).1, i < nLokdef lokdef ∧ First lokdef i := by
  induction indices with
  | nil => simp [resolve]
  | cons first rest ih =>
    simp only [resolve]
    cases found : located lokdef (addrAt cmd first) with
    | error e => simp
    | ok addr_index =>
      intro i member
      rcases List.mem_cons.mp member with rfl | later
      · exact located_record found
      · exact ih i later

/-- A plan names locos only, each where lookups find it. -/
theorem plan_first (w : World) (cmd : FBTCtlMessage) (lokdef : List Lokdef) (command : Command) (p : Plan)
    (planned : plan w cmd lokdef command = some p) :
    ∀ i ∈ p.named, i < nLokdef lokdef ∧ First lokdef i := by
  have one (speed : Int → Int) (emergencyStop : Bool) :
      ∀ i ∈ (planOne cmd speed emergencyStop lokdef).named, i < nLokdef lokdef ∧ First lokdef i := by
    simp only [planOne]
    cases found : located lokdef (getInt cmd "addr") with
    | error e => simp [failing]
    | ok addr_index =>
      intro i member
      rw [List.mem_singleton] at member
      exact member ▸ located_record found
  have multi (speed : Int → Int) :
      ∀ i ∈ (planMulti cmd speed lokdef).named, i < nLokdef lokdef ∧ First lokdef i := by
    simp only [planMulti]
    cases arraySize cmd with
    | error e => simp [failing]
    | ok n =>
      cases found : located lokdef (addrAt cmd 0) with
      | error e => simp [failing]
      | ok addr_index =>
        intro i member
        rcases List.mem_cons.mp member with rfl | later
        · exact located_record found
        · exact resolve_first cmd lokdef _ i later
  cases command with
  | ACC => cases planned; exact one (faster w.SPEED_STEP) false
  | BREAK => cases planned; exact one (slower w.SPEED_STEP 0) false
  | STOP => cases planned; exact one (fun _ => 0) true
  | ACC_MULTI => cases planned; exact multi (faster w.SPEED_STEP)
  | BREAK_MULTI => cases planned; exact multi (slower w.SPEED_STEP (-255))
  | DIR =>
    cases planned
    simp only [planDir]
    cases found : located lokdef (getInt cmd "addr") with
    | error e => simp [failing]
    | ok addr_index =>
      cases getInt cmd "dir" with
      | error e => simp [failing]
      | ok dir =>
        simp only
        split
        · simp [failing]
        · split
          · simp [failing]
          · intro i member
            rw [List.mem_singleton] at member
            exact member ▸ located_record found
  | DIR_MULTI =>
    cases planned
    simp only [planDirMulti]
    cases arraySize cmd with
    | error e => simp [failing]
    | ok n =>
      cases getInt cmd "dir" with
      | error e => simp [failing]
      | ok dir => exact resolve_first cmd lokdef _
  | STOP_MULTI =>
    cases planned
    simp only [planStopMulti]
    cases arraySize cmd with
    | error e => simp [failing]
    | ok n => exact resolve_first cmd lokdef _
  | _ => cases planned

/-- Only a command that sets the speed to 0 is an emergency stop. -/
theorem plan_emergency {w : World} {cmd : FBTCtlMessage} {lokdef : List Lokdef} {command : Command} {p : Plan}
    (planned : plan w cmd lokdef command = some p) (emergency : p.emergencyStop = true) : p.write = .speed 0 := by
  have one (speed : Int → Int) (calm : (planOne cmd speed false lokdef).emergencyStop = true) : False := by
    simp only [planOne] at calm
    split at calm <;> cases calm
  have multi (speed : Int → Int) (calm : (planMulti cmd speed lokdef).emergencyStop = true) : False := by
    simp only [planMulti] at calm
    repeat' split at calm
    all_goals cases calm
  cases command with
  | ACC => cases planned; exact (one _ emergency).elim
  | BREAK => cases planned; exact (one _ emergency).elim
  | ACC_MULTI => cases planned; exact (multi _ emergency).elim
  | BREAK_MULTI => cases planned; exact (multi _ emergency).elim
  | STOP =>
    cases planned
    simp only [planOne]
    split <;> rfl
  | DIR =>
    cases planned
    simp only [planDir] at emergency
    repeat' split at emergency
    all_goals cases emergency
  | DIR_MULTI =>
    cases planned
    simp only [planDirMulti] at emergency
    repeat' split at emergency
    all_goals cases emergency
  | STOP_MULTI =>
    cases planned
    simp only [planStopMulti]
    split <;> rfl
  | _ => cases planned

end Btcontrol.ClientThread
