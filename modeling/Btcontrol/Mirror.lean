import Btcontrol.Answers
import Btcontrol.RemoteLokdef

/-! What the ESP32 control shows of the locos: the table that the callbacks of its commands and the STATUS_REPLYs of
`ControlClientThread::run` fill, beside that of the server. -/
namespace Btcontrol

open DataType Bytes FBTCtlMessage CommThread ClientThread Exec

namespace RemoteLokdef

/-- The callbacks that write the table: that of GETLOCOS, and that of GETFUNCTIONS, which writes the loco that is
selected when the reply comes. -/
def callback (selectedAddrIndex : Nat) (cmd reply : FBTCtlMessage) : EStateM Err (Option (List Lokdef)) Unit := do
  match ← lift (commandIn cmd (commands false)) with
  | some .GETLOCOS =>
    if ← lift (reply.isType protocolDat (str "GETLOCOS_REPLY")) then set (some (← lift (initLokdef reply)))
    else throw .abort
  | some .GETFUNCTIONS =>
    if ← lift (reply.isType protocolDat (str "GETFUNCTIONS_REPLY")) then
      match ← get with
      | some lokdef => set (some (← lift (initLokdefFunctions lokdef selectedAddrIndex reply)))
      | none => throw .abort
    else throw .abort
  | _ => pure ()

/-- What one round of `run` does with a reply. -/
def round (selectedAddrIndex : Nat) (cmd reply : FBTCtlMessage) : EStateM Err (Option (List Lokdef)) Unit := do
  callback selectedAddrIndex cmd reply
  if ← lift (reply.isType protocolDat (str "STATUS_REPLY")) then STATUS_REPLY reply

def rounds (selectedAddrIndex : Nat → Nat) : Nat → List (FBTCtlMessage × FBTCtlMessage) →
    EStateM Err (Option (List Lokdef)) Unit
  | _, [] => pure ()
  | k, (cmd, reply) :: rest => do
    round (selectedAddrIndex k) cmd reply
    rounds selectedAddrIndex (k + 1) rest

theorem rounds_snoc (selectedAddrIndex : Nat → Nat) (k : Nat) (done : List (FBTCtlMessage × FBTCtlMessage))
    (cmd reply : FBTCtlMessage) : rounds selectedAddrIndex k (done ++ [(cmd, reply)]) = (do
      rounds selectedAddrIndex k done
      round (selectedAddrIndex (k + done.length)) cmd reply) := by
  induction done generalizing k with
  | nil =>
    funext s
    show rounds selectedAddrIndex k [(cmd, reply)] s = round (selectedAddrIndex k) cmd reply s
    rw [rounds,bind_apply]
    cases round (selectedAddrIndex k) cmd reply s <;> rfl
  | cons pair rest ih =>
    funext s
    simp only [List.cons_append,rounds,ih,List.length_cons,bind_apply]
    rw [Nat.add_assoc,Nat.add_comm 1]
    cases round (selectedAddrIndex k) pair.1 pair.2 s <;> rfl

/-! ### One reply -/

/-- The record shows this speed, direction and, where its functions count, these functions. -/
structure Shows (functionsCount : Prop) (record : Lokdef) (speed functions : Int) : Prop where
  currspeed : record.currspeed = absInt speed
  currdir : record.currdir = if speed ≥ 0 then 1 else -1
  ison : functionsCount → ∀ (f : Nat) (bound : f < MAX_NFUNC), record.func[f].ison = bitSet functions f

/-- The table shows what a client knows; `written` are the records `initLokdefFunctions` has written. -/
def Pictures (written : Nat → Prop) (table : List Lokdef) (view : View) : Prop :=
  ∀ addr speed functions, view addr = some (speed, functions) → ∃ i record, getAddrIndex table addr = .ok i ∧
    table[i]? = some record ∧ Shows (¬ written i) record speed functions

theorem Pictures.mono {written more : Nat → Prop} {table : List Lokdef} {view : View}
    (pictures : Pictures written table view) (weaker : ∀ i, written i → more i) : Pictures more table view := by
  intro addr speed functions knows
  obtain ⟨i,record,found,there,shows⟩ := pictures addr speed functions knows
  exact ⟨i,record,found,there,shows.currspeed,shows.currdir,fun count => shows.ison (fun is => count (weaker i is))⟩

theorem changeLok_shows (functionsCount : Prop) (speed functions : Int) (l : Lokdef) :
    Shows functionsCount (changeLok speed functions l) speed functions := by
  refine ⟨rfl,rfl,?_⟩
  intro _ f bound
  simp [changeLok]

theorem modify_addrs {table : List Lokdef} {j : Nat} {f : Lokdef → Lokdef} (addr : ∀ l, (f l).addr = l.addr) :
    (table.modify j f).map Lokdef.addr = table.map Lokdef.addr := by
  have records : Records (fun l l' => l'.addr = l.addr) table (table.modify j f) := by
    apply Records.modify
    · exact fun _ => rfl
    · exact fun l _ => addr l
  exact records.map_eq Lokdef.addr (fun _ _ same => same)

theorem changeLok_addr (speed functions : Int) (l : Lokdef) : (changeLok speed functions l).addr = l.addr := by
  simp only [changeLok]

theorem setFunctions_addr (nFunc : Nat) (room : nFunc < MAX_NFUNC) (func : Vector Func MAX_NFUNC) (l : Lokdef) :
    (setFunctions nFunc room func l).addr = l.addr := by
  simp only [setFunctions]

/-- One entry of a STATUS_REPLY. -/
theorem Pictures.learn {written : Nat → Prop} {table : List Lokdef} {view : View} (pictures : Pictures written table view)
    {l : Lokdef} {j : Nat} (found : getAddrIndex table l.addr = .ok j) :
    Pictures written (table.modify j (changeLok (statusSpeed l) l.functions)) (learned view l) := by
  have same := @modify_addrs table j _ (changeLok_addr (statusSpeed l) l.functions)
  obtain ⟨_,_,own,there,_⟩ := getAddrIndex_located found
  intro addr speed functions knows
  rw [getAddrIndex_congr same]
  by_cases mine : addr = l.addr
  · subst mine
    simp only [learned,View.learn,↓reduceIte,Option.some.injEq,Prod.mk.injEq] at knows
    obtain ⟨rfl,rfl⟩ := knows
    exact ⟨j,_,found,by simp [there],changeLok_shows _ _ _ own⟩
  · simp only [learned,View.learn,mine,↓reduceIte] at knows
    obtain ⟨i,record,place,here,shows⟩ := pictures addr speed functions knows
    have apart : j ≠ i := by
      rintro rfl
      obtain ⟨_,_,other,there',addr'⟩ := getAddrIndex_located place
      obtain ⟨_,_,first,there'',addr''⟩ := getAddrIndex_located found
      rw [there'] at there''
      cases there''
      exact mine (addr'.symm.trans addr'')
    exact ⟨i,record,place,by simp [apart,here],shows⟩

theorem statusTurns_changed {written : Nat → Prop} (before after : List Lokdef) {table : List Lokdef} {view : View}
    (listed : ∀ l ∈ after, ∃ j, getAddrIndex table l.addr = .ok j) (pictures : Pictures written table view) :
    ∃ table', statusTurns (infoReply 8 ((before ++ after).map statusEntry)) after.length before.length (some table) =
      .ok () (some table') ∧ table'.map Lokdef.addr = table.map Lokdef.addr ∧
      Pictures written table' (after.foldl learned view) := by
  induction after generalizing before table view with
  | nil => exact ⟨table,rfl,rfl,pictures⟩
  | cons l rest ih =>
    obtain ⟨j,found⟩ := listed l List.mem_cons_self
    have here : infoAt (infoReply 8 ((before ++ l :: rest).map statusEntry)) before.length = .ok (statusEntry l) :=
      infoAt_entry (show STRUCT < 8 by decide) (by simp)
    have same := @modify_addrs table j _ (changeLok_addr (statusSpeed l) l.functions)
    obtain ⟨table',ran,addrs,shown⟩ := ih (before ++ [l])
      (fun other member => by rw [getAddrIndex_congr same]; exact listed other (List.mem_cons_of_mem _ member))
      (pictures.learn found)
    rw [List.append_assoc,List.singleton_append,List.length_append,List.length_singleton] at ran
    refine ⟨table',?_,addrs.trans same,shown⟩
    rw [List.length_cons,statusTurns_turn here found rfl rfl rfl]
    exact ran

theorem restricted_status (changed : List Lokdef) :
    restricted protocolDat (statusReply (changed.map statusEntry)) = infoReply 8 (changed.map statusEntry) := by
  have received : restricted protocolDat (statusReply (changed.map statusEntry)) = infoReply 8 _ :=
    @restricted_info 8 statusFields rfl (changed.map statusEntry)
  rw [received,List.map_map]
  rfl

/-- A STATUS_REPLY, on a table that has all locos of which it can tell. -/
theorem STATUS_REPLY_changed {written : Nat → Prop} (changed : List Lokdef) {table : List Lokdef} {view : View}
    (listed : ∀ l ∈ changed, ∃ j, getAddrIndex table l.addr = .ok j) (pictures : Pictures written table view) :
    ∃ table', STATUS_REPLY (restricted protocolDat (statusReply (changed.map statusEntry))) (some table) =
      .ok () (some table') ∧ table'.map Lokdef.addr = table.map Lokdef.addr ∧
      Pictures written table' (changed.foldl learned view) := by
  have size := infoSize_entries (show STRUCT < 8 by decide) (changed.map statusEntry)
  rw [List.length_map] at size
  obtain ⟨table',ran,addrs,shown⟩ := statusTurns_changed [] changed listed pictures
  refine ⟨table',?_,addrs,shown⟩
  rw [restricted_status,STATUS_REPLY,bind_apply,size]
  exact ran

/-- A GETFUNCTIONS_REPLY writes the functions of the selected record. -/
theorem initLokdefFunctions_written {written : Nat → Prop} {table : List Lokdef} {view : View} (selected : Nat)
    {listed : List Func} (few : listed.length < MAX_NFUNC) (pictures : Pictures written table view) :
    ∃ table', initLokdefFunctions table selected (functionsReceived listed) = .ok table' ∧
      table'.map Lokdef.addr = table.map Lokdef.addr ∧ Pictures (fun i => written i ∨ selected = i) table' view := by
  obtain ⟨func,loop,_⟩ := initFuncs_entries listed [] ((table[selected]?.getD .zeroed).func)
    (by rw [List.length_nil]; omega)
  rw [List.nil_append,List.length_nil] at loop
  have same := @modify_addrs table selected _ (setFunctions_addr listed.length few func)
  refine ⟨table.modify selected (setFunctions listed.length few func),?_,same,?_⟩
  · simp only [initLokdefFunctions,functionsReceived_size,loop,bind,Except.bind,few,↓reduceDIte,pure,Except.pure]
  · intro addr speed functions knows
    obtain ⟨i,record,found,there,shows⟩ := pictures addr speed functions knows
    rw [getAddrIndex_congr same]
    by_cases apart : selected = i
    · subst apart
      refine ⟨selected,setFunctions listed.length few func record,found,by simp [there],shows.currspeed,shows.currdir,?_⟩
      exact fun count => absurd (.inr rfl) count
    · refine ⟨i,record,found,by simp [apart,there],shows.currspeed,shows.currdir,?_⟩
      exact fun count => shows.ison (fun is => count (.inl is))

end RemoteLokdef

/-! ### What a client knows -/

namespace ClientThread

/-- What the thread keeps of a client is what the client knows behind the reply, also of locos without a direction. -/
theorem known_learned (lokdef : List Lokdef) (lastStatus : List LastStatus) (view : View)
    (distinct : ((locos lokdef).map Lokdef.addr).Nodup) (known : Known lokdef lastStatus view) :
    Known lokdef (nextStatus lokdef lastStatus) ((changedLocos lokdef lastStatus).foldl learned view) := by
  induction lokdef generalizing lastStatus view with
  | nil => exact trivial
  | cons first rest ih =>
    cases lastStatus with
    | nil => exact trivial
    | cons last others =>
      by_cases stop : first.addr = 0
      · simp only [nextStatus,changedLocos,stop,↓reduceIte]
        exact .inl stop
      rw [locos_cons stop] at distinct
      obtain ⟨absent,distinctRest⟩ := List.nodup_cons.mp (List.map_cons ▸ distinct)
      have untouched : first.addr ∉ (changedLocos rest others).map Lokdef.addr := by
        intro member
        obtain ⟨l,changed,same⟩ := List.mem_map.mp member
        exact absent (List.mem_map.mpr ⟨l,changedLocos_subset rest others l changed,same⟩)
      rcases known with zero | ⟨here,later⟩
      · exact absurd zero stop
      simp only [nextStatus,changedLocos,stop,↓reduceIte]
      by_cases differs : Differs first last
      · simp only [differs,↓reduceIte,List.foldl_cons]
        refine .inr ⟨fun _ => ?_,ih others _ distinctRest (known_learn rest others view first absent later)⟩
        rw [learned_other _ _ _ untouched]
        simp only [learned,View.learn,↓reduceIte]
        rfl
      · simp only [differs,↓reduceIte]
        refine .inr ⟨fun sent => ?_,ih others view distinctRest later⟩
        rw [learned_other _ _ _ untouched]
        exact here sent

/-- A loco that is as it was last sent is known as it is. -/
theorem Known.exactly {lokdef : List Lokdef} {lastStatus : List LastStatus} {view : View}
    (known : Known lokdef lastStatus view) {i : Nat} {l : Lokdef} {last : LastStatus}
    (listed : (locos lokdef)[i]? = some l) (kept : lastStatus[i]? = some last) (same : ¬ Differs l last)
    (directed : l.currdir ≠ 0) : view l.addr = some (statusSpeed l, l.functions) := by
  induction lokdef generalizing lastStatus i with
  | nil => cases listed
  | cons first rest ih =>
    by_cases stop : first.addr = 0
    · rw [locos_end stop] at listed
      cases listed
    rw [locos_cons stop] at listed
    cases lastStatus with
    | nil => cases kept
    | cons last' others =>
      rcases known with zero | ⟨here,later⟩
      · exact absurd zero stop
      cases i with
      | succ i => exact ih later listed kept
      | zero =>
        cases listed
        cases kept
        simp only [Differs,not_or,Decidable.not_not] at same
        obtain ⟨speed,func,dir⟩ := same
        rw [here (dir ▸ directed)]
        simp only [keptSpeed,statusSpeed,speed,func,dir]

end ClientThread

/-! ### One command of the control -/

namespace RemoteLokdef

/-- The table has the locos of the server, and shows of them what the thread keeps of its client. -/
structure Mirrors (lokdef : List Lokdef) (written : Nat → Prop) (lastStatus : List LastStatus) (table : List Lokdef) :
    Prop where
  addrs : table.map Lokdef.addr = (locos lokdef).map Lokdef.addr ++ [0]
  slots : nLokdef lokdef < lastStatus.length
  shown : ∃ view, Known lokdef lastStatus view ∧ Pictures written table view

theorem Mirrors.mono {lokdef table : List Lokdef} {written more : Nat → Prop} {lastStatus : List LastStatus}
    (mirrors : Mirrors lokdef written lastStatus table) (weaker : ∀ i, written i → more i) :
    Mirrors lokdef more lastStatus table := by
  obtain ⟨view,known,pictures⟩ := mirrors.shown
  exact ⟨mirrors.addrs,mirrors.slots,view,known,pictures.mono weaker⟩

theorem getAddrIndex_listed (addrs : List Int) (used : ∀ addr ∈ addrs, addr ≠ 0) (distinct : addrs.Nodup)
    {table : List Lokdef} (same : table.map Lokdef.addr = addrs ++ [0]) {i : Nat} {addr : Int}
    (listed : addrs[i]? = some addr) : getAddrIndex table addr = .ok i := by
  induction addrs generalizing table i with
  | nil => cases listed
  | cons first rest ih =>
    obtain ⟨absent,distinct⟩ := List.nodup_cons.mp distinct
    cases table with
    | nil => cases same
    | cons l table =>
      obtain ⟨head,tail⟩ := List.cons.inj same
      have nonzero : l.addr ≠ 0 := head ▸ used first List.mem_cons_self
      cases i with
      | zero =>
        cases listed
        rw [getAddrIndex,if_neg nonzero,if_pos head]
      | succ i =>
        have there : rest[i]? = some addr := listed
        have apart : l.addr ≠ addr := by
          rw [head]
          rintro rfl
          exact absent (List.mem_of_getElem? there)
        have later := ih (fun other member => used other (List.mem_cons_of_mem _ member)) distinct tail there
        rw [getAddrIndex,if_neg nonzero,if_neg apart,later]
        rfl

theorem restricted_type (m : FBTCtlMessage) : (restricted protocolDat m).type = m.type := by
  simp only [restricted]
  split <;> rfl

theorem isType_id {m : FBTCtlMessage} {name : String} {type : Nat}
    (id : messageTypeID protocolDat (str name) = .ok type) :
    m.isType protocolDat (str name) = .ok (m.type == type) := by
  simp only [isType,id,bind,Except.bind,pure,Except.pure]

theorem callback_plain {cmd : FBTCtlMessage} {command : Command}
    (taken : commandIn cmd (commands false) = .ok (some command)) (noLocos : command ≠ .GETLOCOS)
    (noFunctions : command ≠ .GETFUNCTIONS) (selected : Nat) (reply : FBTCtlMessage) (table : Option (List Lokdef)) :
    callback selected cmd reply table = .ok () table := by
  rw [callback,bind_apply,taken,lift_ok]
  cases command <;> first | rfl | contradiction

section Round

variable {β : Type} {hardware : Hardware β} {w : World} {lokdef : List Lokdef} {globals : Globals β}
  {lastStatus after : List LastStatus} {command : Command} {cmd reply : FBTCtlMessage} {written : Nat → Prop}
  {table : List Lokdef} (selected : Nat)

/-- A round whose reply is no STATUS_REPLY. -/
theorem round_callback {m : FBTCtlMessage} (other : m.type ≠ 8) (before : Option (List Lokdef)) :
    round selected cmd m before = callback selected cmd m before := by
  have type : m.isType protocolDat (str "STATUS_REPLY") = .ok false := by
    rw [@isType_id m "STATUS_REPLY" 8 rfl]
    simp [other]
  rw [round,bind_apply]
  cases callback selected cmd m before with
  | error e s => rfl
  | ok _ s =>
    simp only [bind_apply,type,lift_ok]
    rfl

/-- The first command: the reply to GETLOCOS brings the table. -/
theorem round_locos (written : Nat → Prop) (taken : commandIn cmd (commands false) = .ok (some .GETLOCOS))
    (told : Replied hardware w cmd globals lastStatus .GETLOCOS reply after)
    (same : globals.lokdef.map Lokdef.addr = lokdef.map Lokdef.addr) (fresh : lastStatus = initialStatus lokdef) : ∃ table',
      round selected cmd (restricted protocolDat reply) none = .ok () (some table') ∧
      Mirrors lokdef written after table' := by
  cases told with
  | status named => simp [replyName] at named
  | locos =>
    have type := restricted_type (infoReply 23 ((locos globals.lokdef).map locoEntry))
    have titled : (restricted protocolDat (infoReply 23 ((locos globals.lokdef).map locoEntry))).isType protocolDat
        (str "GETLOCOS_REPLY") = .ok true := by
      rw [@isType_id _ "GETLOCOS_REPLY" 23 rfl,type]
      rfl
    refine ⟨(locos globals.lokdef).map firstRecord ++ [.zeroed],?_,?_,?_,fun _ => none,?_,?_⟩
    · have other : (restricted protocolDat (infoReply 23 ((locos globals.lokdef).map locoEntry))).type ≠ 8 := by
        rw [type]
        exact show 23 ≠ 8 by decide
      rw [round_callback selected other]
      simp only [callback,bind_apply,taken,lift_ok,titled,initLokdef_locos]
      rfl
    · rw [List.map_append,List.map_map,← locos_addrs_congr same]
      rfl
    · rw [fresh,initialStatus,List.length_replicate]
      exact Nat.lt_succ_self _
    · rw [fresh]
      exact known_initial lokdef _ _
    · intro addr speed functions knows
      cases knows

/-- A reply that the table has nothing to do with. -/
theorem round_plain (taken : commandIn cmd (commands false) = .ok (some command)) (noLocos : command ≠ .GETLOCOS)
    (noFunctions : command ≠ .GETFUNCTIONS) (other : reply.type ≠ 8) (table : List Lokdef) :
    round selected cmd (restricted protocolDat reply) (some table) = .ok () (some table) := by
  rw [round_callback selected (by rw [restricted_type]; exact other)]
  exact callback_plain taken noLocos noFunctions selected _ _

/-- Any other. -/
theorem round_told (taken : commandIn cmd (commands false) = .ok (some command)) (again : command ≠ .GETLOCOS)
    (told : Replied hardware w cmd globals lastStatus command reply after)
    (shaped : Records Shaped lokdef globals.lokdef)
    (few : ∀ l ∈ lokdef, l.nFunc < MAX_NFUNC) (distinct : ((locos lokdef).map Lokdef.addr).Nodup)
    (mirrors : Mirrors lokdef written lastStatus table) : ∃ table',
      round selected cmd (restricted protocolDat reply) (some table) = .ok () (some table') ∧
      Mirrors lokdef (fun i => written i ∨ command = .GETFUNCTIONS ∧ selected = i) after table' := by
  have same : globals.lokdef.map Lokdef.addr = lokdef.map Lokdef.addr := shaped.map_eq Lokdef.addr (fun _ _ shape => shape.addr)
  obtain ⟨view,known,pictures⟩ := mirrors.shown
  cases told with
  | locos => exact absurd rfl again
  | status named =>
    have noFunctions : command ≠ .GETFUNCTIONS := by
      rintro rfl
      simp [replyName] at named
    have listed : ∀ l ∈ changedLocos globals.lokdef lastStatus, ∃ j, getAddrIndex table l.addr = .ok j := by
      intro l member
      have there : l.addr ∈ (locos lokdef).map Lokdef.addr := by
        rw [← locos_addrs_congr same]
        exact List.mem_map_of_mem (changedLocos_subset globals.lokdef lastStatus l member)
      obtain ⟨j,place⟩ := List.mem_iff_getElem?.mp there
      refine ⟨j,getAddrIndex_listed _ ?_ distinct mirrors.addrs place⟩
      intro addr member
      obtain ⟨l,used,rfl⟩ := List.mem_map.mp member
      simpa using List.mem_takeWhile_imp used
    obtain ⟨table',ran,addrs,shown⟩ := STATUS_REPLY_changed (changedLocos globals.lokdef lastStatus) listed pictures
    have titled : (restricted protocolDat (statusReply ((changedLocos globals.lokdef lastStatus).map statusEntry))).isType
        protocolDat (str "STATUS_REPLY") = .ok true := by
      rw [@isType_id _ "STATUS_REPLY" 8 rfl,restricted_type]
      rfl
    have slots := mirrors.slots
    rw [← nextStatus_length globals.lokdef lastStatus] at slots
    refine ⟨table',?_,addrs.trans mirrors.addrs,slots,_,?_,shown.mono (fun i is => .inl is)⟩
    · rw [round,bind_apply,callback_plain taken again noFunctions]
      simp only [bind_apply,titled,lift_ok]
      exact ran
    · have distinctNow : ((locos globals.lokdef).map Lokdef.addr).Nodup := by
        rw [locos_addrs_congr same]
        exact distinct
      exact known_congr _ _ same.symm (known_learned globals.lokdef lastStatus view distinctNow (known_congr _ _ same known))
  | functions i l _ there =>
    have room : (listedFuncs l).length < MAX_NFUNC := by
      obtain ⟨first,here,shape⟩ := shaped.before there
      have bound := few first (List.mem_of_getElem? here)
      have some : 0 < MAX_NFUNC := by decide
      rw [listedFuncs_length,shape.nFunc]
      omega
    obtain ⟨table',ran,addrs,shown⟩ := initLokdefFunctions_written selected room pictures
    have received := restricted_functions (listedFuncs l)
    have type : (functionsReceived (listedFuncs l)).type = 21 := rfl
    have titled : (functionsReceived (listedFuncs l)).isType protocolDat (str "GETFUNCTIONS_REPLY") = .ok true := by
      rw [@isType_id _ "GETFUNCTIONS_REPLY" 21 rfl,type]
      rfl
    refine ⟨table',?_,addrs.trans mirrors.addrs,mirrors.slots,view,known,shown.mono ?_⟩
    · rw [listedFuncs] at received
      rw [received,← listedFuncs,round_callback selected (by rw [type]; decide)]
      simp only [callback,bind_apply,taken,lift_ok,titled,↓reduceIte,get_apply,ran]
      rfl
    · rintro j (before | now)
      · exact .inl before
      · exact .inr ⟨rfl,now⟩
  | power | pom | pombit | image =>
    refine ⟨table,?_,mirrors.addrs,mirrors.slots,view,known,pictures.mono (fun i is => .inl is)⟩
    exact round_plain selected taken again (by decide) (by simp [FBTCtlMessage.type,valueReply]) table
  | btscan | btpush => exact absurd (commandIn_mem taken) (by decide)

end Round

/-! ### The whole connection -/

/-- Each command has a reply, and the first of them, but no other, is GETLOCOS. -/
def LocosFirst (cmds : List FBTCtlMessage) : Prop := ∀ (k : Nat) (cmd : FBTCtlMessage), cmds[k]? = some cmd →
  ∃ command, commandIn cmd (commands false) = .ok (some command) ∧ (replyName command).isSome ∧
    (command = .GETLOCOS ↔ k = 0)

/-- The loco that was selected when the reply to some GETFUNCTIONS came. -/
def FunctionsAt (selectedAddrIndex : Nat → Nat) (cmds : List FBTCtlMessage) (i : Nat) : Prop :=
  ∃ (k : Nat) (cmd : FBTCtlMessage), cmds[k]? = some cmd ∧
    commandIn cmd (commands false) = .ok (some .GETFUNCTIONS) ∧ selectedAddrIndex k = i

/-- What the replies of a connection have made of the table of its control. -/
def Mirrored (lokdef : List Lokdef) (selectedAddrIndex : Nat → Nat) (c : Connection) : Option Phase → Prop
  | some .accepted => c.commands = [] ∧ c.replies = []
  | some (.running lastStatus _) => LocosFirst c.commands → ∃ helo replies, c.replies = helo :: replies ∧
    replies.length = c.commands.length ∧ (c.commands = [] → lastStatus = initialStatus lokdef) ∧
    (c.commands ≠ [] → ∃ table, Mirrors lokdef (FunctionsAt selectedAddrIndex c.commands) lastStatus table ∧
      rounds selectedAddrIndex 0 (c.commands.zip (replies.map (restricted protocolDat))) none = .ok () (some table))
  | _ => True

theorem LocosFirst.front {cmds : List FBTCtlMessage} {cmd : FBTCtlMessage} (first : LocosFirst (cmds ++ [cmd])) :
    LocosFirst cmds := by
  intro k earlier there
  refine first k earlier ?_
  rw [List.getElem?_append_left (List.getElem?_eq_some_iff.mp there).1,there]

/-- One more command and its reply. -/
theorem rounds_more {selectedAddrIndex : Nat → Nat} {cmds replies : List FBTCtlMessage}
    (count : replies.length = cmds.length) {before : Option (List Lokdef)}
    (ran : rounds selectedAddrIndex 0 (cmds.zip (replies.map (restricted protocolDat))) none = .ok () before)
    (cmd reply : FBTCtlMessage) :
    rounds selectedAddrIndex 0 ((cmds ++ [cmd]).zip ((replies ++ [reply]).map (restricted protocolDat))) none =
      round (selectedAddrIndex cmds.length) cmd (restricted protocolDat reply) before := by
  have pairs : (cmds ++ [cmd]).zip ((replies ++ [reply]).map (restricted protocolDat)) =
      cmds.zip (replies.map (restricted protocolDat)) ++ [(cmd, restricted protocolDat reply)] := by
    rw [List.map_append,List.zip_append (by rw [List.length_map,count])]
    rfl
  have number : 0 + (cmds.zip (replies.map (restricted protocolDat))).length = cmds.length := by
    rw [List.length_zip,List.length_map,count]
    omega
  rw [pairs,rounds_snoc,number,bind_apply,ran]

variable {β : Type} (hardware : Hardware β)

theorem serves_mirrored {lokdef : List Lokdef} (few : ∀ l ∈ lokdef, l.nFunc < MAX_NFUNC)
    (distinct : ((locos lokdef).map Lokdef.addr).Nodup) (selectedAddrIndex : Nat → Nat) :
    WireServer.Serves hardware lokdef (fun _ _ _ => True) (Mirrored lokdef selectedAddrIndex) := by
  refine ⟨fun _ => trivial,fun _ => trivial,fun _ _ => ⟨rfl,rfl⟩,?_,?_⟩
  · intro c globals w c' shaped fresh sent _
    obtain ⟨_,same,rfl⟩ := sendHelo_sends hardware w _ _ c' sent
    have addrs := shaped.map_eq Lokdef.addr (fun _ _ shape => shape.addr)
    refine ⟨helo,[],?_,?_,?_,?_⟩
    · simp only [Connection.write,fresh.2,same,List.nil_append]
    · simp only [Connection.write,fresh.1]
    · intro _
      rw [initialStatus,nLokdef_congr addrs,initialStatus]
    · exact fun some => absurd fresh.1 some
  · intro c globals lastStatus changedAddrIndex w cmd so c' shaped _ before processed first
    have atEnd : (c.commands ++ [cmd])[c.commands.length]? = some cmd := by simp
    obtain ⟨command,taken,answered,locos⟩ := first c.commands.length cmd atEnd
    obtain ⟨helo,replies,sent,count,unasked,asked⟩ := before first.front
    obtain ⟨reply,mid,same,moved,told⟩ := processMessage_tells (tracks_shape hardware) c.clientID w taken answered processed
    have shapedMid : Records Shaped lokdef mid.lokdef :=
      shaped_closed.trans { globals with lokdef := lokdef } globals mid shaped moved
    have addrs := shapedMid.map_eq Lokdef.addr (fun _ _ shape => shape.addr)
    have next : ∃ table', Mirrors lokdef (FunctionsAt selectedAddrIndex (c.commands ++ [cmd])) c'.lastStatus table' ∧
        rounds selectedAddrIndex 0 ((c.commands ++ [cmd]).zip ((replies ++ [reply]).map (restricted protocolDat))) none =
          .ok () (some table') := by
      by_cases none : c.commands = []
      · obtain rfl := locos.mpr (by rw [none]; rfl)
        obtain ⟨table',ran,mirrors⟩ := round_locos (selectedAddrIndex c.commands.length)
          (FunctionsAt selectedAddrIndex (c.commands ++ [cmd])) taken told addrs (unasked none)
        refine ⟨table',mirrors,?_⟩
        have start : rounds selectedAddrIndex 0 (c.commands.zip (replies.map (restricted protocolDat))) Option.none =
            .ok () Option.none := by
          rw [none]
          rfl
        rw [rounds_more count start,ran]
      · have again : command ≠ .GETLOCOS := fun is => none (List.length_eq_zero_iff.mp (locos.mp is))
        obtain ⟨table,mirrors,ran⟩ := asked none
        obtain ⟨table',received,mirrors'⟩ := round_told (selectedAddrIndex c.commands.length) taken again told shapedMid
          few distinct mirrors
        refine ⟨table',mirrors'.mono ?_,by rw [rounds_more count ran,received]⟩
        rintro i (⟨k,earlier,there,functions,at_i⟩ | ⟨rfl,at_i⟩)
        · refine ⟨k,earlier,?_,functions,at_i⟩
          rw [List.getElem?_append_left (List.getElem?_eq_some_iff.mp there).1,there]
        · exact ⟨c.commands.length,cmd,atEnd,taken,at_i⟩
    refine ⟨helo,replies ++ [reply],?_,?_,?_,fun _ => next⟩
    · simp only [Connection.write,Connection.take,sent,same,List.nil_append,List.cons_append]
    · simp only [Connection.write,Connection.take,List.length_append,count,List.length_singleton]
    · intro empty
      exact absurd empty (List.append_ne_nil_of_right_ne_nil _ (List.cons_ne_nil _ _))

/-- The table a client with these replies shows, for each loco that is as the thread last told it. -/
theorem Mirrors.record {lokdef now : List Lokdef} {written : Nat → Prop} {lastStatus : List LastStatus}
    {table : List Lokdef} (mirrors : Mirrors lokdef written lastStatus table)
    (same : now.map Lokdef.addr = lokdef.map Lokdef.addr) (distinct : ((locos lokdef).map Lokdef.addr).Nodup)
    {i : Nat} {l : Lokdef} {last : LastStatus} (listed : (locos now)[i]? = some l) (kept : lastStatus[i]? = some last)
    (told : ¬ Differs l last) (directed : l.currdir ≠ 0) : ∃ record, table[i]? = some record ∧ record.addr = l.addr ∧
      Shows (¬ written i) record (statusSpeed l) l.functions := by
  obtain ⟨view,known,pictures⟩ := mirrors.shown
  have knows := (known_congr lastStatus view same known).exactly listed kept told directed
  obtain ⟨j,record,found,there,shows⟩ := pictures _ _ _ knows
  have addrs := mirrors.addrs
  rw [← locos_addrs_congr same] at addrs distinct
  have place : getAddrIndex table l.addr = .ok i := by
    refine getAddrIndex_listed _ ?_ distinct addrs (by rw [List.getElem?_map,listed]; rfl)
    intro addr member
    obtain ⟨other,used,rfl⟩ := List.mem_map.mp member
    simpa using List.mem_takeWhile_imp used
  rw [found] at place
  cases place
  obtain ⟨_,_,own,here,addr⟩ := getAddrIndex_located found
  rw [there] at here
  cases here
  exact ⟨record,there,addr,shows⟩

def Reads (c : Connection) (so : List (List UInt8)) (selectedAddrIndex : Nat → Nat) (table : List Lokdef) : Prop :=
  ∃ received so', readMessages protocolDat c.replies.length so = .ok (received, so') ∧
    rounds selectedAddrIndex 0 (c.commands.zip received.tail) none = .ok () (some table)

/-- However the bytes of the replies are cut. -/
theorem Mirrored.reads {lokdef : List Lokdef} {selectedAddrIndex : Nat → Nat} {c : Connection}
    {lastStatus : List LastStatus} {changedAddrIndex : List Bool}
    (mirrored : Mirrored lokdef selectedAddrIndex c (some (.running lastStatus changedAddrIndex)))
    (asked : c.commands ≠ []) (first : LocosFirst c.commands)
    (sendable : ∀ reply ∈ c.replies, ∃ layout, Sendable protocolDat reply layout) {so : List (List UInt8)}
    (delivered : Delivered so) (sent : sendMessages protocolDat c.replies = .ok so.flatten) :
    ∃ table, Reads c so selectedAddrIndex table ∧
      Mirrors lokdef (FunctionsAt selectedAddrIndex c.commands) lastStatus table := by
  obtain ⟨helo,replies,all,_,_,shown⟩ := mirrored first
  obtain ⟨table,mirrors,ran⟩ := shown asked
  obtain ⟨so',read,_,_⟩ := readMessages_front sendable sent [] so delivered (List.append_nil _).symm
  refine ⟨table,⟨_,so',read,?_⟩,mirrors⟩
  rw [all]
  exact ran

end RemoteLokdef

open RemoteLokdef

theorem locos_length (lokdef : List Lokdef) : (locos lokdef).length = nLokdef lokdef := by
  induction lokdef with
  | nil => rfl
  | cons l rest ih =>
    by_cases stop : l.addr = 0
    · rw [locos_end stop,nLokdef,if_pos stop]
      rfl
    · rw [locos_cons stop,nLokdef,if_neg stop,List.length_cons,ih]

theorem nextStatus_told {lokdef : List Lokdef} {lastStatus : List LastStatus} {i : Nat} {l : Lokdef} {last : LastStatus}
    (listed : (locos lokdef)[i]? = some l) (kept : (nextStatus lokdef lastStatus)[i]? = some last) : ¬ Differs l last := by
  induction lokdef generalizing lastStatus i with
  | nil => cases listed
  | cons first rest ih =>
    by_cases stop : first.addr = 0
    · rw [locos_end stop] at listed
      cases listed
    rw [locos_cons stop] at listed
    cases lastStatus with
    | nil => cases kept
    | cons before others =>
      simp only [nextStatus,stop,↓reduceIte] at kept
      cases i with
      | succ i => exact ih listed kept
      | zero =>
        cases listed
        simp only [List.getElem?_cons_zero,Option.some.injEq] at kept
        subst kept
        split
        · simp [Differs,snapshot]
        · assumption

section Ping

variable {β : Type} (hardware : Hardware β) {cmd : FBTCtlMessage} {w : World}
  (ping : commandIn cmd (commands false) = .ok (some .PING)) (connected : w.connected = true)
include ping connected

/-- A PING between turns, when no loco is marked, does nothing but reply. -/
theorem processMessage_ping (clientID : Int) (c : Ctx β) (unmarked : Unmarked c.changedAddrIndex) :
    processMessage hardware clientID w cmd c = .ok () { c with
      lastStatus := nextStatus c.lokdef c.lastStatus
      sent := c.sent ++ [statusReply ((changedLocos c.lokdef c.lastStatus).map statusEntry)] } := by
  have branch : commandOf w cmd = .ok (some .PING) := commandIn_append _ ping
  simp only [processMessage,bind_apply,branch,lift_ok,execute,PING,sendStatusReply_sent w connected,pure_apply,get_apply]
  exact hardwareLoop_unmarked hardware clientID _ false _ (fun i _ => unmarked i)

/-- The turn of a thread to which a PING has come. -/
theorem turn_ping {s : WireServer β} (ready : s.server.Ready) (live : s.server.halted = false) {c : Connection}
    {so : List (List UInt8)} (found : s.connectionOf c.clientID = some c)
    (read : CommThread.readMessage protocolDat c.so = .ok (cmd, so)) {lastStatus : List LastStatus}
    {changedAddrIndex : List Bool} (running : s.server.phaseOf c.clientID = some (.running lastStatus changedAddrIndex)) :
    (WireServer.step hardware s (.turn c.clientID w)).server.lokdef = s.server.lokdef ∧
    (WireServer.step hardware s (.turn c.clientID w)).server.phaseOf c.clientID =
      some (.running (nextStatus s.server.lokdef lastStatus) changedAddrIndex) ∧
    (c.take cmd so).write [statusReply ((changedLocos s.server.lokdef lastStatus).map statusEntry)] ∈
      (WireServer.step hardware s (.turn c.clientID w)).connections := by
  have member := List.mem_of_find?_eq_some found
  have processed := processMessage_ping hardware ping connected c.clientID (s.server.context lastStatus changedAddrIndex)
    (ready.running running).1
  have phase := (Server.phaseOf_setPhase s.server c.clientID c.clientID
    (.running (nextStatus s.server.lokdef lastStatus) changedAddrIndex)).trans (by rw [if_pos rfl,running,Option.map_some])
  simp only [WireServer.step,live,Bool.false_eq_true,↓reduceIte,running,found,WireServer.serve,read,
    WireServer.takes,WireServer.onConnection,Server.step,processed,final_ok]
  refine ⟨rfl,phase,List.mem_map.mpr ⟨c,member,?_⟩⟩
  rw [if_pos rfl]
  rfl

end Ping

/-- GETLOCOS is answered, a PING is still to be read. -/
def listing : WireServer SRCP := WireServer.run (SRCP_Hardware okSrcpd) (WireServer.start oneLocoTable {})
  [.accept [[1, 0, 0, 0, 22, 1, 0, 0, 0, 7]], .turn 1 online, .turn 1 online]

def refreshed : WireServer SRCP := WireServer.run (SRCP_Hardware okSrcpd) (WireServer.start oneLocoTable {})
  [.accept [[1, 0, 0, 0, 22, 1, 0, 0, 0, 7]], .turn 1 online, .turn 1 online, .turn 1 online]

def commandsOf (c : Connection) : List (Option (Option Command)) :=
  c.commands.map (fun cmd => (commandIn cmd (commands false)).toOption)

theorem oneLocoTable_few : ∀ l ∈ oneLocoTable, l.nFunc < MAX_NFUNC := by
  intro l member
  simp only [oneLocoTable,List.mem_cons,List.not_mem_nil,or_false] at member
  rcases member with rfl | rfl <;> decide

theorem listing_connection : ∃ c ∈ listing.connections, c.clientID = 1 ∧ c.so = [[1, 0, 0, 0, 7]] ∧
    commandsOf c = [some (some .GETLOCOS)] := by
  have all : listing.connections.map (fun c => (c.clientID, c.so, commandsOf c)) =
      [(1, [[1, 0, 0, 0, 7]], [some (some .GETLOCOS)])] := by
    decide +kernel
  have member : (1, [[1, 0, 0, 0, 7]], [some (some .GETLOCOS)]) ∈
      listing.connections.map (fun c => (c.clientID, c.so, commandsOf c)) := by
    rw [all]
    exact List.mem_cons_self
  obtain ⟨c,there,same⟩ := List.mem_map.mp member
  obtain ⟨id,same⟩ := Prod.mk.inj same
  obtain ⟨so,same⟩ := Prod.mk.inj same
  exact ⟨c,there,id,so,same⟩

theorem refreshed_connection : ∃ c ∈ refreshed.connections, c.clientID = 1 ∧
    commandsOf c = [some (some .GETLOCOS), some (some .PING)] := by
  have all : refreshed.connections.map (fun c => (c.clientID, commandsOf c)) =
      [(1, [some (some .GETLOCOS), some (some .PING)])] := by
    decide +kernel
  have member : (1, [some (some .GETLOCOS), some (some .PING)]) ∈
      refreshed.connections.map (fun c => (c.clientID, commandsOf c)) := by
    rw [all]
    exact List.mem_cons_self
  obtain ⟨c,there,same⟩ := List.mem_map.mp member
  obtain ⟨id,same⟩ := Prod.mk.inj same
  exact ⟨c,there,id,same⟩

/-- GETLOCOS, and then a PING. -/
theorem locosFirst_ping {getlocos ping : FBTCtlMessage} (taken : commandIn getlocos (commands false) = .ok (some .GETLOCOS))
    (later : commandIn ping (commands false) = .ok (some .PING)) : LocosFirst [getlocos, ping] := by
  intro k cmd there
  cases k with
  | zero =>
    cases there
    exact ⟨_,taken,rfl,by simp⟩
  | succ k =>
    cases k with
    | zero =>
      cases there
      exact ⟨_,later,rfl,by simp⟩
    | succ k => cases there

end Btcontrol
