import Btcontrol.Deliverable

/-! `remoteLokdef.cpp` of the ESP32 control and the STATUS_REPLY of `ControlClientThread::run`: the two ways the
control's table of the locos is filled. Its record is the server's `lokdef_t`. -/
namespace Btcontrol.RemoteLokdef

open DataType Bytes FBTCtlMessage CommThread ClientThread Exec

def absInt (n : Int) : Int := signed32 (pattern32 n.natAbs)

def bitSet (functions : Int) (f : Nat) : Bool := decide (1#32 <<< f &&& BitVec.ofInt 32 functions ≠ 0#32)

/-- `strncpy` into a zeroed array of `size` characters. -/
def strncpy (size : Nat) (s : Str) : Str := (s.takeWhile (· ≠ 0)).take size

def infoSize (reply : FBTCtlMessage) : Except Err Nat := do
  (← reply.field (str "info")).getArraySize

def infoAt (reply : FBTCtlMessage) (i : Nat) : Except Err FBTCtlMessage := do
  (← reply.field (str "info")).index i

def getString (m : FBTCtlMessage) (name : String) : Except Err Str := do
  (← m.field (str name)).getStringVal

/-- One turn of `initLokdef`. -/
def initLok (entry : FBTCtlMessage) : Except Err Lokdef := do
  let addr ← getInt entry "addr"
  let name ← getString entry "name"
  let imgname ← getString entry "imgname"
  let speed ← getInt entry "speed"
  let functions ← getInt entry "functions"
  return { Lokdef.zeroed with
    addr
    name := strncpy 20 name
    imgname := strncpy 32 imgname
    currspeed := absInt speed
    -- `speed >= 0 ? true : false`
    currdir := if speed ≥ 0 then 1 else 0
    func := Vector.ofFn (fun f => { ison := bitSet functions f }) }

def initLoop (reply : FBTCtlMessage) : Nat → Nat → Except Err (List Lokdef)
  | 0, _ => .ok []
  | count + 1, i => do
    let l ← initLok (← infoAt reply i)
    let more ← initLoop reply count (i + 1)
    return l :: more

/-- The new table ends with a zeroed record. -/
def initLokdef (reply : FBTCtlMessage) : Except Err (List Lokdef) := do
  let nLocos ← infoSize reply
  let locos ← initLoop reply nLocos 0
  return locos ++ [.zeroed]

/-- What an entry of a STATUS_REPLY does to its record. -/
def changeLok (speed functions : Int) (l : Lokdef) : Lokdef :=
  { l with
    currspeed := absInt speed
    currdir := if speed ≥ 0 then 1 else -1
    func := Vector.ofFn (fun f => { l.func.get f with ison := bitSet functions f }) }

/-- The loop over the entries. There is no table before the first GETLOCOS_REPLY. -/
def statusTurns (reply : FBTCtlMessage) : Nat → Nat → EStateM Err (Option (List Lokdef)) Unit
  | 0, _ => pure ()
  | count + 1, i => do
    let entry ← lift (infoAt reply i)
    let addr ← lift (getInt entry "addr")
    let speed ← lift (getInt entry "speed")
    let functions ← lift (getInt entry "functions")
    match ← get with
    | none => pure ()
    | some lokdef =>
      let addr_index ← lift (getAddrIndex lokdef addr)
      set (some (lokdef.modify addr_index (changeLok speed functions)))
    statusTurns reply count (i + 1)

/-- `if(reply.isType("STATUS_REPLY"))`. -/
def STATUS_REPLY (reply : FBTCtlMessage) : EStateM Err (Option (List Lokdef)) Unit := do
  let an ← lift (infoSize reply)
  statusTurns reply an 0

/-- One turn of `initLokdefFunctions`: the loop over the bits writes the same flag again and again. -/
def initFunc (entry : FBTCtlMessage) : Except Err Func := do
  let name ← getString entry "name"
  let _imgname ← getString entry "imgname"
  let functions ← getInt entry "value"
  return { name := strncpy 32 name, ison := (List.range MAX_NFUNC).foldl (fun _ f => bitSet functions f) false }

def initFuncs (reply : FBTCtlMessage) : Nat → Nat → Vector Func MAX_NFUNC → Except Err (Vector Func MAX_NFUNC)
  | 0, _, func => .ok func
  | count + 1, i, func => do
    let f ← initFunc (← infoAt reply i)
    initFuncs reply count (i + 1) (func.setIfInBounds i f)

def setFunctions (nFunc : Nat) (room : nFunc < MAX_NFUNC) (func : Vector Func MAX_NFUNC) (l : Lokdef) : Lokdef :=
  { l with nFunc, func, nFunc_le := by exact_mod_cast room.le }

def initLokdefFunctions (lokdef : List Lokdef) (loknum : Nat) (reply : FBTCtlMessage) : Except Err (List Lokdef) := do
  let nFunc ← infoSize reply
  -- `assert(nFunc < MAX_NFUNC)`
  if room : nFunc < MAX_NFUNC then
    let func ← initFuncs reply nFunc 0 ((lokdef[loknum]?.getD .zeroed).func)
    return lokdef.modify loknum (setFunctions nFunc room func)
  else .error .assertion

/-! ### What the control reads -/

/-- The peer reads the fields of the layout, in its order. -/
theorem restricted_info {type : Nat} {childLayouts : List MessageLayout}
    (found : getMessageLayout protocolDat type = .ok (.mk type [] [.mk ARRAY (str "info") childLayouts]))
    (entries : List FBTCtlMessage) : restricted protocolDat (infoReply type entries) =
      infoReply type (entries.map (fun entry => .struct STRUCT (Wire.restrictFields childLayouts entry.fields))) := by
  simp only [restricted,infoReply,FBTCtlMessage.type,found,Wire.restrictMessage,FBTCtlMessage.fields,
    MessageLayout.childLayouts,Wire.restrictFields,MessageLayout.name,List.lookup,beq_self_eq_true,Option.getD_some,
    Wire.restrict]

theorem infoSize_entries {type : Nat} (above : STRUCT < type) (entries : List FBTCtlMessage) :
    infoSize (infoReply type entries) = .ok entries.length := by
  have allowed : ¬ type < STRUCT := by omega
  simp [infoSize,infoReply,field,allowed,List.lookup,getArraySize,bind,Except.bind]

theorem infoAt_entry {type : Nat} (above : STRUCT < type) {entries : List FBTCtlMessage} {i : Nat}
    {entry : FBTCtlMessage} (there : entries[i]? = some entry) : infoAt (infoReply type entries) i = .ok entry := by
  have allowed : ¬ type < STRUCT := by omega
  simp [infoAt,infoReply,field,allowed,List.lookup,index,there,bind,Except.bind]

/-! ### The two ways -/

/-- The record `initLokdef` makes of a loco of the server. -/
def firstRecord (l : Lokdef) : Lokdef :=
  { Lokdef.zeroed with
    addr := l.addr
    name := strncpy 20 l.name
    imgname := strncpy 32 l.imgname
    currspeed := absInt (statusSpeed l)
    currdir := if statusSpeed l ≥ 0 then 1 else 0
    func := Vector.ofFn (fun f => { ison := bitSet l.functions f }) }

theorem initLok_entry (l : Lokdef) :
    initLok (.struct STRUCT (Wire.restrictFields locoFields (locoEntry l).fields)) = .ok (firstRecord l) := rfl

theorem initLoop_entries {type : Nat} (above : STRUCT < type) {entry : Lokdef → FBTCtlMessage} {record : Lokdef → Lokdef}
    (each : ∀ l, initLok (entry l) = .ok (record l)) (listed done : List Lokdef) :
    initLoop (infoReply type ((done ++ listed).map entry)) listed.length done.length = .ok (listed.map record) := by
  induction listed generalizing done with
  | nil => rfl
  | cons l rest ih =>
    have here : ((done ++ l :: rest).map entry)[done.length]? = some (entry l) := by simp
    have more := ih (done ++ [l])
    rw [List.append_assoc,List.singleton_append,List.length_append,List.length_singleton] at more
    simp only [List.length_cons,initLoop,infoAt_entry above here,each,more,bind,Except.bind,pure,Except.pure,List.map_cons]

/-- The table behind a GETLOCOS_REPLY. -/
theorem initLokdef_locos (listed : List Lokdef) :
    initLokdef (restricted protocolDat (infoReply 23 (listed.map locoEntry))) =
      .ok (listed.map firstRecord ++ [.zeroed]) := by
  have above : STRUCT < 23 := by decide
  have received : restricted protocolDat (infoReply 23 (listed.map locoEntry)) = infoReply 23 (listed.map
      (fun l => .struct STRUCT (Wire.restrictFields locoFields (locoEntry l).fields))) := by
    rw [@restricted_info 23 locoFields rfl,List.map_map]
    rfl
  have size := infoSize_entries above (listed.map
    (fun l => .struct STRUCT (Wire.restrictFields locoFields (locoEntry l).fields)))
  have loop := initLoop_entries above initLok_entry listed []
  rw [List.length_map] at size
  rw [List.nil_append,List.length_nil] at loop
  rw [received]
  simp only [initLokdef,size,loop,bind,Except.bind,pure,Except.pure]

/-- A turn changes the first record of its address. -/
theorem statusTurns_turn {reply entry : FBTCtlMessage} {count i j : Nat} {before : List Lokdef}
    {addr speed functions : Int} (here : infoAt reply i = .ok entry) (found : getAddrIndex before addr = .ok j)
    (addrSent : getInt entry "addr" = .ok addr) (speedSent : getInt entry "speed" = .ok speed)
    (functionsSent : getInt entry "functions" = .ok functions) : statusTurns reply (count + 1) i (some before) =
      statusTurns reply count (i + 1) (some (before.modify j (changeLok speed functions))) := by
  simp only [statusTurns,bind_apply,here,addrSent,speedSent,functionsSent,lift_ok,get_apply,found,set_apply]

theorem STATUS_REPLY_entry (l : Lokdef) {before : List Lokdef} {j : Nat} (found : getAddrIndex before l.addr = .ok j) :
    STATUS_REPLY (restricted protocolDat (statusReply [statusEntry l])) (some before) =
      .ok () (some (before.modify j (changeLok (statusSpeed l) l.functions))) := by
  have above : STRUCT < 8 := by decide
  have received : restricted protocolDat (statusReply [statusEntry l]) = infoReply 8 [statusEntry l] :=
    @restricted_info 8 [intField "addr", intField "speed", intField "functions"] rfl [statusEntry l]
  have size := infoSize_entries above [statusEntry l]
  have entry := infoAt_entry above (show [statusEntry l][0]? = some (statusEntry l) from rfl)
  rw [received,STATUS_REPLY,bind_apply,size]
  exact statusTurns_turn entry found rfl rfl rfl

/-- The same speed, direction and functions; the direction is 1 or -1. -/
structure SameStatus (a b : Lokdef) : Prop where
  currspeed : a.currspeed = b.currspeed
  currdir : a.currdir = b.currdir
  directed : a.currdir = 1 ∨ a.currdir = -1
  ison : ∀ (f : Nat) (bound : f < MAX_NFUNC), a.func[f].ison = b.func[f].ison

/-- The direction of a first record is 0 for a loco that drives or stands backwards. -/
theorem firstRecord_same (l before : Lokdef) :
    SameStatus (firstRecord l) (changeLok (statusSpeed l) l.functions before) ↔ 0 ≤ statusSpeed l := by
  constructor
  · intro same
    by_contra back
    have directed := same.directed
    simp only [firstRecord,show ¬ statusSpeed l ≥ 0 from back,↓reduceIte] at directed
    omega
  · intro forward
    constructor
    · rfl
    · simp only [firstRecord,changeLok,show statusSpeed l ≥ 0 from forward,↓reduceIte]
    · simp only [firstRecord,show statusSpeed l ≥ 0 from forward,↓reduceIte,true_or]
    · intro f bound
      simp [firstRecord,changeLok]

/-- For a table of the server: what GETLOCOS_REPLY makes of a loco is what a STATUS_REPLY with the same values leaves
of it, in any table that has it. -/
def Agree (lokdef : List Lokdef) : Prop :=
  ∀ m, locosLoop lokdef 0 (.struct 23 []) = .ok m → ∀ (i : Nat) (l : Lokdef), (locos lokdef)[i]? = some l →
    ∃ table record, initLokdef (restricted protocolDat m) = .ok table ∧ table[i]? = some record ∧
      record.addr = l.addr ∧ ∀ before j, getAddrIndex before l.addr = .ok j → ∃ after changed,
        STATUS_REPLY (restricted protocolDat (statusReply [statusEntry l])) (some before) = .ok () (some after) ∧
        after[j]? = some changed ∧ SameStatus record changed

section Locos

variable {lokdef : List Lokdef} {i : Nat} {l : Lokdef} (listed : (locos lokdef)[i]? = some l)
include listed

theorem locosLoop_listed :
    locosLoop lokdef 0 (.struct 23 []) = .ok (infoReply 23 ((locos lokdef).map locoEntry)) := by
  rw [locosLoop_start,if_neg]
  intro none
  rw [none] at listed
  cases listed

theorem firstRecord_listed : ((locos lokdef).map firstRecord ++ [.zeroed])[i]? = some (firstRecord l) := by
  rw [List.getElem?_append_left]
  · rw [List.getElem?_map,listed,Option.map_some]
  · rw [List.length_map]
    exact (List.getElem?_eq_some_iff.mp listed).1

/-- Any table with the loco tells its direction from that of the first record. -/
theorem Agree.forward (agree : Agree lokdef) : 0 ≤ statusSpeed l := by
  obtain ⟨filled,first,initialised,there,_,status⟩ := agree _ (locosLoop_listed listed) i l listed
  rw [initLokdef_locos] at initialised
  cases initialised
  rw [firstRecord_listed listed] at there
  cases there
  have used : l.addr ≠ 0 := by simpa using List.mem_takeWhile_imp (List.mem_of_getElem? listed)
  have found : getAddrIndex [l] l.addr = .ok 0 := by simp [getAddrIndex,used]
  obtain ⟨after,changed,left,here,same⟩ := status [l] 0 found
  rw [STATUS_REPLY_entry l found] at left
  cases left
  cases here
  exact (firstRecord_same l l).mp same

end Locos

/-- The two ways agree iff no loco of the reply has a negative speed. -/
theorem initLokdef_agrees (lokdef : List Lokdef) : Agree lokdef ↔ ∀ l ∈ locos lokdef, 0 ≤ statusSpeed l := by
  constructor
  · intro agree l member
    obtain ⟨i,listed⟩ := List.mem_iff_getElem?.mp member
    exact agree.forward listed
  · intro forward m same i l listed
    rw [locosLoop_listed listed] at same
    cases same
    refine ⟨_,firstRecord l,initLokdef_locos (locos lokdef),firstRecord_listed listed,rfl,?_⟩
    intro before j found
    obtain ⟨_,_,b,there,_⟩ := getAddrIndex_located found
    refine ⟨_,changeLok (statusSpeed l) l.functions b,STATUS_REPLY_entry l found,?_,?_⟩
    · simp [there]
    · exact (firstRecord_same l b).mpr (forward l (List.mem_of_getElem? listed))

/-- A loco that drives backwards. -/
theorem initLokdef_backwards : ¬ Agree [{ addr := 3, currspeed := 20, currdir := -1 }, {}] := by
  intro agree
  have forward := agree.forward (show (locos [{ addr := 3, currspeed := 20, currdir := -1 }, {}])[0]? =
    some { addr := 3, currspeed := 20, currdir := -1 } from rfl)
  exact absurd forward (by decide)

/-! ### The functions of a loco -/

/-- The function `initLokdefFunctions` makes of one of the server. -/
def firstFunc (f : Func) : Func where
  name := strncpy 32 f.name
  ison := false

/-- Of the value only the last bit is kept, and the server sends 0 or 1. -/
theorem initFunc_entry (f : Func) :
    initFunc (.struct STRUCT (Wire.restrictFields functionFields (functionEntry f).fields)) = .ok (firstFunc f) := by
  have last (functions : Int) : (List.range MAX_NFUNC).foldl (fun _ f => bitSet functions f) false =
      bitSet functions 31 := rfl
  have off : bitSet (if f.ison then 1 else 0) 31 = false := by cases f.ison <;> decide
  have name : getString (.struct STRUCT (Wire.restrictFields functionFields (functionEntry f).fields)) "name" =
      .ok f.name := rfl
  have imgname : getString (.struct STRUCT (Wire.restrictFields functionFields (functionEntry f).fields)) "imgname" =
      .ok [] := rfl
  have value : getInt (.struct STRUCT (Wire.restrictFields functionFields (functionEntry f).fields)) "value" =
      .ok (if f.ison then 1 else 0) := rfl
  simp only [initFunc,name,imgname,value,last,off,bind,Except.bind,pure,Except.pure,firstFunc]

/-- The reply to GETFUNCTIONS as the control reads it. -/
def functionsReceived (listed : List Func) : FBTCtlMessage := infoReply 21 (listed.map (fun f =>
  .struct STRUCT (Wire.restrictFields functionFields (functionEntry f).fields)))

theorem initFuncs_entries (listed done : List Func) (func : Vector Func MAX_NFUNC)
    (room : done.length + listed.length ≤ MAX_NFUNC) : ∃ func',
      initFuncs (functionsReceived (done ++ listed)) listed.length done.length func = .ok func' ∧
      ∀ (i : Nat) (bound : i < MAX_NFUNC), func'[i] =
        if done.length ≤ i then (listed[i - done.length]?.map firstFunc).getD func[i] else func[i] := by
  induction listed generalizing done func with
  | nil =>
    refine ⟨func,rfl,?_⟩
    intro i bound
    simp
  | cons f rest ih =>
    have here : ((done ++ f :: rest).map (fun f => FBTCtlMessage.struct STRUCT
        (Wire.restrictFields functionFields (functionEntry f).fields)))[done.length]? =
        some (.struct STRUCT (Wire.restrictFields functionFields (functionEntry f).fields)) := by simp
    have read : infoAt (functionsReceived (done ++ f :: rest)) done.length = _ :=
      infoAt_entry (show STRUCT < 21 by decide) here
    rw [List.length_cons] at room
    obtain ⟨func',more,kept⟩ := ih (done ++ [f]) (func.setIfInBounds done.length (firstFunc f)) (by simp; omega)
    rw [List.append_assoc,List.singleton_append,List.length_append,List.length_singleton] at more
    refine ⟨func',?_,?_⟩
    · simp only [List.length_cons,initFuncs,read,initFunc_entry,bind,Except.bind,more]
    · intro i bound
      rw [kept i bound,List.length_append,List.length_singleton,Vector.getElem_setIfInBounds]
      rcases Nat.lt_trichotomy done.length i with before | rfl | after
      · have later : i - done.length = (i - (done.length + 1)) + 1 := by omega
        rw [later,List.getElem?_cons_succ]
        simp [show done.length ≤ i by omega,show done.length + 1 ≤ i by omega,show done.length ≠ i by omega]
      · simp
      · simp [show ¬ done.length ≤ i by omega,show ¬ done.length + 1 ≤ i by omega,show done.length ≠ i by omega]

/-- The control has as many functions as the server, and each is on iff the reply says so. -/
def Transfers (l : Lokdef) : Prop :=
  ∀ m, functionsLoop (l.func.toList.take l.nFunc.toNat) 0 (.struct 21 []) = .ok m →
    ∀ lokdef loknum, loknum < lokdef.length → ∃ after record,
      initLokdefFunctions lokdef loknum (restricted protocolDat m) = .ok after ∧ after[loknum]? = some record ∧
      record.nFunc = l.nFunc ∧ ∀ (i : Nat) (bound : i < MAX_NFUNC), i < l.nFunc → ∃ entry value,
        infoAt (restricted protocolDat m) i = .ok entry ∧ getInt entry "value" = .ok value ∧
        (record.func[i].ison = true ↔ value ≠ 0)

theorem restricted_functions (listed : List Func) :
    restricted protocolDat (infoReply 21 (listed.map functionEntry)) = functionsReceived listed := by
  rw [@restricted_info 21 functionFields rfl,List.map_map]
  rfl

/-- The functions the server lists. -/
def listedFuncs (l : Lokdef) : List Func := l.func.toList.take l.nFunc.toNat

theorem listedFuncs_length (l : Lokdef) : (listedFuncs l).length = l.nFunc.toNat := by
  have most := l.nFunc_le
  simp only [listedFuncs,List.length_take,Vector.length_toList]
  omega

theorem functionsLoop_listed {l : Lokdef} (some : 1 ≤ l.nFunc) :
    functionsLoop (listedFuncs l) 0 (.struct 21 []) = .ok (infoReply 21 ((listedFuncs l).map functionEntry)) := by
  rw [functionsLoop_start,if_neg]
  intro none
  exact (functions_none l).mp none some

theorem functionsReceived_size (listed : List Func) : infoSize (functionsReceived listed) = .ok listed.length := by
  rw [functionsReceived,infoSize_entries (by decide),List.length_map]

/-- The value of a function is 1 or 0. -/
theorem functionsReceived_value (l : Lokdef) (i : Nat) (bound : i < MAX_NFUNC) (inside : i < l.nFunc) :
    ∃ entry, infoAt (functionsReceived (listedFuncs l)) i = .ok entry ∧
      getInt entry "value" = .ok (if l.func[i].ison then 1 else 0) := by
  refine ⟨.struct STRUCT (Wire.restrictFields functionFields (functionEntry l.func[i]).fields),?_,rfl⟩
  apply infoAt_entry (by decide)
  have taken : i < l.nFunc.toNat := by omega
  simp [listedFuncs,taken,bound]

/-- With room for the functions every one of them is off afterwards. -/
theorem initLokdefFunctions_off {listed : List Func} (room : listed.length < MAX_NFUNC) {lokdef : List Lokdef}
    {loknum : Nat} (there : loknum < lokdef.length) : ∃ after record,
      initLokdefFunctions lokdef loknum (functionsReceived listed) = .ok after ∧ after[loknum]? = some record ∧
      record.nFunc = listed.length ∧ ∀ (i : Nat) (bound : i < MAX_NFUNC), i < listed.length → record.func[i].ison = false := by
  have size := functionsReceived_size listed
  obtain ⟨func,loop,written⟩ := initFuncs_entries listed [] ((lokdef[loknum]?.getD .zeroed).func)
    (by rw [List.length_nil]; omega)
  rw [List.nil_append,List.length_nil] at loop
  refine ⟨lokdef.modify loknum (setFunctions listed.length room func),setFunctions listed.length room func lokdef[loknum],
    ?_,?_,rfl,?_⟩
  · simp only [initLokdefFunctions,size,loop,bind,Except.bind,room,↓reduceDIte,pure,Except.pure]
  · simp [there]
  · intro i bound inside
    have flag : (setFunctions listed.length room func lokdef[loknum]).func[i] = firstFunc listed[i] := by
      show func[i] = firstFunc listed[i]
      rw [written i bound]
      simp [inside]
    rw [flag]
    rfl

/-- Without room the assertion fails. -/
theorem initLokdefFunctions_full {listed : List Func} (full : ¬ listed.length < MAX_NFUNC) (lokdef : List Lokdef)
    (loknum : Nat) : initLokdefFunctions lokdef loknum (functionsReceived listed) = .error .assertion := by
  simp only [initLokdefFunctions,functionsReceived_size,bind,Except.bind,full,↓reduceDIte]

theorem Transfers.off {l : Lokdef} (some : 1 ≤ l.nFunc) (transfers : Transfers l) :
    l.nFunc < MAX_NFUNC ∧ ∀ (i : Nat) (bound : i < MAX_NFUNC), i < l.nFunc → l.func[i].ison = false := by
  have length := listedFuncs_length l
  obtain ⟨after,record,done,here,_,flags⟩ := transfers _ (functionsLoop_listed some) [.zeroed] 0 Nat.one_pos
  rw [restricted_functions] at done flags
  have room : (listedFuncs l).length < MAX_NFUNC := by
    by_contra full
    rw [initLokdefFunctions_full full] at done
    cases done
  obtain ⟨after',record',done',here',_,off⟩ := @initLokdefFunctions_off _ room [.zeroed] 0 Nat.one_pos
  rw [done] at done'
  cases done'
  rw [here] at here'
  cases here'
  constructor
  · omega
  · intro i bound inside
    obtain ⟨entry,value,there,sent,same⟩ := flags i bound inside
    obtain ⟨entry',there',sent'⟩ := functionsReceived_value l i bound inside
    rw [there] at there'
    cases there'
    rw [sent] at sent'
    cases sent'
    rw [off i bound (by omega)] at same
    simpa using same

/-- The functions of a loco get through iff there are fewer than the record holds, and all of them are off. -/
theorem initLokdefFunctions_transfers (l : Lokdef) (some : 1 ≤ l.nFunc) : Transfers l ↔
    l.nFunc < MAX_NFUNC ∧ ∀ (i : Nat) (bound : i < MAX_NFUNC), i < l.nFunc → l.func[i].ison = false := by
  constructor
  · intro transfers
    exact transfers.off some
  · rintro ⟨few,off⟩ m built lokdef loknum there
    have length := listedFuncs_length l
    rw [← listedFuncs,functionsLoop_listed some] at built
    cases built
    rw [restricted_functions]
    have room : (listedFuncs l).length < MAX_NFUNC := by omega
    obtain ⟨after,record,done,here,count,flags⟩ := initLokdefFunctions_off room there
    refine ⟨after,record,done,here,by omega,?_⟩
    intro i bound inside
    obtain ⟨entry,there,sent⟩ := functionsReceived_value l i bound inside
    refine ⟨entry,_,there,sent,?_⟩
    rw [flags i bound (by omega),off i bound inside]
    simp

/-- A loco with a head light, a horn and a whistle, all off. -/
theorem initLokdefFunctions_transfers_dark :
    Transfers { addr := 3, nFunc := 3, func := ((Vector.replicate MAX_NFUNC {}).set 0 { name := str "lHeadlight" }
      |>.set 1 { name := str "mHorn" }).set 2 { name := str "mPfeife" } } := by
  refine (initLokdefFunctions_transfers _ (by decide)).mpr ⟨by decide,?_⟩
  intro i bound listed
  have three : i < 3 := by simpa using listed
  interval_cases i <;> rfl

/-- A loco as it is read, with its head light on, and one with 31 functions behind the head light. -/
theorem initLokdefFunctions_loses : (∃ lokdef l, readLokdef twoLocosCsv = .ok lokdef ∧ lokdef[0]? = some l ∧
      ¬ Transfers l) ∧ ¬ Transfers { addr := 3, nFunc := 32 } := by
  constructor
  · refine ⟨twoLocos,_,readLokdef_twoLocos,rfl,?_⟩
    intro transfers
    have off := (transfers.off (by decide)).2 0 (by decide) (by decide)
    exact absurd off (by decide)
  · intro transfers
    have few := (transfers.off (by decide)).1
    exact absurd few (by decide)

end Btcontrol.RemoteLokdef
