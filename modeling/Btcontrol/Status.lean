import Btcontrol.ClientThread

/-! The STATUS_REPLY: `setLokStatus` sends what differs from the last status it sent to
this client, and the clients keep what they were sent. -/
namespace Btcontrol.ClientThread

open DataType FBTCtlMessage Exec

/-! What `setLokStatus` builds. -/

/-- The test of `setLokStatus`. -/
def Differs (l : Lokdef) (last : LastStatus) : Prop :=
  l.currspeed ≠ last.currspeed ∨ l.functions ≠ last.func ∨ l.currdir ≠ last.dir

instance (l : Lokdef) (last : LastStatus) : Decidable (Differs l last) :=
  inferInstanceAs (Decidable (_ ∨ _))

def snapshot (l : Lokdef) : LastStatus :=
  { currspeed := l.currspeed, func := l.functions, dir := l.currdir }

def statusEntry (l : Lokdef) : FBTCtlMessage :=
  .struct STRUCT [(str "addr", .int l.addr), (str "speed", .int (statusSpeed l)),
    (str "functions", .int l.functions)]

def statusReply (entries : List FBTCtlMessage) : FBTCtlMessage :=
  .struct 8 [(str "info", .array entries)]

def changedLocos : List Lokdef → List LastStatus → List Lokdef
  | l :: rest, last :: others =>
    if l.addr = 0 then []
    else if Differs l last then l :: changedLocos rest others
    else changedLocos rest others
  | _, _ => []

def nextStatus : List Lokdef → List LastStatus → List LastStatus
  | l :: rest, last :: others =>
    if l.addr = 0 then last :: others
    else (if Differs l last then snapshot l else last) :: nextStatus rest others
  | _, lastStatus => lastStatus

def infoReply (type : Nat) (entries : List FBTCtlMessage) : FBTCtlMessage :=
  .struct type [(str "info", .array entries)]

theorem setInfo_new {type : Nat} (above : STRUCT < type) (entries : List FBTCtlMessage) (name : String)
    (value : FBTCtlMessage) :
    setInfo entries.length name value (infoReply type entries) =
      .ok (infoReply type (entries ++ [struct STRUCT [(str name, value)]])) := by
  have fresh : (entries ++ [struct STRUCT []])[entries.length]? = some (struct STRUCT []) := by simp
  have written : (entries ++ [struct STRUCT []]).set entries.length (struct STRUCT [(str name, value)]) =
      entries ++ [struct STRUCT [(str name, value)]] := by simp
  have allowed : ¬(type < STRUCT) ∧ ¬(STRUCT < STRUCT) := by omega
  simp only [setInfo,infoReply,modifyField,List.lookup,beq_self_eq_true,Option.getD_some,modifyIndex,
    Nat.le_refl,↓reduceIte,fresh,setField,FBTCtlMessage.insert,bind,Except.bind,pure,Except.pure,
    allowed.1,allowed.2,written]

theorem setInfo_more {type : Nat} (above : STRUCT < type) (entries : List FBTCtlMessage)
    (fields : List (Str × FBTCtlMessage)) (name : String) (value : FBTCtlMessage) :
    setInfo entries.length name value (infoReply type (entries ++ [struct STRUCT fields])) =
      .ok (infoReply type (entries ++ [struct STRUCT (FBTCtlMessage.insert (str name) value fields)])) := by
  have here : (entries ++ [struct STRUCT fields])[entries.length]? = some (struct STRUCT fields) := by simp
  have short : ¬(entries ++ [struct STRUCT fields]).length ≤ entries.length := by simp
  have written : (entries ++ [struct STRUCT fields]).set entries.length
      (struct STRUCT (FBTCtlMessage.insert (str name) value fields)) =
      entries ++ [struct STRUCT (FBTCtlMessage.insert (str name) value fields)] := by simp
  have allowed : ¬(type < STRUCT) ∧ ¬(STRUCT < STRUCT) := by omega
  have info (value : FBTCtlMessage) : FBTCtlMessage.insert (str "info") value
      [(str "info", array (entries ++ [struct STRUCT fields]))] = [(str "info", value)] := by
    simp only [FBTCtlMessage.insert,↓reduceIte]
  simp only [setInfo,infoReply,modifyField,List.lookup,beq_self_eq_true,Option.getD_some,modifyIndex,
    short,↓reduceIte,here,setField,bind,Except.bind,pure,Except.pure,allowed.1,allowed.2,written,info]

theorem statusLoop_reply (lokdef : List Lokdef) (lastStatus : List LastStatus)
    (entries : List FBTCtlMessage) :
    statusLoop lokdef lastStatus entries.length (statusReply entries) =
      .ok (statusReply (entries ++ (changedLocos lokdef lastStatus).map statusEntry),
        nextStatus lokdef lastStatus) := by
  induction lokdef generalizing lastStatus entries with
  | nil => simp [statusLoop,changedLocos,nextStatus]
  | cons l rest ih =>
    cases lastStatus with
    | nil => simp [statusLoop,changedLocos,nextStatus]
    | cons last others =>
      by_cases stop : l.addr = 0
      · simp [statusLoop,changedLocos,nextStatus,stop]
      by_cases differs : Differs l last
      · have filled : FBTCtlMessage.insert (str "functions") (.int l.functions)
            (FBTCtlMessage.insert (str "speed") (.int (statusSpeed l)) [(str "addr", .int l.addr)]) =
            [(str "addr", .int l.addr), (str "speed", .int (statusSpeed l)),
              (str "functions", .int l.functions)] := rfl
        have more := ih others (entries ++ [statusEntry l])
        rw [List.length_append,List.length_singleton] at more
        have test := differs
        rw [Differs] at test
        have above : STRUCT < 8 := by decide
        have same (entries : List FBTCtlMessage) : statusReply entries = infoReply 8 entries := rfl
        simp only [same,statusLoop,stop,test,↓reduceIte,setInfo_new above,setInfo_more above,bind,Except.bind] at more ⊢
        simp only [filled]
        rw [← statusEntry,more]
        simp only [pure,Except.pure,changedLocos,nextStatus,stop,differs,↓reduceIte,List.map_cons,
          List.append_assoc,List.singleton_append,snapshot]
      · have test := differs
        rw [Differs] at test
        simp only [statusLoop,stop,test,↓reduceIte,ih others entries,bind,Except.bind,pure,Except.pure,
          changedLocos,nextStatus,differs]

/-- `setLokStatus` does not fail; it tells of the changed locos in table order. -/
theorem setLokStatus_reply (lokdef : List Lokdef) (lastStatus : List LastStatus) :
    setLokStatus lokdef lastStatus (.struct 8 []) =
      .ok (statusReply ((changedLocos lokdef lastStatus).map statusEntry), nextStatus lokdef lastStatus) := by
  have start : setField (str "info") (.array []) (struct 8 []) = .ok (statusReply []) := rfl
  simp only [setLokStatus,start,bind,Except.bind]
  exact statusLoop_reply lokdef lastStatus []

theorem newMessage_status : newMessage "STATUS_REPLY" = .ok (.struct 8 []) := rfl

def statusInfo : MessageLayout :=
  arrayField "info" [Btcontrol.intField "addr", Btcontrol.intField "speed", Btcontrol.intField "functions"]

theorem encodeArray_status (changed : List Lokdef) :
    ∃ bytes, encodeArray protocolDat (changed.map statusEntry) statusInfo = .ok bytes := by
  induction changed with
  | nil => exact ⟨[],rfl⟩
  | cons l rest ih =>
    obtain ⟨more,encoded⟩ := ih
    have entry : ∃ bytes, encode protocolDat (statusEntry l) statusInfo = .ok bytes := ⟨_,rfl⟩
    obtain ⟨bytes,first⟩ := entry
    refine ⟨bytes ++ more,?_⟩
    simp only [List.map_cons,encodeArray,first,encoded]
    rfl

/-- Every STATUS_REPLY can be encoded. -/
theorem getBinaryMessage_status (changed : List Lokdef) :
    ∃ bytes, getBinaryMessage protocolDat (statusReply (changed.map statusEntry)) = .ok bytes := by
  obtain ⟨elements,encoded⟩ := encodeArray_status changed
  have layout : getMessageLayout protocolDat 8 = .ok (.mk 8 [] [statusInfo]) := rfl
  have named : statusInfo.name = str "info" := rfl
  have typed : statusInfo.type = ARRAY := rfl
  refine ⟨Bytes.le 1 8 ++ (Bytes.le 1 ARRAY ++ Bytes.le 1 (changed.map statusEntry).length ++ elements ++ []),?_⟩
  simp only [getBinaryMessage,statusReply,FBTCtlMessage.type,layout,encode,MessageLayout.childLayouts,
    writers,writeFields,named,typed,List.lookup,beq_self_eq_true,encoded,bind,Except.bind,pure,Except.pure,
    ↓reduceIte]

/-- A reply on a standing connection changes the last status only. -/
theorem sendStatusReply_sent {β : Type} (w : World) (connected : w.connected = true) (c : Ctx β) :
    sendStatusReply w c = .ok () { c with
      lastStatus := nextStatus c.lokdef c.lastStatus
      sent := c.sent ++ [statusReply ((changedLocos c.lokdef c.lastStatus).map statusEntry)] } := by
  obtain ⟨bytes,encoded⟩ := getBinaryMessage_status (changedLocos c.lokdef c.lastStatus)
  have built : (do setLokStatus c.lokdef c.lastStatus (← newMessage "STATUS_REPLY")) =
      .ok (statusReply ((changedLocos c.lokdef c.lastStatus).map statusEntry),
        nextStatus c.lokdef c.lastStatus) := setLokStatus_reply c.lokdef c.lastStatus
  simp only [sendStatusReply,bind,EStateM.bind,get_apply]
  simp only [bind] at built
  simp only [built,lift_ok,modify_apply,sendMessage,connected,↓reduceIte,encoded,bind,EStateM.bind]

/-- A closed connection throws, after the last status was changed. -/
theorem sendStatusReply_closed {β : Type} (w : World) (closed : w.connected = false) (c : Ctx β) :
    sendStatusReply w c =
      .error .notConnected { c with lastStatus := nextStatus c.lokdef c.lastStatus } := by
  have built : (do setLokStatus c.lokdef c.lastStatus (← newMessage "STATUS_REPLY")) =
      .ok (statusReply ((changedLocos c.lokdef c.lastStatus).map statusEntry),
        nextStatus c.lokdef c.lastStatus) := setLokStatus_reply c.lokdef c.lastStatus
  simp only [sendStatusReply,bind,EStateM.bind,get_apply]
  simp only [bind] at built
  simp only [built,lift_ok,modify_apply,sendMessage,closed,Bool.false_eq_true,↓reduceIte,throw_apply]

/-! The client's side: each entry of a reply replaces what it knew of that loco. -/

/-- What a client knows: speed and functions by address. -/
abbrev View := Int → Option (Int × Int)

def View.learn (view : View) (addr speed functions : Int) : View :=
  fun other => if other = addr then some (speed, functions) else view other

/-- The loop over `reply["info"]`. -/
def learnLoop (reply : FBTCtlMessage) : List Nat → View → Except Err View
  | [], view => .ok view
  | i :: rest, view => do
    let item ← (← reply.field (str "info")).index i
    let addr ← getInt item "addr"
    let speed ← getInt item "speed"
    let functions ← getInt item "functions"
    learnLoop reply rest (view.learn addr speed functions)

def learnReply (reply : FBTCtlMessage) (view : View) : Except Err View := do
  let an ← (← reply.field (str "info")).getArraySize
  learnLoop reply (List.range an) view

/-- One client along the tables its replies are built from. -/
def follow : List (List Lokdef) → List LastStatus → View → Except Err (List LastStatus × View)
  | [], lastStatus, view => .ok (lastStatus, view)
  | lokdef :: rest, lastStatus, view => do
    let (reply, lastStatus) ← setLokStatus lokdef lastStatus (← newMessage "STATUS_REPLY")
    let view ← learnReply reply view
    follow rest lastStatus view

def learned (view : View) (l : Lokdef) : View := view.learn l.addr (statusSpeed l) l.functions

theorem learnLoop_status (before after : List Lokdef) (view : View) :
    learnLoop (statusReply ((before ++ after).map statusEntry))
      (List.range' before.length after.length) view = .ok (after.foldl learned view) := by
  induction after generalizing before view with
  | nil => rfl
  | cons l rest ih =>
    have more := ih (before ++ [l]) (learned view l)
    rw [List.append_assoc,List.singleton_append,List.length_append,List.length_singleton] at more
    have here : ((before ++ l :: rest).map statusEntry)[before.length]? = some (statusEntry l) := by
      simp
    have item : (statusReply ((before ++ l :: rest).map statusEntry)).field (str "info") =
        .ok (.array ((before ++ l :: rest).map statusEntry)) := by
      simp only [statusReply,FBTCtlMessage.field,List.lookup,beq_self_eq_true,Option.getD_some]
      rfl
    have addr : getInt (statusEntry l) "addr" = .ok l.addr := rfl
    have speed : getInt (statusEntry l) "speed" = .ok (statusSpeed l) := rfl
    have functions : getInt (statusEntry l) "functions" = .ok l.functions := rfl
    simp only [List.length_cons,List.range'_succ,learnLoop,item,FBTCtlMessage.index,here,
      Option.getD_some,addr,speed,functions,bind,Except.bind]
    exact more

theorem learnReply_status (changed : List Lokdef) (view : View) :
    learnReply (statusReply (changed.map statusEntry)) view = .ok (changed.foldl learned view) := by
  have item : (statusReply (changed.map statusEntry)).field (str "info") =
      .ok (.array (changed.map statusEntry)) := by
    simp only [statusReply,FBTCtlMessage.field,List.lookup,beq_self_eq_true,Option.getD_some]
    rfl
  simp only [learnReply,item,getArraySize,List.length_map,List.range_eq_range',bind,Except.bind]
  exact learnLoop_status [] changed view

/-- `speed` of a reply, from the status that was kept of it. -/
def keptSpeed (last : LastStatus) : Int :=
  if last.currspeed = 0 then last.dir else last.currspeed * last.dir

/-- The client knows every loco as it was last sent. A slot with direction 0 was never sent. -/
def Known : List Lokdef → List LastStatus → View → Prop
  | l :: rest, last :: others, view => l.addr = 0 ∨
    ((last.dir ≠ 0 → view l.addr = some (keptSpeed last, last.func)) ∧ Known rest others view)
  | _, _, _ => True

theorem changedLocos_subset (lokdef : List Lokdef) (lastStatus : List LastStatus) :
    ∀ l ∈ changedLocos lokdef lastStatus, l ∈ locos lokdef := by
  induction lokdef generalizing lastStatus with
  | nil => simp [changedLocos]
  | cons first rest ih =>
    cases lastStatus with
    | nil => simp [changedLocos]
    | cons last others =>
      intro l member
      by_cases stop : first.addr = 0
      · simp [changedLocos,stop] at member
      · rw [locos_cons stop]
        simp only [changedLocos,stop,↓reduceIte] at member
        split at member
        · rcases List.mem_cons.mp member with rfl | later
          · exact List.mem_cons_self
          · exact List.mem_cons_of_mem _ (ih others l later)
        · exact List.mem_cons_of_mem _ (ih others l member)

theorem learned_other (changed : List Lokdef) (view : View) (addr : Int)
    (absent : addr ∉ changed.map Lokdef.addr) : changed.foldl learned view addr = view addr := by
  induction changed generalizing view with
  | nil => rfl
  | cons l rest ih =>
    simp only [List.map_cons,List.mem_cons,not_or] at absent
    rw [List.foldl_cons,ih _ absent.2]
    simp only [learned,View.learn,absent.1,↓reduceIte]

theorem known_learn (lokdef : List Lokdef) (lastStatus : List LastStatus) (view : View) (l : Lokdef)
    (absent : l.addr ∉ (locos lokdef).map Lokdef.addr) (known : Known lokdef lastStatus view) :
    Known lokdef lastStatus (learned view l) := by
  induction lokdef generalizing lastStatus with
  | nil => exact trivial
  | cons first rest ih =>
    cases lastStatus with
    | nil => exact trivial
    | cons last others =>
      by_cases stop : first.addr = 0
      · exact .inl stop
      · rw [locos_cons stop,List.map_cons,List.mem_cons,not_or] at absent
        rcases known with zero | ⟨here,later⟩
        · exact absurd zero stop
        · refine .inr ⟨?_,ih others absent.2 later⟩
          intro sent
          simp only [learned,View.learn,Ne.symm absent.1,↓reduceIte]
          exact here sent

theorem known_congr {lokdef lokdef' : List Lokdef} (lastStatus : List LastStatus) (view : View)
    (same : lokdef'.map Lokdef.addr = lokdef.map Lokdef.addr) (known : Known lokdef lastStatus view) :
    Known lokdef' lastStatus view := by
  revert lastStatus
  refine sameAddrs_induction (fun _ known => known) ?_ same
  intro l rest l' rest' addr ih lastStatus known
  cases lastStatus with
  | nil => exact trivial
  | cons last others =>
    rcases known with zero | ⟨here,later⟩
    · exact .inl (addr.trans zero)
    · exact .inr ⟨fun sent => addr ▸ here sent,ih others later⟩

/-- After a reply the client knows every loco as it is. -/
theorem learned_exact (lokdef : List Lokdef) (lastStatus : List LastStatus) (view : View)
    (slots : nLokdef lokdef ≤ lastStatus.length)
    (distinct : ((locos lokdef).map Lokdef.addr).Nodup)
    (directed : ∀ l ∈ locos lokdef, l.currdir ≠ 0) (known : Known lokdef lastStatus view) :
    ∀ l ∈ locos lokdef, (changedLocos lokdef lastStatus).foldl learned view l.addr =
      some (statusSpeed l, l.functions) := by
  -- along the table; what the later entries say of other locos does not touch this one
  induction lokdef generalizing lastStatus view with
  | nil => simp [locos]
  | cons first rest ih =>
    by_cases stop : first.addr = 0
    · simp [locos_end stop]
    simp only [nLokdef,stop,↓reduceIte] at slots
    rw [locos_cons stop] at distinct directed ⊢
    cases lastStatus with
    | nil => simp at slots
    | cons last others =>
      simp only [List.length_cons,Nat.add_le_add_iff_right] at slots
      obtain ⟨absent,distinctRest⟩ := List.nodup_cons.mp (List.map_cons ▸ distinct)
      have directedRest : ∀ l ∈ locos rest, l.currdir ≠ 0 :=
        fun l member => directed l (List.mem_cons_of_mem _ member)
      have untouched : first.addr ∉ (changedLocos rest others).map Lokdef.addr := by
        intro member
        obtain ⟨l,changed,same⟩ := List.mem_map.mp member
        exact absent (List.mem_map.mpr ⟨l,changedLocos_subset rest others l changed,same⟩)
      rcases known with zero | ⟨here,later⟩
      · exact absurd zero stop
      intro l member
      by_cases differs : Differs first last
      · simp only [changedLocos,stop,differs,↓reduceIte,List.foldl_cons]
        rcases List.mem_cons.mp member with rfl | laterLoco
        · rw [learned_other _ _ _ untouched]
          simp only [learned,View.learn,↓reduceIte]
        · exact ih others _ slots distinctRest directedRest
            (known_learn rest others view first absent later) l laterLoco
      · simp only [changedLocos,stop,differs,↓reduceIte]
        rcases List.mem_cons.mp member with rfl | laterLoco
        · -- nothing is sent: the kept status is the current one, so it was sent before
          rw [learned_other _ _ _ untouched]
          simp only [Differs,not_or,Decidable.not_not] at differs
          obtain ⟨speed,func,dir⟩ := differs
          rw [here (dir ▸ directed l List.mem_cons_self)]
          simp only [keptSpeed,statusSpeed,speed,func,dir]
        · exact ih others view slots distinctRest directedRest later l laterLoco

theorem nextStatus_length (lokdef : List Lokdef) (lastStatus : List LastStatus) :
    (nextStatus lokdef lastStatus).length = lastStatus.length := by
  induction lokdef generalizing lastStatus with
  | nil => rfl
  | cons l rest ih =>
    cases lastStatus with
    | nil => rfl
    | cons last others =>
      simp only [nextStatus]
      split
      · rfl
      · simp only [List.length_cons,ih]

/-- The status kept after a reply is what the client knows. -/
theorem known_next (lokdef : List Lokdef) (lastStatus : List LastStatus) (view : View)
    (exactly : ∀ l ∈ locos lokdef, view l.addr = some (statusSpeed l, l.functions)) :
    Known lokdef (nextStatus lokdef lastStatus) view := by
  induction lokdef generalizing lastStatus with
  | nil => exact trivial
  | cons first rest ih =>
    cases lastStatus with
    | nil => exact trivial
    | cons last others =>
      by_cases stop : first.addr = 0
      · simp only [nextStatus,stop,↓reduceIte]
        exact .inl stop
      rw [locos_cons stop] at exactly
      simp only [nextStatus,stop,↓reduceIte]
      refine .inr ⟨fun _ => ?_,ih others (fun l member => exactly l (List.mem_cons_of_mem _ member))⟩
      have kept : (if Differs first last then snapshot first else last) = snapshot first := by
        split
        · rfl
        · rename_i same
          simp only [Differs,not_or,Decidable.not_not] at same
          obtain ⟨speed,func,dir⟩ := same
          simp only [snapshot,speed,func,dir]
      rw [kept]
      exact exactly first List.mem_cons_self

/-- The table of a state reached from `lokdef`: the same addresses, every loco with a
direction. -/
def Directed (lokdef lokdef' : List Lokdef) : Prop :=
  lokdef'.map Lokdef.addr = lokdef.map Lokdef.addr ∧
    ∀ l ∈ locos lokdef', l.currdir = 1 ∨ l.currdir = -1

/-- One reply brings the client from what it knew to what is. -/
theorem follow_cons (lokdef now : List Lokdef) (rest : List (List Lokdef)) (lastStatus : List LastStatus)
    (view : View) (distinct : ((locos lokdef).map Lokdef.addr).Nodup) (state : Directed lokdef now)
    (slots : nLokdef lokdef ≤ lastStatus.length) (known : Known lokdef lastStatus view) :
    ∃ view', follow (now :: rest) lastStatus view = follow rest (nextStatus now lastStatus) view' ∧
      Known lokdef (nextStatus now lastStatus) view' ∧
      ∀ l ∈ locos now, view' l.addr = some (statusSpeed l, l.functions) := by
  have exactly := learned_exact now lastStatus view (nLokdef_congr state.1 ▸ slots)
    (locos_addrs_congr state.1 ▸ distinct)
    (fun l member => by rcases state.2 l member with h | h <;> rw [h] <;> decide)
    (known_congr lastStatus view state.1 known)
  refine ⟨(changedLocos now lastStatus).foldl learned view,?_,?_,exactly⟩
  · simp only [follow,newMessage_status,setLokStatus_reply,learnReply_status,bind,Except.bind]
  · exact known_congr _ _ state.1.symm (known_next now lastStatus _ exactly)

theorem known_initial (lokdef : List Lokdef) (view : View) :
    ∀ slots, Known lokdef (List.replicate slots {}) view := by
  induction lokdef with
  | nil => exact fun _ => trivial
  | cons l rest ih =>
    intro slots
    cases slots with
    | zero => exact trivial
    | succ slots => exact .inr ⟨fun sent => absurd rfl sent,ih slots⟩

/-- The replies of one client, each built from the table as it then is, keep what the
client knows exact for every loco of the table. -/
theorem follow_exact (lokdef : List Lokdef) (before : List (List Lokdef)) (now : List Lokdef)
    (distinct : ((locos lokdef).map Lokdef.addr).Nodup)
    (states : ∀ state ∈ before ++ [now], Directed lokdef state) :
    ∃ lastStatus view,
      follow (before ++ [now]) (initialStatus lokdef) (fun _ => none) = .ok (lastStatus, view) ∧
      ∀ l ∈ locos now, ∃ mask : BitVec 32,
        view l.addr = some (if l.currspeed = 0 then l.currdir else l.currspeed * l.currdir, mask.toInt) ∧
        ∀ (j : Nat) (bound : j < MAX_NFUNC),
          mask.getLsbD j = (decide ((j : Int) < l.nFunc) && l.func[j].ison) := by
  have run : ∀ before lastStatus view, nLokdef lokdef ≤ lastStatus.length →
      Known lokdef lastStatus view → (∀ state ∈ before ++ [now], Directed lokdef state) →
      ∃ lastStatus' view', follow (before ++ [now]) lastStatus view = .ok (lastStatus', view') ∧
        ∀ l ∈ locos now, view' l.addr = some (statusSpeed l, l.functions) := by
    intro before
    induction before with
    | nil =>
      intro lastStatus view slots known states
      obtain ⟨view',step,_,exactly⟩ := follow_cons lokdef now [] lastStatus view distinct
        (states now List.mem_cons_self) slots known
      exact ⟨_,view',step,exactly⟩
    | cons first rest ih =>
      intro lastStatus view slots known states
      obtain ⟨view',step,known',_⟩ := follow_cons lokdef first (rest ++ [now]) lastStatus view distinct
        (states first List.mem_cons_self) slots known
      rw [List.cons_append,step]
      exact ih _ view' (nextStatus_length first lastStatus ▸ slots) known'
        (fun state member => states state (List.mem_cons_of_mem _ member))
  obtain ⟨lastStatus,view,followed,exactly⟩ := run before (initialStatus lokdef) (fun _ => none)
    (by simp [initialStatus]) (known_initial lokdef _ _) states
  refine ⟨lastStatus,view,followed,?_⟩
  intro l member
  obtain ⟨mask,functions,bits⟩ := l.functions_bits
  exact ⟨mask,functions ▸ exactly l member,bits⟩

/-- A loco gets faster between two replies. -/
theorem follow_exact_faster : ∃ lastStatus view,
    follow ([twoLocos] ++ [twoLocos.modify 0 (setSpeed 5)]) (initialStatus twoLocos) (fun _ => none) =
      .ok (lastStatus, view) ∧
    ∀ l ∈ locos (twoLocos.modify 0 (setSpeed 5)), ∃ mask : BitVec 32,
      view l.addr = some (if l.currspeed = 0 then l.currdir else l.currspeed * l.currdir, mask.toInt) ∧
      ∀ (j : Nat) (bound : j < MAX_NFUNC),
        mask.getLsbD j = (decide ((j : Int) < l.nFunc) && l.func[j].ison) := by
  refine follow_exact twoLocos [twoLocos] (twoLocos.modify 0 (setSpeed 5)) (by decide) ?_
  intro state member
  rcases List.mem_append.mp member with first | later
  · rw [List.mem_singleton] at first
    subst first
    exact ⟨rfl,by decide +kernel⟩
  · rw [List.mem_singleton] at later
    subst later
    exact ⟨rfl,by decide +kernel⟩

end Btcontrol.ClientThread
