import Btcontrol.Replies

/-! The server on the wire. Every client thread reads its commands from what `::read` returns on
its own connection, and writes its replies there. A turn of a thread is one `readMessage` and the
work on the message; the turns of all threads interleave in any order. -/
namespace Btcontrol

open Exec ClientThread CommThread Bytes

/-- One connection, `so` being what `::read` will still return. -/
structure Connection where
  clientID : Int
  so : List (List UInt8)
  /-- Records, read by no step: all that `::read` returns, the commands `readMessage` has returned
  and the messages the thread has sent. -/
  stream : List (List UInt8)
  commands : List FBTCtlMessage := []
  replies : List FBTCtlMessage := []

structure WireServer (β : Type) where
  server : Server β
  connections : List Connection := []
  /-- A record: the steps the server has taken. -/
  trace : List Label := []

inductive WireLabel where
  | accept (so : List (List UInt8))
  | turn (clientID : Int) (w : World)
  /-- Nothing comes in time, or the connection breaks. -/
  | hangup (clientID : Int)
  | destroy (clientID : Int)

/-- The message of a step, if it is one of this client. -/
def messageOf (clientID : Int) : Label → Option FBTCtlMessage
  | .message other _ cmd => if other = clientID then some cmd else none
  | _ => none

def Connection.write (sent : List FBTCtlMessage) (c : Connection) : Connection :=
  { c with replies := c.replies ++ sent }

def Connection.take (cmd : FBTCtlMessage) (so : List (List UInt8)) (c : Connection) : Connection :=
  { c with so, commands := c.commands ++ [cmd] }

namespace WireServer

variable {β : Type} (hardware : Hardware β)

def connectionOf (s : WireServer β) (clientID : Int) : Option Connection :=
  s.connections.find? (fun c => c.clientID == clientID)

def onConnection (s : WireServer β) (clientID : Int) (f : Connection → Connection) : WireServer β :=
  { s with connections := s.connections.map (fun c => if c.clientID = clientID then f c else c) }

def takes (s : WireServer β) (label : Label) : WireServer β :=
  { s with server := Server.step hardware s.server label, trace := s.trace ++ [label] }

def serve (s : WireServer β) (clientID : Int) (w : World) (lastStatus : List LastStatus)
    (changedAddrIndex : List Bool) (c : Connection) : WireServer β :=
  match readMessage protocolDat c.so with
  | .error _ => s.takes hardware (.readFails clientID)
  | .ok (cmd, so) =>
    let processed := processMessage hardware clientID w cmd (s.server.context lastStatus changedAddrIndex)
    (s.takes hardware (.message clientID w cmd)).onConnection clientID
      (fun c => (c.take cmd so).write (final processed).sent)

def step (s : WireServer β) (label : WireLabel) : WireServer β :=
  if s.server.halted then s
  else match label with
  | .accept so => { s.takes hardware .accept with
      connections := s.connections ++ [{ clientID := s.server.clientID_counter, so, stream := so }] }
  | .hangup clientID => s.takes hardware (.readFails clientID)
  | .destroy clientID => s.takes hardware (.destroy clientID)
  | .turn clientID w => match s.server.phaseOf clientID with
    | some .accepted => (s.takes hardware (.helo clientID w)).onConnection clientID
        (Connection.write (final (sendHelo hardware w (s.server.context [] []))).sent)
    | some (.running lastStatus changedAddrIndex) => match s.connectionOf clientID with
      | some c => s.serve hardware clientID w lastStatus changedAddrIndex c
      | none => s
    | _ => s

def start (lokdef : List Lokdef) (device : β) : WireServer β := { server := Server.start lokdef device }

def run (s : WireServer β) (labels : List WireLabel) : WireServer β := Transition.run (step hardware) s labels

end WireServer

/-! ### Messages in front of a stream -/

theorem readMessages_add (messageLayouts : MessageLayouts) (n k : Nat) (so : List (List UInt8)) :
    readMessages messageLayouts (n + k) so = (do
      let (front, so) ← readMessages messageLayouts n so
      let (more, so) ← readMessages messageLayouts k so
      return (front ++ more, so)) := by
  induction n generalizing so with
  | zero =>
    rw [Nat.zero_add]
    simp only [readMessages,bind,Except.bind,pure,Except.pure,List.nil_append]
    cases readMessages messageLayouts k so <;> rfl
  | succ n ih =>
    rw [Nat.succ_add]
    simp only [readMessages,ih,bind,Except.bind,pure,Except.pure]
    cases readMessage messageLayouts so with
    | error e => rfl
    | ok first =>
      dsimp only
      cases readMessages messageLayouts n first.2 with
      | error e => rfl
      | ok front =>
        dsimp only
        cases readMessages messageLayouts k front.2 <;> rfl

theorem sendMessages_append {messageLayouts : MessageLayouts} {front more : List FBTCtlMessage} {bytes : List UInt8}
    (sent : sendMessages messageLayouts (front ++ more) = .ok bytes) :
    ∃ first rest, sendMessages messageLayouts front = .ok first ∧ sendMessages messageLayouts more = .ok rest ∧
      bytes = first ++ rest := by
  induction front generalizing bytes with
  | nil => exact ⟨[],bytes,rfl,sent,rfl⟩
  | cons m front ih =>
    obtain ⟨own,encoded,sent⟩ := ok_of_bind sent
    obtain ⟨others,encodedOthers,sent⟩ := ok_of_bind sent
    obtain ⟨first,rest,sentFirst,sentRest,rfl⟩ := ih encodedOthers
    refine ⟨own ++ first,rest,?_,sentRest,?_⟩
    · simp only [sendMessages,encoded,sentFirst]
      rfl
    · rw [List.append_assoc]
      exact (Except.ok.inj sent).symm

/-- The messages that a stream starts with are read from any delivery of it. -/
theorem readMessages_front {messageLayouts : MessageLayouts} {ms : List FBTCtlMessage}
    (sendable : ∀ m ∈ ms, ∃ layout, Sendable messageLayouts m layout) {front : List UInt8}
    (sent : sendMessages messageLayouts ms = .ok front) (more : List UInt8) (so : List (List UInt8))
    (delivered : Delivered so) (stream : so.flatten = front ++ more) :
    ∃ so', readMessages messageLayouts ms.length so = .ok (ms.map (restricted messageLayouts), so') ∧
      so'.flatten = more ∧ Delivered so' := by
  induction ms generalizing front so with
  | nil =>
    cases sent
    exact ⟨so,rfl,stream,delivered⟩
  | cons m rest ih =>
    obtain ⟨layout,send⟩ := sendable m List.mem_cons_self
    obtain ⟨own,encoded,sent⟩ := ok_of_bind sent
    obtain ⟨others,encodedOthers,sent⟩ := ok_of_bind sent
    obtain rfl := Except.ok.inj sent
    have bytes := Codec.getBinaryMessage_bytes messageLayouts layout m send.found send.conforms
    have frame : own = le 4 (Wire.messageBytes layout m).length ++ Wire.messageBytes layout m := by
      simp only [CommThread.sendMessage,bytes] at encoded
      exact (Except.ok.inj encoded).symm
    rw [frame,List.append_assoc,List.append_assoc] at stream
    obtain ⟨so1,first,flat,ok⟩ := readMessage_front messageLayouts layout m send.found send.layoutOK
      send.conforms (send.size _ bytes) (others ++ more) so delivered stream
    obtain ⟨so2,later,flat2,ok2⟩ := ih (fun other member => sendable other (List.mem_cons_of_mem _ member))
      encodedOthers so1 ok flat
    have restrictedEq : restricted messageLayouts m = Wire.restrictMessage layout m := by
      simp only [restricted,send.found]
    refine ⟨so2,?_,flat2,ok2⟩
    simp only [List.length_cons,readMessages,first,later,bind,Except.bind,pure,Except.pure,List.map_cons,restrictedEq]

theorem readMessage_nothing (messageLayouts : MessageLayouts) (so : List (List UInt8)) (delivered : Delivered so)
    (empty : so.flatten = []) : ∃ e, readMessage messageLayouts so = .error e := by
  have nothing : so = [] := by
    cases so with
    | nil => rfl
    | cons piece rest => exact absurd (List.append_eq_nil_iff.mp empty).1 (delivered piece List.mem_cons_self)
  subst nothing
  refine ⟨.nothingToRead,?_⟩
  have closed : myRead 4 [] = .error .nothingToRead := by
    rw [myRead]
    rfl
  simp only [readMessage,closed,bind,Except.bind]

/-- What `readMessage` returns while these messages are still to come. -/
def Awaits (so : List (List UInt8)) : List FBTCtlMessage → Prop
  | [] => ∃ e, readMessage protocolDat so = .error e
  | next :: _ => ∃ so', readMessage protocolDat so = .ok (restricted protocolDat next, so')

theorem readMessage_next {ms : List FBTCtlMessage} {so : List (List UInt8)}
    (sendable : ∀ m ∈ ms, ∃ layout, Sendable protocolDat m layout) (delivered : Delivered so)
    (sent : sendMessages protocolDat ms = .ok so.flatten) :
    Awaits so ms := by
  cases ms with
  | nil => exact readMessage_nothing protocolDat so delivered (Except.ok.inj sent).symm
  | cons next later =>
    have split : sendMessages protocolDat ([next] ++ later) = .ok so.flatten := sent
    obtain ⟨first,rest,sentFirst,_,bytes⟩ := sendMessages_append split
    obtain ⟨so',read,_⟩ := readMessages_front
      (fun m member => sendable m (List.mem_cons.mpr (.inl (List.mem_singleton.mp member)))) sentFirst rest so delivered bytes
    obtain ⟨⟨cmd,so1⟩,one,read⟩ := ok_of_bind read
    obtain ⟨rfl,_⟩ := List.cons.inj (Prod.mk.inj (Except.ok.inj read)).1
    exact ⟨so1,one⟩

/-- What successive reads have returned of the messages sent, and what comes next. -/
theorem readMessages_sent {ms cmds : List FBTCtlMessage} {stream so : List (List UInt8)}
    (sendable : ∀ m ∈ ms, ∃ layout, Sendable protocolDat m layout) (delivered : Delivered stream)
    (sent : sendMessages protocolDat ms = .ok stream.flatten)
    (read : readMessages protocolDat cmds.length stream = .ok (cmds, so)) :
    ∃ done rest, ms = done ++ rest ∧ cmds = done.map (restricted protocolDat) ∧ Awaits so rest := by
  by_cases short : cmds.length ≤ ms.length
  · obtain ⟨done,rest,rfl,count⟩ : ∃ done rest, ms = done ++ rest ∧ done.length = cmds.length :=
      ⟨_,_,(List.take_append_drop cmds.length ms).symm,List.length_take_of_le short⟩
    obtain ⟨first,more,sentFirst,sentMore,bytes⟩ := sendMessages_append sent
    obtain ⟨so',readFirst,flat,ok⟩ := readMessages_front
      (fun m member => sendable m (List.mem_append_left _ member)) sentFirst more stream delivered bytes
    rw [count,read] at readFirst
    obtain ⟨same,rfl⟩ := Prod.mk.inj (Except.ok.inj readFirst)
    refine ⟨done,rest,rfl,same,?_⟩
    exact readMessage_next (fun m member => sendable m (List.mem_append_right _ member)) ok (flat ▸ sentMore)
  · -- one more message than was sent cannot have come
    obtain ⟨k,more⟩ : ∃ k, cmds.length = ms.length + (k + 1) := ⟨cmds.length - ms.length - 1,by omega⟩
    obtain ⟨so',readAll,flat,ok⟩ := readMessages_front sendable sent [] stream delivered (List.append_nil _).symm
    obtain ⟨e,nothing⟩ := readMessage_nothing protocolDat so' ok flat
    rw [more,readMessages_add,readAll] at read
    simp only [readMessages,nothing,bind,Except.bind] at read
    cases read

/-! ### Whether a message can be sent -/

namespace Wire

open DataType

mutual
def decFieldOK : (it : MessageLayout) → Decidable (FieldOK it)
  | .mk type _ childLayouts =>
    let fields := decFieldsOK childLayouts
    decidable_of_iff (type = INT ∨ type = STRING ∨ (type = ARRAY ∧ childLayouts ≠ [] ∧
      (childLayouts.map MessageLayout.name).Nodup ∧ FieldsOK childLayouts)) (by rw [FieldOK])

def decFieldsOK : (childLayouts : List MessageLayout) → Decidable (FieldsOK childLayouts)
  | [] => isTrue (by rw [FieldsOK]; trivial)
  | it :: rest =>
    let first := decFieldOK it
    let others := decFieldsOK rest
    decidable_of_iff (FieldOK it ∧ FieldsOK rest) (by rw [FieldsOK])
end

mutual
def decFits : (it : MessageLayout) → (value : FBTCtlMessage) → Decidable (Fits it value)
  | .mk type _ childLayouts, value => match value with
    | .int ival => decidable_of_iff (type = INT ∧ Fits32 ival) (by rw [Fits])
    | .string sval => decidable_of_iff (type = STRING ∧ sval.length ≤ 65535) (by rw [Fits])
    | .array arrayVal =>
      let fields := decFieldsFit childLayouts
      decidable_of_iff (type = ARRAY ∧ arrayVal.length ≤ 255 ∧
        ∀ element ∈ arrayVal, element.type = STRUCT ∧ FieldsFit childLayouts element.fields) (by rw [Fits])
    | .undef => isFalse (by simp [Fits])
    | .struct _ _ => isFalse (by simp [Fits])
    | .null _ => isFalse (by simp [Fits])

def decFieldsFit : (childLayouts : List MessageLayout) → (structVal : List (Str × FBTCtlMessage)) →
    Decidable (FieldsFit childLayouts structVal)
  | [], _ => isTrue (by rw [FieldsFit]; trivial)
  | it :: rest, structVal =>
    let others := decFieldsFit rest structVal
    match found : structVal.lookup it.name with
    | none => isFalse (by simp [FieldsFit,found])
    | some value =>
      let first := decFits it value
      decidable_of_iff (Fits it value ∧ FieldsFit rest structVal) (by simp [FieldsFit,found])
end

instance (it : MessageLayout) : Decidable (FieldOK it) := decFieldOK it
instance (childLayouts : List MessageLayout) : Decidable (FieldsOK childLayouts) := decFieldsOK childLayouts
instance (childLayouts : List MessageLayout) (structVal : List (Str × FBTCtlMessage)) :
    Decidable (FieldsFit childLayouts structVal) := decFieldsFit childLayouts structVal

instance (childLayouts : List MessageLayout) : Decidable (StructOK childLayouts) := inferInstanceAs (Decidable (_ ∧ _))

instance (layout : MessageLayout) (m : FBTCtlMessage) : Decidable (Conforms layout m) :=
  inferInstanceAs (Decidable (_ ∧ _ ∧ _))

end Wire

theorem sendable_iff (m : FBTCtlMessage) : (∃ layout, Sendable protocolDat m layout) ↔
    ∃ layout, (getMessageLayout protocolDat m.type).toOption = some layout ∧ Wire.StructOK layout.childLayouts ∧
      Wire.Conforms layout m ∧ (Wire.messageBytes layout m).length ≤ MAX_MESSAGE_SIZE := by
  constructor
  · rintro ⟨layout,send⟩
    have bytes := Codec.getBinaryMessage_bytes protocolDat layout m send.found send.conforms
    exact ⟨layout,by rw [send.found]; rfl,send.layoutOK,send.conforms,send.size _ bytes⟩
  · rintro ⟨layout,found,layoutOK,conforms,small⟩
    have found := ok_of_toOption found
    refine ⟨layout,found,layoutOK,conforms,?_⟩
    intro bytes encoded
    rw [Codec.getBinaryMessage_bytes protocolDat layout m found conforms] at encoded
    cases encoded
    exact small

instance (m : FBTCtlMessage) : Decidable (∃ layout, Sendable protocolDat m layout) :=
  match found : (getMessageLayout protocolDat m.type).toOption with
  | none => isFalse (by simp [sendable_iff,found])
  | some layout => decidable_of_iff (Wire.StructOK layout.childLayouts ∧ Wire.Conforms layout m ∧
      (Wire.messageBytes layout m).length ≤ MAX_MESSAGE_SIZE) (by simp [sendable_iff,found])

/-- Messages that can be sent are, and can arrive in some way. -/
theorem sendMessages_delivery {ms : List FBTCtlMessage} (sendable : ∀ m ∈ ms, ∃ layout, Sendable protocolDat m layout) :
    ∃ so, Delivered so ∧ sendMessages protocolDat ms = .ok so.flatten := by
  induction ms with
  | nil => exact ⟨[],by simp [Delivered],rfl⟩
  | cons m rest ih =>
    obtain ⟨layout,send⟩ := sendable m List.mem_cons_self
    have bytes := Codec.getBinaryMessage_bytes protocolDat layout m send.found send.conforms
    obtain ⟨so,delivered,sent⟩ := ih (fun other member => sendable other (List.mem_cons_of_mem _ member))
    refine ⟨(le 4 (Wire.messageBytes layout m).length ++ Wire.messageBytes layout m) :: so,?_,?_⟩
    · rintro piece (_ | ⟨_,later⟩)
      · simp [le]
      · exact delivered piece later
    · simp only [sendMessages,CommThread.sendMessage,bytes,sent,bind,Except.bind,pure,Except.pure,List.flatten_cons]

/-! ### The connections of a server -/

namespace WireServer

variable {β : Type} (hardware : Hardware β)

/-- Only accepting a client counts on. -/
theorem step_counter (s : Server β) (label : Label) :
    (Server.step hardware s label).clientID_counter = s.clientID_counter ∨
      label = .accept ∧ (Server.step hardware s label).clientID_counter = s.clientID_counter + 1 := by
  by_cases halted : s.halted = true
  · exact .inl (by rw [Server.step_halted hardware s label halted])
  have live : s.halted = false := Bool.eq_false_iff.mpr halted
  cases label <;> simp only [Server.step,live,Bool.false_eq_true,↓reduceIte]
  case accept => exact .inr ⟨trivial,trivial⟩
  case helo clientID w =>
    left
    split
    · cases sendHelo hardware w (s.context [] []) <;> rfl
    · rfl
  case message clientID w cmd =>
    left
    split
    · rename_i lastStatus changedAddrIndex _
      cases processMessage hardware clientID w cmd (s.context lastStatus changedAddrIndex) <;> rfl
    · rfl
  case readFails clientID =>
    left
    split <;> rfl
  case destroy clientID =>
    left
    split <;> rfl

structure Wired (lokdef : List Lokdef) (device : β) (s : WireServer β) : Prop where
  simulates : s.server = Server.run hardware (Server.start lokdef device) s.trace
  below : ∀ c ∈ s.connections, c.clientID < s.server.clientID_counter
  distinct : (s.connections.map Connection.clientID).Nodup
  unused : ∀ clientID, s.server.clientID_counter ≤ clientID → s.trace.filterMap (messageOf clientID) = []
  commands : ∀ c ∈ s.connections, s.trace.filterMap (messageOf c.clientID) = c.commands
  read : ∀ c ∈ s.connections, readMessages protocolDat c.commands.length c.stream = .ok (c.commands, c.so)

variable {hardware} {lokdef : List Lokdef} {device : β} {s : WireServer β}

theorem Wired.server (wired : Wired hardware lokdef device s) (label : Label) :
    (s.takes hardware label).server = Server.run hardware (Server.start lokdef device) (s.takes hardware label).trace := by
  simp only [takes,Server.run,Transition.run_append,wired.simulates]
  rfl

/-- A step that is no message of a client. -/
theorem Wired.takes (wired : Wired hardware lokdef device s) (label : Label) (other : label ≠ .accept)
    (silent : ∀ clientID, messageOf clientID label = none) : Wired hardware lokdef device (s.takes hardware label) := by
  have counter : (s.takes hardware label).server.clientID_counter = s.server.clientID_counter := by
    rcases step_counter hardware s.server label with same | ⟨accepts,_⟩
    · exact same
    · exact absurd accepts other
  have messages (clientID : Int) : (s.takes hardware label).trace.filterMap (messageOf clientID) =
      s.trace.filterMap (messageOf clientID) := by
    simp [WireServer.takes,silent]
  refine ⟨wired.server label,?_,wired.distinct,?_,?_,wired.read⟩
  · rw [counter]
    exact wired.below
  · intro clientID above
    rw [messages]
    exact wired.unused clientID (counter ▸ above)
  · intro c member
    rw [messages]
    exact wired.commands c member

/-- No two connections have one number. -/
theorem Wired.found (wired : Wired hardware lokdef device s) {c : Connection} (opened : c ∈ s.connections) :
    s.connectionOf c.clientID = some c := by
  have some : (s.connectionOf c.clientID).isSome := by
    rw [connectionOf,List.find?_isSome]
    exact ⟨c,opened,by simp⟩
  obtain ⟨other,found⟩ := Option.isSome_iff_exists.mp some
  have same : other.clientID = c.clientID := by simpa using List.find?_some found
  rw [found,List.inj_on_of_nodup_map wired.distinct (List.mem_of_find?_eq_some found) opened same]

/-- The connection a thread works on. -/
theorem mem_onConnection {clientID : Int} {f : Connection → Connection} {c : Connection}
    (member : c ∈ (s.onConnection clientID f).connections) :
    (∃ before ∈ s.connections, before.clientID = clientID ∧ c = f before) ∨
      c ∈ s.connections ∧ c.clientID ≠ clientID := by
  obtain ⟨before,inside,rfl⟩ := List.mem_map.mp member
  by_cases own : before.clientID = clientID
  · exact .inl ⟨before,inside,own,by rw [if_pos own]⟩
  · refine .inr ?_
    rw [if_neg own]
    exact ⟨inside,own⟩

theorem onConnection_ids (clientID : Int) {f : Connection → Connection}
    (named : ∀ c, (f c).clientID = c.clientID) :
    (s.onConnection clientID f).connections.map Connection.clientID = s.connections.map Connection.clientID := by
  simp only [onConnection,List.map_map]
  refine List.map_congr_left (fun c _ => ?_)
  by_cases own : c.clientID = clientID
  · simp [own,named]
  · simp [own]

/-- Writing changes nothing of what is read. -/
theorem Wired.write (wired : Wired hardware lokdef device s) (clientID : Int) (sent : List FBTCtlMessage) :
    Wired hardware lokdef device (s.onConnection clientID (Connection.write sent)) := by
  have same (c : Connection) (member : c ∈ (s.onConnection clientID (Connection.write sent)).connections) :
      ∃ before ∈ s.connections, c.clientID = before.clientID ∧ c.commands = before.commands ∧
        c.stream = before.stream ∧ c.so = before.so := by
    rcases mem_onConnection member with ⟨before,inside,_,rfl⟩ | ⟨inside,_⟩
    · exact ⟨before,inside,rfl,rfl,rfl,rfl⟩
    · exact ⟨c,inside,rfl,rfl,rfl,rfl⟩
  refine ⟨wired.simulates,?_,?_,wired.unused,?_,?_⟩
  · intro c member
    obtain ⟨before,inside,id,_⟩ := same c member
    exact id ▸ wired.below before inside
  · rw [onConnection_ids clientID (f := Connection.write sent) (fun c => rfl)]
    exact wired.distinct
  · intro c member
    obtain ⟨before,inside,id,commands,_⟩ := same c member
    rw [id,commands]
    exact wired.commands before inside
  · intro c member
    obtain ⟨before,inside,_,commands,stream,so⟩ := same c member
    rw [commands,stream,so]
    exact wired.read before inside

/-- A message of a connection. -/
theorem Wired.take (wired : Wired hardware lokdef device s) {clientID : Int} (w : World) {c : Connection}
    {cmd : FBTCtlMessage} {so : List (List UInt8)} (open_ : s.connectionOf clientID = some c)
    (read : readMessage protocolDat c.so = .ok (cmd, so)) :
    Wired hardware lokdef device
      ((s.takes hardware (.message clientID w cmd)).onConnection clientID (Connection.take cmd so)) := by
  have inside := List.mem_of_find?_eq_some open_
  have own : c.clientID = clientID := by
    have test := List.find?_some open_
    simpa using test
  have counter : (s.takes hardware (.message clientID w cmd)).server.clientID_counter = s.server.clientID_counter := by
    rcases step_counter hardware s.server (.message clientID w cmd) with same | ⟨accepts,_⟩
    · exact same
    · cases accepts
  have only (before : Connection) (member : before ∈ s.connections) (same : before.clientID = clientID) : before = c :=
    List.inj_on_of_nodup_map wired.distinct member inside (same.trans own.symm)
  have messages (other : Int) : (s.trace ++ [Label.message clientID w cmd]).filterMap (messageOf other) =
      s.trace.filterMap (messageOf other) ++ (if clientID = other then [cmd] else []) := by
    rw [List.filterMap_append]
    congr 1
    by_cases same : clientID = other <;> simp [messageOf,same]
  refine ⟨wired.server (.message clientID w cmd),?_,?_,?_,?_,?_⟩
  · intro other member
    rcases mem_onConnection member with ⟨before,there,same,rfl⟩ | ⟨there,_⟩
    · exact counter ▸ wired.below before there
    · exact counter ▸ wired.below other there
  · rw [onConnection_ids clientID (f := Connection.take cmd so) (fun c => rfl)]
    exact wired.distinct
  · intro other above
    have fresh : clientID ≠ other := by
      have bound := wired.below c inside
      rw [own] at bound
      have above : s.server.clientID_counter ≤ other := counter ▸ above
      omega
    show (s.trace ++ [Label.message clientID w cmd]).filterMap (messageOf other) = []
    rw [messages,if_neg fresh,List.append_nil]
    exact wired.unused other (counter ▸ above)
  · intro other member
    show (s.trace ++ [Label.message clientID w cmd]).filterMap (messageOf other.clientID) = other.commands
    rw [messages]
    rcases mem_onConnection member with ⟨before,there,same,rfl⟩ | ⟨there,apart⟩
    · have seen := wired.commands before there
      show s.trace.filterMap (messageOf before.clientID) ++ (if clientID = before.clientID then [cmd] else []) =
        before.commands ++ [cmd]
      rw [seen,if_pos same.symm]
    · rw [if_neg (Ne.symm apart),List.append_nil]
      exact wired.commands other there
  · intro other member
    rcases mem_onConnection member with ⟨before,there,same,rfl⟩ | ⟨there,_⟩
    · obtain rfl := only before there same
      have so_far := wired.read before there
      show readMessages protocolDat (before.commands ++ [cmd]).length before.stream = .ok (before.commands ++ [cmd], so)
      rw [List.length_append,List.length_singleton,readMessages_add,so_far]
      simp only [readMessages,read,bind,Except.bind,pure,Except.pure]
    · exact wired.read other there

theorem Wired.accept (wired : Wired hardware lokdef device s) (live : s.server.halted = false)
    (so : List (List UInt8)) : Wired hardware lokdef device { s.takes hardware .accept with
      connections := s.connections ++ [{ clientID := s.server.clientID_counter, so, stream := so }] } := by
  have counter : (s.takes hardware .accept).server.clientID_counter = s.server.clientID_counter + 1 := by
    simp only [WireServer.takes,Server.step,live,Bool.false_eq_true,↓reduceIte]
  have messages (clientID : Int) : (s.trace ++ [Label.accept]).filterMap (messageOf clientID) =
      s.trace.filterMap (messageOf clientID) := by
    simp [messageOf]
  refine ⟨wired.server .accept,?_,?_,?_,?_,?_⟩
  · intro c member
    rcases List.mem_append.mp member with old | new
    · have bound := wired.below c old
      exact counter ▸ by omega
    · rw [List.mem_singleton.mp new]
      exact counter ▸ by simp
  · rw [List.map_append,List.nodup_append]
    refine ⟨wired.distinct,by simp,?_⟩
    intro id old new fresh same
    obtain ⟨c,member,rfl⟩ := List.mem_map.mp old
    have bound := wired.below c member
    rw [same,List.mem_singleton.mp fresh] at bound
    exact absurd bound (Int.lt_irrefl _)
  · intro clientID above
    show (s.trace ++ [Label.accept]).filterMap (messageOf clientID) = []
    rw [messages]
    have above : s.server.clientID_counter + 1 ≤ clientID := counter ▸ above
    exact wired.unused clientID (by omega)
  · intro c member
    show (s.trace ++ [Label.accept]).filterMap (messageOf c.clientID) = c.commands
    rw [messages]
    rcases List.mem_append.mp member with old | new
    · exact wired.commands c old
    · rw [List.mem_singleton.mp new]
      exact wired.unused _ (Int.le_refl _)
  · intro c member
    rcases List.mem_append.mp member with old | new
    · exact wired.read c old
    · rw [List.mem_singleton.mp new]
      rfl

theorem serve_take (clientID : Int) (w : World) (lastStatus : List LastStatus) (changedAddrIndex : List Bool)
    {c : Connection} {cmd : FBTCtlMessage} {so : List (List UInt8)}
    (read : readMessage protocolDat c.so = .ok (cmd, so)) :
    s.serve hardware clientID w lastStatus changedAddrIndex c =
      ((s.takes hardware (.message clientID w cmd)).onConnection clientID (Connection.take cmd so)).onConnection
        clientID (Connection.write (final (processMessage hardware clientID w cmd
          (s.server.context lastStatus changedAddrIndex))).sent) := by
  simp only [serve,read,onConnection,List.map_map]
  congr 1
  refine List.map_congr_left (fun other _ => ?_)
  by_cases own : other.clientID = clientID
  · simp [own,Connection.take,Connection.write]
  · simp [own]

/-- One step. -/
theorem step_wired (s : WireServer β) (label : WireLabel) (wired : Wired hardware lokdef device s) :
    Wired hardware lokdef device (step hardware s label) := by
  by_cases halted : s.server.halted = true
  · simp only [step,halted,↓reduceIte]
    exact wired
  have live : s.server.halted = false := Bool.eq_false_iff.mpr halted
  simp only [step,live,Bool.false_eq_true,↓reduceIte]
  cases label with
  | accept so => exact wired.accept live so
  | hangup clientID => exact wired.takes _ (by simp) (fun _ => rfl)
  | destroy clientID => exact wired.takes _ (by simp) (fun _ => rfl)
  | turn clientID w =>
    dsimp only
    split
    · exact (wired.takes _ (by simp) (fun _ => rfl)).write clientID _
    · rename_i lastStatus changedAddrIndex _
      split
      · rename_i c open_
        cases read : readMessage protocolDat c.so with
        | error e =>
          simp only [serve,read]
          exact wired.takes _ (by simp) (fun _ => rfl)
        | ok next =>
          rw [serve_take clientID w lastStatus changedAddrIndex read]
          exact (wired.take w open_ read).write clientID _
      · exact wired
    · exact wired

theorem run_wired (lokdef : List Lokdef) (device : β) (labels : List WireLabel) :
    Wired hardware lokdef device (run hardware (start lokdef device) labels) := by
  refine Transition.run_always (fun s label wired => step_wired s label wired) labels _ ?_
  refine ⟨rfl,?_,List.nodup_nil,fun _ _ => rfl,?_,?_⟩ <;> intro c member <;> cases member

end WireServer

/-- Whatever the pieces in which the streams of all clients arrive, and in whatever order their threads
take turns: the server is in a state of the server that is handed whole messages, and the messages it was
handed for one client are the first of those that client has sent, each once and in their order. The
client's next turn takes the next one. -/
theorem commands_arrive {β : Type} (hardware : Hardware β) (lokdef : List Lokdef) (device : β)
    (labels : List WireLabel) (c : Connection)
    (opened : c ∈ (WireServer.run hardware (WireServer.start lokdef device) labels).connections)
    (ms : List FBTCtlMessage) (sendable : ∀ m ∈ ms, ∃ layout, Sendable protocolDat m layout)
    (delivered : Delivered c.stream) (sent : sendMessages protocolDat ms = .ok c.stream.flatten) :
    (WireServer.run hardware (WireServer.start lokdef device) labels).server =
      Server.run hardware (Server.start lokdef device)
        (WireServer.run hardware (WireServer.start lokdef device) labels).trace ∧
    ∃ done rest, ms = done ++ rest ∧
      (WireServer.run hardware (WireServer.start lokdef device) labels).trace.filterMap (messageOf c.clientID) =
        done.map (restricted protocolDat) ∧ Awaits c.so rest := by
  have wired : WireServer.Wired hardware lokdef device _ := WireServer.run_wired lokdef device labels
  obtain ⟨done,rest,split,commands,next⟩ := readMessages_sent sendable delivered sent (wired.read c opened)
  exact ⟨wired.simulates,done,rest,split,(wired.commands c opened).trans commands,next⟩

/-- One client whose PING arrives in two pieces. -/
def pinged : WireServer SRCP := WireServer.run (SRCP_Hardware okSrcpd) (WireServer.start twoLocos {})
  [.accept [[1, 0, 0], [0, 7]], .turn 1 online, .turn 1 online]

theorem pinged_connection : ∃ c ∈ pinged.connections, c.clientID = 1 ∧ c.stream = [[1, 0, 0], [0, 7]] := by
  have all : pinged.connections.map (fun c => (c.clientID, c.stream)) = [(1, [[1, 0, 0], [0, 7]])] := by
    decide +kernel
  have member : (1, [[1, 0, 0], [0, 7]]) ∈ pinged.connections.map (fun c => (c.clientID, c.stream)) := by
    rw [all]
    exact List.mem_cons_self
  obtain ⟨c,there,same⟩ := List.mem_map.mp member
  obtain ⟨id,stream⟩ := Prod.mk.inj same
  exact ⟨c,there,id,stream⟩

theorem commands_arrive_ping : ∃ c ∈ pinged.connections, ∃ done rest, [FBTCtlMessage.struct 7 []] = done ++ rest ∧
    pinged.trace.filterMap (messageOf c.clientID) = done.map (restricted protocolDat) ∧ Awaits c.so rest := by
  obtain ⟨c,there,_,stream⟩ := pinged_connection
  refine ⟨c,there,?_⟩
  have sendable : ∀ m ∈ [FBTCtlMessage.struct 7 []], ∃ layout, Sendable protocolDat m layout := by decide +kernel
  have delivered : Delivered c.stream := by
    rw [stream]
    simp [Delivered]
  have sent : sendMessages protocolDat [.struct 7 []] = .ok c.stream.flatten := by
    rw [stream]
    rfl
  exact (commands_arrive (SRCP_Hardware okSrcpd) twoLocos {} _ c there _ sendable delivered sent).2

end Btcontrol
