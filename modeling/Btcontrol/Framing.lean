import Btcontrol.Codec

/-! `CommThread::sendMessage`, `CommThread::readMessage` and the `myRead` loop under
them. A connection is the list of pieces `::read` will return, in order; the end of the
list is the closed connection. `readSelect` only waits for the next piece. -/
namespace Btcontrol

open DataType Bytes FBTCtlMessage

namespace CommThread

def MAX_MESSAGE_SIZE : Nat := 10000

/-- `myRead`: asks for the missing bytes until `size` of them are there. -/
def myRead (size : Nat) (so : List (List UInt8)) :
    Except Err (List UInt8 × List (List UInt8)) :=
  if size = 0 then .ok ([], so)
  else if _nothing : (recv size so).1 = [] then .error .nothingToRead
  else do
    let (more, so') ← myRead (size - (recv size so).1.length) (recv size so).2
    return ((recv size so).1 ++ more, so')
termination_by size
decreasing_by
  have := List.length_pos_iff.mpr _nothing
  omega

/-- What `sendMessage` writes: the size as an `int`, then the encoded message. -/
def sendMessage (messageLayouts : MessageLayouts) (m : FBTCtlMessage) : Except Err (List UInt8) := do
  let binMsg ← getBinaryMessage messageLayouts m
  return le 4 binMsg.length ++ binMsg

def readMessage (messageLayouts : MessageLayouts) (so : List (List UInt8)) :
    Except Err (FBTCtlMessage × List (List UInt8)) := do
  let (header, so) ← myRead 4 so
  let msgsize := signed32 (leValue header)
  if msgsize < 0 ∨ msgsize > MAX_MESSAGE_SIZE then .error .msgsizeTooBig
  else do
    let (buffer, so) ← myRead msgsize.toNat so
    let (cmd, _) ← FBTCtlMessage.readMessage messageLayouts ⟨buffer, 0⟩
    return (cmd, so)

def sendMessages (messageLayouts : MessageLayouts) : List FBTCtlMessage → Except Err (List UInt8)
  | [] => .ok []
  | m :: rest => do
    let bytes ← sendMessage messageLayouts m
    let more ← sendMessages messageLayouts rest
    return bytes ++ more

def readMessages (messageLayouts : MessageLayouts) :
    Nat → List (List UInt8) → Except Err (List FBTCtlMessage × List (List UInt8))
  | 0, so => .ok ([], so)
  | n + 1, so => do
    let (cmd, so) ← readMessage messageLayouts so
    let (more, so) ← readMessages messageLayouts n so
    return (cmd :: more, so)

/-- Wherever the stream is cut, `myRead` returns the bytes asked for and leaves the rest. -/
theorem myRead_front (front more : List UInt8) (so : List (List UInt8)) (delivered : Delivered so)
    (stream : so.flatten = front ++ more) :
    ∃ so', myRead front.length so = .ok (front, so') ∧ so'.flatten = more ∧ Delivered so' := by
  -- each turn returns at least one byte, so the induction is on what is still missing
  induction hn : front.length using Nat.strongRecOn generalizing front so with
  | ind n ih =>
    by_cases done : n = 0
    · have empty : front = [] := List.length_eq_zero_iff.mp (hn.trans done)
      refine ⟨so,?_,by simpa [empty] using stream,delivered⟩
      rw [myRead,if_pos done,empty]
    · obtain ⟨progress,tail,frontEq,restEq⟩ := recv_split delivered stream (by omega)
      rw [hn] at progress frontEq restEq
      have positive := List.length_pos_iff.mpr progress
      have tailLength : tail.length = n - (recv n so).1.length := by
        have := congrArg List.length frontEq
        simp only [List.length_append] at this
        omega
      obtain ⟨so',read,flat,ok⟩ := ih _ (by omega) tail (recv n so).2
        (recv_delivered n so delivered) restEq tailLength
      refine ⟨so',?_,flat,ok⟩
      rw [myRead,if_neg done,dif_neg progress,read,frontEq]
      rfl

/-- One framed message is read from any delivery of the stream that starts with it. -/
theorem readMessage_front (messageLayouts : MessageLayouts) (layout : MessageLayout)
    (m : FBTCtlMessage) (found : getMessageLayout messageLayouts m.type = .ok layout)
    (ok : Wire.StructOK layout.childLayouts) (conforms : Wire.Conforms layout m)
    (small : (Wire.messageBytes layout m).length ≤ MAX_MESSAGE_SIZE)
    (more : List UInt8) (so : List (List UInt8)) (delivered : Delivered so)
    (stream : so.flatten =
      le 4 (Wire.messageBytes layout m).length ++ (Wire.messageBytes layout m ++ more)) :
    ∃ so', readMessage messageLayouts so = .ok (Wire.restrictMessage layout m, so') ∧
      so'.flatten = more ∧ Delivered so' := by
  obtain ⟨so1,header,flat1,ok1⟩ := myRead_front _ _ so delivered stream
  obtain ⟨so2,body,flat2,ok2⟩ := myRead_front _ _ so1 ok1 flat1
  have bound : (Wire.messageBytes layout m).length ≤ 10000 := small
  have size : signed32 (leValue (le 4 (Wire.messageBytes layout m).length)) =
      (Wire.messageBytes layout m).length := by
    rw [leValue_le_of_lt _ _ (by omega)]
    simp only [signed32]
    omega
  have accepted : ¬(((Wire.messageBytes layout m).length : Int) < 0 ∨
      ((Wire.messageBytes layout m).length : Int) > MAX_MESSAGE_SIZE) := by
    simp only [MAX_MESSAGE_SIZE]
    omega
  have decoded := Codec.readMessage_bytes messageLayouts layout m found ok conforms
    ⟨Wire.messageBytes layout m,0⟩ [] (by simp [InputReader.rest])
  simp only [le_length] at header
  refine ⟨so2,?_,flat2,ok2⟩
  simp only [readMessage,header,bind,Except.bind,size,accepted,↓reduceIte,Int.toNat_natCast,body,decoded]
  rfl

/-- A message the codec can represent, whose encoding the reader does not refuse. -/
structure Sendable (messageLayouts : MessageLayouts) (m : FBTCtlMessage) (layout : MessageLayout) :
    Prop where
  found : getMessageLayout messageLayouts m.type = .ok layout
  layoutOK : Wire.StructOK layout.childLayouts
  conforms : Wire.Conforms layout m
  size : ∀ bytes, getBinaryMessage messageLayouts m = .ok bytes → bytes.length ≤ MAX_MESSAGE_SIZE

def restricted (messageLayouts : MessageLayouts) (m : FBTCtlMessage) : FBTCtlMessage :=
  match getMessageLayout messageLayouts m.type with
  | .ok layout => Wire.restrictMessage layout m
  | .error _ => m

/-- Every delivery of the sent stream yields exactly the sent messages, in order,
and leaves nothing behind. -/
theorem readMessages_sendMessages (messageLayouts : MessageLayouts) (ms : List FBTCtlMessage)
    (sendable : ∀ m ∈ ms, ∃ layout, Sendable messageLayouts m layout) :
    ∃ stream, sendMessages messageLayouts ms = .ok stream ∧
      ∀ so, Delivered so → so.flatten = stream →
        readMessages messageLayouts ms.length so = .ok (ms.map (restricted messageLayouts), []) := by
  induction ms with
  | nil =>
    refine ⟨[],rfl,?_⟩
    intro so delivered empty
    have nothing : so = [] := by
      cases so with
      | nil => rfl
      | cons piece rest =>
        exact absurd (List.append_eq_nil_iff.mp empty).1 (delivered piece List.mem_cons_self)
    rw [nothing]
    rfl
  | cons m rest ih =>
    obtain ⟨layout,send⟩ := sendable m List.mem_cons_self
    obtain ⟨tail,sentTail,readTail⟩ := ih (fun other member => sendable other (List.mem_cons_of_mem _ member))
    have encoded := Codec.getBinaryMessage_bytes messageLayouts layout m send.found send.conforms
    refine ⟨le 4 (Wire.messageBytes layout m).length ++ Wire.messageBytes layout m ++ tail,?_,?_⟩
    · simp only [sendMessages,sendMessage,encoded,sentTail]
      rfl
    · intro so delivered stream
      rw [List.append_assoc] at stream
      obtain ⟨so',first,flat,ok⟩ := readMessage_front messageLayouts layout m send.found send.layoutOK
        send.conforms (send.size _ encoded) tail so delivered stream
      have restrictedEq : restricted messageLayouts m = Wire.restrictMessage layout m := by
        simp only [restricted,send.found]
      simp only [List.length_cons,readMessages,first,readTail so' ok flat,bind,Except.bind,pure,
        Except.pure,List.map_cons,restrictedEq]

/-- A PING and an ACC, cut inside the first header and across the two messages. -/
theorem readMessages_ping_acc :
    ∃ stream, sendMessages protocolDat [.struct 7 [], .struct 9 [(str "addr", .int 3)]] = .ok stream ∧
      ∀ so, Delivered so → so.flatten = stream →
        readMessages protocolDat 2 so =
          .ok ([.struct 7 [], .struct 9 [(str "addr", .int 3)]], []) := by
  refine readMessages_sendMessages protocolDat [.struct 7 [], .struct 9 [(str "addr", .int 3)]] ?_
  intro m member
  simp only [List.mem_cons,List.not_mem_nil,or_false] at member
  rcases member with rfl | rfl
  · refine ⟨.mk 7 [] [],rfl,⟨by decide,trivial⟩,⟨by decide,by decide,trivial⟩,?_⟩
    rintro bytes ⟨⟩
    decide
  · refine ⟨.mk 9 [] [intField "addr"],rfl,⟨by decide,.inl rfl,trivial⟩,
      ⟨by decide,by decide,⟨_,rfl,rfl,by decide⟩,trivial⟩,?_⟩
    rintro bytes ⟨⟩
    decide

end CommThread
end Btcontrol
