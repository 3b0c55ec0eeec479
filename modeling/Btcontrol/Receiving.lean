import Btcontrol.BTcommThread
import Btcontrol.Interop

/-! `BTcommThread.receiveMessage`: the size of a message is taken from one `read` of four bytes,
the message itself from as many reads as it takes. A connection is the list of pieces `read` will
return, as in the framing of the server. -/
namespace Btcontrol.Java.BTcommThread

open Bytes

inductive ReceiveErr where
  | msgSize (rc : Int)                            -- "error reading msgSize ("+rc+")"
  | msgSizeInvalid (msgSize : Int)                -- "message Size invalid! ("+msgSize+")"
  | readingMsg (rc : Int) (size read : Nat)       -- "error reading msg (rc="+rc+", size:"+msgSize+" read:"+readBytes
  | parsing (e : Err)                             -- an exception of readMessage

def MAX_MESSAGE_SIZE : Int := 10000

/-- What `read` returns for the bytes it has stored: -1 at the end of the stream. -/
def readResult (bytes : List UInt8) : Int := if bytes = [] then -1 else bytes.length

def readBuffer (msgSize readBytes : Nat) (iStream : List (List UInt8)) :
    Except ReceiveErr (List UInt8 × List (List UInt8)) :=
  if _missing : readBytes < msgSize then
    if _nothing : (recv (msgSize - readBytes) iStream).1 = [] then
      .error (.readingMsg (readResult []) msgSize readBytes)
    else do
      let (more, iStream') ← readBuffer msgSize
        (readBytes + (recv (msgSize - readBytes) iStream).1.length) (recv (msgSize - readBytes) iStream).2
      return ((recv (msgSize - readBytes) iStream).1 ++ more, iStream')
  else .ok ([], iStream)
termination_by msgSize - readBytes
decreasing_by
  have := List.length_pos_iff.mpr _nothing
  omega

def receiveMessage (messageLayouts : MessageLayouts) (iStream : List (List UInt8)) :
    Except ReceiveErr (FBTCtlMessage × List (List UInt8)) :=
  let (msgSizeBuffer, iStream) := recv 4 iStream
  if readResult msgSizeBuffer ≠ 4 then .error (.msgSize (readResult msgSizeBuffer))
  else match InputReader.getInt { data := msgSizeBuffer } with
    | .error e => .error (.parsing e)
    | .ok (msgSize, _) =>
      if msgSize < 0 ∨ msgSize > MAX_MESSAGE_SIZE then .error (.msgSizeInvalid msgSize)
      else do
        let (buffer, iStream) ← readBuffer msgSize.toNat 0 iStream
        match readMessage messageLayouts buffer with
        | .error e => .error (.parsing e)
        | .ok msg => return (msg, iStream)

/-- `n` successive calls of `receiveMessage`. -/
def receiveMessages (messageLayouts : MessageLayouts) :
    Nat → List (List UInt8) → Except ReceiveErr (List FBTCtlMessage × List (List UInt8))
  | 0, iStream => .ok ([], iStream)
  | n + 1, iStream => do
    let (msg, iStream) ← receiveMessage messageLayouts iStream
    let (more, iStream) ← receiveMessages messageLayouts n iStream
    return (msg :: more, iStream)

/-! ### Framed messages -/

/-- The encoding of a message with the message `readMessage` makes of it. -/
structure Frame (messageLayouts : MessageLayouts) where
  body : List UInt8
  msg : FBTCtlMessage
  size : body.length ≤ 10000
  valid : readMessage messageLayouts body = .ok msg

variable {messageLayouts : MessageLayouts}

def Frame.bytes (frame : Frame messageLayouts) : List UInt8 := le 4 frame.body.length ++ frame.body

def headers : List (Frame messageLayouts) → List Nat
  | [] => []
  | frame :: rest => 0 :: (headers rest).map (frame.bytes.length + ·)

/-- No piece of the stream ends inside of a header. -/
def HeadersWhole (frames : List (Frame messageLayouts)) (iStream : List (List UInt8)) : Prop :=
  ∀ header ∈ headers frames, ∀ cut ∈ Bytes.cuts iStream, ¬ (header < cut ∧ cut < header + 4)

instance (frames : List (Frame messageLayouts)) (iStream : List (List UInt8)) :
    Decidable (HeadersWhole frames iStream) := inferInstanceAs (Decidable (∀ _ ∈ _, _))

/-- The message is read wherever the stream is cut, and behind it the cuts are as before. -/
theorem readBuffer_front (msgSize readBytes : Nat) (front more : List UInt8) (iStream : List (List UInt8))
    (delivered : Delivered iStream) (stream : iStream.flatten = front ++ more)
    (missing : readBytes + front.length = msgSize) :
    ∃ iStream', readBuffer msgSize readBytes iStream = .ok (front, iStream') ∧
      iStream'.flatten = more ∧ Delivered iStream' ∧
      ∀ p, 0 < p → (front.length + p ∈ Bytes.cuts iStream ↔ p ∈ Bytes.cuts iStream') := by
  -- each turn returns at least one byte, so the induction is on what is still missing
  induction hn : front.length using Nat.strongRecOn generalizing front readBytes iStream with
  | ind n ih =>
    by_cases done : n = 0
    · have empty : front = [] := List.length_eq_zero_iff.mp (hn.trans done)
      have full : ¬ readBytes < msgSize := by omega
      refine ⟨iStream,?_,by simpa [empty] using stream,delivered,fun p _ => by simp [done]⟩
      rw [readBuffer,dif_neg full,empty]
    · obtain ⟨progress,tail,frontEq,restEq⟩ := recv_split delivered stream (by omega)
      have positive := List.length_pos_iff.mpr progress
      have lengths := congrArg List.length frontEq
      rw [List.length_append] at lengths
      have asked : front.length = msgSize - readBytes := by omega
      rw [asked] at progress frontEq restEq positive lengths
      obtain ⟨iStream',read,flat,ok,same⟩ := ih tail.length (by omega)
        (readBytes + (recv (msgSize - readBytes) iStream).1.length) tail
        (recv (msgSize - readBytes) iStream).2 (recv_delivered _ iStream delivered) restEq (by omega) rfl
      refine ⟨iStream',?_,flat,ok,fun p behind => ?_⟩
      · have unfinished : readBytes < msgSize := by omega
        rw [readBuffer,dif_pos unfinished,dif_neg progress,read,frontEq]
        rfl
      · rw [← same p behind,← recv_cuts (msgSize - readBytes) iStream (tail.length + p) (by omega)]
        congr! 1
        omega

theorem getInt_size (n : Nat) (bound : n ≤ 10000) :
    InputReader.getInt { data := le 4 n } = .ok ((n : Int), InputReader.skip { data := le 4 n } 4) := by
  have pattern : pattern32 (n : Int) = n := by
    simp only [pattern32]
    omega
  have fits : Fits32 (n : Int) := by
    simp only [Fits32]
    omega
  exact InputReader.getInt_append _ (n : Int) [] fits (by rw [pattern]; simp [InputReader.rest])

/-- A header that comes in one piece leads to its message, and leaves the rest of the stream. -/
theorem receiveMessage_whole (frame : Frame messageLayouts) (more : List UInt8) (iStream : List (List UInt8))
    (delivered : Delivered iStream) (stream : iStream.flatten = frame.bytes ++ more)
    (whole : ∀ cut ∈ Bytes.cuts iStream, ¬ (0 < cut ∧ cut < 4)) :
    ∃ iStream', receiveMessage messageLayouts iStream = .ok (frame.msg, iStream') ∧
      iStream'.flatten = more ∧ Delivered iStream' ∧
      ∀ p, 0 < p → (frame.bytes.length + p ∈ Bytes.cuts iStream ↔ p ∈ Bytes.cuts iStream') := by
  have size := frame.size
  rw [Frame.bytes,List.append_assoc] at stream
  have asked : (le 4 frame.body.length).length = 4 := le_length 4 _
  have complete := (recv_whole delivered stream (by omega)).mpr (by rwa [asked])
  obtain ⟨_,tail,frontEq,restEq⟩ := recv_split delivered stream (by omega)
  rw [asked] at complete frontEq restEq
  have empty : tail = [] := by
    have lengths := congrArg List.length frontEq
    rw [List.length_append] at lengths
    exact List.length_eq_zero_iff.mp (by omega)
  rw [empty,List.append_nil] at frontEq
  rw [empty,List.nil_append] at restEq
  obtain ⟨iStream',read,flat,ok,same⟩ := readBuffer_front frame.body.length 0 frame.body more _
    (recv_delivered 4 iStream delivered) restEq (Nat.zero_add _)
  refine ⟨iStream',?_,flat,ok,fun p behind => ?_⟩
  · have result : readResult (le 4 frame.body.length) = 4 := by
      simp only [readResult,le_length]
      rfl
    have accepted : ¬ ((frame.body.length : Int) < 0 ∨ (frame.body.length : Int) > MAX_MESSAGE_SIZE) := by
      simp only [MAX_MESSAGE_SIZE]
      omega
    simp only [receiveMessage,← frontEq,result,getInt_size _ size,accepted,↓reduceIte,ne_eq,not_true_eq_false,
      Int.toNat_natCast,read,bind,Except.bind,frame.valid]
    rfl
  · rw [← same p behind,← recv_cuts 4 iStream (frame.body.length + p) (by omega),complete,Frame.bytes,
      List.length_append,asked,Nat.add_assoc]

/-- A header that comes in two pieces is refused. -/
theorem receiveMessage_cut (frame : Frame messageLayouts) (more : List UInt8) (iStream : List (List UInt8))
    (delivered : Delivered iStream) (stream : iStream.flatten = frame.bytes ++ more)
    (cut : ¬ ∀ cut ∈ Bytes.cuts iStream, ¬ (0 < cut ∧ cut < 4)) (read : FBTCtlMessage × List (List UInt8)) :
    receiveMessage messageLayouts iStream ≠ .ok read := by
  rw [Frame.bytes,List.append_assoc] at stream
  have asked : (le 4 frame.body.length).length = 4 := le_length 4 _
  have short := mt (recv_whole delivered stream (by omega)).mp (by rwa [asked])
  rw [asked] at short
  have result : readResult (recv 4 iStream).1 ≠ 4 := by
    simp only [readResult]
    split
    · decide
    · omega
  simp only [receiveMessage,result,ne_eq,not_false_eq_true,↓reduceIte]
  exact fun same => nomatch same

/-- Whatever pieces the stream comes in, the messages are received exactly if no piece ends inside
of a header. -/
theorem receiveMessages_iff (frames : List (Frame messageLayouts)) (iStream : List (List UInt8))
    (delivered : Delivered iStream) (stream : iStream.flatten = frames.flatMap Frame.bytes) :
    receiveMessages messageLayouts frames.length iStream = .ok (frames.map Frame.msg, []) ↔
      HeadersWhole frames iStream := by
  induction frames generalizing iStream with
  | nil =>
    have nothing : iStream = [] := by
      cases iStream with
      | nil => rfl
      | cons piece rest =>
        exact absurd (List.append_eq_nil_iff.mp stream).1 (delivered piece List.mem_cons_self)
    subst nothing
    simp [receiveMessages,HeadersWhole,headers]
  | cons frame rest ih =>
    have first : HeadersWhole (frame :: rest) iStream ↔
        (∀ cut ∈ Bytes.cuts iStream, ¬ (0 < cut ∧ cut < 4)) ∧ ∀ header ∈ headers rest, ∀ cut ∈ Bytes.cuts iStream,
          ¬ (frame.bytes.length + header < cut ∧ cut < frame.bytes.length + header + 4) := by
      simp only [HeadersWhole,headers,List.mem_cons,List.mem_map,forall_eq_or_imp,forall_exists_index,
        and_imp,forall_apply_eq_imp_iff₂,Nat.zero_add]
    rw [List.flatMap_cons] at stream
    rw [first]
    by_cases whole : ∀ cut ∈ Bytes.cuts iStream, ¬ (0 < cut ∧ cut < 4)
    · obtain ⟨iStream',received,flat,ok,same⟩ := receiveMessage_whole frame _ iStream delivered stream whole
      -- behind the message the cuts are those of what is left
      have shifted : HeadersWhole rest iStream' ↔ ∀ header ∈ headers rest, ∀ cut ∈ Bytes.cuts iStream,
          ¬ (frame.bytes.length + header < cut ∧ cut < frame.bytes.length + header + 4) := by
        constructor
        · intro uncut header member cut inside between
          have behind : 0 < cut - frame.bytes.length := by omega
          refine uncut header member (cut - frame.bytes.length) ((same _ behind).mp ?_) (by omega)
          rwa [Nat.add_sub_of_le (by omega)]
        · intro uncut header member cut inside between
          exact uncut header member (frame.bytes.length + cut) ((same cut (by omega)).mpr inside) (by omega)
      rw [and_iff_right whole,← shifted,← ih iStream' ok flat]
      simp only [List.length_cons,receiveMessages,received,bind,Except.bind,List.map_cons]
      cases more : receiveMessages messageLayouts rest.length iStream' with
      | error e => simp
      | ok read => simp [pure,Except.pure,Prod.ext_iff]
    · have refused := receiveMessage_cut frame _ iStream delivered stream whole
      simp only [whole,false_and,iff_false,List.length_cons,receiveMessages,bind,Except.bind]
      cases received : receiveMessage messageLayouts iStream with
      | error e => simp
      | ok read => exact absurd received (refused read)

def replyLayouts : MessageLayouts :=
  [(str "POWER_REPLY", .mk 19 [] [.mk DataType.INT (str "value") []])]

def powerReply : Frame replyLayouts where
  body := [19, 1, 1, 0, 0, 0]
  msg := .struct 19 [(str "value", .int 1)]
  size := by decide
  valid := rfl

/-- Two replies, cut behind the first header and inside of both messages. -/
theorem receiveMessages_bodies :
    Delivered [[6, 0, 0, 0], [19, 1], [1, 0, 0, 0, 6, 0, 0, 0, 19], [1, 1, 0, 0], [(0 : UInt8)]] ∧
      receiveMessages replyLayouts 2 [[6, 0, 0, 0], [19, 1], [1, 0, 0, 0, 6, 0, 0, 0, 19], [1, 1, 0, 0], [0]] =
        .ok ([powerReply.msg, powerReply.msg], []) := by
  have delivered : Delivered
      [[6, 0, 0, 0], [19, 1], [1, 0, 0, 0, 6, 0, 0, 0, 19], [1, 1, 0, 0], [(0 : UInt8)]] := by
    simp [Delivered]
  refine ⟨delivered,?_⟩
  exact (receiveMessages_iff [powerReply, powerReply] _ delivered (by decide)).mpr (by decide)

/-- The first two bytes of the size come alone. -/
theorem receiveMessages_header :
    Delivered [[6, 0], [0, 0, 19, 1, 1, 0, 0, (0 : UInt8)]] ∧
      [[6, 0], [0, 0, 19, 1, 1, 0, 0, 0]].flatten = [powerReply].flatMap Frame.bytes ∧
      ¬ receiveMessages replyLayouts 1 [[6, 0], [0, 0, 19, 1, 1, 0, 0, 0]] = .ok ([powerReply.msg], []) := by
  refine ⟨by simp [Delivered],by decide,?_⟩
  exact fun same => nomatch same

end Btcontrol.Java.BTcommThread
