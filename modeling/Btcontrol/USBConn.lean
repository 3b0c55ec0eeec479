import Btcontrol.Layout
import Btcontrol.Transition
import Btcontrol.Exec

/-! The two readers of the Android server's serial line (`USBConn.java`). They share one buffer.
What comes is ASCII, so a byte is a character. -/
namespace Btcontrol.USBConn

open Transition Exec

/-- `readBuffer`, a `byte[1024]`. -/
structure Buffer where
  bytes : Str
  size : bytes.length = 1024
  deriving DecidableEq

/-- What `syncRead` delivers at once. -/
structure Chunk where
  bytes : Str
  present : 1 ≤ bytes.length
  fits : bytes.length ≤ 1024
  ascii : ∀ b ∈ bytes, b < 128

def Buffer.new : Buffer := ⟨List.replicate 1024 0,List.length_replicate⟩

/-- The chunk is put at the start; what is behind it stays. -/
def Buffer.store (buffer : Buffer) (chunk : Chunk) : Buffer where
  bytes := chunk.bytes ++ buffer.bytes.drop chunk.bytes.length
  size := by
    have fits := chunk.fits
    simp only [List.length_append,List.length_drop,buffer.size]
    omega

/-- How a `syncRead` ends: with a chunk, or with 0 or a negative number. -/
inductive SyncRead where
  | chunk (c : Chunk)
  | nothing (n : Nat)

def SyncRead.bytes : SyncRead → Str
  | .chunk c => c.bytes
  | .nothing _ => []

inductive Exc where
  | timeout
  | outOfBounds    -- StringIndexOutOfBoundsException, ArrayIndexOutOfBoundsException
  | outOfFuel      -- not of the source
  deriving DecidableEq

/-- `port` is what the next calls of `syncRead` do; nothing comes after it. -/
structure State where
  port : List SyncRead
  readBuffer : Buffer := Buffer.new
  readBufferLen : Int := 0
  readBufferPos : Nat := 0

abbrev Action := EStateM Exc State

/-- `serialPort.syncRead(readBuffer, timeout)`. -/
def syncRead : Action Int := do
  let s ← get
  match s.port with
  | [] => return 0
  | .nothing n :: port =>
    set { s with port := port }
    return -n
  | .chunk c :: port =>
    set { s with port := port, readBuffer := s.readBuffer.store c }
    return c.bytes.length

def newString (bytes : Str) (offset : Nat) (length : Int) : Action Str :=
  if length < 0 ∨ offset + length > bytes.length then throw .outOfBounds
  else return (bytes.drop offset).take length.toNat

def readCharBuffered : Action UInt8 := do
  if (← get).readBufferPos ≥ (← get).readBufferLen then
    let readBufferLen ← syncRead
    modify (fun s => { s with readBufferLen := readBufferLen })
    if readBufferLen ≤ 0 then throw .timeout
    modify (fun s => { s with readBufferPos := 0 })
  let s ← get
  match s.readBuffer.bytes[s.readBufferPos]? with
  | none => throw .outOfBounds
  | some c =>
    set { s with readBufferPos := s.readBufferPos + 1 }
    return c

/-- The `while` of `readLineBuffered`; at the first `inTime` turns `stopTime` is not over. -/
def readLine : Nat → Str → Action Str
  | 0, _ => throw .timeout
  | inTime + 1, ret => do
    let c ← readCharBuffered
    if c = '\n'.toUInt8 then return ret
    readLine inTime (ret ++ [c])

/-- What a reader returns, with the line end it has taken off. -/
structure Reading where
  ret : Str
  lineEnd : Str
  deriving DecidableEq

def readLineBuffered (inTime : Nat) : Action Reading := do
  let ret ← readLine inTime []
  if ret.length > 0 ∧ ret[ret.length - 1]? = some '\r'.toUInt8 then
    return ⟨ret.take (ret.length - 1),['\r'.toUInt8,'\n'.toUInt8]⟩
  return ⟨ret,['\n'.toUInt8]⟩

/-- The `while` of `readFullBufferedTimeout`. -/
def readFull : Nat → Str → Action Str
  | 0, _ => throw .outOfFuel
  | fuel + 1, ret => do
    if (← get).readBufferPos ≥ (← get).readBufferLen then
      let readBufferLen ← syncRead
      modify (fun s => { s with readBufferLen := readBufferLen })
      if readBufferLen ≤ 0 then return ret
      modify (fun s => { s with readBufferPos := 0 })
    let s ← get
    let more ← newString s.readBuffer.bytes s.readBufferPos s.readBufferLen
    set { s with readBufferPos := s.readBufferLen.toNat }
    readFull fuel (ret ++ more)

/-- A turn with an empty buffer uses up a `syncRead`. -/
def readFullBufferedTimeout : Action Reading := do
  let ret ← readFull ((← get).port.length + 2) []
  return ⟨ret,[]⟩

/-- A call; see `readLine` for `inTime`. -/
inductive Call where
  | line (inTime : Nat)
  | full

def perform : Call → Action Reading
  | .line inTime => readLineBuffered inTime
  | .full => readFullBufferedTimeout

def step (s : State) (call : Call) : State := final (perform call s)

/-- The string a call returns with the line end put back; nothing if it throws. -/
def text (s : State) (call : Call) : Str :=
  match perform call s with
  | .ok reading _ => reading.ret ++ reading.lineEnd
  | .error _ _ => []

def texts : State → List Call → Str
  | _, [] => []
  | s, call :: calls => text s call ++ texts (step s call) calls

def unread (s : State) : Str :=
  (s.readBuffer.bytes.drop s.readBufferPos).take (s.readBufferLen - s.readBufferPos).toNat

def stream (s : State) : Str := unread s ++ s.port.flatMap SyncRead.bytes

/-- A buffer that is not used up was filled, and read from. -/
def Consistent (s : State) : Prop :=
  s.readBufferPos < s.readBufferLen → 1 ≤ s.readBufferPos ∧ s.readBufferLen ≤ 1024

section Readers

variable {s : State}

theorem stream_usedUp (usedUp : s.readBufferLen ≤ s.readBufferPos) :
    stream s = s.port.flatMap SyncRead.bytes := by
  have none : (s.readBufferLen - s.readBufferPos).toNat = 0 := by omega
  simp [stream,unread,none]

theorem take_store (buffer : Buffer) (c : Chunk) : (buffer.store c).bytes.take c.bytes.length = c.bytes := by
  simp [Buffer.store]

/-- With bytes in the buffer the character is the next of the stream. -/
theorem readCharBuffered_left (left : s.readBufferPos < s.readBufferLen) (fits : s.readBufferLen ≤ 1024) :
    ∃ c s', readCharBuffered s = .ok c s' ∧ stream s = c :: stream s' ∧ Consistent s' := by
  have inside : s.readBufferPos < s.readBuffer.bytes.length := by
    rw [s.readBuffer.size]
    omega
  obtain ⟨n,count⟩ : ∃ n, (s.readBufferLen - s.readBufferPos).toNat = n + 1 :=
    ⟨(s.readBufferLen - s.readBufferPos).toNat - 1,by omega⟩
  have fewer : (s.readBufferLen - (s.readBufferPos + 1 : Nat)).toNat = n := by omega
  have some : ¬s.readBufferPos ≥ s.readBufferLen := by omega
  refine ⟨s.readBuffer.bytes[s.readBufferPos],{ s with readBufferPos := s.readBufferPos + 1 },?_,?_,?_⟩
  · simp only [readCharBuffered,bind_apply,get_apply,some,List.getElem?_eq_getElem inside,↓reduceIte]
    rfl
  · simp only [stream,unread,count,fewer]
    rw [List.drop_eq_getElem_cons inside,List.take_succ_cons,List.cons_append]
  · intro _
    exact ⟨Nat.le_add_left 1 _,fits⟩

theorem stream_filled (port : List SyncRead) (buffer : Buffer) (c : Chunk) :
    stream ⟨port,buffer.store c,c.bytes.length,0⟩ = c.bytes ++ port.flatMap SyncRead.bytes := by
  simp [stream,unread,Buffer.store]

theorem readCharBuffered_nil {buffer : Buffer} {len : Int} {pos : Nat} (usedUp : pos ≥ len) :
    readCharBuffered ⟨[],buffer,len,pos⟩ = .error .timeout ⟨[],buffer,0,pos⟩ := by
  simp only [readCharBuffered,bind_apply,get_apply,usedUp,↓reduceIte]
  rfl

theorem readCharBuffered_nothing {port : List SyncRead} {buffer : Buffer} {len : Int} {pos : Nat} (n : Nat)
    (usedUp : pos ≥ len) :
    readCharBuffered ⟨.nothing n :: port,buffer,len,pos⟩ = .error .timeout ⟨port,buffer,-n,pos⟩ := by
  have least : -(n : Int) ≤ 0 := by omega
  have read : syncRead ⟨.nothing n :: port,buffer,len,pos⟩ = .ok (-n) ⟨port,buffer,len,pos⟩ := rfl
  simp only [readCharBuffered,bind_apply,get_apply,usedUp,↓reduceIte,read,modify_apply,least,throw_apply]

/-- With a chunk it goes on as if the chunk had been in the buffer. -/
theorem readCharBuffered_chunk {port : List SyncRead} {buffer : Buffer} {len : Int} {pos : Nat} (c : Chunk)
    (usedUp : pos ≥ len) : readCharBuffered ⟨.chunk c :: port,buffer,len,pos⟩ =
      readCharBuffered ⟨port,buffer.store c,c.bytes.length,0⟩ := by
  have present := c.present
  have some : ¬(c.bytes.length : Int) ≤ 0 := by omega
  have filled : ¬((0 : Nat) : Int) ≥ c.bytes.length := by omega
  have read : syncRead ⟨.chunk c :: port,buffer,len,pos⟩ =
    .ok c.bytes.length ⟨port,buffer.store c,len,pos⟩ := rfl
  simp only [readCharBuffered,bind_apply,get_apply,usedUp,↓reduceIte,read,modify_apply,some,filled]

/-- A character that comes is the next of the stream; otherwise it is a timeout. -/
theorem readCharBuffered_spec (consistent : Consistent s) :
    (∃ c s', readCharBuffered s = .ok c s' ∧ stream s = c :: stream s' ∧ Consistent s') ∨
      ∃ s', readCharBuffered s = .error .timeout s' := by
  by_cases left : (s.readBufferPos : Int) < s.readBufferLen
  · exact .inl (readCharBuffered_left left (consistent left).2)
  · have usedUp : (s.readBufferPos : Int) ≥ s.readBufferLen := by omega
    rw [stream_usedUp usedUp]
    obtain ⟨port,buffer,len,pos⟩ := s
    cases port with
    | nil => exact .inr ⟨_,readCharBuffered_nil usedUp⟩
    | cons delivery port =>
      cases delivery with
      | nothing n => exact .inr ⟨_,readCharBuffered_nothing n usedUp⟩
      | chunk c =>
        have present := c.present
        have fits := c.fits
        have read := readCharBuffered_left (s := ⟨port,buffer.store c,c.bytes.length,0⟩) (by simp; omega)
          (by simp; omega)
        rw [stream_filled] at read
        rw [readCharBuffered_chunk c usedUp]
        exact .inl read

/-- What `readLine` adds is what comes before the next line feed; otherwise it is a timeout. -/
theorem readLine_spec (inTime : Nat) (ret : Str) (consistent : Consistent s) :
    (∃ more s', readLine inTime ret s = .ok (ret ++ more) s' ∧
      stream s = more ++ '\n'.toUInt8 :: stream s' ∧ Consistent s') ∨
      ∃ s', readLine inTime ret s = .error .timeout s' := by
  induction inTime generalizing ret s with
  | zero => exact .inr ⟨s,rfl⟩
  | succ inTime ih =>
    rcases readCharBuffered_spec consistent with ⟨c,s',read,next,kept⟩ | ⟨s',thrown⟩
    · simp only [readLine,bind_apply,read]
      by_cases feed : c = '\n'.toUInt8
      · simp only [feed,↓reduceIte,pure_apply]
        exact .inl ⟨[],s',by rw [List.append_nil],by rw [next,feed]; rfl,kept⟩
      · simp only [feed,↓reduceIte]
        rcases ih (ret ++ [c]) kept with ⟨more,s'',later,flat,kept⟩ | ⟨s'',thrown⟩
        · refine .inl ⟨c :: more,s'',?_,?_,kept⟩
          · rw [later,List.append_assoc]
            rfl
          · rw [next,flat]
            rfl
        · exact .inr ⟨s'',thrown⟩
    · simp only [readLine,bind_apply,thrown]
      exact .inr ⟨s',rfl⟩

theorem lineEnd_putBack {ret : Str} (ended : ret.length > 0 ∧ ret[ret.length - 1]? = some '\r'.toUInt8) :
    ret.take (ret.length - 1) ++ ['\r'.toUInt8] = ret := by
  obtain ⟨some,last⟩ := ended
  rw [← List.getLast?_eq_getElem?] at last
  rw [← List.dropLast_eq_take]
  exact List.dropLast_append_getLast? _ last

/-- A line and its end are what has been read. -/
theorem readLineBuffered_spec (inTime : Nat) (consistent : Consistent s) :
    (∃ reading s', readLineBuffered inTime s = .ok reading s' ∧
      stream s = reading.ret ++ reading.lineEnd ++ stream s' ∧ Consistent s') ∨
      ∃ s', readLineBuffered inTime s = .error .timeout s' := by
  rcases readLine_spec inTime [] consistent with ⟨ret,s',read,flat,kept⟩ | ⟨s',thrown⟩
  · rw [List.nil_append] at read
    simp only [readLineBuffered,bind_apply,read]
    by_cases ended : ret.length > 0 ∧ ret[ret.length - 1]? = some '\r'.toUInt8
    · rw [if_pos ended]
      refine .inl ⟨_,s',rfl,?_,kept⟩
      calc stream s = (ret.take (ret.length - 1) ++ ['\r'.toUInt8]) ++ '\n'.toUInt8 :: stream s' := by
            rw [lineEnd_putBack ended,flat]
        _ = _ := by simp
    · rw [if_neg ended]
      refine .inl ⟨_,s',rfl,?_,kept⟩
      rw [flat]
      simp
  · simp only [readLineBuffered,bind_apply,thrown]
    exact .inr ⟨s',rfl⟩

/-! ### `readFullBufferedTimeout` -/

theorem readFull_nil (fuel : Nat) (ret : Str) {buffer : Buffer} {len : Int} {pos : Nat} (usedUp : pos ≥ len) :
    readFull (fuel + 1) ret ⟨[],buffer,len,pos⟩ = .ok ret ⟨[],buffer,0,pos⟩ := by
  simp only [readFull,bind_apply,get_apply,usedUp,↓reduceIte]
  rfl

theorem readFull_nothing (fuel : Nat) (ret : Str) {port : List SyncRead} {buffer : Buffer} {len : Int} {pos : Nat}
    (n : Nat) (usedUp : pos ≥ len) :
    readFull (fuel + 1) ret ⟨.nothing n :: port,buffer,len,pos⟩ = .ok ret ⟨port,buffer,-n,pos⟩ := by
  have least : -(n : Int) ≤ 0 := by omega
  have read : syncRead ⟨.nothing n :: port,buffer,len,pos⟩ = .ok (-n) ⟨port,buffer,len,pos⟩ := rfl
  simp only [readFull,bind_apply,get_apply,usedUp,↓reduceIte,read,modify_apply,least,pure_apply]

theorem readFull_chunk (fuel : Nat) (ret : Str) {port : List SyncRead} {buffer : Buffer} {len : Int} {pos : Nat}
    (c : Chunk) (usedUp : pos ≥ len) : readFull (fuel + 1) ret ⟨.chunk c :: port,buffer,len,pos⟩ =
      readFull (fuel + 1) ret ⟨port,buffer.store c,c.bytes.length,0⟩ := by
  have present := c.present
  have some : ¬(c.bytes.length : Int) ≤ 0 := by omega
  have filled : ¬((0 : Nat) : Int) ≥ c.bytes.length := by omega
  have read : syncRead ⟨.chunk c :: port,buffer,len,pos⟩ =
    .ok c.bytes.length ⟨port,buffer.store c,len,pos⟩ := rfl
  simp only [readFull,bind_apply,get_apply,usedUp,↓reduceIte,read,modify_apply,some,filled]

/-- With bytes in the buffer `readBufferLen` of them are taken, from `readBufferPos` on. -/
theorem readFull_left (fuel : Nat) (ret : Str) (left : s.readBufferPos < s.readBufferLen)
    (inside : s.readBufferPos + s.readBufferLen ≤ 1024) : readFull (fuel + 1) ret s =
      readFull fuel (ret ++ (s.readBuffer.bytes.drop s.readBufferPos).take s.readBufferLen.toNat)
        { s with readBufferPos := s.readBufferLen.toNat } := by
  have some : ¬s.readBufferPos ≥ s.readBufferLen := by omega
  have string : ¬(s.readBufferLen < 0 ∨ s.readBufferPos + s.readBufferLen > s.readBuffer.bytes.length) := by
    rw [s.readBuffer.size]
    omega
  simp only [readFull,bind_apply,get_apply,some,↓reduceIte,newString,string,pure_apply,set_apply]

theorem readFull_outOfBounds (fuel : Nat) (ret : Str) (left : s.readBufferPos < s.readBufferLen)
    (outside : 1024 < s.readBufferPos + s.readBufferLen) :
    readFull (fuel + 1) ret s = .error .outOfBounds s := by
  have some : ¬s.readBufferPos ≥ s.readBufferLen := by omega
  have string : s.readBufferLen < 0 ∨ s.readBufferPos + s.readBufferLen > s.readBuffer.bytes.length := by
    rw [s.readBuffer.size]
    omega
  simp only [readFull,bind_apply,get_apply,some,↓reduceIte,newString,string,throw_apply]

/-- With a buffer that is used up it returns what comes up to the timeout. -/
theorem readFull_usedUp (fuel : Nat) (ret : Str) (usedUp : s.readBufferLen ≤ s.readBufferPos)
    (enough : s.port.length < fuel) : ∃ more s', readFull fuel ret s = .ok (ret ++ more) s' ∧
      stream s = more ++ stream s' ∧ s'.readBufferLen ≤ s'.readBufferPos := by
  induction fuel generalizing ret s with
  | zero => exact absurd enough (Nat.not_lt_zero _)
  | succ fuel ih =>
    rw [stream_usedUp usedUp]
    obtain ⟨port,buffer,len,pos⟩ := s
    cases port with
    | nil => exact ⟨[],_,by rw [readFull_nil fuel ret usedUp,List.append_nil],
        by rw [stream_usedUp (Int.natCast_nonneg pos)]; rfl,Int.natCast_nonneg pos⟩
    | cons delivery port =>
      cases delivery with
      | nothing n =>
        have least : -(n : Int) ≤ pos := by omega
        exact ⟨[],_,by rw [readFull_nothing fuel ret n usedUp,List.append_nil],
          by rw [stream_usedUp least]; rfl,least⟩
      | chunk c =>
        have present := c.present
        have fits := c.fits
        have whole := readFull_left (s := ⟨port,buffer.store c,c.bytes.length,0⟩) fuel ret
          (by simp; omega) (by simp; omega)
        obtain ⟨more,s',read,flat,kept⟩ := ih (s := ⟨port,buffer.store c,c.bytes.length,c.bytes.length⟩)
          (ret ++ c.bytes) (Int.le_refl _) (Nat.lt_of_succ_lt_succ enough)
        refine ⟨c.bytes ++ more,s',?_,?_,kept⟩
        · rw [readFull_chunk fuel ret c usedUp,whole]
          simp only [List.drop_zero,Int.toNat_natCast,take_store]
          rw [read,List.append_assoc]
        · rw [stream_usedUp (Int.le_refl _)] at flat
          rw [List.flatMap_cons,flat,List.append_assoc]
          rfl

theorem full_usedUp (usedUp : s.readBufferLen ≤ s.readBufferPos) :
    ∃ ret s', readFullBufferedTimeout s = .ok ⟨ret,[]⟩ s' ∧ stream s = ret ++ stream s' ∧
      s'.readBufferLen ≤ s'.readBufferPos := by
  obtain ⟨ret,s',read,flat,kept⟩ := readFull_usedUp (s.port.length + 2) [] usedUp (by omega)
  refine ⟨ret,s',?_,flat,kept⟩
  simp only [readFullBufferedTimeout,bind_apply,get_apply,read]
  rfl

theorem full_outOfBounds (left : s.readBufferPos < s.readBufferLen)
    (outside : 1024 < s.readBufferPos + s.readBufferLen) :
    readFullBufferedTimeout s = .error .outOfBounds s := by
  simp only [readFullBufferedTimeout,bind_apply,get_apply,readFull_outOfBounds _ [] left outside]

/-- The third argument of `new String` is a length: as many bytes too many come as the position says. -/
theorem full_left (left : s.readBufferPos < s.readBufferLen) (inside : s.readBufferPos + s.readBufferLen ≤ 1024) :
    ∃ ret s', readFullBufferedTimeout s = .ok ⟨ret,[]⟩ s' ∧
      ret.length + (stream s').length = (stream s).length + s.readBufferPos ∧
      s'.readBufferLen ≤ s'.readBufferPos := by
  have len : (s.readBufferLen.toNat : Int) = s.readBufferLen := by omega
  obtain ⟨more,s',read,flat,kept⟩ := readFull_usedUp (s := { s with readBufferPos := s.readBufferLen.toNat })
    (s.port.length + 1) ([] ++ (s.readBuffer.bytes.drop s.readBufferPos).take s.readBufferLen.toNat)
    (Int.le_of_eq len.symm) (Nat.lt_succ_self _)
  rw [stream_usedUp (Int.le_of_eq len.symm)] at flat
  refine ⟨(s.readBuffer.bytes.drop s.readBufferPos).take s.readBufferLen.toNat ++ more,s',?_,?_,kept⟩
  · simp only [readFullBufferedTimeout,bind_apply,get_apply,readFull_left _ [] left inside,read]
    rfl
  · have size := congrArg List.length flat
    simp only [stream,unread,List.length_append,List.length_take,List.length_drop,
      s.readBuffer.size] at size ⊢
    omega

end Readers

/-! ### Calls -/

def TimesOut (s : State) : Call → Prop
  | .line inTime => ∃ s', readLineBuffered inTime s = .error .timeout s'
  | .full => False

def Returns (s : State) (call : Call) : Prop := ∃ reading s', perform call s = .ok reading s'

/-- `readFullBufferedTimeout` finds what `readLineBuffered` has left. -/
def FindsRest (s : State) (call : Call) : Prop := call = .full ∧ s.readBufferPos < s.readBufferLen

/-- It finds a rest, and `new String` does not throw. -/
def Repeats (s : State) (call : Call) : Prop :=
  FindsRest s call ∧ s.readBufferPos + s.readBufferLen ≤ 1024

section Calls

variable {s : State} {call : Call}

/-- What a call that does not repeat takes from the stream is what it returns. -/
theorem step_exact (consistent : Consistent s) (inTime : ¬TimesOut s call) (once : ¬Repeats s call) :
    stream s = text s call ++ stream (step s call) ∧ Consistent (step s call) := by
  cases call with
  | line n =>
    rcases readLineBuffered_spec n consistent with ⟨reading,s',read,flat,kept⟩ | thrown
    · simp only [text,step,perform,read,final_ok]
      exact ⟨flat,kept⟩
    · exact absurd thrown inTime
  | full =>
    by_cases left : (s.readBufferPos : Int) < s.readBufferLen
    · have outside : ¬(s.readBufferPos : Int) + s.readBufferLen ≤ 1024 :=
        fun inside => once ⟨⟨rfl,left⟩,inside⟩
      have thrown := full_outOfBounds left (by omega)
      simp only [text,step,perform,thrown,final_error,List.nil_append]
      exact ⟨trivial,consistent⟩
    · obtain ⟨ret,s',read,flat,kept⟩ := full_usedUp (s := s) (by omega)
      simp only [text,step,perform,read,final_ok,List.append_nil]
      exact ⟨flat,fun left => absurd left (by omega)⟩

theorem step_repeats (again : Repeats s call) :
    (stream s).length + s.readBufferPos = (text s call).length + (stream (step s call)).length ∧
      Consistent (step s call) := by
  obtain ⟨⟨rfl,left⟩,inside⟩ := again
  obtain ⟨ret,s',read,size,kept⟩ := full_left left inside
  simp only [text,step,perform,read,final_ok,List.append_nil]
  exact ⟨size.symm,fun left => absurd left (by omega)⟩

theorem returns_iff (consistent : Consistent s) (inTime : ¬TimesOut s call) :
    Returns s call ↔ (FindsRest s call → Repeats s call) := by
  cases call with
  | line n =>
    refine iff_of_true ?_ (fun rest => absurd rest.1 (by simp))
    rcases readLineBuffered_spec n consistent with ⟨reading,s',read,-⟩ | thrown
    · exact ⟨reading,s',read⟩
    · exact absurd thrown inTime
  | full =>
    by_cases left : (s.readBufferPos : Int) < s.readBufferLen
    · by_cases inside : (s.readBufferPos : Int) + s.readBufferLen ≤ 1024
      · obtain ⟨ret,s',read,-⟩ := full_left left inside
        exact iff_of_true ⟨_,s',read⟩ (fun rest => ⟨rest,inside⟩)
      · refine iff_of_false ?_ (fun repeats => inside (repeats ⟨rfl,left⟩).2)
        rintro ⟨reading,s',read⟩
        rw [perform,full_outOfBounds left (by omega)] at read
        cases read
    · obtain ⟨ret,s',read,-⟩ := full_usedUp (s := s) (by omega)
      exact iff_of_true ⟨_,s',read⟩ (fun rest => absurd rest.2 left)

theorem texts_exact {calls : List Call} (consistent : Consistent s)
    (inTime : Along step (fun s call => ¬TimesOut s call) s calls)
    (once : Along step (fun s call => ¬Repeats s call) s calls) :
    stream s = texts s calls ++ stream (run step s calls) := by
  induction calls generalizing s with
  | nil => rfl
  | cons call calls ih =>
    obtain ⟨flat,kept⟩ := step_exact consistent inTime.1 once.1
    rw [flat,ih kept inTime.2 once.2,texts,List.append_assoc]
    rfl

theorem step_length (consistent : Consistent s) (inTime : ¬TimesOut s call) :
    (stream s).length ≤ (text s call).length + (stream (step s call)).length ∧ Consistent (step s call) := by
  by_cases again : Repeats s call
  · obtain ⟨size,kept⟩ := step_repeats again
    exact ⟨by omega,kept⟩
  · obtain ⟨flat,kept⟩ := step_exact consistent inTime again
    have size := congrArg List.length flat
    rw [List.length_append] at size
    exact ⟨Nat.le_of_eq size,kept⟩

/-- Nothing makes up for a repetition: the strings never get too short. -/
theorem texts_length {calls : List Call} (consistent : Consistent s)
    (inTime : Along step (fun s call => ¬TimesOut s call) s calls) :
    (stream s).length ≤ (texts s calls).length + (stream (run step s calls)).length ∧
      ((stream s).length = (texts s calls).length + (stream (run step s calls)).length →
        Along step (fun s call => ¬Repeats s call) s calls) := by
  induction calls generalizing s with
  | nil => exact ⟨Nat.le_add_left _ _,fun _ => trivial⟩
  | cons call calls ih =>
    obtain ⟨here,kept⟩ := step_length consistent inTime.1
    obtain ⟨later,along⟩ := ih kept inTime.2
    simp only [texts,List.length_append,run,List.foldl_cons] at later along ⊢
    refine ⟨by omega,?_⟩
    intro same
    refine ⟨?_,along (by omega)⟩
    intro again
    have behind := (consistent again.1.2).1
    have longer := (step_repeats again).1
    omega

theorem along_returns {calls : List Call} (consistent : Consistent s)
    (inTime : Along step (fun s call => ¬TimesOut s call) s calls) :
    Along step Returns s calls ∧ Along step (fun s call => ¬Repeats s call) s calls ↔
      Along step (fun s call => ¬FindsRest s call) s calls := by
  induction calls generalizing s with
  | nil => simp [Along]
  | cons call calls ih =>
    have later := ih (step_length consistent inTime.1).2 inTime.2
    have here := returns_iff consistent inTime.1
    constructor
    · rintro ⟨⟨first,returns⟩,⟨once,onces⟩⟩
      exact ⟨fun rest => once (here.mp first rest),later.mp ⟨returns,onces⟩⟩
    · rintro ⟨first,rests⟩
      obtain ⟨returns,onces⟩ := later.mpr rests
      exact ⟨⟨here.mpr fun rest => absurd rest first,returns⟩,⟨fun again => first again.1,onces⟩⟩

end Calls

/-- What the calls return, line ends put back, and what is then still to be read make up what is delivered. -/
def Exact (port : List SyncRead) (calls : List Call) : Prop :=
  port.flatMap SyncRead.bytes = texts { port := port } calls ++ stream (run step { port := port } calls)

theorem exact_iff {port : List SyncRead} {calls : List Call}
    (inTime : Along step (fun s call => ¬TimesOut s call) { port := port } calls) :
    Exact port calls ↔ Along step (fun s call => ¬Repeats s call) { port := port } calls := by
  have start : stream { port := port } = port.flatMap SyncRead.bytes := stream_usedUp (Int.le_refl 0)
  have consistent : Consistent { port := port } := fun left => absurd left (Int.lt_irrefl 0)
  unfold Exact
  rw [← start]
  constructor
  · intro exact
    have size := congrArg List.length exact
    rw [List.length_append] at size
    exact (texts_length consistent inTime).2 size
  · exact texts_exact consistent inTime

/-- When no line times out, every call returns and nothing is lost or repeated exactly when
`readFullBufferedTimeout` never finds a rest in the buffer. Where `new String` throws at the rest, the strings
alone stay right. -/
theorem reads_once_iff (port : List SyncRead) (calls : List Call)
    (inTime : Along step (fun s call => ¬TimesOut s call) { port := port } calls) :
    (Along step Returns { port := port } calls ∧ Exact port calls ↔
      Along step (fun s call => ¬FindsRest s call) { port := port } calls) ∧
    (Exact port calls ↔ Along step (fun s call => ¬Repeats s call) { port := port } calls) := by
  have consistent : Consistent { port := port } := fun left => absurd left (Int.lt_irrefl 0)
  rw [exact_iff inTime]
  exact ⟨along_returns consistent inTime,Iff.rfl⟩

def answers : List SyncRead := [.chunk ⟨str "V\nQ\n",by decide,by decide,by simp [str]; decide⟩]

theorem line_inTime {s s' : State} {reading : Reading} {n : Nat}
    (read : readLineBuffered n s = .ok reading s') : ¬TimesOut s (.line n) := by
  rintro ⟨s'',thrown⟩
  rw [read] at thrown
  cases thrown

theorem reads_once_answers : Exact answers [.line 2,.line 2] := by
  have inTime : Along step (fun s call => ¬TimesOut s call) { port := answers } [.line 2,.line 2] :=
    ⟨line_inTime rfl,line_inTime rfl,trivial⟩
  exact ((reads_once_iff answers [.line 2,.line 2] inTime).2).mpr
    ⟨fun again => absurd again.1.1 (by simp),fun again => absurd again.1.1 (by simp),trivial⟩

theorem answers_repeated : ¬Exact answers [.line 2,.full] := by
  have inTime : Along step (fun s call => ¬TimesOut s call) { port := answers } [.line 2,.full] :=
    ⟨line_inTime rfl,id,trivial⟩
  rw [exact_iff inTime]
  rintro ⟨-,once,-⟩
  exact once ⟨⟨rfl,by decide⟩,by decide⟩

end Btcontrol.USBConn
