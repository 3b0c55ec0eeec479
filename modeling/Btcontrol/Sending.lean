import Btcontrol.Framing
import Btcontrol.Transition
import Btcontrol.Exec

/-! `CommThread::sendMessage` down to the `::write` of `TCPClient`, which may take less than it is given. -/
namespace Btcontrol.Sending

open Transition Bytes FBTCtlMessage Exec

inductive SendErr where
  | noClient                 -- "no client"
  | notConnected             -- "client not connected"
  | message (e : Err)        -- thrown by getBinaryMessage
  deriving DecidableEq

/-- What one `::write` does: it accepts so many bytes at most, or returns -1. -/
inductive WriteResult where
  | accepted (n : Nat)
  | failed
  deriving DecidableEq

/-- The bytes it takes of `count`. -/
def WriteResult.taken (result : WriteResult) (count : Nat) : Nat :=
  match result with
  | .accepted n => min n count
  | .failed => 0

structure State where
  client : Bool := true
  so : Int := 3
  cork : Bool := false
  stream : Str := []
  deriving DecidableEq

abbrev Action := EStateM SendErr State

def isConnected (s : State) : Bool := decide (s.so ≥ 0)

/-- TCP_CORK is set, or taken away. -/
def prepareMessage : Action Unit := modify (fun s => { s with cork := true })

def flushMessage : Action Unit := modify (fun s => { s with cork := false })

/-- `::write` throws nothing, so `TCPClient::write` returns what it returns. -/
def write (result : WriteResult) (buf : Str) : Action Int := do
  modify (fun s => { s with stream := s.stream ++ buf.take (result.taken buf.length) })
  return match result with
    | .accepted _ => result.taken buf.length
    | .failed => -1

/-- A message to send, and what its two `::write` calls do. -/
structure Call where
  msg : FBTCtlMessage
  header : WriteResult
  body : WriteResult

/-- What `write` returns is ignored. -/
def sendMessage (messageLayouts : MessageLayouts) (call : Call) : Action Unit := do
  if !(← get).client then throw .noClient
  if !isConnected (← get) then throw .notConnected
  match getBinaryMessage messageLayouts call.msg with
  | .error e => throw (.message e)
  | .ok binMsg =>
    prepareMessage
    let _ ← write call.header (le 4 binMsg.length)
    let _ ← write call.body binMsg
    flushMessage

def step (messageLayouts : MessageLayouts) (s : State) (call : Call) : State :=
  final (sendMessage messageLayouts call s)

/-- A call that returns has put the whole frame into the stream. -/
def AllOrNothing (messageLayouts : MessageLayouts) (s : State) (call : Call) : Prop :=
  ∀ s', sendMessage messageLayouts call s = .ok () s' →
    ∃ frame, CommThread.sendMessage messageLayouts call.msg = .ok frame ∧ s'.stream = s.stream ++ frame

def TakesAll (messageLayouts : MessageLayouts) (s : State) (call : Call) : Prop :=
  s.client = true → isConnected s = true → ∀ binMsg, getBinaryMessage messageLayouts call.msg = .ok binMsg →
    call.header.taken 4 = 4 ∧ call.body.taken binMsg.length = binMsg.length

section Step

variable {messageLayouts : MessageLayouts} {s : State}

/-- What a call does to the stream, or its exception. -/
theorem sendMessage_eq (call : Call) : sendMessage messageLayouts call s =
    if s.client = false then .error .noClient s
    else if isConnected s = false then .error .notConnected s
    else match getBinaryMessage messageLayouts call.msg with
      | .error e => .error (.message e) s
      | .ok binMsg => .ok () { s with
          cork := false
          stream := s.stream ++ (le 4 binMsg.length).take (call.header.taken 4) ++
            binMsg.take (call.body.taken binMsg.length) } := by
  cases client : s.client with
  | false => simp [sendMessage,bind_apply,client]
  | true =>
    cases connected : isConnected s with
    | false => simp [sendMessage,bind_apply,client,connected]
    | true =>
      cases encoded : getBinaryMessage messageLayouts call.msg with
      | error e => simp [sendMessage,bind_apply,client,connected,encoded]
      | ok binMsg => simp [sendMessage,bind_apply,client,connected,encoded,prepareMessage,write,flushMessage]

theorem frame_eq {call : Call} {binMsg : Str} (encoded : getBinaryMessage messageLayouts call.msg = .ok binMsg) :
    CommThread.sendMessage messageLayouts call.msg = .ok (le 4 binMsg.length ++ binMsg) := by
  simp only [CommThread.sendMessage,encoded]
  rfl

theorem taken_le (result : WriteResult) (count : Nat) : result.taken count ≤ count := by
  cases result with
  | accepted n => exact Nat.min_le_right n count
  | failed => exact Nat.zero_le count

/-- What is accepted of the two writes is the frame exactly when both are accepted whole. -/
theorem accepted_frame (header body : WriteResult) (binMsg : Str) :
    (le 4 binMsg.length).take (header.taken 4) ++ binMsg.take (body.taken binMsg.length) =
      le 4 binMsg.length ++ binMsg ↔ header.taken 4 = 4 ∧ body.taken binMsg.length = binMsg.length := by
  have first := taken_le header 4
  have second := taken_le body binMsg.length
  constructor
  · intro whole
    have size := congrArg List.length whole
    simp only [List.length_append,List.length_take,le_length] at size
    omega
  · rintro ⟨first,second⟩
    rw [first,second,List.take_length,List.take_of_length_le (by simp)]

theorem allOrNothing_iff (call : Call) : AllOrNothing messageLayouts s call ↔ TakesAll messageLayouts s call := by
  unfold AllOrNothing TakesAll
  rw [sendMessage_eq]
  cases client : s.client with
  | false => simp
  | true =>
    cases connected : isConnected s with
    | false => simp
    | true =>
      cases encoded : getBinaryMessage messageLayouts call.msg with
      | error e => simp
      | ok binMsg =>
        simp only [Bool.true_eq_false,↓reduceIte,frame_eq encoded,EStateM.Result.ok.injEq,true_and,forall_eq',
          Except.ok.injEq,exists_eq_left',true_implies,List.append_assoc,List.append_cancel_left_eq,accepted_frame]

def Returns (messageLayouts : MessageLayouts) (s : State) (call : Call) : Prop :=
  ∃ s', sendMessage messageLayouts call s = .ok () s'

/-- Calls that return and take everything leave the frames in the stream, in order. -/
theorem run_takesAll (calls : List Call) (takes : Along (step messageLayouts) (TakesAll messageLayouts) s calls)
    (returns : Along (step messageLayouts) (Returns messageLayouts) s calls) :
    ∃ stream, CommThread.sendMessages messageLayouts (calls.map Call.msg) = .ok stream ∧
      (run (step messageLayouts) s calls).stream = s.stream ++ stream := by
  induction calls generalizing s with
  | nil => exact ⟨[],rfl,by simp [run]⟩
  | cons call rest ih =>
    obtain ⟨⟨s',returned⟩,later⟩ := returns
    obtain ⟨frame,sent,appended⟩ := (allOrNothing_iff call).mpr takes.1 s' returned
    obtain ⟨stream,others,flat⟩ := ih takes.2 later
    have next : step messageLayouts s call = s' := by rw [step,returned,final_ok]
    refine ⟨frame ++ stream,?_,?_⟩
    · simp only [List.map_cons,CommThread.sendMessages,sent,others]
      rfl
    · rw [next,appended,List.append_assoc] at flat
      rw [run,List.foldl_cons,next]
      exact flat

end Step

/-- Sending is all or nothing exactly when both writes of every message take all they are given. -/
theorem sends_whole_iff (messageLayouts : MessageLayouts) (calls : List Call) :
    (Along (step messageLayouts) (AllOrNothing messageLayouts) {} calls ∧
      ∀ before, before <+: calls → Along (step messageLayouts) (Returns messageLayouts) {} before →
        ∃ stream, CommThread.sendMessages messageLayouts (before.map Call.msg) = .ok stream ∧
          (run (step messageLayouts) {} before).stream = stream) ↔
      Along (step messageLayouts) (TakesAll messageLayouts) {} calls := by
  constructor
  · rintro ⟨whole,-⟩
    exact along_mono (fun s call => (@allOrNothing_iff messageLayouts s call).mp) calls _ whole
  · intro takes
    refine ⟨along_mono (fun s call => (@allOrNothing_iff messageLayouts s call).mpr) calls _ takes,?_⟩
    rintro before ⟨after,rfl⟩ returns
    have earlier := along_prefix before after _ takes
    obtain ⟨stream,sent,flat⟩ := run_takesAll before earlier returns
    exact ⟨stream,sent,flat⟩

def cutOff : Call := ⟨.struct 7 [],.accepted 4,.failed⟩

theorem cutOff_desynchronises : ¬Along (step protocolDat) (AllOrNothing protocolDat) {} [cutOff] := by
  rintro ⟨whole,-⟩
  have takes := (allOrNothing_iff cutOff).mp whole rfl rfl [7] rfl
  exact absurd takes.2 (by decide)

end Btcontrol.Sending
