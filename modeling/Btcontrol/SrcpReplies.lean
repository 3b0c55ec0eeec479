import Btcontrol.Scanner
import Btcontrol.Srcp

/-! `SRCP::sendMessage` on the socket: the command is written and one `read` is taken for the
reply. The socket is the list of pieces `read` will return. -/
namespace Btcontrol

open Bytes Scanner

/-! ### SRCPReply -/

/-- The places in a number of `%lf`. -/
inductive DoublePlace where
  | start | sign | zero | int | point | fraction | exp | expSign | expDigits
  | hex | hexInt | hexPoint | hexFraction
  | i | in_ | inf | infi | infin | infini | infinit | infinity | n | na | nan
  deriving DecidableEq, Repr

def isdigit (c : UInt8) : Bool := 48 ≤ c && c ≤ 57

def isxdigit (c : UInt8) : Bool := isdigit c || (97 ≤ c && c ≤ 102) || (65 ≤ c && c ≤ 70)

def isLetter (letter c : UInt8) : Bool := c == letter || c == letter - 32

def isSign (c : UInt8) : Bool := c == 43 || c == 45

/-- What a place in a number allows next: the first entry that accepts the byte. -/
def DoublePlace.nexts : DoublePlace → List ((UInt8 → Bool) × DoublePlace)
  | .start => [(isSign, .sign), ((· == 48), .zero), (isdigit, .int), ((· == 46), .point),
      (isLetter 105, .i), (isLetter 110, .n)]
  | .sign => [((· == 48), .zero), (isdigit, .int), ((· == 46), .point), (isLetter 105, .i), (isLetter 110, .n)]
  | .zero => [(isdigit, .int), ((· == 46), .fraction), (isLetter 101, .exp), (isLetter 120, .hex)]
  | .int => [(isdigit, .int), ((· == 46), .fraction), (isLetter 101, .exp)]
  | .point => [(isdigit, .fraction)]
  | .fraction => [(isdigit, .fraction), (isLetter 101, .exp)]
  | .exp => [(isSign, .expSign), (isdigit, .expDigits)]
  | .expSign => [(isdigit, .expDigits)]
  | .expDigits => [(isdigit, .expDigits)]
  | .hex => [(isxdigit, .hexInt), ((· == 46), .hexPoint)]
  | .hexInt => [(isxdigit, .hexInt), ((· == 46), .hexFraction), (isLetter 112, .exp)]
  | .hexPoint => [(isxdigit, .hexFraction)]
  | .hexFraction => [(isxdigit, .hexFraction), (isLetter 112, .exp)]
  | .i => [(isLetter 110, .in_)]
  | .in_ => [(isLetter 102, .inf)]
  | .inf => [(isLetter 105, .infi)]
  | .infi => [(isLetter 110, .infin)]
  | .infin => [(isLetter 105, .infini)]
  | .infini => [(isLetter 116, .infinit)]
  | .infinit => [(isLetter 121, .infinity)]
  | .infinity => []
  | .n => [(isLetter 97, .na)]
  | .na => [(isLetter 110, .nan)]
  | .nan => []

def scanDouble : Automaton UInt8 DoublePlace where
  start := .start
  next place c := (place.nexts.find? (fun it => it.1 c)).map Prod.snd
  done place := place ∈ [.zero, .int, .fraction, .expDigits, .hexInt, .hexFraction, .inf, .infinity, .nan]

inductive IntPlace where
  | start | sign | int
  deriving DecidableEq, Repr

def scanInt : Automaton UInt8 IntPlace where
  start := .start
  next place c :=
    if isdigit c then some .int else if place = .start && isSign c then some .sign else none
  done place := place = .int

/-- The fields `sscanf` has assigned; the others hold whatever was in the memory. A timestamp is
the text it was read from. -/
structure SRCPReply where
  timestamp : Option Str := none
  code : Option Int := none
  message : Option Str := none
  deriving DecidableEq, Repr

def SRCPReply.type (reply : SRCPReply) : Option SRCPReplyCodeType := reply.code.map replyType

/-- `%m[^\n]`, which matches at least one byte. -/
def scanLine (text : Str) : Option Str :=
  if text.takeWhile (· ≠ 10) = [] then none else some (text.takeWhile (· ≠ 10))

def sscanf (message : Str) : SRCPReply :=
  match scan scanDouble (message.dropWhile isspace) with
  | none => {}
  | some (timestamp, rest) => match scan scanInt (rest.dropWhile isspace) with
    | none => { timestamp := some timestamp }
    | some (code, rest) => {
        timestamp := some timestamp
        code := some (atoi code)
        message := scanLine (rest.dropWhile isspace) }

/-- `SRCPReply::SRCPReply`, from the bytes of a C string. -/
def SRCPReply.ofMessage (message : Str) : SRCPReply := sscanf (message.takeWhile (· ≠ 0))

/-! ### The socket -/

namespace SRCP

inductive ReadErr where
  | abort        -- read returns nothing
  | bufferEnd    -- buffer[1024]=0 writes behind the buffer
  deriving DecidableEq, Repr

/-- One read of at most 1024 bytes, and the NUL behind them. -/
def readReply (so : List (List UInt8)) : Except ReadErr (SRCPReply × List (List UInt8)) :=
  if (recv 1024 so).1 = [] then .error .abort
  else if (recv 1024 so).1.length = 1024 then .error .bufferEnd
  else .ok (SRCPReply.ofMessage (recv 1024 so).1, (recv 1024 so).2)

/-- `sendMessage` as it uses the socket: what it writes, and the reply it returns. -/
def exchange (message : Str) (so : List (List UInt8)) :
    Except ReadErr (Str × SRCPReply × List (List UInt8)) := do
  let (reply, so) ← readReply so
  return (message ++ [10], reply, so)

/-- Successive `sendMessage` calls: all that was written, and the replies. -/
def exchanges : List Str → List (List UInt8) → Except ReadErr (Str × List SRCPReply × List (List UInt8))
  | [], so => .ok ([], [], so)
  | message :: rest, so => do
    let (written, reply, so) ← exchange message so
    let (more, replies, so) ← exchanges rest so
    return (written ++ more, reply :: replies, so)

/-- An answer of srcpd: a line and its newline. -/
def line (answer : Str) : Str := answer ++ [10]

/-- The k-th call returns the reply of the k-th answer. -/
def Matched (messages answers : List Str) (so : List (List UInt8)) : Prop :=
  ∃ rest, exchanges messages so =
    .ok (messages.flatMap line, answers.map (fun answer => SRCPReply.ofMessage (line answer)), rest)

/-- Each read returns one answer and fits in the buffer. The newline may come with the next answer;
`left` are the bytes of an earlier newline that are still to come. -/
def InStep (left : Nat) : List Str → List (List UInt8) → Prop
  | [], _ => True
  | _ :: _, [] => False
  | answer :: answers, piece :: so => piece.length < 1024 ∧
    ((piece.length = left + answer.length + 1 ∧ InStep 0 answers so) ∨
      (piece.length = left + answer.length ∧ InStep 1 answers so))

instance : (left : Nat) → (answers : List Str) → (so : List (List UInt8)) → Decidable (InStep left answers so)
  | _, [], _ => inferInstanceAs (Decidable True)
  | _, _ :: _, [] => inferInstanceAs (Decidable False)
  | _, _ :: answers, piece :: so =>
    have := instDecidableInStep 0 answers so
    have := instDecidableInStep 1 answers so
    inferInstanceAs (Decidable (piece.length < 1024 ∧ _))

/-- Nothing of an answer is read before its command is sent. -/
def Solicited (left : Nat) : List Str → List (List UInt8) → Prop
  | [], _ => True
  | _ :: _, [] => True
  | answer :: answers, piece :: so => piece.length ≤ left + (line answer).length ∧
    Solicited (left + (line answer).length - piece.length) answers so

/-- An answer with the three parts of an SRCP reply. -/
def Complete (answer : Str) : Prop := 0 ∉ answer ∧ (SRCPReply.ofMessage (line answer)).message.isSome = true

end SRCP

/-! ### What a reply is read from -/

theorem newline_refused :
    (∀ place, scanDouble.next place 10 = none) ∧ ∀ place, scanInt.next place 10 = none := by
  constructor
  · intro place
    cases place <;> rfl
  · intro place
    cases place <;> rfl

theorem skip_newline (text : Str) :
    (text ++ [10]).dropWhile isspace =
      if text.dropWhile isspace = [] then [] else text.dropWhile isspace ++ [10] := by
  induction text with
  | nil => rfl
  | cons c rest ih =>
    simp only [List.cons_append,List.dropWhile_cons]
    split
    · exact ih
    · simp

theorem scanLine_newline (text : Str) : scanLine (text ++ [10]) = scanLine text := by
  have same : (text ++ [10]).takeWhile (· ≠ 10) = text.takeWhile (· ≠ 10) := by
    induction text with
    | nil => rfl
    | cons c rest ih =>
      simp only [List.cons_append,List.takeWhile_cons,ih]
  simp only [scanLine,same]

theorem scan_newline {Q : Type} {automaton : Automaton UInt8 Q}
    (refused : ∀ place, automaton.next place 10 = none) (text : Str) :
    (scan automaton ((text ++ [10]).dropWhile isspace) = scan automaton (text.dropWhile isspace)) ∨
      scan automaton ((text ++ [10]).dropWhile isspace) =
        (scan automaton (text.dropWhile isspace)).map (fun found => (found.1, found.2 ++ [10])) := by
  rw [skip_newline]
  split
  · rename_i blank
    exact .inl (by rw [blank])
  · exact .inr (scan_stop automaton 10 [] refused _)

theorem scanLine_skip (text : Str) :
    scanLine ((text ++ [10]).dropWhile isspace) = scanLine (text.dropWhile isspace) := by
  rw [skip_newline]
  split
  · rename_i blank
    rw [blank]
  · rw [scanLine_newline]

/-- A newline behind the text changes nothing. -/
theorem sscanf_newline (text : Str) : sscanf (text ++ [10]) = sscanf text := by
  simp only [sscanf]
  rcases scan_newline newline_refused.1 text with same | behind
  · rw [same]
  · rw [behind]
    cases scan scanDouble (text.dropWhile isspace) with
    | none => rfl
    | some found =>
      obtain ⟨timestamp,rest⟩ := found
      simp only [Option.map_some]
      rcases scan_newline newline_refused.2 rest with same | behind
      · rw [same]
      · rw [behind]
        cases scan scanInt (rest.dropWhile isspace) with
        | none => rfl
        | some found => simp only [Option.map_some,scanLine_skip]

theorem skip_more {text : Str} (some : text.dropWhile isspace ≠ []) (more : Str) :
    (text ++ more).dropWhile isspace = text.dropWhile isspace ++ more := by
  induction text with
  | nil => exact absurd rfl some
  | cons c rest ih =>
    simp only [List.cons_append,List.dropWhile_cons] at some ⊢
    split
    · rename_i space
      rw [if_pos space] at some
      exact ih some
    · rfl

theorem scanLine_longer {text message : Str} (found : scanLine text = some message) (more : Str)
    (noEnd : 10 ∉ text ++ more) : scanLine (text ++ more) = some (message ++ more) := by
  have whole : (text ++ more).takeWhile (· ≠ 10) = text ++ more := by
    rw [List.takeWhile_eq_self_iff]
    intro c member
    have other : c ≠ 10 := fun same => noEnd (same ▸ member)
    simpa using other
  have front : text.takeWhile (· ≠ 10) = text := by
    rw [List.takeWhile_eq_self_iff]
    intro c member
    have other : c ≠ 10 := fun same => noEnd (same ▸ List.mem_append_left _ member)
    simpa using other
  simp only [scanLine,front] at found
  split at found
  · cases found
  · rename_i full
    cases found
    have fuller : text ++ more ≠ [] := fun empty => full (List.append_eq_nil_iff.mp empty).1
    simp only [scanLine,whole,fuller,↓reduceIte]

theorem scanLine_some {text message : Str} (found : scanLine text = some message) : text ≠ [] := by
  rintro rfl
  cases found

theorem scan_some {Q : Type} {automaton : Automaton UInt8 Q} (needs : automaton.done automaton.start = false)
    {text : Str} {found : Str × Str} (scanned : scan automaton text = some found) : text ≠ [] := by
  rintro rfl
  simp [scan,munch,needs] at scanned

theorem dropWhile_some {text : Str} (some : text.dropWhile isspace ≠ []) : text ≠ [] := by
  rintro rfl
  exact some rfl

/-- What stands behind an item stands in the text. -/
theorem mem_behind {Q : Type} {automaton : Automaton UInt8 Q} {text item rest : Str}
    (scanned : scan automaton (text.dropWhile isspace) = some (item, rest)) {c : UInt8}
    (member : c ∈ rest) : c ∈ text := by
  have inside : c ∈ item ++ rest := List.mem_append_right _ member
  rw [scan_split scanned] at inside
  exact (List.dropWhile_sublist _).subset inside

/-- Where a message is read, what more of the line there is belongs to it. -/
theorem sscanf_longer {text message : Str} (found : (sscanf text).message = some message) (more : Str)
    (noEnd : 10 ∉ text ++ more) : (sscanf (text ++ more)).message = some (message ++ more) := by
  simp only [sscanf] at found
  cases double : scan scanDouble (text.dropWhile isspace) with
  | none =>
    rw [double] at found
    cases found
  | some read =>
    obtain ⟨timestamp,behind⟩ := read
    simp only [double] at found
    cases int : scan scanInt (behind.dropWhile isspace) with
    | none =>
      rw [int] at found
      cases found
    | some read =>
      obtain ⟨code,rest⟩ := read
      simp only [int] at found
      -- each item has something behind it, so more text does not reach into it
      have restSome := scanLine_some found
      have behindSome := scan_some rfl int
      have textSome := scan_some rfl double
      have doubleLonger := scan_append double (dropWhile_some behindSome) more
      have intLonger := scan_append int (dropWhile_some restSome) more
      have inRest : 10 ∉ rest.dropWhile isspace ++ more := by
        intro member
        rcases List.mem_append.mp member with inside | inMore
        · have inText := mem_behind double (mem_behind int ((List.dropWhile_sublist _).subset inside))
          exact noEnd (List.mem_append_left _ inText)
        · exact noEnd (List.mem_append_right _ inMore)
      simp only [sscanf,skip_more textSome,doubleLonger,skip_more behindSome,intLonger,skip_more restSome]
      exact scanLine_longer found more inRest

/-! ### Replies in step with the commands -/

namespace SRCP

theorem ofMessage_line (before after answer : Str) (white : before = [] ∨ before = [10])
    (tail : after = [] ∨ after = [10]) :
    SRCPReply.ofMessage (before ++ (answer ++ after)) = SRCPReply.ofMessage answer := by
  have front : SRCPReply.ofMessage (before ++ (answer ++ after)) = SRCPReply.ofMessage (answer ++ after) := by
    rcases white with rfl | rfl
    · rfl
    · simp only [SRCPReply.ofMessage,sscanf,List.cons_append,List.nil_append,List.takeWhile_cons]
      rfl
  rw [front]
  rcases tail with rfl | rfl
  · rw [List.append_nil]
  · simp only [SRCPReply.ofMessage,List.takeWhile_append]
    split
    · rename_i same
      have whole := (List.takeWhile_prefix (fun x => decide (x ≠ 0)) (l := answer)).eq_of_length same
      rw [whole]
      exact sscanf_newline answer
    · rfl

/-- What a reply that is returned was read from. -/
theorem readReply_ok {so so' : List (List UInt8)} {reply : SRCPReply} (read : readReply so = .ok (reply, so')) :
    ∃ piece, so = piece :: so' ∧ piece.length < 1024 ∧ reply = SRCPReply.ofMessage piece := by
  simp only [readReply] at read
  split at read
  · cases read
  · rename_i some
    split at read
    · cases read
    · rename_i fits
      cases so with
      | nil => exact absurd rfl some
      | cons piece rest =>
        simp only [recv] at read fits
        split at fits
        · rename_i short
          rw [if_pos short] at read
          cases read
          exact ⟨piece,rfl,by dsimp only at fits; omega,rfl⟩
        · rename_i longer
          simp only [List.length_take] at fits
          omega

theorem readReply_piece {piece : List UInt8} (full : piece ≠ []) (small : piece.length < 1024)
    (so : List (List UInt8)) : readReply (piece :: so) = .ok (SRCPReply.ofMessage piece, so) := by
  have first : recv 1024 (piece :: so) = (piece, so) := by
    simp only [recv]
    rw [if_pos (by omega)]
  have fits : piece.length ≠ 1024 := by omega
  simp only [readReply,first,full,fits,↓reduceIte]

/-- One command whose read returns its own answer, and the commands behind it. -/
theorem matched_cons {message answer : Str} {messages answers : List Str} {piece : List UInt8}
    {so : List (List UInt8)} (full : piece ≠ []) (small : piece.length < 1024)
    (own : SRCPReply.ofMessage piece = SRCPReply.ofMessage (line answer)) (others : Matched messages answers so) :
    Matched (message :: messages) (answer :: answers) (piece :: so) := by
  obtain ⟨rest,ran⟩ := others
  refine ⟨rest,?_⟩
  simp only [exchanges,exchange,readReply_piece full small,ran,own,bind,Except.bind,pure,Except.pure,
    List.map_cons,List.flatMap_cons,line]

theorem inStep_matched (messages answers : List Str) (so : List (List UInt8)) (delivered : Delivered so)
    (count : messages.length = answers.length) (pending : Str) (newline : pending = [] ∨ pending = [10])
    (stream : so.flatten = pending ++ answers.flatMap line) (inStep : InStep pending.length answers so) :
    Matched messages answers so := by
  induction answers generalizing messages so pending with
  | nil =>
    cases List.length_eq_zero_iff.mp count
    exact ⟨so,rfl⟩
  | cons answer answers ih =>
    cases messages with
    | nil => cases count
    | cons message messages =>
      cases so with
      | nil => cases inStep
      | cons piece so =>
        have full := delivered piece List.mem_cons_self
        have others : Delivered so := fun other member => delivered other (List.mem_cons_of_mem _ member)
        have counts : messages.length = answers.length := Nat.succ.inj count
        obtain ⟨small,⟨length,next⟩ | ⟨length,next⟩⟩ := inStep
        · have parts : piece ++ so.flatten = (pending ++ (answer ++ [10])) ++ answers.flatMap line := by
            rw [← List.flatten_cons,stream,List.flatMap_cons,line,List.append_assoc pending]
          obtain ⟨whole,rest⟩ := List.append_inj parts (by simp [length,Nat.add_assoc])
          refine matched_cons full small ?_ (ih messages so others counts [] (.inl rfl) rest next)
          rw [whole,ofMessage_line pending [10] answer newline (.inr rfl)]
          exact (ofMessage_line [] [10] answer (.inl rfl) (.inr rfl)).symm
        · have parts : piece ++ so.flatten = (pending ++ answer) ++ ([10] ++ answers.flatMap line) := by
            rw [← List.flatten_cons,stream,List.flatMap_cons,line]
            simp only [List.append_assoc]
          obtain ⟨whole,rest⟩ := List.append_inj parts (by simp [length])
          refine matched_cons full small ?_ (ih messages so others counts [10] (.inr rfl) rest next)
          have early := ofMessage_line pending [] answer newline (.inl rfl)
          rw [List.append_nil] at early
          rw [whole,early]
          exact (ofMessage_line [] [10] answer (.inl rfl) (.inr rfl)).symm

theorem ofMessage_plain {text : Str} (noNul : 0 ∉ text) : SRCPReply.ofMessage text = sscanf text := by
  have whole : text.takeWhile (· ≠ 0) = text := by
    rw [List.takeWhile_eq_self_iff]
    intro c member
    have other : c ≠ 0 := fun same => noNul (same ▸ member)
    simpa using other
  rw [SRCPReply.ofMessage,whole]

/-- A part of an answer is another reply than the answer. -/
theorem answer_whole {pending answer : Str} {piece more : List UInt8} (newline : pending = [] ∨ pending = [10])
    (full : piece ≠ []) (front : piece ++ more = pending ++ line answer ++ rest) (oneLine : 10 ∉ answer)
    (complete : Complete answer)
    (own : SRCPReply.ofMessage piece = SRCPReply.ofMessage (line answer)) :
    pending.length + answer.length ≤ piece.length := by
  by_contra short
  have positive := List.length_pos_iff.mpr full
  have begun : pending.length ≤ piece.length := by
    rcases newline with rfl | rfl
    · exact Nat.zero_le _
    · exact positive
  -- the piece ends inside of the answer
  have taken := congrArg (List.take piece.length) front
  rw [List.take_left,line,List.append_assoc,List.append_assoc,List.take_append,List.take_of_length_le begun,
    List.take_append_of_le_length (by omega)] at taken
  obtain ⟨found,noNul⟩ := complete.symm
  obtain ⟨message,there⟩ := Option.isSome_iff_exists.mp found
  have split := List.take_append_drop (piece.length - pending.length) answer
  generalize p : answer.take (piece.length - pending.length) = part at taken split
  generalize q : answer.drop (piece.length - pending.length) = rest at split
  have missing : rest ≠ [] := by
    intro empty
    have := congrArg List.length q
    simp only [empty,List.length_drop,List.length_nil] at this
    omega
  have noNulPart : 0 ∉ part := fun member => noNul (split ▸ List.mem_append_left _ member)
  have ofLine : SRCPReply.ofMessage (line answer) = sscanf answer := by
    rw [← ofMessage_plain noNul]
    exact ofMessage_line [] [10] answer (.inl rfl) (.inr rfl)
  have ofPiece : SRCPReply.ofMessage piece = sscanf part := by
    have early := ofMessage_line pending [] part newline (.inl rfl)
    rw [List.append_nil,ofMessage_plain noNulPart] at early
    rw [taken,early]
  rw [own,ofLine] at ofPiece
  rw [ofLine,ofPiece] at there
  have longer := sscanf_longer there rest (by rwa [split])
  rw [split,ofPiece,there] at longer
  have same := Option.some.inj longer
  exact missing (List.append_right_eq_self.mp same.symm)

/-- The first reply is that of the first answer, and the others match behind it. -/
theorem matched_split {message answer : Str} {messages answers : List Str} {so : List (List UInt8)}
    (matched : Matched (message :: messages) (answer :: answers) so) :
    ∃ piece so', so = piece :: so' ∧ piece.length < 1024 ∧
      SRCPReply.ofMessage piece = SRCPReply.ofMessage (line answer) ∧ Matched messages answers so' := by
  obtain ⟨rest,ran⟩ := matched
  obtain ⟨⟨written,reply,so'⟩,first,ran⟩ := Exec.ok_of_bind ran
  obtain ⟨⟨reply',so''⟩,read,wrote⟩ := Exec.ok_of_bind first
  obtain ⟨⟨more,replies,last⟩,others,result⟩ := Exec.ok_of_bind ran
  cases wrote
  obtain ⟨piece,rfl,small,rfl⟩ := readReply_ok read
  simp only [pure,Except.pure,Except.ok.injEq,Prod.mk.injEq,List.map_cons,List.cons.injEq,List.flatMap_cons,
    line] at result
  obtain ⟨texts,⟨own,same⟩,rfl⟩ := result
  refine ⟨piece,so',rfl,small,own,last,?_⟩
  rw [others,same,List.append_cancel_left texts]
  rfl

theorem matched_inStep (messages answers : List Str) (so : List (List UInt8)) (delivered : Delivered so)
    (count : messages.length = answers.length) (pending : Str) (newline : pending = [] ∨ pending = [10])
    (stream : so.flatten = pending ++ answers.flatMap line) (oneLine : ∀ answer ∈ answers, 10 ∉ answer)
    (complete : ∀ answer ∈ answers, Complete answer) (solicited : Solicited pending.length answers so)
    (matched : Matched messages answers so) : InStep pending.length answers so := by
  induction answers generalizing messages so pending with
  | nil => trivial
  | cons answer answers ih =>
    cases messages with
    | nil => cases count
    | cons message messages =>
      obtain ⟨piece,so',rfl,small,own,others⟩ := matched_split matched
      have full := delivered piece List.mem_cons_self
      have rest : Delivered so' := fun other member => delivered other (List.mem_cons_of_mem _ member)
      have next (pending : Str) (newline : pending = [] ∨ pending = [10])
          (stream : so'.flatten = pending ++ answers.flatMap line)
          (solicited : Solicited pending.length answers so') : InStep pending.length answers so' :=
        ih messages so' rest (Nat.succ.inj count) pending newline stream
          (fun other member => oneLine other (List.mem_cons_of_mem _ member))
          (fun other member => complete other (List.mem_cons_of_mem _ member)) solicited others
      have parts : piece ++ so'.flatten = pending ++ line answer ++ answers.flatMap line := by
        rw [← List.flatten_cons,stream,List.flatMap_cons,List.append_assoc]
      have whole := answer_whole newline full parts (oneLine answer List.mem_cons_self)
        (complete answer List.mem_cons_self) own
      obtain ⟨bound,later⟩ := solicited
      have lineLength : (line answer).length = answer.length + 1 := by simp [line]
      rw [lineLength] at bound later
      refine ⟨small,?_⟩
      by_cases ended : piece.length = pending.length + answer.length + 1
      · refine .inl ⟨ended,next [] (.inl rfl) ?_ ?_⟩
        · exact (List.append_inj parts (by simp [ended,lineLength,Nat.add_assoc])).2
        · rwa [ended,Nat.add_assoc,Nat.sub_self] at later
      · have early : piece.length = pending.length + answer.length := by omega
        refine .inr ⟨early,next [10] (.inr rfl) ?_ ?_⟩
        · have split : piece ++ so'.flatten = (pending ++ answer) ++ ([10] ++ answers.flatMap line) := by
            rw [parts,line]
            simp only [List.append_assoc]
          exact (List.append_inj split (by simp [early])).2
        · rwa [early,← Nat.add_assoc,Nat.add_sub_cancel_left] at later

/-- Replies match where each read returns one answer, of any text. With complete answers, none of
which is read before its command, they match nowhere else. -/
theorem replies_matched (messages answers : List Str) (so : List (List UInt8)) (delivered : Delivered so)
    (count : messages.length = answers.length) (oneLine : ∀ answer ∈ answers, 10 ∉ answer)
    (stream : so.flatten = answers.flatMap line) :
    (InStep 0 answers so → Matched messages answers so) ∧
      ((∀ answer ∈ answers, Complete answer) → Solicited 0 answers so →
        (Matched messages answers so ↔ InStep 0 answers so)) := by
  have enough : InStep 0 answers so → Matched messages answers so :=
    inStep_matched messages answers so delivered count [] (.inl rfl) stream
  refine ⟨enough,fun complete solicited => ⟨?_,enough⟩⟩
  exact matched_inStep messages answers so delivered count [] (.inl rfl) stream oneLine complete solicited

def twoAnswers : List Str := [str "1.500 200 OK", str "1.750 412 ERROR wrong value"]

def twoCommands : List Str := [str "SET 1 GL 3 1 0 128 ", str "INIT 1 GL 9999 N 2 128 4"]

/-- The newline of the first answer comes with the second. -/
theorem replies_matched_late :
    Matched twoCommands twoAnswers [str "1.500 200 OK", str "\n1.750 412 ERROR wrong value\n"] :=
  (replies_matched twoCommands twoAnswers _ (by simp [Delivered,str]) rfl (by decide) (by decide)).1 (by decide)

/-- The first answer comes in two pieces, and the second with its rest. -/
theorem replies_shifted :
    Delivered [str "1.500 2", str "00 OK\n1.750 412 ERROR wrong value\n"] ∧
      [str "1.500 2", str "00 OK\n1.750 412 ERROR wrong value\n"].flatten = twoAnswers.flatMap line ∧
      ¬ Matched twoCommands twoAnswers [str "1.500 2", str "00 OK\n1.750 412 ERROR wrong value\n"] := by
  refine ⟨by simp [Delivered,str],by decide,?_⟩
  rintro ⟨rest,ran⟩
  obtain ⟨piece,so',same,_,own,_⟩ := matched_split ⟨rest,ran⟩
  cases same
  revert own
  decide

end SRCP
end Btcontrol
