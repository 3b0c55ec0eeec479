import Btcontrol.Codec
import Btcontrol.Reading

/-! The C++ decoder is the strict reader of the format: it returns what the reading gives
unless a flaw has been met, and it reads past the end exactly where the reading runs short. -/
namespace Btcontrol.Strict

open DataType Bytes Exec

/-- Thrown after a read has gone past the end. -/
def PastEnd (e : Err) : Prop := e = .getByteEnd ∨ e = .getIntEnd

instance (e : Err) : Decidable (PastEnd e) := inferInstanceAs (Decidable (_ ∨ _))

/-- Thrown with every read inside the message. -/
def Rejected (result : Except Err α) : Prop := ∃ e, result = .error e ∧ ¬PastEnd e

/-- The reader stands where the reading does. -/
structure Standing (s : Wire.Scan) (input : InputReader) : Prop where
  rest : input.rest = s.rest
  inside : input.pos ≤ input.data.length

/-- How a strict reader's result follows from the outcome of the reading. -/
def Outcome (data : List UInt8) (outcome : EStateM.Result Wire.Stop Wire.Scan α)
    (result : Except Err (α × InputReader)) : Prop :=
  match outcome with
  | .ok a s => if s.flawed then Rejected result
    else ∃ next, result = .ok (a, next) ∧ next.data = data ∧ Standing s next
  | .error .short s => if s.flawed then Rejected result else ∃ e, result = .error e ∧ PastEnd e
  | .error .mismatch _ => Rejected result

/-- From wherever both stand, with no flaw met so far. -/
def Follows (read : Wire.Reading α) (m : InputReader → Except Err (α × InputReader)) : Prop :=
  ∀ s input, s.flawed = false → Standing s input → Outcome input.data (read s) (m input)

theorem follows_pure (a : α) : Follows (pure a) (fun input => .ok (a, input)) := by
  intro s input clean standing
  simp only [Outcome,pure_apply,clean,Bool.false_eq_true,↓reduceIte]
  exact ⟨input,rfl,rfl,standing⟩

theorem rejected_bind {result : Except Err α} (f : α → Except Err β) (rejected : Rejected result) :
    Rejected (result >>= f) := by
  obtain ⟨e,rfl,inside⟩ := rejected
  exact ⟨e,rfl,inside⟩

/-- A strict reader that has stopped is not started again by what the reading still does. -/
theorem outcome_flawed {data : List UInt8} {outcome : EStateM.Result Wire.Stop Wire.Scan α}
    {result : Except Err (α × InputReader)} (flawed : (final outcome).flawed = true)
    (rejected : Rejected result) : Outcome data outcome result := by
  cases outcome with
  | ok a s =>
    simp only [final_ok] at flawed
    simpa only [Outcome,flawed,↓reduceIte] using rejected
  | error stop s =>
    simp only [final_error] at flawed
    cases stop with
    | short => simpa only [Outcome,flawed,↓reduceIte] using rejected
    | mismatch => exact rejected

/-- A reading that stops makes the decoder throw, one way or the other. -/
theorem outcome_error {data : List UInt8} {stop : Wire.Stop} {s : Wire.Scan}
    {result : Except Err (α × InputReader)} (outcome : Outcome data (.error stop s) result) :
    ∃ e, result = .error e := by
  cases stop with
  | mismatch =>
    obtain ⟨e,failed,_⟩ := outcome
    exact ⟨e,failed⟩
  | short =>
    simp only [Outcome] at outcome
    split at outcome
    · obtain ⟨e,failed,_⟩ := outcome
      exact ⟨e,failed⟩
    · obtain ⟨e,failed,_⟩ := outcome
      exact ⟨e,failed⟩

/-- The decoder throws for a read past the end exactly if the reading runs short of bytes. -/
theorem pastEnd_iff {data : List UInt8} {outcome : EStateM.Result Wire.Stop Wire.Scan α} {e : Err}
    (followed : Outcome data outcome (.error e : Except Err (α × InputReader))) :
    PastEnd e ↔ ∃ s, outcome = .error .short s ∧ s.flawed = false := by
  have rejected (inside : Rejected (.error e : Except Err (α × InputReader))) : ¬PastEnd e := by
    obtain ⟨e',same,inside⟩ := inside
    cases same
    exact inside
  cases outcome with
  | ok a s =>
    simp only [Outcome] at followed
    split at followed
    · simpa using rejected followed
    · obtain ⟨next,impossible,_⟩ := followed
      cases impossible
  | error stop s =>
    cases stop with
    | mismatch => simpa using rejected followed
    | short =>
      cases flawed : s.flawed with
      | true =>
        simp only [Outcome,flawed,↓reduceIte] at followed
        simpa [flawed] using rejected followed
      | false =>
        simp only [Outcome,flawed,Bool.false_eq_true,↓reduceIte] at followed
        obtain ⟨e',same,past⟩ := followed
        cases same
        exact iff_of_true past ⟨s,rfl,flawed⟩

theorem follows_bind {read : Wire.Reading α} {next : α → Wire.Reading β}
    {m : InputReader → Except Err (α × InputReader)}
    {m' : α × InputReader → Except Err (β × InputReader)} (first : Follows read m)
    (noted : ∀ a, Moves Wire.Noted (next a)) (more : ∀ a, Follows (next a) (fun input => m' (a, input))) :
    Follows (read >>= next) (fun input => m input >>= m') := by
  intro s input clean standing
  have outcome := first s input clean standing
  cases ran : read s with
  | error stop s' =>
    rw [ran] at outcome
    rw [bind_error ran]
    cases stop with
    | mismatch => exact rejected_bind _ outcome
    | short =>
      simp only [Outcome] at outcome ⊢
      split at outcome
      · rename_i flawed
        simp only [flawed,↓reduceIte]
        exact rejected_bind _ outcome
      · rename_i clean'
        obtain ⟨e,failed,past⟩ := outcome
        simp only [clean',Bool.false_eq_true,↓reduceIte]
        exact ⟨e,by rw [failed]; rfl,past⟩
  | ok a s' =>
    rw [ran] at outcome
    rw [bind_ok ran]
    simp only [Outcome] at outcome
    split at outcome
    · rename_i flawed
      exact outcome_flawed ((noted a s').1 flawed) (rejected_bind _ outcome)
    · rename_i clean'
      obtain ⟨input',done,data,standing'⟩ := outcome
      have rest := more a s' input' (Bool.eq_false_iff.mpr clean') standing'
      rw [data] at rest
      simp only [done]
      exact rest

theorem follows_ite {c : Prop} [Decidable c] {read read' : Wire.Reading α}
    {m m' : InputReader → Except Err (α × InputReader)} (yes : Follows read m) (no : Follows read' m') :
    Follows (if c then read else read') (fun input => if c then m input else m' input) := by
  split
  · exact yes
  · exact no

theorem follows_throw (e : Err) (inside : ¬PastEnd e) :
    Follows (throw .mismatch : Wire.Reading α) (fun _ => .error e) := by
  intro s input clean standing
  exact ⟨e,rfl,inside⟩

theorem length_rest (input : InputReader) : input.rest.length = input.data.length - input.pos := by
  simp [InputReader.rest]

/-- The reader behind `front`. -/
theorem Standing.advance {s s' : Wire.Scan} {input : InputReader} (standing : Standing s input)
    (n : Nat) (room : n ≤ s.rest.length) (dropped : s'.rest = s.rest.drop n) :
    Standing s' (input.advance n) := by
  have inside := standing.inside
  have length := length_rest input
  rw [standing.rest] at length
  constructor
  · rw [dropped,← standing.rest]
    simp only [InputReader.rest,InputReader.advance,List.drop_drop]
  · simp only [InputReader.advance]
    omega

theorem follows_byte : Follows Wire.byte InputReader.getByte := by
  intro s input clean standing
  have rest := standing.rest
  cases left : s.rest with
  | nil =>
    have none : input.data[input.pos]? = none := by
      rw [left,InputReader.rest,List.drop_eq_nil_iff] at rest
      exact List.getElem?_eq_none rest
    simp only [Wire.byte,left,Outcome,clean,Bool.false_eq_true,↓reduceIte,InputReader.getByte,none]
    exact ⟨_,rfl,.inl rfl⟩
  | cons byte more =>
    rw [left] at rest
    simp only [Wire.byte,left,Outcome]
    rw [Codec.getByte_append input byte more rest]
    have clean' : Wire.Scan.flawed { s with rest := more } = false := clean
    simp only [clean',Bool.false_eq_true,↓reduceIte]
    refine ⟨_,rfl,rfl,standing.advance 1 ?_ ?_⟩
    · simp [left]
    · simp [left]

theorem follows_number : Follows Wire.number InputReader.getInt := by
  intro s input clean standing
  have length := length_rest input
  rw [standing.rest] at length
  have inside := standing.inside
  simp only [Wire.number,InputReader.getInt]
  by_cases short : s.rest.length < 4
  · have past : input.pos + 4 > input.data.length := by omega
    simp only [short,past,↓reduceIte,Outcome,clean,Bool.false_eq_true]
    exact ⟨_,rfl,.inr rfl⟩
  · have room : ¬input.pos + 4 > input.data.length := by omega
    have clean' : Wire.Scan.flawed { s with rest := s.rest.drop 4 } = false := clean
    simp only [short,room,↓reduceIte,Outcome,clean',Bool.false_eq_true,standing.rest]
    exact ⟨_,rfl,rfl,standing.advance 4 (by omega) rfl⟩

/-- The part of `getString` behind the length. -/
def getText (len : Nat) (input : InputReader) : Except Err (FBTCtlMessage × InputReader) :=
  if input.pos + len > input.data.length then .error .getStringEnd
  else .ok (.string (input.rest.take len), input.advance len)

theorem follows_text (len : Nat) : Follows (Wire.text len) (getText len) := by
  intro s input clean standing
  have length := length_rest input
  rw [standing.rest] at length
  have inside := standing.inside
  simp only [Wire.text,getText]
  by_cases short : s.rest.length < len
  · have past : input.pos + len > input.data.length := by omega
    have flawed : Wire.Scan.flawed { s with rest := [], overlong := true } = true := rfl
    simp only [short,past,↓reduceIte,Outcome,flawed]
    exact ⟨_,rfl,by decide⟩
  · have room : ¬input.pos + len > input.data.length := by omega
    have clean' : Wire.Scan.flawed { s with rest := s.rest.drop len } = false := clean
    simp only [short,room,↓reduceIte,Outcome,clean',Bool.false_eq_true,standing.rest]
    exact ⟨_,rfl,rfl,standing.advance len (by omega) rfl⟩

theorem follows_keep (type : Nat) (name : Str) (value : FBTCtlMessage)
    (structVal : List (Str × FBTCtlMessage)) : Follows (Wire.keep type name value structVal)
      (fun input => do return (← FBTCtlMessage.store type name value structVal, input)) := by
  intro s input clean standing
  simp only [Wire.keep,Outcome,FBTCtlMessage.store]
  by_cases below : type < STRUCT
  · have flawed : Wire.Scan.flawed { s with nonStruct := s.nonStruct || decide (type < STRUCT) } = true := by
      simp [Wire.Scan.flawed,below]
    rw [if_pos flawed,if_pos below]
    exact ⟨_,rfl,by simp [PastEnd]⟩
  · have clean' : Wire.Scan.flawed { s with nonStruct := s.nonStruct || decide (type < STRUCT) } = false := by
      simpa [Wire.Scan.flawed,below] using clean
    rw [if_neg (Bool.eq_false_iff.mp clean'),if_neg below]
    exact ⟨_,rfl,rfl,standing.rest,standing.inside⟩

theorem follows_times {read : Wire.Reading FBTCtlMessage}
    {m : InputReader → Except Err (FBTCtlMessage × InputReader)} (noted : Moves Wire.Noted read)
    (each : Follows read m) (n : Nat) :
    Follows (Wire.times read n) (FBTCtlMessage.readArray m n) := by
  induction n with
  | zero => exact follows_pure []
  | succ n ih =>
    apply follows_bind each
    · intro first
      apply moves_bind Wire.closed_noted (Wire.noted_times noted n)
      intro more
      exact moves_pure Wire.closed_noted _
    · intro first
      apply follows_bind ih
      · intro more
        exact moves_pure Wire.closed_noted _
      · intro more
        exact follows_pure (first :: more)

/-- One turn of the decoder's loop behind the tag. -/
def getField (element : InputReader → Except Err (FBTCtlMessage × InputReader)) (it : MessageLayout)
    (type : Nat) (structVal : List (Str × FBTCtlMessage)) (input : InputReader) :
    Except Err (List (Str × FBTCtlMessage) × InputReader) :=
  match it.type with
  | 1 => do
    let (ival, input) ← input.getInt
    return (← FBTCtlMessage.store type it.name (.int ival) structVal, input)
  | 2 => do
    let (low, input) ← input.getByte
    let (high, input) ← input.getByte
    let (sval, input) ← getText (low.toNat + 256 * high.toNat) input
    return (← FBTCtlMessage.store type it.name sval structVal, input)
  | 3 => do
    let (n, input) ← input.getByte
    let (tmparray, input) ← FBTCtlMessage.readArray element n.toNat input
    return (← FBTCtlMessage.store type it.name (.array tmparray) structVal, input)
  | _ => return (structVal, input)

theorem getString_text (input : InputReader) :
    (do
      let (low, input) ← input.getByte
      let (high, input) ← input.getByte
      getText (low.toNat + 256 * high.toNat) input) =
      (do
        let (sval, input) ← input.getString
        return (.string sval, input)) := by
  simp only [InputReader.getString,bind_assoc]
  apply congrArg (input.getByte >>= ·)
  funext low
  apply congrArg (low.2.getByte >>= ·)
  funext high
  simp only [getText]
  split <;> rfl

theorem readFields_turn (it : MessageLayout) (rest : List MessageLayout) (type : Nat)
    (structVal : List (Str × FBTCtlMessage)) (input : InputReader) :
    FBTCtlMessage.readFields (it :: rest) type structVal input = (do
      let (tag, input) ← input.getByte
      if tag.toNat ≠ it.type then .error .unexpectedDataType
      else do
        let (structVal, input) ← getField (FBTCtlMessage.readElement it) it type structVal input
        FBTCtlMessage.readFields rest type structVal input) := by
  simp only [FBTCtlMessage.readFields]
  apply congrArg (input.getByte >>= ·)
  funext done
  split
  · rfl
  · obtain ⟨kind,name,childLayouts⟩ := it
    simp only [MessageLayout.type,MessageLayout.name,getField]
    rcases kind with _ | _ | _ | _ | kind
    · rfl
    · simp only [bind_assoc,pure_bind]
    · have text := congrArg (· >>= fun done => do
        let structVal ← FBTCtlMessage.store type name done.1 structVal
        FBTCtlMessage.readFields rest type structVal done.2) (getString_text done.2)
      simpa only [bind_assoc,pure_bind] using text.symm
    · simp only [bind_assoc,pure_bind]
    · rfl

theorem follows_field {read : Wire.Reading FBTCtlMessage}
    {element : InputReader → Except Err (FBTCtlMessage × InputReader)} (noted : Moves Wire.Noted read)
    (each : Follows read element) (it : MessageLayout) (type : Nat)
    (structVal : List (Str × FBTCtlMessage)) :
    Follows (Wire.field read it type structVal) (getField element it type structVal) := by
  obtain ⟨kind,name,childLayouts⟩ := it
  have untyped : Follows (do Wire.pass; return structVal) (fun input => .ok (structVal, input)) := by
    intro s input clean standing
    exact follows_pure structVal { s with untyped := true } input clean ⟨standing.rest,standing.inside⟩
  simp only [Wire.field]
  rcases kind with _ | _ | _ | _ | kind
  · exact untyped
  · apply follows_bind follows_number
    · intro ival
      exact Wire.noted_keep _ _ _ _
    · intro ival
      exact follows_keep _ _ _ _
  · apply follows_bind follows_byte
    · intro low
      apply moves_bind Wire.closed_noted Wire.noted_byte
      intro high
      apply moves_bind Wire.closed_noted (Wire.noted_text _)
      intro sval
      exact Wire.noted_keep _ _ _ _
    · intro low
      apply follows_bind follows_byte
      · intro high
        apply moves_bind Wire.closed_noted (Wire.noted_text _)
        intro sval
        exact Wire.noted_keep _ _ _ _
      · intro high
        apply follows_bind (follows_text _)
        · intro sval
          exact Wire.noted_keep _ _ _ _
        · intro sval
          exact follows_keep _ _ _ _
  · apply follows_bind follows_byte
    · intro n
      apply moves_bind Wire.closed_noted (Wire.noted_times noted _)
      intro elements
      exact Wire.noted_keep _ _ _ _
    · intro n
      apply follows_bind (follows_times noted each _)
      · intro elements
        exact Wire.noted_keep _ _ _ _
      · intro elements
        exact follows_keep _ _ _ _
  · exact untyped

mutual
theorem follows_element : (layout : MessageLayout) →
    Follows (Wire.readElement layout) (FBTCtlMessage.readElement layout)
  | .mk kind name childLayouts => by
    simp only [Wire.readElement]
    apply follows_bind follows_byte
    · intro type
      apply moves_bind Wire.closed_noted (Wire.noted_fields childLayouts _ _)
      intro fields
      exact moves_pure Wire.closed_noted _
    · intro type
      apply follows_bind (follows_fields childLayouts _ _)
      · intro fields
        exact moves_pure Wire.closed_noted _
      · intro fields
        exact follows_pure _

theorem follows_fields : (layouts : List MessageLayout) → ∀ type structVal,
    Follows (Wire.readFields layouts type structVal) (FBTCtlMessage.readFields layouts type structVal)
  | [] => by
    intro type structVal
    exact follows_pure structVal
  | it :: rest => by
    intro type structVal
    have others := follows_fields rest type
    have inner := follows_field (Wire.noted_element it) (follows_element it) it type structVal
    rw [funext (readFields_turn it rest type structVal)]
    simp only [Wire.readFields]
    apply follows_bind follows_byte
    · intro tag
      apply moves_ite (moves_throw Wire.closed_noted _)
      exact moves_bind Wire.closed_noted (Wire.noted_field (Wire.noted_element it) it type structVal)
        (Wire.noted_fields rest type)
    · intro tag
      apply follows_ite (follows_throw _ (by decide))
      apply follows_bind inner
      · intro structVal
        exact Wire.noted_fields rest type structVal
      · intro structVal
        exact others structVal
end

theorem lookup_inside {messageLayouts : MessageLayouts} {type : Nat} {e : Err}
    (missing : getMessageLayout messageLayouts type = .error e) : ¬PastEnd e := by
  simp only [getMessageLayout] at missing
  split at missing
  · cases missing
    decide
  · split at missing
    · cases missing
      decide
    · split at missing
      · cases missing
      · cases missing
        simp [PastEnd]

/-- The decoder and the reading of a whole message. -/
theorem follows_message (messageLayouts : MessageLayouts) :
    Follows (Wire.readMessage messageLayouts) (FBTCtlMessage.readMessage messageLayouts) := by
  have noted (layout : MessageLayout) (type : Nat) : Moves Wire.Noted (do
      let fields ← Wire.readFields layout.childLayouts type []
      return FBTCtlMessage.decoded layout.childLayouts type fields) := by
    apply moves_bind Wire.closed_noted (Wire.noted_fields layout.childLayouts type [])
    intro fields
    exact moves_pure Wire.closed_noted _
  apply follows_bind follows_byte
  · intro type
    apply moves_ite _ (moves_throw Wire.closed_noted _)
    cases getMessageLayout messageLayouts type.toNat with
    | error e => exact moves_throw Wire.closed_noted _
    | ok layout => exact noted layout type.toNat
  · intro type
    apply follows_ite _ (follows_throw _ (by decide))
    cases found : getMessageLayout messageLayouts type.toNat with
    | error e => exact follows_throw e (lookup_inside found)
    | ok layout =>
      apply follows_bind (follows_fields layout.childLayouts type.toNat [])
      · intro fields
        exact moves_pure Wire.closed_noted _
      · intro fields
        exact follows_pure _

end Btcontrol.Strict
