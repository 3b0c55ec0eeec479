import Btcontrol.Interop
import Btcontrol.Strict

/-! The Java decoder is the lenient reader of the format: it accepts whatever the reading gets
through, flaws included. So the two decoders differ on a message exactly if it has a flaw and
is complete otherwise. -/
namespace Btcontrol.Java

open DataType Bytes Exec

def reader (inbuffer : List UInt8) : InputReader := { data := inbuffer }

namespace Lenient

structure Standing (s : Wire.Scan) (input : InputReader) : Prop where
  rest : input.rest = s.rest
  inside : s.overlong = false → input.pos ≤ input.data.length

/-- From wherever both stand: the decoder returns exactly if the reading does, with what `same`
relates to it. -/
def Follows (read : Wire.Reading α) (m : InputReader → Except Err (β × InputReader))
    (same : β → α → Prop) : Prop :=
  ∀ s input, Standing s input → match read s with
    | .ok a s' => ∃ b next, m input = .ok (b, next) ∧ next.data = input.data ∧ same b a ∧ Standing s' next
    | .error _ _ => ∃ e, m input = .error e

theorem follows_pure {same : β → α → Prop} (a : α) (b : β) (related : same b a) :
    Follows (pure a) (fun input => .ok (b, input)) same := by
  intro s input standing
  exact ⟨b,input,rfl,rfl,related,standing⟩

theorem follows_bind {same : β → α → Prop} {same' : δ → γ → Prop} {read : Wire.Reading α}
    {next : α → Wire.Reading γ} {m : InputReader → Except Err (β × InputReader)}
    {m' : β × InputReader → Except Err (δ × InputReader)} (first : Follows read m same)
    (more : ∀ a b, same b a → Follows (next a) (fun input => m' (b, input)) same') :
    Follows (read >>= next) (fun input => m input >>= m') same' := by
  intro s input standing
  have outcome := first s input standing
  cases ran : read s with
  | error stop s' =>
    rw [ran] at outcome
    rw [bind_error ran]
    obtain ⟨e,failed⟩ := outcome
    exact ⟨e,by simp only [failed]; rfl⟩
  | ok a s' =>
    rw [ran] at outcome
    rw [bind_ok ran]
    obtain ⟨b,input',done,data,related,standing'⟩ := outcome
    have rest := more a b related s' input' standing'
    rw [data] at rest
    simp only [done]
    exact rest

theorem Standing.skip {s s' : Wire.Scan} {input : InputReader} (standing : Standing s input) (n : Nat)
    (room : n ≤ s.rest.length) (some : s.rest ≠ []) (dropped : s'.rest = s.rest.drop n) :
    Standing s' (input.skip n) := by
  have length := Strict.length_rest input.toInputReader
  have positive := List.length_pos_iff.mpr some
  rw [standing.rest] at length
  constructor
  · rw [dropped,← standing.rest]
    simp only [Btcontrol.InputReader.rest,InputReader.skip,List.drop_drop]
  · intro _
    simp only [InputReader.skip]
    omega

theorem getByte_end {input : InputReader} (ended : input.rest = []) :
    input.getByte = .error .arrayIndexOutOfBounds := by
  have none : input.data[input.pos]? = none := by
    rw [Btcontrol.InputReader.rest,List.drop_eq_nil_iff] at ended
    exact List.getElem?_eq_none ended
  simp only [InputReader.getByte,none]

theorem follows_byte : Follows Wire.byte InputReader.getByte (fun n byte => n = byte.toNat) := by
  intro s input standing
  have rest := standing.rest
  cases left : s.rest with
  | nil =>
    rw [left] at rest
    simp only [Wire.byte,left]
    exact ⟨_,getByte_end rest⟩
  | cons byte more =>
    rw [left] at rest
    simp only [Wire.byte,left]
    have standing' : Standing { s with rest := more } (input.skip 1) :=
      standing.skip 1 (by simp [left]) (by simp [left]) (by simp [left])
    exact ⟨byte.toNat,input.skip 1,input.getByte_append byte more rest,rfl,rfl,standing'⟩

/-- Four bytes, as `getInt` takes them one by one. -/
def bytewise : Wire.Reading Int := do
  let b0 ← Wire.byte
  let b1 ← Wire.byte
  let b2 ← Wire.byte
  let b3 ← Wire.byte
  return signed32 (leValue [b0,b1,b2,b3])

theorem follows_bytewise : Follows bytewise InputReader.getInt Eq := by
  apply follows_bind follows_byte
  rintro b0 _ rfl
  apply follows_bind follows_byte
  rintro b1 _ rfl
  apply follows_bind follows_byte
  rintro b2 _ rfl
  apply follows_bind follows_byte
  rintro b3 _ rfl
  apply follows_pure
  have h0 := b0.toNat_lt
  have h1 := b1.toNat_lt
  have h2 := b2.toNat_lt
  rw [InputReader.or_shiftLeft _ _ 8 (by omega),InputReader.or_shiftLeft _ _ 16 (by omega),
    InputReader.or_shiftLeft _ _ 24 (by omega)]
  apply congrArg
  simp only [leValue]
  omega

theorem follows_number : Follows Wire.number InputReader.getInt Eq := by
  intro s input standing
  have bytes := follows_bytewise s input standing
  -- a shorter rest ends the reading before it takes anything, four single reads somewhere inside
  rcases left : s.rest with _ | ⟨b0,_ | ⟨b1,_ | ⟨b2,_ | ⟨b3,more⟩⟩⟩⟩ <;>
    simp only [bytewise,Wire.number,Wire.byte,bind_apply,pure_apply,left] at bytes ⊢ <;> exact bytes

/-- A string of the Java decoder: a slice of the buffer, wherever it ends. -/
def getStr (input : InputReader) : Except Err (FBTCtlMessage × InputReader) := do
  let (off, input) ← input.getStrOff
  let (len, input) := input.getStrLen
  return (.string input.data off len, input)

/-- The length bytes, then the string. -/
def lengthAndText : Wire.Reading Btcontrol.FBTCtlMessage := do
  let low ← Wire.byte
  let high ← Wire.byte
  Wire.text (low.toNat + 256 * high.toNat)

theorem getStr_end (input : InputReader) (short : input.rest.length < 2) : ∃ e, getStr input = .error e := by
  rcases left : input.rest with _ | ⟨low,_ | ⟨high,more⟩⟩
  · simp only [getStr,InputReader.getStrOff,getByte_end left]
    exact ⟨_,rfl⟩
  · have first := input.getByte_append low [] left
    have ended : (input.skip 1).rest = [] := input.rest_skip [low] [] left
    simp only [getStr,InputReader.getStrOff,first,bind,Except.bind,getByte_end ended]
    exact ⟨_,rfl⟩
  · simp only [left,List.length_cons] at short
    omega

theorem getStr_slice {input : InputReader} {low high : UInt8} {more : List UInt8}
    (left : input.rest = low :: high :: more) :
    getStr input = .ok (.string input.data (input.pos + 2) (low.toNat + 256 * high.toNat),
      { input.skip (2 + (low.toNat + 256 * high.toNat)) with lastLen := low.toNat + 256 * high.toNat }) := by
  have first := input.getByte_append low _ left
  have second := (input.skip 1).getByte_append high _ (input.rest_skip [low] _ left)
  have below := low.toNat_lt
  have joined : low.toNat ||| high.toNat <<< 8 = low.toNat + 256 * high.toNat := by
    rw [InputReader.or_shiftLeft _ _ 8 (by omega)]
    omega
  simp only [getStr,InputReader.getStrOff,first,second,bind,Except.bind,pure,Except.pure,joined,
    InputReader.getStrLen]
  simp only [InputReader.skip,Nat.add_assoc,Nat.reduceAdd]

theorem follows_str : Follows lengthAndText getStr (fun m a => value m = a) := by
  intro s input standing
  have rest := standing.rest
  have length := Strict.length_rest input.toInputReader
  rw [rest] at length
  rcases left : s.rest with _ | ⟨low,_ | ⟨high,more⟩⟩
  · have failed := getStr_end input (by simp [rest,left])
    simpa only [lengthAndText,Wire.byte,bind_apply,left] using failed
  · have failed := getStr_end input (by simp [rest,left])
    simpa only [lengthAndText,Wire.byte,bind_apply,left] using failed
  · have slice := getStr_slice (rest.trans left)
    have behind : input.data.drop (input.pos + 2) = more := by
      have dropped := input.rest_skip [low,high] more (rest.trans left)
      exact dropped
    simp only [left,List.length_cons] at length
    simp only [lengthAndText,Wire.byte,bind_apply,left,Wire.text]
    generalize low.toNat + 256 * high.toNat = len at slice ⊢
    by_cases short : more.length < len
    · have outside : ¬input.pos + 2 + len ≤ input.data.length := by omega
      simp only [short,↓reduceIte]
      refine ⟨_,_,slice,rfl,by simp only [value,outside,↓reduceIte],?_,?_⟩
      · simp only [Btcontrol.InputReader.rest,InputReader.skip,List.drop_eq_nil_iff]
        omega
      · intro some
        contradiction
    · have inside : input.pos + 2 + len ≤ input.data.length := by omega
      simp only [short,↓reduceIte]
      refine ⟨_,_,slice,rfl,by simp only [value,inside,↓reduceIte,behind],?_,?_⟩
      · simp only [Btcontrol.InputReader.rest,InputReader.skip,← behind,List.drop_drop,Nat.add_assoc]
      · intro _
        simp only [InputReader.skip]
        omega

theorem fieldValues_put (name : Str) (m : FBTCtlMessage) (arrayVal : List (Str × FBTCtlMessage)) :
    fieldValues (put name m arrayVal) =
      Btcontrol.FBTCtlMessage.insert name (value m) (fieldValues arrayVal) := by
  induction arrayVal with
  | nil => simp [put,fieldValues,Btcontrol.FBTCtlMessage.insert]
  | cons first rest ih =>
    obtain ⟨key,old⟩ := first
    simp only [put,fieldValues,Btcontrol.FBTCtlMessage.insert]
    split
    · simp only [fieldValues]
    · simp only [fieldValues,ih]

theorem put_some (name : Str) (m : FBTCtlMessage) (arrayVal : List (Str × FBTCtlMessage)) :
    put name m arrayVal ≠ [] := by
  cases arrayVal with
  | nil => simp [put]
  | cons first rest =>
    simp only [put]
    split <;> simp

theorem follows_keep (type : Nat) (name : Str) (m : FBTCtlMessage) (a : Btcontrol.FBTCtlMessage)
    (same : value m = a) (arrayVal : List (Str × FBTCtlMessage)) :
    Follows (Wire.keep type name a (fieldValues arrayVal)) (fun input => .ok (put name m arrayVal, input))
      (fun fields read => fieldValues fields = read ∧ fields ≠ []) := by
  intro s input standing
  have stored := fieldValues_put name m arrayVal
  rw [same] at stored
  exact ⟨_,input,rfl,rfl,⟨stored,put_some name m arrayVal⟩,standing.rest,standing.inside⟩

/-- A counted run of elements, stored under the indices from `i` on. -/
theorem follows_times {read : Wire.Reading Btcontrol.FBTCtlMessage}
    {element : InputReader → Except Err (FBTCtlMessage × InputReader)}
    (each : Follows read element (fun m a => value m = a)) (n i : Nat)
    (stored : List (Nat × FBTCtlMessage)) (below : ∀ key ∈ stored.map Prod.fst, key < i) :
    Follows (Wire.times read n) (readArray element n i stored) (fun arrayVal elements =>
      ∃ entries, arrayVal = stored ++ entries ∧ entries.map Prod.fst = List.range' i n ∧
        entries.map (fun entry => value entry.2) = elements) := by
  induction n generalizing i stored with
  | zero => exact follows_pure _ _ ⟨[],by simp⟩
  | succ n ih =>
    apply follows_bind each
    rintro first m rfl
    have fresh : i ∉ stored.map Prod.fst := fun member => Nat.lt_irrefl i (below i member)
    have grown : ∀ key ∈ (stored ++ [(i, m)]).map Prod.fst, key < i + 1 := by
      intro key member
      simp only [List.map_append,List.map_cons,List.map_nil,List.mem_append,List.mem_singleton] at member
      rcases member with old | rfl
      · exact Nat.lt_succ_of_lt (below key old)
      · exact Nat.lt_succ_self _
    simp only [put_fresh i m stored fresh]
    intro s input standing
    have rest := ih (i + 1) (stored ++ [(i, m)]) grown s input standing
    cases ran : Wire.times read n s with
    | error stop s' =>
      rw [bind_error ran]
      rw [ran] at rest
      exact rest
    | ok more s' =>
      rw [bind_ok ran]
      rw [ran] at rest
      obtain ⟨arrayVal,next,done,data,⟨entries,split,keys,values⟩,standing'⟩ := rest
      refine ⟨arrayVal,next,done,data,⟨(i, m) :: entries,?_,?_,?_⟩,standing'⟩
      · rw [split,List.append_assoc]
        rfl
      · simp [keys,List.range'_succ]
      · simp [values]

/-- One turn of the loop over the fields, behind the tag. -/
def getField (it : MessageLayout) (arrayVal : List (Str × FBTCtlMessage)) (input : InputReader) :
    Except Err (List (Str × FBTCtlMessage) × InputReader) :=
  match it.type with
  | 1 => do
    let (ival, input) ← input.getInt
    return (put it.name (.int ival) arrayVal, input)
  | 2 => do
    let (sval, input) ← getStr input
    return (put it.name sval arrayVal, input)
  | 3 => do
    let (n, input) ← input.getByte
    let (tmparray, input) ← readFirst it.childLayouts n input
    return (put it.name (.array tmparray) arrayVal, input)
  | _ => .error .invalidType

theorem readFields_turn (it : MessageLayout) (rest : List MessageLayout)
    (arrayVal : List (Str × FBTCtlMessage)) (input : InputReader) :
    readFields (it :: rest) arrayVal input = (do
      let (elementType, input) ← input.getByte
      if elementType ≠ it.type then .error (.unexpectedType elementType it.type)
      else do
        let (arrayVal, input) ← getField it arrayVal input
        readFields rest arrayVal input) := by
  obtain ⟨kind,name,childLayout⟩ := it
  simp only [readFields]
  apply congrArg (input.getByte >>= ·)
  funext done
  by_cases other : done.1 ≠ kind
  · exact (if_pos other).trans (if_pos other).symm
  · apply (if_neg other).trans (Eq.trans _ (if_neg other).symm)
    rcases kind with _ | _ | _ | _ | kind
    · rfl
    · simp only [getField,MessageLayout.type,MessageLayout.name,bind_assoc,pure_bind]
    · simp only [getField,MessageLayout.type,MessageLayout.name,getStr,bind_assoc,pure_bind]
    · simp only [getField,MessageLayout.type,MessageLayout.name,MessageLayout.childLayouts,bind_assoc,pure_bind]
    · rfl

theorem follows_field {read : Wire.Reading Btcontrol.FBTCtlMessage} (it : MessageLayout) (typed : Typed it)
    (each : AllTyped it.childLayouts →
      Follows read (readElement (.mk STRUCT [] (layouts it.childLayouts))) (fun m a => value m = a))
    (type : Nat) (arrayVal : List (Str × FBTCtlMessage)) :
    Follows (Wire.field read it type (fieldValues arrayVal)) (getField (layout it) arrayVal)
      (fun fields read => fieldValues fields = read ∧ fields ≠ []) := by
  obtain ⟨kind,name,childLayouts⟩ := it
  rcases typed with rfl | rfl | ⟨rfl,inner⟩
  · apply follows_bind follows_number
    rintro _ ival rfl
    exact follows_keep type name (.int ival) _ (by simp only [value]) arrayVal
  · have joined : Wire.field read (.mk STRING name childLayouts) type (fieldValues arrayVal) =
        lengthAndText >>= fun sval => Wire.keep type name sval (fieldValues arrayVal) := by
      simp only [lengthAndText,bind_assoc]
      rfl
    rw [joined]
    apply follows_bind follows_str
    intro sval m same
    exact follows_keep type name m sval same arrayVal
  · apply follows_bind follows_byte
    rintro n _ rfl
    apply follows_bind (follows_times (each inner) n.toNat 0 [] nofun)
    rintro elements entries ⟨_,rfl,keys,values⟩
    apply follows_keep type name
    rw [value_array entries _ keys,values]

/-- The node of a decoder that has stored every field of the layout. -/
theorem value_node {childLayouts : List MessageLayout} (type : Nat) {arrayVal : List (Str × FBTCtlMessage)}
    (stored : arrayVal = [] → childLayouts = []) :
    value (.struct type arrayVal) =
      Btcontrol.FBTCtlMessage.decoded childLayouts type (fieldValues arrayVal) := by
  simp only [value]
  cases arrayVal with
  | nil => rw [stored rfl]
  | cons first rest => rfl

mutual
theorem follows_element : (it : MessageLayout) → AllTyped it.childLayouts →
    Follows (Wire.readElement it) (readElement (.mk STRUCT [] (layouts it.childLayouts)))
      (fun m a => value m = a)
  | .mk kind name childLayouts => by
    intro typed
    simp only [Wire.readElement]
    apply follows_bind follows_byte
    rintro type _ rfl
    apply follows_bind (follows_fields childLayouts typed type.toNat [])
    rintro fields arrayVal ⟨rfl,stored⟩
    exact follows_pure _ _ (value_node type.toNat (fun none => (stored none).2))

theorem follows_fields : (childLayouts : List MessageLayout) → AllTyped childLayouts → ∀ type arrayVal,
    Follows (Wire.readFields childLayouts type (fieldValues arrayVal))
      (readFields (layouts childLayouts) arrayVal)
      (fun fields read => fieldValues fields = read ∧ (fields = [] → arrayVal = [] ∧ childLayouts = []))
  | [] => by
    intro _ type arrayVal
    exact follows_pure _ _ ⟨rfl,fun none => ⟨none,rfl⟩⟩
  | it :: rest => by
    intro typed type arrayVal
    have others := follows_fields rest typed.2 type
    have inner := follows_field it typed.1 (follows_element it) type arrayVal
    simp only [layouts]
    rw [funext (readFields_turn (layout it) (layouts rest) arrayVal)]
    simp only [Wire.readFields]
    apply follows_bind follows_byte
    rintro tag _ rfl
    rw [layout_type]
    by_cases other : tag.toNat ≠ it.type
    · simp only [if_pos other]
      intro s input standing
      exact ⟨_,rfl⟩
    · simp only [if_neg other]
      apply follows_bind inner
      rintro fields arrayVal ⟨rfl,some⟩
      intro s input standing
      have more := others arrayVal s input standing
      cases ran : Wire.readFields rest type (fieldValues arrayVal) s with
      | error stop s' =>
        rw [ran] at more
        exact more
      | ok read s' =>
        rw [ran] at more
        obtain ⟨found,next,done,data,⟨same,stored⟩,standing'⟩ := more
        exact ⟨found,next,done,data,⟨same,fun none => absurd (stored none).1 some⟩,standing'⟩
end

end Lenient

/-- Every number stands for a line that both sides have parsed, or for nothing on either. -/
def Paired (messageLayouts : Btcontrol.MessageLayouts) (javaLayouts : MessageLayouts) : Prop :=
  ∀ type, STRUCT < type →
    (∃ unassigned line cpp java pos pos', parseMessageLayout unassigned line = .ok (cpp, pos) ∧
      parse line = .ok (java, pos') ∧
      getMessageLayout messageLayouts type = .ok (cpp.numbered type) ∧
      getLayout javaLayouts type = .ok (java.numbered type)) ∨
    ∃ e e', getMessageLayout messageLayouts type = .error e ∧ getLayout javaLayouts type = .error e'

namespace Lenient

theorem follows_message {messageLayouts : Btcontrol.MessageLayouts} {javaLayouts : MessageLayouts}
    (paired : Paired messageLayouts javaLayouts) :
    Follows (Wire.readMessage messageLayouts) (readFrom javaLayouts) (fun m a => value m = a) := by
  apply follows_bind follows_byte
  rintro type _ rfl
  by_cases above : type.toNat > STRUCT
  · simp only [if_pos above]
    rcases paired type.toNat above with ⟨_,line,cpp,java,pos,pos',parsed,javaParsed,found,javaFound⟩ |
      ⟨e,e',missing,javaMissing⟩
    · obtain ⟨typed,children⟩ := parse_agree parsed javaParsed
      simp only [found,javaFound]
      have fields := follows_fields cpp.childLayouts typed type.toNat []
      rw [← children] at fields
      apply follows_bind fields
      rintro fields arrayVal ⟨rfl,stored⟩
      exact follows_pure _ (FBTCtlMessage.struct type.toNat arrayVal)
        (value_node type.toNat (fun none => (stored none).2))
    · simp only [missing,javaMissing]
      intro s input standing
      exact ⟨_,rfl⟩
  · simp only [if_neg above]
    intro s input standing
    exact ⟨_,rfl⟩

end Lenient
/-- Both decoders accept the bytes, with one value and at one position, or both reject them. -/
def ReadAlike (messageLayouts : Btcontrol.MessageLayouts) (javaLayouts : MessageLayouts)
    (bytes : List UInt8) : Prop :=
  (∀ m input, Btcontrol.FBTCtlMessage.readMessage messageLayouts ⟨bytes, 0⟩ = .ok (m, input) →
    ∃ j next, readFrom javaLayouts (reader bytes) = .ok (j, next) ∧ value j = m ∧ next.pos = input.pos) ∧
  ∀ j next, readFrom javaLayouts (reader bytes) = .ok (j, next) →
    ∃ m input, Btcontrol.FBTCtlMessage.readMessage messageLayouts ⟨bytes, 0⟩ = .ok (m, input)

/-- The bytes can be read through against the layout their type byte names, but a string is
announced longer than what is left or a node with a type byte below STRUCT has fields. -/
def Flawed (messageLayouts : Btcontrol.MessageLayouts) (bytes : List UInt8) : Prop :=
  ∃ m s, Wire.readMessage messageLayouts { rest := bytes } = .ok m s ∧ s.flawed = true

theorem pos_eq {s : Wire.Scan} {cpp : Btcontrol.InputReader} {java : InputReader}
    (same : java.data = cpp.data) (clean : s.flawed = false) (standing : Strict.Standing s cpp)
    (javaStanding : Lenient.Standing s java) : java.pos = cpp.pos := by
  have inside := standing.inside
  have javaInside := javaStanding.inside (by
    simp only [Wire.Scan.flawed,Bool.or_eq_false_iff] at clean
    exact clean.1)
  have lengths := congrArg List.length (javaStanding.rest.trans standing.rest.symm)
  simp only [Strict.length_rest,same] at lengths javaInside
  omega

/-- On every line that both parsers accept and every byte string, the decoders agree unless the
bytes have a flaw that only the C++ decoder looks for. -/
theorem readAlike_iff (messageLayouts : Btcontrol.MessageLayouts) (javaLayouts : MessageLayouts)
    (paired : Paired messageLayouts javaLayouts) (bytes : List UInt8) :
    ReadAlike messageLayouts javaLayouts bytes ↔ ¬Flawed messageLayouts bytes := by
  have strict := Strict.follows_message messageLayouts { rest := bytes } ⟨bytes,0⟩ rfl ⟨rfl,Nat.zero_le _⟩
  have lenient := Lenient.follows_message paired { rest := bytes } (reader bytes)
    ⟨rfl,fun _ => Nat.zero_le _⟩
  simp only [Flawed]
  cases read : Wire.readMessage messageLayouts { rest := bytes } with
  | error stop s =>
    rw [read] at strict lenient
    obtain ⟨e,javaFailed⟩ := lenient
    obtain ⟨e',failed⟩ := Strict.outcome_error strict
    constructor
    · rintro _ ⟨m,s,impossible,_⟩
      cases impossible
    · intro _
      constructor
      · intro m input done
        rw [failed] at done
        cases done
      · intro j next done
        rw [javaFailed] at done
        cases done
  | ok m s =>
    rw [read] at strict lenient
    obtain ⟨j,next,javaDone,data,same,javaStanding⟩ := lenient
    by_cases flawed : s.flawed = true
    · simp only [Strict.Outcome,flawed,↓reduceIte] at strict
      obtain ⟨e,failed,_⟩ := strict
      constructor
      · rintro ⟨_,back⟩ _
        obtain ⟨m',input,done⟩ := back j next javaDone
        rw [failed] at done
        cases done
      · intro clean
        exact absurd ⟨m,s,rfl,flawed⟩ clean
    · simp only [Strict.Outcome,flawed,Bool.false_eq_true,↓reduceIte] at strict
      obtain ⟨input,done,data',standing⟩ := strict
      have pos := pos_eq (data.trans data'.symm) (Bool.eq_false_iff.mpr flawed) standing javaStanding
      constructor
      · rintro _ ⟨m',s',again,flawed'⟩
        cases again
        exact flawed flawed'
      · intro _
        constructor
        · intro m' input' done'
          rw [done] at done'
          cases done'
          exact ⟨j,next,javaDone,same,pos⟩
        · intro _ _ _
          exact ⟨m,input,done⟩

/-- The line of GETIMAGE at either end, alone in its table. -/
def getImage : Btcontrol.MessageLayouts where
  entries := [message "GETIMAGE" 28 [stringField "imgname"]]
  loaded := true

def javaGetImage : MessageLayouts := [message "GETIMAGE" 28 [stringField "imgname"]]

theorem getImage_paired : Paired getImage javaGetImage := by
  intro type above
  by_cases same : type = 28
  · subst same
    exact .inl ⟨UNDEF,str "imgname:S",.mk UNDEF [] [stringField "imgname"],.mk STRUCT [] [stringField "imgname"],
      [],[],rfl,rfl,rfl,rfl⟩
  · have other : (28 == type) = false := beq_eq_false_iff_ne.mpr (Ne.symm same)
    have cpp : getMessageLayout getImage type = .error (.invalidStructType type) := by
      simp [getMessageLayout,getImage,message,MessageLayout.type,other,above]
    have java : getLayout javaGetImage type = .error (.getLayout type) := by
      simp [getLayout,javaGetImage,message,MessageLayout.type,other]
    exact .inr ⟨_,_,cpp,java⟩

/-- A name of one byte, all of it there. -/
theorem readAlike_iff_getImage : Paired getImage javaGetImage ∧
    (ReadAlike getImage javaGetImage [28,2,1,0,97] ↔ ¬Flawed getImage [28,2,1,0,97]) :=
  ⟨getImage_paired,readAlike_iff getImage javaGetImage getImage_paired [28,2,1,0,97]⟩

/-- A name announced with five bytes, none of them there: only the Java decoder takes it. -/
theorem getImage_readUnlike : Paired getImage javaGetImage ∧
    ¬ReadAlike getImage javaGetImage [28,2,5,0] := by
  refine ⟨getImage_paired,fun alike => ?_⟩
  obtain ⟨m,input,done⟩ := alike.2 (.struct 28 [(str "imgname", .string [28,2,5,0] 4 5)]) _ rfl
  cases done

end Btcontrol.Java
