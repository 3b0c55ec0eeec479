import Btcontrol.Strict

/-! The C++ decoder as it dereferences its buffer. `getByte` and `getInt` load first and compare
the position with the length afterwards, `getString` compares before it copies; a load behind the
message yields whatever lies there. -/
namespace Btcontrol.Bounds

open DataType Bytes Exec

/-- The buffer of a message, and the memory behind it. -/
structure Buffer where
  data : List UInt8
  behind : Nat → UInt8

def Buffer.load (buffer : Buffer) (i : Nat) : UInt8 := (buffer.data[i]?).getD (buffer.behind i)

/-- `class InputReader`: its position, and every index it has dereferenced so far. -/
structure Cursor where
  pos : Nat := 0
  touched : List Nat := []
  deriving DecidableEq, Repr

abbrev Decoder := EStateM Err Cursor

def take (buffer : Buffer) (n : Nat) : Decoder (List UInt8) := do
  let this ← get
  set { this with pos := this.pos + n, touched := this.touched ++ List.range' this.pos n }
  return (List.range' this.pos n).map buffer.load

def check (buffer : Buffer) (e : Err) : Decoder PUnit := do
  let this ← get
  if this.pos > buffer.data.length then throw e

def getByte (buffer : Buffer) : Decoder UInt8 := do
  let ret ← take buffer 1
  check buffer .getByteEnd
  return ret.headD 0

def getInt (buffer : Buffer) : Decoder Int := do
  let ret ← take buffer 4
  check buffer .getIntEnd
  return signed32 (leValue ret)

def getString (buffer : Buffer) : Decoder Str := do
  let low ← getByte buffer
  let high ← getByte buffer
  let len := low.toNat + 256 * high.toNat
  let this ← get
  if this.pos + len > buffer.data.length then throw .getStringEnd
  take buffer len

def readArray (read : Decoder FBTCtlMessage) : Nat → Decoder (List FBTCtlMessage)
  | 0 => return []
  | n + 1 => do
    let tmp ← read
    let more ← readArray read n
    return tmp :: more

mutual
/-- `readMessage(in, layout)`. -/
def readElement (buffer : Buffer) : MessageLayout → Decoder FBTCtlMessage
  | .mk _ _ childLayouts => do
    let type ← getByte buffer
    let structVal ← readFields buffer childLayouts type.toNat []
    return FBTCtlMessage.decoded childLayouts type.toNat structVal

/-- The loop over `layout->childLayouts`. -/
def readFields (buffer : Buffer) : List MessageLayout → Nat → List (Str × FBTCtlMessage) →
    Decoder (List (Str × FBTCtlMessage))
  | [], _, structVal => return structVal
  | it :: rest, type, structVal => do
    let tag ← getByte buffer
    if tag.toNat ≠ it.type then throw .unexpectedDataType
    else match it.type with
      | 1 => do
        let ival ← getInt buffer
        let structVal ← lift (FBTCtlMessage.store type it.name (.int ival) structVal)
        readFields buffer rest type structVal
      | 2 => do
        let sval ← getString buffer
        let structVal ← lift (FBTCtlMessage.store type it.name (.string sval) structVal)
        readFields buffer rest type structVal
      | 3 => do
        let n ← getByte buffer
        let tmparray ← readArray (readElement buffer it) n.toNat
        let structVal ← lift (FBTCtlMessage.store type it.name (.array tmparray) structVal)
        readFields buffer rest type structVal
      | _ => readFields buffer rest type structVal
end

def readMessage (messageLayouts : MessageLayouts) (buffer : Buffer) : Decoder FBTCtlMessage := do
  let type ← getByte buffer
  if type.toNat > STRUCT then
    let layout ← lift (getMessageLayout messageLayouts type.toNat)
    let structVal ← readFields buffer layout.childLayouts type.toNat []
    return FBTCtlMessage.decoded layout.childLayouts type.toNat structVal
  else throw .noMessageLayout

/-! ### What is read is what the decoder reads -/

/-- Every index dereferenced so far lies in the message. -/
def Inside (buffer : Buffer) (this : Cursor) : Prop := ∀ i ∈ this.touched, i < buffer.data.length

/-- Without the record of its loads the decoder is the one on the bytes of the message, and it has
loaded from behind them exactly if it throws for that. -/
def Erases (buffer : Buffer) (m : Decoder α) (read : InputReader → Except Err (α × InputReader)) : Prop :=
  ∀ this, Inside buffer this → this.pos ≤ buffer.data.length →
    match m this with
    | .ok a next => read ⟨buffer.data, this.pos⟩ = .ok (a, ⟨buffer.data, next.pos⟩) ∧
      next.pos ≤ buffer.data.length ∧ Inside buffer next
    | .error e next => read ⟨buffer.data, this.pos⟩ = .error e ∧
      (Inside buffer next ↔ ¬Strict.PastEnd e)

theorem erases_pure (buffer : Buffer) (a : α) : Erases buffer (pure a) (fun input => .ok (a, input)) := by
  intro this inside bound
  exact ⟨rfl,bound,inside⟩

theorem erases_bind {buffer : Buffer} {m : Decoder α} {next : α → Decoder β}
    {read : InputReader → Except Err (α × InputReader)}
    {more : α × InputReader → Except Err (β × InputReader)} (first : Erases buffer m read)
    (then_ : ∀ a, Erases buffer (next a) (fun input => more (a, input))) :
    Erases buffer (m >>= next) (fun input => read input >>= more) := by
  intro this inside bound
  have outcome := first this inside bound
  cases ran : m this with
  | error e this' =>
    rw [ran] at outcome
    rw [bind_error ran]
    simp only [outcome.1]
    exact ⟨rfl,outcome.2⟩
  | ok a this' =>
    rw [ran] at outcome
    rw [bind_ok ran]
    obtain ⟨done,bound',inside'⟩ := outcome
    have rest := then_ a this' inside' bound'
    simp only [done]
    exact rest

theorem erases_lift {buffer : Buffer} {x : Except Err α} {next : α → Decoder β}
    {more : α → InputReader → Except Err (β × InputReader)}
    (within : ∀ e, x = .error e → ¬Strict.PastEnd e) (then_ : ∀ a, Erases buffer (next a) (more a)) :
    Erases buffer (lift x >>= next) (fun input => x >>= fun a => more a input) := by
  intro this inside bound
  cases x with
  | ok a => exact then_ a this inside bound
  | error e => exact ⟨rfl,iff_of_true inside (within e rfl)⟩

theorem erases_ite {buffer : Buffer} {c : Prop} [Decidable c] {m m' : Decoder α}
    {read read' : InputReader → Except Err (α × InputReader)} (yes : Erases buffer m read)
    (no : Erases buffer m' read') :
    Erases buffer (if c then m else m') (fun input => if c then read input else read' input) := by
  split
  · exact yes
  · exact no

theorem erases_throw (buffer : Buffer) (e : Err) (within : ¬Strict.PastEnd e) :
    Erases buffer (throw e : Decoder α) (fun _ => .error e) := by
  intro this inside bound
  exact ⟨rfl,iff_of_true inside within⟩

theorem inside_take {buffer : Buffer} {this : Cursor} (inside : Inside buffer this) (n : Nat) :
    Inside buffer ⟨this.pos + n, this.touched ++ List.range' this.pos n⟩ ↔
      n = 0 ∨ this.pos + n ≤ buffer.data.length := by
  constructor
  · intro all
    by_cases none : n = 0
    · exact .inl none
    · have last := all (this.pos + (n - 1)) (List.mem_append_right _ (by
        rw [List.mem_range'_1]
        omega))
      exact .inr (by omega)
  · intro room i member
    rcases List.mem_append.mp member with old | new
    · exact inside i old
    · rw [List.mem_range'_1] at new
      omega

/-- Loads inside the message give its bytes. -/
theorem load_inside (buffer : Buffer) (pos n : Nat) (room : pos + n ≤ buffer.data.length) :
    (List.range' pos n).map buffer.load = (buffer.data.drop pos).take n := by
  apply List.ext_getElem?
  intro i
  by_cases below : i < n
  · have here : pos + i < buffer.data.length := by omega
    simp [below,Buffer.load,here]
  · simp [below]

theorem take_apply (buffer : Buffer) (n : Nat) (this : Cursor) :
    take buffer n this = .ok ((List.range' this.pos n).map buffer.load)
      ⟨this.pos + n, this.touched ++ List.range' this.pos n⟩ := rfl

theorem check_apply (buffer : Buffer) (e : Err) (this : Cursor) :
    check buffer e this = if this.pos > buffer.data.length then .error e this else .ok ⟨⟩ this := by
  simp only [check,bind_apply,get_apply]
  split <;> rfl

/-- A load of `n` bytes with the test behind it. -/
theorem erases_checked (buffer : Buffer) (n : Nat) (positive : 0 < n) (e : Err) (past : Strict.PastEnd e)
    (f : List UInt8 → α) :
    Erases buffer (do
      let ret ← take buffer n
      check buffer e
      return f ret) (fun input =>
        if input.pos + n > input.data.length then .error e
        else .ok (f (input.rest.take n), input.advance n)) := by
  intro this inside bound
  have touched := inside_take inside n
  simp only [bind_apply,take_apply,check_apply]
  by_cases room : this.pos + n > buffer.data.length
  · have outside : ¬(n = 0 ∨ this.pos + n ≤ buffer.data.length) := by omega
    simp only [room,↓reduceIte]
    exact ⟨trivial,iff_of_false (mt touched.mp outside) (not_not.mpr past)⟩
  · simp only [room,↓reduceIte]
    have loaded := load_inside buffer this.pos n (by omega)
    refine ⟨?_,Nat.le_of_not_lt room,touched.mpr (.inr (by omega))⟩
    simp only [InputReader.rest,InputReader.advance,loaded]

theorem erases_byte (buffer : Buffer) : Erases buffer (getByte buffer) InputReader.getByte := by
  have checked := erases_checked buffer 1 (by decide) .getByteEnd (.inl rfl) (fun ret => ret.headD 0)
  have same : InputReader.getByte = fun input : InputReader =>
      if input.pos + 1 > input.data.length then .error .getByteEnd
      else .ok ((input.rest.take 1).headD 0, input.advance 1) := by
    funext input
    simp only [InputReader.getByte]
    by_cases room : input.pos + 1 > input.data.length
    · rw [List.getElem?_eq_none (by omega),if_pos room]
    · have here : input.pos < input.data.length := by omega
      rw [List.getElem?_eq_getElem here,if_neg room]
      simp only [InputReader.rest,List.drop_eq_getElem_cons here,List.take_succ_cons,List.headD_cons]
  rw [same]
  exact checked

theorem erases_int (buffer : Buffer) : Erases buffer (getInt buffer) InputReader.getInt :=
  erases_checked buffer 4 (by decide) .getIntEnd (.inr rfl) (fun ret => signed32 (leValue ret))

theorem erases_string (buffer : Buffer) : Erases buffer (getString buffer) InputReader.getString := by
  apply erases_bind (erases_byte buffer)
  intro low
  apply erases_bind (erases_byte buffer)
  intro high this inside bound
  have touched := inside_take inside (low.toNat + 256 * high.toNat)
  simp only [bind_apply,get_apply]
  by_cases room : this.pos + (low.toNat + 256 * high.toNat) > buffer.data.length
  · simp only [room,↓reduceIte]
    exact ⟨rfl,iff_of_true inside (by decide)⟩
  · simp only [room,↓reduceIte]
    have loaded := load_inside buffer this.pos _ (Nat.le_of_not_lt room)
    refine ⟨?_,Nat.le_of_not_lt room,touched.mpr (.inr (by omega))⟩
    simp only [InputReader.rest,InputReader.advance,loaded]

theorem erases_array {buffer : Buffer} {m : Decoder FBTCtlMessage}
    {read : InputReader → Except Err (FBTCtlMessage × InputReader)} (each : Erases buffer m read) (n : Nat) :
    Erases buffer (readArray m n) (FBTCtlMessage.readArray read n) := by
  induction n with
  | zero => exact erases_pure buffer []
  | succ n ih =>
    apply erases_bind each
    intro tmp
    apply erases_bind ih
    intro more
    exact erases_pure buffer _

theorem store_inside (type : Nat) (name : Str) (value : FBTCtlMessage)
    (structVal : List (Str × FBTCtlMessage)) (e : Err)
    (failed : FBTCtlMessage.store type name value structVal = .error e) : ¬Strict.PastEnd e := by
  simp only [FBTCtlMessage.store] at failed
  split at failed
  · cases failed
    simp [Strict.PastEnd]
  · cases failed

mutual
theorem erases_element (buffer : Buffer) : (layout : MessageLayout) →
    Erases buffer (readElement buffer layout) (FBTCtlMessage.readElement layout)
  | .mk kind name childLayouts => by
    simp only [readElement]
    apply erases_bind (erases_byte buffer)
    intro type
    apply erases_bind (erases_fields buffer childLayouts type.toNat [])
    intro structVal
    exact erases_pure buffer _

theorem erases_fields (buffer : Buffer) : (layouts : List MessageLayout) → ∀ type structVal,
    Erases buffer (readFields buffer layouts type structVal)
      (FBTCtlMessage.readFields layouts type structVal)
  | [] => by
    intro type structVal
    exact erases_pure buffer structVal
  | it :: rest => by
    intro type structVal
    have others := erases_fields buffer rest type
    have element := erases_element buffer it
    simp only [readFields]
    apply erases_bind (erases_byte buffer)
    intro tag
    apply erases_ite (erases_throw buffer _ (by decide))
    obtain ⟨kind,name,childLayouts⟩ := it
    rcases kind with _ | _ | _ | _ | kind
    · exact others structVal
    · apply erases_bind (erases_int buffer)
      intro ival
      exact erases_lift (store_inside type name _ structVal) others
    · apply erases_bind (erases_string buffer)
      intro sval
      exact erases_lift (store_inside type name _ structVal) others
    · apply erases_bind (erases_byte buffer)
      intro n
      apply erases_bind (erases_array element n.toNat)
      intro tmparray
      exact erases_lift (store_inside type name _ structVal) others
    · exact others structVal
end

theorem erases_message (messageLayouts : MessageLayouts) (buffer : Buffer) :
    Erases buffer (readMessage messageLayouts buffer) (FBTCtlMessage.readMessage messageLayouts) := by
  apply erases_bind (erases_byte buffer)
  intro type
  apply erases_ite _ (erases_throw buffer _ (by decide))
  apply erases_lift (fun e missing => Strict.lookup_inside missing)
  intro layout
  apply erases_bind (erases_fields buffer layout.childLayouts type.toNat [])
  intro structVal
  exact erases_pure buffer _

/-- Every index the decoder dereferences is one of the message, however it ends, and on success
it has not moved past the end. -/
def StaysInside (messageLayouts : MessageLayouts) (buffer : Buffer) : Prop :=
  (∀ i ∈ (final (readMessage messageLayouts buffer {})).touched, i < buffer.data.length) ∧
  ∀ m this, readMessage messageLayouts buffer {} = .ok m this → this.pos ≤ buffer.data.length

/-- The bytes end inside a tag, a type byte, a count, a string's length or an int that the layout
asks for, and nothing before has made the decoder throw. -/
def RunsShort (messageLayouts : MessageLayouts) (bytes : List UInt8) : Prop :=
  ∃ s, Wire.readMessage messageLayouts { rest := bytes } = .error .short s ∧ s.flawed = false

/-- The decoder stays inside the message exactly if the message does not end too early. -/
theorem staysInside_iff (messageLayouts : MessageLayouts) (buffer : Buffer) :
    StaysInside messageLayouts buffer ↔ ¬RunsShort messageLayouts buffer.data := by
  have strict := Strict.follows_message messageLayouts { rest := buffer.data } ⟨buffer.data,0⟩ rfl
    ⟨rfl,Nat.zero_le _⟩
  have erased := erases_message messageLayouts buffer {} nofun (Nat.zero_le _)
  simp only [StaysInside,RunsShort]
  cases ran : readMessage messageLayouts buffer {} with
  | ok m this =>
    rw [ran] at erased
    obtain ⟨done,bound,inside⟩ := erased
    have accepted : ¬∃ s, Wire.readMessage messageLayouts { rest := buffer.data } = .error .short s ∧
        s.flawed = false := by
      rintro ⟨s,short,_⟩
      rw [short] at strict
      obtain ⟨e,failed⟩ := Strict.outcome_error strict
      rw [done] at failed
      cases failed
    refine iff_of_true ⟨inside,?_⟩ accepted
    rintro _ _ ⟨⟩
    exact bound
  | error e this =>
    rw [ran] at erased
    obtain ⟨failed,inside⟩ := erased
    rw [failed] at strict
    rw [← Strict.pastEnd_iff strict,← inside]
    exact and_iff_left (fun _ _ impossible => nomatch impossible)

/-- An ACC that ends inside its address: the int is loaded before the length is looked at. -/
theorem acc_cut_not_inside : ¬StaysInside protocolDat ⟨[9,1,3,0],fun _ => 0⟩ := by
  rintro ⟨touched,_⟩
  have last : 5 < 4 := touched 5 (by decide)
  omega

end Btcontrol.Bounds
