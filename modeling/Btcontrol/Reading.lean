import Btcontrol.Exec
import Btcontrol.Wire

/-! A reading of the message format that passes over what only a strict reader rejects, and
keeps note of it. Every decoder of the format is compared with this one: the C++ decoder stops
at the first flaw, the Java decoder sees none. -/
namespace Btcontrol.Wire

open DataType Bytes Exec

/-- Why a reading stops: the bytes end inside a tag, a count, a number or a length, or they are
not what the layout asks for. -/
inductive Stop where
  | short
  | mismatch
  deriving DecidableEq, Repr

/-- The bytes left, and what the reading has met: a string longer than they are, a field of a
node whose type byte is below STRUCT, a field that has none of the three types. -/
structure Scan where
  rest : List UInt8
  overlong : Bool := false
  nonStruct : Bool := false
  untyped : Bool := false
  deriving DecidableEq, Repr

/-- A strict reader has stopped by now. -/
def Scan.flawed (s : Scan) : Bool := s.overlong || s.nonStruct

abbrev Reading := EStateM Stop Scan

def byte : Reading UInt8 := fun s =>
  match s.rest with
  | [] => .error .short s
  | byte :: rest => .ok byte { s with rest := rest }

def number : Reading Int := fun s =>
  if s.rest.length < 4 then .error .short s
  else .ok (signed32 (leValue (s.rest.take 4))) { s with rest := s.rest.drop 4 }

def text (len : Nat) : Reading FBTCtlMessage := fun s =>
  if s.rest.length < len then .ok .undef { s with rest := [], overlong := true }
  else .ok (.string (s.rest.take len)) { s with rest := s.rest.drop len }

/-- A field read for a node whose type byte is `type`. -/
def keep (type : Nat) (name : Str) (value : FBTCtlMessage) (stored : List (Str × FBTCtlMessage)) :
    Reading (List (Str × FBTCtlMessage)) := fun s =>
  .ok (FBTCtlMessage.insert name value stored) { s with nonStruct := s.nonStruct || decide (type < STRUCT) }

/-- A field of none of the three types has a tag and nothing else. -/
def pass : Reading PUnit := modify (fun s => { s with untyped := true })

def times (read : Reading α) : Nat → Reading (List α)
  | 0 => return []
  | n + 1 => do
    let first ← read
    let more ← times read n
    return first :: more

/-- What stands behind a tag that fits, the elements of an array read by `element`. -/
def field (element : Reading FBTCtlMessage) (it : MessageLayout) (type : Nat)
    (stored : List (Str × FBTCtlMessage)) : Reading (List (Str × FBTCtlMessage)) :=
  match it.type with
  | 1 => do
    let ival ← number
    keep type it.name (.int ival) stored
  | 2 => do
    let low ← byte
    let high ← byte
    let sval ← text (low.toNat + 256 * high.toNat)
    keep type it.name sval stored
  | 3 => do
    let n ← byte
    let elements ← times element n.toNat
    keep type it.name (.array elements) stored
  | _ => do
    pass
    return stored

mutual
def readElement : MessageLayout → Reading FBTCtlMessage
  | .mk _ _ childLayouts => do
    let type ← byte
    let fields ← readFields childLayouts type.toNat []
    return FBTCtlMessage.decoded childLayouts type.toNat fields

def readFields : List MessageLayout → Nat → List (Str × FBTCtlMessage) →
    Reading (List (Str × FBTCtlMessage))
  | [], _, stored => return stored
  | it :: rest, type, stored => do
    let tag ← byte
    if tag.toNat ≠ it.type then throw .mismatch
    else do
      let stored ← field (readElement it) it type stored
      readFields rest type stored
end

/-- A whole message, its layout found by its own type byte. -/
def readMessage (messageLayouts : MessageLayouts) : Reading FBTCtlMessage := do
  let type ← byte
  if type.toNat > STRUCT then
    match getMessageLayout messageLayouts type.toNat with
    | .ok layout => do
      let fields ← readFields layout.childLayouts type.toNat []
      return FBTCtlMessage.decoded layout.childLayouts type.toNat fields
    | .error _ => throw .mismatch
  else throw .mismatch

/-! ### A flaw stays -/

/-- What has been noted is not taken back. -/
def Noted (s s' : Scan) : Prop :=
  (s.flawed = true → s'.flawed = true) ∧ (s.untyped = true → s'.untyped = true)

theorem closed_noted : Closed Noted :=
  ⟨fun _ => ⟨id,id⟩,fun _ _ _ first second => ⟨second.1 ∘ first.1,second.2 ∘ first.2⟩⟩

theorem noted_byte : Moves Noted byte := by
  intro s
  simp only [byte]
  split <;> exact ⟨id,id⟩

theorem noted_number : Moves Noted number := by
  intro s
  simp only [number]
  split <;> exact ⟨id,id⟩

theorem noted_text (len : Nat) : Moves Noted (text len) := by
  intro s
  simp only [text]
  split
  · exact ⟨fun _ => rfl,id⟩
  · exact ⟨id,id⟩

theorem noted_keep (type : Nat) (name : Str) (value : FBTCtlMessage)
    (stored : List (Str × FBTCtlMessage)) : Moves Noted (keep type name value stored) := by
  intro s
  constructor
  · intro flawed
    simp only [keep,final_ok,Scan.flawed,Bool.or_eq_true] at flawed ⊢
    rcases flawed with overlong | nonStruct
    · exact .inl overlong
    · exact .inr (.inl nonStruct)
  · exact id

theorem noted_pass : Moves Noted pass := by
  intro s
  exact ⟨id,fun _ => rfl⟩

theorem noted_times {read : Reading α} (each : Moves Noted read) (n : Nat) :
    Moves Noted (times read n) := by
  induction n with
  | zero => exact moves_pure closed_noted _
  | succ n ih =>
    apply moves_bind closed_noted each
    intro first
    apply moves_bind closed_noted ih
    intro more
    exact moves_pure closed_noted _

theorem noted_field {element : Reading FBTCtlMessage} (each : Moves Noted element)
    (it : MessageLayout) (type : Nat) (stored : List (Str × FBTCtlMessage)) :
    Moves Noted (field element it type stored) := by
  simp only [field]
  split
  · apply moves_bind closed_noted noted_number
    intro ival
    exact noted_keep _ _ _ _
  · apply moves_bind closed_noted noted_byte
    intro low
    apply moves_bind closed_noted noted_byte
    intro high
    apply moves_bind closed_noted (noted_text _)
    intro sval
    exact noted_keep _ _ _ _
  · apply moves_bind closed_noted noted_byte
    intro n
    apply moves_bind closed_noted (noted_times each _)
    intro elements
    exact noted_keep _ _ _ _
  · apply moves_bind closed_noted noted_pass
    intro _
    exact moves_pure closed_noted _

mutual
theorem noted_element : (layout : MessageLayout) → Moves Noted (readElement layout)
  | .mk kind name childLayouts => by
    simp only [readElement]
    apply moves_bind closed_noted noted_byte
    intro type
    apply moves_bind closed_noted (noted_fields childLayouts _ _)
    intro fields
    exact moves_pure closed_noted _

theorem noted_fields : (layouts : List MessageLayout) → ∀ type stored,
    Moves Noted (readFields layouts type stored)
  | [] => by
    intro type stored
    simp only [readFields]
    exact moves_pure closed_noted _
  | it :: rest => by
    intro type stored
    have others := noted_fields rest type
    simp only [readFields]
    apply moves_bind closed_noted noted_byte
    intro tag
    apply moves_ite (moves_throw closed_noted _)
    exact moves_bind closed_noted (noted_field (noted_element it) it type stored) others
end

end Btcontrol.Wire
