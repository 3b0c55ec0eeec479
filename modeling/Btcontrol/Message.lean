import Btcontrol.Layout

/-! `fbtctl_message.h`/`fbtctl_message.cpp`: message values, their encoder and decoder.
`int` is 32 bit little-endian; the two `getByte` calls of `getString` run left to right. -/
namespace Btcontrol

open DataType Bytes

/-- `class FBTCtlMessage`. The `struct` constructor is every node whose type byte is not
one of the other tags, `null` a node with a type byte whose `data` is a null pointer. -/
inductive FBTCtlMessage where
  | undef
  | int (ival : Int)
  | string (sval : Str)
  | array (arrayVal : List FBTCtlMessage)
  | struct (type : Nat) (structVal : List (Str × FBTCtlMessage))
  | null (type : Nat)
  deriving Repr

namespace FBTCtlMessage

def type : FBTCtlMessage → Nat
  | .undef => UNDEF
  | .int _ => INT
  | .string _ => STRING
  | .array _ => ARRAY
  | .struct type _ => type
  | .null type => type

def getIntVal : FBTCtlMessage → Except Err Int
  | .int ival => .ok ival
  | .null type => .error (if type = INT then .nullData else .notInt)
  | _ => .error .notInt

def getStringVal : FBTCtlMessage → Except Err Str
  | .string sval => .ok sval
  | .null type => .error (if type = STRING then .nullData else .notString)
  | _ => .error .notString

def getArraySize : FBTCtlMessage → Except Err Nat
  | .array arrayVal => .ok arrayVal.length
  | .null type => .error (if type = ARRAY then .nullData else .notArray)
  | _ => .error .notArray

/-- `operator[](int)`, read: `UNDEF` becomes an array, an index at the end appends a STRUCT. -/
def index (i : Nat) : FBTCtlMessage → Except Err FBTCtlMessage
  | .undef => .ok (.struct STRUCT [])
  | .array arrayVal => .ok (arrayVal[i]?.getD (.struct STRUCT []))
  | .null type => .error (if type = ARRAY then .assertion else .indexNoArray type)
  | m => .error (.indexNoArray m.type)

/-- `operator[](const std::string &)`, read: a missing field is created as `UNDEF`. -/
def field (name : Str) : FBTCtlMessage → Except Err FBTCtlMessage
  | .struct type structVal =>
    if type < STRUCT then .error (.noStruct type)
    else .ok ((structVal.lookup name).getD .undef)
  | .null type => if type < STRUCT then .error (.noStruct type) else .ok .undef
  | m => .error (.noStruct m.type)

def insert (name : Str) (value : FBTCtlMessage) :
    List (Str × FBTCtlMessage) → List (Str × FBTCtlMessage)
  | [] => [(name, value)]
  | (key, old) :: rest =>
    if key = name then (key, value) :: rest else (key, old) :: insert name value rest

/-- `m[i] op= ...`: the write through the reference `operator[](int)` returns. -/
def modifyIndex (i : Nat) (f : FBTCtlMessage → Except Err FBTCtlMessage) :
    FBTCtlMessage → Except Err FBTCtlMessage
  | .undef => do return .array [← f (.struct STRUCT [])]
  | .array arrayVal => do
    let grown := if arrayVal.length ≤ i then arrayVal ++ [.struct STRUCT []] else arrayVal
    return .array (grown.set i (← f (grown[i]?.getD .undef)))
  | .null type => .error (if type = ARRAY then .assertion else .indexNoArray type)
  | m => .error (.indexNoArray m.type)

/-- `m[name] op= ...`: the write through the reference `operator[](std::string)` returns. A null
`data` becomes an empty map first. -/
def modifyField (name : Str) (f : FBTCtlMessage → Except Err FBTCtlMessage) :
    FBTCtlMessage → Except Err FBTCtlMessage
  | .struct type structVal =>
    if type < STRUCT then .error (.noStruct type)
    else do return .struct type (insert name (← f ((structVal.lookup name).getD .undef)) structVal)
  | .null type =>
    if type < STRUCT then .error (.noStruct type)
    else do return .struct type [(name, ← f .undef)]
  | m => .error (.noStruct m.type)

def setField (name : Str) (value : FBTCtlMessage) : FBTCtlMessage → Except Err FBTCtlMessage :=
  modifyField name (fun _ => .ok value)

end FBTCtlMessage

structure InputReader where
  data : List UInt8
  pos : Nat := 0
  deriving DecidableEq, Repr

namespace InputReader

def rest (input : InputReader) : List UInt8 := input.data.drop input.pos

def advance (input : InputReader) (n : Nat) : InputReader := { input with pos := input.pos + n }

def getByte (input : InputReader) : Except Err (UInt8 × InputReader) :=
  match input.data[input.pos]? with
  | some byte => .ok (byte, input.advance 1)
  | none => .error .getByteEnd

def getInt (input : InputReader) : Except Err (Int × InputReader) :=
  if input.pos + 4 > input.data.length then .error .getIntEnd
  else .ok (signed32 (leValue (input.rest.take 4)), input.advance 4)

def getString (input : InputReader) : Except Err (Str × InputReader) := do
  let (low, input) ← input.getByte
  let (high, input) ← input.getByte
  let len := low.toNat + 256 * high.toNat
  if input.pos + len > input.data.length then .error .getStringEnd
  else .ok (input.rest.take len, input.advance len)

end InputReader

namespace FBTCtlMessage

/-- The counted loop of the ARRAY case. -/
def readArray (read : InputReader → Except Err (FBTCtlMessage × InputReader)) :
    Nat → InputReader → Except Err (List FBTCtlMessage × InputReader)
  | 0, input => .ok ([], input)
  | n + 1, input => do
    let (tmp, input) ← read input
    let (more, input) ← readArray read n input
    return (tmp :: more, input)

/-- `this->operator[](it->name) = value` while decoding a node whose type byte is `type`. -/
def store (type : Nat) (name : Str) (value : FBTCtlMessage)
    (structVal : List (Str × FBTCtlMessage)) : Except Err (List (Str × FBTCtlMessage)) :=
  if type < STRUCT then .error (.noStruct type) else .ok (insert name value structVal)

/-- What `readMessage` leaves: `data` stays null unless a field is stored. To a node from STRUCT on
whose layout has no fields a null `data` and an empty map are the same. -/
def decoded (childLayouts : List MessageLayout) (type : Nat) (structVal : List (Str × FBTCtlMessage)) :
    FBTCtlMessage :=
  if structVal.isEmpty ∧ (childLayouts ≠ [] ∨ type < STRUCT) then
    if type = UNDEF then .undef else .null type
  else .struct type structVal

@[simp] theorem decoded_type (childLayouts : List MessageLayout) (type : Nat)
    (structVal : List (Str × FBTCtlMessage)) : (decoded childLayouts type structVal).type = type := by
  unfold decoded
  split
  · split
    · rename_i undef
      exact undef.symm
    · rfl
  · rfl

theorem decoded_struct {childLayouts : List MessageLayout} {type : Nat}
    {structVal : List (Str × FBTCtlMessage)} (struct : STRUCT ≤ type)
    (stored : structVal = [] → childLayouts = []) :
    decoded childLayouts type structVal = .struct type structVal := by
  refine if_neg ?_
  rintro ⟨empty,fields | below⟩
  · exact fields (stored (List.isEmpty_iff.mp empty))
  · exact Nat.not_lt.mpr struct below

mutual
/-- `readMessage(in, layout)`: elements of an array are read against the array's layout. -/
def readElement : MessageLayout → InputReader → Except Err (FBTCtlMessage × InputReader)
  | .mk _ _ childLayouts, input => do
    let (type, input) ← input.getByte
    let (structVal, input) ← readFields childLayouts type.toNat [] input
    return (decoded childLayouts type.toNat structVal, input)

/-- The loop over `layout->childLayouts`. -/
def readFields : List MessageLayout → Nat → List (Str × FBTCtlMessage) → InputReader →
    Except Err (List (Str × FBTCtlMessage) × InputReader)
  | [], _, structVal, input => .ok (structVal, input)
  | it :: rest, type, structVal, input => do
    let (tag, input) ← input.getByte
    if tag.toNat ≠ it.type then .error .unexpectedDataType
    else match it.type with
      | 1 => do
        let (ival, input) ← input.getInt
        readFields rest type (← store type it.name (.int ival) structVal) input
      | 2 => do
        let (sval, input) ← input.getString
        readFields rest type (← store type it.name (.string sval) structVal) input
      | 3 => do
        let (n, input) ← input.getByte
        let (tmparray, input) ← readArray (readElement it) n.toNat input
        readFields rest type (← store type it.name (.array tmparray) structVal) input
      | _ => readFields rest type structVal input
end

/-- `readMessage(in)`: the layout comes from the message's own type byte. -/
def readMessage (messageLayouts : MessageLayouts) (input : InputReader) :
    Except Err (FBTCtlMessage × InputReader) := do
  let (type, input) ← input.getByte
  if type.toNat > STRUCT then
    let layout ← getMessageLayout messageLayouts type.toNat
    let (structVal, input) ← readFields layout.childLayouts type.toNat [] input
    return (decoded layout.childLayouts type.toNat structVal, input)
  else .error .noMessageLayout

/-- A field's type and its encoder, as the struct case looks them up by name. -/
abbrev Writer := Nat × (MessageLayout → Except Err Str)

/-- The loop over `layout->childLayouts` in the struct case of the encoder. -/
def writeFields (messageLayouts : MessageLayouts) (type : Nat)
    (element : Str → Option Writer) : List MessageLayout → Except Err Str
  | [] => .ok []
  | it :: rest => match element it.name with
    | some (elementType, write) =>
      if elementType = it.type then do
        let first ← write it
        let more ← writeFields messageLayouts type element rest
        return first ++ more
      else .error .invalidFieldType
    | none => do
      let struct ← messageTypeName messageLayouts type
      .error (.fieldNotSet struct it.name)

mutual
/-- `getBinaryMessage(layout)`: an array hands its own layout on to its elements. -/
def encode (messageLayouts : MessageLayouts) :
    FBTCtlMessage → MessageLayout → Except Err Str
  | .undef, layout => match layout.childLayouts with
    | [] => .ok (le 1 UNDEF)
    | _ :: _ => .error .nullData
  | .int ival, _ => .ok (le 1 INT ++ le 4 (pattern32 ival))
  | .string sval, _ =>
    if signed32 (sval.length % 2 ^ 32) > 0x10000 then .error .stringTooBig
    else .ok (le 1 STRING ++ le 2 sval.length ++ sval)
  | .array arrayVal, layout => do
    let elements ← encodeArray messageLayouts arrayVal layout
    return le 1 ARRAY ++ le 1 arrayVal.length ++ elements
  | .struct type structVal, layout => do
    let elements := writers messageLayouts structVal
    let fields ← writeFields messageLayouts type (fun name => elements.lookup name) layout.childLayouts
    return le 1 type ++ fields
  | .null type, layout =>
    if type = INT ∨ type = STRING ∨ type = ARRAY then .error .nullData
    else match layout.childLayouts with
      | [] => .ok (le 1 type)
      | _ :: _ => .error .nullData

def encodeArray (messageLayouts : MessageLayouts) :
    List FBTCtlMessage → MessageLayout → Except Err Str
  | [], _ => .ok []
  | first :: rest, layout => do
    let bytes ← encode messageLayouts first layout
    let more ← encodeArray messageLayouts rest layout
    return bytes ++ more

def writers (messageLayouts : MessageLayouts) :
    List (Str × FBTCtlMessage) → List (Str × Writer)
  | [] => []
  | (name, value) :: rest =>
    (name, (value.type, encode messageLayouts value)) :: writers messageLayouts rest
end

def getBinaryMessage (messageLayouts : MessageLayouts) (m : FBTCtlMessage) : Except Err Str := do
  let layout ← getMessageLayout messageLayouts m.type
  encode messageLayouts m layout

/-- `isType(name)`: comparing with an undefined name throws. -/
def isType (messageLayouts : MessageLayouts) (m : FBTCtlMessage) (name : Str) :
    Except Err Bool := do
  return m.type == (← messageTypeID messageLayouts name)

end FBTCtlMessage
end Btcontrol
