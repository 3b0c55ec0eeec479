import Btcontrol.LayoutParser
import Btcontrol.Message

/-! The protocol classes of the Java client: `FBTCtlMessage`, `OutputWriter`, `InputReader` and
the lookup of `MessageLayouts`. A `Hashtable` is the list of its entries. -/
namespace Btcontrol.Java

open DataType Bytes

def put {κ ν : Type} [DecidableEq κ] (key : κ) (value : ν) : List (κ × ν) → List (κ × ν)
  | [] => [(key, value)]
  | (other, old) :: rest =>
    if other = key then (other, value) :: rest else (other, old) :: put key value rest

/-- `class FBTCtlMessage`. A string is `slen` bytes of `buffer` from `ival` on; `struct` is every
node whose table has names for keys. -/
inductive FBTCtlMessage where
  | undef
  | int (ival : Int)
  | string (buffer : List UInt8) (ival slen : Nat)
  | array (arrayVal : List (Nat × FBTCtlMessage))
  | struct (type : Nat) (arrayVal : List (Str × FBTCtlMessage))

def FBTCtlMessage.type : FBTCtlMessage → Nat
  | .undef => UNDEF
  | .int _ => INT
  | .string _ _ _ => STRING
  | .array _ => ARRAY
  | .struct type _ => type

abbrev MessageLayouts := List (Str × MessageLayout)

def getLayout (messageLayouts : MessageLayouts) (type : Nat) : Except Err MessageLayout :=
  match messageLayouts.find? (fun entry => entry.2.type == type) with
  | some entry => .ok entry.2
  | none => .error (.getLayout type)

def firstElement : List MessageLayout → Except Err MessageLayout
  | [] => .error .noSuchElement
  | first :: _ => .ok first

/-! ### OutputWriter -/

/-- `class OutputWriter`; `ret` up to `pos`. -/
structure OutputWriter where
  ret : List UInt8 := []
  deriving DecidableEq, Repr

namespace OutputWriter

def avail : Nat := 32

def store (byte : UInt8) (out : OutputWriter) : Except Err OutputWriter :=
  if out.ret.length < avail then .ok ⟨out.ret ++ [byte]⟩ else .error .arrayIndexOutOfBounds

def toByte (i : Int) : UInt8 := UInt8.ofNat (i % 256).toNat

def putByte (i : Int) (out : OutputWriter) : Except Err OutputWriter := store (toByte i) out

def putInt (i : Int) (out : OutputWriter) : Except Err OutputWriter := do
  let out ← store (toByte i) out
  let out ← store (toByte (i >>> (8 : Nat))) out
  let out ← store (toByte (i >>> (16 : Nat))) out
  store (toByte (i >>> (24 : Nat))) out

def putString (buffer : List UInt8) (off len : Nat) (out : OutputWriter) :
    Except Err OutputWriter := do
  let out ← putByte (len &&& 0xff : Nat) out
  let out ← putByte (len >>> 8 : Nat) out
  (List.range len).foldlM (fun out i => match buffer[i + off]? with
    | some byte => store byte out
    | none => .error .arrayIndexOutOfBounds) out

end OutputWriter

/-! ### InputReader -/

/-- `class InputReader`; `data` is `inbuffer`. -/
structure InputReader extends Btcontrol.InputReader where
  lastLen : Nat := 0

namespace InputReader

def getByte (input : InputReader) : Except Err (Nat × InputReader) :=
  match input.data[input.pos]? with
  | some byte => .ok (byte.toNat, { input with pos := input.pos + 1 })
  | none => .error .arrayIndexOutOfBounds

def getInt (input : InputReader) : Except Err (Int × InputReader) := do
  let (b0, input) ← input.getByte
  let (b1, input) ← input.getByte
  let (b2, input) ← input.getByte
  let (b3, input) ← input.getByte
  return (signed32 (b0 ||| b1 <<< 8 ||| b2 <<< 16 ||| b3 <<< 24), input)

def getStrOff (input : InputReader) : Except Err (Nat × InputReader) := do
  let (low, input) ← input.getByte
  let (high, input) ← input.getByte
  return (input.pos, { input with lastLen := low ||| high <<< 8 })

def getStrLen (input : InputReader) : Nat × InputReader :=
  (input.lastLen, { input with pos := input.pos + input.lastLen })

end InputReader

/-! ### Messages -/

/-- The counted loop of the ARRAY case, from index `i` on. -/
def readArray (read : InputReader → Except Err (FBTCtlMessage × InputReader)) :
    Nat → Nat → List (Nat × FBTCtlMessage) → InputReader →
    Except Err (List (Nat × FBTCtlMessage) × InputReader)
  | 0, _, arrayVal, input => .ok (arrayVal, input)
  | n + 1, i, arrayVal, input => do
    let (tmp, input) ← read input
    readArray read n (i + 1) (put i tmp arrayVal) input

mutual
/-- `readMessage(in, layout)` with a layout. -/
def readElement : MessageLayout → InputReader → Except Err (FBTCtlMessage × InputReader)
  | .mk _ _ childLayout, input => do
    let (type, input) ← input.getByte
    let (arrayVal, input) ← readFields childLayout [] input
    return (.struct type arrayVal, input)

def readFirst : List MessageLayout → Nat → InputReader →
    Except Err (List (Nat × FBTCtlMessage) × InputReader)
  | [], _, _ => .error .noSuchElement
  | arrayChildLayout :: _, n, input => readArray (readElement arrayChildLayout) n 0 [] input

/-- The loop over `layout.childLayout`. -/
def readFields : List MessageLayout → List (Str × FBTCtlMessage) → InputReader →
    Except Err (List (Str × FBTCtlMessage) × InputReader)
  | [], arrayVal, input => .ok (arrayVal, input)
  | .mk type name childLayout :: rest, arrayVal, input => do
    let (elementType, input) ← input.getByte
    if elementType ≠ type then .error (.unexpectedType elementType type)
    else match type with
      | 1 => do
        let (ival, input) ← input.getInt
        readFields rest (put name (.int ival) arrayVal) input
      | 2 => do
        let (off, input) ← input.getStrOff
        let (len, input) := input.getStrLen
        readFields rest (put name (.string input.data off len) arrayVal) input
      | 3 => do
        let (n, input) ← input.getByte
        let (tmparray, input) ← readFirst childLayout n input
        readFields rest (put name (.array tmparray) arrayVal) input
      | _ => .error .invalidType
end

/-- `readMessage(in, null)`. -/
def readFrom (messageLayouts : MessageLayouts) (input : InputReader) :
    Except Err (FBTCtlMessage × InputReader) := do
  let (type, input) ← input.getByte
  if type > STRUCT then
    let layout ← getLayout messageLayouts type
    let (arrayVal, input) ← readFields layout.childLayouts [] input
    return (.struct type arrayVal, input)
  else .error .noLayout

def readMessage (messageLayouts : MessageLayouts) (inbuffer : List UInt8) : Except Err FBTCtlMessage := do
  let (message, _) ← readFrom messageLayouts { data := inbuffer }
  return message

/-- A child node: its type, and how it is written. -/
abbrev Writer := Nat × (MessageLayout → OutputWriter → Except Err OutputWriter)

/-- The `catch` around a field turns a null pointer below it into an exception of its own. -/
def catchNull (name : Str) : Except Err OutputWriter → Except Err OutputWriter
  | .error .nullPointer => .error (.nullPointerEx name)
  | written => written

/-- The loop over `layout.childLayout` in the struct case. -/
def writeFields (childNode : Str → Option Writer) :
    List MessageLayout → OutputWriter → Except Err OutputWriter
  | [], out => .ok out
  | childLayout :: rest, out => do
    let out ← match childNode childLayout.name with
      | none => .error (.missing childLayout.name)
      | some (type, write) =>
        if type ≠ childLayout.type then .error .invalidDatatype
        else catchNull childLayout.name (write childLayout out)
    writeFields childNode rest out

/-- The loop over the indices in the ARRAY case; a missing one is a null pointer. -/
def writeArray (childNode : Nat → Option Writer) (childLayout : MessageLayout) (n : Nat)
    (out : OutputWriter) : Except Err OutputWriter :=
  (List.range n).foldlM (fun out i => match childNode i with
    | some (_, write) => write childLayout out
    | none => .error .nullPointer) out

mutual
/-- `getBinaryMessage(layout, out)`. -/
def encode : FBTCtlMessage → MessageLayout → OutputWriter → Except Err OutputWriter
  | .undef, layout, out => do
    let out ← out.putByte UNDEF
    match layout.childLayouts with
    | [] => .ok out
    | childLayout :: _ => .error (.nullPointerEx childLayout.name)
  | .int ival, _, out => do
    let out ← out.putByte INT
    out.putInt ival
  | .string buffer ival slen, _, out => do
    let out ← out.putByte STRING
    out.putString buffer ival slen
  | .array arrayVal, layout, out => do
    let elements := elementWriters arrayVal
    let out ← out.putByte ARRAY
    let out ← out.putByte arrayVal.length
    let childLayout ← firstElement layout.childLayouts
    writeArray (fun i => elements.lookup i) childLayout arrayVal.length out
  | .struct type arrayVal, layout, out => do
    let elements := fieldWriters arrayVal
    let out ← out.putByte type
    writeFields (fun name => elements.lookup name) layout.childLayouts out

def elementWriters : List (Nat × FBTCtlMessage) → List (Nat × Writer)
  | [] => []
  | (key, value) :: rest => (key, (value.type, encode value)) :: elementWriters rest

def fieldWriters : List (Str × FBTCtlMessage) → List (Str × Writer)
  | [] => []
  | (key, value) :: rest => (key, (value.type, encode value)) :: fieldWriters rest
end

def getBinaryMessage (messageLayouts : MessageLayouts) (m : FBTCtlMessage) :
    Except Err OutputWriter := do
  let layout ← getLayout messageLayouts m.type
  encode m layout {}

/-! ### The value of a message -/

mutual
/-- What a Java message stands for. A slice outside its buffer and an array with a gap in its
indices stand for nothing. A node is the one that is decoded with these fields and no others. -/
def value : FBTCtlMessage → Btcontrol.FBTCtlMessage
  | .undef => .undef
  | .int ival => .int ival
  | .string buffer ival slen =>
    if ival + slen ≤ buffer.length then .string ((buffer.drop ival).take slen) else .undef
  | .array arrayVal =>
    .array ((List.range arrayVal.length).map (fun i => ((elementValues arrayVal).lookup i).getD .undef))
  | .struct type arrayVal => .decoded [] type (fieldValues arrayVal)

def elementValues : List (Nat × FBTCtlMessage) → List (Nat × Btcontrol.FBTCtlMessage)
  | [] => []
  | (key, element) :: rest => (key, value element) :: elementValues rest

def fieldValues : List (Str × FBTCtlMessage) → List (Str × Btcontrol.FBTCtlMessage)
  | [] => []
  | (key, element) :: rest => (key, value element) :: fieldValues rest
end

end Btcontrol.Java
