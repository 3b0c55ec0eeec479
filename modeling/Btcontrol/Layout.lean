import Btcontrol.Bytes

/-! `message_layout.h`/`message_layout.cpp`: the layout trees read from protocol.dat,
and the lookups by number and by name. A `std::string` is its bytes; the end of a
byte list stands for the terminating NUL of a C string. -/
namespace Btcontrol

abbrev Str := List UInt8

def str (s : String) : Str := s.toList.map Char.toUInt8

/-! `MessageLayout::DataType`. Message types are numbered from `STRUCT + 1`. -/
namespace DataType
def UNDEF : Nat := 0
def INT : Nat := 1
def STRING : Nat := 2
def ARRAY : Nat := 3
def STRUCT : Nat := 4
end DataType

open DataType

/-- Every exception the modelled code throws, with the source's text beside it. -/
inductive Err where
  | assertion                              -- assert(...) failed
  | nonStruct                              -- "invalid type"
  | invalidStructType (type : Nat)    -- "invalid struct type (%d)"
  | invalidId (type : Nat)            -- "invalid id(%d)"
  | invalidMessageName (name : Str)        -- "invalid message name: \"%s\""
  | nameNotFound                           -- "error finding name"
  | arrayBrace (rest : Str)                -- "A must be followed by \x7b @%s"
  | invalidTypeChar (rest : Str)           -- "error parsing protocol.dat invalid type @%s"
  | commaExpected                          -- ", expected"
  | invalidIdentifier                      -- "invalid identifier"
  | getByteEnd                             -- "getByte übers ende gelesen"
  | getIntEnd                              -- "getInt übers ende gelesen"
  | getStringEnd                           -- "getString length > end of message"
  | noMessageLayout                        -- "no message layout"
  | unexpectedDataType                     -- "unexpected DataType"
  | notInt                                 -- "invalid type(int)"
  | notString                              -- "invalid type(string)"
  | notArray                               -- "invalid type(no array)"
  | indexNoArray (type : Nat)         -- "invalid type=%d(no array)"
  | noStruct (type : Nat)             -- "invalid type=%d (no struct)"
  | stringTooBig                           -- "string too big"
  | invalidFieldType                       -- "invalid type (try dump before)"
  | fieldNotSet (struct field : Str)       -- "struct \"%s value \"%s\" - field not set"
  | nullData                               -- a null `data` pointer is dereferenced
  | notConnected                           -- "client not connected"
  | nothingToRead                          -- "nothing to read"
  | msgsizeTooBig                          -- "invalid size msgsize 2big"
  | invalidAddress (addr : Int)            -- "getAddrIndex: invalid address %d"
  | invalidDir                             -- "invalid dir"
  | speedNotZero                           -- "speed != 0"
  | fileError (name : Str)                 -- "error stat file %s", "error reading file %s"
  | lokdefEmpty                            -- "lokdev.csv is empty"
  | nullPos                                -- a null `pos` is dereferenced
  | nfuncMissing                           -- "error reading nfunc"
  | nfuncTooBig (lineNo : Nat)             -- "%s:%d Error: lokdef.nFunc > MAX_NFUNC"
  | funcNamesMissing (i nFunc : Int)       -- "func i = %d, nfunc %d invalid? %d function names missing"
  | funcNewline (lineNo : Nat) (name : Str) -- "%s:%d Error: newline in funcname (%s) - error parsing lokdef"
  | tooManyNames (lineNo : Nat) (rest : Str) -- "%s:%d Error: too many function names [%s]"
  | btError                                -- thrown by BTUtils
  | abort                                  -- abort() ends the whole process
  deriving DecidableEq, Repr

/-- `class MessageLayout`: the type, the field name and the layouts of the fields. -/
inductive MessageLayout where
  | mk (type : Nat) (name : Str) (childLayouts : List MessageLayout)
  deriving Repr

def MessageLayout.type : MessageLayout → Nat
  | .mk type _ _ => type

def MessageLayout.name : MessageLayout → Str
  | .mk _ name _ => name

def MessageLayout.childLayouts : MessageLayout → List MessageLayout
  | .mk _ _ childLayouts => childLayouts

mutual
def MessageLayout.decEq : (a b : MessageLayout) → Decidable (a = b)
  | .mk type name childLayouts, .mk type' name' childLayouts' =>
    match decEqs childLayouts childLayouts' with
    | isTrue same => decidable_of_iff (type = type' ∧ name = name') (by simp [same])
    | isFalse differ => isFalse (fun h => differ (by injection h))

def MessageLayout.decEqs : (a b : List MessageLayout) → Decidable (a = b)
  | [], [] => isTrue rfl
  | [], _ :: _ => isFalse (by simp)
  | _ :: _, [] => isFalse (by simp)
  | it :: rest, it' :: rest' =>
    match decEq it it', decEqs rest rest' with
    | isTrue first, isTrue more => isTrue (by rw [first,more])
    | isFalse differ, _ => isFalse (fun h => differ (by injection h))
    | _, isFalse differ => isFalse (fun h => differ (by injection h))
end

instance : DecidableEq MessageLayout := MessageLayout.decEq

/-- `class MessageLayouts : std::map<std::string, MessageLayout>`, entries in map order. -/
structure MessageLayouts where
  entries : List (Str × MessageLayout)
  protocolHash : Int := -1
  loaded : Bool := false
  deriving DecidableEq, Repr

def getMessageLayout (messageLayouts : MessageLayouts) (type : Nat) :
    Except Err MessageLayout :=
  if !messageLayouts.loaded then .error .assertion
  else if type ≤ STRUCT then .error .nonStruct
  else match messageLayouts.entries.find? (fun it => it.2.type == type) with
    | some it => .ok it.2
    | none => .error (.invalidStructType type)

def messageTypeName (messageLayouts : MessageLayouts) (type : Nat) : Except Err Str :=
  match type with
  | 0 => .ok (str "(UNDEF)")
  | 1 => .ok (str "(INT)")
  | 2 => .ok (str "(STRING)")
  | 3 => .ok (str "(ARRAY)")
  | 4 => .ok (str "(STRUCT)")
  | _ => match messageLayouts.entries.find? (fun it => it.2.type == type) with
    | some it => .ok (str "(STRUCT " ++ it.1 ++ str ")")
    | none => .error (.invalidId type)

/-- `messageLayouts[name].type`: an unknown name yields a fresh entry of type `UNDEF`,
which throws. The entry itself carries no layout and is never found by number. -/
def messageTypeID (messageLayouts : MessageLayouts) (name : Str) : Except Err Nat :=
  match messageLayouts.entries.lookup name with
  | none => .error (.invalidMessageName name)
  | some layout => if layout.type = UNDEF then .error (.invalidMessageName name) else .ok layout.type

end Btcontrol
