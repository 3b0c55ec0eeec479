import Btcontrol.Interop
import Btcontrol.Load
import Btcontrol.Sizes

/-! `ControlAction` of the Android client: how a drive command is addressed to the selected locos.
The nodes of a message come into being when they are first asked for; a write through such a
reference is a function on the node. -/
namespace Btcontrol.Java

open DataType Bytes

/-- The exceptions of building a message, with the source's text beside them. -/
inductive BuildErr where
  | setInt (type : Nat)               -- "setInt invalid type ("+this.type+")"
  | setString (type : Nat)            -- "setString invalid type ("+this.type+")"
  | typeAlreadySet                         -- "type already set"
  | notStruct (type : Nat)            -- "FBTCtlMessage get not a struct ("+this.type+")"
  | notArray                               -- "FBTCtlMessage get not a struct"
  | invalidMessageType (name : Str)        -- "invalid messageType: '"+name+"'"
  | indexOutOfBounds                       -- get(0) of an empty list
  deriving DecidableEq, Repr

namespace FBTCtlMessage

def setInt (i : Int32) : FBTCtlMessage → Except BuildErr FBTCtlMessage
  | .undef => .ok (.int i.toInt)
  | .int _ => .ok (.int i.toInt)
  | m => .error (.setInt m.type)

/-- `set(String)`, with the bytes of the string. -/
def setString (s : List UInt8) : FBTCtlMessage → Except BuildErr FBTCtlMessage
  | .undef => .ok (.string s 0 s.length)
  | .string _ _ _ => .ok (.string s 0 s.length)
  | m => .error (.setString m.type)

/-- `setType`. The buffer of a string that has never been set is null and has length 0. -/
def setType (type : Nat) : FBTCtlMessage → Except BuildErr FBTCtlMessage
  | .undef => .ok (match type with
    | 0 => .undef
    | 1 => .int 0
    | 2 => .string [] 0 0
    | 3 => .array []
    | type => .struct type [])
  | _ => .error .typeAlreadySet

/-- `get(name)` and what is done with the node. -/
def modifyField (name : Str) (f : FBTCtlMessage → Except BuildErr FBTCtlMessage) :
    FBTCtlMessage → Except BuildErr FBTCtlMessage
  | .undef => do return .struct STRUCT [(name, ← f .undef)]
  | .struct type arrayVal =>
    if type < STRUCT then .error (.notStruct type)
    else do return .struct type (put name (← f ((arrayVal.lookup name).getD .undef)) arrayVal)
  | m => .error (.notStruct m.type)

/-- `get(i)` and what is done with the node. -/
def modifyIndex (i : Nat) (f : FBTCtlMessage → Except BuildErr FBTCtlMessage) :
    FBTCtlMessage → Except BuildErr FBTCtlMessage
  | .undef => do return .array [(i, ← f .undef)]
  | .array arrayVal => do return .array (put i (← f ((arrayVal.lookup i).getD .undef)) arrayVal)
  | _ => .error .notArray

end FBTCtlMessage

def messageTypeID (messageLayouts : MessageLayouts) (name : Str) : Except BuildErr Nat :=
  match messageLayouts.lookup name with
  | some layout => .ok layout.type
  | none => .error (.invalidMessageType name)

/-- `msg.get("list").get(i).get("addr").set(addr)`. -/
def setListAddr (msg : FBTCtlMessage) (it : Int32 × Nat) : Except BuildErr FBTCtlMessage :=
  msg.modifyField (str "list") (fun list =>
    list.modifyIndex it.2 (fun element => element.modifyField (str "addr") (fun addr => addr.setInt it.1)))

def setMessageAddrField (messageLayouts : MessageLayouts) (currSelectedAddr : List Int32)
    (msg : FBTCtlMessage) (msgType : Str) : Except BuildErr FBTCtlMessage :=
  if msgType ≠ str "SETFUNCTION" ∧ currSelectedAddr.length > 1 then do
    let msg ← msg.setType (← messageTypeID messageLayouts (msgType ++ str "_MULTI"))
    currSelectedAddr.zipIdx.foldlM setListAddr msg
  else do
    let msg ← msg.setType (← messageTypeID messageLayouts msgType)
    match currSelectedAddr with
    | [] => .error .indexOutOfBounds
    | addr :: _ => msg.modifyField (str "addr") (fun node => node.setInt addr)

inductive Command where
  | ACC
  | BREAK
  | DIR (val : Int32)
  | STOP
  | SETFUNC (func value : Int32)

namespace Command

/-- What is passed to `setMessageAddrField`. -/
def msgType : Command → Str
  | ACC => str "ACC"
  | BREAK => str "BREAK"
  | DIR _ => str "DIR"
  | STOP => str "STOP"
  | SETFUNC _ _ => str "SETFUNC"

/-- The fields the caller sets after it. -/
def fill : Command → FBTCtlMessage → Except BuildErr FBTCtlMessage
  | DIR val, msg => msg.modifyField (str "dir") (fun node => node.setInt val)
  | SETFUNC func value, msg => do
    let msg ← msg.modifyField (str "funcnr") (fun node => node.setInt func)
    msg.modifyField (str "value") (fun node => node.setInt value)
  | _, msg => .ok msg

end Command

/-- protocol.dat as the client holds it. The order of a `Hashtable` says nothing. -/
def protocolTable : MessageLayouts :=
  protocolDat.entries.map (fun entry =>
    (entry.1, .mk entry.2.type entry.2.name (layouts entry.2.childLayouts)))

example :
    ((load (protocolLines.flatMap (fun line => str line ++ [10]))).toOption.map (fun loaded =>
      decide (loaded.1 = 60178 ∧ loaded.2.Perm protocolTable))) = some true := by
  decide +kernel

def build (currSelectedAddr : List Int32) (command : Command) : Except BuildErr FBTCtlMessage := do
  let msg ← setMessageAddrField protocolTable currSelectedAddr .undef command.msgType
  command.fill msg

/-- The message of `getImageCached`. -/
def buildImage (imageName : List UInt8) : Except BuildErr FBTCtlMessage := do
  let msg ← FBTCtlMessage.setType (← messageTypeID protocolTable (str "GETIMAGE")) .undef
  msg.modifyField (str "imgname") (fun node => node.setString imageName)

/-! ### What is built -/

/-- The element of one loco. -/
def addrNode (addr : Int32) : FBTCtlMessage := .struct STRUCT [(str "addr", .int addr.toInt)]

/-- The field `list` once the locos are in it. -/
def listNode (addrs : List Int32) : FBTCtlMessage :=
  .array (addrs.zipIdx.map (fun it => (it.2, addrNode it.1)))

theorem listNode_append (addrs : List Int32) (addr : Int32) :
    listNode (addrs ++ [addr]) =
      .array (addrs.zipIdx.map (fun it => (it.2, addrNode it.1)) ++ [(addrs.length, addrNode addr)]) := by
  simp [listNode,List.zipIdx_append]

theorem listNode_fresh (addrs : List Int32) :
    addrs.length ∉ (addrs.zipIdx.map (fun it => (it.2, addrNode it.1))).map Prod.fst := by
  intro member
  simp only [List.map_map,List.mem_map,Function.comp] at member
  obtain ⟨it,inside,same⟩ := member
  have below := List.snd_lt_of_mem_zipIdx inside
  omega

theorem modifyField_struct {type : Nat} (above : STRUCT ≤ type) (name : Str)
    (f : FBTCtlMessage → Except BuildErr FBTCtlMessage) (arrayVal : List (Str × FBTCtlMessage))
    {node : FBTCtlMessage} (ran : f ((arrayVal.lookup name).getD .undef) = .ok node) :
    FBTCtlMessage.modifyField name f (.struct type arrayVal) = .ok (.struct type (put name node arrayVal)) := by
  simp only [FBTCtlMessage.modifyField,Nat.not_lt.mpr above,↓reduceIte,ran]
  rfl

/-- One turn of the loop, `front` being in the list already. -/
theorem setListAddr_next (type : Nat) (above : STRUCT ≤ type) (front : List Int32) (addr : Int32) :
    setListAddr (.struct type [(str "list", listNode front)]) (addr, front.length) =
      .ok (.struct type [(str "list", listNode (front ++ [addr]))]) := by
  have found : List.lookup (str "list") [(str "list", listNode front)] = some (listNode front) := rfl
  have element : FBTCtlMessage.modifyField (str "addr") (fun node => node.setInt addr) .undef =
      .ok (addrNode addr) := rfl
  have grown : FBTCtlMessage.modifyIndex front.length (fun node =>
        node.modifyField (str "addr") (fun addrNode => addrNode.setInt addr)) (listNode front) =
      .ok (listNode (front ++ [addr])) := by
    rw [listNode_append]
    simp only [listNode,FBTCtlMessage.modifyIndex,lookup_fresh (listNode_fresh front),Option.getD_none,element]
    simp only [bind,Except.bind,pure,Except.pure,put_fresh _ _ _ (listNode_fresh front)]
  rw [setListAddr,modifyField_struct above _ _ _ (by rw [found]; exact grown)]
  simp [put]

theorem setListAddr_first (type : Nat) (above : STRUCT ≤ type) (addr : Int32) :
    setListAddr (.struct type []) (addr, 0) = .ok (.struct type [(str "list", listNode [addr])]) := by
  have grown : FBTCtlMessage.modifyIndex 0 (fun node =>
      node.modifyField (str "addr") (fun addrNode => addrNode.setInt addr)) .undef = .ok (listNode [addr]) := rfl
  rw [setListAddr,modifyField_struct above _ _ _ grown]
  rfl

theorem setListAddr_loop (type : Nat) (above : STRUCT ≤ type) (front rest : List Int32) :
    (rest.zipIdx front.length).foldlM setListAddr (.struct type [(str "list", listNode front)]) =
      .ok (.struct type [(str "list", listNode (front ++ rest))]) := by
  induction rest generalizing front with
  | nil => simp [pure,Except.pure]
  | cons addr rest ih =>
    have next := ih (front ++ [addr])
    simp only [List.length_append,List.length_cons,List.length_nil,Nat.zero_add,List.append_assoc,
      List.singleton_append] at next
    rw [List.zipIdx_cons,List.foldlM_cons,setListAddr_next type above]
    exact next

/-- More than one loco: a list of them, in a message of the `_MULTI` type. -/
theorem setMessageAddrField_multi {messageLayouts : MessageLayouts} {selected : List Int32}
    (several : 1 < selected.length) {msgType : Str} (other : msgType ≠ str "SETFUNCTION")
    {layout : MessageLayout} (found : messageLayouts.lookup (msgType ++ str "_MULTI") = some layout)
    (above : STRUCT < layout.type) :
    setMessageAddrField messageLayouts selected .undef msgType =
      .ok (.struct layout.type [(str "list", listNode selected)]) := by
  have typed : FBTCtlMessage.setType layout.type .undef = .ok (.struct layout.type []) := by
    have beyond : layout.type = layout.type - 4 + 4 := (Nat.sub_add_cancel (Nat.le_of_lt above)).symm
    rw [beyond]
    rfl
  have number : messageTypeID messageLayouts (msgType ++ str "_MULTI") = .ok layout.type := by
    simp only [messageTypeID,found]
  cases selected with
  | nil => simp at several
  | cons addr rest =>
    have loop := setListAddr_loop layout.type (Nat.le_of_lt above) [addr] rest
    simp only [setMessageAddrField,ne_eq,other,not_false_eq_true,true_and,gt_iff_lt,several,↓reduceIte,number]
    simp only [bind,Except.bind,typed,List.zipIdx_cons,List.foldlM_cons]
    rw [setListAddr_first layout.type (Nat.le_of_lt above) addr]
    exact loop

namespace Command

def single (addr : Int32) : Command → FBTCtlMessage
  | ACC => .struct 9 [(str "addr", .int addr.toInt)]
  | BREAK => .struct 10 [(str "addr", .int addr.toInt)]
  | DIR val => .struct 11 [(str "addr", .int addr.toInt), (str "dir", .int val.toInt)]
  | STOP => .struct 12 [(str "addr", .int addr.toInt)]
  | SETFUNC func value => .struct 17 [(str "addr", .int addr.toInt), (str "funcnr", .int func.toInt),
      (str "value", .int value.toInt)]

/-- The message for a list of locos; protocol.dat has none for SETFUNC. -/
def multi (addrs : List Int32) : Command → Option FBTCtlMessage
  | ACC => some (.struct 13 [(str "list", listNode addrs)])
  | BREAK => some (.struct 14 [(str "list", listNode addrs)])
  | DIR val => some (.struct 15 [(str "list", listNode addrs), (str "dir", .int val.toInt)])
  | STOP => some (.struct 16 [(str "list", listNode addrs)])
  | SETFUNC _ _ => none

end Command

theorem build_single (addr : Int32) (command : Command) : build [addr] command = .ok (command.single addr) := by
  cases command <;> rfl

theorem setMessageAddrField_table {selected : List Int32} (several : 1 < selected.length) {msgType : Str}
    (number : Nat) {childLayouts : List MessageLayout} (other : msgType ≠ str "SETFUNCTION")
    (found : protocolTable.lookup (msgType ++ str "_MULTI") = some (.mk number [] childLayouts))
    (above : STRUCT < number) : setMessageAddrField protocolTable selected .undef msgType =
      .ok (.struct number [(str "list", listNode selected)]) :=
  setMessageAddrField_multi several other found above

theorem build_multi {selected : List Int32} (several : 1 < selected.length) (command : Command) :
    build selected command = match command.multi selected with
      | some msg => .ok msg
      | none => .error (.invalidMessageType (str "SETFUNC_MULTI")) := by
  cases command with
  | ACC =>
    simp only [build,Command.msgType]
    rw [setMessageAddrField_table several 13 (by decide) rfl (by decide)]
    rfl
  | BREAK =>
    simp only [build,Command.msgType]
    rw [setMessageAddrField_table several 14 (by decide) rfl (by decide)]
    rfl
  | DIR val =>
    simp only [build,Command.msgType]
    rw [setMessageAddrField_table several 15 (by decide) rfl (by decide)]
    rfl
  | STOP =>
    simp only [build,Command.msgType]
    rw [setMessageAddrField_table several 16 (by decide) rfl (by decide)]
    rfl
  | SETFUNC func value =>
    have unknown : messageTypeID protocolTable (str "SETFUNC" ++ str "_MULTI") =
        .error (.invalidMessageType (str "SETFUNC_MULTI")) := rfl
    have other : str "SETFUNC" ≠ str "SETFUNCTION" := by decide
    simp only [build,Command.msgType,setMessageAddrField,ne_eq,other,not_false_eq_true,true_and,gt_iff_lt,
      several,↓reduceIte,unknown]
    rfl

/-! ### Whom a message addresses -/

/-- The locos a message is for: those of its list, or the one in `addr`. -/
def Names (m : Btcontrol.FBTCtlMessage) (addrs : List Int) : Prop :=
  match m.fields.lookup (str "list") with
  | some (.array elements) => elements.map (fun element => element.fields.lookup (str "addr")) =
      addrs.map (fun addr => some (.int addr))
  | _ => ∃ addr, m.fields.lookup (str "addr") = some (.int addr) ∧ addrs = [addr]

/-- The locos a command is meant for: all that are selected, a function switch only the first. -/
def Command.meant (selected : List Int32) : Command → List Int
  | SETFUNC _ _ => (selected.take 1).map Int32.toInt
  | _ => selected.map Int32.toInt

/-- The message is built, has a type of protocol.dat and every field of its layout, and names the
locos the command is meant for. -/
def Addressed (selected : List Int32) (command : Command) : Prop :=
  ∃ msg layout, build selected command = .ok msg ∧
    getMessageLayout protocolDat msg.type = .ok layout ∧
    (Sizes.measure (value msg) layout).isSome = true ∧ Names (value msg) (command.meant selected)

theorem map_zipIdx_fst {α β : Type} (f : α → β) (l : List α) : l.zipIdx.map (fun it => f it.1) = l.map f := by
  conv_rhs => rw [← List.zipIdx_map_fst 0 l,List.map_map]
  rfl

/-- The value of the list: one struct for each loco, in order. -/
theorem value_listNode (addrs : List Int32) : value (listNode addrs) =
    .array (addrs.map (fun addr => .struct STRUCT [(str "addr", .int addr.toInt)])) := by
  have keys : (addrs.zipIdx.map (fun it => (it.2, addrNode it.1))).map Prod.fst = List.range' 0 addrs.length := by
    simp [Function.comp_def]
  have nodes (addr : Int32) : value (addrNode addr) = .struct STRUCT [(str "addr", .int addr.toInt)] := by
    simp only [addrNode,value_struct (Nat.le_refl STRUCT),fieldValues,value]
  rw [listNode,value_array _ _ keys,List.map_map]
  simp only [Function.comp_def,nodes]
  rw [map_zipIdx_fst (fun addr : Int32 => Btcontrol.FBTCtlMessage.struct STRUCT [(str "addr", .int addr.toInt)])]

theorem measure_listNode (addrs : List Int32) :
    Sizes.measure (value (listNode addrs)) (arrayField "list" [intField "addr"]) =
      some [.array addrs.length] := by
  have elements : Sizes.measureArray (addrs.map (fun addr => .struct STRUCT [(str "addr", .int addr.toInt)]))
      (arrayField "list" [intField "addr"]) = some [] := by
    induction addrs with
    | nil => rfl
    | cons addr rest ih =>
      have first : Sizes.measure (.struct STRUCT [(str "addr", .int addr.toInt)])
          (arrayField "list" [intField "addr"]) = some [] := rfl
      simp only [List.map_cons,Sizes.measureArray,first,ih]
      rfl
  rw [value_listNode]
  simp [Sizes.measure,elements]

theorem measured_list (addrs : List Int32) : (value (listNode addrs)).type = (arrayField "list" [intField "addr"]).type ∧
    (Sizes.measure (value (listNode addrs)) (arrayField "list" [intField "addr"])).isSome = true := by
  constructor
  · rw [value_listNode]
    rfl
  · rw [measure_listNode]
    rfl

theorem above_of_layout {messageLayouts : Btcontrol.MessageLayouts} {type : Nat} {layout : MessageLayout}
    (found : getMessageLayout messageLayouts type = .ok layout) : STRUCT < type := by
  simp only [getMessageLayout] at found
  split at found
  · cases found
  · split at found
    · cases found
    · rename_i above
      exact Nat.not_le.mp above

/-- A message with the list of all selected locos. -/
theorem addressed_multi {selected : List Int32} {command : Command} {number : Nat}
    {arrayVal : List (Str × FBTCtlMessage)} {childLayouts : List MessageLayout}
    (built : build selected command = .ok (.struct number arrayVal))
    (found : getMessageLayout protocolDat number = .ok (.mk number [] childLayouts))
    (each : ∀ it ∈ childLayouts, ∃ set, (fieldValues arrayVal).lookup it.name = some set ∧
      set.type = it.type ∧ (Sizes.measure set it).isSome = true)
    (list : (fieldValues arrayVal).lookup (str "list") = some (value (listNode selected)))
    (meant : command.meant selected = selected.map Int32.toInt) : Addressed selected command := by
  have measured := Sizes.measure_complete each number number []
  have struct := value_struct (Nat.le_of_lt (above_of_layout found)) arrayVal
  refine ⟨_,_,built,found,?_,?_⟩
  · rw [struct]
    exact measured
  · rw [struct]
    simp only [Names,Btcontrol.FBTCtlMessage.fields,list,meant]
    rw [value_listNode]
    simp only [List.map_map]
    rfl

theorem list_each (selected : List Int32) (arrayVal : List (Str × FBTCtlMessage))
    (list : (fieldValues arrayVal).lookup (str "list") = some (value (listNode selected))) :
    ∀ it ∈ [arrayField "list" [intField "addr"]], ∃ set, (fieldValues arrayVal).lookup it.name = some set ∧
      set.type = it.type ∧ (Sizes.measure set it).isSome = true := by
  intro it member
  rw [List.mem_singleton.mp member]
  exact ⟨_,list,measured_list selected⟩

theorem one_selected {selected : List Int32} (nonempty : selected ≠ []) (few : ¬1 < selected.length) :
    ∃ addr, selected = [addr] := by
  rcases selected with _ | ⟨addr,_ | ⟨next,rest⟩⟩
  · exact absurd rfl nonempty
  · exact ⟨addr,rfl⟩
  · simp at few

/-- Exactly the function switch of a multiple selection goes wrong: it asks for a SETFUNC_MULTI. -/
theorem addressed_iff (selected : List Int32) (nonempty : selected ≠ []) (command : Command) :
    Addressed selected command ↔
      ¬(1 < selected.length ∧ ∃ func value, command = .SETFUNC func value) := by
  by_cases several : 1 < selected.length
  · have built := build_multi several command
    have list (further : List (Str × FBTCtlMessage)) :
        (fieldValues ((str "list", listNode selected) :: further)).lookup (str "list") =
          some (value (listNode selected)) := by
      simp only [fieldValues,List.lookup_cons_self]
    cases command with
    | ACC => exact iff_of_true (addressed_multi built rfl (list_each selected _ (list [])) (list []) rfl) (by simp)
    | BREAK => exact iff_of_true (addressed_multi built rfl (list_each selected _ (list [])) (list []) rfl) (by simp)
    | STOP => exact iff_of_true (addressed_multi built rfl (list_each selected _ (list [])) (list []) rfl) (by simp)
    | DIR val =>
      apply iff_of_true _ (by simp)
      apply addressed_multi built rfl _ (list _) rfl
      intro it member
      rcases List.mem_cons.mp member with rfl | later
      · exact ⟨.int val.toInt,rfl,rfl,rfl⟩
      · exact list_each selected _ (list _) it later
    | SETFUNC func value =>
      apply iff_of_false
      · rintro ⟨msg,layout,done,_⟩
        rw [built] at done
        cases done
      · simp [several]
  · obtain ⟨addr,rfl⟩ := one_selected nonempty several
    apply iff_of_true _ (fun both => several both.1)
    have built := build_single addr command
    cases command <;> exact ⟨_,_,built,rfl,rfl,addr.toInt,rfl,rfl⟩

/-- Two locos speed up. -/
theorem addressed_iff_acc : ([3,647] : List Int32) ≠ [] ∧ (Addressed [3,647] .ACC ↔
    ¬(1 < [3,647].length ∧ ∃ func value, Command.ACC = .SETFUNC func value)) :=
  ⟨by simp,addressed_iff [3,647] (by simp) .ACC⟩

/-- The lights of two locos. -/
theorem setfunc_not_addressed : ¬Addressed [3,647] (.SETFUNC 0 1) := by
  have failed : build [3,647] (.SETFUNC 0 1) = .error (.invalidMessageType (str "SETFUNC_MULTI")) := rfl
  rintro ⟨msg,layout,done,_⟩
  rw [failed] at done
  cases done

end Btcontrol.Java
