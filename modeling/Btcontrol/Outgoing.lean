import Btcontrol.ControlAction

/-! What of the client's requests passes its `OutputWriter`. Its buffer has a fixed size; the
number of selected locos and the length of an image's name have not. -/
namespace Btcontrol.Java

open DataType Bytes OutputWriter

/-! ### The buffer -/

theorem putAll_bounded {bytes : List UInt8} {out next : OutputWriter} (below : out.ret.length ≤ avail)
    (ran : putAll bytes out = .ok next) : next.ret.length ≤ avail := by
  induction bytes generalizing out with
  | nil =>
    cases ran
    exact below
  | cons byte rest ih =>
    simp only [putAll,List.foldlM_cons,store] at ran
    split at ran
    · rename_i free
      apply ih _ ran
      simp only [List.length_append,List.length_cons,List.length_nil]
      omega
    · cases ran

/-- All or nothing. -/
theorem putAll_iff (bytes : List UInt8) : putAll bytes {} = .ok ⟨bytes⟩ ↔ bytes.length ≤ avail := by
  constructor
  · intro ran
    exact putAll_bounded (Nat.zero_le _) ran
  · intro short
    have ran := putAll_fits bytes {} (by simpa using short)
    simpa using ran

/-! ### The fields of a request -/

def Writes (arrayVal : List (Str × FBTCtlMessage)) (it : MessageLayout) : Prop :=
  ∃ node, arrayVal.lookup it.name = some node ∧ node.type = it.type ∧
    ∀ out, encode node (layout it) out = putAll (Wire.fieldBytes it (value node)) out

theorem writes_fits {arrayVal : List (Str × FBTCtlMessage)} {it : MessageLayout} {node : FBTCtlMessage}
    (found : arrayVal.lookup it.name = some node) (fits : Wire.Fits it (value node)) : Writes arrayVal it :=
  ⟨node,found,fits_node it node fits,encode_fits it node fits⟩

theorem fits_int (name : String) (i : Int32) : Wire.Fits (intField name) (value (.int i.toInt)) := by
  have low := Int32.le_toInt i
  have high := Int32.toInt_lt i
  simp only [value]
  exact ⟨rfl,by constructor <;> omega⟩

/-- The list of the locos, of any length. -/
theorem encode_listNode (addrs : List Int32) (out : OutputWriter) :
    encode (listNode addrs) (layout (arrayField "list" [intField "addr"])) out =
      putAll (Wire.fieldBytes (arrayField "list" [intField "addr"]) (value (listNode addrs))) out := by
  apply encode_elements _ (writeFields_fits _)
  intro i member
  have values := value_listNode addrs
  simp only [listNode,value,Btcontrol.FBTCtlMessage.array.injEq] at values
  have inside := List.mem_map_of_mem (f := fun i =>
    ((elementValues (addrs.zipIdx.map (fun it => (it.2, addrNode it.1)))).lookup i).getD .undef) member
  rw [values] at inside
  obtain ⟨addr,_,same⟩ := List.mem_map.mp inside
  rw [← same]
  exact ⟨rfl,⟨_,rfl,fits_int "addr" addr⟩,trivial⟩

theorem writes_list {arrayVal : List (Str × FBTCtlMessage)} {addrs : List Int32}
    (found : arrayVal.lookup (str "list") = some (listNode addrs)) :
    Writes arrayVal (arrayField "list" [intField "addr"]) :=
  ⟨_,found,rfl,encode_listNode addrs⟩

theorem length_listNode (addrs : List Int32) :
    (Wire.fieldBytes (arrayField "list" [intField "addr"]) (value (listNode addrs))).length =
      2 + 6 * addrs.length := by
  have element (addr : Int32) :
      (le 1 STRUCT ++ Wire.structBytes [intField "addr"] [(str "addr", .int addr.toInt)]).length = 6 := rfl
  rw [value_listNode]
  simp only [arrayField,Wire.fieldBytes,List.flatMap_map,Btcontrol.FBTCtlMessage.fields]
  rw [List.length_append,List.length_append,List.length_flatMap]
  simp only [element,le_length,List.map_const',List.sum_replicate,smul_eq_mul]
  omega

/-! ### Requests -/

/-- A struct whose fields each write their bytes. -/
theorem writeFields_each (childLayouts : List MessageLayout) (arrayVal : List (Str × FBTCtlMessage))
    (each : ∀ it ∈ childLayouts, Writes arrayVal it) (out : OutputWriter) :
    writeFields (fun name => (fieldWriters arrayVal).lookup name) (layouts childLayouts) out =
      putAll (Wire.structBytes childLayouts (fieldValues arrayVal)) out := by
  induction childLayouts generalizing out with
  | nil => rfl
  | cons it rest ih =>
    obtain ⟨node,found,typed,first⟩ := each it List.mem_cons_self
    exact writeFields_turn found typed first
      (ih (fun other member => each other (List.mem_cons_of_mem _ member))) out

/-- What the client asks the server for: a drive command for the selected locos, an image. -/
inductive Request where
  | drive (currSelectedAddr : List Int32) (command : Command)
  | image (imageName : List UInt8)

namespace Request

def build : Request → Except BuildErr FBTCtlMessage
  | drive currSelectedAddr command => Java.build currSelectedAddr command
  | image imageName => buildImage imageName

/-- A loco is selected and the command has a list form; the server holds its image names in 32
bytes, the terminating one included. -/
def Valid : Request → Prop
  | drive currSelectedAddr command => currSelectedAddr ≠ [] ∧ ∀ func value, command ≠ .SETFUNC func value
  | image imageName => imageName.length ≤ 31

/-- At most four locos, a name of at most 28 bytes. -/
def Short : Request → Prop
  | drive currSelectedAddr _ => currSelectedAddr.length ≤ 4
  | image imageName => imageName.length ≤ 28

/-- `getBinaryMessage` returns normally, with all bytes of the message. -/
def Sent (request : Request) : Prop :=
  ∃ msg layout, request.build = .ok msg ∧ getMessageLayout protocolDat msg.type = .ok layout ∧
    getBinaryMessage protocolTable msg = .ok ⟨Wire.messageBytes layout (value msg)⟩

/-- A request whose fields each write their bytes is sent exactly when the buffer holds them. -/
theorem sent_of_fields {request : Request} {number : Nat} {arrayVal : List (Str × FBTCtlMessage)}
    {childLayouts : List MessageLayout} (built : request.build = .ok (.struct number arrayVal))
    (found : getMessageLayout protocolDat number = .ok (.mk number [] childLayouts))
    (javaFound : getLayout protocolTable number = .ok (.mk number [] (layouts childLayouts)))
    (each : ∀ it ∈ childLayouts, Writes arrayVal it) :
    request.Sent ↔ 1 + (Wire.structBytes childLayouts (fieldValues arrayVal)).length ≤ avail := by
  have bytes : Wire.messageBytes (.mk number [] childLayouts) (value (.struct number arrayVal)) =
      le 1 number ++ Wire.structBytes childLayouts (fieldValues arrayVal) := by
    simp only [Wire.messageBytes,value,FBTCtlMessage.decoded_type,FBTCtlMessage.decoded_fields]
    rfl
  have written : getBinaryMessage protocolTable (.struct number arrayVal) =
      putAll (le 1 number ++ Wire.structBytes childLayouts (fieldValues arrayVal)) {} := by
    simp only [getBinaryMessage,FBTCtlMessage.type,javaFound,bind,Except.bind]
    exact encode_struct number childLayouts arrayVal (writeFields_each childLayouts arrayVal each) number [] {}
  have room := putAll_iff (le 1 number ++ Wire.structBytes childLayouts (fieldValues arrayVal))
  rw [List.length_append,le_length] at room
  constructor
  · rintro ⟨msg,it,done,known,sent⟩
    rw [built] at done
    cases done
    simp only [FBTCtlMessage.type,found,Except.ok.injEq] at known
    subst known
    rw [written,bytes] at sent
    exact room.mp sent
  · intro short
    refine ⟨_,_,built,found,?_⟩
    rw [written,bytes]
    exact room.mpr short

/-- A message with nothing but the list of the locos. -/
theorem sent_list {selected : List Int32} {command : Command} {number : Nat}
    (built : (drive selected command).build = .ok (.struct number [(str "list", listNode selected)]))
    (found : getMessageLayout protocolDat number = .ok (.mk number [] [arrayField "list" [intField "addr"]]))
    (javaFound : getLayout protocolTable number =
      .ok (.mk number [] (layouts [arrayField "list" [intField "addr"]]))) :
    (drive selected command).Sent ↔ 3 + 6 * selected.length ≤ avail := by
  have length : (Wire.structBytes [arrayField "list" [intField "addr"]]
      (fieldValues [(str "list", listNode selected)])).length = 2 + 6 * selected.length := by
    have name : (arrayField "list" [intField "addr"]).name = str "list" := rfl
    simp only [fieldValues,Wire.structBytes,name,List.lookup_cons_self,Option.getD_some,List.append_nil,
      length_listNode]
  have sent := sent_of_fields built found javaFound (by
    intro it member
    rw [List.mem_singleton.mp member]
    exact writes_list rfl)
  rw [sent,length]
  omega

theorem sent_dir {selected : List Int32} {val : Int32}
    (built : (drive selected (.DIR val)).build =
      .ok (.struct 15 [(str "list", listNode selected), (str "dir", .int val.toInt)])) :
    (drive selected (.DIR val)).Sent ↔ 8 + 6 * selected.length ≤ avail := by
  have length : (Wire.structBytes [intField "dir",arrayField "list" [intField "addr"]]
      (fieldValues [(str "list", listNode selected), (str "dir", .int val.toInt)])).length =
        7 + 6 * selected.length := by
    have dir : (Wire.fieldBytes (intField "dir") (.int val.toInt)).length = 5 := rfl
    have first : (fieldValues [(str "list", listNode selected), (str "dir", .int val.toInt)]).lookup
        (intField "dir").name = some (.int val.toInt) := by
      simp only [fieldValues,value]
      rfl
    have second : (fieldValues [(str "list", listNode selected), (str "dir", .int val.toInt)]).lookup
        (arrayField "list" [intField "addr"]).name = some (value (listNode selected)) := by
      simp only [fieldValues]
      rfl
    simp only [Wire.structBytes,first,second,Option.getD_some,List.append_nil,List.length_append,
      dir,length_listNode]
    omega
  have sent := sent_of_fields built rfl rfl (by
    intro it member
    rcases List.mem_cons.mp member with rfl | later
    · exact writes_fits rfl (fits_int "dir" val)
    · rw [List.mem_singleton.mp later]
      exact writes_list rfl)
  rw [sent,length]
  omega

/-- One loco always fits. -/
theorem sent_single (addr : Int32) {command : Command} (other : ∀ func value, command ≠ .SETFUNC func value) :
    (drive [addr] command).Sent := by
  have built : (drive [addr] command).build = .ok (command.single addr) := build_single addr command
  have only (arrayVal : List (Str × FBTCtlMessage))
      (found : arrayVal.lookup (str "addr") = some (.int addr.toInt)) :
      ∀ it ∈ [intField "addr"], Writes arrayVal it := by
    intro it member
    rw [List.mem_singleton.mp member]
    exact writes_fits found (fits_int "addr" addr)
  cases command with
  | ACC => exact (sent_of_fields built rfl rfl (only _ rfl)).mpr (Nat.le_of_ble_eq_true rfl)
  | BREAK => exact (sent_of_fields built rfl rfl (only _ rfl)).mpr (Nat.le_of_ble_eq_true rfl)
  | STOP => exact (sent_of_fields built rfl rfl (only _ rfl)).mpr (Nat.le_of_ble_eq_true rfl)
  | DIR val =>
    apply (sent_of_fields built rfl rfl _).mpr
    · exact Nat.le_of_ble_eq_true rfl
    · intro it member
      rcases List.mem_cons.mp member with rfl | later
      · exact writes_fits rfl (fits_int "addr" addr)
      · rw [List.mem_singleton.mp later]
        exact writes_fits rfl (fits_int "dir" val)
  | SETFUNC func value => exact absurd rfl (other func value)

theorem sent_image {imageName : List UInt8} (bounded : imageName.length ≤ 31) :
    (image imageName).Sent ↔ 4 + imageName.length ≤ avail := by
  have built : (image imageName).build =
      .ok (.struct 28 [(str "imgname", .string imageName 0 imageName.length)]) := rfl
  have whole : value (.string imageName 0 imageName.length) = .string imageName := by
    simp [value]
  have length : (Wire.structBytes [stringField "imgname"]
      (fieldValues [(str "imgname", .string imageName 0 imageName.length)])).length = 3 + imageName.length := by
    have name : (stringField "imgname").name = str "imgname" := rfl
    have bytes : Wire.fieldBytes (stringField "imgname") (.string imageName) =
        le 1 STRING ++ (le 2 imageName.length ++ imageName) := rfl
    simp only [fieldValues,Wire.structBytes,name,List.lookup_cons_self,Option.getD_some,List.append_nil,whole,
      bytes,List.length_append,le_length]
    omega
  have sent := sent_of_fields built rfl rfl (by
    intro it member
    rw [List.mem_singleton.mp member]
    apply writes_fits rfl
    rw [whole]
    exact ⟨rfl,by omega⟩)
  rw [sent,length]
  omega

/-- The buffer takes exactly the short requests. -/
theorem sent_iff (request : Request) (valid : request.Valid) : request.Sent ↔ request.Short := by
  cases request with
  | image imageName =>
    rw [sent_image valid,Short,avail]
    omega
  | drive selected command =>
    obtain ⟨nonempty,other⟩ := valid
    by_cases several : 1 < selected.length
    · have built := build_multi several command
      cases command with
      | ACC =>
        rw [sent_list built rfl rfl,Short,avail]
        omega
      | BREAK =>
        rw [sent_list built rfl rfl,Short,avail]
        omega
      | STOP =>
        rw [sent_list built rfl rfl,Short,avail]
        omega
      | DIR val =>
        rw [sent_dir built,Short,avail]
        omega
      | SETFUNC func value => exact absurd rfl (other func value)
    · obtain ⟨addr,rfl⟩ := one_selected nonempty several
      exact iff_of_true (sent_single addr other) (by simp [Short])

/-- Four locos turn round: the buffer is full. -/
theorem sent_iff_dir : (drive [3,647,4,5] (.DIR (-1))).Valid ∧
    ((drive [3,647,4,5] (.DIR (-1))).Sent ↔ (drive [3,647,4,5] (.DIR (-1))).Short) := by
  have valid : (drive [3,647,4,5] (.DIR (-1))).Valid := ⟨by simp,nofun⟩
  exact ⟨valid,sent_iff _ valid⟩

/-- Five locos are to stop. -/
theorem stop_not_sent : ¬∀ request : Request, request.Valid → request.Sent := by
  intro every
  obtain ⟨msg,layout,built,_,sent⟩ := every (drive [3,647,4,5,6] .STOP) ⟨by simp,nofun⟩
  have message : (drive [3,647,4,5,6] .STOP).build = .ok (.struct 16 [(str "list", listNode [3,647,4,5,6])]) := rfl
  have failed : getBinaryMessage protocolTable (.struct 16 [(str "list", listNode [3,647,4,5,6])]) =
      .error .arrayIndexOutOfBounds := rfl
  rw [message] at built
  cases built
  rw [failed] at sent
  cases sent

end Request

end Btcontrol.Java
