import Btcontrol.Framing
import Btcontrol.OneLoco

/-! Which replies reach the peer. The count of an array is one byte and the reader refuses
large messages, while the replies grow with the loco table and the files; and a reply whose
list gets no entry has no list at all. -/
namespace Btcontrol

open DataType Bytes FBTCtlMessage Exec ClientThread

namespace Wire

mutual
/-- No number, length or count that the wire cannot carry. -/
def Carried : FBTCtlMessage → Prop
  | .undef => True
  | .int ival => Fits32 ival
  | .string sval => sval.length ≤ 65535
  | .array arrayVal => arrayVal.length ≤ 255 ∧ CarriedElements arrayVal
  | .struct _ structVal => CarriedFields structVal
  | .null _ => True

def CarriedElements : List FBTCtlMessage → Prop
  | [] => True
  | element :: rest => Carried element ∧ CarriedElements rest

def CarriedFields : List (Str × FBTCtlMessage) → Prop
  | [] => True
  | (_, value) :: rest => Carried value ∧ CarriedFields rest
end

theorem carriedElements_iff (elements : List FBTCtlMessage) :
    CarriedElements elements ↔ ∀ element ∈ elements, Carried element := by
  induction elements with
  | nil => simp [CarriedElements]
  | cons element rest ih => simp [CarriedElements,ih]

theorem carriedFields_insert (name : Str) (value : FBTCtlMessage) (structVal : List (Str × FBTCtlMessage))
    (small : Carried value) (others : CarriedFields structVal) :
    CarriedFields (FBTCtlMessage.insert name value structVal) := by
  induction structVal with
  | nil => exact ⟨small,trivial⟩
  | cons first rest ih =>
    obtain ⟨key,old⟩ := first
    simp only [FBTCtlMessage.insert]
    split
    · exact ⟨small,others.2⟩
    · exact ⟨others.1,ih others.2⟩

end Wire

namespace Codec

open Wire

theorem getInt_carried {input input' : InputReader} {ival : Int} (read : input.getInt = .ok (ival, input')) :
    Fits32 ival := by
  simp only [InputReader.getInt] at read
  split at read
  · cases read
  · cases read
    apply signed32_fits
    have short : (input.rest.take 4).length ≤ 4 := List.length_take_le ..
    calc leValue (input.rest.take 4) < 256 ^ (input.rest.take 4).length := leValue_lt _
      _ ≤ 256 ^ 4 := Nat.pow_le_pow_right (by decide) short
      _ = 2 ^ 32 := by decide

theorem getString_carried {input input' : InputReader} {sval : Str}
    (read : input.getString = .ok (sval, input')) : sval.length ≤ 65535 := by
  obtain ⟨⟨low,input1⟩,_,read⟩ := ok_of_bind read
  obtain ⟨⟨high,input2⟩,_,read⟩ := ok_of_bind read
  dsimp only at read
  split at read
  · cases read
  · cases read
    have := low.toNat_lt
    have := high.toNat_lt
    have := List.length_take_le (low.toNat + 256 * high.toNat) input2.rest
    omega

theorem readArray_carried {read : InputReader → Except Err (FBTCtlMessage × InputReader)}
    (each : ∀ input element input', read input = .ok (element, input') → Carried element)
    (n : Nat) (input input' : InputReader) (elements : List FBTCtlMessage)
    (done : readArray read n input = .ok (elements, input')) :
    elements.length = n ∧ ∀ element ∈ elements, Carried element := by
  induction n generalizing input elements with
  | zero =>
    cases done
    exact ⟨rfl,fun element member => absurd member List.not_mem_nil⟩
  | succ n ih =>
    obtain ⟨⟨head,input1⟩,first,done⟩ := ok_of_bind done
    obtain ⟨⟨tail,input2⟩,later,done⟩ := ok_of_bind done
    cases done
    obtain ⟨length,small⟩ := ih input1 tail later
    refine ⟨by rw [List.length_cons,length],?_⟩
    intro element member
    rcases List.mem_cons.mp member with rfl | rest
    · exact each input _ _ first
    · exact small element rest

theorem store_carried {type : Nat} {name : Str} {value : FBTCtlMessage}
    {structVal stored : List (Str × FBTCtlMessage)} (done : store type name value structVal = .ok stored)
    (small : Carried value) (others : CarriedFields structVal) : CarriedFields stored := by
  simp only [store] at done
  split at done
  · cases done
  · cases done
    exact carriedFields_insert name value structVal small others

theorem decoded_carried {structVal : List (Str × FBTCtlMessage)} (childLayouts : List MessageLayout) (type : Nat)
    (fields : CarriedFields structVal) : Carried (decoded childLayouts type structVal) := by
  unfold decoded
  split
  · split <;> trivial
  · exact fields

mutual
/-- Whatever the decoder returns was carried, under any layout. -/
theorem readElement_carried : (layout : MessageLayout) → ∀ input element input',
    FBTCtlMessage.readElement layout input = .ok (element, input') → Carried element
  | .mk _ _ childLayouts => by
    intro input element input' read
    simp only [FBTCtlMessage.readElement] at read
    obtain ⟨⟨type,input1⟩,_,read⟩ := ok_of_bind read
    obtain ⟨⟨structVal,input2⟩,fields,read⟩ := ok_of_bind read
    cases read
    exact decoded_carried _ _ (readFields_carried childLayouts type.toNat [] input1 structVal input2 trivial fields)

theorem readFields_carried : (layouts : List MessageLayout) → ∀ type stored input structVal input',
    CarriedFields stored → FBTCtlMessage.readFields layouts type stored input = .ok (structVal, input') →
      CarriedFields structVal
  | [] => by
    intro type stored input structVal input' small read
    cases read
    exact small
  | it :: rest => by
    intro type stored input structVal input' small read
    simp only [FBTCtlMessage.readFields] at read
    obtain ⟨⟨tag,input1⟩,_,read⟩ := ok_of_bind read
    dsimp only at read
    split at read
    · cases read
    split at read
    · obtain ⟨⟨ival,input2⟩,payload,read⟩ := ok_of_bind read
      obtain ⟨stored',kept,read⟩ := ok_of_bind read
      exact readFields_carried rest type stored' input2 structVal input'
        (store_carried kept (getInt_carried payload) small) read
    · obtain ⟨⟨sval,input2⟩,payload,read⟩ := ok_of_bind read
      obtain ⟨stored',kept,read⟩ := ok_of_bind read
      exact readFields_carried rest type stored' input2 structVal input'
        (store_carried kept (getString_carried payload) small) read
    · obtain ⟨⟨n,input2⟩,_,read⟩ := ok_of_bind read
      obtain ⟨⟨tmparray,input3⟩,payload,read⟩ := ok_of_bind read
      obtain ⟨stored',kept,read⟩ := ok_of_bind read
      obtain ⟨length,elements⟩ := readArray_carried (readElement_carried it) _ _ _ _ payload
      have short : tmparray.length ≤ 255 := length ▸ Nat.le_of_lt_succ n.toNat_lt
      exact readFields_carried rest type stored' input3 structVal input'
        (store_carried kept ⟨short,(carriedElements_iff _).mpr elements⟩ small) read
    · exact readFields_carried rest type stored input1 structVal input' small read
end

theorem readMessage_carried (messageLayouts : MessageLayouts) (input input' : InputReader) (m : FBTCtlMessage)
    (read : FBTCtlMessage.readMessage messageLayouts input = .ok (m, input')) : Carried m := by
  obtain ⟨⟨type,input1⟩,_,read⟩ := ok_of_bind read
  dsimp only at read
  split at read
  · obtain ⟨layout,_,read⟩ := ok_of_bind read
    obtain ⟨⟨structVal,input2⟩,fields,read⟩ := ok_of_bind read
    cases read
    exact decoded_carried _ _ (readFields_carried _ _ [] _ _ _ trivial fields)
  · cases read

end Codec

namespace CommThread

open Wire

/-- `sendMessage` encodes the message, the encoding is not refused, and however its bytes are
delivered the peer reads the values that were put in. -/
def Delivers (m : FBTCtlMessage) : Prop :=
  ∃ bytes, getBinaryMessage protocolDat m = .ok bytes ∧ bytes.length ≤ MAX_MESSAGE_SIZE ∧
    ∀ so, Delivered so → so.flatten = le 4 bytes.length ++ bytes →
      ∃ so', readMessage protocolDat so = .ok (restricted protocolDat m, so') ∧ so'.flatten = []

theorem delivers_of_conforms {m : FBTCtlMessage} {layout : MessageLayout}
    (found : getMessageLayout protocolDat m.type = .ok layout) (ok : StructOK layout.childLayouts)
    (conforms : Conforms layout m) (small : (messageBytes layout m).length ≤ MAX_MESSAGE_SIZE) : Delivers m := by
  refine ⟨_,Codec.getBinaryMessage_bytes protocolDat layout m found conforms,small,?_⟩
  intro so delivered stream
  obtain ⟨so',read,flat,_⟩ := readMessage_front protocolDat layout m found ok conforms small [] so delivered
    (by rw [List.append_nil]; exact stream)
  refine ⟨so',?_,flat⟩
  rw [read,restricted,found]

/-- What is delivered is what the decoder can return. -/
theorem Delivers.carried {m : FBTCtlMessage} (delivers : Delivers m) : Carried (restricted protocolDat m) := by
  obtain ⟨bytes,_,_,reads⟩ := delivers
  have delivered : Delivered [le 4 bytes.length ++ bytes] := by
    intro piece member
    rw [List.mem_singleton] at member
    rw [member]
    exact List.append_ne_nil_of_left_ne_nil (by simp [le]) _
  obtain ⟨so',read,_⟩ := reads _ delivered (by simp)
  obtain ⟨⟨header,so1⟩,_,read⟩ := ok_of_bind read
  dsimp only at read
  split at read
  · cases read
  · obtain ⟨⟨buffer,so2⟩,_,read⟩ := ok_of_bind read
    obtain ⟨⟨cmd,input⟩,decoded,read⟩ := ok_of_bind read
    cases read
    exact Codec.readMessage_carried _ _ _ _ decoded

/-- Delivered and conforming, the bytes are those of the wire format. -/
theorem Delivers.size {m : FBTCtlMessage} {layout : MessageLayout} (delivers : Delivers m)
    (found : getMessageLayout protocolDat m.type = .ok layout) (conforms : Conforms layout m) :
    (messageBytes layout m).length ≤ MAX_MESSAGE_SIZE := by
  obtain ⟨bytes,encoded,size,_⟩ := delivers
  rw [Codec.getBinaryMessage_bytes protocolDat layout m found conforms] at encoded
  cases encoded
  exact size

/-- A message whose list was never set is not even encoded. -/
theorem not_delivers_unset {type : Nat} {name : Str} {it : MessageLayout} {rest : List MessageLayout}
    (found : getMessageLayout protocolDat type = .ok (.mk type name (it :: rest))) : ¬Delivers (.struct type []) := by
  rintro ⟨bytes,encoded,_⟩
  simp only [getBinaryMessage,FBTCtlMessage.type,found,encode,writers,writeFields,MessageLayout.childLayouts,
    List.lookup,bind,Except.bind] at encoded
  cases named : messageTypeName protocolDat type with
  | error e => simp only [named,reduceCtorEq] at encoded
  | ok struct => simp only [named,reduceCtorEq] at encoded

section Info

variable {type : Nat} {childLayouts : List MessageLayout}
  (found : getMessageLayout protocolDat type = .ok (.mk type [] [.mk ARRAY (str "info") childLayouts]))
  (above : STRUCT < type) (byte : type ≤ 255)
  (childrenOK : childLayouts ≠ [] ∧ (childLayouts.map MessageLayout.name).Nodup ∧ FieldsOK childLayouts)
include found above byte childrenOK

/-- A reply with a list: the count has to fit its byte, each entry its fields, and all of it
the reader's limit. -/
theorem delivers_info (entries : List FBTCtlMessage) (structs : ∀ element ∈ entries, element.type = STRUCT)
    (shaped : ∀ element ∈ entries, CarriedFields (restrictFields childLayouts element.fields) →
      FieldsFit childLayouts element.fields) :
    Delivers (infoReply type entries) ↔ entries.length ≤ 255 ∧
      (∀ element ∈ entries, FieldsFit childLayouts element.fields) ∧
      3 + (entries.map (fun element => 1 + (structBytes childLayouts element.fields).length)).sum ≤
        MAX_MESSAGE_SIZE := by
  have conforms (short : entries.length ≤ 255)
      (fit : ∀ element ∈ entries, FieldsFit childLayouts element.fields) :
      Conforms (.mk type [] [.mk ARRAY (str "info") childLayouts]) (infoReply type entries) := by
    refine ⟨above,byte,⟨.array entries,?_,rfl,short,fun element member => ⟨structs element member,fit element member⟩⟩,trivial⟩
    rfl
  have size : (messageBytes (.mk type [] [.mk ARRAY (str "info") childLayouts]) (infoReply type entries)).length =
      3 + (entries.map (fun element => 1 + (structBytes childLayouts element.fields).length)).sum := by
    simp only [messageBytes,infoReply,FBTCtlMessage.type,FBTCtlMessage.fields,MessageLayout.childLayouts,structBytes,
      MessageLayout.name,List.lookup,beq_self_eq_true,Option.getD_some,fieldBytes,List.length_append,le_length,
      List.append_nil,List.length_flatMap]
    omega
  constructor
  · intro delivers
    have carried := delivers.carried
    have values : restricted protocolDat (infoReply type entries) = .struct type [(str "info",
        .array (entries.map (fun element => .struct STRUCT (restrictFields childLayouts element.fields))))] := by
      rw [restricted,show (infoReply type entries).type = type from rfl,found]
      rfl
    rw [values] at carried
    obtain ⟨⟨short,elements⟩,_⟩ := carried
    rw [List.length_map] at short
    have fit : ∀ element ∈ entries, FieldsFit childLayouts element.fields := by
      intro element member
      exact shaped element member ((carriedElements_iff _).mp elements _ (List.mem_map_of_mem member))
    refine ⟨short,fit,?_⟩
    rw [← size]
    exact delivers.size found (conforms short fit)
  · rintro ⟨short,fit,fits⟩
    refine delivers_of_conforms found ⟨List.nodup_singleton _,.inr (.inr ⟨rfl,childrenOK⟩),trivial⟩ (conforms short fit) ?_
    rw [size]
    exact fits

end Info

end CommThread

/-! The replies with a list. -/

section Entries

open Wire CommThread

theorem functions_fits (l : Lokdef) : Fits32 l.functions := by
  have low := (Lokdef.funcBits 0 l.flagsOn 0#32).le_toInt
  have high := (Lokdef.funcBits 0 l.flagsOn 0#32).toInt_lt
  exact ⟨low,high⟩

def statusFields : List MessageLayout := [intField "addr", intField "speed", intField "functions"]

theorem statusEntry_fit (l : Lokdef) :
    FieldsFit statusFields (statusEntry l).fields ↔ Fits32 l.addr ∧ Fits32 (statusSpeed l) := by
  constructor
  · rintro ⟨⟨_,addr,addrFits⟩,⟨_,speed,speedFits⟩,_⟩
    cases addr
    cases speed
    exact ⟨addrFits.2,speedFits.2⟩
  · rintro ⟨addr,speed⟩
    exact ⟨⟨_,rfl,rfl,addr⟩,⟨_,rfl,rfl,speed⟩,⟨_,rfl,rfl,functions_fits l⟩,trivial⟩

/-- STATUS_REPLY. -/
theorem delivers_status (changed : List Lokdef) (addrs : ∀ l ∈ changed, Fits32 l.addr) :
    Delivers (statusReply (changed.map statusEntry)) ↔
      changed.length ≤ 255 ∧ ∀ l ∈ changed, Fits32 (statusSpeed l) := by
  have each (l : Lokdef) : 1 + (structBytes statusFields (statusEntry l).fields).length = 16 := rfl
  have size : ((changed.map statusEntry).map (fun element => 1 + (structBytes statusFields element.fields).length)).sum =
      16 * changed.length := by
    simp only [List.map_map,Function.comp_def,each,List.map_const',List.sum_replicate,smul_eq_mul,Nat.mul_comm]
  have whole := @delivers_info 8 statusFields rfl (by decide) (by decide)
    ⟨by decide,by decide,.inl rfl,.inl rfl,.inl rfl,trivial⟩ (changed.map statusEntry) (by
      intro element member
      obtain ⟨l,_,rfl⟩ := List.mem_map.mp member
      rfl) (by
      intro element member carried
      obtain ⟨l,_,rfl⟩ := List.mem_map.mp member
      exact (statusEntry_fit l).mpr ⟨carried.1,carried.2.1⟩)
  refine whole.trans ?_
  rw [List.length_map,size]
  constructor
  · rintro ⟨short,fit,_⟩
    refine ⟨short,fun l member => ?_⟩
    exact ((statusEntry_fit l).mp (fit _ (List.mem_map_of_mem member))).2
  · rintro ⟨short,speeds⟩
    refine ⟨short,?_,by simp only [MAX_MESSAGE_SIZE]; omega⟩
    intro element member
    obtain ⟨l,there,rfl⟩ := List.mem_map.mp member
    exact (statusEntry_fit l).mpr ⟨addrs l there,speeds l there⟩

def locoEntry (l : Lokdef) : FBTCtlMessage :=
  .struct STRUCT [(str "addr", .int l.addr), (str "name", .string l.name), (str "imgname", .string l.imgname),
    (str "speed", .int (statusSpeed l)), (str "functions", .int l.functions)]

def locoFields : List MessageLayout :=
  [stringField "name", intField "addr", stringField "imgname", intField "speed", intField "functions"]

def locoSize (l : Lokdef) : Nat := 22 + l.name.length + l.imgname.length

theorem locoEntry_size (l : Lokdef) : 1 + (structBytes locoFields (locoEntry l).fields).length = locoSize l := by
  have bytes : structBytes locoFields (locoEntry l).fields =
      (le 1 STRING ++ (le 2 l.name.length ++ l.name)) ++ ((le 1 INT ++ le 4 (pattern32 l.addr)) ++
      ((le 1 STRING ++ (le 2 l.imgname.length ++ l.imgname)) ++ ((le 1 INT ++ le 4 (pattern32 (statusSpeed l))) ++
      ((le 1 INT ++ le 4 (pattern32 l.functions)) ++ [])))) := rfl
  simp only [bytes,locoSize,List.length_append,le_length,List.length_nil]
  omega

theorem locoEntry_fit (l : Lokdef) : FieldsFit locoFields (locoEntry l).fields ↔
    l.name.length ≤ 65535 ∧ Fits32 l.addr ∧ l.imgname.length ≤ 65535 ∧ Fits32 (statusSpeed l) := by
  constructor
  · rintro ⟨⟨_,name,nameFits⟩,⟨_,addr,addrFits⟩,⟨_,imgname,imgnameFits⟩,⟨_,speed,speedFits⟩,_⟩
    cases name
    cases addr
    cases imgname
    cases speed
    exact ⟨nameFits.2,addrFits.2,imgnameFits.2,speedFits.2⟩
  · rintro ⟨name,addr,imgname,speed⟩
    exact ⟨⟨_,rfl,rfl,name⟩,⟨_,rfl,rfl,addr⟩,⟨_,rfl,rfl,imgname⟩,⟨_,rfl,rfl,speed⟩,
      ⟨_,rfl,rfl,functions_fits l⟩,trivial⟩

/-- GETLOCOS_REPLY with at least one loco. -/
theorem delivers_locos (listed : List Lokdef) (addrs : ∀ l ∈ listed, Fits32 l.addr) :
    Delivers (infoReply 23 (listed.map locoEntry)) ↔ listed.length ≤ 255 ∧
      3 + (listed.map locoSize).sum ≤ MAX_MESSAGE_SIZE ∧ ∀ l ∈ listed, Fits32 (statusSpeed l) := by
  have size : ((listed.map locoEntry).map (fun element => 1 + (structBytes locoFields element.fields).length)).sum =
      (listed.map locoSize).sum := by
    simp only [List.map_map,Function.comp_def,locoEntry_size]
  have whole := @delivers_info 23 locoFields rfl (by decide) (by decide)
    ⟨by decide,by decide,.inr (.inl rfl),.inl rfl,.inr (.inl rfl),.inl rfl,.inl rfl,trivial⟩
    (listed.map locoEntry) (by
      intro element member
      obtain ⟨l,_,rfl⟩ := List.mem_map.mp member
      rfl) (by
      intro element member carried
      obtain ⟨l,_,rfl⟩ := List.mem_map.mp member
      exact (locoEntry_fit l).mpr ⟨carried.1,carried.2.1,carried.2.2.1,carried.2.2.2.1⟩)
  refine whole.trans ?_
  rw [List.length_map,size]
  constructor
  · rintro ⟨short,fit,small⟩
    refine ⟨short,small,fun l member => ?_⟩
    exact ((locoEntry_fit l).mp (fit _ (List.mem_map_of_mem member))).2.2.2
  · rintro ⟨short,small,speeds⟩
    refine ⟨short,?_,small⟩
    intro element member
    obtain ⟨l,there,rfl⟩ := List.mem_map.mp member
    -- one entry is no longer than all of them
    have one := List.single_le_sum (fun _ _ => Nat.zero_le _) _ (List.mem_map_of_mem (f := locoSize) there)
    simp only [locoSize,MAX_MESSAGE_SIZE] at one small
    exact (locoEntry_fit l).mpr ⟨by omega,addrs l there,by omega,speeds l there⟩

def functionEntry (f : Func) : FBTCtlMessage :=
  .struct STRUCT [(str "name", .string f.name), (str "value", .int (if f.ison then 1 else 0)),
    (str "imgname", .string [])]

def functionFields : List MessageLayout := [stringField "name", intField "value", stringField "imgname"]

theorem functionEntry_fit (f : Func) (short : f.name.length ≤ 65535) :
    FieldsFit functionFields (functionEntry f).fields := by
  refine ⟨⟨_,rfl,rfl,short⟩,⟨_,rfl,rfl,?_⟩,⟨_,rfl,rfl,by decide⟩,trivial⟩
  cases f.ison <;> decide

theorem functionEntry_size (f : Func) :
    1 + (structBytes functionFields (functionEntry f).fields).length = 12 + f.name.length := by
  have bytes : structBytes functionFields (functionEntry f).fields =
      (le 1 STRING ++ (le 2 f.name.length ++ f.name)) ++ ((le 1 INT ++ le 4 (pattern32 (if f.ison then 1 else 0))) ++
      ((le 1 STRING ++ (le 2 0 ++ [])) ++ [])) := rfl
  simp only [bytes,List.length_append,le_length,List.length_nil]
  omega

/-- GETFUNCTIONS_REPLY with at least one function: no more of them than a record has, and
with the names the reader of the table leaves, it is always delivered. -/
theorem delivers_functions (listed : List Func) (few : listed.length ≤ MAX_NFUNC)
    (names : ∀ f ∈ listed, f.name.length ≤ 32) : Delivers (infoReply 21 (listed.map functionEntry)) := by
  have size : ((listed.map functionEntry).map
      (fun element => 1 + (structBytes functionFields element.fields).length)).sum ≤ 32 * 44 := by
    simp only [List.map_map,Function.comp_def,functionEntry_size]
    calc (listed.map (fun f => 12 + f.name.length)).sum
        ≤ (listed.map (fun f => 12 + f.name.length)).length • 44 := by
          apply List.sum_le_card_nsmul
          intro n member
          obtain ⟨f,there,rfl⟩ := List.mem_map.mp member
          have := names f there
          omega
      _ ≤ 32 * 44 := by
          rw [List.length_map,smul_eq_mul]
          exact Nat.mul_le_mul_right 44 few
  have fit (f : Func) (member : f ∈ listed) : FieldsFit functionFields (functionEntry f).fields :=
    functionEntry_fit f (by have := names f member; omega)
  refine (@delivers_info 21 functionFields rfl (by decide) (by decide)
    ⟨by decide,by decide,.inr (.inl rfl),.inl rfl,.inr (.inl rfl),trivial⟩ (listed.map functionEntry) ?_ ?_).mpr
    ⟨?_,?_,?_⟩
  · intro element member
    obtain ⟨f,_,rfl⟩ := List.mem_map.mp member
    rfl
  · intro element member _
    obtain ⟨f,there,rfl⟩ := List.mem_map.mp member
    exact fit f there
  · rw [List.length_map]
    simp only [MAX_NFUNC] at few
    omega
  · intro element member
    obtain ⟨f,there,rfl⟩ := List.mem_map.mp member
    exact fit f there
  · simp only [MAX_MESSAGE_SIZE]
    omega

/-- GETIMAGE_REPLY. -/
theorem delivers_image (content : Str) :
    Delivers (.struct 29 [(str "img", .string content)]) ↔ content.length + 4 ≤ MAX_MESSAGE_SIZE := by
  have conforms (short : content.length ≤ 65535) :
      Conforms (.mk 29 [] [stringField "img"]) (.struct 29 [(str "img", .string content)]) :=
    ⟨show STRUCT < 29 by decide,show 29 ≤ 255 by decide,⟨_,rfl,rfl,short⟩,trivial⟩
  have found : getMessageLayout protocolDat 29 = .ok (.mk 29 [] [stringField "img"]) := rfl
  have size : (messageBytes (.mk 29 [] [stringField "img"]) (.struct 29 [(str "img", .string content)])).length =
      content.length + 4 := by
    have bytes : messageBytes (.mk 29 [] [stringField "img"]) (.struct 29 [(str "img", .string content)]) =
        le 1 29 ++ ((le 1 STRING ++ (le 2 content.length ++ content)) ++ []) := rfl
    simp only [bytes,List.length_append,le_length,List.length_nil]
    omega
  constructor
  · intro delivers
    have short : content.length ≤ 65535 := delivers.carried.1
    rw [← size]
    exact delivers.size found (conforms short)
  · intro small
    have limit := small
    simp only [MAX_MESSAGE_SIZE] at limit
    refine delivers_of_conforms found ⟨List.nodup_singleton _,.inr (.inl rfl),trivial⟩ (conforms (by omega)) ?_
    rw [size]
    exact small

end Entries

/-! What the branches build. -/

theorem setInfo_unset {type : Nat} (above : STRUCT < type) (name : String) (value : FBTCtlMessage) :
    setInfo 0 name value (.struct type []) = setInfo 0 name value (infoReply type []) := by
  have allowed : ¬(type < STRUCT) ∧ ¬(STRUCT < STRUCT) := by omega
  simp only [setInfo,infoReply,modifyField,List.lookup,beq_self_eq_true,Option.getD_some,Option.getD_none,modifyIndex,
    setField,FBTCtlMessage.insert,bind,Except.bind,pure,Except.pure,allowed.1,allowed.2,↓reduceIte]
  rfl

theorem locosLoop_reply (lokdef : List Lokdef) (entries : List FBTCtlMessage) :
    locosLoop lokdef entries.length (infoReply 23 entries) =
      .ok (infoReply 23 (entries ++ (locos lokdef).map locoEntry)) := by
  have above : STRUCT < 23 := by decide
  induction lokdef generalizing entries with
  | nil => simp [locosLoop,locos]
  | cons l rest ih =>
    by_cases stop : l.addr = 0
    · simp [locosLoop,stop,locos_end stop]
    · have filled : FBTCtlMessage.insert (str "functions") (.int l.functions)
          (FBTCtlMessage.insert (str "speed") (.int (statusSpeed l))
            (FBTCtlMessage.insert (str "imgname") (.string l.imgname)
              (FBTCtlMessage.insert (str "name") (.string l.name) [(str "addr", .int l.addr)]))) =
          (locoEntry l).fields := rfl
      have more := ih (entries ++ [locoEntry l])
      rw [List.length_append,List.length_singleton] at more
      simp only [locosLoop,stop,↓reduceIte,setInfo_new above,setInfo_more above,bind,Except.bind]
      rw [filled]
      refine more.trans ?_
      rw [locos_cons stop,List.map_cons,List.append_assoc,List.singleton_append]

/-- Without a loco the list is never set. -/
theorem locosLoop_start (lokdef : List Lokdef) :
    locosLoop lokdef 0 (.struct 23 []) = .ok (if locos lokdef = [] then .struct 23 []
      else infoReply 23 ((locos lokdef).map locoEntry)) := by
  cases lokdef with
  | nil => rfl
  | cons l rest =>
    by_cases stop : l.addr = 0
    · simp [locosLoop,stop,locos_end stop]
    · have first : locosLoop (l :: rest) 0 (.struct 23 []) = locosLoop (l :: rest) 0 (infoReply 23 []) := by
        simp only [locosLoop,stop,↓reduceIte,setInfo_unset (show STRUCT < 23 by decide)]
      have some : locos (l :: rest) ≠ [] := by
        rw [locos_cons stop]
        exact List.cons_ne_nil _ _
      rw [first,if_neg some]
      exact locosLoop_reply (l :: rest) []

theorem functionsLoop_reply (listed : List Func) (entries : List FBTCtlMessage) :
    functionsLoop listed entries.length (infoReply 21 entries) =
      .ok (infoReply 21 (entries ++ listed.map functionEntry)) := by
  have above : STRUCT < 21 := by decide
  induction listed generalizing entries with
  | nil => simp [functionsLoop]
  | cons f rest ih =>
    have filled : FBTCtlMessage.insert (str "imgname") (.string [])
        (FBTCtlMessage.insert (str "value") (.int (if f.ison then 1 else 0)) [(str "name", .string f.name)]) =
        (functionEntry f).fields := rfl
    have more := ih (entries ++ [functionEntry f])
    rw [List.length_append,List.length_singleton] at more
    simp only [functionsLoop,setInfo_new above,setInfo_more above,bind,Except.bind]
    rw [filled]
    refine more.trans ?_
    rw [List.map_cons,List.append_assoc,List.singleton_append]

theorem functionsLoop_start (listed : List Func) :
    functionsLoop listed 0 (.struct 21 []) = .ok (if listed = [] then .struct 21 []
      else infoReply 21 (listed.map functionEntry)) := by
  cases listed with
  | nil => rfl
  | cons f rest =>
    have first : functionsLoop (f :: rest) 0 (.struct 21 []) = functionsLoop (f :: rest) 0 (infoReply 21 []) := by
      simp only [functionsLoop,setInfo_unset (show STRUCT < 21 by decide)]
    rw [first,if_neg (List.cons_ne_nil f rest)]
    exact functionsLoop_reply (f :: rest) []

/-! What of it is delivered. -/

/-- GETLOCOS_REPLY of a table. -/
theorem delivers_table (lokdef : List Lokdef) (addrs : ∀ l ∈ locos lokdef, Fits32 l.addr) :
    CommThread.Delivers (if locos lokdef = [] then .struct 23 [] else infoReply 23 ((locos lokdef).map locoEntry)) ↔
      locos lokdef ≠ [] ∧ (locos lokdef).length ≤ 255 ∧
        3 + ((locos lokdef).map locoSize).sum ≤ CommThread.MAX_MESSAGE_SIZE ∧
        ∀ l ∈ locos lokdef, Fits32 (statusSpeed l) := by
  by_cases none : locos lokdef = []
  · rw [if_pos none]
    exact iff_of_false (CommThread.not_delivers_unset rfl) (fun fits => fits.1 none)
  · rw [if_neg none]
    refine (delivers_locos _ addrs).trans ?_
    exact ⟨fun fits => ⟨none,fits⟩,fun fits => fits.2⟩

theorem functions_none (l : Lokdef) : l.func.toList.take l.nFunc.toNat = [] ↔ ¬ 1 ≤ l.nFunc := by
  constructor
  · intro none some
    have length := congrArg List.length none
    rw [List.length_take,Vector.length_toList,List.length_nil,MAX_NFUNC] at length
    omega
  · intro few
    have zero : l.nFunc.toNat = 0 := by omega
    rw [zero,List.take_zero]

/-- GETFUNCTIONS_REPLY of a record. -/
theorem delivers_record (l : Lokdef) (names : ∀ name ∈ (l.func.map Func.name).toList, name.length ≤ 32) :
    CommThread.Delivers (if l.func.toList.take l.nFunc.toNat = [] then .struct 21 []
      else infoReply 21 ((l.func.toList.take l.nFunc.toNat).map functionEntry)) ↔ 1 ≤ l.nFunc := by
  by_cases some : 1 ≤ l.nFunc
  · rw [if_neg (mt (functions_none l).mp (not_not.mpr some))]
    refine iff_of_true (delivers_functions _ ?_ ?_) some
    · exact (List.length_take_le' ..).trans (Nat.le_of_eq l.func.length_toList)
    · intro f member
      refine names f.name ?_
      rw [Vector.toList_map]
      exact List.mem_map_of_mem (List.mem_of_mem_take member)
  · rw [if_pos ((functions_none l).mpr some)]
    exact iff_of_false (CommThread.not_delivers_unset rfl) some

/-! The table along a run. -/

section Run

variable {β : Type} (hardware : Hardware β)

def AllLegible (lokdef : List Lokdef) : Prop := ∀ (i : Nat) (l : Lokdef), lokdef[i]? = some l → l.Legible

theorem AllLegible.records {rel : Lokdef → Lokdef → Prop} {lokdef lokdef' : List Lokdef}
    (legible : AllLegible lokdef) (records : Records rel lokdef lokdef')
    (kept : ∀ l l', rel l l' → l'.addr = l.addr ∧ l'.func.map Func.name = l.func.map Func.name) :
    AllLegible lokdef' := by
  intro i l' there
  obtain ⟨l,here,related⟩ := records.before there
  obtain ⟨addr,names⟩ := kept l l' related
  exact ⟨addr ▸ (legible i l here).addr,names ▸ (legible i l here).names⟩

theorem AllLegible.effect {refused : β → Prop} {g g' : Globals β} (legible : AllLegible g.lokdef)
    (effect : Effect refused g g') : AllLegible g'.lokdef :=
  legible.records effect.records (fun _ _ touched => ⟨touched.addr,congrArg _ touched.func⟩)

theorem step_legible (s : Server β) (label : Label) (legible : AllLegible s.lokdef) :
    AllLegible (Server.step hardware s label).lokdef := by
  cases step_stepped hardware s label with
  | idle same => rw [Server.lokdef,same]; exact legible
  | stopped effect => exact legible.effect effect
  | turn clientID w cmd turn mid commanded effect =>
    refine AllLegible.effect ?_ effect
    cases commanded with
    | quiet records => exact legible.records records (fun _ _ idle => ⟨idle.addr,idle.names⟩)
    | driven command p branch planned made =>
      rw [made]
      intro i l' there
      simp only [writeAll_getElem?] at there
      split at there
      · obtain ⟨l,here,rfl⟩ := Option.map_eq_some_iff.mp there
        have before := legible i l here
        cases p.write <;> exact ⟨before.addr,before.names⟩
      · exact legible i l' there

theorem run_legible (lokdefCsv : Str) (lokdef : List Lokdef) (read : readLokdef lokdefCsv = .ok lokdef)
    (device : β) (labels : List Label) :
    AllLegible (Server.run hardware (Server.start lokdef device) labels).lokdef :=
  Transition.run_always (fun s label legible => step_legible hardware s label legible) labels _
    (fun _ _ there => readLokdef_legible lokdefCsv lokdef read _ (List.mem_of_getElem? there))

end Run

/-! The queries. -/

def imageName (cmd : FBTCtlMessage) : Except Err Str := do (← cmd.field (str "imgname")).getStringVal

/-- A PING, a GETLOCOS, a GETFUNCTIONS for a known address, a GETIMAGE for a file that is there. -/
inductive Query (w : World) (cmd : FBTCtlMessage) (lokdef : List Lokdef) : Command → Prop where
  | PING : Query w cmd lokdef .PING
  | GETLOCOS : Query w cmd lokdef .GETLOCOS
  | GETFUNCTIONS (i : Nat) (known : located lokdef (getInt cmd "addr") = .ok i) : Query w cmd lokdef .GETFUNCTIONS
  | GETIMAGE (name content : Str) (named : imageName cmd = .ok name) (there : image w name = .ok content) :
      Query w cmd lokdef .GETIMAGE

/-- What the table, the last status and the file have to be for the reply to be delivered. -/
def Deliverable (w : World) (cmd : FBTCtlMessage) (lokdef : List Lokdef) (lastStatus : List LastStatus) :
    Command → Prop
  | .PING => (changedLocos lokdef lastStatus).length ≤ 255 ∧
      ∀ l ∈ changedLocos lokdef lastStatus, Fits32 (statusSpeed l)
  | .GETLOCOS => locos lokdef ≠ [] ∧ (locos lokdef).length ≤ 255 ∧
      3 + ((locos lokdef).map locoSize).sum ≤ CommThread.MAX_MESSAGE_SIZE ∧
      ∀ l ∈ locos lokdef, Fits32 (statusSpeed l)
  | .GETFUNCTIONS => ∀ i, located lokdef (getInt cmd "addr") = .ok i → 1 ≤ (lokdef[i]?.getD .zeroed).nFunc
  | .GETIMAGE => ∀ name content, imageName cmd = .ok name → image w name = .ok content →
      content.length + 4 ≤ CommThread.MAX_MESSAGE_SIZE
  | _ => True

/-- The thread has sent one reply, and it is delivered. -/
def ReplyDelivered {β : Type} (outcome : EStateM.Result Err (Ctx β) Unit) : Prop :=
  ∃ c reply, outcome = .ok () c ∧ c.sent = [reply] ∧ CommThread.Delivers reply

section Query

variable {β : Type} (hardware : Hardware β) (clientID : Int) (w : World) (cmd : FBTCtlMessage) (c : Ctx β)

structure Hands (reply : FBTCtlMessage) (outcome : EStateM.Result Err (Ctx β) Bool) : Prop where
  encoded : ∀ bytes, getBinaryMessage protocolDat reply = .ok bytes → ∃ c', outcome = .ok false c' ∧
    c'.sent = c.sent ++ [reply] ∧ c'.changedAddrIndex = c.changedAddrIndex
  thrown : ∀ e, getBinaryMessage protocolDat reply = .error e → ∃ e' c', outcome = .error e' c'

theorem sendMessage_hands (connected : w.connected = true) (reply : FBTCtlMessage) :
    Hands c reply ((do ClientThread.sendMessage w reply; return false : Action β Bool) c) := by
  constructor
  · intro bytes encoded
    refine ⟨{ c with sent := c.sent ++ [reply] },?_,rfl,rfl⟩
    simp only [bind_apply,ClientThread.sendMessage,connected,↓reduceIte,encoded,lift_ok,modify_apply,pure_apply]
  · intro e thrown
    refine ⟨e,c,?_⟩
    simp only [bind_apply,ClientThread.sendMessage,connected,↓reduceIte,thrown,lift_error]

variable {command : Command} {reply : FBTCtlMessage}

/-- What is left of the message after the branch, for a thread without marks. -/
theorem replyDelivered_iff (branch : commandOf w cmd = .ok (some command)) (unmarked : Unmarked c.changedAddrIndex)
    (fresh : c.sent = []) (hands : Hands c reply (execute hardware w cmd (some command) c)) :
    ReplyDelivered (processMessage hardware clientID w cmd c) ↔ CommThread.Delivers reply := by
  cases encoded : getBinaryMessage protocolDat reply with
  | error e =>
    obtain ⟨e',c',thrown⟩ := hands.thrown e encoded
    constructor
    · rintro ⟨c2,other,same,_⟩
      simp only [processMessage,branch,bind_apply,lift_ok,thrown] at same
      cases same
    · rintro ⟨bytes,fine,_⟩
      rw [encoded] at fine
      cases fine
  | ok bytes =>
    obtain ⟨c',returned,sent,marks⟩ := hands.encoded bytes encoded
    have whole : processMessage hardware clientID w cmd c = .ok () c' := by
      simp only [processMessage,branch,bind_apply,lift_ok,returned,get_apply]
      exact hardwareLoop_unmarked hardware clientID _ false c' (fun i _ => marks ▸ unmarked i)
    rw [fresh,List.nil_append] at sent
    constructor
    · rintro ⟨c2,other,same,there,delivers⟩
      rw [whole] at same
      cases same
      rw [sent] at there
      cases there
      exact delivers
    · exact fun delivers => ⟨c',reply,whole,sent,delivers⟩

theorem PING_hands (connected : w.connected = true) :
    Hands c (statusReply ((changedLocos c.lokdef c.lastStatus).map statusEntry))
      (execute hardware w cmd (some .PING) c) := by
  constructor
  · intro bytes _
    refine ⟨{ c with
      lastStatus := nextStatus c.lokdef c.lastStatus
      sent := c.sent ++ [statusReply ((changedLocos c.lokdef c.lastStatus).map statusEntry)] },?_,rfl,rfl⟩
    simp only [execute,PING,bind_apply,sendStatusReply_sent w connected,pure_apply]
  · intro e thrown
    obtain ⟨bytes,encoded⟩ := getBinaryMessage_status (changedLocos c.lokdef c.lastStatus)
    rw [encoded] at thrown
    cases thrown

theorem GETLOCOS_hands (connected : w.connected = true) :
    Hands c (if locos c.lokdef = [] then .struct 23 [] else infoReply 23 ((locos c.lokdef).map locoEntry))
      (execute hardware w cmd (some .GETLOCOS) c) := by
  have named : newMessage "GETLOCOS_REPLY" = .ok (.struct 23 []) := rfl
  have branch (reply : FBTCtlMessage) (built : locosLoop c.lokdef 0 (.struct 23 []) = .ok reply) :
      execute hardware w cmd (some .GETLOCOS) c =
        (do ClientThread.sendMessage w reply; return false : Action β Bool) c := by
    simp only [execute,GETLOCOS,named,bind_apply,lift_ok,get_apply,built]
  rw [branch _ (locosLoop_start _)]
  exact sendMessage_hands w c connected _

theorem GETFUNCTIONS_hands (connected : w.connected = true) (i : Nat)
    (known : located c.lokdef (getInt cmd "addr") = .ok i) :
    Hands c (if (c.lokdef[i]?.getD .zeroed).func.toList.take (c.lokdef[i]?.getD .zeroed).nFunc.toNat = []
        then .struct 21 []
        else infoReply 21 (((c.lokdef[i]?.getD .zeroed).func.toList.take
          (c.lokdef[i]?.getD .zeroed).nFunc.toNat).map functionEntry))
      (execute hardware w cmd (some .GETFUNCTIONS) c) := by
  have named : newMessage "GETFUNCTIONS_REPLY" = .ok (.struct 21 []) := rfl
  have branch (reply : FBTCtlMessage) (built : functionsLoop ((c.lokdef[i]?.getD .zeroed).func.toList.take
      (c.lokdef[i]?.getD .zeroed).nFunc.toNat) 0 (.struct 21 []) = .ok reply) :
      execute hardware w cmd (some .GETFUNCTIONS) c =
        (do ClientThread.sendMessage w reply; return false : Action β Bool) c := by
    simp only [execute,GETFUNCTIONS,bind_apply,addrIndex_apply,known,named,lift_ok,get_apply,built]
  rw [branch _ (functionsLoop_start _)]
  exact sendMessage_hands w c connected _

theorem GETIMAGE_hands (connected : w.connected = true) (name content : Str)
    (named : imageName cmd = .ok name) (there : image w name = .ok content) :
    Hands c (.struct 29 [(str "img", .string content)]) (execute hardware w cmd (some .GETIMAGE) c) := by
  have built : (do setField (str "img") (.string (← image w name)) (← newMessage "GETIMAGE_REPLY")) =
      .ok (.struct 29 [(str "img", .string content)]) := by
    rw [there]
    rfl
  have branch : execute hardware w cmd (some .GETIMAGE) c =
      (do ClientThread.sendMessage w (.struct 29 [(str "img", .string content)]); return false : Action β Bool) c := by
    simp only [imageName] at named
    simp only [execute,GETIMAGE,bind_apply,named,lift_ok,built]
  rw [branch]
  exact sendMessage_hands w c connected _

end Query

theorem locos_record {lokdef : List Lokdef} {l : Lokdef} (member : l ∈ locos lokdef) :
    ∃ i : Nat, lokdef[i]? = some l :=
  List.mem_iff_getElem?.mp ((List.takeWhile_prefix _).subset member)

/-- In every reachable state the reply to a query is built, encoded, short enough and read
back by the peer exactly when the count of its list, its numbers and its size allow it, and
its list has an entry where nothing else sets it. -/
theorem replies_deliverable {β : Type} (hardware : Hardware β) (lokdefCsv : Str) (lokdef : List Lokdef)
    (read : readLokdef lokdefCsv = .ok lokdef) (device : β) (labels : List Label) (clientID : Int)
    (lastStatus : List LastStatus) (changedAddrIndex : List Bool)
    (running : (Server.run hardware (Server.start lokdef device) labels).phaseOf clientID =
      some (.running lastStatus changedAddrIndex))
    (w : World) (connected : w.connected = true) (cmd : FBTCtlMessage) (command : Command)
    (branch : commandOf w cmd = .ok (some command))
    (query : Query w cmd (Server.run hardware (Server.start lokdef device) labels).lokdef command) :
    ReplyDelivered (processMessage hardware clientID w cmd
      ((Server.run hardware (Server.start lokdef device) labels).context lastStatus changedAddrIndex)) ↔
    Deliverable w cmd (Server.run hardware (Server.start lokdef device) labels).lokdef lastStatus command := by
  have ready := (Server.run_ready hardware lokdef device labels).running running
  have legible := run_legible hardware lokdefCsv lokdef read device labels
  generalize Server.run hardware (Server.start lokdef device) labels = s at running query ready legible ⊢
  have delivered {reply : FBTCtlMessage}
      (hands : Hands (s.context lastStatus changedAddrIndex) reply
        (execute hardware w cmd (some command) (s.context lastStatus changedAddrIndex))) :=
    replyDelivered_iff hardware clientID w cmd (s.context lastStatus changedAddrIndex) branch ready.1 rfl hands
  have addrs (l : Lokdef) (member : l ∈ locos s.lokdef) : Fits32 l.addr := by
    obtain ⟨i,there⟩ := locos_record member
    exact (legible i l there).addr
  cases query with
  | PING =>
    refine (delivered (PING_hands hardware w cmd _ connected)).trans ?_
    exact delivers_status _ (fun l member => addrs l (changedLocos_subset _ _ l member))
  | GETLOCOS =>
    refine (delivered (GETLOCOS_hands hardware w cmd _ connected)).trans ?_
    exact delivers_table s.lokdef addrs
  | GETFUNCTIONS i known =>
    refine (delivered (GETFUNCTIONS_hands hardware w cmd _ connected i known)).trans ?_
    rw [Ctx.lokdef,show (s.context lastStatus changedAddrIndex).globals = s.globals from rfl]
    have record : s.lokdef[i]? = some (s.lokdef[i]?.getD .zeroed) := by
      obtain ⟨l,there,_⟩ := (located_record known).2
      rw [there,Option.getD_some]
    have names := (legible i _ record).names
    generalize s.lokdef[i]?.getD .zeroed = l at record names
    have same : Deliverable w cmd s.lokdef lastStatus .GETFUNCTIONS ↔ 1 ≤ l.nFunc := by
      constructor
      · intro fits
        have here := fits i known
        rw [record] at here
        exact here
      · intro some j other
        rw [known] at other
        cases other
        rw [record]
        exact some
    exact (delivers_record l names).trans same.symm
  | GETIMAGE name content named there =>
    refine (delivered (GETIMAGE_hands hardware w cmd _ connected name content named there)).trans ?_
    refine (delivers_image content).trans ?_
    constructor
    · intro small name' content' named' there'
      rw [named] at named'
      cases named'
      rw [there] at there'
      cases there'
      exact small
    · exact fun small => small name content named there

/-- GETLOCOS for a table of two locos. -/
theorem replies_deliverable_locos : ReplyDelivered (processMessage (SRCP_Hardware okSrcpd) 1 online (.struct 22 [])
    (oneClient.context (initialStatus twoLocos) (noneChanged twoLocos))) := by
  refine (replies_deliverable (SRCP_Hardware okSrcpd) twoLocosCsv twoLocos readLokdef_twoLocos {} joined 1
    (initialStatus twoLocos) (noneChanged twoLocos) rfl online rfl (.struct 22 []) .GETLOCOS rfl .GETLOCOS).mpr ?_
  exact ⟨by decide +kernel,by decide +kernel,by decide +kernel,by decide +kernel⟩

/-- A lokdef.csv with a comment only: GETLOCOS ends in an exception. -/
theorem no_locos_undelivered : readLokdef (str "#\n") = .ok [{}] ∧
    (Server.run (SRCP_Hardware okSrcpd) (Server.start [{}] {}) joined).phaseOf 1 =
      some (.running (initialStatus [{}]) (noneChanged [{}])) ∧
    commandOf online (.struct 22 []) = .ok (some .GETLOCOS) ∧
    ¬ReplyDelivered (processMessage (SRCP_Hardware okSrcpd) 1 online (.struct 22 [])
      ((Server.run (SRCP_Hardware okSrcpd) (Server.start [{}] {}) joined).context
        (initialStatus [{}]) (noneChanged [{}]))) := by
  refine ⟨rfl,rfl,rfl,?_⟩
  have thrown : ∃ e c, processMessage (SRCP_Hardware okSrcpd) 1 online (.struct 22 [])
      ((Server.run (SRCP_Hardware okSrcpd) (Server.start [{}] {}) joined).context
        (initialStatus [{}]) (noneChanged [{}])) = .error e c := ⟨_,_,rfl⟩
  obtain ⟨e,c,thrown⟩ := thrown
  rintro ⟨c',reply,returned,_⟩
  rw [thrown] at returned
  cases returned

end Btcontrol
