import Btcontrol.Protocol

/-! The C++ encoder writes the wire format and the decoder reads it back. Both are
recursions over the layout tree; the decoder's remaining input is arbitrary. -/
namespace Btcontrol

open DataType Bytes FBTCtlMessage

namespace Codec

theorem lookup_writers (messageLayouts : MessageLayouts) (structVal : List (Str × FBTCtlMessage))
    (name : Str) : (writers messageLayouts structVal).lookup name =
      (structVal.lookup name).map (fun value => (value.type, encode messageLayouts value)) := by
  induction structVal with
  | nil => rfl
  | cons first rest ih =>
    obtain ⟨key,value⟩ := first
    simp only [writers,List.lookup_cons]
    split <;> simp [ih]

theorem fits_type (it : MessageLayout) (value : FBTCtlMessage) (fits : Wire.Fits it value) :
    value.type = it.type := by
  cases it
  cases value <;> simp_all [Wire.Fits,FBTCtlMessage.type,MessageLayout.type]

theorem encodeArray_ok (messageLayouts : MessageLayouts) (layout : MessageLayout)
    (arrayVal : List FBTCtlMessage) (bytes : FBTCtlMessage → List UInt8)
    (each : ∀ element ∈ arrayVal, encode messageLayouts element layout = .ok (bytes element)) :
    encodeArray messageLayouts arrayVal layout = .ok (arrayVal.flatMap bytes) := by
  induction arrayVal with
  | nil => rfl
  | cons first rest ih =>
    have tail := ih (fun element member => each element (List.mem_cons_of_mem _ member))
    simp only [encodeArray,each first List.mem_cons_self,tail]
    rfl

/-- The encoder on a node that fits: without fields nothing is looked up, null or not. -/
theorem encode_node (messageLayouts : MessageLayouts) (layout : MessageLayout) (m : FBTCtlMessage)
    (above : STRUCT ≤ m.type) (fit : Wire.FieldsFit layout.childLayouts m.fields) :
    encode messageLayouts m layout = encode messageLayouts (.struct m.type m.fields) layout := by
  rcases Wire.struct_of_type m above with same | ⟨same,bare⟩
  · rw [← same]
  · rw [bare] at fit
    have none := Wire.fieldsFit_nil fit
    have leaf : ¬(m.type = INT ∨ m.type = STRING ∨ m.type = ARRAY) := by
      simp only [INT,STRING,ARRAY,STRUCT] at above ⊢
      omega
    rw [same] at leaf ⊢
    simp only [FBTCtlMessage.type] at leaf
    simp [encode,FBTCtlMessage.type,FBTCtlMessage.fields,leaf,none,writeFields,bind,Except.bind,pure,Except.pure]

mutual
/-- The encoder writes exactly the wire bytes of every fitting field. -/
theorem encode_fits (messageLayouts : MessageLayouts) : (it : MessageLayout) →
    ∀ value, Wire.Fits it value → encode messageLayouts value it = .ok (Wire.fieldBytes it value)
  | .mk type name childLayouts => by
    intro value fits
    cases value with
    | undef => simp [Wire.Fits] at fits
    | int ival => simp [encode,Wire.fieldBytes]
    | string sval =>
      have short : ¬signed32 (sval.length % 2 ^ 32) > 0x10000 := by
        have := fits.2
        simp only [signed32]
        omega
      simp only [encode,short,↓reduceIte,Wire.fieldBytes,List.append_assoc]
    | array arrayVal =>
      obtain ⟨_,_,elements⟩ := fits
      have each := encodeArray_ok messageLayouts (.mk type name childLayouts) arrayVal
        (fun element => le 1 STRUCT ++ Wire.structBytes childLayouts element.fields) (by
          intro element member
          obtain ⟨struct,inner⟩ := elements element member
          rw [encode_node messageLayouts (.mk type name childLayouts) element (Nat.le_of_eq struct.symm) inner,struct]
          simp only [encode,MessageLayout.childLayouts]
          rw [writeFields_fits messageLayouts childLayouts STRUCT element.fields inner]
          rfl)
      simp only [encode,each,Wire.fieldBytes]
      simp [pure,Except.pure,bind,Except.bind]
    | struct => simp [Wire.Fits] at fits
    | null => simp [Wire.Fits] at fits

theorem writeFields_fits (messageLayouts : MessageLayouts) : (layouts : List MessageLayout) →
    ∀ type structVal, Wire.FieldsFit layouts structVal →
      writeFields messageLayouts type (fun name => (writers messageLayouts structVal).lookup name)
        layouts = .ok (Wire.structBytes layouts structVal)
  | [] => by
    intro type structVal _
    rfl
  | it :: rest => by
    intro type structVal fit
    obtain ⟨⟨value,set,fits⟩,others⟩ := fit
    have first := encode_fits messageLayouts it value fits
    have more := writeFields_fits messageLayouts rest type structVal others
    simp only [writeFields,lookup_writers,set,Option.map_some,fits_type it value fits,↓reduceIte,first]
    simp only [lookup_writers] at more
    simp only [more,Wire.structBytes,set,Option.getD_some]
    rfl
end

/-! ### Reading -/

theorem rest_advance (input : InputReader) (front more : List UInt8)
    (located : input.rest = front ++ more) : (input.advance front.length).rest = more := by
  simp only [InputReader.rest,InputReader.advance] at located ⊢
  rw [← List.drop_drop,located,List.drop_left]

theorem advance_advance (input : InputReader) (m n : Nat) :
    (input.advance m).advance n = input.advance (m + n) := by
  simp [InputReader.advance,Nat.add_assoc]

@[simp] theorem advance_zero (input : InputReader) : input.advance 0 = input := rfl

theorem length_of_rest (input : InputReader) (front more : List UInt8)
    (located : input.rest = front ++ more) (nonempty : front ≠ []) :
    input.pos + front.length + more.length = input.data.length := by
  have lengths := congrArg List.length located
  have positive := List.length_pos_iff.mpr nonempty
  simp only [InputReader.rest,List.length_drop,List.length_append] at lengths
  omega

theorem getByte_append (input : InputReader) (byte : UInt8) (more : List UInt8)
    (located : input.rest = byte :: more) : input.getByte = .ok (byte, input.advance 1) := by
  have found : input.data[input.pos]? = some byte := by
    have head := congrArg List.head? located
    simpa [InputReader.rest,List.head?_drop] using head
  simp [InputReader.getByte,found]

/-- A one-byte prefix is read back as the number written, when it fits the byte. -/
theorem getByte_le (input : InputReader) (v : Nat) (more : List UInt8)
    (located : input.rest = le 1 v ++ more) :
    input.getByte = .ok (UInt8.ofNat (v % 256), input.advance 1) :=
  getByte_append input _ more located

theorem byte_toNat (v : Nat) (small : v < 256) : (UInt8.ofNat (v % 256)).toNat = v := by
  simp; omega

theorem getInt_append (input : InputReader) (ival : Int) (more : List UInt8) (fits : Fits32 ival)
    (located : input.rest = le 4 (pattern32 ival) ++ more) :
    input.getInt = .ok (ival, input.advance 4) := by
  have len := length_of_rest input _ more located (by simp [le])
  simp only [le_length] at len
  have room : ¬input.pos + 4 > input.data.length := by omega
  have front : input.rest.take 4 = le 4 (pattern32 ival) := by
    rw [located,List.take_left' (le_length 4 _)]
  simp only [InputReader.getInt,room,↓reduceIte,front,signed32_le ival fits]

theorem getString_append (input : InputReader) (sval more : List UInt8) (short : sval.length ≤ 65535)
    (located : input.rest = le 2 sval.length ++ (sval ++ more)) :
    input.getString = .ok (sval, input.advance (2 + sval.length)) := by
  have low := getByte_append input _ _ (show input.rest =
    UInt8.ofNat (sval.length % 256) :: (le 1 (sval.length / 256) ++ (sval ++ more)) from located)
  have rest1 := rest_advance input [UInt8.ofNat (sval.length % 256)] _ located
  have high := getByte_append (input.advance 1) _ _ rest1
  have rest2 := rest_advance input (le 2 sval.length) _ located
  simp only [le_length] at rest2
  have len := length_of_rest input _ _ located (by simp [le])
  simp only [le_length,List.length_append] at len
  have size : (UInt8.ofNat (sval.length % 256)).toNat +
      256 * (UInt8.ofNat (sval.length / 256 % 256)).toNat = sval.length := by simp; omega
  have room : ¬(input.advance 2).pos + sval.length > (input.advance 2).data.length := by
    simp only [InputReader.advance]; omega
  have taken : (input.advance 2).rest.take sval.length = sval := by rw [rest2,List.take_left]
  simp only [InputReader.getString,low,high,advance_advance,Nat.reduceAdd,bind,Except.bind,size,room,
    ↓reduceIte,taken]

/-- A counted run of elements is read back when each element is. -/
theorem readArray_append (read : InputReader → Except Err (FBTCtlMessage × InputReader))
    (bytes : FBTCtlMessage → List UInt8) (value : FBTCtlMessage → FBTCtlMessage)
    (arrayVal : List FBTCtlMessage)
    (each : ∀ element ∈ arrayVal, ∀ input more, input.rest = bytes element ++ more →
      read input = .ok (value element, input.advance (bytes element).length))
    (input : InputReader) (more : List UInt8) (located : input.rest = arrayVal.flatMap bytes ++ more) :
    readArray read arrayVal.length input =
      .ok (arrayVal.map value, input.advance (arrayVal.flatMap bytes).length) := by
  induction arrayVal generalizing input with
  | nil => rfl
  | cons first rest ih =>
    rw [List.flatMap_cons,List.append_assoc] at located
    have head := each first List.mem_cons_self input _ located
    have tail := ih (fun element member => each element (List.mem_cons_of_mem _ member))
      (input.advance (bytes first).length) (rest_advance input _ _ located)
    simp only [List.length_cons,readArray,head,tail,bind,Except.bind,pure,Except.pure,advance_advance,
      List.flatMap_cons,List.length_append,List.map_cons]

theorem insert_fresh (name : Str) (value : FBTCtlMessage) (structVal : List (Str × FBTCtlMessage))
    (fresh : name ∉ structVal.map Prod.fst) :
    FBTCtlMessage.insert name value structVal = structVal ++ [(name, value)] := by
  induction structVal with
  | nil => rfl
  | cons first rest ih =>
    obtain ⟨key,old⟩ := first
    simp only [List.map_cons,List.mem_cons,not_or] at fresh
    simp [FBTCtlMessage.insert,Ne.symm fresh.1,ih fresh.2]

theorem store_fresh (type : Nat) (name : Str) (value : FBTCtlMessage)
    (structVal : List (Str × FBTCtlMessage)) (struct : STRUCT ≤ type)
    (fresh : name ∉ structVal.map Prod.fst) :
    store type name value structVal = .ok (structVal ++ [(name, value)]) := by
  simp [store,Nat.not_lt.mpr struct,insert_fresh name value structVal fresh]

/-- The tag and payload of one field, read by one turn of the decoder's loop. -/
theorem readFields_cons (it : MessageLayout) (rest : List MessageLayout) (type : Nat)
    (value : FBTCtlMessage) (structVal : List (Str × FBTCtlMessage)) (input : InputReader)
    (more : List UInt8) (struct : STRUCT ≤ type) (fits : Wire.Fits it value)
    (fresh : it.name ∉ structVal.map Prod.fst)
    (located : input.rest = Wire.fieldBytes it value ++ more)
    (elements : ∀ arrayVal, value = .array arrayVal → ∀ element ∈ arrayVal, ∀ input more,
      input.rest = le 1 STRUCT ++ Wire.structBytes it.childLayouts element.fields ++ more →
      readElement it input = .ok (.struct STRUCT (Wire.restrictFields it.childLayouts element.fields),
        input.advance (le 1 STRUCT ++ Wire.structBytes it.childLayouts element.fields).length)) :
    readFields (it :: rest) type structVal input =
      readFields rest type (structVal ++ [(it.name, Wire.restrict it value)])
        (input.advance (Wire.fieldBytes it value).length) := by
  obtain ⟨kind,name,childLayouts⟩ := it
  cases value with
  | undef => simp [Wire.Fits] at fits
  | struct => simp [Wire.Fits] at fits
  | null => simp [Wire.Fits] at fits
  | int ival =>
    obtain ⟨rfl,bound⟩ := fits
    simp only [Wire.fieldBytes,List.append_assoc] at located
    have tag := getByte_le input INT _ located
    have payload := getInt_append (input.advance 1) ival more bound (rest_advance input (le 1 INT) _ located)
    simp only [readFields,tag,payload,MessageLayout.type,MessageLayout.name,bind,Except.bind,
      store_fresh type name _ structVal struct fresh,advance_advance,Wire.fieldBytes,Wire.restrict,
      List.length_append,le_length]
    rfl
  | string sval =>
    obtain ⟨rfl,bound⟩ := fits
    simp only [Wire.fieldBytes,List.append_assoc] at located
    have tag := getByte_le input STRING _ located
    have payload := getString_append (input.advance 1) sval more bound
      (rest_advance input (le 1 STRING) _ located)
    simp only [readFields,tag,payload,MessageLayout.type,MessageLayout.name,bind,Except.bind,
      store_fresh type name _ structVal struct fresh,advance_advance,Wire.fieldBytes,Wire.restrict,
      List.length_append,le_length]
    rfl
  | array arrayVal =>
    obtain ⟨rfl,bound,_⟩ := fits
    simp only [Wire.fieldBytes,List.append_assoc] at located
    have tag := getByte_le input ARRAY _ located
    have at1 := rest_advance input (le 1 ARRAY) _ located
    have count := getByte_le (input.advance 1) arrayVal.length _ at1
    have at2 := rest_advance (input.advance 1) (le 1 arrayVal.length) _ at1
    have run := readArray_append (readElement (.mk ARRAY name childLayouts)) _ _ arrayVal
      (elements arrayVal rfl) _ more at2
    simp only [readFields,tag,count,byte_toNat arrayVal.length (by omega),MessageLayout.type,
      MessageLayout.name,bind,Except.bind,advance_advance,Nat.reduceAdd]
    simp only [advance_advance,le_length,Nat.reduceAdd,MessageLayout.childLayouts] at run
    simp only [run,store_fresh type name _ structVal struct fresh,Wire.fieldBytes,Wire.restrict,
      List.length_append,le_length,← Nat.add_assoc,Nat.reduceAdd]
    rfl

/-- The layout of an array field is a struct layout, and the elements fit it. -/
theorem fits_array {it : MessageLayout} {arrayVal : List FBTCtlMessage} (ok : Wire.FieldOK it)
    (fits : Wire.Fits it (.array arrayVal)) : Wire.StructOK it.childLayouts ∧
      ∀ element ∈ arrayVal, Wire.FieldsFit it.childLayouts element.fields := by
  obtain ⟨kind,name,childLayouts⟩ := it
  obtain ⟨rfl,_,each⟩ := fits
  rcases ok with h | h | ⟨_,_,names,nested⟩
  · simp [ARRAY,INT] at h
  · simp [ARRAY,STRING] at h
  · exact ⟨⟨names,nested⟩,fun element member => (each element member).2⟩

mutual
/-- Every array element is read back, whatever follows it. -/
theorem readElement_bytes : (layout : MessageLayout) → Wire.StructOK layout.childLayouts →
    ∀ structVal, Wire.FieldsFit layout.childLayouts structVal → ∀ input more,
      input.rest = le 1 STRUCT ++ Wire.structBytes layout.childLayouts structVal ++ more →
      readElement layout input = .ok (.struct STRUCT (Wire.restrictFields layout.childLayouts structVal),
        input.advance (le 1 STRUCT ++ Wire.structBytes layout.childLayouts structVal).length)
  | .mk kind name childLayouts => by
    intro ok structVal fit input more located
    rw [List.append_assoc] at located
    have tag := getByte_le input STRUCT _ located
    have body := readFields_bytes childLayouts ok.1 ok.2 STRUCT (Nat.le_refl _) structVal fit []
      (fun _ _ h => nomatch h) (input.advance 1) more (rest_advance input (le 1 STRUCT) _ located)
    have type : (UInt8.ofNat (STRUCT % 256)).toNat = STRUCT := rfl
    simp only [readElement,tag,type,bind,Except.bind,body,advance_advance,List.nil_append,
      MessageLayout.childLayouts,List.length_append,le_length,
      decoded_struct (Nat.le_refl STRUCT) Wire.restrictFields_nil]
    rfl

/-- The decoder's field loop, from any fields already stored under other names. -/
theorem readFields_bytes : (layouts : List MessageLayout) →
    (layouts.map MessageLayout.name).Nodup → Wire.FieldsOK layouts →
    ∀ type, STRUCT ≤ type → ∀ structVal, Wire.FieldsFit layouts structVal → ∀ stored,
      (∀ it ∈ layouts, it.name ∉ stored.map Prod.fst) → ∀ input more,
      input.rest = Wire.structBytes layouts structVal ++ more →
      readFields layouts type stored input = .ok (stored ++ Wire.restrictFields layouts structVal,
        input.advance (Wire.structBytes layouts structVal).length)
  | [] => by
    intro _ _ type _ structVal _ stored _ input more _
    simp [readFields,Wire.restrictFields,Wire.structBytes]
  | it :: rest => by
    intro distinct ok type struct structVal fit stored fresh input more located
    obtain ⟨⟨value,set,fits⟩,others⟩ := fit
    simp only [List.map_cons,List.nodup_cons] at distinct
    simp only [Wire.structBytes,set,Option.getD_some,List.append_assoc] at located
    have inner : ∀ arrayVal, value = .array arrayVal → Wire.StructOK it.childLayouts ∧
        ∀ element ∈ arrayVal, Wire.FieldsFit it.childLayouts element.fields := by
      rintro arrayVal rfl
      exact fits_array ok.1 fits
    have first := readFields_cons it rest type value stored input _ struct fits
      (fresh it List.mem_cons_self) located (by
        intro arrayVal array element member input more located
        exact readElement_bytes it (inner arrayVal array).1 element.fields
          ((inner arrayVal array).2 element member) input more located)
    rw [first]
    have next := readFields_bytes rest distinct.2 ok.2 type struct structVal others
      (stored ++ [(it.name, Wire.restrict it value)]) (by
        intro other member taken
        simp only [List.map_append,List.map_cons,List.map_nil,List.mem_append,List.mem_singleton] at taken
        rcases taken with old | same
        · exact fresh other (List.mem_cons_of_mem _ member) old
        · exact distinct.1 (same ▸ List.mem_map_of_mem member)) _ more (rest_advance input _ _ located)
    rw [next]
    simp [Wire.restrictFields,Wire.structBytes,set,advance_advance]
end

/-! ### Whole messages -/

theorem getBinaryMessage_bytes (messageLayouts : MessageLayouts) (layout : MessageLayout)
    (m : FBTCtlMessage) (found : getMessageLayout messageLayouts m.type = .ok layout)
    (conforms : Wire.Conforms layout m) :
    getBinaryMessage messageLayouts m = .ok (Wire.messageBytes layout m) := by
  obtain ⟨above,_,fit⟩ := conforms
  simp only [getBinaryMessage,found,bind,Except.bind]
  rw [encode_node messageLayouts layout m (Nat.le_of_lt above) fit]
  simp only [encode,writeFields_fits messageLayouts layout.childLayouts m.type m.fields fit]
  rfl

/-- From any position of the reader, the message's bytes are consumed and nothing else. -/
theorem readMessage_bytes (messageLayouts : MessageLayouts) (layout : MessageLayout)
    (m : FBTCtlMessage) (found : getMessageLayout messageLayouts m.type = .ok layout)
    (ok : Wire.StructOK layout.childLayouts) (conforms : Wire.Conforms layout m)
    (input : InputReader) (more : List UInt8)
    (located : input.rest = Wire.messageBytes layout m ++ more) :
    readMessage messageLayouts input =
      .ok (Wire.restrictMessage layout m, input.advance (Wire.messageBytes layout m).length) := by
  obtain ⟨above,small,fit⟩ := conforms
  simp only [Wire.messageBytes,List.append_assoc] at located
  have tag := getByte_le input m.type _ located
  have type := byte_toNat m.type (by omega)
  have body := readFields_bytes layout.childLayouts ok.1 ok.2 m.type (Nat.le_of_lt above) m.fields fit []
    (fun _ _ h => nomatch h) (input.advance 1) more (rest_advance input (le 1 m.type) _ located)
  simp only [readMessage,tag,type,bind,Except.bind,above,↓reduceIte,found,body,advance_advance,
    Wire.restrictMessage,Wire.messageBytes,List.length_append,le_length,List.nil_append,
    decoded_struct (Nat.le_of_lt above) Wire.restrictFields_nil]
  rfl

/-- Encoding a conforming message succeeds, and decoding its bytes, whatever follows
them, gives the message restricted to its layout and stops right behind them. -/
theorem readMessage_getBinaryMessage (messageLayouts : MessageLayouts) (layout : MessageLayout)
    (m : FBTCtlMessage) (further : List UInt8)
    (found : getMessageLayout messageLayouts m.type = .ok layout)
    (ok : Wire.StructOK layout.childLayouts) (conforms : Wire.Conforms layout m) :
    ∃ bytes, getBinaryMessage messageLayouts m = .ok bytes ∧
      readMessage messageLayouts ⟨bytes ++ further, 0⟩ =
        .ok (Wire.restrictMessage layout m, ⟨bytes ++ further, bytes.length⟩) := by
  refine ⟨_,getBinaryMessage_bytes messageLayouts layout m found conforms,?_⟩
  have read := readMessage_bytes messageLayouts layout m found ok conforms
    ⟨Wire.messageBytes layout m ++ further,0⟩ further rfl
  simpa [InputReader.advance] using read

def dirMulti : FBTCtlMessage := .struct 15 [
  (str "list", .array [.struct STRUCT [(str "addr", .int 3)], .struct STRUCT [(str "addr", .int 647)]]),
  (str "extra", .string [0]), (str "dir", .int (-1))]

theorem readMessage_getBinaryMessage_dirMulti :
    ∃ bytes, getBinaryMessage protocolDat dirMulti = .ok bytes ∧
      readMessage protocolDat ⟨bytes ++ [7, 0], 0⟩ =
        .ok (.struct 15 [(str "dir", .int (-1)), (str "list", .array [
          .struct STRUCT [(str "addr", .int 3)], .struct STRUCT [(str "addr", .int 647)]])],
          ⟨bytes ++ [7, 0], bytes.length⟩) := by
  refine readMessage_getBinaryMessage protocolDat
    (.mk 15 [] [intField "dir", arrayField "list" [intField "addr"]]) dirMulti [7,0] rfl ?_ ?_
  · exact ⟨by decide,.inl rfl,.inr (.inr ⟨rfl,nofun,by decide,.inl rfl,trivial⟩),trivial⟩
  · refine ⟨by decide,by decide,⟨_,rfl,rfl,by decide⟩,⟨_,rfl,rfl,by decide,?_⟩,trivial⟩
    intro element member
    simp only [List.mem_cons,List.not_mem_nil,or_false] at member
    rcases member with rfl | rfl <;> exact ⟨rfl,⟨_,rfl,rfl,by decide⟩,trivial⟩

end Codec
end Btcontrol
