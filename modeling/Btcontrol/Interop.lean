import Btcontrol.Codec
import Btcontrol.Java

/-! The Java codec writes and reads the same wire format as the C++ one, each against its own
form of the layout tree. The writers are compared byte by byte, overflow of the Java buffer
included; the readers by the value of what they have read. -/
namespace Btcontrol.Java

open DataType Bytes

/-! ### Tables -/

theorem lookup_map_snd {κ ν μ : Type} [BEq κ] (f : ν → μ) (entries : List (κ × ν)) (key : κ) :
    (entries.map (fun entry => (entry.1, f entry.2))).lookup key = (entries.lookup key).map f := by
  induction entries with
  | nil => rfl
  | cons first rest ih =>
    obtain ⟨other,old⟩ := first
    simp only [List.map_cons,List.lookup_cons]
    cases key == other with
    | false => exact ih
    | true => rfl

theorem lookup_fresh {κ ν : Type} [BEq κ] [LawfulBEq κ] {key : κ} {entries : List (κ × ν)}
    (fresh : key ∉ entries.map Prod.fst) : entries.lookup key = none := by
  rw [List.lookup_eq_none_iff]
  rintro ⟨other,value⟩ member
  rw [bne_iff_ne]
  rintro rfl
  exact fresh (List.mem_map_of_mem member)

theorem put_fresh {κ ν : Type} [DecidableEq κ] (key : κ) (value : ν) (entries : List (κ × ν))
    (fresh : key ∉ entries.map Prod.fst) : put key value entries = entries ++ [(key, value)] := by
  induction entries with
  | nil => rfl
  | cons first rest ih =>
    simp only [List.map_cons,List.mem_cons,not_or] at fresh
    simp [put,Ne.symm fresh.1,ih fresh.2]

/-- Looking up the keys in their order gives the values in theirs. -/
theorem map_lookup_keys {κ ν : Type} [BEq κ] [LawfulBEq κ] (entries : List (κ × ν)) (default : ν)
    (distinct : (entries.map Prod.fst).Nodup) :
    (entries.map Prod.fst).map (fun key => (entries.lookup key).getD default) =
      entries.map Prod.snd := by
  induction entries with
  | nil => rfl
  | cons first rest ih =>
    obtain ⟨key,value⟩ := first
    simp only [List.map_cons,List.nodup_cons] at distinct ⊢
    rw [List.lookup_cons_self,Option.getD_some,← ih distinct.2]
    refine congrArg (value :: ·) (List.map_congr_left (fun other member => ?_))
    have apart : (other == key) = false := by
      simp only [beq_eq_false_iff_ne]
      rintro rfl
      exact distinct.1 member
    simp only [List.lookup_cons,apart]

theorem fieldWriters_eq (arrayVal : List (Str × FBTCtlMessage)) :
    fieldWriters arrayVal = arrayVal.map (fun entry => (entry.1, (entry.2.type, encode entry.2))) := by
  induction arrayVal with
  | nil => simp [fieldWriters]
  | cons first rest ih => simp [fieldWriters,ih]

theorem elementWriters_eq (arrayVal : List (Nat × FBTCtlMessage)) :
    elementWriters arrayVal = arrayVal.map (fun entry => (entry.1, (entry.2.type, encode entry.2))) := by
  induction arrayVal with
  | nil => simp [elementWriters]
  | cons first rest ih => simp [elementWriters,ih]

theorem fieldValues_eq (arrayVal : List (Str × FBTCtlMessage)) :
    fieldValues arrayVal = arrayVal.map (fun entry => (entry.1, value entry.2)) := by
  induction arrayVal with
  | nil => simp [fieldValues]
  | cons first rest ih => simp [fieldValues,ih]

theorem elementValues_eq (arrayVal : List (Nat × FBTCtlMessage)) :
    elementValues arrayVal = arrayVal.map (fun entry => (entry.1, value entry.2)) := by
  induction arrayVal with
  | nil => simp [elementValues]
  | cons first rest ih => simp [elementValues,ih]

/-! ### Writing -/

namespace OutputWriter

def putAll (bytes : List UInt8) (out : OutputWriter) : Except Err OutputWriter :=
  bytes.foldlM (fun out byte => store byte out) out

theorem putAll_append (front back : List UInt8) (out : OutputWriter) :
    putAll (front ++ back) out = putAll front out >>= putAll back := by
  simp only [putAll,List.foldlM_append]
  rfl

theorem putAll_fits (bytes : List UInt8) (out : OutputWriter)
    (room : out.ret.length + bytes.length ≤ avail) : putAll bytes out = .ok ⟨out.ret ++ bytes⟩ := by
  induction bytes generalizing out with
  | nil => simp [putAll,pure,Except.pure]
  | cons byte rest ih =>
    simp only [List.length_cons] at room
    have free : out.ret.length < avail := by omega
    have next := ih ⟨out.ret ++ [byte]⟩ (by simp only [List.length_append,List.length_cons,List.length_nil]; omega)
    have first : putAll (byte :: rest) out = putAll rest ⟨out.ret ++ [byte]⟩ := by
      simp only [putAll,List.foldlM_cons,store,free,↓reduceIte]
      rfl
    rw [first,next]
    simp

/-- The only way a write fails. -/
theorem putAll_error (bytes : List UInt8) (out : OutputWriter) (e : Err)
    (failed : putAll bytes out = .error e) : e = .arrayIndexOutOfBounds := by
  induction bytes generalizing out with
  | nil => contradiction
  | cons byte rest ih =>
    simp only [putAll,List.foldlM_cons,store] at failed
    split at failed
    · exact ih _ failed
    · cases failed
      rfl

theorem toByte_natCast (n : Nat) : toByte n = UInt8.ofNat (n % 256) := by
  simp only [toByte]
  congr 1

theorem putByte_eq (n : Nat) (out : OutputWriter) : putByte n out = putAll (le 1 n) out := by
  simp only [putByte,toByte_natCast,putAll,le,List.foldlM_cons,List.foldlM_nil]
  cases store (UInt8.ofNat (n % 256)) out <;> rfl

theorem le_pattern32 (i : Int) :
    le 4 (pattern32 i) =
      [toByte i,toByte (i >>> (8 : Nat)),toByte (i >>> (16 : Nat)),toByte (i >>> (24 : Nat))] := by
  simp only [le,toByte,pattern32,Int.shiftRight_eq_div_pow]
  refine List.cons_eq_cons.mpr ⟨congrArg _ (by omega),List.cons_eq_cons.mpr ⟨congrArg _ (by omega),
    List.cons_eq_cons.mpr ⟨congrArg _ (by omega),List.cons_eq_cons.mpr ⟨congrArg _ (by omega),rfl⟩⟩⟩⟩

theorem putInt_eq (i : Int) (out : OutputWriter) : putInt i out = putAll (le 4 (pattern32 i)) out := by
  rw [le_pattern32]
  simp only [putInt,putAll,List.foldlM_cons,List.foldlM_nil]
  simp

/-- A loop that writes some bytes in each round. -/
theorem foldlM_putAll {ι : Type} (write : OutputWriter → ι → Except Err OutputWriter)
    (bytes : ι → List UInt8) (indices : List ι) (out : OutputWriter)
    (each : ∀ i ∈ indices, ∀ out, write out i = putAll (bytes i) out) :
    indices.foldlM write out = putAll (indices.flatMap bytes) out := by
  induction indices generalizing out with
  | nil => rfl
  | cons first rest ih =>
    rw [List.foldlM_cons,each first List.mem_cons_self,List.flatMap_cons,putAll_append]
    cases putAll (bytes first) out with
    | error e => rfl
    | ok next => exact ih next (fun i member => each i (List.mem_cons_of_mem _ member))

/-- The bytes of a slice, one by one. -/
theorem flatMap_slice (buffer : List UInt8) (off len : Nat) (inside : off + len ≤ buffer.length) :
    (List.range len).flatMap (fun i => (buffer[i + off]?).toList) = (buffer.drop off).take len := by
  induction len with
  | zero => simp
  | succ len ih =>
    have here : len + off < buffer.length := by omega
    rw [List.range_succ,List.flatMap_append,ih (by omega),List.take_add_one]
    simp [List.getElem?_drop,Nat.add_comm]

theorem putString_eq (buffer : List UInt8) (off len : Nat) (inside : off + len ≤ buffer.length)
    (out : OutputWriter) :
    putString buffer off len out = putAll (le 2 len ++ (buffer.drop off).take len) out := by
  have prefixed : le 2 len = le 1 (len &&& 0xff) ++ le 1 (len >>> 8) := by
    simp [le,Nat.shiftRight_eq_div_pow,Nat.and_two_pow_sub_one_eq_mod len 8]
  rw [prefixed,List.append_assoc,putAll_append]
  simp only [putString,putByte_eq]
  refine congrArg _ (funext fun out => ?_)
  rw [putAll_append]
  refine congrArg _ (funext fun out => ?_)
  refine Eq.trans (foldlM_putAll _ (fun i => (buffer[i + off]?).toList) _ _ ?_)
    (by rw [flatMap_slice buffer off len inside])
  intro i member out
  have here : i + off < buffer.length := by
    have := List.mem_range.mp member
    omega
  simp only [List.getElem?_eq_getElem here,Option.toList_some]
  simp [putAll]

theorem catchNull_putAll (name : Str) (bytes : List UInt8) (out : OutputWriter) :
    catchNull name (putAll bytes out) = putAll bytes out := by
  cases written : putAll bytes out with
  | ok next => rfl
  | error e =>
    rw [putAll_error bytes out e written]
    rfl

end OutputWriter

open OutputWriter

theorem layout_type (it : MessageLayout) : (layout it).type = it.type := by
  cases it
  simp [layout,MessageLayout.type]

theorem layout_name (it : MessageLayout) : (layout it).name = it.name := by
  cases it
  simp [layout,MessageLayout.name]

/-- A node from STRUCT on stands for a struct. -/
theorem value_struct {type : Nat} (struct : STRUCT ≤ type) (arrayVal : List (Str × FBTCtlMessage)) :
    value (.struct type arrayVal) = .struct type (fieldValues arrayVal) := by
  simp only [value]
  exact Btcontrol.FBTCtlMessage.decoded_struct struct (fun _ => rfl)

/-- No field is a struct. -/
theorem node_unfit (it : MessageLayout) (type : Nat) (arrayVal : List (Str × FBTCtlMessage)) :
    ¬Wire.Fits it (value (.struct type arrayVal)) := by
  cases it
  simp only [value,Btcontrol.FBTCtlMessage.decoded]
  split
  · split <;> simp [Wire.Fits]
  · simp [Wire.Fits]

/-- A fitting value comes from a node of its own type. -/
theorem fits_node (it : MessageLayout) (m : FBTCtlMessage) (fits : Wire.Fits it (value m)) :
    m.type = it.type := by
  rw [← Codec.fits_type it (value m) fits]
  cases m with
  | string buffer ival slen =>
    simp only [value] at fits ⊢
    split at fits
    · rename_i inside
      simp [inside,FBTCtlMessage.type,Btcontrol.FBTCtlMessage.type]
    · cases it
      simp [Wire.Fits] at fits
  | undef => simp [value,FBTCtlMessage.type,Btcontrol.FBTCtlMessage.type]
  | int ival => simp [value,FBTCtlMessage.type,Btcontrol.FBTCtlMessage.type]
  | array arrayVal => simp [value,FBTCtlMessage.type,Btcontrol.FBTCtlMessage.type]
  | struct type arrayVal => simp [value,FBTCtlMessage.type]

/-- A node whose value is a struct is one itself. -/
theorem struct_of_value (m : FBTCtlMessage) (struct : STRUCT ≤ (value m).type) :
    ∃ arrayVal, m = .struct (value m).type arrayVal := by
  cases m with
  | struct type arrayVal => exact ⟨arrayVal,by simp [value]⟩
  | string buffer ival slen =>
    simp only [value] at struct
    split at struct <;> simp [Btcontrol.FBTCtlMessage.type,UNDEF,STRING,STRUCT] at struct
  | undef => simp [value,Btcontrol.FBTCtlMessage.type,UNDEF,STRUCT] at struct
  | int ival => simp [value,Btcontrol.FBTCtlMessage.type,INT,STRUCT] at struct
  | array arrayVal => simp [value,Btcontrol.FBTCtlMessage.type,ARRAY,STRUCT] at struct

/-- The element at an index of an array whose values are all structs. -/
theorem element_of_value {arrayVal : List (Nat × FBTCtlMessage)} {i : Nat}
    (struct : (((elementValues arrayVal).lookup i).getD .undef).type = STRUCT) :
    ∃ fields, arrayVal.lookup i = some (.struct STRUCT fields) ∧
      ((elementValues arrayVal).lookup i).getD .undef = .struct STRUCT (fieldValues fields) := by
  rw [elementValues_eq,lookup_map_snd] at struct ⊢
  cases found : arrayVal.lookup i with
  | none => simp [found,Btcontrol.FBTCtlMessage.type,UNDEF,STRUCT] at struct
  | some m =>
    simp only [found,Option.map_some,Option.getD_some] at struct ⊢
    obtain ⟨fields,node⟩ := struct_of_value m (Nat.le_of_eq struct.symm)
    rw [struct] at node
    subst node
    exact ⟨fields,rfl,value_struct (Nat.le_refl STRUCT) fields⟩

/-- An array whose elements each write some bytes. -/
theorem encode_array (name : Str) (childLayouts : List MessageLayout) (arrayVal : List (Nat × FBTCtlMessage))
    (bytes : Nat → List UInt8)
    (each : ∀ i ∈ List.range arrayVal.length, ∃ node, arrayVal.lookup i = some node ∧
      ∀ out, encode node (.mk STRUCT [] (layouts childLayouts)) out = putAll (bytes i) out)
    (out : OutputWriter) :
    encode (.array arrayVal) (layout (.mk ARRAY name childLayouts)) out =
      putAll (le 1 ARRAY ++ (le 1 arrayVal.length ++ (List.range arrayVal.length).flatMap bytes)) out := by
  simp only [encode,layout,↓reduceIte,MessageLayout.childLayouts,firstElement]
  rw [putAll_append,putByte_eq]
  refine congrArg _ (funext fun out => ?_)
  rw [putAll_append,putByte_eq]
  refine congrArg _ (funext fun out => ?_)
  refine foldlM_putAll _ _ _ out (fun i member out => ?_)
  obtain ⟨node,found,written⟩ := each i member
  have writer : (elementWriters arrayVal).lookup i = some (node.type, encode node) := by
    rw [elementWriters_eq,lookup_map_snd (fun m => (m.type, encode m)),found]
    rfl
  simp only [writer,written]

/-- A struct element that writes the bytes of its fields. -/
theorem encode_struct (type : Nat) (childLayouts : List MessageLayout) (arrayVal : List (Str × FBTCtlMessage))
    (fields : ∀ out, writeFields (fun name => (fieldWriters arrayVal).lookup name) (layouts childLayouts) out =
      putAll (Wire.structBytes childLayouts (fieldValues arrayVal)) out)
    (number : Nat) (name : Str) (out : OutputWriter) :
    encode (.struct type arrayVal) (.mk number name (layouts childLayouts)) out =
      putAll (le 1 type ++ Wire.structBytes childLayouts (fieldValues arrayVal)) out := by
  simp only [encode,MessageLayout.childLayouts]
  rw [putAll_append,putByte_eq]
  exact congrArg _ (funext fields)

/-- An array of structs, each with every field set to a fitting value; its length is free. -/
theorem encode_elements (name : Str) {childLayouts : List MessageLayout}
    (written : ∀ fields, Wire.FieldsFit childLayouts (fieldValues fields) → ∀ out,
      writeFields (fun name => (fieldWriters fields).lookup name) (layouts childLayouts) out =
        putAll (Wire.structBytes childLayouts (fieldValues fields)) out)
    {arrayVal : List (Nat × FBTCtlMessage)}
    (elements : ∀ i ∈ List.range arrayVal.length,
      (((elementValues arrayVal).lookup i).getD .undef).type = STRUCT ∧
        Wire.FieldsFit childLayouts (((elementValues arrayVal).lookup i).getD .undef).fields)
    (out : OutputWriter) :
    encode (.array arrayVal) (layout (.mk ARRAY name childLayouts)) out =
      putAll (Wire.fieldBytes (.mk ARRAY name childLayouts) (value (.array arrayVal))) out := by
  simp only [value,Wire.fieldBytes,List.length_map,List.length_range,List.flatMap_map]
  apply encode_array
  intro i member
  obtain ⟨struct,inner⟩ := elements i member
  obtain ⟨fields,found,same⟩ := element_of_value struct
  rw [same] at inner ⊢
  exact ⟨_,found,encode_struct STRUCT childLayouts fields (written fields inner) STRUCT []⟩

/-- One turn of the loop over the fields. -/
theorem writeFields_turn {it : MessageLayout} {rest : List MessageLayout}
    {arrayVal : List (Str × FBTCtlMessage)} {m : FBTCtlMessage} (node : arrayVal.lookup it.name = some m)
    (typed : m.type = it.type)
    (first : ∀ out, encode m (layout it) out = putAll (Wire.fieldBytes it (value m)) out)
    (more : ∀ out, writeFields (fun name => (fieldWriters arrayVal).lookup name) (layouts rest) out =
      putAll (Wire.structBytes rest (fieldValues arrayVal)) out) (out : OutputWriter) :
    writeFields (fun name => (fieldWriters arrayVal).lookup name) (layouts (it :: rest)) out =
      putAll (Wire.structBytes (it :: rest) (fieldValues arrayVal)) out := by
  have writer : (fieldWriters arrayVal).lookup it.name = some (m.type, encode m) := by
    rw [fieldWriters_eq,lookup_map_snd (fun m => (m.type, encode m)),node]
    rfl
  have found : (fieldValues arrayVal).lookup it.name = some (value m) := by
    rw [fieldValues_eq,lookup_map_snd,node]
    rfl
  simp only [layouts,writeFields,layout_name,layout_type,writer,typed,ne_eq,not_true_eq_false,↓reduceIte,
    first,catchNull_putAll,Wire.structBytes,found,Option.getD_some]
  rw [putAll_append]
  exact congrArg _ (funext more)

mutual
/-- The Java encoder writes exactly the wire bytes of every fitting field, as far as the
buffer goes. -/
theorem encode_fits : (it : MessageLayout) → ∀ m, Wire.Fits it (value m) → ∀ out,
    encode m (layout it) out = putAll (Wire.fieldBytes it (value m)) out
  | .mk type name childLayouts => by
    intro m fits out
    cases m with
    | undef => simp [value,Wire.Fits] at fits
    | struct => exact absurd fits (node_unfit _ _ _)
    | int ival =>
      simp only [value,Wire.fieldBytes,encode,putAll_append,putByte_eq]
      exact congrArg _ (funext fun out => putInt_eq ival out)
    | string buffer ival slen =>
      simp only [value] at fits ⊢
      split at fits
      · rename_i inside
        have size : ((buffer.drop ival).take slen).length = slen := by
          rw [List.length_take,List.length_drop]
          omega
        rw [if_pos inside]
        simp only [Wire.fieldBytes,encode,size]
        rw [putAll_append,putByte_eq]
        exact congrArg _ (funext fun out => putString_eq buffer ival slen inside out)
      · simp [Wire.Fits] at fits
    | array arrayVal =>
      simp only [value,Wire.Fits] at fits
      obtain ⟨rfl,_,elements⟩ := fits
      exact encode_elements name (writeFields_fits childLayouts)
        (fun i member => elements _ (List.mem_map_of_mem member)) out

theorem writeFields_fits : (childLayouts : List MessageLayout) → ∀ arrayVal,
    Wire.FieldsFit childLayouts (fieldValues arrayVal) → ∀ out,
    writeFields (fun name => (fieldWriters arrayVal).lookup name) (layouts childLayouts) out =
      putAll (Wire.structBytes childLayouts (fieldValues arrayVal)) out
  | [] => by
    intro arrayVal _ out
    rfl
  | it :: rest => by
    intro arrayVal fit
    obtain ⟨⟨set,found,fits⟩,others⟩ := fit
    rw [fieldValues_eq,lookup_map_snd] at found
    obtain ⟨m,node,rfl⟩ := Option.map_eq_some_iff.mp found
    exact writeFields_turn node (fits_node it m fits) (encode_fits it m fits)
      (writeFields_fits rest arrayVal others)
end

/-! ### Reading -/

namespace InputReader

def skip (input : InputReader) (n : Nat) : InputReader := { input with pos := input.pos + n }

theorem rest_skip (input : InputReader) (front more : List UInt8)
    (located : input.rest = front ++ more) : (input.skip front.length).rest = more :=
  Codec.rest_advance input.toInputReader front more located

theorem getByte_append (input : InputReader) (byte : UInt8) (more : List UInt8)
    (located : input.rest = byte :: more) : input.getByte = .ok (byte.toNat, input.skip 1) := by
  have found : input.data[input.pos]? = some byte := by
    have head := congrArg List.head? located
    simpa [Btcontrol.InputReader.rest,List.head?_drop] using head
  simp [getByte,found,skip]

theorem getByte_le (input : InputReader) (v : Nat) (more : List UInt8) (small : v < 256)
    (located : input.rest = le 1 v ++ more) : input.getByte = .ok (v, input.skip 1) := by
  rw [getByte_append input _ more located,Codec.byte_toNat v small]

/-- A shifted byte above the others adds its own bits only. -/
theorem or_shiftLeft (low high i : Nat) (below : low < 2 ^ i) : low ||| high <<< i = low + high * 2 ^ i := by
  rw [Nat.or_comm,← Nat.shiftLeft_add_eq_or_of_lt below,Nat.shiftLeft_eq,Nat.add_comm]

theorem getInt_append (input : InputReader) (ival : Int) (more : List UInt8) (fits : Fits32 ival)
    (located : input.rest = le 4 (pattern32 ival) ++ more) :
    input.getInt = .ok (ival, input.skip 4) := by
  have value := signed32_le ival fits
  obtain ⟨b0,b1,b2,b3,bytes⟩ : ∃ b0 b1 b2 b3, le 4 (pattern32 ival) = [b0,b1,b2,b3] := ⟨_,_,_,_,rfl⟩
  rw [bytes] at located value
  have first := getByte_append input b0 _ located
  have at1 := rest_skip input [b0] _ located
  have second := getByte_append (input.skip 1) b1 _ at1
  have at2 := rest_skip (input.skip 1) [b1] _ at1
  have third := getByte_append ((input.skip 1).skip 1) b2 _ at2
  have at3 := rest_skip ((input.skip 1).skip 1) [b2] _ at2
  have fourth := getByte_append (((input.skip 1).skip 1).skip 1) b3 more at3
  have joined : b0.toNat ||| b1.toNat <<< 8 ||| b2.toNat <<< 16 ||| b3.toNat <<< 24 = leValue [b0,b1,b2,b3] := by
    have h0 := b0.toNat_lt
    have h1 := b1.toNat_lt
    have h2 := b2.toNat_lt
    rw [or_shiftLeft _ _ 8 (by omega),or_shiftLeft _ _ 16 (by omega),or_shiftLeft _ _ 24 (by omega)]
    simp only [leValue]
    omega
  simp only [getInt,first,second,third,fourth,bind,Except.bind,pure,Except.pure,joined,value]
  rfl

theorem getStrOff_append (input : InputReader) (len : Nat) (more : List UInt8) (short : len ≤ 65535)
    (located : input.rest = le 2 len ++ more) :
    input.getStrOff = .ok (input.pos + 2, { input.skip 2 with lastLen := len }) := by
  have first := getByte_append input _ _ located
  have at1 := rest_skip input (le 1 len) _ located
  have second := getByte_append (input.skip 1) _ _ at1
  have joined : (UInt8.ofNat (len % 256)).toNat ||| (UInt8.ofNat (len / 256 % 256)).toNat <<< 8 = len := by
    have low : (UInt8.ofNat (len % 256)).toNat = len % 256 := by simp
    have high : (UInt8.ofNat (len / 256 % 256)).toNat = len / 256 := Codec.byte_toNat _ (by omega)
    rw [low,high,or_shiftLeft _ _ 8 (by omega)]
    omega
  simp only [getStrOff,first,second,bind,Except.bind,pure,Except.pure,joined]
  rfl

end InputReader

/-- The result of a read: `len` bytes further on, and what was read meets `p`. -/
def Reads {ρ : Type} (result : Except Err (ρ × InputReader)) (input : InputReader) (len : Nat)
    (p : ρ → Prop) : Prop :=
  ∃ read next, result = .ok (read, next) ∧ next.toInputReader = input.toInputReader.advance len ∧ p read

/-- A counted run of elements, stored under the indices from `i` on. -/
theorem readArray_append (read : InputReader → Except Err (FBTCtlMessage × InputReader))
    (bytes : Btcontrol.FBTCtlMessage → List UInt8)
    (restricted : Btcontrol.FBTCtlMessage → Btcontrol.FBTCtlMessage)
    (elements : List Btcontrol.FBTCtlMessage)
    (each : ∀ element ∈ elements, ∀ input more, input.rest = bytes element ++ more →
      Reads (read input) input (bytes element).length (fun m => value m = restricted element))
    (i : Nat) (stored : List (Nat × FBTCtlMessage)) (below : ∀ key ∈ stored.map Prod.fst, key < i)
    (input : InputReader) (more : List UInt8) (located : input.rest = elements.flatMap bytes ++ more) :
    Reads (readArray read elements.length i stored input) input (elements.flatMap bytes).length
      (fun arrayVal => ∃ entries, arrayVal = stored ++ entries ∧
        entries.map Prod.fst = List.range' i elements.length ∧
        entries.map (fun entry => value entry.2) = elements.map restricted) := by
  induction elements generalizing i stored input with
  | nil => exact ⟨stored,input,rfl,rfl,[],by simp⟩
  | cons first rest ih =>
    rw [List.flatMap_cons,List.append_assoc] at located
    obtain ⟨m,next,ran,position,same⟩ := each first List.mem_cons_self input _ located
    have at1 : next.rest = rest.flatMap bytes ++ more := by
      rw [position]
      exact Codec.rest_advance _ _ _ located
    have fresh : i ∉ stored.map Prod.fst := fun member => Nat.lt_irrefl i (below i member)
    obtain ⟨arrayVal,last,ran',position',entries,split,keys,values⟩ :=
      ih (fun element member => each element (List.mem_cons_of_mem _ member)) (i + 1)
        (stored ++ [(i, m)]) (by
          intro key member
          simp only [List.map_append,List.map_cons,List.map_nil,List.mem_append,List.mem_singleton] at member
          rcases member with old | rfl
          · exact Nat.lt_succ_of_lt (below key old)
          · exact Nat.lt_succ_self _) next at1
    refine ⟨arrayVal,last,?_,?_,(i, m) :: entries,?_,?_,?_⟩
    · simp only [List.length_cons,readArray,ran,bind,Except.bind,put_fresh i m stored fresh]
      exact ran'
    · rw [position',position,Codec.advance_advance,List.flatMap_cons,List.length_append]
    · rw [split,List.append_assoc]
      rfl
    · simp [keys,List.range'_succ]
    · simp [same,values]

theorem value_array (entries : List (Nat × FBTCtlMessage)) (n : Nat)
    (keys : entries.map Prod.fst = List.range' 0 n) :
    value (.array entries) = .array (entries.map (fun entry => value entry.2)) := by
  have count : entries.length = n := by
    have lengths := congrArg List.length keys
    simpa using lengths
  have same : (elementValues entries).map Prod.fst = List.range' 0 n := by
    rw [elementValues_eq,List.map_map]
    exact keys
  have values := map_lookup_keys (elementValues entries) .undef (by
    rw [same]
    exact List.nodup_range')
  simp only [value,count,List.range_eq_range']
  rw [← same,values,elementValues_eq,List.map_map]
  rfl

/-- The tag and payload of one field, read by one turn of the loop. -/
theorem readFields_cons (it : MessageLayout) (rest : List MessageLayout)
    (set : Btcontrol.FBTCtlMessage) (stored : List (Str × FBTCtlMessage)) (input : InputReader)
    (more : List UInt8) (fits : Wire.Fits it set) (fresh : it.name ∉ stored.map Prod.fst)
    (located : input.rest = Wire.fieldBytes it set ++ more)
    (elements : ∀ arrayVal, set = .array arrayVal → ∀ element ∈ arrayVal, ∀ input more,
      input.rest = le 1 STRUCT ++ Wire.structBytes it.childLayouts element.fields ++ more →
      Reads (readElement (.mk STRUCT [] (layouts it.childLayouts)) input) input
        (le 1 STRUCT ++ Wire.structBytes it.childLayouts element.fields).length
        (fun m => value m = .struct STRUCT (Wire.restrictFields it.childLayouts element.fields))) :
    ∃ m next, readFields (layout it :: rest) stored input =
        readFields rest (stored ++ [(it.name, m)]) next ∧
      next.toInputReader = input.toInputReader.advance (Wire.fieldBytes it set).length ∧
      value m = Wire.restrict it set := by
  obtain ⟨kind,name,childLayouts⟩ := it
  cases set with
  | undef => simp [Wire.Fits] at fits
  | struct => simp [Wire.Fits] at fits
  | null => simp [Wire.Fits] at fits
  | int ival =>
    obtain ⟨rfl,bound⟩ := fits
    simp only [Wire.fieldBytes,List.append_assoc] at located
    have tag := input.getByte_le INT _ (by decide) located
    have payload := (input.skip 1).getInt_append ival more bound (input.rest_skip (le 1 INT) _ located)
    refine ⟨.int ival,(input.skip 1).skip 4,?_,?_,by simp [value,Wire.restrict]⟩
    · simp only [layout,readFields,tag,payload,bind,Except.bind,ne_eq,not_true_eq_false,↓reduceIte,
        put_fresh name _ stored fresh]
      rfl
    · simp [InputReader.skip,Btcontrol.InputReader.advance,Wire.fieldBytes]
  | string sval =>
    obtain ⟨rfl,bound⟩ := fits
    simp only [Wire.fieldBytes,List.append_assoc] at located
    have tag := input.getByte_le STRING _ (by decide) located
    have at1 := input.rest_skip (le 1 STRING) _ located
    have off := (input.skip 1).getStrOff_append sval.length _ bound at1
    have at3 : input.data.drop (input.pos + 1 + 2) = sval ++ more :=
      (input.skip 1).rest_skip (le 2 sval.length) _ at1
    have inside : input.pos + 1 + 2 + sval.length ≤ input.data.length := by
      have length := Codec.length_of_rest input.toInputReader _ _ located (by simp [le])
      simp only [le_length,List.length_append] at length
      omega
    refine ⟨.string input.data (input.pos + 1 + 2) sval.length,
      { ((input.skip 1).skip 2).skip sval.length with lastLen := sval.length },?_,?_,?_⟩
    · simp only [layout,readFields,tag,off,bind,Except.bind,ne_eq,not_true_eq_false,↓reduceIte,
        InputReader.getStrLen]
      exact congrArg (readFields rest · _) (put_fresh name _ stored fresh)
    · simp [InputReader.skip,Btcontrol.InputReader.advance,Wire.fieldBytes]
      omega
    · simp only [value,if_pos inside,at3,List.take_left,Wire.restrict]
  | array arrayVal =>
    obtain ⟨rfl,bound,_⟩ := fits
    simp only [Wire.fieldBytes,List.append_assoc] at located
    have tag := input.getByte_le ARRAY _ (by decide) located
    have at1 := input.rest_skip (le 1 ARRAY) _ located
    have count := (input.skip 1).getByte_le arrayVal.length _ (by omega) at1
    have at2 := (input.skip 1).rest_skip (le 1 arrayVal.length) _ at1
    obtain ⟨entries,next,ran,position,_,rfl,keys,values⟩ :=
      readArray_append (readElement (.mk STRUCT [] (layouts childLayouts))) _ _ arrayVal
        (elements arrayVal rfl) 0 [] (by simp) _ more at2
    refine ⟨.array entries,next,?_,?_,?_⟩
    · simp only [le_length] at ran
      simp only [layout,↓reduceIte,readFields,tag,count,bind,Except.bind,ne_eq,not_true_eq_false,readFirst,ran]
      exact congrArg (readFields rest · _) (put_fresh name _ stored fresh)
    · rw [position]
      simp [InputReader.skip,Btcontrol.InputReader.advance,Wire.fieldBytes,MessageLayout.childLayouts]
      omega
    · rw [value_array entries _ keys,values]
      rfl

mutual
/-- Every array element is read back, whatever follows it. -/
theorem readElement_bytes : (it : MessageLayout) → Wire.StructOK it.childLayouts →
    ∀ structVal, Wire.FieldsFit it.childLayouts structVal → ∀ input more,
      input.rest = le 1 STRUCT ++ Wire.structBytes it.childLayouts structVal ++ more →
      Reads (readElement (.mk STRUCT [] (layouts it.childLayouts)) input) input
        (le 1 STRUCT ++ Wire.structBytes it.childLayouts structVal).length
        (fun m => value m = .struct STRUCT (Wire.restrictFields it.childLayouts structVal))
  | .mk kind name childLayouts => by
    intro ok structVal fit input more located
    rw [List.append_assoc] at located
    have tag := input.getByte_le STRUCT _ (by decide) located
    obtain ⟨arrayVal,next,ran,position,_,rfl,values⟩ :=
      readFields_bytes childLayouts ok.1 ok.2 structVal fit [] (fun _ _ h => nomatch h) (input.skip 1) more
        (input.rest_skip (le 1 STRUCT) _ located)
    refine ⟨.struct STRUCT arrayVal,next,?_,?_,?_⟩
    · simp only [MessageLayout.childLayouts,readElement,tag,bind,Except.bind,ran]
      rfl
    · rw [position]
      simp [InputReader.skip,Btcontrol.InputReader.advance,MessageLayout.childLayouts]
      omega
    · exact (value_struct (Nat.le_refl STRUCT) arrayVal).trans (congrArg _ values)

/-- The loop over the fields, from any fields already stored under other names. -/
theorem readFields_bytes : (childLayouts : List MessageLayout) →
    (childLayouts.map MessageLayout.name).Nodup → Wire.FieldsOK childLayouts →
    ∀ structVal, Wire.FieldsFit childLayouts structVal → ∀ stored,
      (∀ it ∈ childLayouts, it.name ∉ stored.map Prod.fst) → ∀ input more,
      input.rest = Wire.structBytes childLayouts structVal ++ more →
      Reads (readFields (layouts childLayouts) stored input) input
        (Wire.structBytes childLayouts structVal).length
        (fun arrayVal => ∃ entries, arrayVal = stored ++ entries ∧
          fieldValues entries = Wire.restrictFields childLayouts structVal)
  | [] => by
    intro _ _ structVal _ stored _ input more _
    exact ⟨stored,input,rfl,rfl,[],by simp,by simp [fieldValues,Wire.restrictFields]⟩
  | it :: rest => by
    intro distinct ok structVal fit stored fresh input more located
    obtain ⟨⟨set,found,fits⟩,others⟩ := fit
    simp only [List.map_cons,List.nodup_cons] at distinct
    simp only [Wire.structBytes,found,Option.getD_some,List.append_assoc] at located
    have inner : ∀ arrayVal, set = .array arrayVal → Wire.StructOK it.childLayouts ∧
        ∀ element ∈ arrayVal, Wire.FieldsFit it.childLayouts element.fields := by
      rintro arrayVal rfl
      exact Codec.fits_array ok.1 fits
    obtain ⟨m,next,first,position,same⟩ := readFields_cons it (layouts rest) set stored input _ fits
      (fresh it List.mem_cons_self) located (by
        intro arrayVal array element member input more located
        exact readElement_bytes it (inner arrayVal array).1 element.fields
          ((inner arrayVal array).2 element member) input more located)
    have at1 : next.rest = Wire.structBytes rest structVal ++ more := by
      rw [position]
      exact Codec.rest_advance _ _ _ located
    obtain ⟨arrayVal,last,ran,position',entries,split,values⟩ :=
      readFields_bytes rest distinct.2 ok.2 structVal others (stored ++ [(it.name, m)]) (by
        intro other member taken
        simp only [List.map_append,List.map_cons,List.map_nil,List.mem_append,List.mem_singleton] at taken
        rcases taken with old | same
        · exact fresh other (List.mem_cons_of_mem _ member) old
        · exact distinct.1 (same ▸ List.mem_map_of_mem member)) next more at1
    refine ⟨arrayVal,last,?_,?_,(it.name, m) :: entries,?_,?_⟩
    · simp only [layouts,first,ran]
    · rw [position',position,Codec.advance_advance]
      simp [Wire.structBytes,found]
    · rw [split,List.append_assoc]
      rfl
    · simp [fieldValues,Wire.restrictFields,found,same,values]
end

/-! ### Whole messages -/

theorem getBinaryMessage_bytes (messageLayouts : MessageLayouts) (cpp java : MessageLayout)
    (j : FBTCtlMessage) (found : getLayout messageLayouts j.type = .ok java)
    (children : java.childLayouts = layouts cpp.childLayouts) (conforms : Wire.Conforms cpp (value j)) :
    getBinaryMessage messageLayouts j = putAll (Wire.messageBytes cpp (value j)) {} := by
  obtain ⟨above,_,fit⟩ := conforms
  obtain ⟨arrayVal,node⟩ := struct_of_value j (Nat.le_of_lt above)
  simp only [getBinaryMessage,found,bind,Except.bind]
  have struct := value_struct (Nat.le_of_lt above) arrayVal
  rw [node,struct] at fit ⊢
  simp only [encode,children,Wire.messageBytes,Btcontrol.FBTCtlMessage.type,
    Btcontrol.FBTCtlMessage.fields] at fit ⊢
  rw [putAll_append,putByte_eq]
  exact congrArg _ (funext fun out => writeFields_fits cpp.childLayouts arrayVal fit out)

theorem readMessage_bytes (messageLayouts : MessageLayouts) (cpp java : MessageLayout)
    (m : Btcontrol.FBTCtlMessage) (found : getLayout messageLayouts m.type = .ok java)
    (children : java.childLayouts = layouts cpp.childLayouts)
    (ok : Wire.StructOK cpp.childLayouts) (conforms : Wire.Conforms cpp m) :
    ∃ j, readMessage messageLayouts (Wire.messageBytes cpp m) = .ok j ∧
      value j = Wire.restrictMessage cpp m := by
  obtain ⟨above,small,fit⟩ := conforms
  have located : Btcontrol.InputReader.rest ⟨Wire.messageBytes cpp m,0⟩ =
      le 1 m.type ++ (Wire.structBytes cpp.childLayouts m.fields ++ []) := by
    simp [Btcontrol.InputReader.rest,Wire.messageBytes]
  have tag := InputReader.getByte_le ⟨⟨Wire.messageBytes cpp m,0⟩,0⟩ m.type _ (by omega) located
  obtain ⟨arrayVal,next,ran,_,_,rfl,values⟩ :=
    readFields_bytes cpp.childLayouts ok.1 ok.2 m.fields fit [] (fun _ _ h => nomatch h) _ []
      (InputReader.rest_skip ⟨⟨Wire.messageBytes cpp m,0⟩,0⟩ (le 1 m.type) _ located)
  refine ⟨.struct m.type arrayVal,?_,?_⟩
  · simp only [le_length] at ran
    simp only [readMessage,readFrom,tag,bind,Except.bind,above,↓reduceIte,found,children,ran]
    rfl
  · rw [value_struct (Nat.le_of_lt above),values,Wire.restrictMessage]

/-! ### Interoperability -/

mutual
/-- Distinct names and at least one field in every array below. -/
def Distinct : MessageLayout → Prop
  | .mk type _ childLayouts => type = ARRAY →
    childLayouts ≠ [] ∧ (childLayouts.map MessageLayout.name).Nodup ∧ AllDistinct childLayouts

def AllDistinct : List MessageLayout → Prop
  | [] => True
  | it :: rest => Distinct it ∧ AllDistinct rest
end

mutual
theorem fieldOK_of_typed : (it : MessageLayout) → Typed it → Distinct it → Wire.FieldOK it
  | .mk type name childLayouts => by
    intro typed distinct
    rcases typed with int | string | ⟨array,typed⟩
    · exact .inl int
    · exact .inr (.inl string)
    · obtain ⟨some,names,inner⟩ := distinct array
      exact .inr (.inr ⟨array,some,names,fieldsOK_of_typed childLayouts typed inner⟩)

theorem fieldsOK_of_typed : (childLayouts : List MessageLayout) → AllTyped childLayouts →
    AllDistinct childLayouts → Wire.FieldsOK childLayouts
  | [], _, _ => trivial
  | it :: rest, typed, distinct =>
    ⟨fieldOK_of_typed it typed.1 distinct.1,fieldsOK_of_typed rest typed.2 distinct.2⟩
end

/-- Two parsers that accept one line have read corresponding layouts from it. -/
theorem parse_agree {unassigned : Nat} {line pos pos' : Str} {cpp java : MessageLayout}
    (parsed : parseMessageLayout unassigned line = .ok (cpp, pos)) (javaParsed : parse line = .ok (java, pos')) :
    AllTyped cpp.childLayouts ∧ java.childLayouts = layouts cpp.childLayouts := by
  cases javaFields : parseFields line.length line with
  | error e => simp [parse,javaFields,bind,Except.bind] at javaParsed
  | ok javaRead =>
    simp only [parse,javaFields,bind,Except.bind,pure,Except.pure,Except.ok.injEq,Prod.mk.injEq] at javaParsed
    obtain ⟨rfl,rfl⟩ := javaParsed
    simp only [parseMessageLayout] at parsed
    cases fields : parseStruct (Btcontrol.parseFields unassigned line.length) line with
    | error e => simp [fields,bind,Except.bind] at parsed
    | ok read =>
      simp only [fields,bind,Except.bind,pure,Except.pure,Except.ok.injEq,Prod.mk.injEq] at parsed
      obtain ⟨rfl,rfl⟩ := parsed
      obtain ⟨typed,same,_⟩ := parseStruct_agree (parseFields_agree unassigned line.length) line read javaRead fields javaFields
      exact ⟨typed,same⟩

/-- C++ server and Java client speak the same protocol: from one layout line, both encode a
message they hold the same value of to the same bytes, and each reads that value from them. -/
theorem codecs_interoperate (unassigned : Nat) (line pos pos' : Str) (cpp java : MessageLayout)
    (parsed : parseMessageLayout unassigned line = .ok (cpp, pos)) (javaParsed : parse line = .ok (java, pos'))
    (names : (cpp.childLayouts.map MessageLayout.name).Nodup) (distinct : AllDistinct cpp.childLayouts)
    (messageLayouts : Btcontrol.MessageLayouts) (javaLayouts : MessageLayouts)
    (m : Btcontrol.FBTCtlMessage) (j : FBTCtlMessage)
    (found : getMessageLayout messageLayouts m.type = .ok (cpp.numbered m.type))
    (javaFound : getLayout javaLayouts m.type = .ok (java.numbered m.type))
    (conforms : Wire.Conforms cpp m) (javaConforms : Wire.Conforms cpp (value j))
    (same : Wire.restrictMessage cpp (value j) = Wire.restrictMessage cpp m)
    (room : ∀ bytes, Btcontrol.FBTCtlMessage.getBinaryMessage messageLayouts m = .ok bytes → bytes.length ≤ avail) :
    ∃ bytes, Btcontrol.FBTCtlMessage.getBinaryMessage messageLayouts m = .ok bytes ∧
      getBinaryMessage javaLayouts j = .ok ⟨bytes⟩ ∧
      Btcontrol.FBTCtlMessage.readMessage messageLayouts ⟨bytes,0⟩ =
        .ok (Wire.restrictMessage cpp m, ⟨bytes,bytes.length⟩) ∧
      ∃ read, readMessage javaLayouts bytes = .ok read ∧ value read = Wire.restrictMessage cpp m := by
  obtain ⟨typed,children⟩ := parse_agree parsed javaParsed
  have ok : Wire.StructOK cpp.childLayouts := ⟨names,fieldsOK_of_typed cpp.childLayouts typed distinct⟩
  simp only [Wire.restrictMessage,Btcontrol.FBTCtlMessage.struct.injEq] at same
  have bytes : Wire.messageBytes cpp (value j) = Wire.messageBytes cpp m := by
    simp only [Wire.messageBytes,same.1,Wire.structBytes_congr _ _ _ same.2]
  have encoded := Codec.getBinaryMessage_bytes messageLayouts (cpp.numbered m.type) m found conforms
  have javaType : j.type = m.type := by
    obtain ⟨arrayVal,node⟩ := struct_of_value j (Nat.le_of_lt javaConforms.1)
    rw [node,FBTCtlMessage.type,same.1]
  refine ⟨Wire.messageBytes cpp m,encoded,?_,?_,?_⟩
  · rw [getBinaryMessage_bytes javaLayouts cpp (java.numbered m.type) j (javaType ▸ javaFound) children
      javaConforms,bytes]
    have short : (Wire.messageBytes cpp m).length ≤ avail := room _ encoded
    exact putAll_fits _ {} (by simpa using short)
  · have read := Codec.readMessage_bytes messageLayouts (cpp.numbered m.type) m found ok conforms
      ⟨Wire.messageBytes cpp m,0⟩ [] (by simp [Btcontrol.InputReader.rest]; rfl)
    rw [read]
    simp only [Btcontrol.InputReader.advance,Nat.zero_add]
    rfl
  · exact readMessage_bytes javaLayouts cpp (java.numbered m.type) m javaFound children ok conforms

def dirMulti : FBTCtlMessage := .struct 15 [
  (str "list", .array [(1, .struct STRUCT [(str "addr", .int 647)]), (0, .struct STRUCT [(str "addr", .int 3)])]),
  (str "dir", .int (-1))]

def dirMultiLayout : MessageLayouts :=
  [(str "DIR_MULTI", .mk 15 [] [intField "dir",.mk ARRAY (str "list") [.mk STRUCT [] [intField "addr"]]])]

/-- What arrives at either end. -/
def received : Btcontrol.FBTCtlMessage := .struct 15 [
  (str "dir", .int (-1)),
  (str "list", .array [.struct STRUCT [(str "addr", .int 3)],.struct STRUCT [(str "addr", .int 647)]])]

theorem codecs_interoperate_dirMulti :
    ∃ bytes, Btcontrol.FBTCtlMessage.getBinaryMessage protocolDat Codec.dirMulti = .ok bytes ∧
      getBinaryMessage dirMultiLayout dirMulti = .ok ⟨bytes⟩ ∧
      Btcontrol.FBTCtlMessage.readMessage protocolDat ⟨bytes,0⟩ = .ok (received,⟨bytes,bytes.length⟩) ∧
      ∃ read, readMessage dirMultiLayout bytes = .ok read ∧ value read = received := by
  have conforms (m : Btcontrol.FBTCtlMessage) (type : m.type = 15)
      (dir : m.fields.lookup (str "dir") = some (.int (-1)))
      (list : m.fields.lookup (str "list") = some (.array
        [.struct STRUCT [(str "addr", .int 3)],.struct STRUCT [(str "addr", .int 647)]])) :
      Wire.Conforms (.mk UNDEF [] [intField "dir",arrayField "list" [intField "addr"]]) m := by
    refine ⟨by rw [type]; decide,by rw [type]; decide,⟨_,dir,rfl,by decide⟩,⟨_,list,rfl,by decide,?_⟩,trivial⟩
    intro element member
    simp only [List.mem_cons,List.not_mem_nil,or_false] at member
    rcases member with rfl | rfl <;> exact ⟨rfl,⟨_,rfl,rfl,by decide⟩,trivial⟩
  have encoded : Btcontrol.FBTCtlMessage.getBinaryMessage protocolDat Codec.dirMulti =
      .ok [15,1,255,255,255,255,3,2,4,1,3,0,0,0,4,1,135,2,0,0] := rfl
  refine codecs_interoperate UNDEF (str "dir:I,list:A\x7baddr:I\x7d") (str "\x7d") (str "\x7d")
    (.mk UNDEF [] [intField "dir",arrayField "list" [intField "addr"]])
    (.mk STRUCT [] [intField "dir",.mk ARRAY (str "list") [.mk STRUCT [] [intField "addr"]]])
    rfl rfl (by decide) ⟨nofun,fun _ => ⟨nofun,by decide,nofun,trivial⟩,trivial⟩
    protocolDat dirMultiLayout Codec.dirMulti dirMulti rfl rfl (conforms _ rfl rfl rfl)
    (conforms _ rfl rfl rfl) rfl ?_
  intro bytes same
  rw [encoded] at same
  cases same
  decide

end Btcontrol.Java
