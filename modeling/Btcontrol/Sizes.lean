import Btcontrol.Codec
import Btcontrol.Exec

/-! The lengths the encoder writes in front of strings and arrays. A string's is two bytes and
checked against 0x10000, one too many; an array's is one byte and not checked. -/
namespace Btcontrol.Sizes

open DataType Bytes Exec FBTCtlMessage

/-- The size of something written with a length in front. -/
inductive Size where
  | string (n : Nat)
  | array (n : Nat)
  deriving DecidableEq, Repr

namespace Size

def real : Size → Nat
  | .string n => n
  | .array n => n

/-- What a reader takes the length bytes for. -/
def written : Size → Nat
  | .string n => leValue (le 2 n)
  | .array n => leValue (le 1 n)

def Fits : Size → Prop
  | .string n => n ≤ 65535
  | .array n => n ≤ 255

instance : (size : Size) → Decidable size.Fits
  | .string n => inferInstanceAs (Decidable (n ≤ 65535))
  | .array n => inferInstanceAs (Decidable (n ≤ 255))

/-- What the encoder's check lets pass: `int tmp=d.sval.size(); if(tmp > 0x10000)`. -/
def Passes : Size → Prop
  | .string n => signed32 (n % 2 ^ 32) ≤ 0x10000
  | .array _ => True

instance : (size : Size) → Decidable size.Passes
  | .string n => inferInstanceAs (Decidable (signed32 (n % 2 ^ 32) ≤ 0x10000))
  | .array _ => inferInstanceAs (Decidable True)

theorem written_eq (size : Size) (fits : size.Fits) : size.written = size.real := by
  cases size with
  | string n =>
    have bound : n ≤ 65535 := fits
    exact leValue_le_of_lt 2 n (by omega)
  | array n =>
    have bound : n ≤ 255 := fits
    exact leValue_le_of_lt 1 n (by omega)

end Size

/-- A field's type, and the sizes in it against a layout. -/
abbrev Measure := Nat × (MessageLayout → Option (List Size))

def measureFields (element : Str → Option Measure) : List MessageLayout → Option (List Size)
  | [] => some []
  | it :: rest => match element it.name with
    | some (type, sizes) =>
      if type = it.type then do
        let first ← sizes it
        let more ← measureFields element rest
        return first ++ more
      else none
    | none => none

mutual
/-- The strings and arrays that a layout reaches in a message; none if the message does not have
what the layout asks for. -/
def measure : FBTCtlMessage → MessageLayout → Option (List Size)
  | .undef, layout => if layout.childLayouts = [] then some [] else none
  | .int _, _ => some []
  | .string sval, _ => some [.string sval.length]
  | .array arrayVal, layout => do
    let elements ← measureArray arrayVal layout
    return .array arrayVal.length :: elements
  | .struct _ structVal, layout =>
    let elements := measures structVal
    measureFields (fun name => elements.lookup name) layout.childLayouts
  | .null type, layout =>
    if type = INT ∨ type = STRING ∨ type = ARRAY ∨ layout.childLayouts ≠ [] then none else some []

def measureArray : List FBTCtlMessage → MessageLayout → Option (List Size)
  | [], _ => some []
  | first :: rest, layout => do
    let sizes ← measure first layout
    let more ← measureArray rest layout
    return sizes ++ more

def measures : List (Str × FBTCtlMessage) → List (Str × Measure)
  | [] => []
  | (name, value) :: rest => (name, (value.type, measure value)) :: measures rest
end

/-- The message has everything, and every size in it passes the check. -/
def Passes (sizes : Option (List Size)) : Prop := ∃ all, sizes = some all ∧ ∀ size ∈ all, size.Passes

theorem passes_append (first more : Option (List Size)) :
    Passes (do return (← first) ++ (← more)) ↔ Passes first ∧ Passes more := by
  cases first with
  | none => simp [Passes]
  | some all =>
    cases more with
    | none => simp [Passes]
    | some all' =>
      simp only [Passes,Option.bind_eq_bind,Option.bind_some,Option.pure_def,Option.some.injEq,
        exists_eq_left',List.mem_append,or_imp,forall_and]

def Returns (result : Except Err Str) : Prop := ∃ bytes, result = .ok bytes

theorem returns_append (first more : Except Err Str) :
    Returns (do return (← first) ++ (← more)) ↔ Returns first ∧ Returns more := by
  cases first with
  | error e => simp [Returns,bind,Except.bind]
  | ok bytes =>
    cases more with
    | error e => simp [Returns,bind,Except.bind]
    | ok bytes' => simp [Returns,bind,Except.bind,pure,Except.pure]

theorem returns_cons (head : Str) (x : Except Err Str) : Returns (do return head ++ (← x)) ↔ Returns x := by
  cases x <;> simp [Returns,bind,Except.bind,pure,Except.pure]

theorem passes_array (n : Nat) (sizes : Option (List Size)) :
    Passes (do return .array n :: (← sizes)) ↔ Passes sizes := by
  cases sizes <;> simp [Passes,Size.Passes]

theorem lookup_measures (structVal : List (Str × FBTCtlMessage)) (name : Str) :
    (measures structVal).lookup name =
      (structVal.lookup name).map (fun value => (value.type, measure value)) := by
  induction structVal with
  | nil => rfl
  | cons first rest ih =>
    obtain ⟨key,value⟩ := first
    simp only [measures,List.lookup_cons]
    split <;> simp [ih]

/-- A struct has everything if each field of the layout is set and has everything. -/
theorem measure_complete {structVal : List (Str × FBTCtlMessage)} {layouts : List MessageLayout}
    (each : ∀ it ∈ layouts, ∃ value, structVal.lookup it.name = some value ∧ value.type = it.type ∧
      (measure value it).isSome = true) (type number : Nat) (name : Str) :
    (measure (.struct type structVal) (.mk number name layouts)).isSome = true := by
  simp only [measure,MessageLayout.childLayouts]
  induction layouts with
  | nil => rfl
  | cons it rest ih =>
    obtain ⟨value,found,same,sizes⟩ := each it List.mem_cons_self
    have more := ih (fun other member => each other (List.mem_cons_of_mem _ member))
    obtain ⟨first,measured⟩ := Option.isSome_iff_exists.mp sizes
    obtain ⟨others,remaining⟩ := Option.isSome_iff_exists.mp more
    have head : (measures structVal).lookup it.name = some (value.type, measure value) := by
      rw [lookup_measures,found]
      rfl
    simp only [measureFields,head,same,↓reduceIte,measured,remaining]
    rfl

/-- The struct case, once it is known of every field. -/
theorem writeFields_returns {messageLayouts : MessageLayouts} {structVal : List (Str × FBTCtlMessage)}
    (each : ∀ name value, structVal.lookup name = some value → ∀ it,
      Returns (encode messageLayouts value it) ↔ Passes (measure value it))
    (type : Nat) (layouts : List MessageLayout) :
    Returns (writeFields messageLayouts type
        (fun name => (writers messageLayouts structVal).lookup name) layouts) ↔
      Passes (measureFields (fun name => (measures structVal).lookup name) layouts) := by
  induction layouts with
  | nil => simp [Returns,Passes,writeFields,measureFields]
  | cons it rest ih =>
    simp only [Codec.lookup_writers,lookup_measures] at ih ⊢
    simp only [writeFields,measureFields]
    cases found : structVal.lookup it.name with
    | none =>
      simp only [Option.map_none]
      cases messageTypeName messageLayouts type <;> simp [Returns,Passes,bind,Except.bind]
    | some value =>
      simp only [Option.map_some]
      split
      · rw [returns_append,passes_append,each it.name value found it,ih]
      · simp [Returns,Passes]

mutual
/-- The encoder returns exactly if the message has everything and every string passes the check;
the sizes of arrays never matter. -/
theorem encode_returns (messageLayouts : MessageLayouts) : (m : FBTCtlMessage) → ∀ layout,
    Returns (encode messageLayouts m layout) ↔ Passes (measure m layout)
  | .undef => by
    intro layout
    simp only [encode,measure]
    cases layout.childLayouts <;> simp [Returns,Passes]
  | .int ival => by
    intro layout
    simp [encode,measure,Returns,Passes]
  | .string sval => by
    intro layout
    simp only [encode,measure,Passes,Option.some.injEq,exists_eq_left',List.mem_singleton,forall_eq,
      Size.Passes]
    split
    · rename_i big
      simpa [Returns] using big
    · rename_i small
      simpa [Returns] using small
  | .array arrayVal => by
    intro layout
    simp only [encode,measure]
    rw [returns_cons,passes_array,encodeArray_returns messageLayouts arrayVal layout]
  | .struct type structVal => by
    intro layout
    simp only [encode,measure]
    rw [returns_cons,writeFields_returns (fields_returns messageLayouts structVal) type layout.childLayouts]
  | .null type => by
    intro layout
    simp only [encode,measure]
    by_cases leaf : type = INT ∨ type = STRING ∨ type = ARRAY
    · have none : type = INT ∨ type = STRING ∨ type = ARRAY ∨ layout.childLayouts ≠ [] := by tauto
      simp [leaf,none,Returns,Passes]
    · cases fields : layout.childLayouts with
      | nil => simp [leaf,Returns,Passes]
      | cons it rest => simp [leaf,Returns,Passes]

theorem encodeArray_returns (messageLayouts : MessageLayouts) : (arrayVal : List FBTCtlMessage) →
    ∀ layout, Returns (encodeArray messageLayouts arrayVal layout) ↔ Passes (measureArray arrayVal layout)
  | [] => by
    intro layout
    simp [encodeArray,measureArray,Returns,Passes]
  | first :: rest => by
    intro layout
    simp only [encodeArray,measureArray]
    rw [returns_append,passes_append,encode_returns messageLayouts first layout,
      encodeArray_returns messageLayouts rest layout]

theorem fields_returns (messageLayouts : MessageLayouts) : (structVal : List (Str × FBTCtlMessage)) →
    ∀ name value, structVal.lookup name = some value → ∀ it,
      Returns (encode messageLayouts value it) ↔ Passes (measure value it)
  | [] => by
    intro name value found
    cases found
  | (key, first) :: rest => by
    intro name value found
    rw [List.lookup_cons] at found
    split at found
    · cases found
      exact encode_returns messageLayouts first
    · exact fields_returns messageLayouts rest name value found
end

/-- Whenever the encoder returns, everything it has written has the size its length says. -/
def NeverTruncates (messageLayouts : MessageLayouts) (m : FBTCtlMessage) (layout : MessageLayout) : Prop :=
  ∀ bytes, encode messageLayouts m layout = .ok bytes →
    ∃ sizes, measure m layout = some sizes ∧ ∀ size ∈ sizes, size.Fits ∧ size.written = size.real

/-- A complete message whose strings all pass the check, with a string or an array too big for
its length bytes. -/
def SlipsThrough (m : FBTCtlMessage) (layout : MessageLayout) : Prop :=
  ∃ sizes, measure m layout = some sizes ∧ (∀ size ∈ sizes, size.Passes) ∧ ∃ size ∈ sizes, ¬size.Fits

theorem neverTruncates_iff (messageLayouts : MessageLayouts) (m : FBTCtlMessage) (layout : MessageLayout) :
    NeverTruncates messageLayouts m layout ↔ ¬SlipsThrough m layout := by
  have returns := encode_returns messageLayouts m layout
  constructor
  · rintro never ⟨sizes,measured,pass,size,member,big⟩
    obtain ⟨bytes,encoded⟩ := returns.mpr ⟨sizes,measured,pass⟩
    obtain ⟨sizes',measured',fit⟩ := never bytes encoded
    rw [measured] at measured'
    cases measured'
    exact big (fit size member).1
  · intro none bytes encoded
    obtain ⟨sizes,measured,pass⟩ := returns.mp ⟨bytes,encoded⟩
    refine ⟨sizes,measured,fun size member => ?_⟩
    have fits : size.Fits := by
      by_contra big
      exact none ⟨sizes,measured,pass,size,member,big⟩
    exact ⟨fits,size.written_eq fits⟩

def image (n : Nat) : FBTCtlMessage := .struct 29 [(str "img", .string (List.replicate n 0))]

theorem measure_image (n : Nat) :
    measure (image n) (.mk 29 [] [stringField "img"]) = some [.string n] := by
  have found (image : FBTCtlMessage) : [(str "img", image)].lookup (stringField "img").name = some image := rfl
  simp only [image,measure,MessageLayout.childLayouts,measureFields,lookup_measures,found]
  simp [measure,stringField,MessageLayout.type,FBTCtlMessage.type]

/-- One byte more than two length bytes can say, and still encoded. -/
theorem image_truncated :
    ¬NeverTruncates protocolDat (image 65536) (.mk 29 [] [stringField "img"]) := by
  intro never
  obtain ⟨bytes,encoded⟩ := (encode_returns protocolDat (image 65536) _).mpr
    ⟨_,measure_image 65536,by decide⟩
  obtain ⟨sizes,measured,fit⟩ := never bytes encoded
  rw [measure_image] at measured
  cases measured
  have small : 65536 ≤ 65535 := (fit _ List.mem_cons_self).1
  omega

end Btcontrol.Sizes
