import Btcontrol.Message

/-! The message format itself, independent of who writes or reads it: which values fit
a layout, their bytes, and the part of a message the layout names. Both implementations
of the codec are compared with these definitions. -/
namespace Btcontrol

open DataType Bytes

namespace FBTCtlMessage

def fields : FBTCtlMessage → List (Str × FBTCtlMessage)
  | .struct _ structVal => structVal
  | _ => []

@[simp] theorem decoded_fields (childLayouts : List MessageLayout) (type : Nat)
    (structVal : List (Str × FBTCtlMessage)) : (decoded childLayouts type structVal).fields = structVal := by
  unfold decoded
  split
  · rename_i bare
    rw [List.isEmpty_iff.mp bare.1]
    split <;> rfl
  · rfl

end FBTCtlMessage

namespace Wire

mutual
/-- A field layout of INT, STRING or non-empty ARRAY type, names distinct per struct. -/
def FieldOK : MessageLayout → Prop
  | .mk type _ childLayouts => type = INT ∨ type = STRING ∨
    (type = ARRAY ∧ childLayouts ≠ [] ∧ (childLayouts.map MessageLayout.name).Nodup ∧
      FieldsOK childLayouts)

def FieldsOK : List MessageLayout → Prop
  | [] => True
  | it :: rest => FieldOK it ∧ FieldsOK rest
end

def StructOK (childLayouts : List MessageLayout) : Prop :=
  (childLayouts.map MessageLayout.name).Nodup ∧ FieldsOK childLayouts

mutual
/-- The value has the layout's type and its sizes fit the wire's prefixes. -/
def Fits : MessageLayout → FBTCtlMessage → Prop
  | .mk type _ childLayouts, value => match value with
    | .int ival => type = INT ∧ Fits32 ival
    | .string sval => type = STRING ∧ sval.length ≤ 65535
    | .array arrayVal => type = ARRAY ∧ arrayVal.length ≤ 255 ∧
      ∀ element ∈ arrayVal, element.type = STRUCT ∧ FieldsFit childLayouts element.fields
    | _ => False

/-- Every field of the layout is set to a fitting value; other fields are free. -/
def FieldsFit : List MessageLayout → List (Str × FBTCtlMessage) → Prop
  | [], _ => True
  | it :: rest, structVal =>
    (∃ value, structVal.lookup it.name = some value ∧ Fits it value) ∧ FieldsFit rest structVal
end

mutual
/-- The bytes of one field: its tag, then the payload. -/
def fieldBytes : MessageLayout → FBTCtlMessage → List UInt8
  | .mk _ _ childLayouts, value => match value with
    | .int ival => le 1 INT ++ le 4 (pattern32 ival)
    | .string sval => le 1 STRING ++ (le 2 sval.length ++ sval)
    | .array arrayVal => le 1 ARRAY ++ (le 1 arrayVal.length ++
      arrayVal.flatMap (fun element => le 1 STRUCT ++ structBytes childLayouts element.fields))
    | _ => []

/-- The fields in layout order; the order in which they were set does not show. -/
def structBytes : List MessageLayout → List (Str × FBTCtlMessage) → List UInt8
  | [], _ => []
  | it :: rest, structVal =>
    fieldBytes it ((structVal.lookup it.name).getD .undef) ++ structBytes rest structVal
end

mutual
/-- The part of a field's value that the layout names. -/
def restrict : MessageLayout → FBTCtlMessage → FBTCtlMessage
  | .mk _ _ childLayouts, value => match value with
    | .array arrayVal => .array (arrayVal.map (fun element =>
        .struct STRUCT (restrictFields childLayouts element.fields)))
    | value => value

def restrictFields : List MessageLayout → List (Str × FBTCtlMessage) → List (Str × FBTCtlMessage)
  | [], _ => []
  | it :: rest, structVal =>
    (it.name, restrict it ((structVal.lookup it.name).getD .undef)) :: restrictFields rest structVal
end

/-- A message conforming to its layout, and its type number fits the type byte. -/
def Conforms (layout : MessageLayout) (m : FBTCtlMessage) : Prop :=
  STRUCT < m.type ∧ m.type ≤ 255 ∧ FieldsFit layout.childLayouts m.fields

/-- The message with exactly the layout's fields. -/
def restrictMessage (layout : MessageLayout) (m : FBTCtlMessage) : FBTCtlMessage :=
  .struct m.type (restrictFields layout.childLayouts m.fields)

def messageBytes (layout : MessageLayout) (m : FBTCtlMessage) : List UInt8 :=
  le 1 m.type ++ structBytes layout.childLayouts m.fields

/-- A message numbered above STRUCT is a struct node, or one in which nothing is stored. -/
theorem struct_of_type (m : FBTCtlMessage) (above : STRUCT ≤ m.type) :
    m = .struct m.type m.fields ∨ (m = .null m.type ∧ m.fields = []) := by
  cases m <;> simp [FBTCtlMessage.type,FBTCtlMessage.fields,UNDEF,INT,STRING,ARRAY,STRUCT] at above ⊢

/-- Nothing fits a layout but where there are no fields. -/
theorem fieldsFit_nil {layouts : List MessageLayout} (fit : FieldsFit layouts []) : layouts = [] := by
  cases layouts with
  | nil => rfl
  | cons it rest =>
    obtain ⟨⟨value,set,_⟩,_⟩ := fit
    cases set

theorem restrictFields_nil {layouts : List MessageLayout} {structVal : List (Str × FBTCtlMessage)}
    (none : restrictFields layouts structVal = []) : layouts = [] := by
  cases layouts with
  | nil => rfl
  | cons it rest => cases none

theorem map_congr_of_map {α β γ : Type} {f : α → β} {g : α → γ} (factors : ∀ a b, f a = f b → g a = g b)
    {as bs : List α} (same : as.map f = bs.map f) : as.map g = bs.map g := by
  induction as generalizing bs with
  | nil =>
    cases bs with
    | nil => rfl
    | cons b bs => simp at same
  | cons a as ih =>
    cases bs with
    | nil => simp at same
    | cons b bs =>
      simp only [List.map_cons,List.cons.injEq] at same ⊢
      exact ⟨factors a b same.1,ih same.2⟩

mutual
/-- The bytes of a field depend on its restricted value only. -/
theorem fieldBytes_congr : (it : MessageLayout) → ∀ a b, restrict it a = restrict it b →
    fieldBytes it a = fieldBytes it b
  | .mk type name childLayouts => by
    intro a b same
    cases a with
    | array as =>
      cases b with
      | array bs =>
        simp only [restrict,FBTCtlMessage.array.injEq] at same
        have bytes := map_congr_of_map (g := fun element : FBTCtlMessage =>
            le 1 STRUCT ++ structBytes childLayouts element.fields) (by
          intro x y fields
          simp only [FBTCtlMessage.struct.injEq,true_and] at fields
          rw [structBytes_congr childLayouts x.fields y.fields fields]) same
        have count := congrArg List.length same
        simp only [List.length_map] at count
        simp only [fieldBytes,List.flatMap_def,bytes,count]
      | undef => simp [restrict] at same
      | int => simp [restrict] at same
      | string => simp [restrict] at same
      | struct => simp [restrict] at same
      | null => simp [restrict] at same
    | undef => cases b <;> simp_all [restrict]
    | int => cases b <;> simp_all [restrict]
    | string => cases b <;> simp_all [restrict]
    | struct => cases b <;> simp_all [restrict]
    | null => cases b <;> simp_all [restrict]

theorem structBytes_congr : (layouts : List MessageLayout) → ∀ a b,
    restrictFields layouts a = restrictFields layouts b → structBytes layouts a = structBytes layouts b
  | [] => by
    intro a b _
    rfl
  | it :: rest => by
    intro a b same
    simp only [restrictFields,List.cons.injEq,Prod.mk.injEq,true_and] at same
    simp only [structBytes]
    rw [fieldBytes_congr it _ _ same.1,structBytes_congr rest a b same.2]
end

end Wire
end Btcontrol
