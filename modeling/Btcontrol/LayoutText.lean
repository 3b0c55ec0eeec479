import Btcontrol.Exec
import Btcontrol.Interop

/-! Layouts written as protocol.dat writes them, and what the two parsers make of that text. The
brace that closes an array is looked at and never consumed, so it ends every struct around the
array as well, and what stands behind it is lost. -/
namespace Btcontrol

open DataType

mutual
/-- `name:I`, `name:S` or `name:A{...}`. -/
def fieldText : MessageLayout → Str
  | .mk type name childLayouts =>
    name ++ 58 :: (if type = ARRAY then 65 :: 123 :: (fieldsText childLayouts ++ [125])
      else if type = STRING then [83] else [73])

def fieldsText : List MessageLayout → Str
  | [] => []
  | it :: rest => fieldText it ++ furtherText rest

/-- The fields behind the first, each with its comma. -/
def furtherText : List MessageLayout → Str
  | [] => []
  | it :: rest => 44 :: (fieldText it ++ furtherText rest)
end

/-- A name that does not hold ':', ',', '{' or '}'. A text has no NUL: it would end the line. -/
def Name (name : Str) : Prop := ∀ c ∈ name, c ≠ 0 ∧ c ≠ 58 ∧ c ≠ 44 ∧ c ≠ 123 ∧ c ≠ 125

instance (name : Str) : Decidable (Name name) := inferInstanceAs (Decidable (∀ _ ∈ _, _))

mutual
/-- A field of INT, STRING or non-empty ARRAY type under a name. -/
def Written : MessageLayout → Prop
  | .mk type name childLayouts => Name name ∧
    ((type = INT ∧ childLayouts = []) ∨ (type = STRING ∧ childLayouts = []) ∨
      (type = ARRAY ∧ childLayouts ≠ [] ∧ AllWritten childLayouts))

def AllWritten : List MessageLayout → Prop
  | [] => True
  | it :: rest => Written it ∧ AllWritten rest
end

mutual
/-- What is left of a layout when each struct ends with its first array. -/
def cut : MessageLayout → MessageLayout
  | .mk type name childLayouts => .mk type name (cuts childLayouts)

def cuts : List MessageLayout → List MessageLayout
  | [] => []
  | it :: rest => if it.type = ARRAY then [cut it] else it :: cuts rest
end

mutual
/-- Where a parser stops that was to read the fields in front of `behind`: there, or at the
brace of the innermost first array. -/
def stop : List MessageLayout → Str → Str
  | [], behind => behind
  | it :: rest, behind =>
    if it.type = ARRAY then stopInside it (125 :: (furtherText rest ++ behind)) else stop rest behind

def stopInside : MessageLayout → Str → Str
  | .mk _ _ childLayouts, behind => stop childLayouts behind
end

theorem cuts_array (name : Str) (childLayouts rest : List MessageLayout) :
    cuts (.mk ARRAY name childLayouts :: rest) = [.mk ARRAY name (cuts childLayouts)] := by
  simp only [cuts,cut,MessageLayout.type,↓reduceIte]

theorem cuts_leaf {it : MessageLayout} (leaf : it.type ≠ ARRAY) (rest : List MessageLayout) :
    cuts (it :: rest) = it :: cuts rest := by
  simp only [cuts,leaf,↓reduceIte]

theorem stop_array (name : Str) (childLayouts rest : List MessageLayout) (behind : Str) :
    stop (.mk ARRAY name childLayouts :: rest) behind =
      stop childLayouts (125 :: (furtherText rest ++ behind)) := by
  simp only [stop,stopInside,MessageLayout.type,↓reduceIte]

theorem stop_leaf {it : MessageLayout} (leaf : it.type ≠ ARRAY) (rest : List MessageLayout) (behind : Str) :
    stop (it :: rest) behind = stop rest behind := by
  simp only [stop,leaf,↓reduceIte]

theorem fieldName_append {name behind : Str} (named : Name name) : fieldName (name ++ 58 :: behind) = name := by
  have apart (c : UInt8) (member : c ∈ name) : decide (c ≠ 58) = true := by simpa using (named c member).2.1
  rw [fieldName,List.takeWhile_append_of_pos apart]
  simp

theorem fromColon_append {name behind : Str} (named : Name name) :
    fromColon (name ++ 58 :: behind) = 58 :: behind := by
  have apart (c : UInt8) (member : c ∈ name) : decide (c ≠ 58) = true := by simpa using (named c member).2.1
  rw [fromColon,List.dropWhile_append_of_pos apart]
  simp

theorem stop_brace : (layouts : List MessageLayout) → ∀ more, ∃ further, stop layouts (125 :: more) = 125 :: further
  | [] => fun more => ⟨more,rfl⟩
  | .mk type name childLayouts :: rest => by
    intro more
    by_cases array : type = ARRAY
    · subst array
      rw [stop_array]
      exact stop_brace childLayouts _
    · have leaf : (MessageLayout.mk type name childLayouts).type ≠ ARRAY := array
      rw [stop_leaf leaf]
      exact stop_brace rest more

/-- A text at which the fields of a struct end. -/
def Ends (behind : Str) : Prop := behind = [] ∨ ∃ more, behind = 125 :: more

theorem parseFields_last {unassigned fuel : Nat} {pos behind : Str} {info : MessageLayout}
    (field : parseField unassigned (parseFields unassigned fuel) pos = .ok (info, behind)) (ended : Ends behind) :
    parseFields unassigned (fuel + 1) pos = .ok ([info], behind) := by
  simp only [parseFields,field]
  rcases ended with rfl | ⟨more,rfl⟩ <;> rfl

theorem parseFields_comma {unassigned fuel : Nat} {pos behind rest : Str} {info : MessageLayout}
    {more : List MessageLayout} (field : parseField unassigned (parseFields unassigned fuel) pos = .ok (info, 44 :: behind))
    (others : parseFields unassigned fuel behind = .ok (more, rest)) :
    parseFields unassigned (fuel + 1) pos = .ok (info :: more, rest) := by
  simp only [parseFields,field,bind,Except.bind,others]
  rfl

theorem parseField_leaf (unassigned : Nat) {name : Str} {type : Nat} (childLayouts : List MessageLayout) (behind : Str)
    (named : Name name) (leaf : type = INT ∨ type = STRING)
    (loop : Str → Except Err (List MessageLayout × Str)) :
    parseField unassigned loop (fieldText (.mk type name childLayouts) ++ behind) = .ok (.mk type name [], behind) := by
  simp only [fieldText,List.append_assoc,List.cons_append]
  simp only [parseField,fromColon_append named,fieldName_append named]
  rcases leaf with rfl | rfl <;> rfl

theorem parseField_array {unassigned : Nat} {name behind rest : Str} {childLayouts fields : List MessageLayout}
    (named : Name name) {loop : Str → Except Err (List MessageLayout × Str)}
    (inner : loop (fieldsText childLayouts ++ 125 :: behind) = .ok (fields, rest)) :
    parseField unassigned loop (fieldText (.mk ARRAY name childLayouts) ++ behind) = .ok (.mk ARRAY name fields, rest) := by
  have some : fieldsText childLayouts ++ 125 :: behind ≠ [] := by simp
  simp only [fieldText,List.append_assoc,List.cons_append,↓reduceIte,List.nil_append]
  simp only [parseField,fromColon_append named,fieldName_append named,parseStruct,some,↓reduceIte,inner]
  rfl

theorem fieldText_length (it : MessageLayout) (behind : Str) :
    behind.length + 2 ≤ (fieldText it ++ behind).length := by
  obtain ⟨type,name,childLayouts⟩ := it
  simp only [fieldText,List.length_append,List.length_cons]
  split_ifs <;> simp only [List.length_cons,List.length_nil] <;> omega

theorem inner_length (name : Str) (childLayouts : List MessageLayout) (behind : Str) :
    (fieldsText childLayouts ++ 125 :: behind).length <
      (fieldText (.mk ARRAY name childLayouts) ++ behind).length := by
  simp only [fieldText,↓reduceIte,List.length_append,List.length_cons,List.length_nil]
  omega

theorem fieldsText_cons (it : MessageLayout) (rest : List MessageLayout) (behind : Str) :
    fieldsText (it :: rest) ++ behind = fieldText it ++ (furtherText rest ++ behind) := by
  simp only [fieldsText,List.append_assoc]

theorem furtherText_cons (it : MessageLayout) (rest : List MessageLayout) (behind : Str) :
    furtherText (it :: rest) ++ behind = 44 :: (fieldsText (it :: rest) ++ behind) := by
  simp only [furtherText,fieldsText,List.cons_append]

/-- The loop over the fields on a written layout. -/
theorem parseFields_text (unassigned : Nat) : (layouts : List MessageLayout) → layouts ≠ [] → AllWritten layouts →
    ∀ behind, Ends behind → ∀ fuel, (fieldsText layouts ++ behind).length ≤ fuel →
      parseFields unassigned fuel (fieldsText layouts ++ behind) = .ok (cuts layouts, stop layouts behind)
  | [] => fun none => absurd rfl none
  | .mk type name childLayouts :: rest => by
    intro _ written behind ended fuel enough
    obtain ⟨⟨named,kinds⟩,others⟩ := written
    rw [fieldsText_cons] at enough ⊢
    have longer := fieldText_length (.mk type name childLayouts) (furtherText rest ++ behind)
    cases fuel with
    | zero => omega
    | succ fuel =>
      have leaf (kind : type = INT ∨ type = STRING) (bare : childLayouts = []) :
          parseFields unassigned (fuel + 1) (fieldText (.mk type name childLayouts) ++ (furtherText rest ++ behind)) =
            .ok (cuts (.mk type name childLayouts :: rest),stop (.mk type name childLayouts :: rest) behind) := by
        have apart : (MessageLayout.mk type name childLayouts).type ≠ ARRAY := by
          intro array
          rcases kind with int | string
          · cases int.symm.trans array
          · cases string.symm.trans array
        have field := parseField_leaf unassigned childLayouts (furtherText rest ++ behind) named kind
          (parseFields unassigned fuel)
        rw [cuts_leaf apart,stop_leaf apart]
        subst bare
        cases rest with
        | nil => exact parseFields_last field ended
        | cons next further =>
          rw [furtherText_cons] at field longer enough
          simp only [List.length_cons] at longer
          exact parseFields_comma field
            (parseFields_text unassigned (next :: further) (by simp) others behind ended fuel (by omega))
      rcases kinds with ⟨rfl,bare⟩ | ⟨rfl,bare⟩ | ⟨rfl,some,inner⟩
      · exact leaf (.inl rfl) bare
      · exact leaf (.inr rfl) bare
      · have shorter := inner_length name childLayouts (furtherText rest ++ behind)
        have fields := parseFields_text unassigned childLayouts some inner (125 :: (furtherText rest ++ behind)) (.inr ⟨_,rfl⟩) fuel
          (by omega)
        obtain ⟨more,brace⟩ := stop_brace childLayouts (furtherText rest ++ behind)
        have last := parseFields_last (parseField_array named fields) (.inr ⟨more,brace⟩)
        rw [cuts_array,stop_array]
        exact last

/-- The C++ parser on a written layout. -/
theorem parseMessageLayout_text (unassigned : Nat) (layouts : List MessageLayout) (written : AllWritten layouts) :
    parseMessageLayout unassigned (fieldsText layouts) = .ok (.mk unassigned [] (cuts layouts), stop layouts []) := by
  cases layouts with
  | nil => simp [parseMessageLayout,fieldsText,parseStruct,cuts,stop,bind,Except.bind,pure,Except.pure]
  | cons it rest =>
    have loop := parseFields_text unassigned (it :: rest) (by simp) written [] (.inl rfl)
      (fieldsText (it :: rest)).length (by simp)
    rw [List.append_nil] at loop
    have longer := fieldText_length it (furtherText rest ++ [])
    rw [← fieldsText_cons,List.append_nil] at longer
    have some : fieldsText (it :: rest) ≠ [] := by
      intro none
      rw [none] at longer
      simp at longer
    simp only [parseMessageLayout,parseStruct,some,↓reduceIte,loop]
    rfl

namespace Java

theorem parseType_accepts {loop : Str → Except Btcontrol.Err (List MessageLayout × Str)}
    {parse : Str → Except Err (List MessageLayout × Str)}
    (nested : ∀ pos cpp, parseStruct loop pos = .ok cpp → AllTyped cpp.1 → ∃ java, parse pos = .ok java)
    {pos typePos : Str} {colon : UInt8} (found : fromColon pos = colon :: typePos)
    {cpp : MessageLayout × Str} (parsed : parseField UNDEF loop pos = .ok cpp) (typed : Typed cpp.1) :
    ∃ java, parseType parse (fieldName pos) typePos = .ok java := by
  simp only [parseField,found] at parsed
  split at parsed
  · exact ⟨_,rfl⟩
  · exact ⟨_,rfl⟩
  · split at parsed
    · rename_i rest
      obtain ⟨fields,children,result⟩ := Exec.ok_of_bind parsed
      cases result
      have inner : AllTyped fields.1 := by
        rcases typed with int | string | ⟨_,inner⟩
        · cases int
        · cases string
        · exact inner
      obtain ⟨java,javaChildren⟩ := nested rest fields children inner
      simp only [parseType,javaChildren]
      exact ⟨_,rfl⟩
    · cases parsed
  · cases parsed
    rcases typed with int | string | ⟨array,_⟩
    · cases int
    · cases string
    · cases array
  · cases parsed

/-- The Java loop takes whatever the C++ loop has taken, unless a field has been left without a
type. -/
theorem parseFields_accepts (fuel : Nat) (pos : Str) (cpp : List MessageLayout × Str)
    (parsed : Btcontrol.parseFields UNDEF fuel pos = .ok cpp) (typed : AllTyped cpp.1) :
    ∃ java, parseFields fuel pos = .ok java := by
  induction fuel generalizing pos cpp with
  | zero => cases parsed
  | succ fuel ih =>
    have nested (pos : Str) (cpp : List MessageLayout × Str)
        (parsed : parseStruct (Btcontrol.parseFields UNDEF fuel) pos = .ok cpp) (typed : AllTyped cpp.1) :
        ∃ java, parseFields fuel pos = .ok java := by
      simp only [parseStruct] at parsed
      split at parsed
      · rename_i empty
        subst empty
        cases fuel <;> exact ⟨_,rfl⟩
      · exact ih pos cpp parsed typed
    obtain ⟨info,field,parsed⟩ := Exec.ok_of_bind parsed
    cases found : fromColon pos with
    | nil =>
      simp only [parseField,found] at field
      cases field
    | cons colon typePos =>
      have fields (infoTyped : Typed info.1) : ∃ javaInfo,
          parseType (parseFields fuel) (fieldName pos) typePos = .ok javaInfo ∧ javaInfo.2 = info.2 := by
        obtain ⟨javaInfo,javaField⟩ := parseType_accepts nested found field infoTyped
        obtain ⟨_,_,rest⟩ := parseField_agree (parseStruct_agree (parseFields_agree UNDEF fuel)) found field javaField
        exact ⟨javaInfo,javaField,rest⟩
      simp only [parseFields,found]
      dsimp only at parsed
      split at parsed
      · rename_i ended
        cases parsed
        obtain ⟨javaInfo,javaField,rest⟩ := fields typed.1
        simp only [javaField,bind,Except.bind,rest,ended]
        exact ⟨_,rfl⟩
      · rename_i ended
        cases parsed
        obtain ⟨javaInfo,javaField,rest⟩ := fields typed.1
        simp only [javaField,bind,Except.bind,rest,ended]
        exact ⟨_,rfl⟩
      · rename_i next comma
        obtain ⟨more,others,result⟩ := Exec.ok_of_bind parsed
        cases result
        obtain ⟨javaInfo,javaField,rest⟩ := fields typed.1
        obtain ⟨javaMore,javaOthers⟩ := ih next more others typed.2
        simp only [javaField,bind,Except.bind,rest,comma,javaOthers]
        exact ⟨_,rfl⟩
      · cases parsed

end Java

theorem cuts_typed : (layouts : List MessageLayout) → AllWritten layouts → Java.AllTyped (cuts layouts)
  | [] => fun _ => trivial
  | .mk type name childLayouts :: rest => by
    rintro ⟨⟨_,kinds⟩,others⟩
    have further := cuts_typed rest others
    rcases kinds with ⟨rfl,_⟩ | ⟨rfl,_⟩ | ⟨rfl,_,inner⟩
    · exact ⟨.inl rfl,further⟩
    · exact ⟨.inr (.inl rfl),further⟩
    · have fields := cuts_typed childLayouts inner
      rw [cuts_array]
      exact ⟨.inr (.inr ⟨rfl,fields⟩),trivial⟩

/-- The Java parser on a written layout: the same fields, and it stops at the same place. -/
theorem parse_text (layouts : List MessageLayout) (written : AllWritten layouts) :
    Java.parse (fieldsText layouts) = .ok (.mk STRUCT [] (Java.layouts (cuts layouts)), stop layouts []) := by
  have typed := cuts_typed layouts written
  obtain ⟨⟨fields,ended⟩,loop,result⟩ := Exec.ok_of_bind (parseMessageLayout_text UNDEF layouts written)
  obtain ⟨rfl,rfl⟩ : fields = cuts layouts ∧ ended = stop layouts [] := by
    simpa [pure,Except.pure] using result
  have accepted : ∃ java, Java.parseFields (fieldsText layouts).length (fieldsText layouts) = .ok java := by
    simp only [parseStruct] at loop
    split at loop
    · rename_i empty
      rw [empty]
      exact ⟨_,rfl⟩
    · exact Java.parseFields_accepts _ _ _ loop typed
  obtain ⟨java,javaLoop⟩ := accepted
  obtain ⟨_,same,rest⟩ := Java.parseStruct_agree (Java.parseFields_agree UNDEF _) _ _ java loop javaLoop
  simp only [Java.parse,javaLoop,bind,Except.bind,same,rest]
  rfl

/-- The text of a layout is parsed to that layout and read to its end. -/
def CppInverts (layouts : List MessageLayout) : Prop :=
  ∀ unassigned, parseMessageLayout unassigned (fieldsText layouts) = .ok (.mk unassigned [] layouts, [])

def JavaInverts (layouts : List MessageLayout) : Prop :=
  Java.parse (fieldsText layouts) = .ok (.mk STRUCT [] (Java.layouts layouts), [])

/-- No field is an array. -/
def Flat (layouts : List MessageLayout) : Prop := ∀ it ∈ layouts, it.type ≠ ARRAY

theorem cuts_flat (layouts : List MessageLayout) (flat : Flat layouts) : cuts layouts = layouts := by
  induction layouts with
  | nil => rfl
  | cons it rest ih =>
    rw [cuts_leaf (flat it List.mem_cons_self),ih (fun it member => flat it (List.mem_cons_of_mem _ member))]

theorem stop_flat (layouts : List MessageLayout) : stop layouts [] = [] ↔ Flat layouts := by
  induction layouts with
  | nil => simp [stop,Flat]
  | cons it rest ih =>
    simp only [Flat,List.forall_mem_cons]
    by_cases array : it.type = ARRAY
    · obtain ⟨type,name,childLayouts⟩ := it
      obtain rfl : type = ARRAY := array
      obtain ⟨more,brace⟩ := stop_brace childLayouts (furtherText rest ++ [])
      rw [stop_array,brace]
      simp [MessageLayout.type]
    · rw [stop_leaf array,ih]
      simp only [array,ne_eq,not_false_eq_true,true_and,Flat]

/-- Either parser gives a written layout back and consumes its text exactly if no field of it is
an array. -/
theorem parsers_invert_iff (layouts : List MessageLayout) (written : AllWritten layouts) :
    (CppInverts layouts ↔ Flat layouts) ∧ (JavaInverts layouts ↔ Flat layouts) := by
  simp only [CppInverts,JavaInverts,parseMessageLayout_text _ layouts written,parse_text layouts written,
    Except.ok.injEq,Prod.mk.injEq,stop_flat]
  constructor
  · constructor
    · exact fun both => (both UNDEF).2
    · intro flat unassigned
      rw [cuts_flat layouts flat]
      exact ⟨rfl,flat⟩
  · constructor
    · exact fun both => both.2
    · intro flat
      rw [cuts_flat layouts flat]
      exact ⟨rfl,flat⟩

theorem written_int (name : String) (named : Name (str name)) : Written (intField name) :=
  ⟨named,.inl ⟨rfl,rfl⟩⟩

theorem names_plain : Name (str "addr") ∧ Name (str "dir") ∧ Name (str "list") := by decide +kernel

/-- The layout of DIR. -/
theorem parsers_invert_iff_dir : AllWritten [intField "addr",intField "dir"] ∧
    (CppInverts [intField "addr",intField "dir"] ↔ Flat [intField "addr",intField "dir"]) ∧
    (JavaInverts [intField "addr",intField "dir"] ↔ Flat [intField "addr",intField "dir"]) := by
  have written : AllWritten [intField "addr",intField "dir"] :=
    ⟨written_int "addr" names_plain.1,written_int "dir" names_plain.2.1,trivial⟩
  exact ⟨written,parsers_invert_iff _ written⟩

/-- DIR_MULTI with its list in front of the direction. -/
def listFirst : List MessageLayout := [arrayField "list" [intField "addr"],intField "dir"]

/-- Both parsers lose the direction and stop at the brace. -/
theorem listFirst_lost : AllWritten listFirst ∧ ¬CppInverts listFirst ∧ ¬JavaInverts listFirst := by
  have cpp : parseMessageLayout UNDEF (fieldsText listFirst) =
      .ok (.mk UNDEF [] [arrayField "list" [intField "addr"]],str "\x7d,dir:I") := rfl
  have java : Java.parse (fieldsText listFirst) = .ok (.mk STRUCT []
      [.mk ARRAY (str "list") [.mk STRUCT [] [intField "addr"]]],str "\x7d,dir:I") := rfl
  constructor
  · have inner : AllWritten [intField "addr"] := ⟨written_int "addr" names_plain.1,trivial⟩
    exact ⟨⟨names_plain.2.2,.inr (.inr ⟨rfl,by simp,inner⟩)⟩,written_int "dir" names_plain.2.1,trivial⟩
  · constructor
    · intro inverts
      have parsed := cpp.symm.trans (inverts UNDEF)
      cases parsed
    · intro inverts
      rw [JavaInverts,java] at inverts
      cases inverts

end Btcontrol
