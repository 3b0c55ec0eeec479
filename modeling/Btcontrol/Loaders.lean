import Btcontrol.Interop
import Btcontrol.Load

/-! The two loaders of protocol.dat on one text. With plain line ends and no white space other
than blanks they see the same lines, and a line both parse has the same fields for both. -/
namespace Btcontrol

open DataType

/-! ### Layouts -/

mutual
/-- Only an array has fields below it. -/
def Bare : MessageLayout → Prop
  | .mk type _ childLayouts => if type = ARRAY then AllBare childLayouts else childLayouts = []

def AllBare : List MessageLayout → Prop
  | [] => True
  | it :: rest => Bare it ∧ AllBare rest
end

theorem parseStruct_bare {loop : Str → Except Err (List MessageLayout × Str)}
    (bare : ∀ pos read, loop pos = .ok read → AllBare read.1) {pos : Str}
    {read : List MessageLayout × Str} (parsed : parseStruct loop pos = .ok read) : AllBare read.1 := by
  simp only [parseStruct] at parsed
  split at parsed
  · cases parsed
    trivial
  · exact bare pos read parsed

theorem parseField_bare {unassigned : Nat} {loop : Str → Except Err (List MessageLayout × Str)}
    (bare : ∀ pos read, loop pos = .ok read → AllBare read.1) {pos : Str} {read : MessageLayout × Str}
    (parsed : parseField unassigned loop pos = .ok read) : Bare read.1 := by
  simp only [parseField] at parsed
  split at parsed
  · cases parsed
  · split at parsed
    · cases parsed
      rfl
    · cases parsed
      rfl
    · split at parsed
      · obtain ⟨fields,children,result⟩ := Exec.ok_of_bind parsed
        cases result
        exact parseStruct_bare bare children
      · cases parsed
    · cases parsed
      simp only [Bare]
      split <;> trivial
    · cases parsed

theorem parseFields_bare (unassigned fuel : Nat) (pos : Str) (read : List MessageLayout × Str)
    (parsed : parseFields unassigned fuel pos = .ok read) : AllBare read.1 := by
  induction fuel generalizing pos read with
  | zero => cases parsed
  | succ fuel ih =>
    obtain ⟨⟨info,rest⟩,field,parsed⟩ := Exec.ok_of_bind parsed
    have first : Bare info := parseField_bare ih field
    dsimp only at parsed
    split at parsed
    · cases parsed
      exact ⟨first,trivial⟩
    · cases parsed
      exact ⟨first,trivial⟩
    · obtain ⟨more,others,result⟩ := Exec.ok_of_bind parsed
      cases result
      exact ⟨first,ih _ _ others⟩
    · cases parsed

theorem parseMessageLayout_bare {unassigned : Nat} {pos : Str} {read : MessageLayout × Str}
    (parsed : parseMessageLayout unassigned pos = .ok read) : AllBare read.1.childLayouts := by
  obtain ⟨fields,children,result⟩ := Exec.ok_of_bind parsed
  cases result
  exact parseStruct_bare (parseFields_bare unassigned pos.length) children

namespace Java

mutual
/-- The detour over the Java form of a layout loses nothing. -/
theorem plain_layout : (it : MessageLayout) → Typed it → Bare it → plain (layout it) = it
  | .mk type name childLayouts => by
    intro typed bare
    by_cases array : type = ARRAY
    · subst array
      simp only [Bare,↓reduceIte] at bare
      have inner : AllTyped childLayouts := by
        rcases typed with int | string | ⟨_,inner⟩
        · cases int
        · cases string
        · exact inner
      simp only [layout,plain,unwrapped,↓reduceIte,plains_layouts childLayouts inner bare]
    · simp only [Bare,array,↓reduceIte] at bare
      subst bare
      simp only [layout,plain,array,↓reduceIte,plains]

theorem plains_layouts : (childLayouts : List MessageLayout) → AllTyped childLayouts →
    AllBare childLayouts → plains (layouts childLayouts) = childLayouts
  | [] => by
    intro _ _
    simp only [layouts,plains]
  | it :: rest => by
    intro typed bare
    simp only [layouts,plains,plain_layout it typed.1 bare.1,plains_layouts rest typed.2 bare.2]
end

end Java

/-! ### Lines -/

/-- A text both loaders take apart alike: no NUL, and no white space but blanks and line ends. -/
def Plain (text : Str) : Prop := ∀ c ∈ text, c ≠ 0 ∧ (isspace c = true → c = 32 ∨ c = 10)

instance (text : Str) : Decidable (Plain text) := inferInstanceAs (Decidable (∀ _ ∈ _, _))

theorem myReadLns_getlines (line text : Str) (plainText : ∀ c ∈ text, c ≠ 13) :
    Java.myReadLns line text = getlines line text := by
  induction text generalizing line with
  | nil => rfl
  | cons c rest ih =>
    have here := plainText c List.mem_cons_self
    have others (line : Str) := ih line (fun c member => plainText c (List.mem_cons_of_mem _ member))
    unfold Java.myReadLns getlines
    split
    · rename_i same
      cases same
    · rename_i same
      cases same
      exact absurd rfl here
    · rename_i same
      cases same
      exact absurd rfl here
    · rename_i same
      cases same
      simp only [others]

theorem mem_getlines {line text : Str} {found : Str} {c : UInt8} (member : found ∈ getlines line text)
    (inside : c ∈ found) : c ∈ line ∨ (c ∈ text ∧ c ≠ 10) := by
  induction text generalizing line with
  | nil =>
    simp only [getlines] at member
    split at member
    · cases member
    · rw [List.mem_singleton.mp member] at inside
      exact .inl inside
  | cons first rest ih =>
    simp only [getlines] at member
    split at member
    · rcases List.mem_cons.mp member with rfl | later
      · exact .inl inside
      · rcases ih later with none | ⟨behind,noEnd⟩
        · cases none
        · exact .inr ⟨List.mem_cons_of_mem _ behind,noEnd⟩
    · rename_i noEnd
      rcases ih member with begun | ⟨behind,noEnd⟩
      · rcases List.mem_append.mp begun with old | new
        · exact .inl old
        · rw [List.mem_singleton.mp new]
          exact .inr ⟨List.mem_cons_self,noEnd⟩
      · exact .inr ⟨List.mem_cons_of_mem _ behind,noEnd⟩

/-- The lines of a plain text, which are plain themselves. -/
theorem lines_plain {text : Str} (plainText : Plain text) :
    (∀ unassigned, (Side.cpp unassigned).lines text = getlines [] text) ∧ Side.java.lines text = getlines [] text ∧
      ∀ line ∈ getlines [] text, ∀ c ∈ line, isspace c = true → c = 32 := by
  have each {line : Str} (member : line ∈ getlines [] text) {c : UInt8} (inside : c ∈ line) :
      c ∈ text ∧ c ≠ 10 := by
    rcases mem_getlines member inside with none | found
    · cases none
    · exact found
  refine ⟨?_,?_,?_⟩
  · have whole : ∀ line ∈ getlines [] text, line.takeWhile (· ≠ 0) = line := by
      intro line member
      rw [List.takeWhile_eq_self_iff]
      intro c inside
      simpa using (plainText c (each member inside).1).1
    simp only [Side.lines]
    intro unassigned
    rw [List.map_congr_left whole,List.map_id']
  · apply myReadLns_getlines
    rintro c member rfl
    rcases (plainText 13 member).2 (by decide) with blank | lineEnd
    · cases blank
    · cases lineEnd
  · intro line member c inside space
    obtain ⟨inText,noEnd⟩ := each member inside
    rcases (plainText c inText).2 space with blank | lineEnd
    · exact blank
    · exact absurd lineEnd noEnd

/-! ### Definitions -/

theorem dropWhile_blank {line : Str} (blanks : ∀ c ∈ line, isspace c = true → c = 32) :
    line.dropWhile isspace = line.dropWhile (· = 32) := by
  induction line with
  | nil => rfl
  | cons c rest ih =>
    have same : isspace c = decide (c = 32) := by
      rw [Bool.eq_iff_iff,decide_eq_true_iff]
      constructor
      · exact blanks c List.mem_cons_self
      · rintro rfl
        rfl
    simp only [List.dropWhile_cons,same,ih (fun c member => blanks c (List.mem_cons_of_mem _ member))]

/-- What both loaders get from one line. -/
theorem definition_agree {unassigned : Str → Nat} {line : Str} (blanks : ∀ c ∈ line, isspace c = true → c = 32)
    {cpp java : Option (Str × MessageLayout)} (defined : definition unassigned line = .ok cpp)
    (javaDefined : Java.definition line = .ok java) :
    cpp.map (fun found => (found.1, found.2.childLayouts)) =
      java.map (fun found => (found.1, Java.plains found.2.childLayouts)) := by
  simp only [definition,dropWhile_blank blanks] at defined
  simp only [Java.definition] at javaDefined
  split at defined
  · rename_i blank
    cases defined
    rw [blank] at javaDefined
    cases javaDefined
    rfl
  · rename_i some
    split at javaDefined
    · rename_i blank
      exact absurd blank some
    · simp only [identified] at defined javaDefined
      split at defined
      · cases defined
      · rename_i behind
        rw [behind] at javaDefined
        obtain ⟨read,parsed,result⟩ := Exec.ok_of_bind defined
        obtain ⟨javaRead,javaParsed,javaResult⟩ := Exec.ok_of_bind javaDefined
        cases result
        cases javaResult
        obtain ⟨typed,children⟩ := Java.parse_agree parsed javaParsed
        have bare := parseMessageLayout_bare parsed
        simp only [Option.map_some,children,Java.plains_layouts _ typed bare]

/-- A loader that has gone through all lines has got a definition from each. -/
theorem loadLines_defined {ε : Type} {definition : Str → Except ε (Option (Str × MessageLayout))}
    {put : Str → MessageLayout → List (Str × MessageLayout) → List (Str × MessageLayout)}
    {lines : List Str} {loading loaded : Loading}
    (ran : lines.foldlM (loadLine definition put) loading = .ok loaded) :
    ∀ line ∈ lines, isMessage line = true → ∃ found, definition line = .ok found := by
  induction lines generalizing loading with
  | nil => simp
  | cons line rest ih =>
    obtain ⟨next,first,ran⟩ := Exec.ok_of_bind ran
    intro other member message
    rcases List.mem_cons.mp member with rfl | later
    · rcases loadLine_cases first with ⟨comment,_⟩ | ⟨_,blank,_⟩ | ⟨name,layout,_,defined,_⟩
      · rw [comment] at message
        cases message
      · exact ⟨_,blank⟩
      · exact ⟨_,defined⟩
    · exact ih ran other later message

/-- Lines that both loaders take define the same messages for both. -/
theorem definitions_agree (unassigned : Str → Nat) (lines : List Str)
    (blanks : ∀ line ∈ lines, ∀ c ∈ line, isspace c = true → c = 32)
    (defined : ∀ line ∈ lines, isMessage line = true → ∃ found, definition unassigned line = .ok found)
    (javaDefined : ∀ line ∈ lines, isMessage line = true → ∃ found, Java.definition line = .ok found) :
    definitions (definition unassigned) lines =
      (definitions Java.definition lines).map (Prod.map id Java.plains) := by
  simp only [definitions,List.map_filterMap]
  apply List.filterMap_congr
  intro line member
  obtain ⟨inLines,message⟩ := List.mem_filter.mp member
  obtain ⟨cpp,found⟩ := defined line inLines message
  obtain ⟨java,javaFound⟩ := javaDefined line inLines message
  have same := definition_agree (blanks line inLines) found javaFound
  simp only [found,javaFound]
  cases cpp with
  | none =>
    cases java with
    | none => rfl
    | some _ => cases same
  | some _ =>
    cases java with
    | none => cases same
    | some _ => exact same

/-- Two loaders that finish with one plain protocol.dat have the same hash, the same names, and
the same number and fields for each. -/
theorem loaders_agree (unassigned : Str → Nat) (text : Str) (plainText : Plain text) (cpp java : Int × List (Str × MessageLayout))
    (loaded : (Side.cpp unassigned).load text = some cpp) (javaLoaded : Side.java.load text = some java) :
    cpp.1 = java.1 ∧ ∀ name, (Side.cpp unassigned).uses cpp.2 name = Side.java.uses java.2 name := by
  obtain ⟨cppLines,javaLines,blanks⟩ := lines_plain plainText
  constructor
  · rw [Side.load_hash loaded,Side.load_hash javaLoaded,cppLines,javaLines]
  · intro name
    obtain ⟨loading,ran,_⟩ := Side.cpp_loaded loaded
    obtain ⟨javaLoading,javaRan,_⟩ := Side.java_loaded javaLoaded
    rw [cppLines unassigned] at ran
    rw [javaLines] at javaRan
    rw [Side.load_uses loaded,Side.load_uses javaLoaded]
    simp only [Side.messages,cppLines,javaLines,
      definitions_agree unassigned _ blanks (loadLines_defined ran) (loadLines_defined javaRan)]

def oddDat : Str := str "PING=\n  ACC=list:A\x7baddr:I\n#x\nACC=list:A\x7baddr:I\x7d;\nPING=a:S"

theorem loaders_agree_odd : ∃ cpp java, (Side.cpp (fun _ => UNDEF)).load oddDat = some cpp ∧ Side.java.load oddDat = some java ∧
    cpp.1 = java.1 ∧ ∀ name, (Side.cpp (fun _ => UNDEF)).uses cpp.2 name = Side.java.uses java.2 name := by
  have cppLoads : ((Side.cpp (fun _ => UNDEF)).load oddDat).isSome = true := by decide +kernel
  have javaLoads : (Side.java.load oddDat).isSome = true := by decide +kernel
  obtain ⟨cpp,loaded⟩ := Option.isSome_iff_exists.mp cppLoads
  obtain ⟨java,javaLoaded⟩ := Option.isSome_iff_exists.mp javaLoads
  exact ⟨cpp,java,loaded,javaLoaded,loaders_agree _ oddDat (by decide +kernel) cpp java loaded javaLoaded⟩

end Btcontrol
