import Btcontrol.Layout

/-! `parseMessageLayout` of `message_layout.cpp` and `parse` of the Java `MessageLayout`. A
position in the line is what stands behind it. The two loops differ where the line ends: the
C++ one takes an unfinished field at its end for complete, the Java one a missing field. The
type of such a field is not assigned: `unassigned` is what stands there. -/
namespace Btcontrol

open DataType

/-- The text before the next colon. -/
def fieldName (pos : Str) : Str := pos.takeWhile (fun c => c ≠ 58)

/-- What stands from the next colon on. -/
def fromColon (pos : Str) : Str := pos.dropWhile (fun c => c ≠ 58)

/-- The test at the head of `parseMessageLayout`, before its loop. -/
def parseStruct (loop : Str → Except Err (List MessageLayout × Str)) (pos : Str) :
    Except Err (List MessageLayout × Str) :=
  if pos = [] then .ok ([], []) else loop pos

/-- One field, `loop` parsing the fields of an array. -/
def parseField (unassigned : Nat) (loop : Str → Except Err (List MessageLayout × Str)) (pos : Str) :
    Except Err (MessageLayout × Str) :=
  match fromColon pos with
  | [] => .error .nameNotFound
  | _ :: typePos => match typePos with
    | 73 :: rest => .ok (.mk INT (fieldName pos) [], rest)             -- 'I'
    | 83 :: rest => .ok (.mk STRING (fieldName pos) [], rest)          -- 'S'
    | 65 :: brace => match brace with                                  -- 'A'
      | 123 :: rest => do                                              -- '\x7b'
        let (childLayouts, rest) ← parseStruct loop rest
        return (.mk ARRAY (fieldName pos) childLayouts, rest)
      | _ => .error (.arrayBrace brace)
    | [] => .ok (.mk unassigned (fieldName pos) [], [])                -- only the name is assigned
    | _ => .error (.invalidTypeChar typePos)

/-- The loop over the fields. It takes a colon each time, so the line's length bounds it. -/
def parseFields (unassigned : Nat) : Nat → Str → Except Err (List MessageLayout × Str)
  | 0, _ => .error .nameNotFound
  | fuel + 1, pos => do
    let (info, pos) ← parseField unassigned (parseFields unassigned fuel) pos
    match pos with
    | [] => return ([info], [])
    | 125 :: _ => return ([info], pos)                                 -- '\x7d'
    | 44 :: rest => do                                                 -- ','
      let (more, rest) ← parseFields unassigned fuel rest
      return (info :: more, rest)
    | _ => .error .commaExpected

/-- The type of the whole is assigned by the caller. -/
def parseMessageLayout (unassigned : Nat) (pos : Str) : Except Err (MessageLayout × Str) := do
  let (childLayouts, pos) ← parseStruct (parseFields unassigned pos.length) pos
  return (.mk unassigned [] childLayouts, pos)

/-! The bound on the loop is enough: with the line's length or more it never shows. -/

theorem fromColon_length (pos : Str) : (fromColon pos).length ≤ pos.length :=
  (List.dropWhile_sublist _).length_le

theorem parseStruct_rest {loop : Str → Except Err (List MessageLayout × Str)}
    (shrinks : ∀ pos read, loop pos = .ok read → read.2.length ≤ pos.length) {pos : Str}
    {read : List MessageLayout × Str} (parsed : parseStruct loop pos = .ok read) :
    read.2.length ≤ pos.length := by
  simp only [parseStruct] at parsed
  split at parsed
  · cases parsed
    exact Nat.zero_le _
  · exact shrinks pos read parsed

theorem parseField_rest {unassigned : Nat} {loop : Str → Except Err (List MessageLayout × Str)}
    (shrinks : ∀ pos read, loop pos = .ok read → read.2.length ≤ pos.length) {pos : Str}
    {read : MessageLayout × Str} (parsed : parseField unassigned loop pos = .ok read) :
    read.2.length < pos.length := by
  have shorter := fromColon_length pos
  simp only [parseField] at parsed
  split at parsed
  · contradiction
  · rename_i colon typePos found
    rw [found,List.length_cons] at shorter
    split at parsed
    · cases parsed
      simp only [List.length_cons] at shorter
      dsimp only
      omega
    · cases parsed
      simp only [List.length_cons] at shorter
      dsimp only
      omega
    · split at parsed
      · rename_i rest
        cases children : parseStruct loop rest with
        | error e => simp [children,bind,Except.bind] at parsed
        | ok fields =>
          have inner := parseStruct_rest shrinks children
          simp only [children,bind,Except.bind,pure,Except.pure] at parsed
          cases parsed
          simp only [List.length_cons] at shorter
          dsimp only
          omega
      · contradiction
    · cases parsed
      simp only [List.length_nil] at shorter ⊢
      omega
    · contradiction

theorem parseFields_rest (unassigned fuel : Nat) (pos : Str) (read : List MessageLayout × Str)
    (parsed : parseFields unassigned fuel pos = .ok read) : read.2.length ≤ pos.length := by
  induction fuel generalizing pos read with
  | zero => contradiction
  | succ fuel ih =>
    simp only [parseFields] at parsed
    cases field : parseField unassigned (parseFields unassigned fuel) pos with
    | error e => simp [field,bind,Except.bind] at parsed
    | ok info =>
      have shorter := parseField_rest ih field
      simp only [field,bind,Except.bind] at parsed
      obtain ⟨info,rest⟩ := info
      dsimp only at parsed shorter
      split at parsed
      · cases parsed
        exact Nat.zero_le _
      · cases parsed
        exact Nat.le_of_lt shorter
      · rename_i next
        cases more : parseFields unassigned fuel next with
        | error e => simp [more] at parsed
        | ok fields =>
          have inner := ih next fields more
          simp only [more,pure,Except.pure] at parsed
          cases parsed
          simp only [List.length_cons] at shorter
          dsimp only
          omega
      · contradiction

theorem parseField_congr {unassigned : Nat} {loop loop' : Str → Except Err (List MessageLayout × Str)} {pos : Str}
    (same : ∀ rest, rest.length < pos.length → loop rest = loop' rest) :
    parseField unassigned loop pos = parseField unassigned loop' pos := by
  have shorter := fromColon_length pos
  simp only [parseField]
  split
  · rfl
  · rename_i colon typePos found
    rw [found,List.length_cons] at shorter
    split
    · rfl
    · rfl
    · split
      · rename_i rest
        simp only [List.length_cons] at shorter
        simp only [parseStruct,same rest (by omega)]
      · rfl
    · rfl
    · rfl

theorem parseFields_fuel (unassigned fuel fuel' : Nat) (pos : Str) (enough : pos.length ≤ fuel)
    (enough' : pos.length ≤ fuel') : parseFields unassigned fuel pos = parseFields unassigned fuel' pos := by
  induction fuel generalizing fuel' pos with
  | zero =>
    cases List.length_eq_zero_iff.mp (Nat.le_zero.mp enough)
    cases fuel' <;> rfl
  | succ fuel ih =>
    cases fuel' with
    | zero =>
      cases List.length_eq_zero_iff.mp (Nat.le_zero.mp enough')
      rfl
    | succ fuel' =>
      have fields : parseField unassigned (parseFields unassigned fuel) pos =
          parseField unassigned (parseFields unassigned fuel') pos :=
        parseField_congr (fun rest shorter => ih fuel' rest (by omega) (by omega))
      simp only [parseFields,fields]
      cases field : parseField unassigned (parseFields unassigned fuel') pos with
      | error e => rfl
      | ok info =>
        have shorter := parseField_rest (parseFields_rest unassigned fuel') field
        obtain ⟨info,rest⟩ := info
        simp only [bind,Except.bind]
        split
        · rfl
        · rfl
        · rename_i next
          simp only [List.length_cons] at shorter
          rw [ih fuel' next (by omega) (by omega)]
        · rfl

/-- `layout.type=typeNr` after parsing a line of protocol.dat. -/
def MessageLayout.numbered (typeNr : Nat) (layout : MessageLayout) : MessageLayout :=
  .mk typeNr layout.name layout.childLayouts

namespace Java

/-- The exceptions of the Java protocol classes, with the source's text beside them. -/
inductive Err where
  | stringIndexOutOfBounds
  | arrayIndexOutOfBounds
  | nullPointer
  | noSuchElement
  | expectedBrace                          -- "expected \x7b"
  | errorParsingLine (rest : Str)          -- "error parsing line (pos="+pos+")"
  | invalidChar (rest : Str)               -- "invalid char '"+line.charAt(pos)+"' @"+pos
  | getLayout (type : Nat)                 -- "getLayout type "+type+" invalid"
  | noLayout                               -- "readMessage no layout"
  | unexpectedType (type expected : Nat)   -- "readMessage type("+elementType+") != expected type("+childLayout.type+")"
  | invalidType                            -- "invalid type"
  | missing (name : Str)                   -- "getBinMsg ["+childLayout.name+"] missing"
  | invalidDatatype                        -- "getBinaryMessage invalid datatype"
  | nullPointerEx (name : Str)             -- "getBinMsg NullPointerEx ["+childLayout.name+"]"
  | endless                                -- a loop of the source that never ends
  deriving DecidableEq, Repr

/-- One field behind its colon. An array's layout has one child, the struct of its fields. -/
def parseType (parse : Str → Except Err (List MessageLayout × Str)) (name : Str) :
    Str → Except Err (MessageLayout × Str)
  | [] => .error .stringIndexOutOfBounds
  | 73 :: rest => .ok (.mk INT name [], rest)
  | 83 :: rest => .ok (.mk STRING name [], rest)
  | 65 :: brace => match brace with
    | 123 :: rest => do
      let (childLayout, rest) ← parse rest
      return (.mk ARRAY name [.mk STRUCT [] childLayout], rest)
    | [] => .error .stringIndexOutOfBounds
    | _ => .error .expectedBrace
  | pos => .error (.errorParsingLine pos)

/-- The loop of `MessageLayout.parse`; where no colon follows, the fields so far are all. -/
def parseFields : Nat → Str → Except Err (List MessageLayout × Str)
  | 0, pos => .ok ([], pos)
  | fuel + 1, pos => match fromColon pos with
    | [] => .ok ([], [])
    | _ :: typePos => do
      let (info, pos) ← parseType (parseFields fuel) (fieldName pos) typePos
      match pos with
      | [] => return ([info], [])
      | 125 :: _ => return ([info], pos)
      | 44 :: rest => do
        let (more, rest) ← parseFields fuel rest
        return (info :: more, rest)
      | _ => .error (.invalidChar pos)

def parse (pos : Str) : Except Err (MessageLayout × Str) := do
  let (childLayout, pos) ← parseFields pos.length pos
  return (.mk STRUCT [] childLayout, pos)

theorem parseType_rest {parse : Str → Except Err (List MessageLayout × Str)}
    (shrinks : ∀ pos read, parse pos = .ok read → read.2.length ≤ pos.length) {name pos : Str}
    {read : MessageLayout × Str} (parsed : parseType parse name pos = .ok read) :
    read.2.length < pos.length := by
  simp only [parseType] at parsed
  split at parsed
  · contradiction
  · cases parsed
    simp
  · cases parsed
    simp
  · split at parsed
    · rename_i rest
      cases children : parse rest with
      | error e => simp [children,bind,Except.bind] at parsed
      | ok fields =>
        have inner := shrinks rest fields children
        simp only [children,bind,Except.bind,pure,Except.pure] at parsed
        cases parsed
        simp only [List.length_cons]
        omega
    · contradiction
    · contradiction
  · contradiction

theorem parseFields_rest (fuel : Nat) (pos : Str) (read : List MessageLayout × Str)
    (parsed : parseFields fuel pos = .ok read) : read.2.length ≤ pos.length := by
  induction fuel generalizing pos read with
  | zero =>
    cases parsed
    exact Nat.le_refl _
  | succ fuel ih =>
    have shorter := fromColon_length pos
    simp only [parseFields] at parsed
    split at parsed
    · cases parsed
      exact Nat.zero_le _
    · rename_i colon typePos found
      rw [found,List.length_cons] at shorter
      cases field : parseType (parseFields fuel) (fieldName pos) typePos with
      | error e => simp [field,bind,Except.bind] at parsed
      | ok info =>
        have inner := parseType_rest ih field
        simp only [field,bind,Except.bind] at parsed
        obtain ⟨info,rest⟩ := info
        dsimp only at parsed inner
        split at parsed
        · cases parsed
          exact Nat.zero_le _
        · cases parsed
          dsimp only
          omega
        · rename_i next
          cases more : parseFields fuel next with
          | error e => simp [more] at parsed
          | ok fields =>
            have last := ih next fields more
            simp only [more,pure,Except.pure] at parsed
            cases parsed
            simp only [List.length_cons] at inner
            dsimp only
            omega
        · contradiction

theorem parseType_congr {parse parse' : Str → Except Err (List MessageLayout × Str)} {name pos : Str}
    (same : ∀ rest, rest.length < pos.length → parse rest = parse' rest) :
    parseType parse name pos = parseType parse' name pos := by
  simp only [parseType]
  split
  · rfl
  · rfl
  · rfl
  · split
    · rename_i rest
      rw [same rest (by simp only [List.length_cons]; omega)]
    · rfl
    · rfl
  · rfl

theorem parseFields_fuel (fuel fuel' : Nat) (pos : Str) (enough : pos.length ≤ fuel)
    (enough' : pos.length ≤ fuel') : parseFields fuel pos = parseFields fuel' pos := by
  induction fuel generalizing fuel' pos with
  | zero =>
    cases List.length_eq_zero_iff.mp (Nat.le_zero.mp enough)
    cases fuel' <;> rfl
  | succ fuel ih =>
    cases fuel' with
    | zero =>
      cases List.length_eq_zero_iff.mp (Nat.le_zero.mp enough')
      rfl
    | succ fuel' =>
      have shorter := fromColon_length pos
      simp only [parseFields]
      split
      · rfl
      · rename_i colon typePos found
        rw [found,List.length_cons] at shorter
        have fields : parseType (parseFields fuel) (fieldName pos) typePos =
            parseType (parseFields fuel') (fieldName pos) typePos :=
          parseType_congr (fun rest inner => ih fuel' rest (by omega) (by omega))
        rw [fields]
        cases field : parseType (parseFields fuel') (fieldName pos) typePos with
        | error e => rfl
        | ok info =>
          have inner := parseType_rest (parseFields_rest fuel') field
          obtain ⟨info,rest⟩ := info
          simp only [bind,Except.bind]
          split
          · rfl
          · rfl
          · rename_i next
            simp only [List.length_cons] at inner
            rw [ih fuel' next (by omega) (by omega)]
          · rfl

mutual
/-- The Java layout for a C++ one: the fields of an array move into a struct of their own. -/
def layout : MessageLayout → MessageLayout
  | .mk type name childLayouts =>
    .mk type name (if type = ARRAY then [.mk STRUCT [] (layouts childLayouts)] else [])

def layouts : List MessageLayout → List MessageLayout
  | [] => []
  | it :: rest => layout it :: layouts rest
end

mutual
/-- Every field has one of the three types a line can name. -/
def Typed : MessageLayout → Prop
  | .mk type _ childLayouts => type = INT ∨ type = STRING ∨ (type = ARRAY ∧ AllTyped childLayouts)

def AllTyped : List MessageLayout → Prop
  | [] => True
  | it :: rest => Typed it ∧ AllTyped rest
end

/-- What two parsers have read from one position. -/
def Agree (cpp java : List MessageLayout × Str) : Prop :=
  AllTyped cpp.1 ∧ java.1 = layouts cpp.1 ∧ java.2 = cpp.2

theorem parseField_agree {unassigned : Nat} {loop : Str → Except Btcontrol.Err (List MessageLayout × Str)}
    {parse : Str → Except Err (List MessageLayout × Str)}
    (nested : ∀ pos cpp java, parseStruct loop pos = .ok cpp → parse pos = .ok java → Agree cpp java)
    {pos typePos : Str} {colon : UInt8} (found : fromColon pos = colon :: typePos)
    {cpp java : MessageLayout × Str} (parsed : parseField unassigned loop pos = .ok cpp)
    (javaParsed : parseType parse (fieldName pos) typePos = .ok java) :
    Typed cpp.1 ∧ java.1 = layout cpp.1 ∧ java.2 = cpp.2 := by
  simp only [parseField,found] at parsed
  split at parsed
  · cases parsed
    cases javaParsed
    exact ⟨.inl rfl,rfl,rfl⟩
  · cases parsed
    cases javaParsed
    exact ⟨.inr (.inl rfl),rfl,rfl⟩
  · split at parsed
    · rename_i rest
      simp only [parseType] at javaParsed
      cases children : parseStruct loop rest with
      | error e => simp [children,bind,Except.bind] at parsed
      | ok fields =>
        cases javaChildren : parse rest with
        | error e => simp [javaChildren,bind,Except.bind] at javaParsed
        | ok javaFields =>
          obtain ⟨typed,same,rest⟩ := nested rest fields javaFields children javaChildren
          simp only [children,bind,Except.bind,pure,Except.pure] at parsed
          simp only [javaChildren,bind,Except.bind,pure,Except.pure] at javaParsed
          cases parsed
          cases javaParsed
          exact ⟨.inr (.inr ⟨rfl,typed⟩),by simp [layout,same],rest⟩
    · contradiction
  · contradiction
  · contradiction

/-- The C++ test for an empty line changes nothing: the Java loop ends there too. -/
theorem parseStruct_agree {unassigned fuel : Nat}
    (loops : ∀ pos cpp java, Btcontrol.parseFields unassigned fuel pos = .ok cpp → parseFields fuel pos = .ok java →
      Agree cpp java) (pos : Str) (cpp java : List MessageLayout × Str)
    (parsed : parseStruct (Btcontrol.parseFields unassigned fuel) pos = .ok cpp)
    (javaParsed : parseFields fuel pos = .ok java) : Agree cpp java := by
  simp only [parseStruct] at parsed
  split at parsed
  · rename_i empty
    cases parsed
    subst empty
    cases fuel <;> cases javaParsed <;> exact ⟨trivial,rfl,rfl⟩
  · exact loops pos cpp java parsed javaParsed

/-- Where both loops accept, they have read the same fields and stand at the same place. -/
theorem parseFields_agree (unassigned fuel : Nat) (pos : Str) (cpp java : List MessageLayout × Str)
    (parsed : Btcontrol.parseFields unassigned fuel pos = .ok cpp) (javaParsed : parseFields fuel pos = .ok java) :
    Agree cpp java := by
  induction fuel generalizing pos cpp java with
  | zero => contradiction
  | succ fuel ih =>
    have nested := parseStruct_agree ih
    simp only [parseFields] at javaParsed
    split at javaParsed
    · rename_i ended
      simp [Btcontrol.parseFields,parseField,ended,bind,Except.bind] at parsed
    · rename_i colon typePos found
      simp only [Btcontrol.parseFields] at parsed
      cases field : parseField unassigned (Btcontrol.parseFields unassigned fuel) pos with
      | error e => simp [field,bind,Except.bind] at parsed
      | ok info =>
        cases javaField : parseType (parseFields fuel) (fieldName pos) typePos with
        | error e => simp [javaField,bind,Except.bind] at javaParsed
        | ok javaInfo =>
          obtain ⟨typed,same,rest⟩ := parseField_agree nested found field javaField
          simp only [field,bind,Except.bind] at parsed
          simp only [javaField,bind,Except.bind,rest] at javaParsed
          obtain ⟨info,pos'⟩ := info
          dsimp only at parsed javaParsed typed same
          split at parsed
          · cases parsed
            cases javaParsed
            exact ⟨⟨typed,trivial⟩,by simp [layouts,same],rfl⟩
          · cases parsed
            cases javaParsed
            exact ⟨⟨typed,trivial⟩,by simp [layouts,same],rfl⟩
          · rename_i next
            cases more : Btcontrol.parseFields unassigned fuel next with
            | error e => simp [more] at parsed
            | ok fields =>
              cases javaMore : parseFields fuel next with
              | error e => simp [javaMore] at javaParsed
              | ok javaFields =>
                obtain ⟨typed',same',rest'⟩ := ih next fields javaFields more javaMore
                simp only [more,pure,Except.pure] at parsed
                simp only [javaMore,pure,Except.pure] at javaParsed
                cases parsed
                cases javaParsed
                exact ⟨⟨typed,typed'⟩,by simp [layouts,same,same'],rest'⟩
          · contradiction

end Java
end Btcontrol
