import Btcontrol.Budget
import Btcontrol.Load

/-! `MessageLayouts.load` and `MessageLayout.parse` of the Java client turn by turn. A position is
an `int` that `pos++` wraps around; `startsWith` is false outside of the line. `myReadLn` takes a
byte of the file in each turn, so `myReadLns` is already the whole of its loops. -/
namespace Btcontrol.Java.LoadSteps

open Budget Bytes DataType

inductive Thrown where
  | exception (e : Err)
  | outOfMemory            -- a String of more than 2^31-1 characters
  deriving DecidableEq, Repr

def inc (pos : Int) : Int := signed32 (pattern32 (pos + 1))

def throws {α : Type} (e : Err) : Outcome Thrown α := some (.error (.exception e))

/-- What stands from a position on. -/
def behind (line : Str) (pos : Int) : Str := line.drop pos.toNat

/-- `line.startsWith(c,pos)` for one character. -/
def startsWith (line : Str) (c : UInt8) (pos : Int) : Bool := 0 ≤ pos && (behind line pos).head? == some c

def charAt (line : Str) (pos : Int) : Outcome Thrown UInt8 :=
  if pos < 0 then throws .stringIndexOutOfBounds
  else match (behind line pos).head? with
    | some c => some (.ok c)
    | none => throws .stringIndexOutOfBounds

def substring (line : Str) (start stop : Int) : Str := (line.drop start.toNat).take (stop.toNat - start.toNat)

/-- The loop up to the next colon or the end of the line. -/
def nameEnd (line : Str) (turns : Nat) (pos : Int) : Outcome Thrown Int :=
  whileDo (fun pos => !startsWith line 58 pos && (line.length : Int) != pos) inc turns pos

/-- One field behind its colon; `parse` is the call for the fields of an array. -/
def parseType (line : Str) (parse : Int → Outcome Thrown (List MessageLayout × Int)) (name : Str) (pos : Int) :
    Outcome Thrown (MessageLayout × Int) :=
  andThen (charAt line pos) fun c =>
    match c with
    | 73 => some (.ok (.mk INT name [], inc pos))
    | 83 => some (.ok (.mk STRING name [], inc pos))
    | 65 => andThen (charAt line (inc pos)) fun brace =>
      if brace ≠ 123 then throws .expectedBrace
      else andThen (parse (inc (inc pos))) fun (childLayout, pos) =>
        some (.ok (.mk ARRAY name [.mk STRUCT [] childLayout], pos))
    | _ => throws (.errorParsingLine (behind line pos))

/-- `MessageLayout.parse`; a turn of its own for each field and each call. -/
def parse (line : Str) : Nat → Int → Outcome Thrown (List MessageLayout × Int)
  | 0, _ => none
  | turns + 1, namestart => andThen (nameEnd line turns namestart) fun pos =>
    if !startsWith line 58 pos then some (.ok ([], pos))
    else andThen (parseType line (parse line turns) (substring line namestart pos) (inc pos)) fun (info, pos) =>
      if (line.length : Int) = pos then some (.ok ([info], pos))
      else andThen (charAt line pos) fun c =>
        match c with
        | 125 => some (.ok ([info], pos))
        | 44 => andThen (parse line turns (inc pos)) fun (more, pos) => some (.ok (info :: more, pos))
        | _ => throws (.invalidChar (behind line pos))

/-- The body of the loop over the lines. The search for '=' does not test for the end of the line. -/
def loadLine (turns : Nat) (loading : Loading) (line : Str) : Outcome Thrown Loading :=
  if 2 ^ 31 ≤ line.length then some (.error .outOfMemory)
  else if startsWith line 35 0 then some (.ok loading)
  else
    let hash := loading.hash + lineHash line
    andThen (whileDo (startsWith line 32) inc turns 0) fun namestart =>
    if namestart = line.length then some (.ok { loading with hash })
    else andThen (whileDo (fun pos => !startsWith line 61 pos) inc turns namestart) fun pos =>
      if pos = line.length then some (.ok { loading with hash })
      else andThen (parse line turns (inc pos)) fun (childLayout, _) => some (.ok {
        hash
        typeNr := loading.typeNr + 1
        entries := put (substring line namestart pos) (.mk loading.typeNr [] childLayout) loading.entries })

/-- `while((line=myReadLn(protocolFile)) != null)`. -/
def loadLines (turns : Nat) : List Str → Loading → Outcome Thrown Loading
  | [], loading => some (.ok loading)
  | line :: rest, loading => andThen (loadLine turns loading line) (loadLines turns rest)

/-- `MessageLayouts.load` with a budget of turns for each of its loops. -/
def load (turns : Nat) (protocolFile : Str) : Outcome Thrown Loading :=
  loadLines turns (myReadLns [] protocolFile) {}

/-- The loader ends, by returning or by throwing. -/
def Terminates (protocolFile : Str) : Prop := ∃ turns, (load turns protocolFile).isSome = true

/-! ### Turns that suffice -/

theorem inc_eq {n : Nat} (below : n + 1 < 2 ^ 31) : inc n = (n + 1 : Nat) := by
  simp only [inc]
  exact signed32_pattern32 _ ⟨by omega,by omega⟩

theorem drop_below {line : Str} {n : Nat} {c : UInt8} {rest : Str} (ahead : line.drop n = c :: rest) :
    n < line.length ∧ line.drop (n + 1) = rest := by
  constructor
  · by_contra outside
    rw [List.drop_of_length_le (by omega)] at ahead
    cases ahead
  · rw [← List.drop_drop,ahead]
    rfl

section
variable {line : Str} (short : line.length < 2 ^ 31)
include short

/-- A loop that goes on while `going` holds of the characters ends behind the last of them. -/
theorem scan_ends {test : Int → Bool} {going : UInt8 → Bool}
    (inside : ∀ n c rest, line.drop n = c :: rest → test n = going c) (turns n : Nat) (within : n ≤ line.length)
    (stops : (line.drop n).all going = true → test line.length = false)
    (enough : line.length < turns + n) :
    (whileDo test inc turns n : Outcome Thrown Int) =
      some (.ok ((n + ((line.drop n).takeWhile going).length : Nat) : Int)) := by
  induction turns generalizing n with
  | zero => omega
  | succ turns ih =>
    cases ahead : line.drop n with
    | nil =>
      have atEnd : n = line.length := Nat.le_antisymm within (List.drop_eq_nil_iff.mp ahead)
      have failed := stops (by rw [ahead]; rfl)
      subst atEnd
      simp [whileDo,failed]
    | cons c rest =>
      obtain ⟨below,next⟩ := drop_below ahead
      simp only [whileDo,inside n c rest ahead]
      by_cases goes : going c = true
      · have stops' : (line.drop (n + 1)).all going = true → test line.length = false := by
          intro all
          exact stops (by rw [ahead,← next]; simp [goes,all])
        rw [if_pos goes,inc_eq (by omega),ih (n + 1) (by omega) stops' (by omega),next,
          List.takeWhile_cons_of_pos goes]
        simp only [List.length_cons]
        congr 3
        omega
      · rw [if_neg goes,List.takeWhile_cons_of_neg goes]
        simp

end

theorem startsWith_at {line : Str} {n : Nat} {d : UInt8} {rest : Str} (ahead : line.drop n = d :: rest) (c : UInt8) :
    startsWith line c n = (d == c) := by
  simp [startsWith,behind,ahead]

theorem startsWith_end (line : Str) (c : UInt8) : startsWith line c line.length = false := by
  simp [startsWith,behind]

theorem charAt_at {line : Str} {n : Nat} {d : UInt8} {rest : Str} (ahead : line.drop n = d :: rest) :
    charAt line n = some (.ok d) := by
  simp [charAt,behind,ahead]

theorem charAt_end {line : Str} {n : Nat} (ahead : line.drop n = []) :
    charAt line n = throws .stringIndexOutOfBounds := by
  simp [charAt,behind,ahead]

theorem drop_takeWhile (p : UInt8 → Bool) (text : Str) :
    text.take (text.takeWhile p).length = text.takeWhile p ∧
      text.drop (text.takeWhile p).length = text.dropWhile p := by
  induction text with
  | nil => exact ⟨rfl,rfl⟩
  | cons c rest ih =>
    simp only [List.takeWhile_cons,List.dropWhile_cons]
    split
    · simpa using ih
    · exact ⟨rfl,rfl⟩

/-- A parser that goes from position to position does what one that returns the rest of the line
does, from position `n` on. -/
def Agrees {α : Type} (line : Str) (n : Nat) (outcome : Outcome Thrown (α × Int)) :
    Except Err (α × Str) → Prop
  | .error e => outcome = throws e
  | .ok (a, rest) => ∃ m, n ≤ m ∧ m ≤ line.length ∧ rest = line.drop m ∧ outcome = some (.ok (a, (m : Int)))

/-- Two parsers that agree go on from the same place. -/
theorem agrees_andThen {α β : Type} {line : Str} {n m : Nat} {first : Outcome Thrown (α × Int)}
    {parsed : Except Err (α × Str)} {next : α × Int → Outcome Thrown (β × Int)}
    {parseNext : α × Str → Except Err (β × Str)} (agrees : Agrees line m first parsed)
    (further : ∀ a k, m ≤ k → k ≤ line.length → Agrees line n (next (a, (k : Int))) (parseNext (a, line.drop k))) :
    Agrees line n (andThen first next) (parsed >>= parseNext) := by
  cases parsed with
  | error e =>
    simp only [Agrees] at agrees
    rw [agrees]
    rfl
  | ok read =>
    obtain ⟨k,later,inside,rest,outcome⟩ := agrees
    obtain ⟨a,left⟩ := read
    rw [outcome]
    dsimp only at rest
    subst rest
    exact further a k later inside

section
variable {line : Str} (short : line.length < 2 ^ 31)
include short

theorem nameEnd_eq (turns n : Nat) (within : n ≤ line.length) (enough : line.length < turns + n) :
    nameEnd line turns n = some (.ok ((n + (fieldName (line.drop n)).length : Nat) : Int)) := by
  refine scan_ends short ?_ turns n within ?_ enough
  · intro n c rest ahead
    have below := (drop_below ahead).1
    have other : (line.length : Int) ≠ n := by omega
    have inLine : ((line.length : Int) != n) = true := by simpa using other
    simp only [startsWith_at ahead,inLine,Bool.and_true]
    by_cases colon : c = 58 <;> simp [colon]
  · intro _
    simp

theorem parseType_agrees {parseRest : Str → Except Err (List MessageLayout × Str)}
    {parseAt : Int → Outcome Thrown (List MessageLayout × Int)} {n : Nat} (name : Str)
    (nested : ∀ m, n < m → m ≤ line.length → Agrees line m (parseAt m) (parseRest (line.drop m))) :
    Agrees line n (parseType line parseAt name n) (Java.parseType parseRest name (line.drop n)) := by
  cases ahead : line.drop n with
  | nil => simp [parseType,Java.parseType,charAt_end ahead,Agrees,throws]
  | cons c rest =>
    obtain ⟨below,next⟩ := drop_below ahead
    have first : inc (n : Int) = (n + 1 : Nat) := inc_eq (by omega)
    simp only [parseType,charAt_at ahead,andThen_ok]
    split
    · exact ⟨n + 1,by omega,by omega,next.symm,by rw [first]⟩
    · exact ⟨n + 1,by omega,by omega,next.symm,by rw [first]⟩
    · rw [first]
      cases brace : rest with
      | nil =>
        rw [brace] at next
        rw [charAt_end next]
        rfl
      | cons d others =>
        rw [brace] at next
        obtain ⟨below',next'⟩ := drop_below next
        have second : inc ((n + 1 : Nat) : Int) = (n + 2 : Nat) := inc_eq (by omega)
        rw [charAt_at next,andThen_ok]
        by_cases opens : d = 123
        · subst opens
          have inner := nested (n + 2) (by omega) (by omega)
          rw [next'] at inner
          rw [second]
          simp only [ne_eq,not_true_eq_false,↓reduceIte,Java.parseType]
          refine agrees_andThen inner (fun childLayout k later inside => ?_)
          exact ⟨k,by omega,inside,rfl,rfl⟩
        · simp [opens,Java.parseType,Agrees,throws]
    · rename_i notI notS notA
      unfold Java.parseType
      split
      · rename_i same
        cases same
      · rename_i same
        cases same
        exact absurd rfl notI
      · rename_i same
        cases same
        exact absurd rfl notS
      · rename_i same
        cases same
        exact absurd rfl notA
      · rw [← ahead]
        rfl

/-- Behind a field there is the end, a brace or one more field. -/
theorem behind_agrees (info : MessageLayout) {turns n p m : Nat} (later : n ≤ m) (inside : m ≤ line.length)
    (nested : ∀ k, p < k → k ≤ line.length →
      Agrees line k (parse line (turns + 1) k) (parseFields turns (line.drop k))) (after : p ≤ m) :
    Agrees line n
      (if (line.length : Int) = m then some (.ok ([info], (m : Int)))
        else andThen (charAt line m) fun c =>
          match c with
          | 125 => some (.ok ([info], (m : Int)))
          | 44 => andThen (parse line (turns + 1) (inc m)) fun (more, pos) => some (.ok (info :: more, pos))
          | _ => throws (.invalidChar (behind line m)))
      (match line.drop m with
        | [] => .ok ([info], [])
        | 125 :: _ => .ok ([info], line.drop m)
        | 44 :: rest => do
          let (more, rest) ← parseFields turns rest
          return (info :: more, rest)
        | _ => .error (.invalidChar (line.drop m))) := by
  cases left : line.drop m with
  | nil =>
    have atEnd : m = line.length := by
      have := List.drop_eq_nil_iff.mp left
      omega
    rw [atEnd,if_pos rfl]
    exact ⟨line.length,by omega,Nat.le_refl _,by simp,rfl⟩
  | cons d others =>
    obtain ⟨below,next⟩ := drop_below left
    have inLine : ¬ (line.length : Int) = m := by omega
    have second : inc (m : Int) = (m + 1 : Nat) := inc_eq (by omega)
    rw [if_neg inLine,charAt_at left,andThen_ok]
    split
    · exact ⟨m,later,inside,left.symm,rfl⟩
    · have others := nested (m + 1) (by omega) (by omega)
      rw [next] at others
      rw [second]
      refine agrees_andThen others (fun more k later' inside' => ?_)
      exact ⟨k,by omega,inside',rfl,rfl⟩
    · rename_i notBrace notComma
      split
      · rename_i same
        cases same
      · rename_i same
        cases same
        exact absurd rfl notBrace
      · rename_i same
        cases same
        exact absurd rfl notComma
      · rw [← left]
        rfl

/-- The loops of `parse` end within the length of the line. -/
theorem parse_agrees (turns n : Nat) (within : n ≤ line.length) (enough : line.length < turns + n) :
    Agrees line n (parse line (turns + 1) n) (parseFields turns (line.drop n)) := by
  induction turns generalizing n with
  | zero => omega
  | succ turns ih =>
    have colonAt : line.drop (n + (fieldName (line.drop n)).length) = fromColon (line.drop n) := by
      rw [← List.drop_drop]
      exact (drop_takeWhile _ _).2
    have inName : (fieldName (line.drop n)).length ≤ line.length - n := by
      have := (List.takeWhile_sublist (fun c : UInt8 => decide (c ≠ 58)) (l := line.drop n)).length_le
      rwa [List.length_drop] at this
    rw [parse,nameEnd_eq short (turns + 1) n within (by omega),andThen_ok,parseFields]
    generalize colon : n + (fieldName (line.drop n)).length = p at colonAt ⊢
    cases ahead : fromColon (line.drop n) with
    | nil =>
      rw [ahead] at colonAt
      have atEnd : p = line.length := by
        have := List.drop_eq_nil_iff.mp colonAt
        omega
      rw [atEnd,startsWith_end]
      exact ⟨line.length,within,Nat.le_refl _,by simp,rfl⟩
    | cons c typePos =>
      rw [ahead] at colonAt
      obtain ⟨below,next⟩ := drop_below colonAt
      have isColon : c = 58 := by
        have := List.head?_dropWhile_not (fun c : UInt8 => decide (c ≠ 58)) (line.drop n)
        rw [← fromColon,ahead] at this
        simpa using this
      have name : substring line n p = fieldName (line.drop n) := by
        simp only [substring,Int.toNat_natCast,← colon,Nat.add_sub_cancel_left,fieldName]
        exact (drop_takeWhile _ _).1
      have started : startsWith line 58 p = true := by simp [startsWith_at colonAt,isColon]
      have first : inc (p : Int) = (p + 1 : Nat) := inc_eq (by omega)
      have nested : ∀ m, p + 1 < m → m ≤ line.length →
          Agrees line m (parse line (turns + 1) m) (parseFields turns (line.drop m)) :=
        fun m later inside => ih m inside (by omega)
      have field := parseType_agrees short (fieldName (line.drop n)) nested
      simp only [started,Bool.not_true,Bool.false_eq_true,↓reduceIte,name,first]
      rw [next] at field
      refine agrees_andThen field (fun info m later inside => ?_)
      exact behind_agrees short info (by omega) inside nested (by omega)

end

/-! ### More turns change nothing -/

theorem within_parseType (line name : Str) (pos : Int) {parse more : Int → Outcome Thrown (List MessageLayout × Int)}
    (nested : ∀ pos, Within (parse pos) (more pos)) :
    Within (parseType line parse name pos) (parseType line more name pos) := by
  refine within_andThen (within_refl _) (fun c => ?_)
  split
  · exact within_refl _
  · exact within_refl _
  · refine within_andThen (within_refl _) (fun brace => within_ite (within_refl _) ?_)
    exact within_andThen (nested _) (fun _ => within_refl _)
  · exact within_refl _

theorem within_parse (line : Str) {turns more : Nat} (enough : turns ≤ more) (pos : Int) :
    Within (parse line turns pos) (parse line more pos) := by
  induction turns generalizing more pos with
  | zero => exact within_none _
  | succ turns ih =>
    obtain ⟨more,rfl⟩ : ∃ n, more = n + 1 := ⟨more - 1,by omega⟩
    have nested (pos : Int) : Within (parse line turns pos) (parse line more pos) := ih (by omega) pos
    rw [parse,parse]
    refine within_andThen (within_whileDo _ _ (by omega) _) (fun colon => within_ite (within_refl _) ?_)
    refine within_andThen (within_parseType line _ _ nested) (fun field => within_ite (within_refl _) ?_)
    refine within_andThen (within_refl _) (fun c => ?_)
    split
    · exact within_refl _
    · exact within_andThen (nested _) (fun _ => within_refl _)
    · exact within_refl _

theorem within_loadLine {turns more : Nat} (enough : turns ≤ more) (loading : Loading) (line : Str) :
    Within (loadLine turns loading line) (loadLine more loading line) := by
  refine within_ite (within_refl _) (within_ite (within_refl _) ?_)
  refine within_andThen (within_whileDo _ _ enough _) (fun namestart => within_ite (within_refl _) ?_)
  refine within_andThen (within_whileDo _ _ enough _) (fun pos => within_ite (within_refl _) ?_)
  exact within_andThen (within_parse line enough _) (fun _ => within_refl _)

theorem within_loadLines {turns more : Nat} (enough : turns ≤ more) (lines : List Str) (loading : Loading) :
    Within (loadLines turns lines loading) (loadLines more lines loading) := by
  induction lines generalizing loading with
  | nil => exact within_refl _
  | cons line rest ih => exact within_andThen (within_loadLine enough loading line) ih

/-! ### Lines -/

/-- The search for '=' never leaves the line: it is no comment and not blank, and has none. -/
def Unterminated (line : Str) : Prop :=
  line.length < 2 ^ 31 ∧ isMessage line = true ∧ line.dropWhile (· = 32) ≠ [] ∧ 61 ∉ line

instance (line : Str) : Decidable (Unterminated line) := inferInstanceAs (Decidable (_ ∧ _))

def Refused (line : Str) : Prop :=
  2 ^ 31 ≤ line.length ∨ (isMessage line = true ∧ (definition line).toOption = none)

/-- Every line the loader comes to has an '=', or is blank or a comment. -/
def Ends : List Str → Prop
  | [] => True
  | line :: rest => ¬ Unterminated line ∧ (Refused line ∨ Ends rest)

section
variable {line : Str} (short : line.length < 2 ^ 31)
include short

theorem blanks_eq (turns : Nat) (enough : line.length < turns) :
    (whileDo (startsWith line 32) inc turns 0 : Outcome Thrown Int) =
      some (.ok ((line.takeWhile (· = 32)).length : Int)) := by
  have ahead (n : Nat) (c : UInt8) (rest : Str) (here : line.drop n = c :: rest) :
      startsWith line 32 n = decide (c = 32) := by
    rw [startsWith_at here]
    rfl
  have ends := scan_ends short ahead turns 0 (Nat.zero_le _) (fun _ => startsWith_end line 32) enough
  simpa using ends

theorem equals_eq {n : Nat} (within : n ≤ line.length) (found : 61 ∈ line.drop n) (turns : Nat)
    (enough : line.length < turns + n) :
    (whileDo (fun pos => !startsWith line 61 pos) inc turns n : Outcome Thrown Int) =
      some (.ok ((n + ((line.drop n).takeWhile (· ≠ 61)).length : Nat) : Int)) := by
  refine scan_ends short ?_ turns n within ?_ enough
  · intro n c rest ahead
    rw [startsWith_at ahead]
    by_cases same : c = 61 <;> simp [same]
  · intro all
    have := List.all_eq_true.mp all 61 found
    cases this

end

/-- No number of turns suffices for an unterminated line. -/
theorem loadLine_endless {line : Str} (unterminated : Unterminated line) (turns : Nat) (loading : Loading) :
    loadLine turns loading line = none := by
  obtain ⟨short,message,some,missing⟩ := unterminated
  have long : ¬ 2 ^ 31 ≤ line.length := by omega
  have noComment : startsWith line 35 0 = false := by
    simpa [startsWith,behind,isMessage] using message
  have never : ∀ pos, (!startsWith line 61 pos) = true := by
    intro pos
    by_contra found
    simp only [startsWith,Bool.not_eq_true,Bool.not_eq_false',Bool.and_eq_true,beq_iff_eq] at found
    exact missing (List.mem_of_mem_drop (List.mem_of_head? found.2))
  simp only [loadLine,long,noComment,Bool.false_eq_true,↓reduceIte]
  cases blanks : (whileDo (startsWith line 32) inc turns 0 : Outcome Thrown Int) with
  | none => rfl
  | some r =>
    have same := within_whileDo (startsWith line 32) inc (Nat.le_max_left turns (line.length + 1)) 0 r blanks
    rw [blanks_eq short _ (by omega)] at same
    cases same
    have inside : ¬ ((line.takeWhile (· = 32)).length : Int) = line.length := by
      intro all
      have rest := (drop_takeWhile (· = 32) line).2
      rw [Int.natCast_inj.mp all,List.drop_length] at rest
      exact some rest.symm
    rw [andThen_ok,if_neg inside,whileDo_endless never]
    rfl

def outcome {α : Type} : Except Err α → Outcome Thrown α
  | .error e => throws e
  | .ok a => some (.ok a)

/-- The search for '=' finds one behind the blanks. -/
theorem equals_ahead {line rest : Str} {c : UInt8} (short : line.length < 2 ^ 31) (ended : ¬ Unterminated line)
    (message : isMessage line = true) (ahead : line.dropWhile (· = 32) = c :: rest) : 61 ∈ c :: rest := by
  have inLine : 61 ∈ line := by
    by_contra missing
    exact ended ⟨short,message,by rw [ahead]; simp,missing⟩
  rw [← List.takeWhile_append_dropWhile (p := (· = 32)) (l := line)] at inLine
  rcases List.mem_append.mp inLine with blank | later
  · have := List.mem_takeWhile_imp blank
    cases this
  · rwa [← ahead]

/-- What is done with the fields behind '='. -/
theorem parse_fields {β : Type} {line fields : Str} (short : line.length < 2 ^ 31) {p : Nat} (below : p < line.length)
    (next : line.drop (p + 1) = fields) (turns : Nat) (enough : line.length + 2 ≤ turns)
    (use : MessageLayout → β) :
    andThen (parse line turns (p + 1 : Nat)) (fun read => some (.ok (use (.mk STRUCT [] read.1)))) =
      outcome ((Java.parse fields).map (fun read => use read.1)) := by
  obtain ⟨turns,rfl⟩ : ∃ n, turns = n + 1 := ⟨turns - 1,by omega⟩
  have parsed := parse_agrees short turns (p + 1) (by omega) (by omega)
  have fits : fields.length ≤ turns := by
    rw [← next,List.length_drop]
    omega
  rw [next,parseFields_fuel turns fields.length fields fits (Nat.le_refl _)] at parsed
  rw [Java.parse]
  cases read : parseFields fields.length fields with
  | error e =>
    rw [read] at parsed
    simp only [Agrees] at parsed
    rw [parsed]
    rfl
  | ok layouts =>
    rw [read] at parsed
    obtain ⟨m,_,_,_,ran⟩ := parsed
    rw [ran]
    rfl

/-- With enough turns any other line is loaded as `Java.load` loads it. -/
theorem loadLine_eq {line : Str} (short : line.length < 2 ^ 31) (ended : ¬ Unterminated line) (turns : Nat)
    (enough : line.length + 2 ≤ turns) (loading : Loading) :
    loadLine turns loading line = outcome (Btcontrol.loadLine definition put loading line) := by
  have long : ¬ 2 ^ 31 ≤ line.length := by omega
  have comment : startsWith line 35 0 = decide (line.head? = some 35) := by
    simp only [startsWith,behind]
    rw [Bool.eq_iff_iff]
    simp
  simp only [loadLine,Btcontrol.loadLine,long,comment,↓reduceIte,decide_eq_true_eq]
  split
  · rfl
  · rename_i noComment
    have namestart := (drop_takeWhile (· = 32) line).2
    rw [blanks_eq short turns (by omega),andThen_ok]
    have bound := (List.takeWhile_sublist (fun c : UInt8 => decide (c = 32)) (l := line)).length_le
    generalize start : (line.takeWhile (· = 32)).length = n at namestart bound ⊢
    cases ahead : line.dropWhile (· = 32) with
    | nil =>
      rw [ahead] at namestart
      have atEnd : n = line.length := Nat.le_antisymm bound (List.drop_eq_nil_iff.mp namestart)
      simp only [definition,ahead,atEnd,↓reduceIte]
      rfl
    | cons c rest =>
      rw [ahead] at namestart
      have below := (drop_below namestart).1
      have message : isMessage line = true := by simpa [isMessage] using noComment
      have found : 61 ∈ line.drop n := by
        rw [namestart]
        exact equals_ahead short ended message ahead
      have inside : ¬ (n : Int) = line.length := by omega
      have equalsAt := (drop_takeWhile (· ≠ 61) (line.drop n)).2
      have upTo := (List.takeWhile_sublist (fun c : UInt8 => decide (c ≠ 61)) (l := line.drop n)).length_le
      have name : substring line n (n + ((line.drop n).takeWhile (· ≠ 61)).length : Nat) =
          (line.drop n).takeWhile (· ≠ 61) := by
        simp only [substring,Int.toNat_natCast,Nat.add_sub_cancel_left]
        exact (drop_takeWhile _ _).1
      rw [if_neg inside,equals_eq short (by omega) found turns (by omega),andThen_ok,name]
      rw [List.drop_drop] at equalsAt
      generalize equals : n + ((line.drop n).takeWhile (· ≠ 61)).length = p at equalsAt ⊢
      rw [namestart] at equalsAt ⊢
      have defined : definition line = identified .endless Java.parse (c :: rest) := by
        simp only [definition,ahead]
      rw [defined,identified]
      cases behindEquals : (c :: rest).dropWhile (· ≠ 61) with
      | nil =>
        rw [namestart] at found
        have := List.dropWhile_eq_nil_iff.mp behindEquals 61 found
        cases this
      | cons d fields =>
        rw [behindEquals] at equalsAt
        obtain ⟨within,next⟩ := drop_below equalsAt
        have inLine : ¬ (p : Int) = line.length := by omega
        have first : inc (p : Int) = (p + 1 : Nat) := inc_eq (by omega)
        rw [if_neg inLine,first]
        have parsed := parse_fields short within next turns enough (fun layout => ({
          hash := loading.hash + lineHash line
          typeNr := loading.typeNr + 1
          entries := put ((c :: rest).takeWhile (· ≠ 61)) (layout.numbered loading.typeNr) loading.entries } : Loading))
        refine parsed.trans ?_
        dsimp only
        cases Java.parse fields with
        | error e => rfl
        | ok read => rfl

/-- A line at which nothing is thrown is passed, with enough turns. -/
theorem loadLine_passes {line : Str} (ended : ¬ Unterminated line) (accepted : ¬ Refused line) (turns : Nat)
    (enough : line.length + 2 ≤ turns) (loading : Loading) :
    ∃ loaded, loadLine turns loading line = some (.ok loaded) := by
  have short : line.length < 2 ^ 31 := by
    by_contra long
    exact accepted (.inl (by omega))
  rw [loadLine_eq short ended turns enough]
  simp only [Btcontrol.loadLine]
  split
  · exact ⟨_,rfl⟩
  · rename_i noComment
    have message : isMessage line = true := by simpa [isMessage] using noComment
    cases defined : definition line with
    | error e => exact absurd (.inr ⟨message,by rw [defined]; rfl⟩) accepted
    | ok found =>
      cases found with
      | none => exact ⟨_,rfl⟩
      | some found => exact ⟨_,rfl⟩

theorem loadLine_throws {line : Str} (ended : ¬ Unterminated line) (refused : Refused line) (turns : Nat)
    (enough : line.length + 2 ≤ turns) (loading : Loading) :
    ∃ thrown, loadLine turns loading line = some (.error thrown) := by
  by_cases long : 2 ^ 31 ≤ line.length
  · rw [loadLine,if_pos long]
    exact ⟨_,rfl⟩
  · obtain ⟨message,undefined⟩ := refused.resolve_left long
    have noComment : ¬ line.head? = some 35 := by simpa [isMessage] using message
    rw [loadLine_eq (by omega) ended turns enough,Btcontrol.loadLine,if_neg noComment]
    cases defined : definition line with
    | error e => exact ⟨_,rfl⟩
    | ok found =>
      rw [defined] at undefined
      cases undefined

theorem loadLines_ends (lines : List Str) (loading : Loading) :
    (∃ turns, (loadLines turns lines loading).isSome = true) ↔ Ends lines := by
  induction lines generalizing loading with
  | nil => exact ⟨fun _ => trivial,fun _ => ⟨0,rfl⟩⟩
  | cons line rest ih =>
    constructor
    · rintro ⟨turns,ended⟩
      have terminated : ¬ Unterminated line := by
        intro unterminated
        rw [loadLines,loadLine_endless unterminated] at ended
        cases ended
      refine ⟨terminated,?_⟩
      by_cases refused : Refused line
      · exact .inl refused
      · obtain ⟨outcome,ran⟩ := Option.isSome_iff_exists.mp ended
        have more := within_loadLines (Nat.le_max_left turns (line.length + 2)) (line :: rest) loading outcome ran
        obtain ⟨loaded,passed⟩ := loadLine_passes terminated refused _ (Nat.le_max_right turns (line.length + 2)) loading
        rw [loadLines,passed,andThen_ok] at more
        exact .inr ((ih loaded).mp ⟨_,by rw [more]; rfl⟩)
    · rintro ⟨terminated,later⟩
      by_cases refused : Refused line
      · obtain ⟨thrown,threw⟩ := loadLine_throws terminated refused _ (Nat.le_refl _) loading
        refine ⟨line.length + 2,?_⟩
        rw [loadLines,threw]
        rfl
      · obtain ⟨loaded,passed⟩ := loadLine_passes terminated refused _ (Nat.le_refl _) loading
        obtain ⟨turns,ended⟩ := (ih loaded).mpr (later.resolve_left refused)
        obtain ⟨outcome,ran⟩ := Option.isSome_iff_exists.mp ended
        refine ⟨max turns (line.length + 2),?_⟩
        have first := within_loadLine (Nat.le_max_right turns (line.length + 2)) loading line _ passed
        have others := within_loadLines (Nat.le_max_left turns (line.length + 2)) rest loaded outcome ran
        rw [loadLines,first,andThen_ok,others]
        rfl

/-- The loader ends exactly if every line it comes to, up to the first one at which it throws, is
blank, a comment or has an '='. -/
theorem load_terminates_iff (protocolFile : Str) :
    Terminates protocolFile ↔ Ends (myReadLns [] protocolFile) :=
  loadLines_ends _ _

/-- A line without '='. -/
theorem load_endless : ¬ Terminates (str "ACC\n") := by
  intro ended
  have ends : Ends (myReadLns [] (str "ACC\n")) := (loadLines_ends _ _).mp ended
  exact ends.1 (by decide)

end Btcontrol.Java.LoadSteps
