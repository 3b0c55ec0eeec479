import Btcontrol.Zsp

/-! When `parseDiSet` and `parseDSet` stay inside of their arrays, of the section and of its strings. -/
namespace Btcontrol.Zsp

open Bytes

/-- The function returns, throws or asserts before it leaves an array, the section or a string. -/
def InBounds (x : Except Err α) : Prop := x ≠ .error .outside ∧ x ≠ .error .pastEnd ∧ x ≠ .error .pastString

theorem inBounds_ok (a : α) : InBounds (.ok a) := ⟨(nomatch ·),(nomatch ·),(nomatch ·)⟩

theorem inBounds_error_iff {e : Err} :
    InBounds (.error e : Except Err α) ↔ e ≠ .outside ∧ e ≠ .pastEnd ∧ e ≠ .pastString := by
  simp [InBounds]

theorem inBounds_error {e : Err} (inside : e ≠ .outside) (present : e ≠ .pastEnd) (ends : e ≠ .pastString) :
    InBounds (.error e : Except Err α) := inBounds_error_iff.mpr ⟨inside,present,ends⟩

/-- What comes after an error does not matter. -/
theorem inBounds_bind_error {e : Err} {f : α → Except Err β} :
    InBounds (Except.error e >>= f) ↔ InBounds (.error e : Except Err α) :=
  (inBounds_error_iff (α := β)).trans inBounds_error_iff.symm

/-- A function that is itself in bounds can be run through first. -/
theorem inBounds_bind {x : Except Err α} {f : α → Except Err β} (first : InBounds x) :
    InBounds (x >>= f) ↔ ∀ a, x = .ok a → InBounds (f a) := by
  cases x with
  | error e => exact iff_of_true (inBounds_bind_error.mpr first) (fun _ same => nomatch same)
  | ok a => exact ⟨fun next b same => Except.ok.inj same ▸ next,fun next => next a rfl⟩

/-- An assertion ends the function where it does not hold. -/
theorem inBounds_assert {a b : Int} {x : Except Err α} :
    InBounds (if a > b then .error .assertion else x) ↔ (a ≤ b → InBounds x) := by
  split
  · exact iff_of_true (inBounds_error (nomatch ·) (nomatch ·) (nomatch ·)) (fun below => absurd below (by omega))
  · exact ⟨fun inside _ => inside,fun inside => inside (by omega)⟩

/-! ### The strings -/

theorem stoi_inBounds (s : Str) : InBounds (stoi s) := by
  unfold stoi
  split
  · exact inBounds_error (nomatch ·) (nomatch ·) (nomatch ·)
  · split
    · split
      · exact inBounds_ok _
      · exact inBounds_error (nomatch ·) (nomatch ·) (nomatch ·)
    · exact inBounds_error (nomatch ·) (nomatch ·) (nomatch ·)

/-- The quotes of a text are closed, from inside or outside of a quoted part. -/
def closedFrom (escape : UInt8) : Bool → Str → Bool
  | quoted, [] => !quoted
  | false, c :: rest => closedFrom escape (c = 34) rest
  | true, [c] => c ≠ escape ∧ c = 34
  | true, c :: d :: rest =>
    if c = escape then closedFrom escape true rest else closedFrom escape (c ≠ 34) (d :: rest)

def Closed (value : Str) : Prop := closedFrom 8 false value = true

instance (value : Str) : Decidable (Closed value) := inferInstanceAs (Decidable (_ = _))

/-- `unquote` ends where the quotes are closed. -/
theorem unquoteFrom_closed (lib : Library) (escape : UInt8) (quoted : Bool) (s : Str) :
    (closedFrom escape quoted s = true → ∃ text, unquoteFrom lib escape quoted s = .ok text) ∧
    (closedFrom escape quoted s = false → unquoteFrom lib escape quoted s = .error lib.unterminated) := by
  fun_induction unquoteFrom lib escape quoted s with
  | case1 => exact ⟨fun _ => ⟨[],rfl⟩,fun no => nomatch no⟩
  | case2 => exact ⟨fun no => (nomatch no),fun _ => rfl⟩
  | case3 rest ih => simpa only [closedFrom,decide_true] using ih
  | case4 c rest other ih =>
    simp only [closedFrom,decide_eq_false other]
    refine ⟨fun closed => ?_,fun unclosed => ?_⟩
    · obtain ⟨text,read⟩ := ih.1 closed
      exact ⟨c :: text,by rw [read]; rfl⟩
    · rw [ih.2 unclosed]
      rfl
  | case5 c closing =>
    exact ⟨fun _ => ⟨[],rfl⟩,fun no => absurd (decide_eq_true closing) (by simpa [closedFrom] using no)⟩
  | case6 c other => exact ⟨fun no => by simp [closedFrom] at no; exact absurd no other,fun _ => rfl⟩
  | case7 d rest ih =>
    simp only [closedFrom,↓reduceIte]
    refine ⟨fun closed => ?_,fun unclosed => ?_⟩
    · obtain ⟨text,read⟩ := ih.1 closed
      exact ⟨d :: text,by rw [read]; rfl⟩
    · rw [ih.2 unclosed]
      rfl
  | case8 d rest other ih => simpa only [closedFrom,if_neg other,ne_eq,not_true_eq_false,decide_false] using ih
  | case9 c d rest other plain ih =>
    simp only [closedFrom,if_neg other,ne_eq,plain,not_false_eq_true,decide_true]
    refine ⟨fun closed => ?_,fun unclosed => ?_⟩
    · obtain ⟨text,read⟩ := ih.1 closed
      exact ⟨c :: text,by rw [read]; rfl⟩
    · rw [ih.2 unclosed]
      rfl

variable {lib : Library} (soundsetPath : Str) (zspData : ZSPDataType)

section samples

variable (reads : lib.unquoteThrows = false)
include reads

theorem unquoteValue_unclosed {value : Str} (unclosed : ¬ Closed value) :
    unquoteValue lib value = .error .pastString := by
  have runs := (unquoteFrom_closed lib 8 false value).2 (Bool.not_eq_true _ ▸ unclosed)
  rw [unquoteValue,runs,Library.unterminated,reads]
  rfl

theorem unquoteValue_inBounds (value : Str) : InBounds (unquoteValue lib value) ↔ Closed value := by
  by_cases closed : Closed value
  · obtain ⟨text,read⟩ := (unquoteFrom_closed lib 8 false value).1 closed
    rw [unquoteValue,read]
    exact iff_of_true (inBounds_ok _) closed
  · rw [unquoteValue_unclosed reads closed]
    exact iff_of_false (fun inside => inside.2.2 rfl) closed

theorem sampleOf_unclosed {sp : SectionValues}
    (unclosed : ¬ (Closed (sp.get (str "PFAD")) ∧ Closed (sp.get (str "NAME")))) :
    sampleOf lib soundsetPath sp = .error .pastString := by
  unfold sampleOf
  by_cases path : Closed (sp.get (str "PFAD"))
  · obtain ⟨pfad,read⟩ := (unquoteFrom_closed lib 8 false _).1 path
    rw [unquoteValue,read,unquoteValue_unclosed reads fun named => unclosed ⟨path,named⟩]
    rfl
  · rw [unquoteValue_unclosed reads path]
    rfl

theorem sampleOf_inBounds (sp : SectionValues) :
    InBounds (sampleOf lib soundsetPath sp) ↔ Closed (sp.get (str "PFAD")) ∧ Closed (sp.get (str "NAME")) := by
  by_cases closed : Closed (sp.get (str "PFAD")) ∧ Closed (sp.get (str "NAME"))
  · refine iff_of_true ?_ closed
    unfold sampleOf
    refine (inBounds_bind ((unquoteValue_inBounds reads _).mpr closed.1)).mpr fun pfad _ => ?_
    refine (inBounds_bind ((unquoteValue_inBounds reads _).mpr closed.2)).mpr fun name _ => ?_
    refine (inBounds_bind (stoi_inBounds _)).mpr fun loopStartPos _ => ?_
    refine (inBounds_bind (stoi_inBounds _)).mpr fun loopEndPos _ => ?_
    exact inBounds_ok _
  · rw [sampleOf_unclosed soundsetPath reads closed]
    exact iff_of_false (fun inside => inside.2.2 rfl) closed

end samples

/-- The section `getSample` takes a sample from. -/
def foundSample (number : Str) : Option SectionValues :=
  ((zspData.dropWhile (fun it => it.1 ≠ str "Sample")).find?
    (fun it => it.2.get (str "NUMMER") = number)).map Prod.snd

theorem getSample_found (number : Str) :
    getSample lib soundsetPath zspData number =
      match foundSample zspData number with
      | some sp => sampleOf lib soundsetPath sp
      | none => .error (.invalidSample number) := by
  unfold getSample foundSample
  simp only
  split
  next it found => rw [found]; rfl
  next missing => rw [missing]; rfl

def SampleClosed (number : Str) : Prop :=
  ∀ sp ∈ foundSample zspData number, Closed (sp.get (str "PFAD")) ∧ Closed (sp.get (str "NAME"))

theorem getSample_unclosed (reads : lib.unquoteThrows = false) {number : Str}
    (unclosed : ¬ SampleClosed zspData number) : getSample lib soundsetPath zspData number = .error .pastString := by
  unfold SampleClosed at unclosed
  rw [getSample_found]
  cases found : foundSample zspData number with
  | none => exact absurd (fun sp there => nomatch found ▸ there) unclosed
  | some sp =>
    refine sampleOf_unclosed soundsetPath reads fun closed => unclosed fun other there => ?_
    rw [found] at there
    exact Option.some.inj there ▸ closed

theorem getSample_inBounds (reads : lib.unquoteThrows = false) (number : Str) :
    InBounds (getSample lib soundsetPath zspData number) ↔ SampleClosed zspData number := by
  by_cases closed : SampleClosed zspData number
  · refine iff_of_true ?_ closed
    rw [getSample_found]
    cases found : foundSample zspData number with
    | none => exact inBounds_error (nomatch ·) (nomatch ·) (nomatch ·)
    | some sp => exact (sampleOf_inBounds soundsetPath reads sp).mpr (closed sp found)
  · rw [getSample_unclosed soundsetPath zspData reads closed]
    exact iff_of_false (fun inside => inside.2.2 rfl) closed

/-- There is the sample, with closed names and two numbers. -/
def SampleLoads (number : Str) : Prop :=
  ∃ sp ∈ foundSample zspData number, (Closed (sp.get (str "PFAD")) ∧ Closed (sp.get (str "NAME"))) ∧
    (stoi (sp.get (str "L1"))).isOk ∧ (stoi (sp.get (str "L2"))).isOk

instance (number : Str) : Decidable (SampleLoads zspData number) := inferInstanceAs (Decidable (∃ sp ∈ _, _))

theorem isOk_bind {x : Except Err α} {f : α → Except Err β} :
    (x >>= f).isOk = true ↔ ∃ a, x = .ok a ∧ (f a).isOk = true := by
  cases x with
  | error e => exact iff_of_false (fun no => nomatch no) (fun ⟨_,no,_⟩ => nomatch no)
  | ok a => exact ⟨fun done => ⟨a,rfl,done⟩,fun ⟨_,same,done⟩ => by cases same; exact done⟩

theorem isOk_iff {x : Except Err α} : x.isOk = true ↔ ∃ a, x = .ok a := by
  cases x with
  | error e => exact iff_of_false (fun no => nomatch no) (fun ⟨_,no⟩ => nomatch no)
  | ok a => exact iff_of_true rfl ⟨a,rfl⟩

theorem unquoteValue_ok (lib : Library) (value : Str) : (∃ text, unquoteValue lib value = .ok text) ↔ Closed value := by
  obtain ⟨ends,runs⟩ := unquoteFrom_closed lib 8 false value
  refine ⟨fun ⟨text,read⟩ => ?_,ends⟩
  by_contra unclosed
  rw [unquoteValue,runs (Bool.not_eq_true _ ▸ unclosed)] at read
  cases read

theorem getSample_ok (lib : Library) (number : Str) :
    (getSample lib soundsetPath zspData number).isOk = true ↔ SampleLoads zspData number := by
  rw [getSample_found]
  unfold SampleLoads
  cases foundSample zspData number with
  | none => exact iff_of_false (fun no => nomatch no) (fun ⟨_,no,_⟩ => nomatch no)
  | some sp =>
    simp only [Option.mem_some_iff,exists_eq_left',sampleOf,isOk_bind,← unquoteValue_ok lib]
    constructor
    · rintro ⟨pfad,path,name,named,loopStartPos,l1,loopEndPos,l2,-⟩
      exact ⟨⟨⟨pfad,path⟩,⟨name,named⟩⟩,isOk_iff.mpr ⟨loopStartPos,l1⟩,isOk_iff.mpr ⟨loopEndPos,l2⟩⟩
    · rintro ⟨⟨⟨pfad,path⟩,⟨name,named⟩⟩,l1,l2⟩
      obtain ⟨loopStartPos,l1⟩ := isOk_iff.mp l1
      obtain ⟨loopEndPos,l2⟩ := isOk_iff.mp l2
      exact ⟨pfad,path,name,named,loopStartPos,l1,loopEndPos,l2,rfl⟩

/-! ### DiSet -/

/-- `"SAMPLE",<3*step+part>,<number>`: the step and the number. -/
def sampleFahrstufe (value : Str) : Int := (atoi (value.takeWhile (· ≠ 44))).tdiv 3

def sampleNumber (value : Str) : Str := (value.dropWhile (· ≠ 44)).drop 1

def schwelleFahrstufe (value : Str) : Int := atoi (value.takeWhile (· ≠ 44))

def Assigns (nsteps : Int) (value : Str) : Prop :=
  SampleLoads zspData (sampleNumber value) ∧ sampleFahrstufe value < nsteps

instance (nsteps : Int) (value : Str) : Decidable (Assigns zspData nsteps value) :=
  inferInstanceAs (Decidable (_ ∧ _))

def Stops (nsteps : Int) (it : Str × Str) : Prop :=
  it.1 = str "SAMPLE" ∧ 44 ∈ it.2 ∧ ¬ Assigns zspData nsteps it.2

/-- The element of `steps` that a value of the section is for. -/
def accessed (nsteps : Int) (it : Str × Str) : Option Int :=
  if it.1 = str "SAMPLE" then
    if 44 ∈ it.2 ∧ Assigns zspData nsteps it.2 then some (sampleFahrstufe it.2) else none
  else if it.1 = str "SCHWELLE" ∧ schwelleFahrstufe it.2 < add32 nsteps 1 then some (schwelleFahrstufe it.2)
  else none

/-- Up to the first value that throws or asserts, the names of the samples are closed and only elements
of `steps` are accessed. -/
def StepsInside (nsteps : Int) : SectionValues → Prop
  | [] => True
  | it :: rest =>
    (it.1 = str "SAMPLE" → 44 ∈ it.2 → SampleClosed zspData (sampleNumber it.2)) ∧
      (∀ fahrstufe ∈ accessed zspData nsteps it, 0 ≤ fahrstufe ∧ fahrstufe < DiSoundType.maxSteps) ∧
      (Stops zspData nsteps it ∨ StepsInside nsteps rest)

variable {soundsetPath zspData}

/-- An access either leaves the array, or keeps the number of steps. -/
theorem modifyStep_cases (fahrstufe : Int) (f : DiSoundStepType → DiSoundStepType) (soundFiles : DiSoundType) :
    (¬ (0 ≤ fahrstufe ∧ fahrstufe < DiSoundType.maxSteps) ∧
      soundFiles.modifyStep fahrstufe f = .error .outside) ∨
    ((0 ≤ fahrstufe ∧ fahrstufe < DiSoundType.maxSteps) ∧
      ∃ next, soundFiles.modifyStep fahrstufe f = .ok next ∧ next.nsteps = soundFiles.nsteps) := by
  by_cases inside : 0 ≤ fahrstufe ∧ fahrstufe < DiSoundType.maxSteps
  · refine .inr ⟨inside,{ soundFiles with steps := soundFiles.steps.modify fahrstufe.toNat f },?_,rfl⟩
    rw [DiSoundType.modifyStep,if_pos inside]
  · exact .inl ⟨inside,by rw [DiSoundType.modifyStep,if_neg inside]⟩

theorem parseSample_ok {value : Str} {soundFiles : DiSoundType} {sample : Sample} (comma : 44 ∈ value)
    (got : getSample lib soundsetPath zspData (sampleNumber value) = .ok sample) :
    parseSample lib soundsetPath zspData value soundFiles =
      if sampleFahrstufe value < soundFiles.nsteps then
        soundFiles.modifyStep (sampleFahrstufe value)
          (DiSoundStepType.assign ((atoi (value.takeWhile (· ≠ 44))).tmod 3) sample)
      else .error .assertion := by
  unfold sampleNumber at got
  rw [parseSample,if_pos comma,got]
  rfl

theorem parseSample_error {value : Str} {soundFiles : DiSoundType} {e : Err} (comma : 44 ∈ value)
    (got : getSample lib soundsetPath zspData (sampleNumber value) = .error e) :
    parseSample lib soundsetPath zspData value soundFiles = .error e := by
  unfold sampleNumber at got
  rw [parseSample,if_pos comma,got]
  rfl

/-- A value for an element of `steps` changes that element. -/
theorem parseDiValue_accessed {soundFiles : DiSoundType} {it : Str × Str} {fahrstufe : Int}
    (access : accessed zspData soundFiles.nsteps it = some fahrstufe) :
    ∃ f, parseDiValue lib soundsetPath zspData soundFiles it = soundFiles.modifyStep fahrstufe f := by
  unfold accessed at access
  split at access
  next isSample =>
    split at access
    next assigns =>
      obtain ⟨comma,found,below⟩ := assigns
      injection access with same
      obtain ⟨sample,got⟩ := isOk_iff.mp ((getSample_ok soundsetPath zspData lib _).mpr found)
      refine ⟨DiSoundStepType.assign ((atoi (it.2.takeWhile (· ≠ 44))).tmod 3) sample,?_⟩
      rw [parseDiValue,if_pos isSample,parseSample_ok comma got,if_pos below,same]
    next => exact nomatch access
  next notSample =>
    split at access
    next schwelle =>
      injection access with same
      refine ⟨fun step =>
        { step with limit := atoi (if 44 ∈ it.2 then (it.2.dropWhile (· ≠ 44)).drop 1 else it.2) },?_⟩
      unfold schwelleFahrstufe at same schwelle
      rw [parseDiValue,if_neg notSample,if_pos schwelle.1,parseSchwelle]
      simp only
      rw [if_pos schwelle.2,same]
    next => exact nomatch access

/-- A sample that is not assigned ends the function, inside of the strings where its names are closed. -/
theorem parseDiValue_stops (reads : lib.unquoteThrows = false) {soundFiles : DiSoundType} {it : Str × Str}
    (stops : Stops zspData soundFiles.nsteps it) :
    ∃ e, parseDiValue lib soundsetPath zspData soundFiles it = .error e ∧
      (InBounds (.error e : Except Err DiSoundType) ↔ SampleClosed zspData (sampleNumber it.2)) := by
  obtain ⟨isSample,comma,refused⟩ := stops
  have inside := getSample_inBounds soundsetPath zspData reads (sampleNumber it.2)
  rw [parseDiValue,if_pos isSample]
  cases got : getSample lib soundsetPath zspData (sampleNumber it.2) with
  | error e =>
    rw [got] at inside
    exact ⟨e,parseSample_error comma got,inBounds_error_iff.trans (inBounds_error_iff.symm.trans inside)⟩
  | ok sample =>
    have found := (getSample_ok soundsetPath zspData lib _).mp (isOk_iff.mpr ⟨sample,got⟩)
    have above : ¬ sampleFahrstufe it.2 < soundFiles.nsteps := fun below => refused ⟨found,below⟩
    rw [got] at inside
    refine ⟨.assertion,?_,iff_of_true (inBounds_error (nomatch ·) (nomatch ·) (nomatch ·)) (inside.mp (inBounds_ok _))⟩
    rw [parseSample_ok comma got,if_neg above]

theorem parseDiValue_skips {soundFiles : DiSoundType} {it : Str × Str}
    (access : accessed zspData soundFiles.nsteps it = none)
    (goes : ¬ Stops zspData soundFiles.nsteps it) :
    parseDiValue lib soundsetPath zspData soundFiles it = .ok soundFiles := by
  unfold accessed at access
  split at access
  next isSample =>
    split at access
    next => exact nomatch access
    next missing =>
      have plain : 44 ∉ it.2 := fun comma =>
        missing ⟨comma,not_not.mp fun refused => goes ⟨isSample,comma,refused⟩⟩
      rw [parseDiValue,if_pos isSample,parseSample,if_neg plain]
  next notSample =>
    split at access
    next => exact nomatch access
    next missing =>
      rw [parseDiValue,if_neg notSample]
      split
      next schwelle =>
        have above : ¬ schwelleFahrstufe it.2 < add32 soundFiles.nsteps 1 := fun below => missing ⟨schwelle,below⟩
        unfold schwelleFahrstufe at above
        rw [parseSchwelle]
        simp only
        rw [if_neg above]
      next => rfl

theorem accessed_goes {nsteps : Int} {it : Str × Str} {fahrstufe : Int}
    (access : accessed zspData nsteps it = some fahrstufe) : ¬ Stops zspData nsteps it := by
  rintro ⟨isSample,comma,refused⟩
  rw [accessed,if_pos isSample,if_neg (fun assigns => refused assigns.2)] at access
  exact nomatch access

/-- Up to the first value that ends the function, the names of the samples are closed. -/
theorem closed_of_goes {nsteps : Int} {it : Str × Str} (goes : ¬ Stops zspData nsteps it) :
    it.1 = str "SAMPLE" → 44 ∈ it.2 → SampleClosed zspData (sampleNumber it.2) := by
  intro isSample comma sp found
  obtain ⟨⟨other,there,closed,-⟩,-⟩ := not_not.mp fun refused => goes ⟨isSample,comma,refused⟩
  exact Option.mem_unique there found ▸ closed

/-- The loop over the section. -/
theorem parseDiValues_inBounds (reads : lib.unquoteThrows = false) (sp : SectionValues) (soundFiles : DiSoundType) :
    InBounds (sp.foldlM (parseDiValue lib soundsetPath zspData) soundFiles) ↔
      StepsInside zspData soundFiles.nsteps sp := by
  induction sp generalizing soundFiles with
  | nil => exact iff_of_true (inBounds_ok _) trivial
  | cons it rest ih =>
    rw [List.foldlM_cons,StepsInside]
    cases access : accessed zspData soundFiles.nsteps it with
    | some fahrstufe =>
      obtain ⟨f,modified⟩ := parseDiValue_accessed access
      have goes := accessed_goes access
      rw [modified,and_iff_right (closed_of_goes goes)]
      rcases modifyStep_cases fahrstufe f soundFiles with ⟨outside,failed⟩ | ⟨inside,next,done,same⟩
      · rw [failed]
        exact iff_of_false (fun safe => (inBounds_bind_error.mp safe).1 rfl)
          (fun both => outside (both.1 fahrstufe rfl))
      · rw [done]
        have rest := ih next
        rw [same] at rest
        refine rest.trans ⟨fun later => ⟨?_,.inr later⟩,fun both => both.2.resolve_left goes⟩
        intro other member
        rw [← Option.some.inj member]
        exact inside
    | none =>
      by_cases stops : Stops zspData soundFiles.nsteps it
      · obtain ⟨e,failed,safe⟩ := parseDiValue_stops reads stops
        rw [failed,inBounds_bind_error,← inBounds_bind_error (f := pure),bind_pure,safe]
        exact ⟨fun closed => ⟨fun _ _ => closed,fun _ missing => (nomatch missing),.inl stops⟩,
          fun all => all.1 stops.1 stops.2.1⟩
      · rw [parseDiValue_skips access stops,and_iff_right (closed_of_goes stops)]
        exact (ih soundFiles).trans
          ⟨fun later => ⟨fun _ missing => (nomatch missing),.inr later⟩,fun both => both.2.resolve_left stops⟩

variable (soundsetPath zspData)

/-- The values of the section are inside of `steps` and of the strings, as far as they are read. -/
def DiSetInside (sp : SectionValues) : Prop :=
  ∀ lok stufen, stoi (sp.get (str "NUMMER")) = .ok lok → stoi (sp.get (str "STUFEN")) = .ok stufen →
    StepsInside zspData (add32 stufen 1) sp

theorem parseDiSet_inBounds (reads : lib.unquoteThrows = false) (sp : SectionValues) :
    InBounds (parseDiSet lib soundsetPath zspData sp) ↔ DiSetInside zspData sp := by
  unfold parseDiSet DiSetInside
  rw [inBounds_bind (stoi_inBounds _)]
  refine forall_congr' fun lok => ?_
  have loop : ∀ stufen, InBounds (do
      let soundFiles ← sp.foldlM (parseDiValue lib soundsetPath zspData) { lok, nsteps := add32 stufen 1 }
      soundFiles.modifyStep 0 (fun step => { step with limit := 1 })) ↔
        StepsInside zspData (add32 stufen 1) sp := by
    intro stufen
    rw [← parseDiValues_inBounds reads sp { lok, nsteps := add32 stufen 1 }]
    cases sp.foldlM (parseDiValue lib soundsetPath zspData) { lok, nsteps := add32 stufen 1 } with
    | error e => exact inBounds_bind_error
    | ok soundFiles => exact iff_of_true (inBounds_ok _) (inBounds_ok _)
  rw [inBounds_bind (stoi_inBounds _)]
  constructor
  · intro inside stufen number steps
    exact (loop stufen).mp (inside number stufen steps)
  · intro inside number stufen steps
    exact (loop stufen).mpr (inside stufen number steps)

/-! ### DSet -/

/-- A number of a sample is looked up, and its names are closed. -/
def SlotClosed (value : Str × Str) : Prop := (stoi value.1).isOk → SampleClosed zspData value.1

/-- Enough values for the steps: `3 * nslots` samples and a time for each, up to a step whose time is
no number. The names of the samples are closed. -/
def StepsPresent (nslots : Nat) : Nat → SectionValues → Prop
  | 0, _ => True
  | steps + 1, it =>
    3 * nslots + 1 ≤ it.length ∧ (∀ value ∈ it.take (3 * nslots), SlotClosed zspData value) ∧
      ((stoi (it.getD (3 * nslots) ([],[])).1).isOk → StepsPresent nslots steps (it.drop (3 * nslots + 1)))

theorem SteamSoundType.modifyStep_ok {step : Nat} (f : SteamSoundStepType → SteamSoundStepType)
    (soundFiles : SteamSoundType) (steps : step < SteamSoundType.maxSteps) :
    ∃ next, soundFiles.modifyStep step f = .ok next := by
  unfold SteamSoundType.modifyStep
  rw [if_pos steps]
  exact ⟨_,rfl⟩

/-- A value of the section is assigned or skipped, and the next one is at the front; or its sample is
read behind the end of a string. -/
theorem parseSlot_cons (reads : lib.unquoteThrows = false) {step hml slot : Nat} (soundFiles : SteamSoundType)
    (value : Str × Str) (rest : SectionValues) (steps : step < SteamSoundType.maxSteps) (load : hml < 3)
    (slots : slot < SteamSoundStepType.maxSlots) :
    (SlotClosed zspData value → ∃ next,
      parseSlot lib soundsetPath zspData step hml slot (soundFiles,value :: rest) = .ok (next,rest)) ∧
    (¬ SlotClosed zspData value →
      parseSlot lib soundsetPath zspData step hml slot (soundFiles,value :: rest) = .error .pastString) := by
  have first : deref (value :: rest) = .ok (value,rest) := rfl
  constructor
  · intro closed
    have inside : InBounds (stoi value.1 >>= fun _ => getSample lib soundsetPath zspData value.1) :=
      (inBounds_bind (stoi_inBounds _)).mpr fun n number =>
        (getSample_inBounds soundsetPath zspData reads _).mpr (closed (isOk_iff.mpr ⟨n,number⟩))
    cases found : (stoi value.1 >>= fun _ => getSample lib soundsetPath zspData value.1) with
    | ok sample =>
      obtain ⟨next,assigned⟩ := SteamSoundType.modifyStep_ok
        (fun it => { it with ch := it.ch.modify hml (fun slots => slots.set slot sample) }) soundFiles steps
      refine ⟨next,?_⟩
      simp only [bind,Except.bind] at found
      simp only [parseSlot,first,bind,Except.bind,found,SteamSoundType.assign,if_pos (And.intro load slots),assigned]
      rfl
    | error e =>
      rw [found] at inside
      refine ⟨soundFiles,?_⟩
      simp only [bind,Except.bind] at found
      simp only [parseSlot,first,bind,Except.bind,found]
      cases e with
      | pastString => exact absurd rfl inside.2.2
      | _ => rfl
  · intro unclosed
    obtain ⟨number,beyond⟩ := Classical.not_imp.mp unclosed
    obtain ⟨n,number⟩ := isOk_iff.mp number
    simp only [parseSlot,first,bind,Except.bind,number,getSample_unclosed soundsetPath zspData reads beyond]

/-- The slots of a step take as many values as there are slots, as long as their names are closed. -/
theorem parseSlots_spec (reads : lib.unquoteThrows = false) {step : Nat} (steps : step < SteamSoundType.maxSteps)
    (slots : List (Nat × Nat)) (inside : ∀ slot ∈ slots, slot.1 < 3 ∧ slot.2 < SteamSoundStepType.maxSlots)
    (soundFiles : SteamSoundType) (it : SectionValues) :
    (slots.length ≤ it.length ∧ (∀ value ∈ it.take slots.length, SlotClosed zspData value) → ∃ next,
      slots.foldlM (fun state slot => parseSlot lib soundsetPath zspData step slot.1 slot.2 state) (soundFiles,it) =
        .ok (next,it.drop slots.length)) ∧
    (¬ (slots.length ≤ it.length ∧ ∀ value ∈ it.take slots.length, SlotClosed zspData value) → ¬ InBounds
      (slots.foldlM (fun state slot => parseSlot lib soundsetPath zspData step slot.1 slot.2 state) (soundFiles,it))) := by
  induction slots generalizing soundFiles it with
  | nil =>
    exact ⟨fun _ => ⟨soundFiles,rfl⟩,fun missing => absurd ⟨Nat.zero_le _,fun value none => nomatch none⟩ missing⟩
  | cons slot rest ih =>
    cases it with
    | nil => exact ⟨fun enough => absurd enough.1 (by simp),fun _ safe => (inBounds_bind_error.mp safe).2.1 rfl⟩
    | cons value values =>
      obtain ⟨load,bound⟩ := inside slot List.mem_cons_self
      obtain ⟨takes,tears⟩ := parseSlot_cons soundsetPath zspData reads soundFiles value values steps load bound
      simp only [List.foldlM_cons,List.length_cons,List.drop_succ_cons,List.take_succ_cons,List.forall_mem_cons]
      by_cases closed : SlotClosed zspData value
      · obtain ⟨next,taken⟩ := takes closed
        have later := ih (fun other member => inside other (List.mem_cons_of_mem _ member)) next values
        rw [taken,Nat.add_le_add_iff_right,and_iff_right closed]
        exact later
      · rw [tears closed]
        exact ⟨fun both => absurd both.2.1 closed,fun _ safe => (inBounds_bind_error.mp safe).2.2 rfl⟩

theorem slotsOf_length (nslots : Nat) : (slotsOf nslots).length = 3 * nslots := by
  simp [slotsOf,List.length_flatMap]
  ring

theorem slotsOf_mem {nslots : Nat} (bound : nslots ≤ SteamSoundStepType.maxSlots) :
    ∀ slot ∈ slotsOf nslots, slot.1 < 3 ∧ slot.2 < SteamSoundStepType.maxSlots := by
  intro slot member
  obtain ⟨hml,load,there⟩ := List.mem_flatMap.mp member
  obtain ⟨i,below,rfl⟩ := List.mem_map.mp there
  exact ⟨List.mem_range.mp load,(List.mem_range.mp below).trans_le bound⟩

theorem drop_getD {values : List α} {n : Nat} (default : α) (present : n < values.length) :
    values.drop n = values.getD n default :: values.drop (n + 1) := by
  rw [List.drop_eq_getElem_cons present,List.getD_eq_getElem _ _ present]

def BlockPresent (nslots : Nat) (it : SectionValues) : Prop :=
  3 * nslots + 1 ≤ it.length ∧ ∀ value ∈ it.take (3 * nslots), SlotClosed zspData value

/-- A step takes its slots and its time. -/
theorem parseStep_spec (reads : lib.unquoteThrows = false) {nslots step : Nat}
    (bound : nslots ≤ SteamSoundStepType.maxSlots) (steps : step < SteamSoundType.maxSteps)
    (soundFiles : SteamSoundType) (it : SectionValues) :
    (¬ BlockPresent zspData nslots it → ¬ InBounds (parseStep lib soundsetPath zspData nslots (soundFiles,it) step)) ∧
    (BlockPresent zspData nslots it → ∀ e, stoi (it.getD (3 * nslots) ([],[])).1 = .error e →
      parseStep lib soundsetPath zspData nslots (soundFiles,it) step = .error e) ∧
    (BlockPresent zspData nslots it → ∀ ms, stoi (it.getD (3 * nslots) ([],[])).1 = .ok ms → ∃ next,
      parseStep lib soundsetPath zspData nslots (soundFiles,it) step = .ok (next,it.drop (3 * nslots + 1))) := by
  have slots := parseSlots_spec soundsetPath zspData reads steps (slotsOf nslots) (slotsOf_mem bound) soundFiles it
  rw [slotsOf_length] at slots
  refine ⟨fun missing safe => ?_,fun present e failed => ?_,fun present ms number => ?_⟩
  · unfold parseStep at safe
    by_cases closed : 3 * nslots ≤ it.length ∧ ∀ value ∈ it.take (3 * nslots), SlotClosed zspData value
    · obtain ⟨next,taken⟩ := slots.1 closed
      have short : it.length ≤ 3 * nslots := by
        by_contra enough
        exact missing ⟨by omega,closed.2⟩
      rw [taken,List.drop_eq_nil_of_le short] at safe
      exact safe.2.1 rfl
    · have torn := slots.2 closed
      cases loop : (slotsOf nslots).foldlM
          (fun state slot => parseSlot lib soundsetPath zspData step slot.1 slot.2 state) (soundFiles,it) with
      | ok state =>
        rw [loop] at torn
        exact torn (inBounds_ok _)
      | error e =>
        rw [loop] at torn safe
        exact torn (inBounds_bind_error.mp safe)
  · obtain ⟨next,taken⟩ := slots.1 ⟨by have := present.1; omega,present.2⟩
    unfold parseStep
    rw [taken,drop_getD ([],[]) present.1]
    change (stoi _ >>= _) = _
    rw [failed]
    rfl
  · obtain ⟨next,taken⟩ := slots.1 ⟨by have := present.1; omega,present.2⟩
    obtain ⟨timed,set⟩ := SteamSoundType.modifyStep_ok (fun it => { it with ms := some ms }) next steps
    refine ⟨timed,?_⟩
    unfold parseStep
    rw [taken,drop_getD ([],[]) present.1]
    change (stoi _ >>= _) = _
    rw [number]
    change (next.modifyStep step _ >>= _) = _
    rw [set]
    rfl

/-- The loop over the steps. -/
theorem parseSteps_inBounds (reads : lib.unquoteThrows = false) {nslots : Nat}
    (bound : nslots ≤ SteamSoundStepType.maxSlots) (first steps : Nat)
    (below : first + steps ≤ SteamSoundType.maxSteps) (soundFiles : SteamSoundType) (it : SectionValues) :
    InBounds ((List.range' first steps).foldlM (parseStep lib soundsetPath zspData nslots) (soundFiles,it)) ↔
      StepsPresent zspData nslots steps it := by
  induction steps generalizing first soundFiles it with
  | zero => exact iff_of_true (inBounds_ok _) trivial
  | succ steps ih =>
    obtain ⟨torn,failed,done⟩ :=
      parseStep_spec soundsetPath zspData reads bound (show first < SteamSoundType.maxSteps by omega) soundFiles it
    rw [List.range'_succ,List.foldlM_cons,StepsPresent,← and_assoc]
    by_cases present : BlockPresent zspData nslots it
    · cases time : stoi (it.getD (3 * nslots) ([],[])).1 with
      | error e =>
        have inside := stoi_inBounds (it.getD (3 * nslots) ([],[])).1
        rw [time] at inside
        rw [failed present e time]
        refine iff_of_true ?_ ⟨present,fun number => nomatch number⟩
        exact inBounds_bind_error.mpr (inBounds_error_iff.mpr (inBounds_error_iff.mp inside))
      | ok ms =>
        obtain ⟨next,parsed⟩ := done present ms time
        rw [parsed]
        refine (ih (first + 1) (by omega) next _).trans ?_
        exact ⟨fun later => ⟨present,fun _ => later⟩,fun both => both.2 rfl⟩
    · have outside := torn present
      refine iff_of_false (fun safe => outside ?_) (fun both => present both.1)
      cases step : parseStep lib soundsetPath zspData nslots (soundFiles,it) first with
      | ok state => exact inBounds_ok _
      | error e =>
        rw [step] at safe
        exact inBounds_bind_error.mp safe

/-- The section from its first empty value on. -/
def plainValues (sp : SectionValues) : SectionValues := sp.dropWhile (fun it => decide (it.2 ≠ []))

theorem firstPlain_eq (sp : SectionValues) :
    firstPlain sp = if plainValues sp = [] then .error .pastEnd else .ok (plainValues sp) := by
  fun_induction firstPlain sp with
  | case1 => rfl
  | case2 it rest empty => simp [plainValues,empty]
  | case3 it rest full ih =>
    have same : plainValues (it :: rest) = plainValues rest := by simp [plainValues,full]
    rw [ih,same]

/-- There is an empty value, and from there on are enough values with closed names, as far as they are
read. -/
def DSetPresent (sp : SectionValues) : Prop :=
  ∀ slots, stoi (sp.get (str "SLOTS")) = .ok slots → add32 slots 1 ≤ SteamSoundStepType.maxSlots →
    ∀ steps, stoi (sp.get (str "STUFEN")) = .ok steps → steps ≤ SteamSoundType.maxSteps →
    ∀ lok, stoi (sp.get (str "NUMMER")) = .ok lok →
      plainValues sp ≠ [] ∧ StepsPresent zspData (add32 slots 1).toNat steps.toNat (plainValues sp)

/-- The loops of `parseDSet`. -/
theorem parseSlots_inBounds (reads : lib.unquoteThrows = false) {nslots nsteps : Int} (lok : Int) (sp : SectionValues)
    (slots : nslots ≤ SteamSoundStepType.maxSlots) (steps : nsteps ≤ SteamSoundType.maxSteps) :
    InBounds (do
      let it ← firstPlain sp
      let (soundFiles,_) ← (List.range nsteps.toNat).foldlM (parseStep lib soundsetPath zspData nslots.toNat)
        ({ lok,nsteps,nslots },it)
      return soundFiles) ↔
    plainValues sp ≠ [] ∧ StepsPresent zspData nslots.toNat nsteps.toNat (plainValues sp) := by
  rw [firstPlain_eq]
  split
  next missing => exact iff_of_false (fun safe => safe.2.1 rfl) (fun both => both.1 missing)
  next present =>
    have loop := parseSteps_inBounds soundsetPath zspData reads
      (show nslots.toNat ≤ SteamSoundStepType.maxSlots by omega) 0 nsteps.toNat (by omega) { lok,nsteps,nslots }
      (plainValues sp)
    rw [← List.range_eq_range'] at loop
    refine Iff.trans ?_ (loop.trans (and_iff_right present).symm)
    change InBounds (List.foldlM _ _ _ >>= _) ↔ _
    cases (List.range nsteps.toNat).foldlM (parseStep lib soundsetPath zspData nslots.toNat)
      ({ lok,nsteps,nslots },plainValues sp) with
    | error e => exact inBounds_bind_error
    | ok state => exact iff_of_true (inBounds_ok _) (inBounds_ok _)

theorem parseDSet_inBounds (reads : lib.unquoteThrows = false) (sp : SectionValues) :
    InBounds (parseDSet lib soundsetPath zspData sp) ↔ DSetPresent zspData sp := by
  unfold parseDSet DSetPresent
  rw [inBounds_bind (stoi_inBounds _)]
  refine forall_congr' fun slots => imp_congr_right fun _ => ?_
  refine inBounds_assert.trans (imp_congr_right fun few => ?_)
  rw [inBounds_bind (stoi_inBounds _)]
  refine forall_congr' fun steps => imp_congr_right fun _ => ?_
  refine inBounds_assert.trans (imp_congr_right fun small => ?_)
  rw [inBounds_bind (stoi_inBounds _)]
  refine forall_congr' fun lok => imp_congr_right fun _ => ?_
  exact parseSlots_inBounds soundsetPath zspData reads lok sp few small

/-- The `unquote` under `src/`, beside any `trim` and `replace_all_copy`. -/
def vendored (trim : Str → Str) (replace_all_copy : Str → Str → Str → Str) : Library :=
  { trim, replace_all_copy, unquoteThrows := false }

/-- Both functions stay in bounds exactly if the steps of a DiSet are inside of the array, the values of
a DSet are there, and the names of all samples that are looked up are closed. -/
theorem parseSets_inBounds (trim : Str → Str) (replace_all_copy : Str → Str → Str → Str) (sp : SectionValues) :
    (InBounds (parseDiSet (vendored trim replace_all_copy) soundsetPath zspData sp) ↔ DiSetInside zspData sp) ∧
      (InBounds (parseDSet (vendored trim replace_all_copy) soundsetPath zspData sp) ↔ DSetPresent zspData sp) :=
  ⟨parseDiSet_inBounds soundsetPath zspData rfl sp,parseDSet_inBounds soundsetPath zspData rfl sp⟩

/-- Spaces at both ends are removed. -/
def trimmed (s : Str) : Str := strtrim (s.dropWhile isspace)

/-- Every byte that is searched for is replaced. -/
def replaced (input search format : Str) : Str :=
  match search with
  | [c] => input.flatMap (fun d => if d = c then format else [d])
  | _ => input

/-- A threshold behind the last of the 20 steps, a sample whose name is not closed, and a DSet without
its samples. -/
theorem parseSets_outside :
    ¬ InBounds (parseDiSet (vendored trimmed replaced) [] []
      [(str "NUMMER",str "0"),(str "STUFEN",str "19"),(str "SCHWELLE",str "20,255,6")]) ∧
    ¬ InBounds (parseDiSet (vendored trimmed replaced) []
      [(str "Sample",[(str "NUMMER",str "1"),(str "PFAD",str "\"\""),(str "NAME",str "\"kick.wav"),
        (str "L1",str "0"),(str "L2",str "0")])]
      [(str "NUMMER",str "0"),(str "STUFEN",str "1"),(str "SAMPLE",str "0,1")]) ∧
    ¬ InBounds (parseDSet (vendored trimmed replaced) [] []
      [(str "NUMMER",str "0"),(str "STUFEN",str "1"),(str "SLOTS",str "3")]) :=
  ⟨fun inside => inside.1 (by decide +kernel),fun inside => inside.2.2 (by decide +kernel),
    fun inside => inside.2.1 (by decide +kernel)⟩

end Btcontrol.Zsp
