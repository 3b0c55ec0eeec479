import Btcontrol.ZppStored

/-! The sections of a converted image as `loadZSP` finds them. -/
namespace Btcontrol.Zpp

open Bytes Zsp

variable {signed : Bool} {lib : Library} {to_utf : Str → Str} {data : Str} (baseFolder : Str)

/-! ### The sections by name -/

/-- The sections of a converted image, with those of the DSets. -/
structure Converted (signed : Bool) (to_utf : Str → Str) (data : Str) (sections dSets : List Section) : Prop where
  made : (dSetNumbers signed data).mapM (dSetSection signed data) = .ok dSets
  whole : sections = sampleSections to_utf data ++ ablSections signed data ++ diSetSections signed data ++ dSets

theorem convertData_converted {sf_open : Str → Bool} {output : Output}
    (done : convertData signed to_utf sf_open baseFolder data = .ok output) :
    ∃ dSets, Converted signed to_utf data output.sections dSets ∧ output.wavs = wavFiles to_utf baseFolder data := by
  unfold convertData at done
  split at done
  · cases done
  · split at done
    · cases done
    · split at done
      · cases done
      · obtain ⟨dSets,made,done⟩ := Exec.ok_of_bind done
        cases done
        exact ⟨dSets,⟨made,rfl⟩,rfl⟩

theorem dSet_mem {sections dSets : List Section} (converted : Converted signed to_utf data sections dSets) :
    ∀ it ∈ dSets, ∃ i < 32, dSetSection signed data i = .ok it := by
  intro it member
  obtain ⟨i,there,made⟩ := mem_of_mapM converted.made it member
  exact ⟨i,List.mem_range.mp ((List.takeWhile_sublist _).subset there),made⟩

theorem samples_mem {i : Nat} : i ∈ samples data ↔ i < 128 ∧ HasSample data i := by
  rw [samples,sampleNumbers,List.mem_filter,List.mem_range,decide_eq_true_eq]

/-- The sections behind the samples are read as they were written. -/
theorem others_readable (trims : Trims lib.trim) {sections dSets : List Section}
    (converted : Converted signed to_utf data sections dSets) :
    (∀ it ∈ ablSections signed data, it.Readable lib) ∧ (∀ it ∈ diSetSections signed data, it.Readable lib) ∧
      ∀ it ∈ dSets, it.Readable lib := by
  refine ⟨?_,?_,?_⟩
  · intro it member
    obtain ⟨i,there,inside⟩ := List.mem_flatMap.mp member
    obtain ⟨j,entry,rfl⟩ := List.mem_map.mp inside
    exact ablSection_readable signed data trims (List.mem_range.mp there) (ablEntries_bound entry)
  · intro it member
    obtain ⟨i,there,rfl⟩ := List.mem_map.mp member
    exact diSetSection_readable signed data trims (List.mem_range.mp ((List.takeWhile_sublist _).subset there))
  · intro it member
    obtain ⟨i,bound,made⟩ := dSet_mem converted it member
    exact (dSetSection_spec signed data trims bound made).1

/-- The sections are read one by one, and all of them exactly if the names are. -/
theorem converted_sections (trims : Trims lib.trim) (widens : Widens to_utf) {sections dSets : List Section}
    (converted : Converted signed to_utf data sections dSets)
    (stays : ∀ i ∈ samples data, ∀ text ∈ (sampleSection to_utf data i).texts lib, text.take 2 ≠ str "\"/") :
    (∀ it ∈ sections, it.Contained lib) ∧
      ((∀ it ∈ sections, (it.entries lib).isOk) ↔ NamesRead lib to_utf data) := by
  obtain ⟨abl,diSet,dSet⟩ := others_readable trims converted
  have read {it : Section} (readable : it.Readable lib) : (it.entries lib).isOk := by
    rw [readable.values]
    rfl
  rw [converted.whole]
  simp only [List.forall_mem_append]
  refine ⟨⟨⟨⟨?_,fun it member => (abl it member).contained⟩,fun it member => (diSet it member).contained⟩,
    fun it member => (dSet it member).contained⟩,?_⟩
  · intro it member
    obtain ⟨i,there,rfl⟩ := List.mem_map.mp member
    exact sampleSection_contained data widens (samples_mem.mp there).1 (stays i there)
  · rw [and_iff_left fun it member => read (dSet it member),and_iff_left fun it member => read (diSet it member),
      and_iff_left fun it member => read (abl it member)]
    exact List.forall_mem_map

theorem filter_same {list : List Section} {name : Str} (all : ∀ it ∈ list, it.name = name) :
    list.filter (fun it => it.name = name) = list :=
  List.filter_eq_self.mpr fun it member => decide_eq_true (all it member)

theorem filter_other {list : List Section} {name other : Str} (all : ∀ it ∈ list, it.name = other)
    (different : other ≠ name) : list.filter (fun it => it.name = name) = [] :=
  List.filter_eq_nil_iff.mpr fun it member same => different ((all it member).symm.trans (of_decide_eq_true same))

theorem sampleSections_name (to_utf : Str → Str) (data : Str) :
    ∀ it ∈ sampleSections to_utf data, it.name = str "Sample" := by
  intro it member
  obtain ⟨i,-,rfl⟩ := List.mem_map.mp member
  rfl

theorem ablSections_name (signed : Bool) (data : Str) : ∀ it ∈ ablSections signed data, it.name = str "Abl" := by
  intro it member
  obtain ⟨i,-,inside⟩ := List.mem_flatMap.mp member
  obtain ⟨j,-,rfl⟩ := List.mem_map.mp inside
  rfl

theorem diSetSections_name (signed : Bool) (data : Str) : ∀ it ∈ diSetSections signed data, it.name = str "DiSet" := by
  intro it member
  obtain ⟨i,-,rfl⟩ := List.mem_map.mp member
  rfl

theorem dSets_name (trims : Trims lib.trim) {sections dSets : List Section}
    (converted : Converted signed to_utf data sections dSets) : ∀ it ∈ dSets, it.name = str "DSet" := by
  intro it member
  obtain ⟨i,bound,made⟩ := dSet_mem converted it member
  exact (dSetSection_spec signed data trims bound made).2.1

theorem values_read {list : List Section} (readable : ∀ it ∈ list, it.Readable lib) :
    list.map (Section.valuesRead lib) = list.map Section.values :=
  List.map_congr_left fun it member => (readable it member).valuesRead

/-- The table `loadZSP` makes of the generated file. -/
theorem converted_tables (trims : Trims lib.trim) {sections dSets : List Section}
    (converted : Converted signed to_utf data sections dSets) :
    (inserted lib sections []).equalRange (str "Sample") = (sampleSections to_utf data).map (Section.valuesRead lib) ∧
    (inserted lib sections []).equalRange (str "Abl") = (ablSections signed data).map Section.values ∧
    (inserted lib sections []).equalRange (str "DiSet") = (diSetSections signed data).map Section.values ∧
    (inserted lib sections []).equalRange (str "DSet") = dSets.map Section.values := by
  have sample := sampleSections_name to_utf data
  have abl := ablSections_name signed data
  have diSet := diSetSections_name signed data
  have dSet := dSets_name trims converted
  have table (name : Str) : (inserted lib sections []).equalRange name =
      ((sampleSections to_utf data).filter (fun it => it.name = name) ++
        (ablSections signed data).filter (fun it => it.name = name) ++
        (diSetSections signed data).filter (fun it => it.name = name) ++
        dSets.filter (fun it => it.name = name)).map (Section.valuesRead lib) := by
    have empty : ZSPDataType.equalRange name [] = [] := rfl
    rw [inserted_equalRange sections List.Pairwise.nil,empty,List.nil_append,converted.whole,List.filter_append,
      List.filter_append,List.filter_append]
  have sampleAbl : str "Sample" ≠ str "Abl" := by decide
  have sampleDiSet : str "Sample" ≠ str "DiSet" := by decide
  have sampleDSet : str "Sample" ≠ str "DSet" := by decide
  have ablDiSet : str "Abl" ≠ str "DiSet" := by decide
  have ablDSet : str "Abl" ≠ str "DSet" := by decide
  have diSetDSet : str "DiSet" ≠ str "DSet" := by decide
  obtain ⟨ablRead,diSetRead,dSetRead⟩ := others_readable trims converted
  rw [← values_read ablRead,← values_read diSetRead,← values_read dSetRead]
  refine ⟨?_,?_,?_,?_⟩
  · rw [table,filter_same sample,filter_other abl sampleAbl.symm,filter_other diSet sampleDiSet.symm,
      filter_other dSet sampleDSet.symm,List.append_nil,List.append_nil,List.append_nil]
  · rw [table,filter_same abl,filter_other sample sampleAbl,filter_other diSet ablDiSet.symm,
      filter_other dSet ablDSet.symm,List.append_nil,List.append_nil,List.nil_append]
  · rw [table,filter_same diSet,filter_other sample sampleDiSet,filter_other abl ablDiSet,
      filter_other dSet diSetDSet.symm,List.append_nil,List.nil_append,List.nil_append]
  · rw [table,filter_same dSet,filter_other sample sampleDSet,filter_other abl ablDSet,
      filter_other diSet diSetDSet,List.nil_append,List.nil_append,List.nil_append]

/-! ### Samples -/

/-- All keys of the table are before "Sample". -/
theorem converted_samples (trims : Trims lib.trim) {sections dSets : List Section}
    (converted : Converted signed to_utf data sections dSets) :
    (inserted lib sections []).dropWhile (fun it => decide (it.1 ≠ str "Sample")) =
      (inserted lib sections []).filter (fun it => it.1 = str "Sample") := by
  refine samples_last (inserted_sorted sections List.Pairwise.nil) (str "Sample") ?_
  intro it member other
  rcases inserted_mem sections member with never | ⟨from_,there,same⟩
  · cases never
  · rw [converted.whole] at there
    simp only [List.mem_append] at there
    rcases there with ((sample | abl) | diSet) | dSet
    · exact absurd (same.trans (sampleSections_name to_utf data from_ sample)) other
    · rw [same,ablSections_name signed data from_ abl]
      decide
    · rw [same,diSetSections_name signed data from_ diSet]
      decide
    · rw [same,dSets_name trims converted from_ dSet]
      decide

/-- `getSample` looks through the samples that were written. -/
theorem getSample_converted (trims : Trims lib.trim) {sections dSets : List Section}
    (converted : Converted signed to_utf data sections dSets) (soundsetPath number : Str) :
    getSample lib soundsetPath (inserted lib sections []) number =
      match ((sampleSections to_utf data).map (Section.valuesRead lib)).find?
        (fun sp => sp.get (str "NUMMER") = number) with
      | some sp => sampleOf lib soundsetPath sp
      | none => .error (.invalidSample number) := by
  rw [← (converted_tables trims converted).1,ZSPDataType.equalRange,List.find?_map,getSample]
  simp only [converted_samples trims converted,Function.comp_def]
  cases ((inserted lib sections []).filter (fun it => it.1 = str "Sample")).find?
    (fun (it : Str × SectionValues) => decide (it.2.get (str "NUMMER") = number)) with
  | none => rfl
  | some it => rfl

/-- The values of a sample begin with its number, its path and what is left of its name. -/
theorem sample_values (trims : Trims lib.trim) {i : Nat} (bound : i < 128) {values : SectionValues}
    (read : (sampleSection to_utf data i).entries lib = .ok values) :
    ∃ more, values = (str "NUMMER",decimal (i + 1)) :: (str "PFAD",quoted []) ::
      (str "NAME",34 :: firstPart (infoName to_utf data i ++ str ".wav" ++ [34])) :: more := by
  have number := good_read trims (number_good (show Key (str "NUMMER") from key_of rfl) (sample_fits data bound).1)
  have path := good_read trims (show (Line.pair (str "PFAD") (quoted [])).Good from
    ⟨key_of rfl,plain_of_decide (by decide) (by decide)⟩)
  obtain ⟨behind,name⟩ := linesRead_quoted trims (show Key (str "NAME") from key_of rfl)
    (infoName to_utf data i ++ str ".wav" ++ [34])
  obtain ⟨rest,lines⟩ : ∃ rest, (sampleSection to_utf data i).lines =
      .pair (str "NUMMER") (decimal (i + 1)) :: .pair (str "PFAD") (quoted []) ::
        .pair (str "NAME") (34 :: (infoName to_utf data i ++ str ".wav" ++ [34])) :: rest := ⟨_,rfl⟩
  rw [Section.entries,Section.texts,lines,List.flatMap_cons,List.flatMap_cons,List.flatMap_cons,number.2.1,path.2.1,name,
    List.singleton_append,List.singleton_append,List.cons_append] at read
  obtain ⟨first,others,here,later,rfl⟩ := mapM_cons_ok read
  rw [number.2.2.2] at here
  cases here
  obtain ⟨second,further,here,last,rfl⟩ := mapM_cons_ok later
  rw [path.2.2.2] at here
  cases here
  obtain ⟨third,more,here,-,rfl⟩ := mapM_cons_ok last
  rw [Line.text,parseValue_pair lib (show Word (str "NAME") from (key_of rfl).1)] at here
  cases here
  exact ⟨more,rfl⟩

/-- A name that is read back between its quotes stood on one line, without a quote or an escape. -/
theorem clean_of_unquoted {name : Str}
    (read : unquoteValue lib (34 :: firstPart (name ++ str ".wav" ++ [34])) = .ok (name ++ str ".wav")) :
    CleanName name := by
  rw [unquoteValue,unquoteFrom,if_pos rfl] at read
  obtain ⟨short,shape⟩ := (unquoteFrom_length lib 8 true _ _ read).2 rfl
  have size : (name ++ str ".wav" ++ [34]).length = (name ++ str ".wav").length + 1 := List.length_append
  obtain ⟨whole,plain⟩ := firstPart_whole (size.trans_le short)
  rw [whole] at shape
  obtain ⟨front,back,same,clean,closed⟩ := shape size.symm
  -- the closing quote is the last byte
  have empty : back = [] := by
    rcases List.eq_nil_or_concat back with none | ⟨middle,c,some⟩
    · exact none
    · rw [some,List.concat_eq_append,← List.cons_append,← List.append_assoc] at same
      have last := List.cons.inj (List.append_inj' same rfl).2
      rw [some,List.concat_eq_append,← last.1] at closed
      exact absurd (List.mem_append_right _ List.mem_cons_self) closed
  subst empty
  have front : name ++ str ".wav" = front := List.append_cancel_right same
  intro c member
  have inside : c ∈ name ++ str ".wav" := List.mem_append_left _ member
  obtain ⟨newline,zero⟩ := plain c (List.mem_append_left _ inside)
  obtain ⟨quote,escape⟩ := clean c (front ▸ inside)
  exact ⟨zero,escape,newline,quote⟩

/-- `boost::replace_all_copy` leaves a text that does not hold what is searched for. -/
def Replaces (replace_all_copy : Str → Str → Str → Str) : Prop :=
  ∀ input search format, ¬ search <:+: input → replace_all_copy input search format = input

theorem replaced_replaces : Replaces replaced := by
  intro input search format missing
  unfold replaced
  split
  next c =>
    have other : ∀ d ∈ input, d ≠ c := by
      rintro d member rfl
      obtain ⟨front,back,whole⟩ := List.append_of_mem member
      exact missing ⟨front,back,by rw [whole]; simp⟩
    rw [List.flatMap_congr fun d member => if_neg (other d member)]
    exact List.flatMap_singleton' input
  next => rfl

theorem clean_quoted {i : Nat} (clean : CleanName (infoName to_utf data i)) :
    unquoteValue lib (quoted (infoName to_utf data i ++ str ".wav")) = .ok (infoName to_utf data i ++ str ".wav") := by
  have wavText : CleanName (str ".wav") := clean_of rfl
  refine unquoteFrom_quoted lib (by decide) ?_
  intro c member
  rcases List.mem_append.mp member with inside | extension
  · exact ⟨(clean c inside).2.2.2,(clean c inside).2.1⟩
  · have letter := wavText c extension
    exact ⟨letter.2.2.2,letter.2.1⟩

section names

variable (replaces : Replaces lib.replace_all_copy)
include replaces

/-- The sample of a section that begins like that of a sample. -/
theorem sampleOf_values {values : SectionValues} {number text : Str} {more : SectionValues}
    (shape : values = (str "NUMMER",number) :: (str "PFAD",quoted []) :: (str "NAME",text) :: more) :
    sampleOf lib baseFolder values = (do
      let name ← unquoteValue lib text
      let loopStartPos ← stoi (values.get (str "L1"))
      let loopEndPos ← stoi (values.get (str "L2"))
      return ⟨baseFolder ++ str "/" ++ name, loopStartPos, loopEndPos⟩) := by
  have pfad : values.get (str "PFAD") = quoted [] := by rw [shape]; rfl
  have named : values.get (str "NAME") = text := by rw [shape]; rfl
  have empty : unquoteValue lib (quoted []) = .ok [] := rfl
  have none : lib.replace_all_copy [] [92] [47] = [] := replaces [] [92] [47] (by simp)
  rw [sampleOf,pfad,named,empty]
  change (do
    let name ← unquoteValue lib text
    let loopStartPos ← stoi (values.get (str "L1"))
    let loopEndPos ← stoi (values.get (str "L2"))
    return (⟨baseFolder ++ str "/" ++ lib.replace_all_copy [] [92] [47] ++ name, loopStartPos, loopEndPos⟩ : Sample)) = _
  rw [none,List.append_nil]

variable (trims : Trims lib.trim) (widens : Widens to_utf)
include trims widens

theorem readBack_clean {id : Int} (present : Present data id) (clean : CleanName (infoName to_utf data (id - 1).toNat)) :
    readBack lib to_utf baseFolder data id = .ok (storedSample to_utf baseFolder data id) := by
  have low := present.1
  have high := present.2.1
  have readable := sampleSection_readable data widens trims (show (id - 1).toNat < 128 by omega) clean
  obtain ⟨start,stop⟩ := wavLoop_fits data (id - 1).toNat
  obtain ⟨rest,shape⟩ : ∃ rest, (sampleSection to_utf data (id - 1).toNat).values =
      (str "NUMMER",decimal ((id - 1).toNat + 1)) :: (str "PFAD",quoted []) ::
        (str "NAME",quoted (infoName to_utf data (id - 1).toNat ++ str ".wav")) :: rest := ⟨_,rfl⟩
  have l1 : (sampleSection to_utf data (id - 1).toNat).values.get (str "L1") =
      decimal (wavLoopStart data (id - 1).toNat) := rfl
  have l2 : (sampleSection to_utf data (id - 1).toNat).values.get (str "L2") =
      decimal (wavLoopEnd data (id - 1).toNat) := rfl
  rw [readBack,readable.values]
  change sampleOf lib baseFolder (sampleSection to_utf data (id - 1).toNat).values = _
  rw [sampleOf_values baseFolder replaces shape,clean_quoted clean,l1,l2,stoi_decimal start,stoi_decimal stop,
    storedSample,if_pos present]
  rfl

/-- A sample comes back under its name exactly if the name stands in quotes on one line. -/
theorem readBack_iff {id : Int} (present : Present data id) :
    readBack lib to_utf baseFolder data id = .ok (storedSample to_utf baseFolder data id) ↔
      CleanName (infoName to_utf data (id - 1).toNat) := by
  refine ⟨fun read => ?_,readBack_clean baseFolder replaces trims widens present⟩
  obtain ⟨values,entries,read⟩ := Exec.ok_of_bind read
  obtain ⟨more,shape⟩ := sample_values trims (by have := present.1; have := present.2.1; omega) entries
  rw [sampleOf_values baseFolder replaces shape] at read
  obtain ⟨name,unquoted,read⟩ := Exec.ok_of_bind read
  obtain ⟨loopStartPos,-,read⟩ := Exec.ok_of_bind read
  obtain ⟨loopEndPos,-,read⟩ := Exec.ok_of_bind read
  rw [storedSample,if_pos present] at read
  have same : name = infoName to_utf data (id - 1).toNat ++ str ".wav" :=
    List.append_cancel_left (congrArg Sample.fileName (Except.ok.inj read))
  subst same
  exact clean_of_unquoted unquoted

end names

theorem find_only {p : α → Bool} {list : List α} {x : α} (member : x ∈ list) (holds : p x = true)
    (only : ∀ y ∈ list, p y = true → y = x) : list.find? p = some x := by
  cases found : list.find? p with
  | none => exact absurd holds (List.find?_eq_none.mp found x member)
  | some y => rw [only y (List.mem_of_find?_eq_some found) (List.find?_some found)]

/-- A number that was written is found, if there is such a sample. -/
theorem find_sample (trims : Trims lib.trim) (named : NamesRead lib to_utf data) (id : Int) :
    ((sampleSections to_utf data).map (Section.valuesRead lib)).find? (fun sp => sp.get (str "NUMMER") = decimal id) =
      if Present data id then some ((sampleSection to_utf data (id - 1).toNat).valuesRead lib) else none := by
  have number (i : Nat) (there : i ∈ samples data) :
      ((sampleSection to_utf data i).valuesRead lib).get (str "NUMMER") = decimal (i + 1) := by
    obtain ⟨values,read⟩ := isOk_iff.mp (named i there)
    obtain ⟨more,shape⟩ := sample_values trims (samples_mem.mp there).1 read
    rw [Section.valuesRead,read,shape]
    rfl
  have equal (i : Nat) : decimal (i + 1) = decimal id ↔ (i : Int) = id - 1 :=
    ⟨fun same => by have := decimal_injective same; omega,fun same => by rw [same,sub_add_cancel]⟩
  split
  next present =>
    obtain ⟨low,high,has⟩ := present
    have there : (id - 1).toNat ∈ samples data := samples_mem.mpr ⟨by omega,has⟩
    refine find_only ?_ ?_ ?_
    · exact List.mem_map.mpr ⟨_,List.mem_map.mpr ⟨(id - 1).toNat,there,rfl⟩,rfl⟩
    · rw [decide_eq_true_eq,number _ there,equal]
      omega
    · intro sp member found
      obtain ⟨it,inside,rfl⟩ := List.mem_map.mp member
      obtain ⟨i,there,rfl⟩ := List.mem_map.mp inside
      rw [decide_eq_true_eq,number i there] at found
      have here := (equal i).mp found
      have same : (id - 1).toNat = i := by omega
      rw [same]
  next missing =>
    rw [List.find?_eq_none]
    intro sp member found
    obtain ⟨it,inside,rfl⟩ := List.mem_map.mp member
    obtain ⟨i,there,rfl⟩ := List.mem_map.mp inside
    rw [decide_eq_true_eq,number i there] at found
    have here := (equal i).mp found
    obtain ⟨bound,has⟩ := samples_mem.mp there
    have same : (id - 1).toNat = i := by omega
    exact missing ⟨by omega,by omega,by rw [same]; exact has⟩

/-- `getSample` for a number that was written. -/
theorem getSample_decimal (trims : Trims lib.trim) {sections dSets : List Section}
    (converted : Converted signed to_utf data sections dSets) (named : NamesRead lib to_utf data) (id : Int) :
    getSample lib baseFolder (inserted lib sections []) (decimal id) =
      if Present data id then readBack lib to_utf baseFolder data id else .error (.invalidSample (decimal id)) := by
  rw [getSample_converted trims converted,find_sample trims named]
  by_cases present : Present data id
  · rw [if_pos present,if_pos present]
    obtain ⟨low,high,has⟩ := present
    obtain ⟨values,read⟩ := isOk_iff.mp (named (id - 1).toNat (samples_mem.mpr ⟨by omega,has⟩))
    rw [readBack,Section.valuesRead,read]
    rfl
  · rw [if_neg present,if_neg present]

end Btcontrol.Zpp
