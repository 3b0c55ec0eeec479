import Btcontrol.ZppStored

/-! The DiSet sections of a generated file through `parseDiSet`, with any samples. -/
namespace Btcontrol.Zpp

open Bytes Zsp

variable {signed : Bool} {data : Str} (lib : Library) (baseFolder : Str) (zspData : ZSPDataType)

/-! ### The lines of a DiSet -/

/-- A number up to the comma. -/
theorem split_decimal (n : Int) (rest : Str) :
    (decimal n ++ 44 :: rest).takeWhile (· ≠ 44) = decimal n ∧
      (decimal n ++ 44 :: rest).dropWhile (· ≠ 44) = 44 :: rest := by
  have plain : ∀ c ∈ decimal n, decide (c ≠ 44) = true := by
    intro c member
    rcases decimal_bytes n c member with rfl | ⟨low,high⟩
    · decide
    · rw [decide_eq_true_eq]
      rintro rfl
      exact absurd low (by decide)
  rw [List.takeWhile_append_of_pos plain,List.dropWhile_append_of_pos plain,List.takeWhile_cons_of_neg (by simp),
    List.dropWhile_cons_of_neg (by simp),List.append_nil]
  exact ⟨rfl,rfl⟩

/-- A line with a threshold: the step has to be in the array, if it is not skipped. -/
theorem parse_schwelle (soundFiles : DiSoundType) (s : Nat) (bound : s < 2 ^ 16) {limit : Int}
    (fits : Fits32 limit) :
    parseDiValue lib baseFolder zspData soundFiles
        (str "SCHWELLE",decimal s ++ 44 :: decimal limit ++ str ",64") =
      if (s : Int) < add32 soundFiles.nsteps 1 then
        soundFiles.modifyStep s (fun it => { it with limit := limit })
      else .ok soundFiles := by
  have value : decimal s ++ 44 :: decimal limit ++ str ",64" = decimal s ++ 44 :: (decimal limit ++ str ",64") := by simp
  obtain ⟨front,back⟩ := split_decimal s (decimal limit ++ str ",64")
  have comma : 44 ∈ decimal s ++ 44 :: (decimal limit ++ str ",64") := by simp
  have index : atoi (decimal (s : Int)) = s := atoi_number (by unfold Fits32; omega)
  have number : atoi (decimal limit ++ str ",64") = limit := atoi_decimal fits (.inr ⟨str "64",rfl⟩)
  rw [value,parseDiValue,if_neg (show str "SCHWELLE" ≠ str "SAMPLE" by decide),if_pos rfl,parseSchwelle]
  simp only [front,index,if_pos comma,back,List.drop_succ_cons,List.drop_zero,number]

/-- Lines with other keys are skipped. -/
theorem parse_others {values : SectionValues} (others : ∀ it ∈ values, it.1 ≠ str "SAMPLE" ∧ it.1 ≠ str "SCHWELLE")
    (soundFiles : DiSoundType) :
    values.foldlM (parseDiValue lib baseFolder zspData) soundFiles = .ok soundFiles := by
  induction values with
  | nil => rfl
  | cons it rest ih =>
    obtain ⟨⟨sample,schwelle⟩,later⟩ := List.forall_mem_cons.mp others
    rw [List.foldlM_cons,parseDiValue,if_neg sample,if_neg schwelle]
    exact ih later

theorem upperSteps_range (stufen : Int) : upperSteps stufen = List.range' 1 (stufen - 1).toNat := by
  rw [upperSteps,List.range'_eq_map_range]
  refine List.map_congr_left fun k _ => ?_
  omega

/-- The values of a DiSet section. -/
theorem diSet_values (i : Nat) :
    (diSetSection signed data i).values =
      [(str "NUMMER",decimal i),(str "NAME",quoted (unknown i)),
        (str "STUFEN",decimal (char signed data (diSetAddress signed data i))),
        (str "TYP",decimal (char signed data (diSetAddress signed data i + 1)))] ++
      ((stepSamples signed data (diSetAddress signed data i) 0).map Line.values ++
      ((stepSamples signed data (diSetAddress signed data i) 1).map Line.values ++
      (((List.range' 1 (char signed data (diSetAddress signed data i) - 1).toNat).flatMap
        (stepLines signed data (diSetAddress signed data i) (char signed data (diSetAddress signed data i)))).map
          Line.values ++
      [(str "PANTOAUS",decimal 0),(str "HG_SCHALTWERK",decimal 0)]))) := by
  rw [← upperSteps_range]
  simp only [Section.values,diSetSection,diSetLines,List.map_append,List.append_assoc]
  rfl

theorem foldlM_ok {α σ : Type} {f : σ → α → Except Zsp.Err σ} {list : List α} {s s' : σ}
    (first : list.foldlM f s = .ok s') (more : List α) : (list ++ more).foldlM f s = more.foldlM f s' := by
  rw [List.foldlM_append,first]
  rfl

theorem foldlM_error {α σ : Type} {f : σ → α → Except Zsp.Err σ} {list : List α} {s : σ} {e : Zsp.Err}
    (first : list.foldlM f s = .error e) (more : List α) : (list ++ more).foldlM f s = .error e := by
  rw [List.foldlM_append,first]
  rfl

/-! ### The steps that have been read -/

theorem modify_map_range (g : Nat → α) (f : α → α) (n k : Nat) :
    ((List.range n).map g).modify k f = (List.range n).map (fun j => if j = k then f (g j) else g j) := by
  refine List.ext_getElem (by simp) ?_
  intro j left right
  rw [List.getElem_modify,List.getElem_map,List.getElem_map,List.getElem_range]
  by_cases same : k = j
  · rw [if_pos same,if_pos same.symm]
  · rw [if_neg same,if_neg (Ne.symm same)]

def samplesOf (sampleAt : Int → Sample) (signed : Bool) (data : Str) (address : Int) (step : Nat) (limit : Int) :
    DiSoundStepType where
  up := sampleAt (char signed data (address + 5 + step * 3))
  run := sampleAt (char signed data (address + 5 + step * 3 + 1))
  down := sampleAt (char signed data (address + 5 + step * 3 + 2))
  limit := limit

/-- The steps once the lines up to step `last` are read. -/
def reachedStep (sampleAt : Int → Sample) (signed : Bool) (data : Str) (address stufen : Int) (last step : Nat) :
    DiSoundStepType :=
  if step ≤ last then
    samplesOf sampleAt signed data address step
      (if 1 ≤ step ∧ step < last then unsigned data (schwelleAddress address stufen step) else 255)
  else {}

def reachedSteps (sampleAt : Int → Sample) (signed : Bool) (data : Str) (address stufen : Int) (last : Nat) :
    List DiSoundStepType :=
  (List.range DiSoundType.maxSteps).map (reachedStep sampleAt signed data address stufen last)

/-- The lines of a step find their samples and their place. -/
def StepFits (signed : Bool) (data : Str) (There : Int → Prop) (nsteps address : Int) (step : Nat) : Prop :=
  StepPresent signed data There address step ∧ (step : Int) < nsteps ∧ step < DiSoundType.maxSteps

variable (sampleAt : Int → Sample) {There : Int → Prop}

theorem reached_next (address stufen : Int) (last : Nat) (above : 1 ≤ last) :
    ((reachedSteps sampleAt signed data address stufen last).modify last (fun it =>
        { it with limit := unsigned data (schwelleAddress address stufen last) })).modify (last + 1)
          (fun it => samplesOf sampleAt signed data address (last + 1) it.limit) =
      reachedSteps sampleAt signed data address stufen (last + 1) := by
  unfold reachedSteps
  rw [modify_map_range,modify_map_range]
  refine List.map_congr_left fun step _ => ?_
  by_cases new : step = last + 1
  · subst new
    rw [if_pos rfl,if_neg (by omega),reachedStep,if_neg (by omega),reachedStep,if_pos (by omega),if_neg (by omega)]
  · rw [if_neg new]
    by_cases threshold : step = last
    · subst threshold
      rw [if_pos rfl,reachedStep,if_pos (by omega),if_neg (by omega),reachedStep,if_pos (by omega),if_pos (by omega)]
      rfl
    · rw [if_neg threshold,reachedStep,reachedStep]
      by_cases earlier : step ≤ last
      · rw [if_pos earlier,if_pos (show step ≤ last + 1 by omega)]
        congr 1
        by_cases above : 1 ≤ step
        · rw [if_pos (show 1 ≤ step ∧ step < last by omega),if_pos (show 1 ≤ step ∧ step < last + 1 by omega)]
        · rw [if_neg fun both => above both.1,if_neg fun both => above both.1]
      · rw [if_neg earlier,if_neg (by omega)]

theorem loadable_iff (address : Int) :
    Loadable signed data There address ↔
      StepFits signed data There (char signed data address + 1) address 0 ∧
      StepFits signed data There (char signed data address + 1) address 1 ∧
      ∀ step, 1 < step → step ≤ 1 + (char signed data address - 1).toNat →
        StepFits signed data There (char signed data address + 1) address step := by
  have array : DiSoundType.maxSteps = 20 := rfl
  unfold Loadable StepFits
  constructor
  · rintro ⟨low,high,present⟩
    refine ⟨⟨present 0 (by omega),by omega,by omega⟩,⟨present 1 (by omega),by omega,by omega⟩,?_⟩
    intro step above last
    exact ⟨present step (by omega),by omega,by omega⟩
  · rintro ⟨zero,one,upper⟩
    have low : 1 ≤ char signed data address := by omega
    refine ⟨low,?_,?_⟩
    · by_cases more : char signed data address = 1
      · omega
      · have last := upper (char signed data address).toNat (by omega) (by omega)
        omega
    · intro step below
      match step with
      | 0 => exact zero.1
      | 1 => exact one.1
      | step + 2 => exact (upper (step + 2) (by omega) (by omega)).1

/-- What is read of a set that can be loaded is the set. -/
theorem reached_stored (positive : ∀ id, There id → 0 ≤ id) {address : Int}
    (loadable : Loadable signed data There address) :
    (reachedSteps sampleAt signed data address (char signed data address) (char signed data address).toNat).modify 0
        (fun it => { it with limit := 1 }) =
      (List.range DiSoundType.maxSteps).map (storedStep sampleAt data address (unsigned data address)) := by
  obtain ⟨low,high,present⟩ := loadable
  have stufen := char_nonneg (show 0 ≤ char signed data address by omega)
  unfold reachedSteps
  rw [modify_map_range]
  refine List.map_congr_left fun step _ => ?_
  unfold storedStep reachedStep
  rw [stufen] at low present ⊢
  by_cases inside : (step : Int) ≤ unsigned data address
  · have ids (part : Nat) (small : part < 3) :
        char signed data (address + 5 + step * 3 + part) = unsigned data (address + 5 + step * 3 + part) :=
      char_nonneg (positive _ (present step inside part small))
    have first := ids 0 (by decide)
    have second := ids 1 (by decide)
    have third := ids 2 (by decide)
    simp only [Nat.cast_zero,add_zero,Nat.cast_one,Nat.cast_ofNat] at first second third
    have reached : step ≤ (unsigned data address).toNat := by omega
    rw [if_pos reached,if_pos inside]
    by_cases bottom : step = 0
    · rw [if_pos bottom,if_pos bottom]
      simp only [samplesOf,first,second,third]
    · rw [if_neg bottom,if_neg bottom]
      by_cases threshold : (step : Int) < unsigned data address
      · rw [if_pos (show 1 ≤ step ∧ step < (unsigned data address).toNat by omega),if_pos threshold]
        simp only [samplesOf,first,second,third]
      · rw [if_neg (show ¬ (1 ≤ step ∧ step < (unsigned data address).toNat) by omega),if_neg threshold]
        simp only [samplesOf,first,second,third]
  · have beyond : ¬ step ≤ (unsigned data address).toNat := by omega
    rw [if_neg (show ¬ step = 0 by omega),if_neg beyond,if_neg inside]

theorem reached_start (address stufen : Int) :
    ((List.replicate DiSoundType.maxSteps ({} : DiSoundStepType)).modify 0
        (fun it => samplesOf sampleAt signed data address 0 it.limit)).modify 1
          (fun it => samplesOf sampleAt signed data address 1 it.limit) =
      reachedSteps sampleAt signed data address stufen 1 := by
  have fresh : List.replicate DiSoundType.maxSteps ({} : DiSoundStepType) =
      (List.range DiSoundType.maxSteps).map (fun _ => {}) := by
    rw [List.map_const',List.length_range]
  unfold reachedSteps
  rw [fresh,modify_map_range,modify_map_range]
  refine List.map_congr_left fun step _ => ?_
  match step with
  | 0 => rw [if_neg (by decide),if_pos rfl,reachedStep,if_pos (by decide),if_neg (by decide)]
  | 1 => rw [if_pos rfl,if_neg (by decide),reachedStep,if_pos (by decide),if_neg (by decide)]
  | step + 2 => rw [if_neg (by omega),if_neg (by omega),reachedStep,if_neg (by omega)]

/-! ### DiSets -/

section diSet

/-- A line with a sample: there has to be one, and its step has to be one of the set and of the array. -/
theorem parse_sample (soundFiles : DiSoundType) (step part : Nat) (small : part < 3) (bound : step < 2 ^ 16) (id : Int) :
    parseDiValue lib baseFolder zspData soundFiles (str "SAMPLE",decimal (step * 3 + part) ++ 44 :: decimal id) = (do
      let sample ← getSample lib baseFolder zspData (decimal id)
      if (step : Int) < soundFiles.nsteps then soundFiles.modifyStep step (DiSoundStepType.assign part sample)
      else .error .assertion) := by
  obtain ⟨front,back⟩ := split_decimal (step * 3 + part) (decimal id)
  have comma : 44 ∈ decimal (step * 3 + part) ++ 44 :: decimal id := by simp
  have index : atoi (decimal (step * 3 + part)) = step * 3 + part := atoi_number (by unfold Fits32; omega)
  have fahrstufe : sampleFahrstufe (decimal (step * 3 + part) ++ 44 :: decimal id) = step := by
    rw [sampleFahrstufe,front,index,Int.tdiv_eq_ediv_of_nonneg (by omega)]
    omega
  have rest : (atoi ((decimal (step * 3 + part) ++ 44 :: decimal id).takeWhile (· ≠ 44))).tmod 3 = part := by
    rw [front,index,Int.tmod_eq_emod_of_nonneg (by omega)]
    omega
  have number : sampleNumber (decimal (step * 3 + part) ++ 44 :: decimal id) = decimal id := by
    rw [sampleNumber,back]
    rfl
  rw [parseDiValue,if_pos rfl]
  cases got : getSample lib baseFolder zspData (decimal id) with
  | ok sample =>
    rw [parseSample_ok comma (by rw [number]; exact got),fahrstufe,rest]
    rfl
  | error e =>
    rw [parseSample_error comma (by rw [number]; exact got)]
    rfl

variable {lib baseFolder zspData} {There : Int → Prop} {sampleAt : Int → Sample}
  (gets : ∀ id, There id → getSample lib baseFolder zspData (decimal id) = .ok (sampleAt id))
  (lacks : ∀ id, ¬ There id → ∃ e, getSample lib baseFolder zspData (decimal id) = .error e)

include gets in
theorem parse_sample_ok {soundFiles : DiSoundType} {step part : Nat} (small : part < 3) {id : Int}
    (there : There id) (below : (step : Int) < soundFiles.nsteps)
    (inside : step < DiSoundType.maxSteps) :
    parseDiValue lib baseFolder zspData soundFiles (str "SAMPLE",decimal (step * 3 + part) ++ 44 :: decimal id) =
      .ok { soundFiles with
        steps := soundFiles.steps.modify step (DiSoundStepType.assign part (sampleAt id)) } := by
  have bound : step < 20 := inside
  rw [parse_sample lib baseFolder zspData soundFiles step part small (by omega) id,gets id there]
  change (if _ then _ else _) = _
  rw [if_pos below,DiSoundType.modifyStep,if_pos ⟨Int.natCast_nonneg step,by exact_mod_cast inside⟩,Int.toNat_natCast]

include lacks in
theorem parse_sample_inv {soundFiles next : DiSoundType} {step part : Nat} (small : part < 3) (bound : step < 2 ^ 16)
    {id : Int}
    (done : parseDiValue lib baseFolder zspData soundFiles
      (str "SAMPLE",decimal (step * 3 + part) ++ 44 :: decimal id) = .ok next) :
    There id ∧ (step : Int) < soundFiles.nsteps ∧ step < DiSoundType.maxSteps ∧
      next.nsteps = soundFiles.nsteps := by
  rw [parse_sample lib baseFolder zspData soundFiles step part small bound id] at done
  obtain ⟨sample,got,done⟩ := Exec.ok_of_bind done
  have there : There id := by
    by_contra missing
    obtain ⟨e,failed⟩ := lacks id missing
    rw [failed] at got
    cases got
  split at done
  · rename_i below
    rcases modifyStep_cases step (DiSoundStepType.assign part sample) soundFiles with
      ⟨-,failed⟩ | ⟨inside,other,set,same⟩
    · rw [failed] at done
      cases done
    · rw [set] at done
      cases done
      exact ⟨there,below,by exact_mod_cast inside.2,same⟩
  · cases done

include gets lacks

/-- The lines of a step set its samples, or do not come to an end. -/
theorem parse_stepSamples (soundFiles : DiSoundType) (address : Int) (step : Nat) (bound : step < 2 ^ 16) :
    (StepFits signed data There soundFiles.nsteps address step →
      ((stepSamples signed data address step).map Line.values).foldlM
          (parseDiValue lib baseFolder zspData) soundFiles =
        .ok { soundFiles with
          steps := soundFiles.steps.modify step (fun it => samplesOf sampleAt signed data address step it.limit) }) ∧
    (¬ StepFits signed data There soundFiles.nsteps address step →
      ∃ e, ((stepSamples signed data address step).map Line.values).foldlM
        (parseDiValue lib baseFolder zspData) soundFiles = .error e) := by
  have lines : (stepSamples signed data address step).map Line.values =
      [(str "SAMPLE",decimal (step * 3 + (0 : Nat)) ++ 44 :: decimal (char signed data (address + 5 + step * 3 + (0 : Nat)))),
        (str "SAMPLE",decimal (step * 3 + (1 : Nat)) ++ 44 :: decimal (char signed data (address + 5 + step * 3 + (1 : Nat)))),
        (str "SAMPLE",decimal (step * 3 + (2 : Nat)) ++ 44 :: decimal (char signed data (address + 5 + step * 3 + (2 : Nat))))] :=
    rfl
  rw [lines]
  constructor
  · rintro ⟨present,below,inside⟩
    have first := present 0 (by decide)
    have second := present 1 (by decide)
    have third := present 2 (by decide)
    rw [List.foldlM_cons,parse_sample_ok gets (show 0 < 3 by decide) first (by exact below) inside]
    change List.foldlM _ _ _ = _
    rw [List.foldlM_cons,parse_sample_ok gets (show 1 < 3 by decide) second (by exact below) inside]
    change List.foldlM _ _ _ = _
    rw [List.foldlM_cons,parse_sample_ok gets (show 2 < 3 by decide) third (by exact below) inside]
    change Except.ok ({ soundFiles with steps := ((soundFiles.steps.modify step _).modify step _).modify step _ } :
      DiSoundType) = _
    rw [List.modify_modify_eq,List.modify_modify_eq]
    congr 3
    funext it
    simp [DiSoundStepType.assign,samplesOf]
  · intro missing
    cases done : List.foldlM (parseDiValue lib baseFolder zspData) soundFiles _ with
    | error e => exact ⟨e,rfl⟩
    | ok last =>
      exfalso
      rw [List.foldlM_cons] at done
      obtain ⟨a,first,done⟩ := Exec.ok_of_bind done
      rw [List.foldlM_cons] at done
      obtain ⟨b,second,done⟩ := Exec.ok_of_bind done
      rw [List.foldlM_cons] at done
      obtain ⟨c,third,done⟩ := Exec.ok_of_bind done
      obtain ⟨p0,below,inside,-⟩ := parse_sample_inv lacks (by decide) bound first
      obtain ⟨p1,-⟩ := parse_sample_inv lacks (by decide) bound second
      obtain ⟨p2,-⟩ := parse_sample_inv lacks (by decide) bound third
      refine missing ⟨?_,below,inside⟩
      intro part small
      match part,small with
      | 0,_ => exact p0
      | 1,_ => exact p1
      | 2,_ => exact p2

/-- The lines of a step above the first set the threshold below it and its samples, or do not come to an end. -/
theorem parse_stepLines (soundFiles : DiSoundType) (address stufen : Int) (s : Nat) (bound : s < 2 ^ 15)
    (fits : Fits32 (soundFiles.nsteps + 1)) :
    (StepFits signed data There soundFiles.nsteps address (s + 1) →
      ((stepLines signed data address stufen s).map Line.values).foldlM
          (parseDiValue lib baseFolder zspData) soundFiles =
        .ok { soundFiles with
          steps := (soundFiles.steps.modify s (fun it =>
            { it with limit := unsigned data (schwelleAddress address stufen s) })).modify (s + 1)
              (fun it => samplesOf sampleAt signed data address (s + 1) it.limit) }) ∧
    (¬ StepFits signed data There soundFiles.nsteps address (s + 1) →
      ∃ e, ((stepLines signed data address stufen s).map Line.values).foldlM
        (parseDiValue lib baseFolder zspData) soundFiles = .error e) := by
  have lines : (stepLines signed data address stufen s).map Line.values =
      (str "SCHWELLE",decimal s ++ 44 :: decimal (unsigned data (schwelleAddress address stufen s)) ++ str ",64") ::
        (stepSamples signed data address (s + 1)).map Line.values := rfl
  have more : add32 soundFiles.nsteps 1 = soundFiles.nsteps + 1 := signed32_pattern32 _ fits
  rw [lines,List.foldlM_cons,parse_schwelle lib baseFolder zspData soundFiles s (by omega) (unsigned_fits data _),more]
  constructor
  · rintro ⟨present,below,inside⟩
    have inside' : s + 1 < 20 := inside
    rw [if_pos (by omega),DiSoundType.modifyStep,if_pos ⟨Int.natCast_nonneg s,by simp only [DiSoundType.maxSteps]; omega⟩,
      Int.toNat_natCast]
    exact (parse_stepSamples gets lacks _ address (s + 1) (by omega)).1 ⟨present,below,inside⟩
  · intro missing
    have samples (next : DiSoundType) (same : next.nsteps = soundFiles.nsteps) :=
      (parse_stepSamples gets lacks next address (s + 1) (by omega)).2 (by
        rintro ⟨present,below,inside⟩
        rw [same] at below
        exact missing ⟨present,below,inside⟩)
    split
    · rcases modifyStep_cases s (fun it => { it with limit := unsigned data (schwelleAddress address stufen s) })
        soundFiles with ⟨-,failed⟩ | ⟨-,next,set,same⟩
      · rw [failed]
        exact ⟨_,rfl⟩
      · rw [set]
        exact samples next same
    · exact samples soundFiles rfl

/-- The lines of the steps above `first`. -/
theorem parse_upperSteps (address stufen : Int) (steps first : Nat) (above : 1 ≤ first) (bound : first + steps < 2 ^ 15)
    (soundFiles : DiSoundType) (fits : Fits32 (soundFiles.nsteps + 1)) :
    ((∀ step, first < step → step ≤ first + steps → StepFits signed data There soundFiles.nsteps address step) →
      soundFiles.steps = reachedSteps sampleAt signed data address stufen first →
      (((List.range' first steps).flatMap (stepLines signed data address stufen)).map Line.values).foldlM
          (parseDiValue lib baseFolder zspData) soundFiles =
        .ok { soundFiles with steps := reachedSteps sampleAt signed data address stufen (first + steps) }) ∧
    (¬ (∀ step, first < step → step ≤ first + steps → StepFits signed data There soundFiles.nsteps address step) →
      ∃ e, (((List.range' first steps).flatMap (stepLines signed data address stufen)).map Line.values).foldlM
        (parseDiValue lib baseFolder zspData) soundFiles = .error e) := by
  induction steps generalizing first soundFiles with
  | zero =>
    refine ⟨fun _ reached => ?_,fun missing => absurd (fun step low high => absurd low (by omega)) missing⟩
    rw [Nat.add_zero,← reached]
    rfl
  | succ steps ih =>
    obtain ⟨goes,stops⟩ := parse_stepLines gets lacks soundFiles address stufen first (by omega) fits
    rw [List.range'_succ,List.flatMap_cons,List.map_append,List.foldlM_append]
    by_cases here : StepFits signed data There soundFiles.nsteps address (first + 1)
    · rw [goes here]
      have later := ih (first + 1) (by omega) (by omega) { soundFiles with
        steps := (soundFiles.steps.modify first (fun it =>
          { it with limit := unsigned data (schwelleAddress address stufen first) })).modify (first + 1)
            (fun it => samplesOf sampleAt signed data address (first + 1) it.limit) } fits
      have same : first + 1 + steps = first + (steps + 1) := by omega
      rw [same] at later
      constructor
      · intro all reached
        refine later.1 (fun step low high => all step (by omega) high) ?_
        rw [reached]
        exact reached_next sampleAt address stufen first above
      · intro missing
        refine later.2 fun all => missing fun step low high => ?_
        by_cases next : step = first + 1
        · exact next ▸ here
        · exact all step (by omega) high
    · obtain ⟨e,failed⟩ := stops here
      rw [failed]
      exact ⟨fun all => absurd (all (first + 1) (by omega) (by omega)) here,fun _ => ⟨e,rfl⟩⟩

/-- The lines of all steps. -/
theorem parse_steps (lok stufen address : Int) (low : -128 ≤ stufen) (high : stufen < 256) :
    (StepFits signed data There (stufen + 1) address 0 ∧ StepFits signed data There (stufen + 1) address 1 ∧
        (∀ step, 1 < step → step ≤ 1 + (stufen - 1).toNat → StepFits signed data There (stufen + 1) address step) →
      ((stepSamples signed data address 0).map Line.values ++ ((stepSamples signed data address 1).map Line.values ++
          ((List.range' 1 (stufen - 1).toNat).flatMap (stepLines signed data address stufen)).map Line.values)).foldlM
          (parseDiValue lib baseFolder zspData) ⟨lok,stufen + 1,List.replicate DiSoundType.maxSteps {}⟩ =
        .ok ⟨lok,stufen + 1,reachedSteps sampleAt signed data address stufen (1 + (stufen - 1).toNat)⟩) ∧
    (¬ (StepFits signed data There (stufen + 1) address 0 ∧ StepFits signed data There (stufen + 1) address 1 ∧
        ∀ step, 1 < step → step ≤ 1 + (stufen - 1).toNat → StepFits signed data There (stufen + 1) address step) →
      ∃ e, ((stepSamples signed data address 0).map Line.values ++ ((stepSamples signed data address 1).map Line.values ++
          ((List.range' 1 (stufen - 1).toNat).flatMap (stepLines signed data address stufen)).map Line.values)).foldlM
          (parseDiValue lib baseFolder zspData) ⟨lok,stufen + 1,List.replicate DiSoundType.maxSteps {}⟩ =
        .error e) := by
  obtain ⟨goes0,stops0⟩ := parse_stepSamples gets lacks
    ⟨lok,stufen + 1,List.replicate DiSoundType.maxSteps {}⟩ address 0 (by decide)
  by_cases fits0 : StepFits signed data There (stufen + 1) address 0
  · rw [foldlM_ok (goes0 fits0)]
    obtain ⟨goes1,stops1⟩ := parse_stepSamples gets lacks ⟨lok,stufen + 1,_⟩ address 1 (by decide)
    by_cases fits1 : StepFits signed data There (stufen + 1) address 1
    · rw [foldlM_ok (goes1 fits1)]
      have fits : Fits32 (stufen + 1 + 1) := by
        unfold Fits32
        omega
      obtain ⟨goes,stops⟩ := parse_upperSteps gets lacks address stufen (stufen - 1).toNat 1
        (by decide) (by omega) ⟨lok,stufen + 1,_⟩ fits
      refine ⟨fun all => goes all.2.2 (reached_start sampleAt address stufen),fun missing => ?_⟩
      exact stops fun upper => missing ⟨fits0,fits1,upper⟩
    · obtain ⟨e,failed⟩ := stops1 fits1
      rw [foldlM_error failed]
      exact ⟨fun all => absurd all.2.1 fits1,fun _ => ⟨e,rfl⟩⟩
  · obtain ⟨e,failed⟩ := stops0 fits0
    rw [foldlM_error failed]
    exact ⟨fun all => absurd all.1 fits0,fun _ => ⟨e,rfl⟩⟩

/-- The loop over the section. -/
theorem parse_values (lok : Int) (i : Nat) :
    (Loadable signed data There (diSetAddress signed data i) →
      (diSetSection signed data i).values.foldlM (parseDiValue lib baseFolder zspData)
          ⟨lok,char signed data (diSetAddress signed data i) + 1,List.replicate DiSoundType.maxSteps {}⟩ =
        .ok ⟨lok,char signed data (diSetAddress signed data i) + 1,
          reachedSteps sampleAt signed data (diSetAddress signed data i)
            (char signed data (diSetAddress signed data i)) (char signed data (diSetAddress signed data i)).toNat⟩) ∧
    (¬ Loadable signed data There (diSetAddress signed data i) →
      ∃ e, (diSetSection signed data i).values.foldlM (parseDiValue lib baseFolder zspData)
          ⟨lok,char signed data (diSetAddress signed data i) + 1,List.replicate DiSoundType.maxSteps {}⟩ = .error e) := by
  have range := char_range signed data (diSetAddress signed data i)
  obtain ⟨goes,stops⟩ := parse_steps gets lacks lok _ (diSetAddress signed data i) range.1 range.2
  have skipped (a b c d : Str) : ∀ it ∈ [(str "NUMMER",a),(str "NAME",b),(str "STUFEN",c),(str "TYP",d)],
      it.1 ≠ str "SAMPLE" ∧ it.1 ≠ str "SCHWELLE" := by
    simp only [List.forall_mem_cons]
    exact ⟨by decide,by decide,by decide,by decide,fun it member => nomatch member⟩
  have rest (a b : Str) : ∀ it ∈ [(str "PANTOAUS",a),(str "HG_SCHALTWERK",b)],
      it.1 ≠ str "SAMPLE" ∧ it.1 ≠ str "SCHWELLE" := by
    simp only [List.forall_mem_cons]
    exact ⟨by decide,by decide,fun it member => nomatch member⟩
  rw [diSet_values,foldlM_ok (parse_others lib baseFolder zspData (skipped _ _ _ _) _),← List.append_assoc,← List.append_assoc,
    List.append_assoc (List.map _ _)]
  constructor
  · intro loadable
    have same : 1 + (char signed data (diSetAddress signed data i) - 1).toNat =
        (char signed data (diSetAddress signed data i)).toNat := by
      have := loadable.1
      omega
    rw [foldlM_ok (goes ((loadable_iff _).mp loadable)),parse_others lib baseFolder zspData (rest _ _),same]
  · intro missing
    obtain ⟨e,failed⟩ := stops (mt (loadable_iff _).mpr missing)
    rw [foldlM_error failed]
    exact ⟨e,rfl⟩

/-- A set is loaded as it is stored at the address, or not at all. -/
theorem parse_diSet (positive : ∀ id, There id → 0 ≤ id) {i : Nat} (bound : i < 32) :
    (Loadable signed data There (diSetAddress signed data i) →
      parseDiSet lib baseFolder zspData (diSetSection signed data i).values =
        .ok (storedDiSet sampleAt data i (diSetAddress signed data i))) ∧
    (¬ Loadable signed data There (diSetAddress signed data i) →
      ∃ e, parseDiSet lib baseFolder zspData (diSetSection signed data i).values = .error e) := by
  have range := char_range signed data (diSetAddress signed data i)
  have number : stoi ((diSetSection signed data i).values.get (str "NUMMER")) = .ok (i : Int) :=
    stoi_decimal (small_fits (by omega))
  have stufen : stoi ((diSetSection signed data i).values.get (str "STUFEN")) =
      .ok (char signed data (diSetAddress signed data i)) := stoi_decimal (char_fits signed data _)
  have more : add32 (char signed data (diSetAddress signed data i)) 1 = char signed data (diSetAddress signed data i) + 1 :=
    signed32_pattern32 _ (by unfold Fits32; omega)
  obtain ⟨goes,stops⟩ := parse_values gets lacks i i
  have loop : parseDiSet lib baseFolder zspData (diSetSection signed data i).values =
      (do
        let soundFiles ← (diSetSection signed data i).values.foldlM (parseDiValue lib baseFolder zspData)
          { lok := i,nsteps := char signed data (diSetAddress signed data i) + 1 }
        soundFiles.modifyStep 0 (fun step => { step with limit := 1 })) := by
    rw [parseDiSet,number,stufen,← more]
    rfl
  rw [loop]
  constructor
  · intro loadable
    rw [goes loadable]
    change DiSoundType.modifyStep 0 _ _ = _
    rw [DiSoundType.modifyStep,if_pos (by decide),storedDiSet,← reached_stored sampleAt positive loadable,
      ← char_nonneg (show 0 ≤ char signed data (diSetAddress signed data i) from le_trans (by decide) loadable.1)]
    rfl
  · intro missing
    obtain ⟨e,failed⟩ := stops missing
    rw [failed]
    exact ⟨e,rfl⟩

end diSet

end Btcontrol.Zpp
