import Btcontrol.ZppDiSets
import Btcontrol.ZppSections

/-! A ZPP image through `zpp2zsp` and `loadZSP`: which sets come back. -/
namespace Btcontrol.Zpp

open Bytes Zsp

variable {signed : Bool} {lib : Library} {to_utf : Str → Str} {data : Str} (baseFolder : Str)

/-! ### The names of the sets -/

theorem unknown_injective {i j : Nat} (same : unknown i = unknown j) : i = j := by
  have numbers := decimal_injective (List.append_cancel_left same)
  omega

theorem unknown_unquoted (i : Nat) : ∀ c ∈ unknown i, c ≠ 34 ∧ c ≠ 8 := by
  intro c member
  rcases List.mem_append.mp member with front | number
  · have clean : CleanName (str "unknown-") := clean_of rfl
    exact ⟨(clean c front).2.2.2,(clean c front).2.1⟩
  · rcases decimal_bytes i c number with rfl | ⟨low,high⟩
    · decide
    · constructor <;> rintro rfl <;> exact absurd low (by decide)

/-- A missing value starts with an underscore. -/
theorem ne_notSet {s : Str} (other : s.head? ≠ some 95) : s ≠ NOT_SET := by
  rintro rfl
  exact other rfl

theorem diSet_name (i : Nat) : getName lib (diSetSection signed data i).values = .ok (unknown i) := by
  have name : (diSetSection signed data i).values.get (str "NAME") = quoted (unknown i) := rfl
  have set : quoted (unknown i) ≠ NOT_SET := ne_notSet fun head => absurd (Option.some.inj head) (by decide)
  rw [getName,name,if_neg set]
  exact unquoteFrom_quoted lib (by decide) (unknown_unquoted i)

/-- The name of a DSet is not closed. -/
theorem dSet_name (trims : Trims lib.trim) {i : Nat} (bound : i < 32) {it : Section}
    (made : dSetSection signed data i = .ok it) : getName lib it.values = .error lib.unterminated := by
  have set : 34 :: unknown i ≠ NOT_SET := ne_notSet fun head => absurd (Option.some.inj head) (by decide)
  rw [getName,(dSetSection_spec signed data trims bound made).2.2,if_neg set]
  exact unquoteFrom_open lib (unknown_unquoted i)

theorem findSet_diSets (numbers : List Nat) (i : Nat) :
    findSet lib (unknown i) ((numbers.map (diSetSection signed data)).map Section.values) =
      .ok (if i ∈ numbers then some (diSetSection signed data i).values else none) := by
  induction numbers with
  | nil => rfl
  | cons k rest ih =>
    rw [List.map_cons,List.map_cons,findSet,diSet_name]
    by_cases same : k = i
    · subst same
      rw [if_pos List.mem_cons_self]
      exact if_pos rfl
    · have other : unknown k ≠ unknown i := fun equal => same (unknown_injective equal)
      have member : i ∈ k :: rest ↔ i ∈ rest := by
        rw [List.mem_cons,or_iff_right (Ne.symm same)]
      rw [if_congr member rfl rfl,← ih]
      exact if_neg other

/-- The entries before the first that fails. -/
theorem mem_takeWhile_range (p : Nat → Bool) (n i : Nat) :
    i ∈ (List.range n).takeWhile p ↔ i < n ∧ ∀ k ≤ i, p k = true := by
  induction n generalizing p i with
  | zero => simp
  | succ n ih =>
    rw [List.range_succ_eq_map,List.takeWhile_cons]
    by_cases first : p 0 = true
    · rw [if_pos first,List.takeWhile_map,List.mem_cons,List.mem_map]
      constructor
      · rintro (rfl | ⟨j,inside,rfl⟩)
        · exact ⟨Nat.succ_pos n,fun k low => by rw [Nat.le_zero.mp low]; exact first⟩
        · obtain ⟨below,all⟩ := (ih _ j).mp inside
          refine ⟨Nat.succ_lt_succ below,fun k low => ?_⟩
          cases k with
          | zero => exact first
          | succ k => exact all k (Nat.le_of_succ_le_succ low)
      · rintro ⟨below,all⟩
        cases i with
        | zero => exact .inl rfl
        | succ i =>
          exact .inr ⟨i,(ih _ i).mpr ⟨Nat.lt_of_succ_lt_succ below,fun k low => all (k + 1) (Nat.succ_le_succ low)⟩,rfl⟩
    · rw [if_neg first]
      constructor
      · exact fun member => nomatch member
      · rintro ⟨-,all⟩
        exact absurd (all 0 (Nat.zero_le i)) first

theorem mem_diSetNumbers (i : Nat) : i ∈ diSetNumbers signed data ↔ Listed (diPointer data) i := by
  have zero (k : Nat) : diSetAddress signed data k ≠ 0 ↔ diPointer data k ≠ 0 := not_congr (pointer_zero signed data _)
  rw [diSetNumbers,mem_takeWhile_range,Listed]
  simp only [decide_eq_true_eq,zero]

/-- All DSets are taken from the first pointer. -/
theorem mem_dSetNumbers (i : Nat) : i ∈ dSetNumbers signed data ↔ i < 32 ∧ dPointer data 0 ≠ 0 := by
  have zero (k : Nat) : dSetAddress signed data k ≠ 0 ↔ dPointer data 0 ≠ 0 := not_congr (pointer_zero signed data _)
  rw [dSetNumbers,mem_takeWhile_range]
  simp only [decide_eq_true_eq,zero]
  exact and_congr_right fun _ => ⟨fun all => all 0 (Nat.zero_le i),fun holds _ _ => holds⟩

/-! ### The function sounds -/

def ablPairs (signed : Bool) (data : Str) : List (Nat × Nat) :=
  ablNumbers.flatMap (fun i => (ablEntries signed data i).map (fun j => (i,j)))

theorem ablSections_pairs :
    ablSections signed data = (ablPairs signed data).map (fun it => ablSection signed data it.1 it.2) := by
  rw [ablSections,ablPairs,List.map_flatMap]
  simp only [List.map_map,Function.comp_def]

theorem mem_ablPairs (i j : Nat) : (i,j) ∈ ablPairs signed data ↔ i < 64 ∧ j ∈ ablEntries signed data i := by
  simp only [ablPairs,ablNumbers,List.mem_flatMap,List.mem_range,List.mem_map,Prod.mk.injEq]
  constructor
  · rintro ⟨i,below,j,inside,rfl,rfl⟩
    exact ⟨below,inside⟩
  · rintro ⟨below,inside⟩
    exact ⟨i,below,j,inside,rfl,rfl⟩

theorem ablPairs_bound : ∀ it ∈ ablPairs signed data, it.1 < 64 ∧ it.2 < CFG_FUNC_SOUND_N := by
  rintro ⟨i,j⟩ member
  obtain ⟨small,entry⟩ := (mem_ablPairs i j).mp member
  exact ⟨small,ablEntries_bound entry⟩

def ablLok (i : Nat) : Nat := if 32 ≤ i then i - 32 else i

theorem abl_present {There : Int → Prop} {i : Nat} (bound : i < 32) :
    (∀ it ∈ ablPairs signed data, (ablLok it.1 : Int) = i → There (ablId signed data it.1 it.2)) ↔
      AblPresent signed data There i := by
  unfold AblPresent
  simp only [List.forall_mem_cons]
  constructor
  · intro all
    have own (table : Nat) (small : table < 64) (same : ablLok table = i) :
        ∀ j ∈ ablEntries signed data table, There (ablId signed data table j) := by
      intro j entry
      exact all (table,j) ((mem_ablPairs table j).mpr ⟨small,entry⟩) (congrArg Nat.cast same)
    refine ⟨own i (by omega) (if_neg (by omega)),own (i + 32) (by omega) ?_,fun table member => nomatch member⟩
    rw [ablLok,if_pos (by omega)]
    omega
  · rintro ⟨low,high,-⟩ ⟨table,j⟩ member same
    obtain ⟨small,entry⟩ := (mem_ablPairs table j).mp member
    have same : ablLok table = i := by exact_mod_cast same
    unfold ablLok at same
    split at same
    · have which : table = i + 32 := by omega
      subst which
      exact high j entry
    · subst same
      exact low j entry

/-! ### The whole file -/

theorem generatedFile_set : generatedFile baseFolder ≠ NOT_SET := by
  intro same
  have slash : (47 : UInt8) ∈ generatedFile baseFolder := List.mem_append_right _ (by decide)
  rw [same] at slash
  exact absurd slash (by decide)

theorem unknown_set (i : Nat) : unknown i ≠ NOT_SET :=
  ne_notSet fun head => absurd (Option.some.inj head) (by decide)

theorem directory_generatedFile : directory (generatedFile baseFolder) = baseFolder := by
  have slash : (47 : UInt8) ∈ generatedFile baseFolder := List.mem_append_right _ (by decide)
  have behind : (str "/generated.zsp").reverse = (str "generated.zsp").reverse ++ [47] := rfl
  have plain : ∀ c ∈ (str "generated.zsp").reverse, decide (c ≠ 47) = true := List.all_eq_true.mp rfl
  rw [directory,if_pos slash,generatedFile,List.reverse_append,behind,List.append_assoc,List.dropWhile_append_of_pos plain,
    List.singleton_append,List.dropWhile_cons_of_neg (by simp),List.drop_succ_cons,List.drop_zero,List.reverse_reverse]

def configured (baseFolder name : Str) : Str → Str :=
  fun key => if key = str "soundset" then generatedFile baseFolder else if key = str "sound.name" then name else NOT_SET

theorem configured_name (name : Str) : configured baseFolder name (str "sound.name") = name := by
  rw [configured,if_neg (by decide),if_pos rfl]

/-- A sound of another loco is skipped; one of this loco has to have a sample. -/
theorem parse_abl (signed : Bool) (lib : Library) (data : Str) (zspData : ZSPDataType) (cfg_soundFiles : SoundType)
    {i j : Nat} (table : i < 64) (entry : j < CFG_FUNC_SOUND_N) :
    parseAbl lib baseFolder zspData cfg_soundFiles (ablSection signed data i j).values =
      if (ablLok i : Int) = cfg_soundFiles.set.lok then
        (getSample lib baseFolder zspData (decimal (ablId signed data i j))).map (fun sample =>
          { cfg_soundFiles with
            funcSound := cfg_soundFiles.funcSound.set j sample
            funcSoundVolume := cfg_soundFiles.funcSoundVolume.set j
              (some (unsigned data (ablOffset signed data i + 0x7b + j * 2 + 1))) })
      else .ok cfg_soundFiles := by
  have lok : stoi ((ablSection signed data i j).values.get (str "LOK")) = .ok (i : Int) :=
    stoi_decimal (small_fits (by omega))
  have nummer : stoi ((ablSection signed data i j).values.get (str "NUMMER")) = .ok (j : Int) :=
    stoi_decimal (small_fits (entry.trans (by decide)))
  have sample : (ablSection signed data i j).values.get (str "SAMPLE") = decimal (ablId signed data i j) := rfl
  have volume : stoi ((ablSection signed data i j).values.get (str "LAUTST")) =
      .ok (unsigned data (ablOffset signed data i + 0x7b + j * 2 + 1)) := stoi_decimal (unsigned_fits data _)
  have number : (if (i : Int) ≥ 32 then (i : Int) - 32 else i) = ablLok i := by
    unfold ablLok
    split <;> split <;> omega
  have inside : ¬ ((j : Int) < 0 ∨ (j : Int) ≥ CFG_FUNC_SOUND_N) := by omega
  rw [parseAbl,lok]
  change (if (if (i : Int) ≥ 32 then (i : Int) - 32 else i) = cfg_soundFiles.set.lok then _ else _) = _
  rw [number]
  refine if_congr Iff.rfl ?_ rfl
  rw [nummer,sample,volume]
  change (if (j : Int) < 0 ∨ (j : Int) ≥ CFG_FUNC_SOUND_N then _ else _) = _
  rw [if_neg inside]
  cases getSample lib baseFolder zspData (decimal (ablId signed data i j)) with
  | error e => rfl
  | ok sample => rfl

section loaded

variable {sections dSets : List Section} (converted : Converted signed to_utf data sections dSets)
  (trims : Trims lib.trim)
include converted trims

/-! ### Which set is selected -/

/-- A DiSet is looked for first. -/
theorem select_diSet {i : Nat} (listed : Listed (diPointer data) i) :
    selectSet lib baseFolder (inserted lib sections []) (unknown i) =
      (parseDiSet lib baseFolder (inserted lib sections []) (diSetSection signed data i).values).map SoundSet.di := by
  rw [selectSet,(converted_tables trims converted).2.2.1,diSetSections,findSet_diSets,
    if_pos ((mem_diSetNumbers i).mpr listed)]
  change (parseDiSet lib baseFolder (inserted lib sections []) (diSetSection signed data i).values >>= _) = _
  cases parseDiSet lib baseFolder (inserted lib sections []) (diSetSection signed data i).values with
  | error e => rfl
  | ok soundFiles => rfl

/-- The first DSet cannot be looked at. -/
theorem find_dSet (used : dPointer data 0 ≠ 0) (name : Str) :
    findSet lib name (dSets.map Section.values) = .error lib.unterminated := by
  have first : 0 ∈ dSetNumbers signed data := (mem_dSetNumbers 0).mpr ⟨by decide,used⟩
  obtain ⟨k,rest,shape⟩ := List.exists_cons_of_ne_nil (List.ne_nil_of_mem first)
  have bound : k < 32 := ((mem_dSetNumbers k).mp (by rw [shape]; exact List.mem_cons_self)).1
  have made := converted.made
  rw [shape] at made
  obtain ⟨it,others,here,-,rfl⟩ := mapM_cons_ok made
  rw [List.map_cons,findSet,dSet_name trims bound here]
  rfl

theorem select_dSet (used : dPointer data 0 ≠ 0) (i : Nat) (soundFiles : SteamSoundType) :
    selectSet lib baseFolder (inserted lib sections []) (unknown i) ≠ .ok (.steam soundFiles) := by
  by_cases listed : Listed (diPointer data) i
  · rw [select_diSet baseFolder converted trims listed]
    cases parseDiSet lib baseFolder (inserted lib sections []) (diSetSection signed data i).values with
    | error e => exact fun same => nomatch same
    | ok diSet => exact fun same => nomatch same
  · have missing : findSet lib (unknown i) ((diSetSections signed data).map Section.values) = .ok none := by
      rw [diSetSections,findSet_diSets,if_neg (mt (mem_diSetNumbers i).mp listed)]
    rw [selectSet,(converted_tables trims converted).2.2.1,missing,(converted_tables trims converted).2.2.2]
    change (findSet lib (unknown i) (dSets.map Section.values) >>= _) ≠ _
    rw [find_dSet converted trims used]
    exact fun same => nomatch same

/-! ### Which sets come back -/

section names

variable (named : NamesRead lib to_utf data)
include named

/-- What the table has under the numbers of the image. -/
theorem getSample_found {id : Int} (found : Found lib to_utf baseFolder data id) :
    getSample lib baseFolder (inserted lib sections []) (decimal id) =
      .ok (sampleRead lib to_utf baseFolder data id) := by
  obtain ⟨sample,read⟩ := isOk_iff.mp found.2
  rw [getSample_decimal baseFolder trims converted named,if_pos found.1,sampleRead,read]
  rfl

theorem getSample_lacks {id : Int} (missing : ¬ Found lib to_utf baseFolder data id) :
    ∃ e, getSample lib baseFolder (inserted lib sections []) (decimal id) = .error e := by
  rw [getSample_decimal baseFolder trims converted named]
  split
  next present =>
    cases read : readBack lib to_utf baseFolder data id with
    | error e => exact ⟨e,rfl⟩
    | ok sample => exact absurd ⟨present,by rw [read]; rfl⟩ missing
  next => exact ⟨_,rfl⟩

/-- The loop over the Abl sections leaves the set, or does not come to an end. -/
theorem parse_abls (pairs : List (Nat × Nat)) (bounds : ∀ it ∈ pairs, it.1 < 64 ∧ it.2 < CFG_FUNC_SOUND_N)
    (cfg_soundFiles : SoundType) :
    ((∀ it ∈ pairs, (ablLok it.1 : Int) = cfg_soundFiles.set.lok →
        Found lib to_utf baseFolder data (ablId signed data it.1 it.2)) →
      ∃ last, ((pairs.map (fun it => ablSection signed data it.1 it.2)).map Section.values).foldlM
          (parseAbl lib baseFolder (inserted lib sections [])) cfg_soundFiles = .ok last ∧
        last.set = cfg_soundFiles.set) ∧
    (¬ (∀ it ∈ pairs, (ablLok it.1 : Int) = cfg_soundFiles.set.lok →
        Found lib to_utf baseFolder data (ablId signed data it.1 it.2)) →
      ∃ e, ((pairs.map (fun it => ablSection signed data it.1 it.2)).map Section.values).foldlM
          (parseAbl lib baseFolder (inserted lib sections [])) cfg_soundFiles = .error e) := by
  induction pairs generalizing cfg_soundFiles with
  | nil => exact ⟨fun _ => ⟨cfg_soundFiles,rfl,rfl⟩,fun missing => absurd (fun it member => nomatch member) missing⟩
  | cons it rest ih =>
    obtain ⟨⟨table,entry⟩,later⟩ := List.forall_mem_cons.mp bounds
    have here := parse_abl baseFolder signed lib data (inserted lib sections []) cfg_soundFiles table entry
    rw [List.map_cons,List.map_cons,List.foldlM_cons,List.forall_mem_cons]
    by_cases own : (ablLok it.1 : Int) = cfg_soundFiles.set.lok
    · rw [if_pos own] at here
      by_cases found : Found lib to_utf baseFolder data (ablId signed data it.1 it.2)
      · obtain ⟨next,set,stays⟩ : ∃ next : SoundType, parseAbl lib baseFolder (inserted lib sections []) cfg_soundFiles
            (ablSection signed data it.1 it.2).values = .ok next ∧ next.set = cfg_soundFiles.set := by
          rw [here,getSample_found baseFolder converted trims named found]
          exact ⟨_,rfl,rfl⟩
        rw [set,and_iff_right fun _ => found,← stays]
        exact ih later next
      · obtain ⟨e,failed⟩ := getSample_lacks baseFolder converted trims named found
        rw [here,failed]
        exact ⟨fun all => absurd (all.1 own) found,fun _ => ⟨e,rfl⟩⟩
    · rw [here,if_neg own,and_iff_right fun same => absurd same own]
      exact ih later cfg_soundFiles

/-- A DiSet is loaded with its function sounds, or not at all. -/
theorem select_sounds {i : Nat} (listed : Listed (diPointer data) i) :
    (Loadable signed data (Found lib to_utf baseFolder data) (diSetAddress signed data i) ∧
        AblPresent signed data (Found lib to_utf baseFolder data) i →
      ∃ last, (do
        let set ← selectSet lib baseFolder (inserted lib sections []) (unknown i)
        ((ablSections signed data).map Section.values).foldlM (parseAbl lib baseFolder (inserted lib sections []))
          { set }) = .ok last ∧
        last.set = .di (storedDiSet (sampleRead lib to_utf baseFolder data) data i (diSetAddress signed data i))) ∧
    (¬ (Loadable signed data (Found lib to_utf baseFolder data) (diSetAddress signed data i) ∧
        AblPresent signed data (Found lib to_utf baseFolder data) i) →
      ∃ e, (do
        let set ← selectSet lib baseFolder (inserted lib sections []) (unknown i)
        ((ablSections signed data).map Section.values).foldlM (parseAbl lib baseFolder (inserted lib sections []))
          { set }) = .error e) := by
  obtain ⟨goes,stops⟩ := parse_diSet (fun id found => getSample_found baseFolder converted trims named found)
    (fun id missing => getSample_lacks baseFolder converted trims named missing)
    (fun id found => le_trans (by decide) found.1.1) listed.1
  rw [select_diSet baseFolder converted trims listed]
  by_cases loadable : Loadable signed data (Found lib to_utf baseFolder data) (diSetAddress signed data i)
  · obtain ⟨sounds,silent⟩ := parse_abls baseFolder converted trims named (ablPairs signed data) ablPairs_bound
      { set := .di (storedDiSet (sampleRead lib to_utf baseFolder data) data i (diSetAddress signed data i)) }
    rw [← ablSections_pairs] at sounds silent
    rw [goes loadable,Except.map]
    simp only [bind,Except.bind]
    by_cases present : AblPresent signed data (Found lib to_utf baseFolder data) i
    · exact ⟨fun _ => sounds ((abl_present listed.1).mpr present),fun missing => absurd ⟨loadable,present⟩ missing⟩
    · exact ⟨fun both => absurd both.2 present,fun _ => silent (mt (abl_present listed.1).mp present)⟩
  · obtain ⟨e,failed⟩ := stops loadable
    rw [failed]
    exact ⟨fun both => absurd both.1 loadable,fun _ => ⟨e,rfl⟩⟩

end names

variable (widens : Widens to_utf)
  (stays : ∀ i ∈ samples data, ∀ text ∈ (sampleSection to_utf data i).texts lib, text.take 2 ≠ str "\"/")
include widens stays

/-- `loadZSP` with the generated file: the sets are looked at if all names are read. -/
theorem loadZSP_generated {config : Str → Str} {i : Nat} (file : config (str "soundset") = generatedFile baseFolder)
    (name : config (str "sound.name") = unknown i) :
    (NamesRead lib to_utf data → loadZSP lib config (generatedOnly baseFolder sections) =
      ((do
        let set ← selectSet lib baseFolder (inserted lib sections []) (unknown i)
        ((ablSections signed data).map Section.values).foldlM (parseAbl lib baseFolder (inserted lib sections []))
          { set }).map (fun cfg_soundFiles => some (overrideSounds config cfg_soundFiles)))) ∧
    (¬ NamesRead lib to_utf data → ∃ e, loadZSP lib config (generatedOnly baseFolder sections) = .error e) := by
  obtain ⟨contained,all⟩ := converted_sections trims widens converted stays
  obtain ⟨reads,fails⟩ := read_generated trims sections contained
  have there : generatedOnly baseFolder sections (generatedFile baseFolder) = some (generated sections) := if_pos rfl
  rw [loadZSP,file,if_neg (generatedFile_set baseFolder),there]
  dsimp only
  constructor
  · intro named
    obtain ⟨sp,read⟩ := reads (all.mpr named)
    rw [read,directory_generatedFile,name]
    simp only [if_neg (unknown_set i)]
    change (do
      let set ← selectSet lib baseFolder (inserted lib sections []) (unknown i)
      let cfg_soundFiles ← ((inserted lib sections []).equalRange (str "Abl")).foldlM
        (parseAbl lib baseFolder (inserted lib sections [])) { set }
      return some (overrideSounds config cfg_soundFiles)) = _
    rw [(converted_tables trims converted).2.1]
    cases selectSet lib baseFolder (inserted lib sections []) (unknown i) with
    | error e => rfl
    | ok set => rfl
  · intro unread
    obtain ⟨e,failed⟩ := fails (mt all.mp unread)
    rw [failed]
    exact ⟨e,rfl⟩

theorem loads_diSet {i : Nat} (listed : Listed (diPointer data) i) (soundFiles : DiSoundType) :
    Loads lib baseFolder sections (unknown i) (.di soundFiles) ↔ NamesRead lib to_utf data ∧
      Loadable signed data (Found lib to_utf baseFolder data) (diSetAddress signed data i) ∧
      AblPresent signed data (Found lib to_utf baseFolder data) i ∧
      storedDiSet (sampleRead lib to_utf baseFolder data) data i (diSetAddress signed data i) = soundFiles := by
  constructor
  · intro loads
    obtain ⟨sound,loaded,set⟩ := loads (configured baseFolder (unknown i)) rfl (configured_name baseFolder _)
    obtain ⟨reads,fails⟩ := loadZSP_generated baseFolder converted trims widens stays rfl
      (configured_name baseFolder (unknown i))
    by_cases named : NamesRead lib to_utf data
    · obtain ⟨goes,stops⟩ := select_sounds baseFolder converted trims named listed
      rw [reads named] at loaded
      obtain ⟨last,done,same⟩ := map_ok loaded
      by_cases both : Loadable signed data (Found lib to_utf baseFolder data) (diSetAddress signed data i) ∧
          AblPresent signed data (Found lib to_utf baseFolder data) i
      · obtain ⟨other,other_done,stored⟩ := goes both
        rw [done] at other_done
        cases other_done
        have kept : sound.set = last.set := by
          rw [← Option.some.inj same]
          rfl
        exact ⟨named,both.1,both.2,SoundSet.di.inj (stored.symm.trans (kept.symm.trans set))⟩
      · obtain ⟨e,failed⟩ := stops both
        rw [done] at failed
        cases failed
    · obtain ⟨e,failed⟩ := fails named
      rw [loaded] at failed
      cases failed
  · rintro ⟨named,loadable,present,rfl⟩ config file name
    obtain ⟨last,done,set⟩ := (select_sounds baseFolder converted trims named listed).1 ⟨loadable,present⟩
    rw [(loadZSP_generated baseFolder converted trims widens stays file name).1 named,done]
    exact ⟨overrideSounds config last,rfl,set⟩

theorem loads_dSet (used : dPointer data 0 ≠ 0) (i : Nat) (soundFiles : SteamSoundType) :
    ¬ Loads lib baseFolder sections (unknown i) (.steam soundFiles) := by
  intro loads
  obtain ⟨sound,loaded,set⟩ := loads (configured baseFolder (unknown i)) rfl (configured_name baseFolder _)
  obtain ⟨reads,fails⟩ := loadZSP_generated baseFolder converted trims widens stays rfl
    (configured_name baseFolder (unknown i))
  by_cases named : NamesRead lib to_utf data
  · rw [reads named] at loaded
    obtain ⟨last,done,same⟩ := map_ok loaded
    obtain ⟨chosen,selected,loop⟩ := Exec.ok_of_bind done
    obtain ⟨sounds,silent⟩ := parse_abls baseFolder converted trims named (ablPairs signed data) ablPairs_bound
      { set := chosen }
    rw [← ablSections_pairs,loop] at sounds silent
    by_cases present : ∀ it ∈ ablPairs signed data,
        (ablLok it.1 : Int) = chosen.lok → Found lib to_utf baseFolder data (ablId signed data it.1 it.2)
    · obtain ⟨_,other,stays⟩ := sounds present
      cases other
      have kept : sound.set = last.set := by
        rw [← Option.some.inj same]
        rfl
      have steam : chosen = .steam soundFiles := stays.symm.trans (kept.symm.trans set)
      exact select_dSet baseFolder converted trims used i soundFiles (steam ▸ selected)
    · obtain ⟨e,failed⟩ := silent present
      cases failed
  · obtain ⟨e,failed⟩ := fails named
    rw [loaded] at failed
    cases failed

end loaded

/-! ### Which sounds come back -/

/-- The last of a rising list. -/
theorem find_reverse {p : Nat → Bool} {list : List Nat} (rising : list.Pairwise (· < ·)) (j : Nat) :
    list.reverse.find? p = some j ↔ j ∈ list ∧ p j = true ∧ ∀ k ∈ list, j < k → p k = false := by
  induction list using List.reverseRecOn with
  | nil => simp
  | append_singleton list last ih =>
    obtain ⟨before,-,below⟩ := List.pairwise_append.mp rising
    have less : ∀ k ∈ list, k < last := fun k member => below k member last List.mem_cons_self
    rw [List.reverse_append,List.reverse_singleton,List.singleton_append,List.find?_cons]
    simp only [List.mem_append,List.mem_singleton]
    cases holds : p last with
    | true =>
      constructor
      · intro same
        cases same
        refine ⟨.inr rfl,holds,?_⟩
        rintro k (member | rfl) above
        · exact absurd (less k member) (by omega)
        · omega
      · rintro ⟨member | rfl,-,none⟩
        · exact absurd (none last (.inr rfl) (less j member)) (by rw [holds]; decide)
        · rfl
    | false =>
      refine (ih before).trans ⟨?_,?_⟩
      · rintro ⟨member,found,none⟩
        refine ⟨.inl member,found,?_⟩
        rintro k (there | rfl) above
        · exact none k there above
        · exact holds
      · rintro ⟨member | rfl,found,none⟩
        · exact ⟨member,found,fun k there above => none k (.inl there) above⟩
        · rw [found] at holds
          cases holds

theorem samples_rising (data : Str) : (samples data).Pairwise (· < ·) := List.pairwise_lt_range.filter _

/-- The sound of a sample is in its file exactly if the last one that is written there is like it. -/
theorem sounds_iff {F : Type} [DecidableEq F] (file : Str → F) {id : Int} (present : Present data id) :
    Sounds file to_utf baseFolder data (wavFiles to_utf baseFolder data) id ↔
      Kept file to_utf baseFolder data (id - 1).toNat := by
  have path : (storedSample to_utf baseFolder data id).fileName.takeWhile (· ≠ 0) =
      wavPath to_utf data (id - 1).toNat baseFolder := by
    rw [storedSample,if_pos present]
    rfl
  unfold Sounds Kept contents
  rw [path,wavFiles,← List.map_reverse,List.find?_map,Option.map_map]
  simp only [present,true_imp_iff,Option.map_eq_some_iff,Function.comp_def,find_reverse (samples_rising data),
    decide_eq_true_eq,decide_eq_false_iff_not]
  constructor
  · rintro ⟨j,⟨there,same,last⟩,sound⟩
    exact ⟨j,there,sound,same,last⟩
  · rintro ⟨j,there,sound,same,last⟩
    exact ⟨j,⟨there,same,last⟩,sound⟩

/-! ### Images that are converted -/

/-- All places are inside if those of the samples, of the sounds and of the sets are. -/
theorem reads_inside (size : 0xa00 + (byte data 0xa00).toNat ≤ data.length)
    (samples : ∀ i < 128, ∀ k ∈ sampleReads data i, Inside data k)
    (sounds : ∀ i < 64, ∀ k ∈ ablReads signed data i, Inside data k)
    (sets : ∀ i ∈ diSetNumbers signed data, ∀ k ∈ diSetReads signed data i, Inside data k) :
    ∀ k ∈ reads signed data, Inside data k := by
  have table {k : Int} (low : 0 ≤ k) (high : k ≤ 0xa00 + (byte data 0xa00).toNat) : Inside data k := ⟨low,by omega⟩
  intro k member
  simp only [reads,List.mem_append,List.mem_cons,List.mem_map,List.mem_flatMap,List.mem_range,List.not_mem_nil,or_false,
    sampleNumbers,ablNumbers] at member
  rcases member with (((((rfl | ⟨j,below,rfl⟩) | ⟨i,below,inside⟩) | ⟨i,below,inside⟩) | ⟨i,below,inside⟩) |
    ⟨i,there,inside⟩) | rfl | rfl
  · exact table (by decide) (by omega)
  · exact table (by omega) (by omega)
  · exact samples i below k inside
  · exact sounds i below k inside
  · split at inside
    · simp only [List.mem_cons,List.not_mem_nil,or_false] at inside
      rcases inside with rfl | rfl
      · exact table (by omega) (by omega)
      · exact table (by omega) (by omega)
    · cases inside
  · exact sets i there k inside
  · exact table (by decide) (by omega)
  · exact table (by decide) (by omega)

theorem convertData_ok (to_utf : Str → Str) {dSets : List Section} (inside : ∀ k ∈ reads signed data, Inside data k)
    (names : ∀ i < 128, ¬ NameThrows data i)
    (made : (dSetNumbers signed data).mapM (dSetSection signed data) = .ok dSets) :
    ∃ output, convertData signed to_utf (fun _ => true) baseFolder data = .ok output ∧
      Converted signed to_utf data output.sections dSets := by
  refine ⟨⟨sampleSections to_utf data ++ ablSections signed data ++ diSetSections signed data ++ dSets,
    wavFiles to_utf baseFolder data⟩,?_,made,rfl⟩
  rw [convertData,if_neg,if_neg,if_neg,made]
  · rfl
  · rintro ⟨wav,-,closed⟩
    cases closed
  · rintro ⟨i,member,throws⟩
    exact names i (List.mem_range.mp member) throws
  · rintro ⟨k,member,outside⟩
    exact outside (inside k member)

theorem mapM_ok {α β ε : Type} {f : α → Except ε β} {list : List α}
    (all : ∀ x ∈ list, ∃ result, f x = .ok result) : ∃ results, list.mapM f = .ok results := by
  induction list with
  | nil => exact ⟨[],rfl⟩
  | cons x rest ih =>
    obtain ⟨⟨first,here⟩,later⟩ := List.forall_mem_cons.mp all
    obtain ⟨others,done⟩ := ih later
    rw [List.mapM_cons,here,done]
    exact ⟨first :: others,rfl⟩

/-- A DSet without delays is converted. -/
theorem dSetSection_empty {address : Int} (inside : ∀ k, address ≤ k → k ≤ address + 6 → Inside data k)
    (none : byte data (address + 1) = 0xff) (ends : byte data (address + 5) = 0 ∧ byte data (address + 6) = 0)
    {i : Nat} (there : dSetAddress signed data i = address) : ∃ it, dSetSection signed data i = .ok it := by
  have readable {k : Int} (low : address ≤ k) (high : k ≤ address + 6) : read data k = .ok (byte data k) :=
    if_pos (inside k low high)
  have delay : delays data 10 (address + 1) = .ok [] := by
    rw [delays,readable (by omega) (by omega),none]
    rfl
  have step (schlaege : UInt8) : ∃ lines, (List.range 1).mapM (delayLines data schlaege [] (address + 2)) = .ok lines := by
    have line : ∃ lines, delayLines data schlaege [] (address + 2) 0 = .ok lines := by
      rw [delayLines,readable (by omega) (by omega),readable (by omega) (by omega),readable (by omega) (by omega)]
      exact ⟨_,rfl⟩
    obtain ⟨lines,line⟩ := line
    rw [List.range_one,List.mapM_cons,line]
    exact ⟨_,rfl⟩
  obtain ⟨lines,step⟩ := step (byte data address)
  have first : read data (address + 2 + 3) = .ok 0 := by
    rw [readable (by omega) (by omega),add_assoc]
    exact congrArg _ ends.1
  have second : read data (address + 2 + 3 + 1) = .ok 0 := by
    rw [readable (by omega) (by omega),add_assoc,add_assoc]
    exact congrArg _ ends.2
  simp only [dSetSection,there,readable (show address ≤ address by omega) (by omega),delay,bind,Except.bind,
    List.length_nil,Nat.cast_zero,add_zero,zero_add,one_mul,step,first,second]
  exact ⟨_,rfl⟩

def header : Str := str "SP" ++ List.replicate 6 0 ++ 0x80 :: List.replicate 0x77 0

theorem header_length : header.length = 0x80 := by
  simp only [header,List.length_append,List.length_cons,List.length_replicate]
  rfl

theorem drop_header (data : Str) : (header ++ data).drop 0x80 = data := List.drop_left' header_length

theorem convert_header (sf_open : Str → Bool) (data : Str) :
    convert signed to_utf sf_open baseFolder (header ++ data) = convertData signed to_utf sf_open baseFolder data := by
  rw [convert,if_neg,drop_header]
  rintro (short | magic | size)
  · rw [List.length_append,header_length] at short
    omega
  · exact magic rfl
  · exact size rfl

def image (size : Nat) (entries : List (Nat × UInt8)) : Str :=
  (List.range size).map (fun k => (entries.lookup k).getD 0)

theorem image_length (size : Nat) (entries : List (Nat × UInt8)) : (image size entries).length = size := by
  simp [image]

theorem image_byte (size : Nat) (entries : List (Nat × UInt8)) (k : Int) :
    byte (image size entries) k = if k.toNat < size then (entries.lookup k.toNat).getD 0 else 0 := by
  unfold byte image
  rw [List.getD_eq_getElem?_getD,List.getElem?_map]
  by_cases inside : k.toNat < size
  · rw [List.getElem?_range inside,if_pos inside]
    rfl
  · rw [List.getElem?_eq_none (by simpa using inside),if_neg inside]
    rfl

/-! ### Which images come back -/

/-- The set at an address depends on its own samples only. -/
theorem storedDiSet_congr {f g : Int → Sample} {address : Int} (i : Nat)
    (same : ∀ id ∈ diNumbers data address, f id = g id) :
    storedDiSet f data i address = storedDiSet g data i address := by
  unfold storedDiSet
  congr 1
  refine List.map_congr_left fun step _ => ?_
  unfold storedStep
  by_cases inside : (step : Int) ≤ unsigned data address
  · have numbers (part : Nat) (small : part < 3) : f (unsigned data (address + 5 + step * 3 + part)) =
        g (unsigned data (address + 5 + step * 3 + part)) :=
      same _ (List.mem_flatMap.mpr ⟨step,List.mem_range.mpr (by omega),
        List.mem_map.mpr ⟨part,List.mem_range.mpr small,rfl⟩⟩)
    have first := numbers 0 (by decide)
    have second := numbers 1 (by decide)
    have third := numbers 2 (by decide)
    simp only [Nat.cast_zero,add_zero,Nat.cast_one,Nat.cast_ofNat] at first second third
    rw [if_pos inside,if_pos inside,first,second,third]
  · rw [if_neg inside,if_neg inside]

/-- Where the pointer is read as it stands, it is enough that the samples of the set are there under names
that stand in quotes on one line. -/
theorem restored_of_clean (trims : Trims lib.trim) (replaces : Replaces lib.replace_all_copy) (widens : Widens to_utf)
    {i : Nat} (plain : diSetAddress signed data i = diPointer data i)
    (loadable : Loadable signed data (fun id => Present data id ∧ CleanName (infoName to_utf data (id - 1).toNat))
      (diSetAddress signed data i))
    (sounds : AblPresent signed data (fun id => Present data id ∧ CleanName (infoName to_utf data (id - 1).toNat)) i) :
    Restored signed lib to_utf baseFolder data i := by
  have read {id : Int} (there : Present data id ∧ CleanName (infoName to_utf data (id - 1).toNat)) :
      readBack lib to_utf baseFolder data id = .ok (storedSample to_utf baseFolder data id) :=
    readBack_clean baseFolder replaces trims widens there.1 there.2
  have found {id : Int} (there : Present data id ∧ CleanName (infoName to_utf data (id - 1).toNat)) :
      Found lib to_utf baseFolder data id := ⟨there.1,by rw [read there]; rfl⟩
  obtain ⟨low,high,present⟩ := loadable
  refine ⟨⟨low,high,fun step last part small => found (present step last part small)⟩,
    fun table member j entry => found (sounds table member j entry),?_⟩
  rw [← plain]
  refine storedDiSet_congr i fun id member => ?_
  obtain ⟨step,below,inside⟩ := List.mem_flatMap.mp member
  obtain ⟨part,small,rfl⟩ := List.mem_map.mp inside
  have stufen := char_nonneg (show 0 ≤ char signed data (diSetAddress signed data i) by omega)
  have last : (step : Int) ≤ char signed data (diSetAddress signed data i) := by
    have := List.mem_range.mp below
    omega
  have there := present step last part (List.mem_range.mp small)
  rw [char_nonneg (le_trans (by decide) there.1.1)] at there
  rw [sampleRead,read there]
  rfl

def oneDiSet : Str := image 0xa0c
  [(2,2),(0x201,0x0f),(0x202,2),(0x204,0x0a),(0x205,2),(0x207,0x0f),(0x208,2),(0x840,0x0a),(0x841,1),(0xa01,1),
    (0xa06,1),(0xa07,1),(0xa08,1),(0xa09,1),(0xa0a,1),(0xa0b,1)]

/-- Its tables. -/
theorem oneDiSet_tables :
    (∀ i < 128, HasSample oneDiSet i ↔ i = 0) ∧ (∀ i < 64, ablOffset true oneDiSet i = 0) ∧
    (∀ signed, ∀ i < 32, pointer signed oneDiSet (0x840 + (i : Nat) * 2) = if i = 0 then 0xa01 else 0) ∧
    dPointer oneDiSet 0 = 0 := by
  refine ⟨?_,?_,?_,?_⟩
  · simp only [HasSample,sampleAddress,unsigned,oneDiSet,image_byte,image_length]
    decide +kernel
  · simp only [ablOffset,pointer,char,unsigned,oneDiSet,image_byte]
    decide +kernel
  · simp only [pointer,char,unsigned,oneDiSet,image_byte]
    decide +kernel
  · simp only [dPointer,pointer,char,unsigned,oneDiSet,image_byte]
    decide +kernel

theorem oneDiSet_listed {i : Nat} (listed : Listed (diPointer oneDiSet) i) : i = 0 := by
  obtain ⟨-,-,pointers,-⟩ := oneDiSet_tables
  by_contra other
  exact listed.2 1 (by omega) (pointers false 1 (by decide))

/-- The name of its sample, and the places that are read. -/
theorem oneDiSet_places :
    (∀ to_utf, infoName to_utf oneDiSet 0 = decimal 0) ∧ (∀ i < 128, ¬ NameThrows oneDiSet i) ∧
      ∀ k ∈ reads true oneDiSet, Inside oneDiSet k := by
  obtain ⟨-,sounds,-,-⟩ := oneDiSet_tables
  refine ⟨?_,?_,reads_inside ?_ ?_ ?_ ?_⟩
  · intro to_utf
    have plain : wavEnd oneDiSet 0 < oneDiSet.length ∧ byte oneDiSet (wavEnd oneDiSet 0 + 3) = 0 := by
      simp only [wavEnd,little24,sampleAddress,unsigned,oneDiSet,image_byte,image_length]
      decide +kernel
    rw [infoName,if_pos plain.1,if_pos plain.2]
    rfl
  · simp only [NameThrows,HasSample,sampleAddress,wavEnd,little24,unsigned,oneDiSet,image_byte,image_length]
    decide +kernel
  · simp only [oneDiSet,image_byte,image_length]
    decide +kernel
  · simp only [sampleReads,HasSample,sampleAddress,wavEnd,little24,unsigned,oneDiSet,image_byte,image_length,Inside]
    decide +kernel
  · intro i bound k member
    rw [ablReads,if_pos (sounds i bound),List.append_nil] at member
    simp only [List.mem_cons,List.not_mem_nil,or_false] at member
    rw [oneDiSet,Inside,image_length]
    omega
  · intro i member
    rw [oneDiSet_listed ((mem_diSetNumbers i).mp member)]
    simp only [diSetReads,diSetAddress,pointer,char,unsigned,oneDiSet,image_byte,image_length,Inside,schwelleAddress]
    decide +kernel

def latin1 (s : Str) : Str := s.flatMap (fun c => if c < 128 then [c] else [192 + c / 64, 128 + c % 64])

theorem latin1_widens : Widens latin1 := by
  intro s
  unfold latin1
  induction s with
  | nil => exact Nat.le_refl _
  | cons c rest ih =>
    rw [List.flatMap_cons,List.length_append,List.length_cons]
    split <;> simp only [List.length_cons,List.length_nil] <;> omega

/-- `unquote` as it is assumed, beside `trim` and `replace_all_copy`. -/
def assumed : Library := { trim := trimmed, replace_all_copy := replaced, unquoteThrows := true }

theorem oneDiSet_converted :
    ∃ output, convert true latin1 (fun _ => true) (str "/sounds") (header ++ oneDiSet) = .ok output := by
  obtain ⟨-,-,-,unused⟩ := oneDiSet_tables
  obtain ⟨-,names,inside⟩ := oneDiSet_places
  have none : dSetNumbers true oneDiSet = [] :=
    List.eq_nil_iff_forall_not_mem.mpr fun i member => ((mem_dSetNumbers i).mp member).2 unused
  have made : (dSetNumbers true oneDiSet).mapM (dSetSection true oneDiSet) = .ok [] := by
    rw [none]
    rfl
  obtain ⟨output,done,-⟩ := convertData_ok (str "/sounds") latin1 inside names made
  exact ⟨output,by rw [convert_header]; exact done⟩

theorem oneDiSet_samples {i : Nat} : i ∈ samples oneDiSet ↔ i = 0 := by
  rw [samples_mem]
  constructor
  · rintro ⟨bound,has⟩
    exact (oneDiSet_tables.1 i bound).mp has
  · rintro rfl
    exact ⟨by decide,(oneDiSet_tables.1 0 (by decide)).mpr rfl⟩

theorem oneDiSet_clean : CleanName (infoName latin1 oneDiSet 0) := by
  rw [oneDiSet_places.1 latin1]
  exact clean_of rfl

theorem oneDiSet_restored : Restored true assumed latin1 (str "/sounds") oneDiSet 0 := by
  obtain ⟨-,sounds,pointers,-⟩ := oneDiSet_tables
  have address : diSetAddress true oneDiSet 0 = 0xa01 := pointers true 0 (by decide)
  have same : diPointer oneDiSet 0 = 0xa01 := pointers false 0 (by decide)
  have empty (table : Nat) (bound : table < 64) : ablEntries true oneDiSet table = [] := if_pos (sounds table bound)
  have sample : Present oneDiSet 1 ∧ CleanName (infoName latin1 oneDiSet ((1 : Int) - 1).toNat) :=
    ⟨⟨by decide,by decide,(samples_mem.mp (oneDiSet_samples.mpr rfl)).2⟩,oneDiSet_clean⟩
  have stored : char true oneDiSet 0xa01 = 1 ∧
      ∀ step < 2, ∀ part < 3, char true oneDiSet (0xa01 + 5 + (step : Nat) * 3 + (part : Nat)) = 1 := by
    simp only [char,unsigned,oneDiSet,image_byte]
    decide +kernel
  refine restored_of_clean (str "/sounds") trimmed_trims replaced_replaces latin1_widens (address.trans same.symm) ?_ ?_
  · rw [Loadable,address,stored.1]
    refine ⟨by decide,by decide,?_⟩
    intro step last part small
    rw [stored.2 step (by omega) part small]
    exact sample
  · intro table member
    simp only [List.mem_cons,List.not_mem_nil,or_false] at member
    rw [empty table (by omega)]
    exact fun j inside => absurd inside List.not_mem_nil

theorem oneDiSet_back : ComesBack id true assumed latin1 (str "/sounds") oneDiSet := by
  have readable : (sampleSection latin1 oneDiSet 0).Readable assumed :=
    sampleSection_readable oneDiSet latin1_widens trimmed_trims (by decide) oneDiSet_clean
  refine ⟨oneDiSet_tables.2.2.2,fun i listed => ?_⟩
  rw [oneDiSet_listed listed]
  refine ⟨?_,?_,oneDiSet_restored,?_⟩
  · intro i member
    rw [oneDiSet_samples.mp member,wavPath,oneDiSet_places.1 latin1]
    exact ⟨readable.contained.inside,by decide +kernel⟩
  · intro i member
    rw [oneDiSet_samples.mp member,readable.values]
    rfl
  · rintro id - ⟨low,high,has⟩
    have first : (id - 1).toNat = 0 := oneDiSet_samples.mp (samples_mem.mpr ⟨by omega,has⟩)
    rw [first]
    refine ⟨0,oneDiSet_samples.mpr rfl,rfl,rfl,fun k member above => ?_⟩
    rw [oneDiSet_samples.mp member] at above
    exact absurd above (Nat.lt_irrefl 0)

def oneDSet : Str := image 0xa08 [(0x800,0x0a),(0x801,1),(0xa02,0xff)]

/-- Its tables, and the set. -/
theorem oneDSet_tables :
    (∀ i < 128, ¬ HasSample oneDSet i) ∧ (∀ i < 64, ablOffset true oneDSet i = 0) ∧ diPointer oneDSet 0 = 0 ∧
    (∀ signed, pointer signed oneDSet 0x800 = 0xa01) ∧ byte oneDSet 0xa00 = 0 ∧ byte oneDSet (0xa01 + 1) = 0xff ∧
    byte oneDSet (0xa01 + 5) = 0 ∧ byte oneDSet (0xa01 + 6) = 0 := by
  refine ⟨?_,?_,?_,?_,?_⟩
  · simp only [HasSample,sampleAddress,unsigned,oneDSet,image_byte,image_length]
    decide +kernel
  · simp only [ablOffset,pointer,char,unsigned,oneDSet,image_byte]
    decide +kernel
  · simp only [diPointer,pointer,char,unsigned,oneDSet,image_byte]
    decide +kernel
  · simp only [pointer,char,unsigned,oneDSet,image_byte]
    decide +kernel
  · simp only [oneDSet,image_byte]
    decide +kernel

theorem oneDSet_inside : ∀ k ∈ reads true oneDSet, Inside oneDSet k := by
  obtain ⟨noSample,sounds,first,-,empty,-⟩ := oneDSet_tables
  have size : oneDSet.length = 0xa08 := image_length _ _
  refine reads_inside ?_ ?_ ?_ ?_
  · rw [empty,size]
    decide
  · intro i bound k member
    rw [sampleReads,if_neg (noSample i bound),List.append_nil] at member
    obtain ⟨part,below,rfl⟩ := List.mem_map.mp member
    have below := List.mem_range.mp below
    rw [Inside,size]
    omega
  · intro i bound k member
    rw [ablReads,if_pos (sounds i bound),List.append_nil] at member
    simp only [List.mem_cons,List.not_mem_nil,or_false] at member
    rw [Inside,size]
    omega
  · intro i member
    exact absurd first (((mem_diSetNumbers i).mp member).2 0 (Nat.zero_le i))

end Btcontrol.Zpp
