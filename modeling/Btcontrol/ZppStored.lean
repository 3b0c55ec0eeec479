import Btcontrol.ZppText

/-! The sets of a ZPP image, and what is left of them after `zpp2zsp` and `loadZSP`. -/
namespace Btcontrol.Zpp

open Bytes Zsp

/-! ### What is stored -/

/-- Sample `id` of the image has been written. -/
def Present (data : Str) (id : Int) : Prop := 1 ≤ id ∧ id ≤ 128 ∧ HasSample data (id - 1).toNat

instance (data : Str) (id : Int) : Decidable (Present data id) := inferInstanceAs (Decidable (_ ∧ _ ∧ _))

/-- Sample number `id`, with the file it is written to; an unused number is no sample. -/
def storedSample (to_utf : Str → Str) (baseFolder data : Str) (id : Int) : Sample :=
  if Present data id then
    ⟨baseFolder ++ str "/" ++ (infoName to_utf data (id - 1).toNat ++ str ".wav"), wavLoopStart data (id - 1).toNat,
      wavLoopEnd data (id - 1).toNat⟩
  else {}

section stored

variable (sampleAt : Int → Sample) (data : Str)

/-- The steps of a set from 0 to the last one, the thresholds between them; 0 stands up to speed 1. -/
def storedStep (address : Int) (stufen : Int) (step : Nat) : DiSoundStepType :=
  if step ≤ stufen then
    { up := sampleAt (unsigned data (address + 5 + step * 3))
      run := sampleAt (unsigned data (address + 5 + step * 3 + 1))
      down := sampleAt (unsigned data (address + 5 + step * 3 + 2))
      limit := if step = 0 then 1
        else if step < stufen then unsigned data (schwelleAddress address stufen step) else 255 }
  else {}

def storedDiSet (i : Nat) (address : Int) : DiSoundType where
  lok := i
  nsteps := unsigned data address + 1
  steps := (List.range DiSoundType.maxSteps).map (storedStep sampleAt data address (unsigned data address))

def storedDelays (address : Int) : List UInt8 :=
  ((List.range 10).map (fun (k : Nat) => byte data (address + 1 + k))).takeWhile (· ≠ 0xff)

/-- The milliseconds of a delay. -/
def storedTime (delay : UInt8) : Option Int :=
  if delay = 0xDD then some 120 else if delay = 0xD7 then some 140 else if delay = 0xD4 then some 150 else some 0

/-- Where the numbers of a step are. -/
def steamAddress (address : Int) (step : Nat) : Int := address + 2 + (storedDelays data address).length + step * 3

def storedSteamStep (address : Int) (step : Nat) : SteamSoundStepType :=
  let slots := (unsigned data address + 1).toNat
  let first := steamAddress data address step
  let load := fun k => (List.range SteamSoundStepType.maxSlots).map (fun (slot : Nat) =>
    if slot < slots then sampleAt (unsigned data k + slot) else {})
  if step < (storedDelays data address).length then
    { ch := [load first, load (first + 2), load (first + 1)]
      ms := storedTime ((storedDelays data address).getD step 0) }
  else {}

def storedDSet (i : Nat) (address : Int) : SteamSoundType where
  lok := i
  nsteps := (storedDelays data address).length
  nslots := unsigned data address + 1
  steps := (List.range SteamSoundType.maxSteps).map (storedSteamStep sampleAt data address)

def diNumbers (address : Int) : List Int :=
  (List.range ((unsigned data address).toNat + 1)).flatMap (fun (step : Nat) =>
    (List.range 3).map (fun (part : Nat) => unsigned data (address + 5 + step * 3 + part)))

def steamNumbers (address : Int) : List Int :=
  (List.range (storedDelays data address).length).flatMap (fun (step : Nat) =>
    (List.range 3).flatMap (fun (load : Nat) =>
      (List.range ((unsigned data address).toNat + 1)).map (fun (slot : Nat) =>
        unsigned data (steamAddress data address step + load) + slot)))

end stored

/-- The pointers as they stand in the tables. -/
def diPointer (data : Str) (i : Nat) : Int := pointer false data (0x840 + i * 2)

def dPointer (data : Str) (i : Nat) : Int := pointer false data (0x800 + i * 2)

/-- Entry `i` is before the first pointer that is 0. -/
def Listed (table : Nat → Int) (i : Nat) : Prop := i < 32 ∧ ∀ k ≤ i, table k ≠ 0

/-! ### The round trip -/

def generatedFile (baseFolder : Str) : Str := baseFolder ++ str "/generated.zsp"

def generatedOnly (baseFolder : Str) (sections : List Section) : Str → Option Str :=
  fun file => if file = generatedFile baseFolder then some (generated sections) else none

def Loads (lib : Library) (baseFolder : Str) (sections : List Section) (name : Str) (set : SoundSet) : Prop :=
  ∀ config : Str → Str, config (str "soundset") = generatedFile baseFolder → config (str "sound.name") = name →
    ∃ sound, loadZSP lib config (generatedOnly baseFolder sections) = .ok (some sound) ∧ sound.set = set

section files

variable {F : Type} [DecidableEq F] (file : Str → F) (lib : Library) (to_utf : Str → Str) (baseFolder data : Str)

/-- The sound in the file of a path, after all files are written. `file` tells which file a path names. -/
def contents (wavs : List (Str × Str)) (path : Str) : Option Str :=
  (wavs.reverse.find? (fun it => file it.1 = file (path.takeWhile (· ≠ 0)))).map Prod.snd

/-- The file that sample number `id` is loaded from holds its sound. -/
def Sounds (wavs : List (Str × Str)) (id : Int) : Prop :=
  Present data id →
    contents file wavs (storedSample to_utf baseFolder data id).fileName = some (wavData data (id - 1).toNat)

/-- Every set of both tables comes back as it is stored, and every sample of it with its sound. -/
def RoundTrip (output : Output) : Prop :=
  (∀ i, Listed (diPointer data) i →
    Loads lib baseFolder output.sections (unknown i)
      (.di (storedDiSet (storedSample to_utf baseFolder data) data i (diPointer data i))) ∧
    ∀ id ∈ diNumbers data (diPointer data i), Sounds file to_utf baseFolder data output.wavs id) ∧
  (∀ i, Listed (dPointer data) i →
    Loads lib baseFolder output.sections (unknown i)
      (.steam (storedDSet (storedSample to_utf baseFolder data) data i (dPointer data i))) ∧
    ∀ id ∈ steamNumbers data (dPointer data i), Sounds file to_utf baseFolder data output.wavs id)

/-! ### When it succeeds -/

/-- Sample number `id` as it is read back from the lines of its own section. -/
def readBack (id : Int) : Except Zsp.Err Sample := do
  let sp ← (sampleSection to_utf data (id - 1).toNat).entries lib
  sampleOf lib baseFolder sp

def Found (id : Int) : Prop := Present data id ∧ (readBack lib to_utf baseFolder data id).isOk

def sampleRead (id : Int) : Sample := (readBack lib to_utf baseFolder data id).toOption.getD {}

/-- No line of a name ends its section, and no sound is written over generated.zsp. -/
def Contained : Prop :=
  ∀ i ∈ samples data, (∀ text ∈ (sampleSection to_utf data i).texts lib, text.take 2 ≠ str "\"/") ∧
    file (wavPath to_utf data i baseFolder) ≠ file (generatedFile baseFolder)

def NamesRead : Prop := ∀ i ∈ samples data, ((sampleSection to_utf data i).entries lib).isOk

/-- The last sound that is written to the file of sample `i` is its own, or one like it. -/
def Kept (i : Nat) : Prop :=
  ∃ j ∈ samples data, wavData data j = wavData data i ∧
    file (wavPath to_utf data j baseFolder) = file (wavPath to_utf data i baseFolder) ∧
    ∀ k ∈ samples data, j < k → file (wavPath to_utf data k baseFolder) ≠ file (wavPath to_utf data i baseFolder)

end files

/-- A name that stands in quotes on one line. -/
def CleanName (name : Str) : Prop := ∀ c ∈ name, c ≠ 0 ∧ c ≠ 8 ∧ c ≠ 10 ∧ c ≠ 34

section conditions

variable (signed : Bool) (data : Str) (There : Int → Prop)

/-- The samples of a step are there, under the numbers that are written. -/
def StepPresent (address : Int) (step : Nat) : Prop :=
  ∀ part : Nat, part < 3 → There (char signed data (address + 5 + step * 3 + part))

/-- There are between 1 and 19 steps above 0, with all their samples. -/
def Loadable (address : Int) : Prop :=
  1 ≤ char signed data address ∧ char signed data address < DiSoundType.maxSteps ∧
    ∀ step : Nat, step ≤ char signed data address → StepPresent signed data There address step

def AblPresent (i : Nat) : Prop :=
  ∀ table ∈ [i, i + 32], ∀ j ∈ ablEntries signed data table, There (ablId signed data table j)

end conditions

/-- Set `i` can be loaded, and with its samples as they are read back the set where the code looks for it
is the one at its pointer. -/
def Restored (signed : Bool) (lib : Library) (to_utf : Str → Str) (baseFolder data : Str) (i : Nat) : Prop :=
  Loadable signed data (Found lib to_utf baseFolder data) (diSetAddress signed data i) ∧
    AblPresent signed data (Found lib to_utf baseFolder data) i ∧
    storedDiSet (sampleRead lib to_utf baseFolder data) data i (diSetAddress signed data i) =
      storedDiSet (storedSample to_utf baseFolder data) data i (diPointer data i)

/-- There is no DSet, and every DiSet is restored: the text is read as the lines that were written, and no
sound of the set is overwritten by another one. -/
def ComesBack {F : Type} (file : Str → F) (signed : Bool) (lib : Library) (to_utf : Str → Str) (baseFolder data : Str) :
    Prop :=
  dPointer data 0 = 0 ∧ ∀ i, Listed (diPointer data) i →
    Contained file lib to_utf baseFolder data ∧ NamesRead lib to_utf data ∧
      Restored signed lib to_utf baseFolder data i ∧
      ∀ id ∈ diNumbers data (diPointer data i), Present data id → Kept file to_utf baseFolder data (id - 1).toNat

variable (signed : Bool) (data : Str)

/-! ### Ranges -/

theorem unsigned_range (k : Int) : 0 ≤ unsigned data k ∧ unsigned data k < 256 := by
  have := (byte data k).toNat_lt
  simp only [unsigned]
  omega

theorem char_range (k : Int) : -128 ≤ char signed data k ∧ char signed data k < 256 := by
  have := unsigned_range data k
  unfold char
  split <;> omega

/-- Where the sign does not matter. -/
theorem char_nonneg {signed : Bool} {data : Str} {k : Int} (positive : 0 ≤ char signed data k) :
    char signed data k = unsigned data k := by
  have := unsigned_range data k
  unfold char at positive ⊢
  split at positive
  · omega
  · rename_i plain
    rw [if_neg plain]

theorem pointer_zero (k : Int) : pointer signed data k = 0 ↔ pointer false data k = 0 := by
  have high := unsigned_range data k
  have low := unsigned_range data (k + 1)
  simp only [pointer,char]
  split <;> split <;> simp <;> omega

theorem little24_range (k : Int) : 0 ≤ little24 data k ∧ little24 data k < 2 ^ 24 := by
  have a := unsigned_range data k
  have b := unsigned_range data (k + 1)
  have c := unsigned_range data (k + 2)
  unfold little24
  omega

theorem sampleAddress_range (i : Nat) : 0 ≤ sampleAddress data i ∧ sampleAddress data i < 2 ^ 24 := by
  have a := unsigned_range data (i * 4 + 1)
  have b := unsigned_range data (i * 4 + 2)
  have c := unsigned_range data (i * 4 + 3)
  unfold sampleAddress
  omega

theorem wavLoop_fits (i : Nat) : Fits32 (wavLoopStart data i) ∧ Fits32 (wavLoopEnd data i) := by
  have address := sampleAddress_range data i
  have start := little24_range data (sampleAddress data i + 4)
  have stop := little24_range data (sampleAddress data i + 7)
  unfold wavLoopStart wavLoopEnd Fits32
  omega

theorem unsigned_fits (k : Int) : Fits32 (unsigned data k) := by
  have := unsigned_range data k
  unfold Fits32
  omega

theorem char_fits (k : Int) : Fits32 (char signed data k) := by
  have := char_range signed data k
  unfold Fits32
  omega

/-! ### Lines of numbers and names -/

structure Plain (size : Nat) (s : Str) : Prop where
  short : s.length ≤ size
  plain : ∀ c ∈ s, c ≠ 10 ∧ c ≠ 0
  last : ∀ c, s.getLast? = some c → isspace c = false

theorem Plain.append {m n : Nat} {a b : Str} (front : Plain m a) (back : Plain n b) : Plain (m + n) (a ++ b) := by
  refine ⟨?_,?_,?_⟩
  · have := front.short
    have := back.short
    rw [List.length_append]
    omega
  · intro c member
    exact (List.mem_append.mp member).elim (front.plain c) (back.plain c)
  · intro c last
    rw [List.getLast?_append] at last
    cases tail : b.getLast? with
    | none =>
      rw [tail] at last
      exact front.last c last
    | some d =>
      rw [tail] at last
      exact back.last c (by rw [tail]; exact last)

theorem plain_of_decide {size : Nat} {s : Str} (short : s.length ≤ size)
    (all : s.all (fun c => c != 10 && c != 0 && !isspace c) = true) : Plain size s := by
  have bytes := List.all_eq_true.mp all
  simp only [Bool.and_eq_true,bne_iff_ne,Bool.not_eq_true'] at bytes
  exact ⟨short,fun c member => (bytes c member).1,fun c last => (bytes c (List.mem_of_mem_getLast? last)).2⟩

theorem decimal_plain {n : Int} (fits : Fits32 n) : Plain 11 (decimal n) := by
  refine plain_of_decide (decimal_length fits) (List.all_eq_true.mpr fun c member => ?_)
  rcases decimal_bytes n c member with rfl | ⟨low,high⟩
  · decide
  · rw [UInt8.le_iff_toNat_le] at low
    have low : 48 ≤ c.toNat := low
    simp only [isspace,Bool.and_eq_true,bne_iff_ne,Bool.not_eq_true',Bool.or_eq_false_iff,beq_eq_false_iff_ne,
      Bool.and_eq_false_iff,decide_eq_false_iff_not,UInt8.le_iff_toNat_le,← UInt8.toNat_inj,ne_eq,UInt8.reduceToNat]
    omega

theorem quoted_plain {size : Nat} {s : Str} (short : s.length ≤ size) (plain : ∀ c ∈ s, c ≠ 10 ∧ c ≠ 0) :
    Plain (size + 2) (quoted s) := by
  refine ⟨?_,?_,?_⟩
  · simp only [quoted,List.length_cons,List.length_append,List.length_nil]
    omega
  · intro c member
    rcases List.mem_cons.mp member with rfl | member
    · decide
    · rcases List.mem_append.mp member with inside | quote
      · exact plain c inside
      · rw [List.mem_singleton.mp quote]
        decide
  · intro c last
    rw [quoted,← List.cons_append,List.getLast?_append] at last
    rw [← Option.some.inj last]
    decide

def Key (key : Str) : Prop := Word key ∧ key.length ≤ 20 ∧ ∀ c ∈ key, c ≠ 10 ∧ c ≠ 0

instance (key : Str) : Decidable (Key key) := inferInstanceAs (Decidable (_ ∧ _ ∧ _))

/-- Letters and digits, as numbers. -/
theorem key_of {key : Str}
    (checked : (key.length ≤ 20 && (key.map UInt8.toNat).all (fun n => 48 ≤ n && n != 92)) = true) : Key key := by
  rw [Bool.and_eq_true,decide_eq_true_eq,List.all_map,List.all_eq_true] at checked
  obtain ⟨short,bytes⟩ := checked
  have letter {c : UInt8} (member : c ∈ key) : 48 ≤ c.toNat ∧ c.toNat ≠ 92 := by
    simpa using bytes c member
  refine ⟨⟨?_,?_⟩,short,?_⟩
  · intro c member
    refine ⟨?_,?_,?_⟩ <;> rintro rfl <;> exact absurd (letter member) (by decide)
  · intro slash
    exact absurd (letter (List.mem_of_mem_head? slash)) (by decide)
  · intro c member
    constructor <;> rintro rfl <;> exact absurd (letter member) (by decide)

theorem clean_of {name : Str} (checked : (name.map UInt8.toNat).all (fun n => 34 < n) = true) : CleanName name := by
  rw [List.all_map,List.all_eq_true] at checked
  intro c member
  have high : 34 < c.toNat := by simpa using checked c member
  refine ⟨?_,?_,?_,?_⟩ <;> rintro rfl <;> exact absurd high (by decide)

/-- A line with a key and a value is read as it was written. -/
theorem pair_legible {key value : Str} (isKey : Key key) (plain : Plain 999 value) :
    Legible (Line.pair key value).text := by
  have comma : Plain 1 [44] := plain_of_decide (by decide) (by decide)
  have whole := (quoted_plain isKey.2.1 isKey.2.2).append (comma.append plain)
  refine ⟨whole.short,whole.plain,?_,whole.last⟩
  intro c first
  rw [← Option.some.inj first]
  decide

def Line.Good : Line → Prop
  | .pair key value => Key key ∧ Plain 999 value
  | .plain value => 44 ∉ value ∧ 34 ∉ value ∧ Plain 999 value ∧ ∀ c, value.head? = some c → isspace c = false

theorem Plain.mono {m n : Nat} {s : Str} (plain : Plain m s) (more : m ≤ n) : Plain n s :=
  ⟨plain.short.trans more,plain.plain,plain.last⟩

theorem number_good {key : Str} {n : Int} (isKey : Key key) (fits : Fits32 n) : (Line.pair key (decimal n)).Good :=
  ⟨isKey,(decimal_plain fits).mono (by decide)⟩

theorem quoted_legible {size : Nat} {s : Str} (short : s.length ≤ size) (small : size ≤ 1020)
    (plain : ∀ c ∈ s, c ≠ 10 ∧ c ≠ 0) : Legible (quoted s) := by
  have whole := quoted_plain short plain
  refine ⟨whole.short.trans (by omega),whole.plain,?_,whole.last⟩
  intro c first
  rw [← Option.some.inj first]
  decide

theorem parseValue_lines {lib : Library} {lines : List Line}
    (all : ∀ line ∈ lines, parseValue lib line.text = .ok line.values) :
    (lines.map Line.text).mapM (parseValue lib) = .ok (lines.map Line.values) := by
  induction lines with
  | nil => rfl
  | cons line rest ih =>
    obtain ⟨here,later⟩ := List.forall_mem_cons.mp all
    rw [List.map_cons,List.mapM_cons,here,ih later]
    rfl

theorem quoted_ends {name : Str} (isKey : Key name) : Legible (quoted name) ∧ Legible (quoted (47 :: name)) := by
  obtain ⟨-,short,plain⟩ := isKey
  have longer : (47 :: name).length ≤ 21 := Nat.succ_le_succ short
  exact ⟨quoted_legible short (by decide) plain,
    quoted_legible longer (by decide) (List.forall_mem_cons.mpr ⟨by decide,plain⟩)⟩

section library

variable {lib : Library} (trims : Trims lib.trim)
include trims

/-- A line of numbers and plain names is read as it was written. -/
theorem good_read {line : Line} (good : line.Good) :
    line.text.length ≤ 1022 ∧ linesRead lib line.text = [line.text] ∧ line.text.take 2 ≠ str "\"/" ∧
      parseValue lib line.text = .ok line.values := by
  cases line with
  | pair key value =>
    have legible := pair_legible good.1 good.2
    exact ⟨legible.short,linesRead_legible trims legible,quoted_begin good.1.1 _,parseValue_pair lib good.1.1 value⟩
  | plain value =>
    obtain ⟨comma,quote,plain,first⟩ := good
    have legible : Legible value := ⟨plain.short.trans (by decide),plain.plain,first,plain.last⟩
    refine ⟨legible.short,linesRead_legible trims legible,?_,if_neg comma⟩
    intro same
    have member : (34 : UInt8) ∈ value.take 2 := by
      rw [show value.take 2 = str "\"/" from same]
      decide
    exact quote (List.mem_of_mem_take member)

/-- The first line of a quoted value, whatever the value is. -/
theorem linesRead_quoted {key : Str} (isKey : Key key) (text : Str) :
    ∃ more, linesRead lib (Line.pair key (34 :: text)).text = (Line.pair key (34 :: firstPart text)).text :: more := by
  obtain ⟨more,first⟩ := splitOn_first (Line.pair key (34 :: text)).text
  have front : ∀ c ∈ quoted key ++ [44] ++ [34], c ≠ 10 ∧ c ≠ 0 := by
    intro c member
    rw [List.append_assoc] at member
    rcases List.mem_append.mp member with inside | comma
    · exact (quoted_plain isKey.2.1 isKey.2.2).plain c inside
    · rcases List.mem_cons.mp comma with rfl | quote
      · decide
      · rw [List.mem_singleton.mp quote]
        decide
  have shape (s : Str) : (Line.pair key (34 :: s)).text = quoted key ++ [44] ++ [34] ++ s := by simp [Line.text]
  have cut (n : UInt8) (plain : ∀ c ∈ quoted key ++ [44] ++ [34], c ≠ n) (s : Str) :
      (quoted key ++ [44] ++ [34] ++ s).takeWhile (· ≠ n) = quoted key ++ [44] ++ [34] ++ s.takeWhile (· ≠ n) :=
    List.takeWhile_append_of_pos fun c member => by simpa using plain c member
  have begin_ (s : Str) : (quoted key ++ [44] ++ [34] ++ s).dropWhile isspace = quoted key ++ [44] ++ [34] ++ s :=
    dropWhile_head fun c head => by rw [← Option.some.inj head]; rfl
  refine ⟨more.map (lineRead lib),?_⟩
  rw [linesRead,first,List.map_cons,shape,shape,lineRead,cut 10 fun c member => (front c member).1,List.append_assoc _ _ [10],
    cut 0 fun c member => (front c member).2,trims.eq_trimmed,trimmed,begin_,strtrim_behind rfl,strtrim_newline,firstPart]

theorem readable_of_good {it : Section} (name : it.name ≠ [] ∧ Key it.name) (lines : ∀ line ∈ it.lines, line.Good) :
    it.Readable lib := by
  have texts : it.texts lib = it.lines.map Line.text := by
    rw [Section.texts,List.flatMap_congr fun line member => (good_read trims (lines line member)).2.1,← List.map_eq_flatMap]
  refine ⟨⟨⟨name.1,name.2.1⟩,quoted_ends name.2,fun line member => (good_read trims (lines line member)).1,?_⟩,?_⟩
  · intro text member
    rw [texts] at member
    obtain ⟨line,there,rfl⟩ := List.mem_map.mp member
    exact (good_read trims (lines line there)).2.2.1
  · rw [Section.entries,texts,Section.values]
    exact parseValue_lines fun line member => (good_read trims (lines line member)).2.2.2

end library

/-! ### Samples -/

/-- A Latin-1 character has at most two bytes in UTF-8. -/
def Widens (to_utf : Str → Str) : Prop := ∀ s, (to_utf s).length ≤ 2 * s.length

theorem infoName_short {to_utf : Str → Str} (widens : Widens to_utf) {i : Nat} (bound : i < 128) :
    (infoName to_utf data i).length ≤ 510 := by
  have number : (decimal (i : Int)).length ≤ 11 := decimal_length (by unfold Fits32; omega)
  unfold infoName
  split
  · split
    · omega
    · have bytes := widens ((data.drop (wavEnd data i + 4).toNat).take (byte data (wavEnd data i + 3)).toNat)
      have := (byte data (wavEnd data i + 3)).toNat_lt
      rw [List.length_take] at bytes
      omega
  · have text : (str "no-name").length = 7 := by decide
    rw [List.length_append]
    omega

/-- The numbers of a sample. -/
theorem sample_fits (data : Str) {i : Nat} (bound : i < 128) :
    Fits32 (i + 1) ∧ Fits32 (wavLen data i) ∧ Fits32 (wavLoopStart data i) ∧ Fits32 (wavLoopEnd data i) ∧
      ∀ mask, Fits32 (flag data i mask) := by
  have address := sampleAddress_range data i
  have wavEnd := little24_range data (sampleAddress data i + 1)
  obtain ⟨start,stop⟩ := wavLoop_fits data i
  refine ⟨?_,?_,start,stop,?_⟩
  · unfold Fits32
    omega
  · unfold Fits32 wavLen Zpp.wavEnd
    omega
  · intro mask
    unfold flag
    split <;> decide

theorem pair_short {key value : Str} (isKey : Key key) (short : value.length ≤ 999) :
    (Line.pair key value).text.length ≤ 1022 := by
  have := isKey.2.1
  simp only [Line.text,quoted,List.length_append,List.length_cons,List.length_nil]
  omega

theorem wavName_plain {to_utf : Str → Str} {i : Nat} (clean : CleanName (infoName to_utf data i)) :
    ∀ c ∈ infoName to_utf data i ++ str ".wav", c ≠ 10 ∧ c ≠ 0 := by
  have wavText : CleanName (str ".wav") := clean_of rfl
  intro c member
  rcases List.mem_append.mp member with name | extension
  · exact ⟨(clean c name).2.2.1,(clean c name).1⟩
  · have letter := wavText c extension
    exact ⟨letter.2.2.1,letter.1⟩

section library

variable {lib : Library} {to_utf : Str → Str} (widens : Widens to_utf)
include widens

theorem wavName_short {i : Nat} (bound : i < 128) : (infoName to_utf data i ++ str ".wav").length ≤ 514 := by
  have short := infoName_short data widens bound
  have text : (str ".wav").length = 4 := by decide
  rw [List.length_append]
  omega

/-- A sample is one section, unless one of its lines ends it. -/
theorem sampleSection_contained {i : Nat} (bound : i < 128)
    (stays : ∀ text ∈ (sampleSection to_utf data i).texts lib, text.take 2 ≠ str "\"/") :
    (sampleSection to_utf data i).Contained lib := by
  have key : Key (str "Sample") := key_of rfl
  have number {n : Int} (fits : Fits32 n) : (decimal n).length ≤ 999 := (decimal_length fits).trans (by decide)
  have text {s : Str} (short : s.length ≤ 514) : (quoted s).length ≤ 999 := by
    simp only [quoted,List.length_cons,List.length_append,List.length_nil]
    omega
  obtain ⟨next,size,start,stop,flags⟩ := sample_fits data bound
  refine ⟨⟨show str "Sample" ≠ [] by decide,key.1⟩,quoted_ends key,?_,stays⟩
  simp only [sampleSection,List.forall_mem_cons]
  refine ⟨pair_short (key_of rfl) (number next),pair_short (key_of rfl) (by decide),
    pair_short (key_of rfl) (text (wavName_short data widens bound)),
    pair_short (key_of rfl) (number (unsigned_fits data _)),pair_short (key_of rfl) (number size),
    pair_short (key_of rfl) (number start),pair_short (key_of rfl) (number stop),
    pair_short (key_of rfl) (number (by decide)),pair_short (key_of rfl) (number (by decide)),
    pair_short (key_of rfl) (number (by decide)),pair_short (key_of rfl) (number stop),
    pair_short (key_of rfl) (number (by decide)),pair_short (key_of rfl) (number (by decide)),
    pair_short (key_of rfl) (number (by decide)),
    pair_short (key_of rfl) (text ((infoName_short data widens bound).trans (by decide))),
    pair_short (key_of rfl) (number (flags _)),pair_short (key_of rfl) (number (flags _)),
    pair_short (key_of rfl) (number (by decide)),?_⟩
  exact fun line member => absurd member List.not_mem_nil

theorem sampleSection_readable (trims : Trims lib.trim) {i : Nat} (bound : i < 128)
    (clean : CleanName (infoName to_utf data i)) : (sampleSection to_utf data i).Readable lib := by
  have plain : ∀ c ∈ infoName to_utf data i, c ≠ 10 ∧ c ≠ 0 := fun c member => ⟨(clean c member).2.2.1,(clean c member).1⟩
  obtain ⟨next,size,start,stop,flags⟩ := sample_fits data bound
  refine readable_of_good trims (show str "Sample" ≠ [] ∧ Key (str "Sample") from ⟨by decide,key_of rfl⟩) ?_
  simp only [sampleSection,List.forall_mem_cons]
  refine ⟨number_good (key_of rfl) next,
    ⟨key_of rfl,plain_of_decide (by decide) (by decide)⟩,
    ⟨key_of rfl,(quoted_plain (wavName_short data widens bound) (wavName_plain data clean)).mono (by decide)⟩,
    number_good (key_of rfl) (unsigned_fits data _),
    number_good (key_of rfl) size,
    number_good (key_of rfl) start,number_good (key_of rfl) stop,
    number_good (key_of rfl) (by decide),number_good (key_of rfl) (by decide),
    number_good (key_of rfl) (by decide),number_good (key_of rfl) stop,
    number_good (key_of rfl) (by decide),number_good (key_of rfl) (by decide),
    number_good (key_of rfl) (by decide),
    ⟨key_of rfl,(quoted_plain (infoName_short data widens bound) plain).mono (by decide)⟩,
    number_good (key_of rfl) (flags _),number_good (key_of rfl) (flags _),
    number_good (key_of rfl) (by decide),?_⟩
  exact fun line member => absurd member List.not_mem_nil

end library

/-! ### The other sections -/

theorem small_fits {n : Nat} (bound : n < 2 ^ 31) : Fits32 n := by
  unfold Fits32
  omega

theorem ablEntries_bound {signed : Bool} {data : Str} {i j : Nat} (inside : j ∈ ablEntries signed data i) : j < CFG_FUNC_SOUND_N := by
  unfold ablEntries at inside
  split at inside
  · cases inside
  · exact List.mem_range.mp (List.mem_filter.mp inside).1

theorem ablSection_readable {lib : Library} (trims : Trims lib.trim) {i j : Nat} (table : i < 64) (entry : j < CFG_FUNC_SOUND_N) :
    (ablSection signed data i j).Readable lib := by
  have entry : j < 18 := entry
  refine readable_of_good trims (show str "Abl" ≠ [] ∧ Key (str "Abl") from ⟨by decide,key_of rfl⟩) ?_
  simp only [ablSection,List.forall_mem_cons]
  refine ⟨number_good (key_of rfl) (small_fits (by omega)),number_good (key_of rfl) (small_fits (by omega)),
    number_good (key_of rfl) (unsigned_fits data _),number_good (key_of rfl) (unsigned_fits data _),?_⟩
  exact fun line member => absurd member List.not_mem_nil

theorem comma_plain {m n : Nat} {a b : Str} (front : Plain m a) (back : Plain n b) : Plain (m + (1 + n)) (a ++ 44 :: b) :=
  front.append ((plain_of_decide (show [44].length ≤ 1 by decide) (by decide)).append back)

theorem stepSamples_good {address : Int} {step : Nat} (bound : step < 2 ^ 16) :
    ∀ line ∈ stepSamples signed data address step, line.Good := by
  intro line member
  obtain ⟨part,below,rfl⟩ := List.mem_map.mp member
  have below := List.mem_range.mp below
  refine ⟨key_of rfl,(comma_plain (decimal_plain ?_) (decimal_plain (char_fits signed data _))).mono (by decide)⟩
  unfold Fits32
  omega

theorem upperSteps_bound {stufen : Int} {s : Nat} (member : s ∈ upperSteps stufen) :
    1 ≤ s ∧ s < stufen := by
  obtain ⟨k,below,rfl⟩ := List.mem_map.mp member
  have below := List.mem_range.mp below
  omega

theorem stepLines_good {address stufen : Int} {s : Nat} (bound : s < 256) :
    ∀ line ∈ stepLines signed data address stufen s, line.Good := by
  intro line member
  rcases List.mem_cons.mp member with rfl | samples
  · have factor : Plain 3 (str ",64") := plain_of_decide (by decide) rfl
    refine ⟨key_of rfl,?_⟩
    exact ((comma_plain (decimal_plain (small_fits (by omega))) (decimal_plain (unsigned_fits data _))).append
      factor).mono (by decide)
  · exact stepSamples_good signed data (by omega) line samples

theorem unknown_plain {i : Nat} (bound : i < 32) : (unknown i).length ≤ 19 ∧ ∀ c ∈ unknown i, c ≠ 10 ∧ c ≠ 0 := by
  have number := decimal_plain (small_fits (show i < 2 ^ 31 by omega))
  have front : Plain 8 (str "unknown-") := plain_of_decide (by decide) rfl
  exact ⟨(front.append number).short,(front.append number).plain⟩

theorem diSetSection_readable {lib : Library} (trims : Trims lib.trim) {i : Nat} (bound : i < 32) :
    (diSetSection signed data i).Readable lib := by
  have name := unknown_plain bound
  refine readable_of_good trims (show str "DiSet" ≠ [] ∧ Key (str "DiSet") from ⟨by decide,key_of rfl⟩) ?_
  intro line member
  simp only [diSetSection,diSetLines,List.mem_append,List.mem_cons,List.not_mem_nil,or_false] at member
  rcases member with ((((rfl | rfl | rfl | rfl) | first) | second) | upper) | rfl | rfl
  · exact number_good (key_of rfl) (small_fits (by omega))
  · exact ⟨key_of rfl,(quoted_plain name.1 name.2).mono (by decide)⟩
  · exact number_good (key_of rfl) (char_fits signed data _)
  · exact number_good (key_of rfl) (char_fits signed data _)
  · exact stepSamples_good signed data (by decide) line first
  · exact stepSamples_good signed data (by decide) line second
  · obtain ⟨s,there,inside⟩ := List.mem_flatMap.mp upper
    have range := char_range signed data (diSetAddress signed data i)
    have below := upperSteps_bound there
    exact stepLines_good signed data (by omega) line inside
  · exact number_good (key_of rfl) (by decide)
  · exact number_good (key_of rfl) (by decide)

theorem mapM_cons_ok {α β ε : Type} {f : α → Except ε β} {x : α} {list : List α} {results : List β}
    (done : (x :: list).mapM f = .ok results) :
    ∃ first others, f x = .ok first ∧ list.mapM f = .ok others ∧ results = first :: others := by
  rw [List.mapM_cons] at done
  obtain ⟨first,here,done⟩ := Exec.ok_of_bind done
  obtain ⟨others,later,done⟩ := Exec.ok_of_bind done
  cases done
  exact ⟨first,others,here,later,rfl⟩

theorem mem_of_mapM {α β ε : Type} {f : α → Except ε β} {list : List α} {results : List β} (done : list.mapM f = .ok results) :
    ∀ result ∈ results, ∃ x ∈ list, f x = .ok result := by
  induction list generalizing results with
  | nil =>
    cases done
    exact fun result member => nomatch member
  | cons x rest ih =>
    obtain ⟨first,others,here,later,rfl⟩ := mapM_cons_ok done
    intro result member
    rcases List.mem_cons.mp member with rfl | inside
    · exact ⟨x,List.mem_cons_self,here⟩
    · obtain ⟨y,there,same⟩ := ih later result inside
      exact ⟨y,List.mem_cons_of_mem _ there,same⟩

theorem plain_good {n : Int} (fits : Fits32 n) : (Line.plain (decimal n)).Good := by
  have bytes (c : UInt8) (member : c ∈ decimal n) : c ≠ 44 ∧ c ≠ 34 := by
    rcases decimal_bytes n c member with rfl | ⟨low,high⟩
    · decide
    · constructor <;> rintro rfl <;> exact absurd low (by decide)
  refine ⟨fun comma => (bytes 44 comma).1 rfl,fun quote => (bytes 34 quote).2 rfl,(decimal_plain fits).mono (by decide),?_⟩
  intro c first
  have unspaced := dropWhile_decimal n
  cases text : decimal n with
  | nil =>
    rw [text] at first
    exact nomatch first
  | cons d rest =>
    rw [text] at first unspaced
    rw [← Option.some.inj first]
    by_contra space
    rw [List.dropWhile_cons_of_pos (by simpa using space)] at unspaced
    have := congrArg List.length unspaced
    have := List.length_dropWhile_le isspace rest
    simp only [List.length_cons] at *
    omega

theorem slotLines_good (schlaege first : UInt8) : ∀ line ∈ slotLines schlaege first, line.Good := by
  intro line member
  obtain ⟨s,below,rfl⟩ := List.mem_map.mp member
  have below := List.mem_range.mp below
  have := schlaege.toNat_lt
  have := first.toNat_lt
  refine plain_good ?_
  unfold Fits32
  omega

theorem delayText_good {d : UInt8} {ms : Str} (known : delayText d = .ok ms) : (Line.plain ms).Good := by
  unfold delayText at known
  split at known
  · cases known
    exact plain_good (n := 120) (by decide)
  · split at known
    · cases known
      exact plain_good (n := 140) (by decide)
    · split at known
      · cases known
        exact plain_good (n := 150) (by decide)
      · split at known
        · cases known
          exact plain_good (n := 0) (by decide)
        · cases known

theorem delayLines_good {schlaege : UInt8} {delay : List UInt8} {pos : Int} {j : Nat} {lines : List Line}
    (done : delayLines data schlaege delay pos j = .ok lines) : ∀ line ∈ lines, line.Good := by
  unfold delayLines at done
  obtain ⟨first_id_h,-,done⟩ := Exec.ok_of_bind done
  obtain ⟨first_id_l,-,done⟩ := Exec.ok_of_bind done
  obtain ⟨first_id_m,-,done⟩ := Exec.ok_of_bind done
  obtain ⟨ms,known,done⟩ := Exec.ok_of_bind done
  cases done
  intro line member
  simp only [List.mem_append,List.mem_singleton] at member
  rcases member with ((high | middle) | low) | rfl
  · exact slotLines_good schlaege first_id_h line high
  · exact slotLines_good schlaege first_id_m line middle
  · exact slotLines_good schlaege first_id_l line low
  · exact delayText_good known

theorem delays_length {room : Nat} {k : Int} {delay : List UInt8} (done : delays data room k = .ok delay) :
    delay.length < room := by
  induction room generalizing k delay with
  | zero => cases done
  | succ room ih =>
    rw [delays] at done
    obtain ⟨d,-,done⟩ := Exec.ok_of_bind done
    split at done
    · cases done
      exact Nat.succ_pos room
    · obtain ⟨others,later,done⟩ := Exec.ok_of_bind done
      cases done
      exact Nat.succ_lt_succ (ih later)

/-- What is left of a DSet: a name that is not closed. -/
theorem dSetSection_spec {lib : Library} (trims : Trims lib.trim) {i : Nat} (bound : i < 32) {it : Section}
    (done : dSetSection signed data i = .ok it) :
    it.Readable lib ∧ it.name = str "DSet" ∧ it.values.get (str "NAME") = 34 :: unknown i := by
  unfold dSetSection at done
  obtain ⟨schlaege,-,done⟩ := Exec.ok_of_bind done
  obtain ⟨delay,read,done⟩ := Exec.ok_of_bind done
  obtain ⟨steps,lines,done⟩ := Exec.ok_of_bind done
  obtain ⟨n1,-,done⟩ := Exec.ok_of_bind done
  obtain ⟨n2,-,done⟩ := Exec.ok_of_bind done
  split at done
  · cases done
  · cases done
    refine ⟨readable_of_good trims (show str "DSet" ≠ [] ∧ Key (str "DSet") from ⟨by decide,key_of rfl⟩) ?_,rfl,rfl⟩
    have name := unknown_plain bound
    have short := delays_length data read
    have slots := schlaege.toNat_lt
    have open_ : Plain 20 (34 :: unknown i) := by
      refine ⟨Nat.succ_le_succ name.1,List.forall_mem_cons.mpr ⟨by decide,name.2⟩,?_⟩
      have quote : Plain 9 (str "\"unknown-") := plain_of_decide (by decide) rfl
      exact (quote.append (decimal_plain (small_fits (show i < 2 ^ 31 by omega)))).last
    intro line member
    simp only [List.mem_append,List.mem_cons,List.not_mem_nil,or_false] at member
    rcases member with ((rfl | rfl | rfl | rfl) | inside) | rfl
    · exact number_good (key_of rfl) (small_fits (by omega))
    · exact ⟨key_of rfl,open_.mono (by decide)⟩
    · exact number_good (key_of rfl) (small_fits (by omega))
    · exact number_good (key_of rfl) (small_fits (by omega))
    · obtain ⟨step,there,inside⟩ := List.mem_flatten.mp inside
      obtain ⟨j,-,made⟩ := mem_of_mapM lines step there
      exact delayLines_good data made line inside
    · exact number_good (key_of rfl) (by decide)

end Btcontrol.Zpp
