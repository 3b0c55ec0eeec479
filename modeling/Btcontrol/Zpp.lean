import Btcontrol.Zsp
import Btcontrol.LokdefText

/-! `zpp2zsp.cpp`: a ZPP image is taken apart into the sections of generated.zsp and a wav file for each
sample. The image is what is behind its header. Whether a plain `char` is signed depends on the
machine. -/
namespace Btcontrol.Zpp

open Bytes Zsp

inductive Err where
  | invalid          -- "Error: invalid header", "invalid magic", "header size != 0x80"
  /-- The image is read outside of its bytes. -/
  | outside
  | outOfRange       -- std::out_of_range of substr
  | abort
  | exit             -- "Error : could not open file : %s"
  deriving DecidableEq, Repr

/-! ### The file that is written -/

/-- A line of a section: `"KEY",value` or a value alone. -/
inductive Line where
  | pair (key value : Str)
  | plain (value : Str)
  deriving DecidableEq, Repr

structure Section where
  name : Str
  lines : List Line
  deriving DecidableEq, Repr

def quoted (s : Str) : Str := 34 :: (s ++ [34])

def Line.text : Line → Str
  | .pair key value => quoted key ++ 44 :: value
  | .plain value => value

def Section.text (it : Section) : List Str :=
  quoted it.name :: it.lines.map Line.text ++ [quoted (47 :: it.name)]

def generated (sections : List Section) : Str :=
  (sections.flatMap Section.text).flatMap (fun line => line ++ [10])

/-! ### The image -/

/-- Places where `data[k]` may be read; behind the last byte there is a 0. -/
def Inside (data : Str) (k : Int) : Prop := 0 ≤ k ∧ k ≤ data.length

instance (data : Str) (k : Int) : Decidable (Inside data k) := inferInstanceAs (Decidable (_ ∧ _))

/-- `(unsigned char) data[k]`. -/
def byte (data : Str) (k : Int) : UInt8 := data.getD k.toNat 0

def unsigned (data : Str) (k : Int) : Int := (byte data k).toNat

/-- `(int) data[k]`. -/
def char (signed : Bool) (data : Str) (k : Int) : Int :=
  if signed ∧ 128 ≤ unsigned data k then unsigned data k - 256 else unsigned data k

/-- `(data[k] << 8) + data[k+1]`. -/
def pointer (signed : Bool) (data : Str) (k : Int) : Int := char signed data k * 256 + char signed data (k + 1)

section samples

variable (to_utf : Str → Str) (data : Str) (i : Nat)

/-! ### Samples -/

def sampleAddress : Int :=
  unsigned data (i * 4 + 1) * 65536 + unsigned data (i * 4 + 2) * 256 + unsigned data (i * 4 + 3)

def HasSample : Prop := 0 < sampleAddress data i ∧ sampleAddress data i < data.length

instance : Decidable (HasSample data i) := inferInstanceAs (Decidable (_ ∧ _))

def little24 (k : Int) : Int := unsigned data (k + 2) * 65536 + unsigned data (k + 1) * 256 + unsigned data k

def wavEnd : Int := little24 data (sampleAddress data i + 1)
def wavLen : Int := wavEnd data i - (sampleAddress data i + 10) + 1
def wavLoopStart : Int := little24 data (sampleAddress data i + 4) - (sampleAddress data i + 10)
def wavLoopEnd : Int := little24 data (sampleAddress data i + 7) - (sampleAddress data i + 10)

/-- The name of a sample. `to_utf` is `boost::locale::conv::to_utf<char>(s,"Latin1")`. -/
def infoName : Str :=
  if wavEnd data i < data.length then
    if byte data (wavEnd data i + 3) = 0 then decimal i
    else to_utf ((data.drop (wavEnd data i + 4).toNat).take (byte data (wavEnd data i + 3)).toNat)
  else str "no-name" ++ decimal i

def flag (mask : UInt8) : Int := if byte data (sampleAddress data i) &&& mask = 0 then 0 else 1

def sampleSection : Section where
  name := str "Sample"
  lines := [
    .pair (str "NUMMER") (decimal (i + 1)),
    .pair (str "PFAD") (quoted []),
    .pair (str "NAME") (quoted (infoName to_utf data i ++ str ".wav")),
    .pair (str "ART") (decimal (unsigned data (i * 4))),
    .pair (str "SIZE") (decimal (wavLen data i)),
    .pair (str "L1") (decimal (wavLoopStart data i)),
    .pair (str "L2") (decimal (wavLoopEnd data i)),
    .pair (str "Event1Pos") (decimal 0),
    .pair (str "Event1Typ") (decimal 0),
    .pair (str "Event1Akt") (decimal 0),
    .pair (str "Event2Pos") (decimal (wavLoopEnd data i)),
    .pair (str "Event2Typ") (decimal 0),
    .pair (str "Event2Akt") (decimal 0),
    .pair (str "SR") (decimal 2),
    .pair (str "INFO") (quoted (infoName to_utf data i)),
    .pair (str "LOOP") (decimal (flag data i 0x08)),
    .pair (str "SHORT") (decimal (flag data i 0x40)),
    .pair (str "FNR") (decimal 70)]

/-- `data.substr(address+0x0a,wavLen)`, the sound; a negative length is a very large one. -/
def wavData : Str :=
  let behind := data.drop (sampleAddress data i + 10).toNat
  if 0 ≤ wavLen data i then behind.take (wavLen data i).toNat else behind

/-- The path of its wav file. It is passed on up to the first 0. -/
def wavPath (baseFolder : Str) : Str :=
  (baseFolder ++ str "/" ++ (infoName to_utf data i ++ str ".wav")).takeWhile (· ≠ 0)

/-- The bytes of the image that are read for the sample. -/
def sampleReads : List Int :=
  (List.range 4).map (fun (k : Nat) => (i * 4 + k : Int)) ++
    if HasSample data i then
      (List.range 16).map (fun (k : Nat) => sampleAddress data i + k) ++
        if wavEnd data i < data.length then [wavEnd data i + 1, wavEnd data i + 2, wavEnd data i + 3] else []
    else []

/-- `data.substr(wavEnd+4, infoLen)` throws. -/
def NameThrows : Prop := HasSample data i ∧ wavEnd data i < data.length ∧ data.length < wavEnd data i + 4

instance : Decidable (NameThrows data i) := inferInstanceAs (Decidable (_ ∧ _ ∧ _))

end samples

def sampleNumbers : List Nat := List.range 128

def samples (data : Str) : List Nat := sampleNumbers.filter (fun i => HasSample data i)

def sampleSections (to_utf : Str → Str) (data : Str) : List Section :=
  (samples data).map (sampleSection to_utf data)

/-- The wav files in the order they are written, with the sound that is written to each. -/
def wavFiles (to_utf : Str → Str) (baseFolder data : Str) : List (Str × Str) :=
  (samples data).map (fun i => (wavPath to_utf data i baseFolder, wavData data i))

section tables

variable (signed : Bool) (data : Str) (i : Nat)

/-! ### Abl -/

def ablOffset : Int := pointer signed data (0x8a0 + i * 2)

def ablId (j : Nat) : Int := unsigned data (ablOffset signed data i + 0x7b + j * 2)

def ablSection (j : Nat) : Section where
  name := str "Abl"
  lines := [
    .pair (str "LOK") (decimal i),
    .pair (str "NUMMER") (decimal j),
    .pair (str "SAMPLE") (decimal (ablId signed data i j)),
    .pair (str "LAUTST") (decimal (unsigned data (ablOffset signed data i + 0x7b + j * 2 + 1)))]

/-- The sounds of table `i`, as far as they are set. -/
def ablEntries : List Nat :=
  if ablOffset signed data i = 0 then []
  else (List.range CFG_FUNC_SOUND_N).filter (fun j => ablId signed data i j ≠ 0)

def ablReads : List Int :=
  ([0x8a0 + i * 2, 0x8a0 + i * 2 + 1] : List Int) ++
    if ablOffset signed data i = 0 then []
    else (List.range (2 * CFG_FUNC_SOUND_N)).map (fun (k : Nat) => ablOffset signed data i + 0x7b + k)

/-! ### DiSets -/

def diSetAddress : Int := pointer signed data (0x840 + i * 2)

def unknown (i : Nat) : Str := str "unknown-" ++ decimal i

def stepSamples (address : Int) (step : Nat) : List Line :=
  (List.range 3).map (fun (part : Nat) => .pair (str "SAMPLE")
    (decimal (step * 3 + part) ++ 44 :: decimal (char signed data (address + 5 + step * 3 + part))))

def schwelleAddress (address : Int) (stufen : Int) (s : Nat) : Int :=
  address + 39 + (stufen - 1) / 10 * 30 + (s - 1) * 2

/-- The body of the loop over the steps above the first. -/
def stepLines (address : Int) (stufen : Int) (s : Nat) : List Line :=
  .pair (str "SCHWELLE") (decimal s ++ 44 :: decimal (unsigned data (schwelleAddress address stufen s)) ++ str ",64") ::
    stepSamples signed data address (s + 1)

def upperSteps (stufen : Int) : List Nat := (List.range (stufen - 1).toNat).map (· + 1)

def diSetLines (address : Int) : List Line :=
  let stufen := char signed data address
  [.pair (str "NUMMER") (decimal i),
    .pair (str "NAME") (quoted (unknown i)),
    .pair (str "STUFEN") (decimal stufen),
    .pair (str "TYP") (decimal (char signed data (address + 1)))] ++
    stepSamples signed data address 0 ++ stepSamples signed data address 1 ++
    (upperSteps stufen).flatMap (stepLines signed data address stufen) ++
    [.pair (str "PANTOAUS") (decimal 0), .pair (str "HG_SCHALTWERK") (decimal 0)]

def diSetSection : Section := ⟨str "DiSet", diSetLines signed data i (diSetAddress signed data i)⟩

def diSetReads : List Int :=
  let address := diSetAddress signed data i
  let stufen := char signed data address
  [0, 1, 2, 5, 6, 7, 8, 9, 10].map (fun (k : Nat) => address + k) ++
    (upperSteps stufen).flatMap (fun s =>
      [schwelleAddress address stufen s, schwelleAddress address stufen s + 1, address + 8 + s * 3,
        address + 9 + s * 3, address + 10 + s * 3])

/-! ### DSets -/

/-- The index is not used: all sets are read at the first pointer of the table. -/
def dSetAddress (_i : Nat) : Int := pointer signed data 0x800

def read (k : Int) : Except Err UInt8 := if Inside data k then .ok (byte data k) else .error .outside

/-- The delays up to 0xff; ten are too many. -/
def delays : Nat → Int → Except Err (List UInt8)
  | 0, _ => .error .abort
  | room + 1, k => do
    let d ← read data k
    if d = 0xff then return [] else return d :: (← delays room (k + 1))

def delayText (d : UInt8) : Except Err Str :=
  if d = 0xDD then .ok (str "120")
  else if d = 0xD7 then .ok (str "140")
  else if d = 0xD4 then .ok (str "150")
  else if d = 0 then .ok (str "0")
  else .error .abort

/-- `schlaege + 1` samples from the first on. -/
def slotLines (schlaege first : UInt8) : List Line :=
  (List.range (schlaege.toNat + 1)).map (fun (s : Nat) => .plain (decimal (first.toNat + s)))

/-- The body of the loop over the delays: high, low and middle are read, high, middle and low written. -/
def delayLines (schlaege : UInt8) (delay : List UInt8) (pos : Int) (j : Nat) : Except Err (List Line) := do
  let first_id_h ← read data (pos + j * 3)
  let first_id_l ← read data (pos + j * 3 + 1)
  let first_id_m ← read data (pos + j * 3 + 2)
  let ms ← delayText (delay.getD j 0)
  return slotLines schlaege first_id_h ++ slotLines schlaege first_id_m ++ slotLines schlaege first_id_l ++ [.plain ms]

/-- The name has no closing quote. -/
def dSetSection : Except Err Section := do
  let address := dSetAddress signed data i
  let schlaege ← read data address
  let delay ← delays data 10 (address + 1)
  let pos := address + 2 + delay.length
  let steps ← (List.range (delay.length + 1)).mapM (delayLines data schlaege delay pos)
  let n1 ← read data (pos + (delay.length + 1) * 3)
  let n2 ← read data (pos + (delay.length + 1) * 3 + 1)
  if n1 ≠ 0 ∨ n2 ≠ 0 then .error .abort
  else return ⟨str "DSet",
    [.pair (str "NUMMER") (decimal i),
      .pair (str "NAME") (34 :: unknown i),
      .pair (str "STUFEN") (decimal delay.length),
      .pair (str "SLOTS") (decimal schlaege.toNat)] ++
      steps.flatten ++ [.pair (str "PANTOAUS") (decimal 0)]⟩

end tables

/-! ### main -/

variable (signed : Bool)

def ablNumbers : List Nat := List.range 64

def ablSections (data : Str) : List Section :=
  ablNumbers.flatMap (fun i => (ablEntries signed data i).map (ablSection signed data i))

/-- The sets up to the first pointer that is 0. -/
def diSetNumbers (data : Str) : List Nat := (List.range 32).takeWhile (fun i => diSetAddress signed data i ≠ 0)

def diSetSections (data : Str) : List Section := (diSetNumbers signed data).map (diSetSection signed data)

def dSetNumbers (data : Str) : List Nat := (List.range 32).takeWhile (fun i => dSetAddress signed data i ≠ 0)

def reads (data : Str) : List Int :=
  0xa00 :: (List.range (byte data 0xa00).toNat).map (fun (k : Nat) => (0xa00 + k : Int)) ++
    sampleNumbers.flatMap (sampleReads data) ++ ablNumbers.flatMap (ablReads signed data) ++
    (List.range 32).flatMap (fun i => if i ≤ (diSetNumbers signed data).length then
      [(0x840 + i * 2 : Int), 0x840 + i * 2 + 1] else []) ++
    (diSetNumbers signed data).flatMap (diSetReads signed data) ++ [0x800, 0x801]

/-- What `main` leaves behind: the sections of generated.zsp and the wav files. -/
structure Output where
  sections : List Section
  wavs : List (Str × Str)
  deriving DecidableEq, Repr

variable (to_utf : Str → Str) (sf_open : Str → Bool) (baseFolder : Str)

/-- `main` for an image behind its header; `sf_open` tells which files can be written. -/
def convertData (data : Str) : Except Err Output :=
  if ∃ k ∈ reads signed data, ¬ Inside data k then .error .outside
  else if ∃ i ∈ sampleNumbers, NameThrows data i then .error .outOfRange
  else if ∃ wav ∈ wavFiles to_utf baseFolder data, sf_open wav.1 = false then .error .exit
  else do
    let dSets ← (dSetNumbers signed data).mapM (dSetSection signed data)
    return ⟨sampleSections to_utf data ++ ablSections signed data ++ diSetSections signed data ++ dSets,
      wavFiles to_utf baseFolder data⟩

def convert (zpp : Str) : Except Err Output :=
  if zpp.length < 0x80 ∨ zpp.take 2 ≠ str "SP" ∨ zpp.getD 8 0 ≠ 0x80 then .error .invalid
  else convertData signed to_utf sf_open baseFolder (zpp.drop 0x80)

end Btcontrol.Zpp
