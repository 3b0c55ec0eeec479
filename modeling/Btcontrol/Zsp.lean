import Btcontrol.Lokdef

/-! `zsp.h`/`zsp.cpp`: sound projects. A file is a list of sections, a section a list of keys with
their values; `parseDiSet` and `parseDSet` make the sound table of a diesel or of a steam loco of
one. Accesses outside of an array, behind the last value of a section or behind the end of a string
are errors of their own. -/
namespace Btcontrol.Zsp

open Bytes

inductive Err where
  | notSet                            -- "NOT SET"
  | number                            -- "error converting number", or thrown by std::stoi
  | invalidSample (number : Str)      -- "invalid sample number ("+number+")"
  | missingEndDelimiter               -- "Missing end delimiter"
  | assertion
  | abort
  /-- An array is accessed outside of its bounds. -/
  | outside
  /-- The end of a section is dereferenced. -/
  | pastEnd
  /-- Bytes behind the end of a string are read, without a test that could stop it. -/
  | pastString
  deriving DecidableEq, Repr

def NOT_SET : Str := str "__NOT_SET"

/-- What the functions are built with: two of Boost's string functions, and whether `unquote` throws
"Missing end delimiter" at a quote that is not closed. The one under `src/` does not: it steps over
the end, and its loops only test for the end itself. -/
structure Library where
  trim : Str → Str
  replace_all_copy : Str → Str → Str → Str
  unquoteThrows : Bool

/-! ### Strings -/

def digitValue (c : UInt8) : Nat :=
  if 48 ≤ c ∧ c ≤ 57 then c.toNat - 48
  else if 97 ≤ c ∧ c ≤ 122 then c.toNat - 87
  else if 65 ≤ c ∧ c ≤ 90 then c.toNat - 55
  else 36

def isDigitIn (base : Nat) (c : UInt8) : Bool := digitValue c < base

def digitsValue (base : Nat) (digits : Str) : Nat :=
  digits.foldl (fun value c => value * base + digitValue c) 0

/-- The digits at the front as a number, with what follows; `none` where there are none. -/
def strtolDigits (base : Nat) (s : Str) : Option (Nat × Str) :=
  if s.takeWhile (isDigitIn base) = [] then none
  else some (digitsValue base (s.takeWhile (isDigitIn base)), s.dropWhile (isDigitIn base))

/-- `strtol` with base 0 behind the sign: 0x is followed by hexadecimal digits, 0 starts octal ones. -/
def strtolUnsigned : Str → Option (Nat × Str)
  | 48 :: x :: rest =>
    if (x = 120 ∨ x = 88) ∧ (strtolDigits 16 rest).isSome then strtolDigits 16 rest
    else strtolDigits 8 (48 :: x :: rest)
  | 48 :: [] => some (0, [])
  | s => strtolDigits 10 s

def strtol (s : Str) : Option (Int × Str) :=
  match s.dropWhile isspace with
  | 45 :: rest => (strtolUnsigned rest).map (fun it => (-(it.1 : Int), it.2))
  | 43 :: rest => (strtolUnsigned rest).map (fun it => ((it.1 : Int), it.2))
  | rest => (strtolUnsigned rest).map (fun it => ((it.1 : Int), it.2))

def stoi (s : Str) : Except Err Int :=
  if s = NOT_SET then .error .notSet
  else match strtol s with
    | some (value, []) => if Fits32 value then .ok value else .error .number
    | _ => .error .number

def add32 (a b : Int) : Int := signed32 (pattern32 (a + b))

/-- What becomes of a quote that is not closed. -/
def Library.unterminated (lib : Library) : Err := if lib.unquoteThrows then .missingEndDelimiter else .pastString

section quotes

variable (lib : Library)

/-- `boost::algorithm::unquote` from inside or outside of a quoted part. -/
def unquoteFrom (escape : UInt8) : Bool → Str → Except Err Str
  | false, [] => .ok []
  | true, [] => .error lib.unterminated
  | false, c :: rest =>
    if c = 34 then unquoteFrom escape true rest
    else (unquoteFrom escape false rest).map (c :: ·)
  | true, [c] => if c ≠ escape ∧ c = 34 then .ok [] else .error lib.unterminated
  | true, c :: d :: rest =>
    if c = escape then (unquoteFrom escape true rest).map (d :: ·)
    else if c = 34 then unquoteFrom escape false (d :: rest)
    else (unquoteFrom escape true (d :: rest)).map (c :: ·)

/-- `unquote(s)`, with a backslash to escape. -/
def unquote (s : Str) : Except Err Str := unquoteFrom lib 92 false s

/-- `unquote(s,'"','\b')`. -/
def unquoteValue (s : Str) : Except Err Str := unquoteFrom lib 8 false s

end quotes

/-! ### Samples and sections -/

structure Sample where
  fileName : Str := NOT_SET
  loopStartPos : Int := 0
  loopEndPos : Int := 0
  deriving DecidableEq, Repr

abbrev SectionValues := List (Str × Str)

def SectionValues.get (section_ : SectionValues) (key : Str) : Str :=
  match section_.find? (fun it => it.1 = key) with
  | some it => it.2
  | none => NOT_SET

/-- `std::multimap`: sorted by the keys, equal keys in the order they came in. -/
abbrev ZSPDataType := List (Str × SectionValues)

def ZSPDataType.insert (key : Str) (sp : SectionValues) : ZSPDataType → ZSPDataType
  | [] => [(key, sp)]
  | it :: rest => if key < it.1 then (key, sp) :: it :: rest else it :: insert key sp rest

variable (lib : Library) (soundsetPath : Str) (zspData : ZSPDataType)

/-- The sample of a section. -/
def sampleOf (sp : SectionValues) : Except Err Sample := do
  let pfad ← unquoteValue lib (sp.get (str "PFAD"))
  let name ← unquoteValue lib (sp.get (str "NAME"))
  let loopStartPos ← stoi (sp.get (str "L1"))
  let loopEndPos ← stoi (sp.get (str "L2"))
  return ⟨soundsetPath ++ str "/" ++ lib.replace_all_copy pfad [92] [47] ++ name, loopStartPos, loopEndPos⟩

/-- `getSample`. The search goes on behind the last "Sample", to sections of other names. -/
def getSample (number : Str) : Except Err Sample :=
  let found := (zspData.dropWhile (fun it => it.1 ≠ str "Sample")).find?
    (fun it => it.2.get (str "NUMMER") = number)
  match found with
  | some it => sampleOf lib soundsetPath it.2
  | none => .error (.invalidSample number)

def getName (sp : SectionValues) : Except Err Str :=
  if sp.get (str "NAME") = NOT_SET then .ok NOT_SET else unquoteValue lib (sp.get (str "NAME"))

/-! ### DiSet -/

structure DiSoundStepType where
  up : Sample := {}
  down : Sample := {}
  run : Sample := {}
  limit : Int := 255
  deriving DecidableEq, Repr

def DiSoundType.maxSteps : Nat := 20

/-- `class DiSoundType`; `steps` has `maxSteps` elements. -/
structure DiSoundType where
  lok : Int
  nsteps : Int
  steps : List DiSoundStepType := List.replicate DiSoundType.maxSteps {}
  deriving DecidableEq, Repr

/-- An access to `steps[fahrstufe]`. -/
def DiSoundType.modifyStep (fahrstufe : Int) (f : DiSoundStepType → DiSoundStepType) (soundFiles : DiSoundType) :
    Except Err DiSoundType :=
  if 0 ≤ fahrstufe ∧ fahrstufe < maxSteps then
    .ok { soundFiles with steps := soundFiles.steps.modify fahrstufe.toNat f }
  else .error .outside

/-- What a sample is assigned to: 0 up, 1 run, 2 down. A negative number leaves a negative rest. -/
def DiSoundStepType.assign (part : Int) (sample : Sample) (step : DiSoundStepType) : DiSoundStepType :=
  if part = 0 then { step with up := sample }
  else if part = 1 then { step with run := sample }
  else if part = 2 then { step with down := sample }
  else step

/-- `"SAMPLE",<3*step+part>,<number>`; without a comma the value is skipped. -/
def parseSample (value : Str) (soundFiles : DiSoundType) : Except Err DiSoundType :=
  if 44 ∈ value then do
    let sample ← getSample lib soundsetPath zspData ((value.dropWhile (· ≠ 44)).drop 1)
    let n := atoi (value.takeWhile (· ≠ 44))
    if n.tdiv 3 < soundFiles.nsteps then
      soundFiles.modifyStep (n.tdiv 3) (DiSoundStepType.assign (n.tmod 3) sample)
    else .error .assertion
  else .ok soundFiles

/-- `"SCHWELLE",<step>,<limit>,<factor>`. Without a comma the whole value is both numbers. -/
def parseSchwelle (value : Str) (soundFiles : DiSoundType) : Except Err DiSoundType :=
  let fahrstufe := atoi (value.takeWhile (· ≠ 44))
  if fahrstufe < add32 soundFiles.nsteps 1 then
    let limit := if 44 ∈ value then (value.dropWhile (· ≠ 44)).drop 1 else value
    soundFiles.modifyStep fahrstufe (fun step => { step with limit := atoi limit })
  else .ok soundFiles

/-- One turn of the loop over the section. -/
def parseDiValue (soundFiles : DiSoundType) (it : Str × Str) : Except Err DiSoundType :=
  if it.1 = str "SAMPLE" then parseSample lib soundsetPath zspData it.2 soundFiles
  else if it.1 = str "SCHWELLE" then parseSchwelle it.2 soundFiles
  else .ok soundFiles

/-- `parseDiSet` with `cfg_soundFiles == NULL`. -/
def parseDiSet (sp : SectionValues) : Except Err DiSoundType := do
  let lok ← stoi (sp.get (str "NUMMER"))
  let stufen ← stoi (sp.get (str "STUFEN"))
  let soundFiles ← sp.foldlM (parseDiValue lib soundsetPath zspData) { lok, nsteps := add32 stufen 1 }
  soundFiles.modifyStep 0 (fun step => { step with limit := 1 })

/-! ### DSet -/

def SteamSoundStepType.maxSlots : Nat := 6

/-- `class SteamSoundStepType`: three loads of `maxSlots` samples. -/
structure SteamSoundStepType where
  ch : List (List Sample) := List.replicate 3 (List.replicate SteamSoundStepType.maxSlots {})
  ms : Option Int := none
  deriving DecidableEq, Repr

def SteamSoundType.maxSteps : Nat := 5

structure SteamSoundType where
  lok : Int
  nsteps : Int
  nslots : Int
  steps : List SteamSoundStepType := List.replicate SteamSoundType.maxSteps {}
  deriving DecidableEq, Repr

/-- An access to `steps[step]`. -/
def SteamSoundType.modifyStep (step : Nat) (f : SteamSoundStepType → SteamSoundStepType)
    (soundFiles : SteamSoundType) : Except Err SteamSoundType :=
  if step < maxSteps then .ok { soundFiles with steps := soundFiles.steps.modify step f }
  else .error .outside

def SteamSoundType.assign (step hml slot : Nat) (sample : Sample) (soundFiles : SteamSoundType) :
    Except Err SteamSoundType :=
  if hml < 3 ∧ slot < SteamSoundStepType.maxSlots then
    soundFiles.modifyStep step (fun it => { it with ch := it.ch.modify hml (fun slots => slots.set slot sample) })
  else .error .outside

/-- `++it` and what it points at; the list is what is left of the section. -/
def deref (it : SectionValues) : Except Err ((Str × Str) × SectionValues) :=
  match it with
  | [] => .error .pastEnd
  | value :: rest => .ok (value, rest)

/-- The body of the innermost loop. What `stoi` or `getSample` throw is caught; reading behind the end
of a string is no exception. -/
def parseSlot (step hml slot : Nat) (state : SteamSoundType × SectionValues) :
    Except Err (SteamSoundType × SectionValues) := do
  let (value, rest) ← deref state.2
  let sample := do
    let _ ← stoi value.1
    getSample lib soundsetPath zspData value.1
  match sample with
  | .ok sample => do
    let soundFiles ← state.1.assign step hml slot sample
    return (soundFiles, rest)
  | .error .pastString => .error .pastString
  | .error _ => return (state.1, rest)

/-- The slots of all loads of a step, in the order of the loops. -/
def slotsOf (nslots : Nat) : List (Nat × Nat) :=
  (List.range 3).flatMap (fun hml => (List.range nslots).map (fun slot => (hml, slot)))

/-- One turn of the loop over the steps. -/
def parseStep (nslots : Nat) (state : SteamSoundType × SectionValues) (step : Nat) :
    Except Err (SteamSoundType × SectionValues) := do
  let state ← (slotsOf nslots).foldlM
    (fun state it => parseSlot lib soundsetPath zspData step it.1 it.2 state) state
  let (value, rest) ← deref state.2
  let ms ← stoi value.1
  let soundFiles ← state.1.modifyStep step (fun it => { it with ms := some ms })
  return (soundFiles, rest)

/-- The loop up to the first value that is empty, which does not test for the end. -/
def firstPlain : SectionValues → Except Err SectionValues
  | [] => .error .pastEnd
  | it :: rest => if it.2 = [] then .ok (it :: rest) else firstPlain rest

def parseDSet (sp : SectionValues) : Except Err SteamSoundType := do
  let slots ← stoi (sp.get (str "SLOTS"))
  let nslots := add32 slots 1
  if nslots > SteamSoundStepType.maxSlots then .error .assertion
  else do
    let nsteps ← stoi (sp.get (str "STUFEN"))
    if nsteps > SteamSoundType.maxSteps then .error .assertion
    else do
      let lok ← stoi (sp.get (str "NUMMER"))
      let it ← firstPlain sp
      let (soundFiles, _) ← (List.range nsteps.toNat).foldlM (parseStep lib soundsetPath zspData nslots.toNat)
        ({ lok, nsteps, nslots }, it)
      return soundFiles

/-! ### loadZSP -/

/-- `fgets` into a buffer of 1024: pieces up to the end of a line, or of 1023 bytes. -/
def fgetsPieces : Nat → Str → Str → List Str
  | _, piece, [] => if piece = [] then [] else [piece]
  | room, piece, c :: rest =>
    if c = 10 ∨ room = 1 then (piece ++ [c]) :: fgetsPieces 1023 [] rest
    else fgetsPieces (room - 1) (piece ++ [c]) rest

/-- The lines of the file, each cut off at a 0 and trimmed. -/
def zspLines (file : Str) : List Str :=
  (fgetsPieces 1023 [] file).map (fun buffer => lib.trim (buffer.takeWhile (· ≠ 0)))

/-- The variables of the loop over the lines. A missing `sp` has no values; it is only inserted
with an empty name, which nobody looks for. -/
structure Reading where
  section_ : Str := []
  sp : SectionValues := []
  zspData : ZSPDataType := []
  deriving DecidableEq, Repr

/-- The values a line adds to its section. -/
def parseValue (line : Str) : Except Err (Str × Str) :=
  if 44 ∈ line then do
    let subsection ← unquote lib (line.takeWhile (· ≠ 44))
    return (subsection, (line.dropWhile (· ≠ 44)).drop 1)
  else .ok (line, [])

/-- One turn of the loop over the lines. -/
def parseLine (reading : Reading) (line : Str) : Except Err Reading :=
  if line.take 2 = str "\"/" then
    .ok { reading with zspData := reading.zspData.insert reading.section_ reading.sp, section_ := [] }
  else if reading.section_ = [] then do
    let name ← unquote lib line
    return if name = [] then reading else { reading with section_ := name, sp := [] }
  else do
    let value ← parseValue lib line
    return { reading with sp := reading.sp ++ [value] }

def ZSPDataType.equalRange (key : Str) (zspData : ZSPDataType) : List SectionValues :=
  (zspData.filter (fun it => it.1 = key)).map Prod.snd

def findSet (soundSetName : Str) : List SectionValues → Except Err (Option SectionValues)
  | [] => .ok none
  | sp :: rest => do
    if (← getName lib sp) = soundSetName then return some sp else findSet soundSetName rest

inductive SoundSet where
  | di (soundFiles : DiSoundType)
  | steam (soundFiles : SteamSoundType)
  deriving DecidableEq, Repr

def SoundSet.lok : SoundSet → Int
  | .di soundFiles => soundFiles.lok
  | .steam soundFiles => soundFiles.lok

def CFG_FUNC_SOUND_N : Nat := 18

/-- `class SoundType`; a volume that was not set is whatever is in memory. -/
structure SoundType where
  set : SoundSet
  funcSound : List Sample := List.replicate CFG_FUNC_SOUND_N {}
  funcSoundVolume : List (Option Int) := List.replicate CFG_FUNC_SOUND_N none
  deriving DecidableEq, Repr

/-- The set of a name: a DiSet, or else a DSet. -/
def selectSet (soundSetName : Str) : Except Err SoundSet := do
  match ← findSet lib soundSetName (zspData.equalRange (str "DiSet")) with
  | some sp => return .di (← parseDiSet lib soundsetPath zspData sp)
  | none =>
    match ← findSet lib soundSetName (zspData.equalRange (str "DSet")) with
    | some sp => return .steam (← parseDSet lib soundsetPath zspData sp)
    | none => .error .abort      -- "Error: D*Set Name %s not found"

def parseAbl (cfg_soundFiles : SoundType) (sp : SectionValues) : Except Err SoundType := do
  let ablLok ← stoi (sp.get (str "LOK"))
  if (if ablLok ≥ 32 then ablLok - 32 else ablLok) = cfg_soundFiles.set.lok then
    let nummer ← stoi (sp.get (str "NUMMER"))
    if nummer < 0 ∨ nummer ≥ CFG_FUNC_SOUND_N then .error .abort
    else
      let sample ← getSample lib soundsetPath zspData (sp.get (str "SAMPLE"))
      let volume ← stoi (sp.get (str "LAUTST"))
      return { cfg_soundFiles with
        funcSound := cfg_soundFiles.funcSound.set nummer.toNat sample
        funcSoundVolume := cfg_soundFiles.funcSoundVolume.set nummer.toNat (some volume) }
  else return cfg_soundFiles

def overrideConfigNames : List Str :=
  [str "sound.boil", str "sound.glocke", str "sound.brake", str "sound.entwaessern", str "sound.abfahrt",
    str "sound.horn"]

/-- The function sounds that are named in the configuration. -/
def overrideSounds (config : Str → Str) (cfg_soundFiles : SoundType) : SoundType :=
  { cfg_soundFiles with
    funcSound := cfg_soundFiles.funcSound.mapIdx (fun i sample =>
      match overrideConfigNames[i]? with
      | some name => if config name = NOT_SET then sample else { sample with fileName := config name }
      | none => sample) }

/-- The directory of the sound set; the empty one it has before where there is no slash. -/
def directory (soundsetFile : Str) : Str :=
  if 47 ∈ soundsetFile then ((soundsetFile.reverse.dropWhile (· ≠ 47)).drop 1).reverse else []

def loadZSP (config : Str → Str) (fopen : Str → Option Str) : Except Err (Option SoundType) :=
  if config (str "soundset") = NOT_SET then .ok none
  else match fopen (config (str "soundset")) with
    | none => .error .abort
    | some file => do
      let soundsetPath := directory (config (str "soundset"))
      let reading ← (zspLines lib file).foldlM (parseLine lib) {}
      if config (str "sound.name") = NOT_SET then .error .abort
      else
        let set ← selectSet lib soundsetPath reading.zspData (config (str "sound.name"))
        let cfg_soundFiles ← (reading.zspData.equalRange (str "Abl")).foldlM
          (parseAbl lib soundsetPath reading.zspData) { set }
        return some (overrideSounds config cfg_soundFiles)

end Btcontrol.Zsp
