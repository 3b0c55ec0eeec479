import Btcontrol.Zsp

/-! `Sample::load` of `zsp.cpp` with `Sound::loadWavFile` of `sound.cpp` and `Reader` of `reader.h`:
the samples of a WAV file, brought to the rate that is played, and their three parts. -/
namespace Btcontrol.Sound

open Bytes Zsp

inductive LoadErr where
  | readingData        -- "error reading file data"
  /-- `ReadInt32` or `ReadInt16` at the end of the file returns what is on the stack. -/
  | uninitialised
  | outOfRange         -- std::out_of_range of substr
  | notLoaded          -- "file … not loaded"
  | assertion
  | abort
  deriving DecidableEq, Repr

/-! ### The WAV file -/

/-- `Reader`: the file from its position on. -/
abbrev Reader := StateT Str (Except LoadErr)

def readBytes (n : Nat) (short : LoadErr) : Reader Str := fun file =>
  if n ≤ file.length then .ok (file.take n, file.drop n) else .error short

def ReadInt32 : Reader Int := do
  return signed32 (leValue (← readBytes 4 .uninitialised))

def ReadInt16 : Reader Int := do
  let value := leValue (← readBytes 2 .uninitialised)
  return if value < 2 ^ 15 then value else (value : Int) - 2 ^ 16

def ReadData (len : Int) : Reader Str := readBytes len.toNat .readingData

def Seek : Reader Unit := fun _ => .error .abort

def WavChunks.RiffHeader : Int := 0x46464952
def WavChunks.Format : Int := 0x20746d66
def WavChunks.Data : Int := 0x61746164

structure WavHeader where
  samplerate : Int := -1
  bitdepth : Int := -1
  datasize : Int := -1
  deriving DecidableEq, Repr

/-- One turn of the loop over the chunks. -/
def readChunk (header : WavHeader) : Reader WavHeader := do
  let chunkid ← ReadInt32
  if chunkid = WavChunks.Format then
    let formatsize ← ReadInt32
    let _wavFormat ← ReadInt16
    let _channels ← ReadInt16
    let samplerate ← ReadInt32
    let _bytespersecond ← ReadInt32
    let _formatblockalign ← ReadInt16
    let bitdepth ← ReadInt16
    if formatsize = 18 then
      let _extradata ← ReadInt16
      Seek
    return { header with samplerate, bitdepth }
  else if chunkid = WavChunks.RiffHeader then
    let _memsize ← ReadInt32
    let _riffstyle ← ReadInt32
    return header
  else if chunkid = WavChunks.Data then
    return { header with datasize := ← ReadInt32 }
  else
    let _skipsize ← ReadInt32
    Seek
    return header

/-- `while ( datasize < 0 )`. Every turn takes at least eight bytes, so the length of the file is
enough turns. -/
def readChunks : Nat → WavHeader → Reader WavHeader
  | 0, _ => fun _ => .error .uninitialised
  | turns + 1, header => do
    if header.datasize < 0 then readChunks turns (← readChunk header) else return header

/-- `loadWavFile` up to the samples. -/
def readWav (file : Str) : Except LoadErr (WavHeader × Str) := do
  let (header, rest) ← (readChunks (file.length + 1) {}).run file
  let (out, _) ← (ReadData header.datasize).run rest
  return (header, out)

/-! ### Resampling -/

def mean (a b : UInt8) : UInt8 := UInt8.ofNat ((a.toNat + b.toNat) / 2)

def resampleX2 : Str → Str
  | [] => []                -- refused by the assertion
  | [last] => [last]
  | a :: b :: rest => a :: mean a b :: resampleX2 (b :: rest)

structure Statics where
  sample_rate : Int := 0
  /-- `bits` is `SND_PCM_FORMAT_U8`. -/
  u8 : Bool := false
  deriving DecidableEq, Repr

/-- `loadWavFile` behind the samples: the first file sets the rate. -/
def toRate (samplerate : Int) (out : Str) (sound : Statics) : Except LoadErr (Statics × Str) :=
  if sound.sample_rate = 0 then .ok ({ sound with sample_rate := samplerate }, out)
  else if sound.sample_rate = samplerate then .ok (sound, out)
  else if sound.sample_rate = add32 samplerate samplerate then
    if out = [] then .error .assertion else .ok (sound, resampleX2 out)
  else .error .abort

def loadWavFile (file : Str) (sound : Statics) : Except LoadErr (Statics × Str) := do
  let (header, out) ← readWav file
  toRate header.samplerate out (if header.bitdepth = 8 then { sound with u8 := true } else sound)

/-! ### The sample and its parts -/

/-- `class Sample` with its sound. -/
structure WavSample extends Sample where
  wav : Str := NOT_SET
  deriving DecidableEq, Repr

def load (file : Str) (sound : Statics) (sample : WavSample) : Except LoadErr (Statics × WavSample) := do
  let (sound, wav) ← loadWavFile file sound
  let sample := { sample with wav }
  return (sound, if sample.loopEndPos = 0 then { sample with loopEndPos := wav.length } else sample)

/-- `std::string::substr`; a negative length is a large one. -/
def substr (s : Str) (pos len : Int) : Except LoadErr Str :=
  if 0 ≤ pos ∧ pos ≤ s.length then
    .ok (if 0 ≤ len then (s.drop pos.toNat).take len.toNat else s.drop pos.toNat)
  else .error .outOfRange

def loopStart (sample : WavSample) : Except LoadErr Str :=
  if sample.wav = NOT_SET then .error .notLoaded else substr sample.wav 0 sample.loopStartPos

def loop (sample : WavSample) : Except LoadErr Str :=
  if sample.wav = NOT_SET then .error .notLoaded
  else substr sample.wav sample.loopStartPos (sample.loopEndPos - sample.loopStartPos)

def loopEnd (sample : WavSample) : Except LoadErr Str :=
  if sample.wav = NOT_SET then .error .notLoaded
  else substr sample.wav sample.loopEndPos (sample.wav.length - sample.loopEndPos)

/-! ### The loop points -/

theorem resampleX2_length (samples : Str) : (resampleX2 samples).length = 2 * samples.length - 1 := by
  fun_induction resampleX2 samples with
  | case1 => rfl
  | case2 last => rfl
  | case3 a b rest ih =>
    simp only [List.length_cons] at ih ⊢
    omega

/-- A sample of the file lies at twice its position. -/
theorem resampleX2_even (samples : Str) (i : Nat) : (resampleX2 samples)[2 * i]? = samples[i]? := by
  fun_induction resampleX2 samples generalizing i with
  | case1 => rfl
  | case2 last => cases i with
    | zero => rfl
    | succ i => simp [Nat.mul_succ]
  | case3 a b rest ih => cases i with
    | zero => rfl
    | succ i => simpa [Nat.mul_succ] using ih i

/-- Between two samples lies their mean. -/
theorem resampleX2_odd (samples : Str) (i : Nat) (a b : UInt8) (left : samples[i]? = some a)
    (right : samples[i + 1]? = some b) : (resampleX2 samples)[2 * i + 1]? = some (mean a b) := by
  fun_induction resampleX2 samples generalizing i with
  | case1 => simp at left
  | case2 last => simp at right
  | case3 c d rest ih => cases i with
    | zero =>
      simp only [List.getElem?_cons_zero,Option.some.injEq,zero_add,List.getElem?_cons_succ] at left right
      simp [left,right]
    | succ i => simpa [Nat.mul_succ] using ih i (by simpa using left) (by simpa using right)

/-- The parts meet where the loop points of the file lie in what is played; whether the second
point belongs to the loop is left open. -/
def Partitioned (played : Str) (start stop : Nat) (sample : WavSample) : Prop :=
  ∃ last, (last = 2 * stop ∨ last = 2 * stop + 1) ∧
    loopStart sample = .ok (played.take (2 * start)) ∧
    loop sample = .ok ((played.drop (2 * start)).take (last - 2 * start)) ∧
    loopEnd sample = .ok (played.drop last)

/-- A file of half the rate is resampled. -/
theorem toRate_half {samplerate : Int} {out : Str} {sound : Statics} (half : sound.sample_rate = 2 * samplerate)
    (fits : Fits32 sound.sample_rate) (rate : 0 < samplerate) (samples : out ≠ []) :
    toRate samplerate out sound = .ok (sound,resampleX2 out) := by
  have double : sound.sample_rate = add32 samplerate samplerate := by
    have same : samplerate + samplerate = sound.sample_rate := by omega
    rw [add32,same,signed32_pattern32 _ fits]
  unfold toRate
  rw [if_neg (by omega),if_neg (by omega),if_pos double,if_neg samples]

theorem load_half {file : Str} {sound : Statics} {sample : WavSample} {header : WavHeader} {out : Str}
    (read : readWav file = .ok (header,out)) (half : sound.sample_rate = 2 * header.samplerate)
    (fits : Fits32 sound.sample_rate) (rate : 0 < header.samplerate) (samples : out ≠ [])
    (looped : sample.loopEndPos ≠ 0) :
    ∃ sound', load file sound sample = .ok (sound',{ sample with wav := resampleX2 out }) := by
  have loaded : ∃ sound', loadWavFile file sound = .ok (sound',resampleX2 out) := by
    unfold loadWavFile
    rw [read]
    refine ⟨_,toRate_half ?_ ?_ rate samples⟩ <;> split <;> assumption
  obtain ⟨sound',loaded⟩ := loaded
  refine ⟨sound',?_⟩
  unfold load
  rw [loaded]
  change Except.ok (sound',if sample.loopEndPos = 0 then _ else _) = _
  rw [if_neg looped]

/-- The loop is as long as in the file, and so half as long as it has to be. -/
theorem loop_length {sample : WavSample} {part : Str} (start : 0 ≤ sample.loopStartPos)
    (order : sample.loopStartPos ≤ sample.loopEndPos) (inside : sample.loopEndPos ≤ sample.wav.length)
    (looped : loop sample = .ok part) : (part.length : Int) = sample.loopEndPos - sample.loopStartPos := by
  unfold loop at looped
  split at looped
  · exact nomatch looped
  · rw [substr,if_pos (by omega),if_pos (by omega)] at looped
    injection looped with looped
    rw [← looped,List.length_take,List.length_drop]
    omega

/-- No loop point of a file survives the resampling. -/
theorem load_half_parts (file : Str) (sound : Statics) (sample : WavSample) (header : WavHeader) (out : Str)
    (read : readWav file = .ok (header,out)) (half : sound.sample_rate = 2 * header.samplerate)
    (fits : Fits32 sound.sample_rate) (rate : 0 < header.samplerate) (start : 0 ≤ sample.loopStartPos)
    (order : sample.loopStartPos < sample.loopEndPos) (inside : sample.loopEndPos < out.length) :
    ∃ sound' sample', load file sound sample = .ok (sound',sample') ∧ sample'.wav = resampleX2 out ∧
      ¬ Partitioned (resampleX2 out) sample.loopStartPos.toNat sample.loopEndPos.toNat sample' := by
  have samples : out ≠ [] := by
    rintro rfl
    simp at inside
    omega
  obtain ⟨sound',loaded⟩ := load_half read half fits rate samples (show sample.loopEndPos ≠ 0 by omega)
  refine ⟨sound',_,loaded,rfl,?_⟩
  have played := resampleX2_length out
  rintro ⟨last,stop,-,looped,-⟩
  have length := @loop_length { sample with wav := resampleX2 out } _ start order.le
    (by simp only [played]; omega) looped
  rw [List.length_take,List.length_drop,played] at length
  simp only at length
  omega

def threeSamples : Str :=
  str "RIFF" ++ [39,0,0,0] ++ str "WAVE" ++ str "fmt " ++ [16,0,0,0,1,0,1,0,17,43,0,0,17,43,0,0,1,0,8,0] ++
    str "data" ++ [3,0,0,0,10,20,30]

theorem load_half_parts_three :
    ∃ sound' sample', load threeSamples { sample_rate := 22050 } { loopStartPos := 1, loopEndPos := 2 } =
        .ok (sound',sample') ∧ sample'.wav = [10,15,20,25,30] ∧
      ¬ Partitioned [10,15,20,25,30] 1 2 sample' :=
  load_half_parts threeSamples { sample_rate := 22050 } { loopStartPos := 1, loopEndPos := 2 }
    ⟨11025,8,3⟩ [10,20,30] (by decide +kernel) (by decide) (by decide) (by decide) (by decide) (by decide) (by decide)

/-- The loop is the mean before the sample it has to begin with. -/
theorem load_half_early :
    ∃ sound' sample', load threeSamples { sample_rate := 22050 } { loopStartPos := 1, loopEndPos := 2 } =
        .ok (sound',sample') ∧ loop sample' = .ok [15] ∧
      ¬ Partitioned (resampleX2 [10,20,30]) 1 2 sample' := by
  refine ⟨⟨22050,true⟩,⟨⟨NOT_SET,1,2⟩,[10,15,20,25,30]⟩,by decide +kernel,by decide,?_⟩
  rintro ⟨last,rfl | rfl,-,looped,-⟩
  · exact absurd looped (by decide)
  · exact absurd looped (by decide)

end Btcontrol.Sound
