import Btcontrol.Connections
import Btcontrol.LokdefText
import Btcontrol.SpeedRange
import Btcontrol.SrcpReplies
import Btcontrol.Words

/-! The commands of `srcp.cpp` as they are written to the socket, and srcpd's side of it: a stream cut
into lines, and each line read word by word. -/
namespace Btcontrol

open Bytes Exec ClientThread Words

def CMDBUFLEN : Nat := 256

/-- What `snprintf(buf, size, ...)` leaves of its output. -/
def snprintf (size : Nat) (output : Str) : Str := output.take (size - 1)

/-- One `bool` of `sendLocoSpeed` as `%d`. -/
def boolText (on : Bool) : Str := decimal (if on then 1 else 0)

def putFunc (buf : Str) (on : Bool) : Str :=
  buf ++ snprintf (CMDBUFLEN - 1 - buf.length) (str " " ++ boolText on)

namespace SrcpCmd

/-- The formats of `pwrOn`, `pwrOff`, `sendLocoInit`, `sendLocoSpeed`, `getInfo`, `sendPOM` and `sendPOMBit`, with
what the loop of `sendLocoSpeed` adds for each function. -/
def output : SrcpCmd → Str
  | .power on => if on then str "SET 1 POWER ON" else str "SET 1 POWER OFF"
  | .initGL addr protoversion nFahrstufen nFunc =>
    str "INIT 1 GL " ++ decimal addr ++ str " " ++ str "N" ++ str " " ++ decimal protoversion ++ str " " ++
      decimal nFahrstufen ++ str " " ++ decimal nFunc
  | .setGL addr dir speed nFahrstufen func =>
    str "SET 1 GL " ++ decimal addr ++ str " " ++ decimal dir ++ str " " ++ decimal speed ++ str " " ++
      decimal nFahrstufen ++ str " " ++ (func.map boolText).flatMap (fun word => 32 :: word)
  | .getGL addr => str "GET 1 GL " ++ decimal addr
  | .setCV addr cv value => str "SET 1 SM " ++ decimal addr ++ str " CV " ++ decimal cv ++ str " " ++ decimal value
  | .setCVBit addr cv bitNr value =>
    str "SET 1 SM " ++ decimal addr ++ str " CVBIT " ++ decimal cv ++ str " " ++ decimal bitNr ++ str " " ++
      boolText value

def text : SrcpCmd → Str
  | .power on => output (.power on)
  | .initGL addr protoversion nFahrstufen nFunc => snprintf 1024 (output (.initGL addr protoversion nFahrstufen nFunc))
  | .setGL addr dir speed nFahrstufen func =>
    func.foldl putFunc (snprintf (CMDBUFLEN - 1) (output (.setGL addr dir speed nFahrstufen [])))
  | cmd => snprintf (CMDBUFLEN - 1) cmd.output

/-- The numbers are `int`s and the functions fit into a record. -/
def Sound : SrcpCmd → Prop
  | .power _ => True
  | .initGL addr protoversion nFahrstufen nFunc =>
    Fits32 addr ∧ Fits32 protoversion ∧ Fits32 nFahrstufen ∧ Fits32 nFunc
  | .setGL addr dir speed nFahrstufen func =>
    Fits32 addr ∧ Fits32 dir ∧ Fits32 speed ∧ Fits32 nFahrstufen ∧ func.length ≤ MAX_NFUNC
  | .getGL addr => Fits32 addr
  | .setCV addr cv value => Fits32 addr ∧ Fits32 cv ∧ Fits32 value
  | .setCVBit addr cv bitNr _ => Fits32 addr ∧ Fits32 cv ∧ Fits32 bitNr

/-- A command word by word. -/
def words : SrcpCmd → List Str
  | .power on => [str "SET", str "1", str "POWER", if on then str "ON" else str "OFF"]
  | .initGL addr protoversion nFahrstufen nFunc =>
    [str "INIT", str "1", str "GL", decimal addr, str "N", decimal protoversion, decimal nFahrstufen, decimal nFunc]
  | .setGL addr dir speed nFahrstufen func =>
    [str "SET", str "1", str "GL", decimal addr, decimal dir, decimal speed, decimal nFahrstufen] ++ func.map boolText
  | .getGL addr => [str "GET", str "1", str "GL", decimal addr]
  | .setCV addr cv value => [str "SET", str "1", str "SM", decimal addr, str "CV", decimal cv, decimal value]
  | .setCVBit addr cv bitNr value =>
    [str "SET", str "1", str "SM", decimal addr, str "CVBIT", decimal cv, decimal bitNr, boolText value]

end SrcpCmd

/-! ### The reader -/

namespace Reader

def number (word : Str) : Option Int := if decimal (atoi word) = word then some (atoi word) else none

def natural (word : Str) : Option Nat := do
  let n ← number word
  if 0 ≤ n then some n.toNat else none

def flag (word : Str) : Option Bool :=
  if word = str "0" then some false else if word = str "1" then some true else none

def readInit : List Str → Option SrcpCmd
  | [addr, proto, protoversion, nFahrstufen, nFunc] =>
    if proto = str "N" then do
      return .initGL (← number addr) (← natural protoversion) (← natural nFahrstufen) (← number nFunc)
    else none
  | _ => none

def readSet : List Str → Option SrcpCmd
  | addr :: dir :: speed :: nFahrstufen :: func => do
    return .setGL (← number addr) (← natural dir) (← natural speed) (← natural nFahrstufen) (← func.mapM flag)
  | _ => none

def readGet : List Str → Option SrcpCmd
  | [addr] => do return .getGL (← number addr)
  | _ => none

def readProgramming : List Str → Option SrcpCmd
  | [addr, what, cv, value] =>
    if what = str "CV" then do return .setCV (← number addr) (← number cv) (← number value) else none
  | [addr, what, cv, bitNr, value] =>
    if what = str "CVBIT" then do
      return .setCVBit (← number addr) (← number cv) (← number bitNr) (← flag value)
    else none
  | _ => none

def readPower : List Str → Option SrcpCmd
  | [state] => if state = str "ON" then some (.power true) else if state = str "OFF" then some (.power false) else none
  | _ => none

/-- The words of a command to bus 1: the verb, the device group and its arguments. -/
def readWords : List Str → Option SrcpCmd
  | verb :: bus :: group :: args =>
    if bus ≠ str "1" then none
    else if verb = str "INIT" ∧ group = str "GL" then readInit args
    else if verb = str "SET" ∧ group = str "GL" then readSet args
    else if verb = str "GET" ∧ group = str "GL" then readGet args
    else if verb = str "SET" ∧ group = str "SM" then readProgramming args
    else if verb = str "SET" ∧ group = str "POWER" then readPower args
    else none
  | _ => none

def readCmd (text : Str) : Option SrcpCmd := readWords (words 32 text)

theorem number_decimal {n : Int} (fits : Fits32 n) : number (decimal n) = some n := by
  simp only [number,atoi_number fits,↓reduceIte]

theorem natural_decimal {n : Nat} (fits : Fits32 n) : natural (decimal n) = some n := by
  simp [natural,number_decimal fits]

theorem flag_boolText (on : Bool) : flag (boolText on) = some on := by
  cases on <;> rfl

theorem flags_boolText (func : List Bool) : (func.map boolText).mapM flag = some func := by
  induction func with
  | nil => rfl
  | cons on func ih => simp [List.mapM_cons,flag_boolText,ih]

/-- Every command is read from its words. -/
theorem readWords_words {cmd : SrcpCmd} (sound : cmd.Sound) : readWords cmd.words = some cmd := by
  cases cmd with
  | power on => cases on <;> rfl
  | initGL addr protoversion nFahrstufen nFunc =>
    obtain ⟨addrFits,version,steps,functions⟩ := sound
    show readInit [decimal addr, str "N", decimal protoversion, decimal nFahrstufen, decimal nFunc] = _
    simp [readInit,number_decimal addrFits,natural_decimal version,natural_decimal steps,number_decimal functions]
  | setGL addr dir speed nFahrstufen func =>
    obtain ⟨addrFits,dirFits,speedFits,steps,_⟩ := sound
    show readSet (decimal addr :: decimal dir :: decimal speed :: decimal nFahrstufen :: func.map boolText) = _
    simp only [readSet,number_decimal addrFits,natural_decimal dirFits,natural_decimal speedFits,natural_decimal steps,
      flags_boolText]
    rfl
  | getGL addr =>
    show readGet [decimal addr] = _
    simp [readGet,number_decimal sound]
  | setCV addr cv value =>
    obtain ⟨addrFits,cvFits,valueFits⟩ := sound
    show readProgramming [decimal addr, str "CV", decimal cv, decimal value] = _
    simp [readProgramming,number_decimal addrFits,number_decimal cvFits,number_decimal valueFits]
  | setCVBit addr cv bitNr value =>
    obtain ⟨addrFits,cvFits,bitFits⟩ := sound
    show readProgramming [decimal addr, str "CVBIT", decimal cv, decimal bitNr, boolText value] = _
    simp [readProgramming,number_decimal addrFits,number_decimal cvFits,number_decimal bitFits,flag_boolText]

end Reader

/-! ### Words and lines of the texts -/

theorem decimal_some (n : Int) : decimal n ≠ [] := by
  simp [decimal,Nat.toDigits_ne_nil]

/-- Neither a blank nor a newline in a number. -/
theorem decimal_inside (n : Int) {c : UInt8} (below : c < 45) : c ∉ decimal n := by
  intro member
  rcases decimal_bytes n c member with rfl | ⟨low,_⟩
  · exact absurd below (by decide)
  · rw [UInt8.le_iff_toNat_le] at low
    rw [UInt8.lt_iff_toNat_lt] at below
    have ends : (48 : UInt8).toNat = 48 ∧ (45 : UInt8).toNat = 45 := ⟨rfl,rfl⟩
    omega

theorem snprintf_fits {size : Nat} {output : Str} (fits : output.length < size) : snprintf size output = output :=
  List.take_of_length_le (by omega)

theorem boolText_length (on : Bool) : (boolText on).length = 1 := by
  cases on <;> rfl

/-- No function is cut off where all have room. -/
theorem putFuncs_fit (func : List Bool) (buf : Str) (fits : buf.length + 2 * func.length < CMDBUFLEN - 1) :
    func.foldl putFunc buf = buf ++ (func.map boolText).flatMap (fun word => 32 :: word) := by
  induction func generalizing buf with
  | nil => simp
  | cons on func ih =>
    rw [List.length_cons] at fits
    have room : (str " " ++ boolText on).length < CMDBUFLEN - 1 - buf.length := by
      rw [List.length_append,boolText_length,show (str " ").length = 1 from rfl]
      omega
    have put : putFunc buf on = buf ++ (32 :: boolText on) := by
      rw [putFunc,snprintf_fits room]
      rfl
    rw [List.foldl_cons,put,ih,List.map_cons,List.flatMap_cons,List.append_assoc]
    rw [List.length_append,List.length_cons,boolText_length]
    omega

namespace SrcpCmd

/-- No command is cut by its buffer. -/
theorem text_whole {cmd : SrcpCmd} (sound : cmd.Sound) : cmd.text = cmd.output := by
  cases cmd with
  | power on => rfl
  | initGL addr protoversion nFahrstufen nFunc =>
    obtain ⟨addrFits,version,steps,functions⟩ := sound
    have lengths := And.intro (decimal_length addrFits) (And.intro (decimal_length version)
      (And.intro (decimal_length steps) (decimal_length functions)))
    have literals : (str "INIT 1 GL ").length = 10 ∧ (str " ").length = 1 ∧ (str "N").length = 1 := ⟨rfl,rfl,rfl⟩
    apply snprintf_fits
    simp only [output,List.length_append]
    omega
  | setGL addr dir speed nFahrstufen func =>
    obtain ⟨addrFits,dirFits,speedFits,steps,few⟩ := sound
    have lengths := And.intro (decimal_length addrFits) (And.intro (decimal_length dirFits)
      (And.intro (decimal_length speedFits) (decimal_length steps)))
    have literals : (str "SET 1 GL ").length = 9 ∧ (str " ").length = 1 := ⟨rfl,rfl⟩
    have most : MAX_NFUNC = 32 := rfl
    have buffer : CMDBUFLEN = 256 := rfl
    have head : (output (.setGL addr dir speed nFahrstufen [])).length < 64 := by
      simp only [output,List.length_append,List.map_nil,List.flatMap_nil,List.length_nil]
      omega
    rw [text,snprintf_fits (by omega),putFuncs_fit _ _ (by omega)]
    simp [output]
  | getGL addr =>
    have length := decimal_length sound
    have literal : (str "GET 1 GL ").length = 9 := rfl
    have buffer : CMDBUFLEN = 256 := rfl
    apply snprintf_fits
    simp only [output,List.length_append]
    omega
  | setCV addr cv value =>
    obtain ⟨addrFits,cvFits,valueFits⟩ := sound
    have lengths := And.intro (decimal_length addrFits) (And.intro (decimal_length cvFits) (decimal_length valueFits))
    have literals : (str "SET 1 SM ").length = 9 ∧ (str " CV ").length = 4 ∧ (str " ").length = 1 := ⟨rfl,rfl,rfl⟩
    have buffer : CMDBUFLEN = 256 := rfl
    apply snprintf_fits
    simp only [output,List.length_append]
    omega
  | setCVBit addr cv bitNr value =>
    obtain ⟨addrFits,cvFits,bitFits⟩ := sound
    have lengths := And.intro (decimal_length addrFits) (And.intro (decimal_length cvFits) (decimal_length bitFits))
    have literals : (str "SET 1 SM ").length = 9 ∧ (str " CVBIT ").length = 7 ∧ (str " ").length = 1 := ⟨rfl,rfl,rfl⟩
    have last := boolText_length value
    have buffer : CMDBUFLEN = 256 := rfl
    apply snprintf_fits
    simp only [output,List.length_append]
    omega

end SrcpCmd

theorem words_decimal (n : Int) : words 32 (decimal n) = [decimal n] :=
  words_word (decimal_some n) (decimal_inside n (by decide))

theorem boolText_good (on : Bool) : boolText on ≠ [] ∧ 32 ∉ boolText on := by
  cases on <;> decide

namespace SrcpCmd

theorem words_output (cmd : SrcpCmd) : Words.words 32 cmd.output = cmd.words := by
  cases cmd with
  | power on => cases on <;> rfl
  | initGL addr protoversion nFahrstufen nFunc =>
    have shape : output (.initGL addr protoversion nFahrstufen nFunc) = str "INIT" ++ 32 :: (str "1" ++ 32 ::
        (str "GL" ++ 32 :: (decimal addr ++ 32 :: (str "N" ++ 32 :: (decimal protoversion ++ 32 ::
          (decimal nFahrstufen ++ 32 :: decimal nFunc)))))) := by
      simp [output,str]
      rfl
    rw [shape]
    simp only [words_append,words_decimal]
    rfl
  | setGL addr dir speed nFahrstufen func =>
    have shape : output (.setGL addr dir speed nFahrstufen func) = (str "SET" ++ 32 :: (str "1" ++ 32 ::
        (str "GL" ++ 32 :: (decimal addr ++ 32 :: (decimal dir ++ 32 :: (decimal speed ++ 32 ::
          (decimal nFahrstufen ++ 32 :: []))))))) ++ (func.map boolText).flatMap (fun word => 32 :: word) := by
      simp [output,str]
      rfl
    have good : ∀ word ∈ func.map boolText, word ≠ [] ∧ 32 ∉ word := by
      intro word member
      obtain ⟨on,_,rfl⟩ := List.mem_map.mp member
      exact boolText_good on
    rw [shape,words_flatMap good]
    simp only [words_append,words_decimal,words_nil]
    rfl
  | getGL addr =>
    have shape : output (.getGL addr) = str "GET" ++ 32 :: (str "1" ++ 32 :: (str "GL" ++ 32 :: decimal addr)) := by
      simp [output,str]
      rfl
    rw [shape]
    simp only [words_append,words_decimal]
    rfl
  | setCV addr cv value =>
    have shape : output (.setCV addr cv value) = str "SET" ++ 32 :: (str "1" ++ 32 :: (str "SM" ++ 32 ::
        (decimal addr ++ 32 :: (str "CV" ++ 32 :: (decimal cv ++ 32 :: decimal value))))) := by
      simp [output,str]
      rfl
    rw [shape]
    simp only [words_append,words_decimal]
    rfl
  | setCVBit addr cv bitNr value =>
    have shape : output (.setCVBit addr cv bitNr value) = str "SET" ++ 32 :: (str "1" ++ 32 :: (str "SM" ++ 32 ::
        (decimal addr ++ 32 :: (str "CVBIT" ++ 32 :: (decimal cv ++ 32 :: (decimal bitNr ++ 32 :: boolText value)))))) := by
      simp [output,str]
      rfl
    rw [shape]
    simp only [words_append,words_decimal,words_word (boolText_good value).1 (boolText_good value).2]
    rfl

/-- Every command is one line. -/
theorem output_line (cmd : SrcpCmd) : 10 ∉ cmd.output := by
  have inside (n : Int) : 10 ∉ decimal n := decimal_inside n (by decide)
  have bools (on : Bool) : 10 ∉ boolText on := by cases on <;> decide
  cases cmd with
  | power on => cases on <;> decide
  | setGL addr dir speed nFahrstufen func =>
    have funcs : 10 ∉ (func.map boolText).flatMap (fun word => 32 :: word) := by
      intro member
      obtain ⟨_,word,inside⟩ := List.mem_flatMap.mp member
      obtain ⟨on,_,rfl⟩ := List.mem_map.mp word
      rcases List.mem_cons.mp inside with blank | digit
      · exact absurd blank (by decide)
      · exact bools on digit
    simp only [output,List.mem_append,inside,funcs,or_false]
    decide
  | initGL addr protoversion nFahrstufen nFunc =>
    simp only [output,List.mem_append,inside,or_false]
    decide
  | getGL addr =>
    simp only [output,List.mem_append,inside,or_false]
    decide
  | setCV addr cv value =>
    simp only [output,List.mem_append,inside,or_false]
    decide
  | setCVBit addr cv bitNr value =>
    simp only [output,List.mem_append,inside,bools,or_false]
    decide

end SrcpCmd

/-- srcpd reads a command from its text. -/
theorem readCmd_text {cmd : SrcpCmd} (sound : cmd.Sound) : Reader.readCmd cmd.text = some cmd := by
  rw [Reader.readCmd,SrcpCmd.text_whole sound,SrcpCmd.words_output,Reader.readWords_words sound]

end Btcontrol
