import Btcontrol.Exec
import Btcontrol.Java
import Btcontrol.Lokdef
import Btcontrol.Numbering
import Btcontrol.Protocol

/-! `load` of the C++ and of the Java `MessageLayouts`: protocol.dat is read line by line, a
message is numbered by the place of its line, and the hash is the sum of the bytes of all lines
that are not comments. Client and server compare only the hash. -/
namespace Btcontrol

open DataType Bytes Numbering

def lineHash (line : Str) : Nat := (line.map UInt8.toNat).sum

/-- The name before the next '=' and the layout behind it; `missing` where there is none. -/
def identified {ε : Type} (missing : ε) (parse : Str → Except ε (MessageLayout × Str)) (pos : Str) :
    Except ε (Option (Str × MessageLayout)) :=
  match pos.dropWhile (· ≠ 61) with
  | [] => .error missing
  | _ :: rest => do
    let (layout, _) ← parse rest
    return some (pos.takeWhile (· ≠ 61), layout)

/-- The variables of the loop over the lines. -/
structure Loading where
  hash : Nat := 0
  typeNr : Nat := STRUCT + 1
  entries : List (Str × MessageLayout) := []

def loadLine {ε : Type} (definition : Str → Except ε (Option (Str × MessageLayout)))
    (put : Str → MessageLayout → List (Str × MessageLayout) → List (Str × MessageLayout))
    (loading : Loading) (line : Str) : Except ε Loading :=
  if line.head? = some 35 then .ok loading                             -- '#'
  else do
    let hash := loading.hash + lineHash line
    match ← definition line with
    | none => return { loading with hash }
    | some (name, layout) => return {
        hash
        typeNr := loading.typeNr + 1
        entries := put name (layout.numbered loading.typeNr) loading.entries }

/-- The sum as an `int`, where it wraps around. -/
def Loading.intHash (loading : Loading) : Int := signed32 (loading.hash % 2 ^ 32)

/-- What a line defines: nothing where it is blank, else the message it has to name. `unassigned`
tells what the type of a field is left with where the line ends behind its colon. -/
def definition (unassigned : Str → Nat) (line : Str) : Except Err (Option (Str × MessageLayout)) :=
  match line.dropWhile isspace with
  | [] => .ok none
  | pos => identified .invalidIdentifier (parseMessageLayout (unassigned line)) pos

def mapPut (name : Str) (layout : MessageLayout) :
    List (Str × MessageLayout) → List (Str × MessageLayout)
  | [] => [(name, layout)]
  | (other, old) :: rest =>
    if other = name then (other, layout) :: rest
    else if name < other then (name, layout) :: (other, old) :: rest
    else (other, old) :: mapPut name layout rest

/-- `MessageLayouts::load`, with the text of protocol.dat. -/
def load (unassigned : Str → Nat) (messageLayouts : MessageLayouts) (protocolDat : Str) :
    Except Err (Int × MessageLayouts) :=
  if messageLayouts.loaded then .ok (0, messageLayouts)
  else do
    let lines := (getlines [] protocolDat).map (fun line => line.takeWhile (· ≠ 0))
    let loading ← lines.foldlM (loadLine (definition unassigned) mapPut) { entries := messageLayouts.entries }
    return (loading.intHash, ⟨loading.entries, loading.intHash, true⟩)

/-- The lines of protocol.dat that are not comments. -/
def protocolLines : List String := [
  "HELO=protohash:I,name:S,version:S",
  "HELO_ERR=protohash:I,doupdate:I",
  "PING=",
  "STATUS_REPLY=info:A\x7baddr:I,speed:I,functions:I\x7d",
  "ACC=addr:I",
  "BREAK=addr:I",
  "DIR=addr:I,dir:I",
  "STOP=addr:I",
  "ACC_MULTI=list:A\x7baddr:I\x7d",
  "BREAK_MULTI=list:A\x7baddr:I\x7d",
  "DIR_MULTI=dir:I,list:A\x7baddr:I\x7d",
  "STOP_MULTI=list:A\x7baddr:I\x7d",
  "SETFUNC=addr:I,funcnr:I,value:I",
  "POWER=value:I",
  "POWER_REPLY=value:I",
  "GETFUNCTIONS=addr:I",
  "GETFUNCTIONS_REPLY=info:A\x7bname:S,value:I,imgname:S\x7d",
  "GETLOCOS=",
  "GETLOCOS_REPLY=info:A\x7bname:S,addr:I,imgname:S,speed:I,functions:I\x7d",
  "POM=addr:I,cv:I,value:I",
  "POM_REPLY=value:I",
  "POMBIT=addr:I,cv:I,bit:I,value:I",
  "POMBIT_REPLY=value:I",
  "GETIMAGE=imgname:S",
  "GETIMAGE_REPLY=img:S",
  "BTSCAN=",
  "BTSCAN_REPLY=info:A\x7baddr:S,name:S\x7d",
  "BTPUSH=addr:S,type:I",
  "BTPUSH_REPLY=rc:I",
  "version=1.0:I"]

/-- protocol.dat is loaded into the table of `Protocol`. -/
example :
    (load (fun _ => UNDEF) { entries := [] } (protocolLines.flatMap (fun line => str line ++ [10]))).toOption =
      some (60178,protocolDat) := by
  decide +kernel

namespace Java

/-- `myReadLn` until it returns null. Behind a '\r' the next byte is taken whatever it is; at the
end of the file that is `(char)-1`, whose low byte is all that is ever used of it. -/
def myReadLns (ret : Str) : Str → List Str
  | [] => if ret = [] then [] else [ret]
  | [13] => [ret ++ [255]]
  | 13 :: i :: rest => if i = 10 then ret :: myReadLns [] rest else myReadLns (ret ++ [i]) rest
  | i :: rest => if i = 10 then ret :: myReadLns [] rest else myReadLns (ret ++ [i]) rest

/-- Without an '=' the search runs past the end of the line and on for ever. -/
def definition (line : Str) : Except Err (Option (Str × MessageLayout)) :=
  match line.dropWhile (· = 32) with
  | [] => .ok none
  | pos => identified .endless parse pos

/-- `MessageLayouts.load`: the hash and the table it leaves. -/
def load (protocolFile : Str) : Except Err (Int × MessageLayouts) := do
  let loading ← (myReadLns [] protocolFile).foldlM (loadLine definition put) {}
  return (loading.intHash, loading.entries)

mutual
/-- The C++ layout for a Java one: the fields of an array leave the struct that holds them. -/
def plain : MessageLayout → MessageLayout
  | .mk type name childLayout =>
    .mk type name (if type = ARRAY then unwrapped childLayout else plains childLayout)

def unwrapped : List MessageLayout → List MessageLayout
  | [] => []
  | .mk _ _ childLayout :: _ => plains childLayout

def plains : List MessageLayout → List MessageLayout
  | [] => []
  | it :: rest => plain it :: plains rest
end

end Java

/-! ### The loop over the lines -/

def isMessage (line : Str) : Bool := line.head? ≠ some 35

def layouts {ε : Type} (definition : Str → Except ε (Option (Str × MessageLayout)))
    (lines : List Str) : List (Str × MessageLayout) :=
  (lines.filter isMessage).filterMap (fun line => match definition line with
    | .ok (some it) => some it
    | _ => none)

/-- The messages that lines define, in order, with their fields. -/
def definitions {ε : Type} (definition : Str → Except ε (Option (Str × MessageLayout)))
    (lines : List Str) : List (Str × List MessageLayout) :=
  (lines.filter isMessage).filterMap (fun line => match definition line with
    | .ok (some (name, layout)) => some (name, layout.childLayouts)
    | _ => none)

/-- The number and the fields a table has for a name. -/
def assigns (entries : List (Str × MessageLayout)) (name : Str) : Option (Nat × List MessageLayout) :=
  (entries.lookup name).map (fun layout => (layout.type, layout.childLayouts))

theorem lookup_cons (first : Str × MessageLayout) (rest : List (Str × MessageLayout)) (wanted : Str) :
    (first :: rest).lookup wanted = if first.1 = wanted then some first.2 else rest.lookup wanted := by
  by_cases same : first.1 = wanted
  · simp [List.lookup,same]
  · have : (wanted == first.1) = false := beq_false_of_ne (Ne.symm same)
    simp [List.lookup,same,this]

/-- Tests for two different keys can change places. -/
theorem ite_ite_swap {α : Type} {a b wanted : Str} (differ : a ≠ b) {x y z : α} :
    (if a = wanted then x else if b = wanted then y else z) =
      if b = wanted then y else if a = wanted then x else z := by
  by_cases same : a = wanted
  · subst same
    simp [Ne.symm differ]
  · simp [same]

theorem mapPut_lookup (name wanted : Str) (layout : MessageLayout)
    (entries : List (Str × MessageLayout)) :
    (mapPut name layout entries).lookup wanted =
      if name = wanted then some layout else entries.lookup wanted := by
  induction entries with
  | nil => simp only [mapPut,lookup_cons,List.lookup_nil]
  | cons first rest ih =>
    simp only [mapPut]
    split
    · rename_i same
      subst same
      simp only [lookup_cons]
      split <;> rfl
    · rename_i differ
      split
      · simp only [lookup_cons]
      · simp only [lookup_cons,ih]
        exact ite_ite_swap differ

theorem Java.put_lookup (name wanted : Str) (layout : MessageLayout)
    (entries : List (Str × MessageLayout)) :
    (put name layout entries).lookup wanted =
      if name = wanted then some layout else entries.lookup wanted := by
  induction entries with
  | nil => simp only [put,lookup_cons,List.lookup_nil]
  | cons first rest ih =>
    simp only [put]
    split
    · rename_i same
      subst same
      simp only [lookup_cons]
      split <;> rfl
    · rename_i differ
      simp only [lookup_cons,ih]
      exact ite_ite_swap differ

section
variable {ε : Type} {definition : Str → Except ε (Option (Str × MessageLayout))}
  {put : Str → MessageLayout → List (Str × MessageLayout) → List (Str × MessageLayout)}
  (stores : ∀ name wanted layout entries, (put name layout entries).lookup wanted =
    if name = wanted then some layout else entries.lookup wanted)

/-- What one line changes. -/
theorem loadLine_cases {loading loaded : Loading} {line : Str}
    (ran : loadLine definition put loading line = .ok loaded) :
    (isMessage line = false ∧ loaded = loading) ∨
    (isMessage line = true ∧ definition line = .ok none ∧
      loaded = { loading with hash := loading.hash + lineHash line }) ∨
    ∃ name layout, isMessage line = true ∧ definition line = .ok (some (name,layout)) ∧
      loaded = {
        hash := loading.hash + lineHash line
        typeNr := loading.typeNr + 1
        entries := put name (layout.numbered loading.typeNr) loading.entries } := by
  simp only [loadLine] at ran
  split at ran
  · rename_i comment
    cases ran
    exact .inl ⟨by simp [isMessage,comment],rfl⟩
  · rename_i noComment
    have message : isMessage line = true := by simpa [isMessage] using noComment
    obtain ⟨found,defined,ran⟩ := Exec.ok_of_bind ran
    cases found with
    | none =>
      cases ran
      exact .inr (.inl ⟨message,defined,rfl⟩)
    | some found =>
      cases ran
      exact .inr (.inr ⟨found.1,found.2,message,defined,rfl⟩)

theorem layouts_cons (line : Str) (rest : List Str) :
    layouts definition (line :: rest) = layouts definition [line] ++ layouts definition rest := by
  simp only [layouts,← List.filterMap_append,← List.filter_append,List.singleton_append]

theorem layouts_comment {line : Str} (comment : isMessage line = false) :
    layouts definition [line] = [] := by
  simp [layouts,comment]

theorem layouts_blank {line : Str} (blank : definition line = .ok none) :
    layouts definition [line] = [] := by
  cases message : isMessage line <;> simp [layouts,message,blank]

theorem layouts_message {line name : Str} {layout : MessageLayout}
    (message : isMessage line = true) (defined : definition line = .ok (some (name,layout))) :
    layouts definition [line] = [(name,layout)] := by
  simp [layouts,message,defined]

theorem definitions_eq (lines : List Str) :
    definitions definition lines = (layouts definition lines).map (Prod.map id MessageLayout.childLayouts) := by
  simp only [definitions,layouts,List.map_filterMap]
  apply List.filterMap_congr
  intro line _
  split
  · rename_i name layout found
    simp [found]
  · rename_i nothing
    cases found : definition line with
    | error e => rfl
    | ok it =>
      cases it with
      | none => rfl
      | some it => exact absurd found (nothing it.1 it.2)

/-- The table after the loop: what the lines define, numbered, and what they leave alone. -/
theorem loadLines_lookup {lines : List Str} {loading loaded : Loading}
    (stores : ∀ name wanted layout entries, (put name layout entries).lookup wanted =
      if name = wanted then some layout else entries.lookup wanted)
    (ran : lines.foldlM (loadLine definition put) loading = .ok loaded) (name : Str) :
    loaded.entries.lookup name =
      ((assigned loading.typeNr (layouts definition lines) name).map (fun it => it.2.numbered it.1)).or
        (loading.entries.lookup name) := by
  induction lines generalizing loading with
  | nil =>
    cases ran
    rfl
  | cons line rest ih =>
    obtain ⟨next,first,ran⟩ := Exec.ok_of_bind ran
    rw [ih ran,layouts_cons]
    obtain ⟨comment,rfl⟩ | ⟨_,blank,rfl⟩ | ⟨other,layout,message,defined,rfl⟩ := loadLine_cases first
    · rw [layouts_comment comment]
      rfl
    · rw [layouts_blank blank]
      rfl
    · rw [layouts_message message defined]
      simp only [stores,List.singleton_append,assigned,Option.map_or,Option.or_assoc]
      split <;> rfl

theorem loadLines_assigns {lines : List Str} {loading loaded : Loading}
    (stores : ∀ name wanted layout entries, (put name layout entries).lookup wanted =
      if name = wanted then some layout else entries.lookup wanted)
    (ran : lines.foldlM (loadLine definition put) loading = .ok loaded) (name : Str) :
    assigns loaded.entries name =
      (assigned loading.typeNr (definitions definition lines) name).or
        (assigns loading.entries name) := by
  rw [definitions_eq,assigned_map,assigns,loadLines_lookup stores ran,Option.map_or,Option.map_map]
  rfl

/-- The sum after the loop. -/
theorem loadLines_hash {lines : List Str} {loading loaded : Loading}
    (ran : lines.foldlM (loadLine definition put) loading = .ok loaded) :
    loaded.hash = loading.hash + ((lines.filter isMessage).map lineHash).sum := by
  induction lines generalizing loading with
  | nil =>
    cases ran
    rfl
  | cons line rest ih =>
    obtain ⟨next,first,ran⟩ := Exec.ok_of_bind ran
    rw [ih ran]
    obtain ⟨comment,rfl⟩ | ⟨message,_,rfl⟩ | ⟨_,_,message,_,rfl⟩ := loadLine_cases first
    · simp [comment]
    · simp [message,Nat.add_assoc]
    · simp [message,Nat.add_assoc]

end

/-! ### Client and server -/

inductive Side where
  | cpp (unassigned : Str → Nat)
  | java

namespace Side

/-- The lines of a file, as its loop sees them. -/
def lines : Side → Str → List Str
  | cpp _, file => (getlines [] file).map (fun line => line.takeWhile (· ≠ 0))
  | java, file => Java.myReadLns [] file

def load : Side → Str → Option (Int × List (Str × MessageLayout))
  | cpp unassigned, file => (Btcontrol.load unassigned { entries := [] } file).toOption.map (fun it => (it.1, it.2.entries))
  | java, file => (Java.load file).toOption

def fields : Side → List MessageLayout → List MessageLayout
  | cpp _ => id
  | java => Java.plains

def messages : Side → Str → List (Str × List MessageLayout)
  | cpp unassigned, file => definitions (definition unassigned) ((cpp unassigned).lines file)
  | java, file => (definitions Java.definition (java.lines file)).map (Prod.map id Java.plains)

/-- The number and the fields a program uses for a message name. -/
def uses (side : Side) (entries : List (Str × MessageLayout)) (name : Str) :
    Option (Nat × List MessageLayout) :=
  (assigns entries name).map (Prod.map id side.fields)

theorem cpp_loaded {unassigned : Str → Nat} {file : Str} {loaded : Int × List (Str × MessageLayout)}
    (ran : (cpp unassigned).load file = some loaded) :
    ∃ loading, ((cpp unassigned).lines file).foldlM (loadLine (definition unassigned) mapPut) {} = .ok loading ∧
      loaded = (loading.intHash,loading.entries) := by
  obtain ⟨it,returned,rfl⟩ := Option.map_eq_some_iff.mp ran
  obtain ⟨loading,loop,result⟩ := Exec.ok_of_bind (Exec.ok_of_toOption returned)
  cases result
  exact ⟨loading,loop,rfl⟩

theorem java_loaded {file : Str} {loaded : Int × List (Str × MessageLayout)}
    (ran : java.load file = some loaded) :
    ∃ loading, (java.lines file).foldlM (loadLine Java.definition Java.put) {} = .ok loading ∧
      loaded = (loading.intHash,loading.entries) := by
  obtain ⟨loading,loop,result⟩ := Exec.ok_of_bind (Exec.ok_of_toOption ran)
  cases result
  exact ⟨loading,loop,rfl⟩

theorem load_hash {side : Side} {file : Str} {loaded : Int × List (Str × MessageLayout)}
    (ran : side.load file = some loaded) :
    loaded.1 = signed32 ((((side.lines file).filter isMessage).map lineHash).sum % 2 ^ 32) := by
  cases side with
  | cpp unassigned =>
    obtain ⟨loading,loop,rfl⟩ := cpp_loaded ran
    simp only [Loading.intHash,loadLines_hash loop,Nat.zero_add]
  | java =>
    obtain ⟨loading,loop,rfl⟩ := java_loaded ran
    simp only [Loading.intHash,loadLines_hash loop,Nat.zero_add]

/-- The hash sees no order: files with the same lines in any order have the same. -/
theorem load_hash_perm {client server : Side} {mine theirs : Str}
    {c s : Int × List (Str × MessageLayout)} (clientLoaded : client.load mine = some c)
    (serverLoaded : server.load theirs = some s)
    (sameLines : (client.lines mine).Perm (server.lines theirs)) : c.1 = s.1 := by
  have sums := ((sameLines.filter isMessage).map lineHash).sum_eq
  rw [load_hash clientLoaded,load_hash serverLoaded,sums]

/-- Every name has the number of its last line and the fields written there. -/
theorem load_uses {side : Side} {file : Str} {loaded : Int × List (Str × MessageLayout)}
    (ran : side.load file = some loaded) (name : Str) :
    side.uses loaded.2 name = assigned (STRUCT + 1) (side.messages file) name := by
  cases side with
  | cpp unassigned =>
    obtain ⟨loading,loop,rfl⟩ := cpp_loaded ran
    simp only [uses,messages,loadLines_assigns mapPut_lookup loop]
    simp [assigns,fields]
  | java =>
    obtain ⟨loading,loop,rfl⟩ := java_loaded ran
    simp only [uses,messages,loadLines_assigns Java.put_lookup loop,assigned_map]
    simp [assigns,fields]

end Side

/-- Client and server have loaded their files and the HELO check finds the hashes equal. -/
structure Connected (client server : Side) (mine theirs : Str)
    (c s : Int × List (Str × MessageLayout)) : Prop where
  clientLoaded : client.load mine = some c
  serverLoaded : server.load theirs = some s
  sameHash : c.1 = s.1

theorem connected_of_hashes {client server : Side} {mine theirs : Str} (hash : Int)
    (clientHash : (client.load mine).map Prod.fst = some hash)
    (serverHash : (server.load theirs).map Prod.fst = some hash) :
    ∃ c s, Connected client server mine theirs c s := by
  obtain ⟨c,clientLoaded,rfl⟩ := Option.map_eq_some_iff.mp clientHash
  obtain ⟨s,serverLoaded,same⟩ := Option.map_eq_some_iff.mp serverHash
  exact ⟨c,s,clientLoaded,serverLoaded,same.symm⟩

/-- Behind the HELO check the two programs use the same number and the same fields for every name
exactly if their files define the same messages at the same places. -/
theorem same_protocol_iff {client server : Side} {mine theirs : Str}
    {c s : Int × List (Str × MessageLayout)} (connected : Connected client server mine theirs c s) :
    (∀ name, client.uses c.2 name = server.uses s.2 name) ↔
      standing (client.messages mine) = standing (server.messages theirs) := by
  rw [← assigned_eq_iff (STRUCT + 1)]
  apply forall_congr'
  intro name
  rw [Side.load_uses connected.clientLoaded,Side.load_uses connected.serverLoaded]

def commentedDat : Str := str "HELO=protohash:I,name:S,version:S\n# beschleunigen\nACC=addr:I\nBREAK=addr:I\n"
def bareDat : Str := str "HELO=protohash:I,name:S,version:S\nACC=addr:I\nBREAK=addr:I\n"
def exchangedDat : Str := str "HELO=protohash:I,name:S,version:S\nBREAK=addr:I\nACC=addr:I\n"

theorem same_protocol_commented :
    ∃ c s, Connected .java (.cpp (fun _ => UNDEF)) commentedDat bareDat c s ∧
      ∀ name, Side.java.uses c.2 name = (Side.cpp (fun _ => UNDEF)).uses s.2 name := by
  have connected : ∃ c s, Connected .java (.cpp (fun _ => UNDEF)) commentedDat bareDat c s :=
    connected_of_hashes 4795 (by decide +kernel) (by decide +kernel)
  obtain ⟨c,s,connected⟩ := connected
  exact ⟨c,s,connected,(same_protocol_iff connected).mpr (by decide +kernel)⟩

/-- The bytes of the exchanged lines add up to the same hash, and ACC and BREAK change numbers. -/
theorem exchanged_lines_accepted :
    ¬ ∀ client server mine theirs c s, Connected client server mine theirs c s →
      ∀ name, client.uses c.2 name = server.uses s.2 name := by
  intro protects
  have loads : ((Side.cpp (fun _ => UNDEF)).load bareDat).isSome = true ∧
      ((Side.cpp (fun _ => UNDEF)).load exchangedDat).isSome = true := by decide +kernel
  obtain ⟨c,clientLoaded⟩ := Option.isSome_iff_exists.mp loads.1
  obtain ⟨s,serverLoaded⟩ := Option.isSome_iff_exists.mp loads.2
  have connected : Connected (.cpp (fun _ => UNDEF)) (.cpp (fun _ => UNDEF)) bareDat exchangedDat c s :=
    ⟨clientLoaded,serverLoaded,Side.load_hash_perm clientLoaded serverLoaded (by decide +kernel)⟩
  have same := protects (.cpp (fun _ => UNDEF)) (.cpp (fun _ => UNDEF)) bareDat exchangedDat c s connected (str "ACC")
  rw [Side.load_uses connected.clientLoaded,Side.load_uses connected.serverLoaded] at same
  revert same
  decide +kernel

end Btcontrol
