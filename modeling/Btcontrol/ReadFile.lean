import Btcontrol.Paths
import Btcontrol.ClientThread

/-! `readFile` of `utils.cpp`, and the GETIMAGE branch over a file system: which files the name from the network can
reach. -/
namespace Btcontrol

open Paths FBTCtlMessage ClientThread Exec

/-- What a C function sees of a `std::string`. -/
def cStr (s : Str) : Str := s.takeWhile (· ≠ 0)

/-- Where the server runs: its working directory, and `dirname` of what `/proc/self/exe` links to. -/
structure Process where
  cwd : Place
  linkpath : Str
  exe : Place
  absolute : linkpath.head? = some 47
  nulFree : 0 ∉ linkpath

/-- Both directories are there. -/
structure Runs (fs : FileSystem) (p : Process) : Prop where
  cwd : fs.isDir p.cwd = true
  linkpath : lookup fs [] (components p.linkpath) = some p.exe
  exe : fs.isDir p.exe = true

def padded (size : Nat) (content : Str) : Str := content.take size ++ List.replicate (size - content.length) 0

/-- `readFile` once `stat` has found the file. A directory can be opened, and gives nothing to `fread`. -/
def readNode (filename : Str) (node : Node) : Except Err Str :=
  match node with
  | .file readable st_size content =>
    if !readable then .error (.fileError filename)
    else if (str "/proc/").isPrefixOf filename then .ok (padded (1024 * (content.length / 1024 + 1)) content)
    else .ok (padded st_size content)
  | .dir st_size => .ok (padded (if (str "/proc/").isPrefixOf filename then 1024 else st_size) [])

def readFile (fs : FileSystem) (p : Process) (filename : Str) : Except Err Str :=
  match stat fs p.cwd (cStr filename) with
  | some node => readNode filename node
  | none =>
    let filename2 := p.linkpath ++ 47 :: filename
    match stat fs p.cwd (cStr filename2) with
    | some node => readNode filename node
    | none => .error (.fileError (cStr filename2))

/-- What a message finds, with a file system. -/
def worldOf (fs : FileSystem) (p : Process) (connected : Bool) : World := { connected, readFile := readFile fs p }

def getImage {β : Type} (w : World) (imageName : Str) (c : Ctx β) : Option (List (Except Err Str)) :=
  match GETIMAGE w (.struct 28 [(str "imgname",.string imageName)]) c with
  | .ok _ c' => some (c'.sent.map (getBinaryMessage protocolDat))
  | .error _ _ => none

/-- The reply is the same, or an exception, in any two file systems that are the same below `img` of the working
directory and of the executable's directory. -/
def ConfinedToImg {β : Type} (c : Ctx β) (imageName : Str) : Prop :=
  ∀ (p : Process) (fs fs' : FileSystem) (connected : Bool), Runs fs p → Runs fs' p →
    SameBelow (p.cwd ++ [str "img"]) fs fs' → SameBelow (p.exe ++ [str "img"]) fs fs' →
    getImage (worldOf fs p connected) imageName c = getImage (worldOf fs' p connected) imageName c

/-- The path of an image is too long for any file system, or never leaves `img` for another place. -/
def ImagePath (imageName : Str) : Prop :=
  PATH_MAX ≤ (cStr (str "img/" ++ imageName)).length ∨
  (∃ component ∈ components (cStr (str "img/" ++ imageName)), NAME_MAX < component.length) ∨
  Stays (str "img") (components (cStr (str "img/" ++ imageName)))

section Reply

variable {β : Type}

def imageReply (content : Str) : FBTCtlMessage := .struct 29 [(str "img",.string content)]

theorem getImage_image (w : World) (imageName : Str) (c : Ctx β) : getImage w imageName c =
    match image w imageName with
    | .ok content =>
      if w.connected then match getBinaryMessage protocolDat (imageReply content) with
        | .ok bytes => some (c.sent.map (getBinaryMessage protocolDat) ++ [.ok bytes])
        | .error _ => none
      else none
    | .error _ => none := by
  have named : (do (← (FBTCtlMessage.struct 28 [(str "imgname",.string imageName)]).field (str "imgname")).getStringVal) =
      (.ok imageName : Except Err Str) := rfl
  cases found : image w imageName with
  | error e =>
    have failed : (do setField (str "img") (.string (← image w imageName)) (← newMessage "GETIMAGE_REPLY")) =
        .error e := by
      rw [found]
      rfl
    simp only [getImage,GETIMAGE,bind_apply,named,lift_ok,failed,lift_error]
  | ok content =>
    have built : (do setField (str "img") (.string (← image w imageName)) (← newMessage "GETIMAGE_REPLY")) =
        .ok (imageReply content) := by
      rw [found]
      rfl
    simp only [getImage,GETIMAGE,bind_apply,named,lift_ok,built,ClientThread.sendMessage]
    cases connected : w.connected with
    | false => rfl
    | true =>
      cases encoded : getBinaryMessage protocolDat (imageReply content) with
      | error e => simp [bind_apply]
      | ok bytes => simp [bind_apply,encoded]

/-- The replies only depend on the image, and not on which exception there is without one. -/
theorem getImage_same {w w' : World} {imageName : Str} (connected : w.connected = w'.connected)
    (same : (image w imageName).toOption = (image w' imageName).toOption) (c : Ctx β) :
    getImage w imageName c = getImage w' imageName c := by
  rw [getImage_image,getImage_image,connected]
  cases first : image w imageName <;> cases second : image w' imageName <;> rw [first,second] at same <;>
    simp_all [Except.toOption]

end Reply

/-! ### Staying in `img` -/

section Confined

variable {fs fs' : FileSystem} {p : Process}

theorem cStr_image (imageName : Str) : cStr (str "img/" ++ imageName) = str "img/" ++ cStr imageName := by
  have text : str "img/" = [105,109,103,47] := rfl
  rw [text]
  simp [cStr]

theorem image_absolute (imageName : Str) : (cStr (str "img/" ++ imageName)).head? ≠ some 47 ∧
    cStr (str "img/" ++ imageName) ≠ [] := by
  rw [cStr_image]
  exact ⟨nofun,nofun⟩

theorem cStr_filename2 (p : Process) (filename : Str) :
    cStr (p.linkpath ++ 47 :: filename) = p.linkpath ++ 47 :: cStr filename := by
  rw [cStr,List.takeWhile_append_of_pos]
  · rfl
  · intro c member
    exact decide_eq_true (fun nul => p.nulFree (nul ▸ member))

/-- The first try: relative to the working directory. -/
theorem stat_cwd (fs : FileSystem) (p : Process) (imageName : Str) : stat fs p.cwd (cStr (str "img/" ++ imageName)) =
    if PATH_MAX ≤ (cStr (str "img/" ++ imageName)).length then none
    else (lookup fs p.cwd (components (cStr (str "img/" ++ imageName)))).bind fs.node := by
  obtain ⟨relative,some⟩ := image_absolute imageName
  simp only [stat,resolve,some,relative,false_or,if_false]
  split <;> rfl

/-- The second try: the same way from the executable's directory. -/
theorem stat_exe (runs : Runs fs p) (imageName : Str) :
    stat fs p.cwd (cStr (p.linkpath ++ 47 :: (str "img/" ++ imageName))) =
    if PATH_MAX ≤ (p.linkpath ++ 47 :: cStr (str "img/" ++ imageName)).length then none
    else (lookup fs p.exe (components (cStr (str "img/" ++ imageName)))).bind fs.node := by
  have absolute : (p.linkpath ++ 47 :: cStr (str "img/" ++ imageName)).head? = some 47 := by
    rw [List.head?_append,p.absolute]
    rfl
  rw [cStr_filename2,stat,resolve,absolute,if_pos rfl,components_append,lookup_append,runs.linkpath]
  simp only [List.append_eq_nil_iff,reduceCtorEq,and_false,false_or,Option.bind_some]
  split <;> rfl

theorem lookup_image {base : Place} (exists_ : fs.isDir base = true) (exists' : fs'.isDir base = true)
    (same : SameBelow (base ++ [str "img"]) fs fs') {components : List Paths.Name}
    (confined : (∃ component ∈ components, NAME_MAX < component.length) ∨ Stays (str "img") components) :
    (lookup fs base components).bind fs.node = (lookup fs' base components).bind fs'.node := by
  rcases confined with long | ⟨depth,stays⟩
  · rw [lookup_long long,lookup_long long]
    rfl
  · exact lookup_same same exists_ exists' components (show Stands base _ base .base from rfl) stays

theorem readFile_confined {imageName : Str} (confined : ImagePath imageName) (runs : Runs fs p) (runs' : Runs fs' p)
    (sameCwd : SameBelow (p.cwd ++ [str "img"]) fs fs') (sameExe : SameBelow (p.exe ++ [str "img"]) fs fs') :
    readFile fs p (str "img/" ++ imageName) = readFile fs' p (str "img/" ++ imageName) := by
  have first : stat fs p.cwd (cStr (str "img/" ++ imageName)) = stat fs' p.cwd (cStr (str "img/" ++ imageName)) := by
    rw [stat_cwd,stat_cwd]
    rcases confined with long | confined
    · rw [if_pos long,if_pos long]
    · rw [lookup_image runs.cwd runs'.cwd sameCwd confined]
  have second : stat fs p.cwd (cStr (p.linkpath ++ 47 :: (str "img/" ++ imageName))) =
      stat fs' p.cwd (cStr (p.linkpath ++ 47 :: (str "img/" ++ imageName))) := by
    rw [stat_exe runs,stat_exe runs']
    rcases confined with long | confined
    · have longer : PATH_MAX ≤ (p.linkpath ++ 47 :: cStr (str "img/" ++ imageName)).length := by
        rw [List.length_append,List.length_cons]
        omega
      rw [if_pos longer,if_pos longer]
    · rw [lookup_image runs.exe runs'.exe sameExe confined]
  simp only [readFile,first,second]

/-! ### Leaving it -/

/-- A server in `/x/x`, for a name of one letter. -/
def serverIn (letter : UInt8) (nul : letter ≠ 0) : Process where
  cwd := twice [letter]
  linkpath := [47,letter,47,letter]
  exe := twice [letter]
  absolute := rfl
  nulFree := by simp [Ne.symm nul]

theorem serverIn_runs {letter : UInt8} (nul : letter ≠ 0) (plain : letter ≠ 46 ∧ letter ≠ 47)
    (dirs : ∀ place, place <+: twice [letter] → fs.isDir place = true) : Runs fs (serverIn letter nul) := by
  have parts : components [47,letter,47,letter] = [[],[letter],[letter]] := by simp [components,plain.2]
  have way : visits [] [[],[letter],[letter]] = [[],[],[[letter]],twice [letter]] := by
    simp [visits,hop,plain.1,twice]
  have ends : destination [] [[],[letter],[letter]] = twice [letter] := by simp [destination,hop,plain.1,twice]
  refine ⟨dirs _ (List.prefix_refl _),?_,dirs _ (List.prefix_refl _)⟩
  refine Eq.trans (congrArg (lookup fs []) parts) ?_
  rw [lookup_dirs (by simp [NAME_MAX]),ends]
  · rfl
  · rw [way]
    intro there member
    apply dirs
    simp only [List.mem_cons,List.not_mem_nil,or_false] at member
    rcases member with rfl | rfl | rfl | rfl
    · exact List.nil_prefix
    · exact List.nil_prefix
    · exact ⟨[[letter]],rfl⟩
    · exact List.prefix_refl _

/-- The tree of all places on the way of an image. -/
def wayTree (base : Place) (imageName : Str) (size : Place → Nat) : FileSystem :=
  ofDirs (base :: visits base (components (cStr (str "img/" ++ imageName)))) size (List.cons_ne_nil _ _)

variable {letter : UInt8} {imageName : Str} {size : Place → Nat}

theorem wayTree_runs (nul : letter ≠ 0) (plain : letter ≠ 46 ∧ letter ≠ 47) :
    Runs (wayTree (twice [letter]) imageName size) (serverIn letter nul) := by
  refine serverIn_runs nul plain fun place way => ?_
  exact isDir_iff.mpr ⟨_,ofDirs_isDir _ (List.mem_cons_self ..) way⟩

/-- On its way, the image is the directory at the end. -/
theorem wayTree_image (nul : letter ≠ 0) (some_ : imageName ≠ [])
    (fits : (cStr (str "img/" ++ imageName)).length < PATH_MAX)
    (short : ∀ component ∈ components (cStr (str "img/" ++ imageName)), component.length ≤ NAME_MAX) (connected : Bool) :
    image (worldOf (wayTree (twice [letter]) imageName size) (serverIn letter nul) connected) imageName =
      .ok (List.replicate (size (destination (twice [letter]) (components (cStr (str "img/" ++ imageName))))) 0) := by
  have dirs : ∀ there ∈ visits (twice [letter]) (components (cStr (str "img/" ++ imageName))),
      (wayTree (twice [letter]) imageName size).node there = some (.dir (size there)) :=
    fun there passes => ofDirs_isDir _ (.tail _ passes) (List.prefix_refl _)
  have found := lookup_dirs short (fun there passes => isDir_iff.mpr ⟨_,dirs there passes⟩)
  have first := stat_cwd (wayTree (twice [letter]) imageName size) (serverIn letter nul) imageName
  rw [if_neg (by omega)] at first
  have there : stat (wayTree (twice [letter]) imageName size) (serverIn letter nul).cwd
      (cStr (str "img/" ++ imageName)) =
      some (.dir (size (destination (twice [letter]) (components (cStr (str "img/" ++ imageName)))))) := by
    rw [first]
    refine Eq.trans (congrArg (Option.bind · _) found) ?_
    exact dirs _ (visits_destination _ _)
  have other : (str "/proc/").isPrefixOf (str "img/" ++ imageName) = false := rfl
  simp [image,some_,worldOf,readFile,there,readNode,other,padded]

/-- Without a place on its way there is no image. -/
theorem pruned_image (nul : letter ≠ 0) (some_ : imageName ≠ []) {gone : Place}
    (passes : gone ∈ visits (twice [letter]) (components (cStr (str "img/" ++ imageName)))) (notRoot : gone ≠ [])
    (runs : Runs (fs.prune gone notRoot) (serverIn letter nul)) (connected : Bool) :
    ∃ e, image (worldOf (fs.prune gone notRoot) (serverIn letter nul) connected) imageName = .error e := by
  have missing : (fs.prune gone notRoot).node gone = none := if_pos (List.prefix_refl _)
  have first : stat (fs.prune gone notRoot) (serverIn letter nul).cwd (cStr (str "img/" ++ imageName)) = none := by
    refine (stat_cwd _ _ imageName).trans ?_
    rw [show (serverIn letter nul).cwd = twice [letter] from rfl,lookup_missing passes missing,ite_self]
  have second : stat (fs.prune gone notRoot) (serverIn letter nul).cwd
      (cStr ((serverIn letter nul).linkpath ++ 47 :: (str "img/" ++ imageName))) = none := by
    refine (stat_exe runs imageName).trans ?_
    rw [show (serverIn letter nul).exe = twice [letter] from rfl,lookup_missing passes missing,ite_self]
  exact ⟨.fileError (cStr ((serverIn letter nul).linkpath ++ 47 :: (str "img/" ++ imageName))),
    by simp [image,some_,worldOf,readFile,first,second]⟩

theorem getImage_ok {β : Type} {w : World} {content bytes : Str} (connected : w.connected = true)
    (there : image w imageName = .ok content) (encoded : getBinaryMessage protocolDat (imageReply content) = .ok bytes)
    (c : Ctx β) : getImage w imageName c = some (c.sent.map (getBinaryMessage protocolDat) ++ [.ok bytes]) := by
  rw [getImage_image,there]
  simp only [connected,↓reduceIte,encoded]

/-- A path that leaves `img` shows what is elsewhere. -/
theorem leaving_image {β : Type} (c : Ctx β) (imageName : Str) (leaves : ¬ImagePath imageName) :
    ¬ConfinedToImg c imageName := by
  intro confined
  obtain ⟨fits,short,leaves⟩ : (cStr (str "img/" ++ imageName)).length < PATH_MAX ∧
      (∀ component ∈ components (cStr (str "img/" ++ imageName)), component.length ≤ NAME_MAX) ∧
      ¬Stays (str "img") (components (cStr (str "img/" ++ imageName))) := by
    simp only [ImagePath,not_or,not_exists,not_and,not_le,not_lt] at leaves
    exact leaves
  have some_ : imageName ≠ [] := by
    rintro rfl
    exact leaves ⟨0,by decide⟩
  obtain ⟨known,ways⟩ := leaves_outside (str "img") (components (cStr (str "img/" ++ imageName)))
    (show Standing.base ≠ .outside from nofun) (fun depth stays => leaves ⟨depth,stays⟩)
  -- a working directory whose name the path does not know
  obtain ⟨letter,nul,plain,other⟩ : ∃ letter : UInt8, letter ≠ 0 ∧ (letter ≠ 46 ∧ letter ≠ 47) ∧ [letter] ≠ known := by
    by_cases first : known = [97]
    · exact ⟨98,by decide,by decide,by simp [first]⟩
    · exact ⟨97,by decide,by decide,Ne.symm first⟩
  let fs : FileSystem := wayTree (twice [letter]) imageName (fun _ => 0)
  have runs : Runs fs (serverIn letter nul) := wayTree_runs nul plain
  have empty : image (worldOf fs (serverIn letter nul) true) imageName = .ok [] := wayTree_image nul some_ fits short true
  have shown := getImage_ok rfl empty (show getBinaryMessage protocolDat (imageReply []) = .ok [29,2,0,0] from rfl) c
  rcases ways [letter] other (twice [letter]) rfl with above | ⟨gone,passes,escapes⟩
  · -- the size of the directory at the end, which is above `img`
    let size : Place → Nat := fun place =>
      if place = destination (twice [letter]) (components (cStr (str "img/" ++ imageName))) then 1 else 0
    let fs' : FileSystem := wayTree (twice [letter]) imageName size
    have sized : image (worldOf fs' (serverIn letter nul) true) imageName = .ok [0] := by
      refine (wayTree_image nul some_ fits short true).trans ?_
      simp [size]
    have shown' := getImage_ok rfl sized
      (show getBinaryMessage protocolDat (imageReply [0]) = .ok [29,2,1,0,0] from rfl) c
    have same : SameBelow (twice [letter] ++ [str "img"]) fs fs' := by
      refine ofDirs_same _ fun place below => ?_
      have apart : place ≠ destination (twice [letter]) (components (cStr (str "img/" ++ imageName))) := by
        rintro rfl
        have := (below.trans above).length_le
        simp [twice] at this
      exact (if_neg apart).symm
    have equal := confined (serverIn letter nul) fs fs' true runs (wayTree_runs nul plain) same same
    rw [shown,shown'] at equal
    simp at equal
  · -- whether the place on the way exists
    have notRoot : gone ≠ [] := by
      rintro rfl
      exact escapes.1 List.nil_prefix
    have runs' : Runs (fs.prune gone notRoot) (serverIn letter nul) := by
      refine serverIn_runs nul plain fun place way => isDir_iff.mpr ⟨0,?_⟩
      refine (if_neg fun under => escapes.1 (under.trans way)).trans ?_
      exact ofDirs_isDir _ (List.mem_cons_self ..) way
    obtain ⟨e,failed⟩ := pruned_image nul some_ passes notRoot runs' true
    have same := prune_same escapes notRoot fs
    have equal := confined (serverIn letter nul) fs (fs.prune gone notRoot) true runs runs' same same
    rw [shown,getImage_image,failed] at equal
    cases equal

end Confined

/-- GETIMAGE is confined to `img` exactly for the names whose path stays there. -/
theorem getImage_confined_iff {β : Type} (c : Ctx β) (imageName : Str) :
    ConfinedToImg c imageName ↔ ImagePath imageName := by
  constructor
  · intro confined
    by_contra leaves
    exact leaving_image c imageName leaves confined
  · intro inside p fs fs' connected runs runs' sameCwd sameExe
    refine getImage_same (show (worldOf fs p connected).connected = (worldOf fs' p connected).connected from rfl) ?_ c
    unfold image
    rw [show (worldOf fs p connected).readFile = readFile fs p from rfl,
      show (worldOf fs' p connected).readFile = readFile fs' p from rfl,
      readFile_confined inside runs runs' sameCwd sameExe]

def freshThread : Ctx Unit := { globals := { lokdef := [], device := () }, lastStatus := [], changedAddrIndex := [] }

/-- The files beside `img`. -/
theorem lokdef_shown : ¬ConfinedToImg freshThread (str "../lokdef.csv") := by
  apply leaving_image
  have parts : components (cStr (str "img/" ++ str "../lokdef.csv")) = [str "img",str "..",str "lokdef.csv"] := by
    decide +kernel
  rintro (long | ⟨component,member,long⟩ | ⟨depth,stays⟩)
  · exact absurd long (by decide +kernel)
  · rw [parts] at member
    simp only [List.mem_cons,List.not_mem_nil,or_false] at member
    rcases member with rfl | rfl | rfl <;> exact absurd long (by decide +kernel)
  · rw [parts] at stays
    cases stays

end Btcontrol
