import Mathlib

/-! File systems without symbolic links and the resolution of paths in them. Nothing here knows a program; callers
supply the working directory and the path. -/
namespace Paths

/-- A component of a path, and a place in the tree: the names on the way from the root. -/
abbrev Name := List UInt8

abbrev Place := List Name

def NAME_MAX : Nat := 255

/-- The longest path with its NUL. -/
def PATH_MAX : Nat := 4096

inductive Node where
  | file (readable : Bool) (size : Nat) (content : List UInt8)
  | dir (size : Nat)
  deriving DecidableEq

/-- What is below a name is below a directory. -/
structure FileSystem where
  node : Place → Option Node
  root : ∃ size, node [] = some (.dir size)
  parents : ∀ place name, node (place ++ [name]) ≠ none → ∃ size, node place = some (.dir size)

def FileSystem.isDir (fs : FileSystem) (place : Place) : Bool :=
  match fs.node place with
  | some (.dir _) => true
  | some (.file ..) | none => false

/-- The parts between the slashes. -/
def components : List UInt8 → List Name
  | [] => [[]]
  | c :: rest =>
    if c = 47 then [] :: components rest
    else match components rest with
      | [] => [[c]]
      | first :: more => (c :: first) :: more

def hop (place : Place) (component : Name) : Place :=
  if component = [] ∨ component = [46] then place
  else if component = [46,46] then place.dropLast
  else place ++ [component]

def lookup (fs : FileSystem) : Place → List Name → Option Place
  | place, [] => some place
  | place, component :: rest =>
    if fs.isDir place ∧ component.length ≤ NAME_MAX then lookup fs (hop place component) rest else none

def resolve (fs : FileSystem) (cwd : Place) (path : List UInt8) : Option Place :=
  if path = [] ∨ PATH_MAX ≤ path.length then none
  else lookup fs (if path.head? = some 47 then [] else cwd) (components path)

def stat (fs : FileSystem) (cwd : Place) (path : List UInt8) : Option Node := (resolve fs cwd path).bind fs.node

/-- All places on the way, with the first and the last. -/
def visits : Place → List Name → List Place
  | place, [] => [place]
  | place, component :: rest => place :: visits (hop place component) rest

def destination (place : Place) (components : List Name) : Place := components.foldl hop place

theorem components_ne_nil (path : List UInt8) : components path ≠ [] := by
  cases path with
  | nil => simp [components]
  | cons c rest =>
    unfold components
    split
    · simp
    · split <;> simp

theorem components_append (front back : List UInt8) :
    components (front ++ 47 :: back) = components front ++ components back := by
  induction front with
  | nil => simp [components]
  | cons c rest ih =>
    rw [List.cons_append,components,components,ih]
    split
    · rfl
    · obtain ⟨first,more,split⟩ := List.exists_cons_of_ne_nil (components_ne_nil rest)
      rw [split]
      rfl

section Lookup

variable {fs : FileSystem}

theorem isDir_iff {place : Place} : fs.isDir place = true ↔ ∃ size, fs.node place = some (.dir size) := by
  unfold FileSystem.isDir
  split
  · rename_i size found
    simp [found]
  · rename_i found
    simp [found]
  · rename_i found
    simp [found]

theorem lookup_append (place : Place) (front back : List Name) :
    lookup fs place (front ++ back) = (lookup fs place front).bind (fun there => lookup fs there back) := by
  induction front generalizing place with
  | nil => rfl
  | cons component rest ih =>
    simp only [List.cons_append,lookup]
    split
    · exact ih _
    · rfl

/-- A component that is too long is never found. -/
theorem lookup_long {place : Place} {components : List Name} (long : ∃ component ∈ components, NAME_MAX < component.length) :
    lookup fs place components = none := by
  induction components generalizing place with
  | nil =>
    obtain ⟨_,impossible,-⟩ := long
    exact absurd impossible List.not_mem_nil
  | cons component rest ih =>
    obtain ⟨other,member,long⟩ := long
    unfold lookup
    split
    · rename_i fits
      rcases List.mem_cons.mp member with rfl | later
      · omega
      · exact ih ⟨other,later,long⟩
    · rfl

/-- A way of directories is found. -/
theorem lookup_dirs {place : Place} {components : List Name} (short : ∀ component ∈ components, component.length ≤ NAME_MAX)
    (dirs : ∀ there ∈ visits place components, fs.isDir there = true) :
    lookup fs place components = some (destination place components) := by
  induction components generalizing place with
  | nil => rfl
  | cons component rest ih =>
    have here : fs.isDir place = true := dirs place (List.mem_cons_self ..)
    rw [lookup,if_pos ⟨here,short component (List.mem_cons_self ..)⟩]
    exact ih (fun other member => short other (.tail _ member)) (fun there member => dirs there (.tail _ member))

/-- Where a place of the way is missing, there is nothing at its end. -/
theorem lookup_missing {place missing : Place} {components : List Name} (passes : missing ∈ visits place components)
    (gone : fs.node missing = none) : (lookup fs place components).bind fs.node = none := by
  induction components generalizing place with
  | nil =>
    obtain rfl : missing = place := by simpa [visits] using passes
    exact gone
  | cons component rest ih =>
    unfold lookup
    split
    · rename_i fits
      rcases List.mem_cons.mp passes with rfl | later
      · have : fs.isDir missing = false := by simp [FileSystem.isDir,gone]
        simp [this] at fits
      · exact ih later
    · rfl

end Lookup

/-! ### Staying in a directory -/

/-- Where a way stands that began above a directory: in it, at its beginning, or anywhere else. -/
inductive Standing where
  | inside (depth : Nat)
  | base
  | outside
  deriving DecidableEq

/-- The next component, for a way into `dir`. -/
def move (dir : Name) : Standing → Name → Standing
  | .outside, _ => .outside
  | .inside depth, component =>
    if component = [] ∨ component = [46] then .inside depth
    else if component = [46,46] then (match depth with
      | 0 => .base
      | depth + 1 => .inside depth)
    else .inside (depth + 1)
  | .base, component =>
    if component = [] ∨ component = [46] then .base
    else if component = [46,46] then .outside
    else if component = dir then .inside 0
    else .outside

/-- The way ends in the directory, and was never elsewhere. -/
def Stays (dir : Name) (components : List Name) : Prop := ∃ depth, components.foldl (move dir) .base = .inside depth

theorem move_outside (dir : Name) (components : List Name) : components.foldl (move dir) .outside = .outside := by
  induction components with
  | nil => rfl
  | cons component rest ih => exact ih

/-- The place fits to where the way stands. -/
def Stands (base : Place) (dir : Name) (place : Place) : Standing → Prop
  | .inside depth => ∃ below, place = base ++ dir :: below ∧ below.length = depth
  | .base => place = base
  | .outside => False

theorem stands_hop {base place : Place} {dir : Name} {standing : Standing} (here : Stands base dir place standing)
    (component : Name) (stays : move dir standing component ≠ .outside) :
    Stands base dir (hop place component) (move dir standing component) := by
  cases standing with
  | outside => exact here.elim
  | base =>
    obtain rfl : place = base := here
    simp only [move,hop] at stays ⊢
    split
    · exact rfl
    · rename_i name
      rw [if_neg name] at stays
      split
      · rename_i up
        rw [if_pos up] at stays
        exact absurd rfl stays
      · rename_i down
        rw [if_neg down] at stays
        split
        · rename_i same
          exact ⟨[],by rw [same],rfl⟩
        · rename_i other
          rw [if_neg other] at stays
          exact absurd rfl stays
  | inside depth =>
    obtain ⟨below,rfl,rfl⟩ := here
    simp only [move,hop]
    split
    · exact ⟨below,rfl,rfl⟩
    · split
      · rcases List.eq_nil_or_concat below with rfl | ⟨inner,last,rfl⟩
        · simp [Stands]
        · have up : (base ++ dir :: (inner ++ [last])).dropLast = base ++ dir :: inner := by
            rw [← List.cons_append,← List.append_assoc,List.dropLast_concat]
          rw [List.concat_eq_append,List.length_append,List.length_singleton,up]
          exact ⟨inner,rfl,rfl⟩
      · exact ⟨below ++ [component],by simp,by simp⟩

/-- The two systems are the same in a directory. -/
def SameBelow (dir : Place) (fs fs' : FileSystem) : Prop := ∀ place, dir <+: place → fs.node place = fs'.node place

section Confined

variable {fs fs' : FileSystem} {base : Place} {dir : Name}

theorem isDir_stands (same : SameBelow (base ++ [dir]) fs fs') (exists_ : fs.isDir base = true)
    (exists' : fs'.isDir base = true) {place : Place} {standing : Standing} (here : Stands base dir place standing) :
    fs.isDir place = fs'.isDir place := by
  cases standing with
  | outside => exact here.elim
  | base =>
    obtain rfl : place = base := here
    rw [exists_,exists']
  | inside depth =>
    obtain ⟨below,rfl,-⟩ := here
    unfold FileSystem.isDir
    rw [same (base ++ dir :: below) ⟨below,by simp⟩]

/-- A way that stays in the directory finds the same in both. -/
theorem lookup_same (same : SameBelow (base ++ [dir]) fs fs') (exists_ : fs.isDir base = true)
    (exists' : fs'.isDir base = true) (components : List Name) {place : Place} {standing : Standing} {depth : Nat}
    (here : Stands base dir place standing) (stays : components.foldl (move dir) standing = .inside depth) :
    (lookup fs place components).bind fs.node = (lookup fs' place components).bind fs'.node := by
  induction components generalizing place standing with
  | nil =>
    obtain rfl : standing = .inside depth := stays
    obtain ⟨below,rfl,-⟩ := here
    exact same _ ⟨below,by simp⟩
  | cons component rest ih =>
    have within : move dir standing component ≠ .outside := by
      intro left
      rw [List.foldl_cons,left,move_outside] at stays
      cases stays
    simp only [lookup,isDir_stands same exists_ exists' here]
    split
    · exact ih (stands_hop here component within) stays
    · rfl

end Confined

/-! ### Leaving it -/

def ofDirs (places : List Place) (size : Place → Nat) (some_ : places ≠ []) : FileSystem where
  node place := if ∃ there ∈ places, place <+: there then some (.dir (size place)) else none
  root := by
    obtain ⟨first,rest,rfl⟩ := List.exists_cons_of_ne_nil some_
    exact ⟨size [],if_pos ⟨first,List.mem_cons_self ..,List.nil_prefix⟩⟩
  parents place name found := by
    have below : ∃ there ∈ places, place ++ [name] <+: there := by
      by_contra none
      exact found (if_neg none)
    obtain ⟨there,member,short⟩ := below
    exact ⟨size place,if_pos ⟨there,member,(List.prefix_append place [name]).trans short⟩⟩

/-- The tree without what is at a place and below it. -/
def FileSystem.prune (fs : FileSystem) (gone : Place) (notRoot : gone ≠ []) : FileSystem where
  node place := if gone <+: place then none else fs.node place
  root := by
    rw [if_neg (by simpa using notRoot)]
    exact fs.root
  parents place name found := by
    have kept : ¬gone <+: place ++ [name] := fun below => found (if_pos below)
    rw [if_neg kept] at found
    rw [if_neg (fun below => kept (below.trans (List.prefix_append place [name])))]
    exact fs.parents place name found

/-- Neither on the way to the base nor in the directory. -/
def Escapes (base : Place) (dir : Name) (place : Place) : Prop := ¬place <+: base ∧ ¬base ++ [dir] <+: place

/-- The way ends above the directory, or leads through a place that has nothing to do with it. -/
def Leaves (base : Place) (dir : Name) (place : Place) (components : List Name) : Prop :=
  destination place components <+: base ∨ ∃ there ∈ visits place components, Escapes base dir there

theorem visits_first (place : Place) (components : List Name) : place ∈ visits place components := by
  cases components <;> exact List.mem_cons_self ..

theorem visits_destination (place : Place) (components : List Name) : destination place components ∈ visits place components := by
  induction components generalizing place with
  | nil => exact List.mem_cons_self ..
  | cons component rest ih => exact .tail _ (ih _)

theorem Leaves.before {base : Place} {dir : Name} {place : Place} {component : Name} {rest : List Name}
    (leaves : Leaves base dir (hop place component) rest) : Leaves base dir place (component :: rest) := by
  rcases leaves with up | ⟨there,passes,escapes⟩
  · exact .inl up
  · exact .inr ⟨there,.tail _ passes,escapes⟩

/-- The base of two equal names: what comes back into it from above has to know the name. -/
def twice (name : Name) : Place := [name,name]

theorem leaves_above (dir : Name) (components : List Name) : ∃ known, ∀ name, name ≠ known →
    ∀ place, place = [name] ∨ place = [] → Leaves (twice name) dir place components := by
  induction components with
  | nil =>
    refine ⟨[],fun name _ place above => .inl ?_⟩
    rcases above with rfl | rfl
    · exact ⟨[name],rfl⟩
    · exact List.nil_prefix
  | cons component rest ih =>
    obtain ⟨known,later⟩ := ih
    by_cases dot : component = [] ∨ component = [46]
    · refine ⟨known,fun name other place above => .before ?_⟩
      rw [hop,if_pos dot]
      exact later name other place above
    by_cases up : component = [46,46]
    · refine ⟨known,fun name other place above => .before ?_⟩
      rw [hop,if_neg dot,if_pos up]
      refine later name other _ (.inr ?_)
      rcases above with rfl | rfl <;> rfl
    · refine ⟨component,fun name other place above => .before (.inr ⟨_,visits_first _ rest,?_⟩)⟩
      rw [hop,if_neg dot,if_neg up]
      rcases above with rfl | rfl
      · simp [Escapes,twice,Ne.symm other]
      · simp [Escapes,twice,Ne.symm other]

theorem leaves_outside (dir : Name) (components : List Name) {standing : Standing} (begun : standing ≠ .outside)
    (outside : ∀ depth, components.foldl (move dir) standing ≠ .inside depth) : ∃ known, ∀ name, name ≠ known →
    ∀ place, Stands (twice name) dir place standing → Leaves (twice name) dir place components := by
  induction components generalizing standing with
  | nil =>
    cases standing with
    | outside => exact absurd rfl begun
    | inside depth => exact absurd rfl (outside depth)
    | base =>
      refine ⟨[],fun name _ place here => .inl ?_⟩
      obtain rfl : place = twice name := here
      exact List.prefix_refl _
  | cons component rest ih =>
    by_cases next : move dir standing component = .outside
    · cases standing with
      | outside => exact absurd rfl begun
      | inside depth =>
        simp only [move] at next
        split at next
        · cases next
        · split at next
          · split at next <;> cases next
          · cases next
      | base =>
        simp only [move] at next
        split at next
        · cases next
        · rename_i dot
          split at next
          · rename_i up
            obtain ⟨known,above⟩ := leaves_above dir rest
            refine ⟨known,fun name other place here => .before ?_⟩
            obtain rfl : place = twice name := here
            rw [hop,if_neg dot,if_pos up]
            exact above name other [name] (.inl rfl)
          · rename_i down
            split at next
            · cases next
            · rename_i other
              refine ⟨[],fun name _ place here => .before (.inr ⟨_,visits_first _ rest,?_⟩)⟩
              obtain rfl : place = twice name := here
              rw [hop,if_neg dot,if_neg down]
              simp [Escapes,twice,Ne.symm other]
    · obtain ⟨known,later⟩ := ih next outside
      exact ⟨known,fun name other place here => .before (later name other _ (stands_hop here component next))⟩

theorem prune_same {base gone : Place} {dir : Name} (escapes : Escapes base dir gone) (notRoot : gone ≠ [])
    (fs : FileSystem) : SameBelow (base ++ [dir]) fs (fs.prune gone notRoot) := by
  intro place below
  refine (if_neg fun under => ?_).symm
  rcases List.prefix_or_prefix_of_prefix under below with above | inside
  · rcases List.prefix_concat_iff.mp above with same | way
    · exact escapes.2 (same ▸ List.prefix_refl _)
    · exact escapes.1 way
  · exact escapes.2 inside

theorem ofDirs_same {places : List Place} {size size' : Place → Nat} (some_ : places ≠ []) {dir : Place}
    (same : ∀ place, dir <+: place → size place = size' place) :
    SameBelow dir (ofDirs places size some_) (ofDirs places size' some_) := by
  intro place below
  simp only [ofDirs,same place below]

theorem ofDirs_isDir {places : List Place} {size : Place → Nat} (some_ : places ≠ []) {place there : Place}
    (member : there ∈ places) (way : place <+: there) : (ofDirs places size some_).node place = some (.dir (size place)) :=
  if_pos ⟨there,member,way⟩

end Paths
