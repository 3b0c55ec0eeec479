import Btcontrol.Loaders
import Btcontrol.Transition

/-! The table of message types after `load`. Looking up a name goes through `operator[]` of the map and may insert
an entry; looking up a number searches the entries. -/
namespace Btcontrol.TypeTable

open DataType Numbering Exec Transition

abbrev Action := EStateM Err MessageLayouts

/-- `messageLayouts[name]`; a missing entry is inserted, with the type 0. -/
def index (name : Str) : Action MessageLayout := do
  let s ← get
  match s.entries.lookup name with
  | some layout => return layout
  | none =>
    set { s with entries := mapPut name (.mk UNDEF [] []) s.entries }
    return .mk UNDEF [] []

def messageTypeID (name : Str) : Action Nat := do
  let layout ← index name
  if layout.type = UNDEF then throw (.invalidMessageName name)
  return layout.type

/-- `FBTCtlMessage::isType`, of a message of type `type`. -/
def isType (type : Nat) (name : Str) : Action Bool := do
  return decide (type = (← messageTypeID name))

inductive Lookup where
  | messageTypeID (name : Str)
  | isType (type : Nat) (name : Str)

def step (s : MessageLayouts) : Lookup → MessageLayouts
  | .messageTypeID name => final (messageTypeID name s)
  | .isType type name => final (isType type name s)

/-- The table with the entry that a lookup of `name` leaves. -/
def looked (name : Str) (s : MessageLayouts) : MessageLayouts :=
  match s.entries.lookup name with
  | some _ => s
  | none => { s with entries := mapPut name (.mk UNDEF [] []) s.entries }

section Lookups

variable {s : MessageLayouts}

/-- What is looked up is what the table says without the inserted entry. -/
theorem messageTypeID_eq (name : Str) : messageTypeID name s =
    match Btcontrol.messageTypeID s name with
    | .ok type => .ok type s
    | .error e => .error e (looked name s) := by
  cases found : s.entries.lookup name with
  | none =>
    simp only [messageTypeID,index,Btcontrol.messageTypeID,looked,bind_apply,get_apply,found]
    rfl
  | some layout =>
    simp only [messageTypeID,index,Btcontrol.messageTypeID,looked,bind_apply,get_apply,found,pure_apply]
    by_cases undef : layout.type = UNDEF
    · simp only [undef,↓reduceIte]
      rfl
    · simp only [undef,↓reduceIte]
      rfl

theorem messageTypeID_final (name : Str) : final (messageTypeID name s) = looked name s := by
  rw [messageTypeID_eq]
  unfold Btcontrol.messageTypeID looked
  cases s.entries.lookup name with
  | none => rfl
  | some layout =>
    by_cases undef : layout.type = UNDEF
    · simp only [undef,↓reduceIte,final_error]
    · simp only [undef,↓reduceIte,final_ok]

theorem step_looked (lookup : Lookup) : ∃ name, step s lookup = looked name s := by
  cases lookup with
  | messageTypeID name => exact ⟨name,messageTypeID_final name⟩
  | isType type name =>
    refine ⟨name,?_⟩
    rw [← messageTypeID_final name]
    simp only [step,isType,bind_apply]
    cases messageTypeID name s <;> rfl

end Lookups

/-! ### The map -/

def Ordered (entries : List (Str × MessageLayout)) : Prop := (entries.map Prod.fst).Pairwise (· < ·)

theorem mapPut_keys (name : Str) (layout : MessageLayout) (entries : List (Str × MessageLayout)) :
    ∀ key ∈ (mapPut name layout entries).map Prod.fst, key = name ∨ key ∈ entries.map Prod.fst := by
  induction entries with
  | nil => simp [mapPut]
  | cons first rest ih =>
    obtain ⟨other,old⟩ := first
    intro key member
    simp only [mapPut] at member
    split at member
    · exact .inr member
    · split at member
      · exact List.mem_cons.mp member
      · rcases List.mem_cons.mp member with rfl | later
        · exact .inr List.mem_cons_self
        · exact (ih key later).imp id (List.mem_cons_of_mem _)

theorem mapPut_ordered (name : Str) (layout : MessageLayout) {entries : List (Str × MessageLayout)}
    (ordered : Ordered entries) : Ordered (mapPut name layout entries) := by
  unfold Ordered at ordered ⊢
  induction entries with
  | nil => simp [mapPut]
  | cons first rest ih =>
    obtain ⟨other,old⟩ := first
    obtain ⟨above,later⟩ := List.pairwise_cons.mp ordered
    simp only [mapPut]
    split
    · exact List.pairwise_cons.mpr ⟨above,later⟩
    · rename_i differ
      split
      · rename_i below
        refine List.pairwise_cons.mpr ⟨?_,ordered⟩
        intro key member
        rcases List.mem_cons.mp member with rfl | member
        · exact below
        · exact List.lt_trans below (above key member)
      · rename_i notBelow
        refine List.pairwise_cons.mpr ⟨?_,ih later⟩
        intro key member
        rcases mapPut_keys name layout rest key member with rfl | member
        · exact Std.lt_of_le_of_ne notBelow differ
        · exact above key member

theorem lookup_of_mem {entries : List (Str × MessageLayout)} (ordered : Ordered entries)
    {it : Str × MessageLayout} (member : it ∈ entries) : entries.lookup it.1 = some it.2 := by
  induction entries with
  | nil => exact absurd member List.not_mem_nil
  | cons first rest ih =>
    obtain ⟨above,later⟩ := List.pairwise_cons.mp ordered
    rw [lookup_cons]
    rcases List.mem_cons.mp member with rfl | inside
    · rw [if_pos rfl]
    · have apart := Std.ne_of_lt (above it.1 (List.mem_map_of_mem inside))
      rw [if_neg apart]
      exact ih later inside

/-! ### The invariant -/

/-- The entries are those of the definitions, each with its number, and others of type UNDEF. -/
structure Holds (definitions : List (Str × MessageLayout)) (entries : List (Str × MessageLayout)) : Prop where
  ordered : Ordered entries
  defined : ∀ name type layout, assigned (STRUCT + 1) definitions name = some (type,layout) →
    entries.lookup name = some (layout.numbered type)
  others : ∀ name layout, assigned (STRUCT + 1) definitions name = none →
    entries.lookup name = some layout → layout.type = UNDEF

theorem looked_holds {definitions : List (Str × MessageLayout)} {s : MessageLayouts} (name : Str)
    (holds : Holds definitions s.entries) : Holds definitions (looked name s).entries := by
  unfold looked
  cases found : s.entries.lookup name with
  | some layout => exact holds
  | none =>
    refine ⟨mapPut_ordered name _ holds.ordered,?_,?_⟩
    · intro other type layout assigns
      have there := holds.defined other type layout assigns
      have apart : name ≠ other := by
        rintro rfl
        rw [found] at there
        cases there
      rw [mapPut_lookup,if_neg apart]
      exact there
    · intro other layout unassigned there
      rw [mapPut_lookup] at there
      split at there
      · cases there
        rfl
      · exact holds.others other layout unassigned there

theorem looked_loaded (name : Str) (s : MessageLayouts) : (looked name s).loaded = s.loaded := by
  unfold looked
  split <;> rfl

theorem lookups_hold {definitions : List (Str × MessageLayout)} {s : MessageLayouts} (lookups : List Lookup)
    (holds : Holds definitions s.entries) : Holds definitions (run step s lookups).entries ∧
      (run step s lookups).loaded = s.loaded := by
  have kept (t : MessageLayouts) (lookup : Lookup)
      (inv : Holds definitions t.entries ∧ t.loaded = s.loaded) :
      Holds definitions (step t lookup).entries ∧ (step t lookup).loaded = s.loaded := by
    obtain ⟨name,same⟩ := @step_looked t lookup
    rw [same,looked_loaded]
    exact ⟨looked_holds name inv.1,inv.2⟩
  exact run_always kept lookups s ⟨holds,rfl⟩

theorem loadLines_ordered {unassigned : Str → Nat} {lines : List Str} {loading loaded : Loading} (ordered : Ordered loading.entries)
    (ran : lines.foldlM (loadLine (definition unassigned) mapPut) loading = .ok loaded) : Ordered loaded.entries := by
  induction lines generalizing loading with
  | nil =>
    cases ran
    exact ordered
  | cons line rest ih =>
    obtain ⟨next,first,ran⟩ := Exec.ok_of_bind ran
    refine ih ?_ ran
    obtain ⟨_,rfl⟩ | ⟨_,_,rfl⟩ | ⟨name,layout,_,_,rfl⟩ := loadLine_cases first
    · exact ordered
    · exact ordered
    · exact mapPut_ordered name _ ordered

def defined (unassigned : Str → Nat) (protocolDat : Str) : List (Str × MessageLayout) :=
  layouts (definition unassigned) ((Side.cpp unassigned).lines protocolDat)

theorem empty_holds : Holds [] [] := by
  refine ⟨List.Pairwise.nil,?_,?_⟩
  · intro name type layout assigns
    cases assigns
  · intro name layout _ found
    cases found

/-- Before `load` there can only be entries that lookups have inserted. -/
theorem load_holds {unassigned : Str → Nat} {s : MessageLayouts} {file : Str} {hash : Int} {table : MessageLayouts}
    (fresh : Holds [] s.entries) (unloaded : s.loaded = false)
    (accepted : load unassigned s file = .ok (hash,table)) :
    Holds (defined unassigned file) table.entries ∧ table.loaded = true := by
  rw [load,unloaded] at accepted
  obtain ⟨loading,loop,result⟩ := Exec.ok_of_bind accepted
  cases result
  have stored (name : Str) : loading.entries.lookup name =
      ((assigned (STRUCT + 1) (defined unassigned file) name).map (fun it => it.2.numbered it.1)).or
        (s.entries.lookup name) := loadLines_lookup mapPut_lookup loop name
  refine ⟨⟨loadLines_ordered fresh.ordered loop,?_,?_⟩,rfl⟩
  · intro name type layout assigns
    rw [stored,assigns]
    rfl
  · intro name layout undefined there
    rw [stored,undefined] at there
    exact fresh.others name layout rfl there

section Found

variable {definitions : List (Str × MessageLayout)} {s : MessageLayouts} (holds : Holds definitions s.entries)
include holds

theorem messageTypeID_assigned {name : Str} {type : Nat} {layout : MessageLayout}
    (assigns : assigned (STRUCT + 1) definitions name = some (type,layout)) :
    messageTypeID name s = .ok type s := by
  have above : STRUCT < type := assigned_ge assigns
  have typed : type ≠ UNDEF := Nat.ne_of_gt (Nat.zero_lt_of_lt above)
  rw [messageTypeID_eq,Btcontrol.messageTypeID,holds.defined name type layout assigns]
  simp only [MessageLayout.numbered,MessageLayout.type,typed,↓reduceIte]

/-- The entry with a number above STRUCT is that of its definition. -/
theorem entry_assigned {it : Str × MessageLayout} (member : it ∈ s.entries) (typed : STRUCT < it.2.type) :
    ∃ layout, assigned (STRUCT + 1) definitions it.1 = some (it.2.type,layout) ∧
      it.2 = layout.numbered it.2.type := by
  have found := lookup_of_mem holds.ordered member
  cases assigns : assigned (STRUCT + 1) definitions it.1 with
  | none =>
    have undef := holds.others it.1 it.2 assigns found
    rw [undef] at typed
    exact absurd typed (by decide)
  | some assignment =>
    obtain ⟨type,layout⟩ := assignment
    have same := Option.some.inj ((holds.defined it.1 type layout assigns).symm.trans found)
    rw [← same]
    exact ⟨layout,rfl,rfl⟩

theorem getMessageLayout_assigned (loaded : s.loaded = true) {name : Str} {type : Nat} {layout : MessageLayout}
    (assigns : assigned (STRUCT + 1) definitions name = some (type,layout)) :
    getMessageLayout s type = .ok (layout.numbered type) := by
  have above : STRUCT < type := assigned_ge assigns
  have member : (name,layout.numbered type) ∈ s.entries := by
    obtain ⟨before,after,same,-⟩ := List.lookup_eq_some_iff.mp (holds.defined name type layout assigns)
    simp [same]
  obtain ⟨it,found⟩ : ∃ it, s.entries.find? (fun it => it.2.type == type) = some it := by
    apply Option.isSome_iff_exists.mp
    exact List.find?_isSome.mpr ⟨_,member,beq_self_eq_true type⟩
  have typed : it.2.type = type := by simpa using List.find?_some found
  obtain ⟨layout',assigns',same⟩ := entry_assigned holds (List.mem_of_find?_eq_some found) (typed.symm ▸ above)
  rw [typed] at assigns' same
  obtain ⟨-,rfl⟩ := assigned_inj assigns assigns'
  simp only [getMessageLayout,loaded,Bool.not_true,Bool.false_eq_true,↓reduceIte,Nat.not_le.mpr above,found,same]

theorem getMessageLayout_unassigned (loaded : s.loaded = true) {type : Nat}
    (unassigned : ∀ name layout, assigned (STRUCT + 1) definitions name ≠ some (type,layout)) :
    ∃ e, getMessageLayout s type = .error e := by
  by_cases plain : type ≤ STRUCT
  · exact ⟨.nonStruct,by simp only [getMessageLayout,loaded,Bool.not_true,Bool.false_eq_true,↓reduceIte,plain]⟩
  · have nowhere : s.entries.find? (fun it => it.2.type == type) = none := by
      apply List.find?_eq_none.mpr
      intro it member found
      have typed : it.2.type = type := by simpa using found
      obtain ⟨layout,assigns,-⟩ := entry_assigned holds member (typed.symm ▸ Nat.not_le.mp plain)
      exact unassigned it.1 layout (typed ▸ assigns)
    exact ⟨.invalidStructType type,by
      simp only [getMessageLayout,loaded,Bool.not_true,Bool.false_eq_true,↓reduceIte,plain,nowhere]⟩

end Found

/-- What the table says of the messages of a file. -/
structure Consistent (unassigned : Str → Nat) (file : Str) (s : MessageLayouts) : Prop where
  /-- A name has the number of the last line that defines it, and the number the layout from there. -/
  named : ∀ name ∈ (defined unassigned file).map Prod.fst, ∃ i layout, Last (defined unassigned file) name i layout ∧
    messageTypeID name s = .ok (STRUCT + 1 + i) s ∧
    getMessageLayout s (STRUCT + 1 + i) = .ok (layout.numbered (STRUCT + 1 + i))
  above : ∀ name ∈ (defined unassigned file).map Prod.fst, ∀ type t, messageTypeID name s = .ok type t → STRUCT < type
  distinct : ∀ name ∈ (defined unassigned file).map Prod.fst, ∀ other ∈ (defined unassigned file).map Prod.fst, ∀ type t u,
    messageTypeID name s = .ok type t → messageTypeID other s = .ok type u → name = other
  others : ∀ type, (∀ name ∈ (defined unassigned file).map Prod.fst, ∀ t, messageTypeID name s ≠ .ok type t) →
    ∃ e, getMessageLayout s type = .error e

theorem consistent_of_holds {unassigned : Str → Nat} {file : Str} {s : MessageLayouts} (holds : Holds (defined unassigned file) s.entries)
    (loaded : s.loaded = true) : Consistent unassigned file s := by
  have number (name : Str) (member : name ∈ (defined unassigned file).map Prod.fst) :
      ∃ type layout, assigned (STRUCT + 1) (defined unassigned file) name = some (type,layout) := by
    cases assigns : assigned (STRUCT + 1) (defined unassigned file) name with
    | none => exact absurd member (assigned_none.mp assigns)
    | some it => exact ⟨it.1,it.2,rfl⟩
  have only {name : Str} (member : name ∈ (defined unassigned file).map Prod.fst) {type : Nat} {t : MessageLayouts}
      (found : messageTypeID name s = .ok type t) :
      ∃ layout, assigned (STRUCT + 1) (defined unassigned file) name = some (type,layout) := by
    obtain ⟨type',layout,assigns⟩ := number name member
    rw [messageTypeID_assigned holds assigns] at found
    cases found
    exact ⟨layout,assigns⟩
  refine ⟨?_,?_,?_,?_⟩
  · intro name member
    obtain ⟨type,layout,assigns⟩ := number name member
    obtain ⟨i,rfl,last⟩ := assigned_iff_last.mp assigns
    exact ⟨i,layout,last,messageTypeID_assigned holds assigns,getMessageLayout_assigned holds loaded assigns⟩
  · intro name member type t found
    obtain ⟨layout,assigns⟩ := only member found
    exact assigned_ge assigns
  · intro name member other member' type t u found found'
    obtain ⟨layout,assigns⟩ := only member found
    obtain ⟨layout',assigns'⟩ := only member' found'
    exact (assigned_inj assigns assigns').1
  · intro type nobody
    apply getMessageLayout_unassigned holds loaded
    intro name layout assigns
    have member : name ∈ (defined unassigned file).map Prod.fst := by
      by_contra absent
      rw [assigned_none.mpr absent] at assigns
      cases assigns
    exact nobody name member s (messageTypeID_assigned holds assigns)

/-- Whatever is looked up before and after `load`, the table says the same of the messages of the file. -/
theorem table_consistent (unassigned : Str → Nat) (before lookups : List Lookup) (file : Str) (hash : Int) (table : MessageLayouts)
    (accepted : load unassigned (run step { entries := [] } before) file = .ok (hash,table)) :
    Consistent unassigned file (run step table lookups) := by
  have fresh := lookups_hold (s := { entries := [] }) before empty_holds
  obtain ⟨holds,loaded⟩ := load_holds fresh.1 fresh.2 accepted
  obtain ⟨after,kept⟩ := lookups_hold lookups holds
  exact consistent_of_holds after (kept.trans loaded)

/-- A file that defines PING and ACC twice; a lookup of another name, and one of ACC. -/
theorem table_consistent_odd : ∃ hash table, load (fun _ => UNDEF) { entries := [] } oddDat = .ok (hash,table) ∧
    Consistent (fun _ => UNDEF) oddDat (run step table [.messageTypeID (str "XYZ"),.isType 7 (str "ACC")]) := by
  have accepts : (load (fun _ => UNDEF) { entries := [] } oddDat).toOption.isSome = true := by decide +kernel
  obtain ⟨⟨hash,table⟩,returned⟩ := Option.isSome_iff_exists.mp accepts
  have accepted := ok_of_toOption returned
  exact ⟨hash,table,accepted,table_consistent _ [] _ oddDat hash table accepted⟩

end Btcontrol.TypeTable
