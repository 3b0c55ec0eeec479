import Btcontrol.PinCtl

/-! Pins that are defined several times. Each definition is compared with its own last state only,
and one that goes off writes the pin in the middle of the loop: the level can be lost there. -/
namespace Btcontrol

open Exec Transition

/-! ### One pin -/

/-- What the loop over the definitions has done to a pin: the value so far, the level, and the last
state of the definition it points at. -/
structure Lamp where
  value : Bool
  level : Option PinWrite
  lit : Bool

namespace Lamp

/-- A definition with its value and its last state. -/
def next (lamp : Lamp) (it : Bool × Bool) : Lamp :=
  if it.1 then { lamp with value := true, lit := it.2 }
  else if it.2 then { lamp with level := some (.digitalWrite lamp.value), lit := false }
  else lamp

/-- The level when the loop is through. -/
def finish (force : Bool) (lamp : Lamp) : Option PinWrite :=
  if force ∨ lamp.value ≠ lamp.lit then some (.digitalWrite lamp.value) else lamp.level

/-- A definition before the first true one goes off, none behind it does, and the last true one was
on before: the pin is switched off and not on again. -/
def darkens (its : List (Bool × Bool)) : Bool :=
  let before := its.takeWhile (fun it => !it.1)
  let after := its.dropWhile (fun it => !it.1)
  before.any (fun it => it.2) && after.all (fun it => it.1 || !it.2) &&
    (after.filter (fun it => it.1)).getLast?.any (fun it => it.2)

/-- Nothing is true yet. -/
theorem foldl_dark (its : List (Bool × Bool)) (dark : ∀ it ∈ its, it.1 = false) (level : Option PinWrite) :
    its.foldl next ⟨false, level, false⟩ =
      ⟨false, if its.any (fun it => it.2) then some (.digitalWrite false) else level, false⟩ := by
  induction its generalizing level with
  | nil => rfl
  | cons it rest ih =>
    obtain ⟨value,last⟩ := it
    have first : value = false := dark _ List.mem_cons_self
    subst first
    have later (level : Option PinWrite) := ih (fun it member => dark it (List.mem_cons_of_mem _ member)) level
    cases last with
    | false => simpa [next] using later level
    | true => simpa [next] using later (some (.digitalWrite false))

theorem foldl_value (its : List (Bool × Bool)) (lamp : Lamp) :
    (its.foldl next lamp).value = (lamp.value || its.any (fun it => it.1)) := by
  induction its generalizing lamp with
  | nil => simp
  | cons it rest ih =>
    obtain ⟨value,last⟩ := it
    rw [List.foldl_cons,ih]
    cases value <;> cases last <;> simp [next]

/-- A definition that goes off then writes the level anew. -/
theorem foldl_level (its : List (Bool × Bool)) (level : Option PinWrite) (lit : Bool) :
    (its.foldl next ⟨true, level, lit⟩).level =
      if its.all (fun it => it.1 || !it.2) then level else some (.digitalWrite true) := by
  induction its generalizing level lit with
  | nil => rfl
  | cons it rest ih =>
    obtain ⟨value,last⟩ := it
    cases value with
    | true => exact ih level last
    | false =>
      cases last with
      | false => exact ih level lit
      | true =>
        have again := ih (some (.digitalWrite true)) false
        rw [ite_self] at again
        exact again

theorem foldl_lit (its : List (Bool × Bool)) (steady : its.all (fun it => it.1 || !it.2) = true)
    (level : Option PinWrite) (lit : Bool) : (its.foldl next ⟨true, level, lit⟩).lit =
      ((its.filter (fun it => it.1)).getLast?.map Prod.snd).getD lit := by
  induction its generalizing level lit with
  | nil => rfl
  | cons it rest ih =>
    obtain ⟨value,last⟩ := it
    simp only [List.all_cons,Bool.and_eq_true] at steady
    cases value with
    | true =>
      have later := ih steady.2 level last
      rw [List.filter_cons_of_pos rfl,List.getLast?_cons]
      refine later.trans ?_
      cases (rest.filter (fun it => it.1)).getLast? <;> rfl
    | false =>
      have off : last = false := by simpa using steady.1
      subst off
      exact ih steady.2 level lit

/-- The definitions up to the first true one, and from there on. -/
theorem foldl_split (its : List (Bool × Bool)) (level : Option PinWrite) :
    its.foldl next ⟨false, level, false⟩ =
      (its.dropWhile (fun it => !it.1)).foldl next
        ⟨false, if (its.takeWhile (fun it => !it.1)).any (fun it => it.2) then some (.digitalWrite false) else level,
          false⟩ := by
  have dark : ∀ it ∈ its.takeWhile (fun it => !it.1), it.1 = false := by
    intro it member
    simpa using List.mem_takeWhile_imp member
  conv_lhs => rw [← List.takeWhile_append_dropWhile (p := fun it : Bool × Bool => !it.1) (l := its)]
  rw [List.foldl_append,foldl_dark _ dark]

/-- The last true definition of a steady rest was on before. -/
theorem any_of_last {its : List (Bool × Bool)} {last : Bool}
    (lit : ((its.filter (fun it => it.1)).getLast?.map Prod.snd).getD last = true) :
    last = true ∨ its.any (fun it => it.2) = true := by
  cases found : (its.filter (fun it => it.1)).getLast? with
  | none =>
    rw [found] at lit
    exact .inl lit
  | some it =>
    rw [found] at lit
    have member := (List.mem_filter.mp (List.mem_of_getLast? found)).1
    exact .inr (List.any_eq_true.mpr ⟨it,member,lit⟩)

/-- With the level right before, it is right after exactly when the pin is not darkened. -/
theorem finish_iff (its : List (Bool × Bool)) :
    finish false (its.foldl next ⟨false, some (.digitalWrite (its.any (fun it => it.2))), false⟩) =
      some (.digitalWrite (its.any (fun it => it.1))) ↔ darkens its = false := by
  have parts := List.takeWhile_append_dropWhile (p := fun it : Bool × Bool => !it.1) (l := its)
  rw [foldl_split]
  simp only [darkens]
  have dark : (its.takeWhile (fun it => !it.1)).any (fun it => it.1) = false := by
    rw [List.any_eq_false]
    intro it member
    simpa using List.mem_takeWhile_imp member
  have head : ∀ it rest, its.dropWhile (fun it => !it.1) = it :: rest → it.1 = true := by
    intro it rest same
    have first := List.head?_dropWhile_not (fun it : Bool × Bool => !it.1) its
    simpa [same] using first
  generalize its.takeWhile (fun it => !it.1) = before at parts dark ⊢
  generalize its.dropWhile (fun it => !it.1) = after at parts head ⊢
  subst parts
  rw [List.any_append,List.any_append,dark,Bool.false_or]
  cases after with
  | nil => cases before.any (fun it => it.2) <;> simp [finish]
  | cons it rest =>
    obtain ⟨value,last⟩ := it
    have first : value = true := head _ rest rfl
    subst first
    have bright : ((true, last) :: rest).any (fun it => it.1) = true := rfl
    have begun (level : Option PinWrite) :
        ((true, last) :: rest).foldl next ⟨false, level, false⟩ = rest.foldl next ⟨true, level, last⟩ := rfl
    have latest : (((true, last) :: rest).filter (fun it => it.1)).getLast?.any (fun it => it.2) =
        ((rest.filter (fun it => it.1)).getLast?.map Prod.snd).getD last := by
      rw [List.filter_cons_of_pos rfl,List.getLast?_cons]
      cases (rest.filter (fun it => it.1)).getLast? <;> rfl
    rw [bright,begun,latest]
    simp only [finish,foldl_value,foldl_level,List.all_cons,Bool.true_or,Bool.true_and]
    cases steady : rest.all (fun it => it.1 || !it.2) with
    | false => simp
    | true =>
      rw [foldl_lit rest steady]
      cases lit : ((rest.filter (fun it => it.1)).getLast?.map Prod.snd).getD last with
      | false => simp
      | true =>
        -- no write at the end: the level is the one from before the first true definition
        have on : ((true, last) :: rest).any (fun it => it.2) = true := by
          rw [List.any_cons,Bool.or_eq_true]
          exact any_of_last lit
        rw [on]
        cases before.any (fun it => it.2) <;> simp

theorem finish_forced (its : List (Bool × Bool)) (level : Option PinWrite) :
    finish true (its.foldl next ⟨false, level, false⟩) = some (.digitalWrite (its.any (fun it => it.1))) := by
  simp [finish,foldl_value]

end Lamp

/-! ### The loop over the definitions of a pin -/

namespace Pins

def fixed (ctl : PinCtl) : Str × Int × Int := (ctl.function, ctl.pwm, ctl.maxTime)

/-- The last state of the definition that is pointed at. -/
def litAt (group : List PinCtl) (index : Nat) : Bool := ((group[index]?).map PinCtl.lastState).getD false

/-- The index is that of a definition the loop has been through, if there is one. -/
def Points (group : List PinCtl) (index : Nat) : Prop := group = [] ∧ index = 0 ∨ index < group.length

theorem map_fixed_modify (group : List PinCtl) (index : Nat) (f : PinCtl → PinCtl)
    (kept : ∀ ctl, fixed (f ctl) = fixed ctl) : (group.modify index f).map fixed = group.map fixed := by
  apply List.ext_getElem?
  intro k
  simp only [List.getElem?_map,List.getElem?_modify]
  split
  · cases group[k]? <;> simp [kept]
  · simp

/-- An evaluation: the value is noted, nothing is written. -/
theorem evaluate_returned {i : Inputs} {pin : Int} {function : Str} {s s' : Pins} {value : Bool}
    (ran : evaluate i pin function s = .ok value s') :
    s'.writes = s.writes ∧ s'.evaluated = s.evaluated ++ [(pin, value)] := by
  obtain ⟨result,s1,evaluated,later⟩ := returned_of_bind ran
  simp only [onExpr,focus] at evaluated
  split at evaluated
  · cases evaluated
    cases later
    exact ⟨rfl,rfl⟩
  · cases evaluated

def Off (group : List PinCtl) : Prop := ∀ ctl ∈ group, ctl.lastState = false

theorem off_append {front : List PinCtl} (before : Off front) (it : PinCtl) (off : it.lastState = false) :
    Off (front ++ [it]) := by
  intro ctl member
  rcases List.mem_append.mp member with old | new
  · exact before ctl old
  · rw [List.mem_singleton.mp new]
    exact off

theorem off_modify {group : List PinCtl} (before : Off group) (index : Nat) (f : PinCtl → PinCtl)
    (off : ∀ ctl, (f ctl).lastState = false) : Off (group.modify index f) := by
  intro ctl member
  obtain ⟨k,here⟩ := List.mem_iff_getElem?.mp member
  rw [List.getElem?_modify] at here
  obtain ⟨old,found,rfl⟩ := Option.map_eq_some_iff.mp here
  split
  · exact off old
  · exact before old (List.mem_of_getElem? found)

/-- The outcome of the loop, the values being `values`. -/
structure Scanned (pin : Int) (front rest : List PinCtl) (pinCtl : Nat) (value : Bool) (s : Pins)
    (values : List Bool) (out : List PinCtl × Nat × Bool) (s' : Pins) : Prop where
  count : values.length = rest.length
  evaluated : s'.evaluated = s.evaluated ++ values.map (fun value => (pin, value))
  kept : out.1.map fixed = (front ++ rest).map fixed
  points : Points out.1 out.2.1
  lamp : (values.zip (rest.map PinCtl.lastState)).foldl Lamp.next ⟨value, s.level pin, litAt front pinCtl⟩ =
    ⟨out.2.2, s'.level pin, litAt out.1 out.2.1⟩
  dark : (value = false → Off front) → out.2.2 = false → Off out.1
  others : ∀ other, other ≠ pin → s'.level other = s.level other

theorem level_write (s : Pins) (pin other : Int) (w : PinWrite) :
    Pins.level { s with writes := (pin, w) :: s.writes } other = if other = pin then some w else s.level other :=
  ParseExpr.lookup_entry pin other w s.writes

/-- One turn, then the rest. -/
theorem Scanned.cons {pin : Int} {it : PinCtl} {front front' rest : List PinCtl} {pinCtl pinCtl' : Nat}
    {value value' v : Bool} {s s1 s' : Pins} {values : List Bool} {out : List PinCtl × Nat × Bool}
    (evaluated : s1.evaluated = s.evaluated ++ [(pin, v)])
    (kept : front'.map fixed = (front ++ [it]).map fixed)
    (lamp : Lamp.next ⟨value, s.level pin, litAt front pinCtl⟩ (v, it.lastState) =
      ⟨value', s1.level pin, litAt front' pinCtl'⟩)
    (dark : (value = false → Off front) → value' = false → Off front')
    (others : ∀ other, other ≠ pin → s1.level other = s.level other)
    (later : Scanned pin front' rest pinCtl' value' s1 values out s') :
    Scanned pin front (it :: rest) pinCtl value s (v :: values) out s' where
  count := by rw [List.length_cons,later.count,List.length_cons]
  evaluated := by
    rw [later.evaluated,evaluated,List.append_assoc]
    rfl
  kept := by
    rw [later.kept,List.map_append,kept,← List.map_append,List.append_assoc]
    rfl
  points := later.points
  lamp := by
    rw [List.map_cons,List.zip_cons_cons,List.foldl_cons,lamp]
    exact later.lamp
  dark := fun before => later.dark (dark before)
  others := fun other apart => (later.others other apart).trans (others other apart)

theorem litAt_append {front : List PinCtl} {pinCtl : Nat} (points : Points front pinCtl) (it : PinCtl)
    (off : it.lastState = false) : litAt (front ++ [it]) pinCtl = litAt front pinCtl := by
  rcases points with ⟨rfl,rfl⟩ | inside
  · exact off
  · simp only [litAt,List.getElem?_append_left inside]

theorem litAt_modify (group : List PinCtl) (index : Nat) (f : PinCtl → PinCtl)
    (off : ∀ ctl, (f ctl).lastState = false) : litAt (group.modify index f) index = false := by
  simp only [litAt,List.getElem?_modify_eq,Option.map_eq_map,Option.map_map]
  cases group[index]? with
  | none => rfl
  | some ctl => exact off ctl

theorem points_append {front : List PinCtl} {pinCtl : Nat} (points : Points front pinCtl) (it : PinCtl) :
    pinCtl < (front ++ [it]).length := by
  rcases points with ⟨rfl,rfl⟩ | inside
  · exact Nat.zero_lt_one
  · rw [List.length_append]
    omega

theorem scan_scanned {i : Inputs} {pin : Int} {front rest : List PinCtl} {pinCtl : Nat} {value : Bool} {s s' : Pins}
    {out : List PinCtl × Nat × Bool} (plain : ∀ ctl ∈ rest, ctl.pwm = 100) (points : Points front pinCtl)
    (ran : scan i pin front rest pinCtl value s = .ok out s') :
    ∃ values, Scanned pin front rest pinCtl value s values out s' := by
  induction rest generalizing front pinCtl value s with
  | nil =>
    cases ran
    exact ⟨[],rfl,by simp,by simp,points,rfl,fun before off => before off,fun _ _ => rfl⟩
  | cons it rest ih =>
    have later {front' : List PinCtl} {pinCtl' : Nat} {value' : Bool} {s1 : Pins} (next : Points front' pinCtl')
        (ran : scan i pin front' rest pinCtl' value' s1 = .ok out s') :
        ∃ values, Scanned pin front' rest pinCtl' value' s1 values out s' :=
      ih (fun ctl member => plain ctl (List.mem_cons_of_mem _ member)) next ran
    obtain ⟨v,s1,evaluated,ran⟩ := returned_of_bind ran
    obtain ⟨writes,noted⟩ := evaluate_returned evaluated
    have same (other : Int) : s1.level other = s.level other := congrArg (List.lookup other) writes
    cases v with
    | true =>
      have next : Points (front ++ [it]) front.length := .inr (by simp)
      obtain ⟨values,scanned⟩ := later next ran
      refine ⟨true :: values,scanned.cons noted rfl ?_ (fun _ on => by cases on) (fun other _ => same other)⟩
      simp [Lamp.next,same,litAt]
    | false =>
      simp only [Bool.false_eq_true,↓reduceIte] at ran
      cases off : it.lastState with
      | false =>
        simp only [off,Bool.false_eq_true,↓reduceIte] at ran
        obtain ⟨values,scanned⟩ := later (.inr (points_append points it)) ran
        refine ⟨false :: values,scanned.cons noted rfl ?_ ?_ (fun other _ => same other)⟩
        · simp [Lamp.next,off,same,litAt_append points it off]
        · intro before dark
          exact off_append (before dark) it off
      | true =>
        have digital : (if it.pwm ≠ 100 then PinWrite.softPwmStop else .digitalWrite value) = .digitalWrite value :=
          if_neg (not_not_intro (plain it List.mem_cons_self))
        rw [off,if_pos rfl,digital] at ran
        obtain ⟨_,s2,written,ran⟩ := returned_of_bind ran
        cases written
        have inside := points_append points { it with lastState := false }
        obtain ⟨values,scanned⟩ := later (.inr (by rw [List.length_modify]; exact inside)) ran
        refine ⟨false :: values,scanned.cons ?_ ?_ ?_ ?_ ?_⟩
        · exact noted
        · refine Eq.trans (map_fixed_modify _ _ _ (fun _ => rfl)) ?_
          rw [List.map_append,List.map_append]
          rfl
        · rw [litAt_modify _ _ _ (fun _ => rfl),level_write,if_pos rfl,off]
          rfl
        · intro before dark
          exact off_modify (off_append (before dark) _ rfl) _ _ (fun _ => rfl)
        · intro other apart
          rw [level_write,if_neg apart]
          exact same other

def Plain (group : List PinCtl) : Prop := ∀ ctl ∈ group, ctl.pwm = 100 ∧ ctl.maxTime = 0

/-- What is said of the fixed part of all definitions stays true. -/
theorem kept_forall {group group' : List PinCtl} (kept : group'.map fixed = group.map fixed)
    (good : Str × Int × Int → Prop) (all : ∀ ctl ∈ group, good (fixed ctl)) : ∀ ctl ∈ group', good (fixed ctl) := by
  intro ctl member
  have inside : fixed ctl ∈ group.map fixed := kept ▸ List.mem_map_of_mem member
  obtain ⟨old,member,same⟩ := List.mem_map.mp inside
  rw [← same]
  exact all old member

theorem plain_of_kept {group group' : List PinCtl} (kept : group'.map fixed = group.map fixed) (plain : Plain group) :
    Plain group' :=
  kept_forall kept (fun it => it.2.1 = 100 ∧ it.2.2 = 0) plain

theorem zip_any {values : List Bool} {states : List Bool} (count : values.length = states.length) :
    (values.zip states).any (fun it => it.1) = values.any id := by
  have firsts : (values.zip states).map Prod.fst = values := List.map_fst_zip (Nat.le_of_eq count)
  conv_rhs => rw [← firsts,List.any_map]
  rfl

theorem zip_any_last {values : List Bool} {group : List PinCtl} (count : values.length = group.length) :
    (values.zip (group.map PinCtl.lastState)).any (fun it => it.2) = group.any PinCtl.lastState := by
  have lasts : (values.zip (group.map PinCtl.lastState)).map Prod.snd = group.map PinCtl.lastState :=
    List.map_snd_zip (by rw [List.length_map]; exact Nat.le_of_eq count.symm)
  have both := congrArg (fun states => states.any id) lasts
  simp only [List.any_map] at both
  exact both

structure Committed (force : Bool) (pin : Int) (group : List PinCtl) (s : Pins) (values : List Bool)
    (group' : List PinCtl) (s' : Pins) : Prop where
  count : values.length = group.length
  evaluated : s'.evaluated = s.evaluated ++ values.map (fun value => (pin, value))
  kept : group'.map fixed = group.map fixed
  level : s'.level pin = Lamp.finish force
    ((values.zip (group.map PinCtl.lastState)).foldl Lamp.next ⟨false, s.level pin, false⟩)
  states : group'.any PinCtl.lastState = values.any id
  others : ∀ other, other ≠ pin → s'.level other = s.level other

theorem any_modify {group : List PinCtl} {index : Nat} (inside : index < group.length) (f : PinCtl → PinCtl)
    (on : ∀ ctl, (f ctl).lastState = true) : (group.modify index f).any PinCtl.lastState = true := by
  rw [List.any_eq_true]
  refine ⟨f group[index],List.mem_of_getElem? (i := index) ?_,on _⟩
  rw [List.getElem?_modify_eq,List.getElem?_eq_getElem inside]
  rfl

structure Settled (force : Bool) (pin : Int) (group : List PinCtl) (index : Nat) (value : Bool) (s : Pins)
    (group' : List PinCtl) (s' : Pins) : Prop where
  evaluated : s'.evaluated = s.evaluated
  kept : group'.map fixed = group.map fixed
  level : s'.level pin = Lamp.finish force ⟨value, s.level pin, litAt group index⟩
  off : value = false → Off group → Off group'
  on : value = true → index < group.length → group'.any PinCtl.lastState = true
  others : ∀ other, other ≠ pin → s'.level other = s.level other

theorem litAt_eq (group : List PinCtl) (index : Nat) :
    (group[index]?.getD { function := [] }).lastState = litAt group index := by
  cases found : group[index]? <;> simp [litAt,found]

theorem plain_at {group : List PinCtl} (plain : Plain group) (index : Nat) :
    (group[index]?.getD { function := [] }).pwm = 100 ∧ (group[index]?.getD { function := [] }).maxTime = 0 := by
  cases found : group[index]? with
  | none => exact ⟨rfl,rfl⟩
  | some ctl => exact plain ctl (List.mem_of_getElem? found)

theorem settle_settled {i : Inputs} {pin : Int} {force : Bool} {group group' : List PinCtl} {index : Nat}
    {value : Bool} {s s' : Pins} (plain : Plain group)
    (ran : settle i pin force group index value s = .ok group' s') :
    Settled force pin group index value s group' s' := by
  obtain ⟨hundred,forever⟩ := plain_at plain index
  have written : switch pin (group[index]?.getD { function := [] }) value = write pin (.digitalWrite value) :=
    if_neg (not_not_intro hundred)
  have waits : expire i pin (group[index]?.getD { function := [] }) value = pure () :=
    if_neg (fun limited => limited.1 forever)
  simp only [settle,litAt_eq,written,waits] at ran
  by_cases changes : force = true ∨ value ≠ litAt group index
  · rw [if_pos changes] at ran
    obtain ⟨_,s2,⟨⟩,ran⟩ := returned_of_bind ran
    obtain ⟨now,s3,⟨⟩,⟨⟩⟩ := returned_of_bind ran
    refine ⟨rfl,map_fixed_modify _ _ _ (fun _ => rfl),?_,?_,?_,?_⟩
    · refine (level_write s pin pin _).trans ?_
      rw [if_pos rfl,Lamp.finish,if_pos changes]
    · rintro rfl before
      exact off_modify before _ _ (fun _ => rfl)
    · rintro rfl inside
      exact any_modify inside _ (fun _ => rfl)
    · intro other apart
      exact (level_write s pin other _).trans (if_neg apart)
  · rw [if_neg changes] at ran
    cases ran
    refine ⟨rfl,rfl,?_,fun _ before => before,?_,fun _ _ => rfl⟩
    · rw [Lamp.finish,if_neg changes]
    · rintro rfl inside
      have lit : litAt group index = true := by
        simp only [not_or,not_not] at changes
        exact changes.2.symm
      rw [litAt,List.getElem?_eq_getElem inside] at lit
      exact List.any_eq_true.mpr ⟨_,List.getElem_mem inside,lit⟩

theorem commitPin_committed {i : Inputs} {pin : Int} {force : Bool} {group group' : List PinCtl} {s s' : Pins}
    (plain : Plain group) (ran : commitPin i pin force group s = .ok group' s') :
    ∃ values, Committed force pin group s values group' s' := by
  obtain ⟨⟨scanned,index,value⟩,s1,loop,ran⟩ := returned_of_bind ran
  obtain ⟨values,outcome⟩ := scan_scanned (fun ctl member => (plain ctl member).1) (.inl ⟨rfl,rfl⟩) loop
  have settled := settle_settled (plain_of_kept outcome.kept plain) ran
  have values_any : values.any id = value := by
    have total := congrArg Lamp.value outcome.lamp
    rw [Lamp.foldl_value,zip_any (by rw [List.length_map]; exact outcome.count)] at total
    exact total
  refine ⟨values,outcome.count,settled.evaluated.trans outcome.evaluated,settled.kept.trans outcome.kept,?_,?_,?_⟩
  · rw [settled.level]
    exact congrArg (Lamp.finish force) outcome.lamp.symm
  · rw [values_any]
    cases value with
    | true =>
      rcases outcome.points with ⟨empty,_⟩ | inside
      · have none : group.length = 0 := by
          have same := congrArg List.length outcome.kept
          rw [empty,List.length_map,List.length_map] at same
          exact same.symm
        rw [List.length_eq_zero_iff.mp (outcome.count.trans none)] at values_any
        cases values_any
      · exact settled.on rfl inside
    | false =>
      have off := settled.off rfl (outcome.dark (fun _ _ member => by cases member) rfl)
      rw [List.any_eq_false]
      intro ctl member
      rw [off ctl member]
      exact Bool.false_ne_true
  · intro other apart
    exact (settled.others other apart).trans (outcome.others other apart)

/-! ### A whole commit -/

structure Pinned (force : Bool) (start : Int → Option PinWrite) (s' : Pins) (before after : Int × List PinCtl) :
    Prop where
  pin : after.1 = before.1
  kept : after.2.map fixed = before.2.map fixed
  count : (s'.values before.1).length = before.2.length
  level : s'.level before.1 = Lamp.finish force
    (((s'.values before.1).zip (before.2.map PinCtl.lastState)).foldl Lamp.next ⟨false, start before.1, false⟩)
  states : after.2.any PinCtl.lastState = (s'.values before.1).any id

theorem values_append {s s' : Pins} {pin : Int} {values : List Bool}
    (evaluated : s'.evaluated = s.evaluated ++ values.map (fun value => (pin, value))) (other : Int) :
    s'.values other = s.values other ++ if other = pin then values else [] := by
  unfold Pins.values
  rw [evaluated,List.filter_append,List.map_append]
  congr 1
  by_cases same : other = pin
  · subst same
    rw [if_pos rfl,List.filter_eq_self.mpr]
    · simp
    · intro it member
      obtain ⟨value,_,rfl⟩ := List.mem_map.mp member
      simp
  · rw [if_neg same,List.filter_eq_nil_iff.mpr]
    · rfl
    · intro it member
      obtain ⟨value,_,rfl⟩ := List.mem_map.mp member
      simpa using Ne.symm same

theorem commitPins_pinned {i : Inputs} {force : Bool} {start : Int → Option PinWrite} {pins pins' : PinMap}
    {s s' : Pins} (distinct : (pins.map Prod.fst).Nodup) (plain : ∀ it ∈ pins, Plain it.2)
    (fresh : ∀ it ∈ pins, s.level it.1 = start it.1 ∧ s.values it.1 = [])
    (ran : commitPins i force pins s = .ok pins' s') :
    List.Forall₂ (Pinned force start s') pins pins' ∧
      ∀ other, other ∉ pins.map Prod.fst → s'.level other = s.level other ∧ s'.values other = s.values other := by
  induction pins generalizing pins' s with
  | nil =>
    cases ran
    exact ⟨.nil,fun _ _ => ⟨rfl,rfl⟩⟩
  | cons it rest ih =>
    obtain ⟨pin,group⟩ := it
    simp only [List.map_cons,List.nodup_cons] at distinct
    obtain ⟨group',s1,first,ran⟩ := returned_of_bind ran
    obtain ⟨rest',s2,later,⟨⟩⟩ := returned_of_bind ran
    obtain ⟨values,committed⟩ := commitPin_committed (plain _ List.mem_cons_self) first
    have apart : ∀ it ∈ rest, it.1 ≠ pin := by
      rintro it member rfl
      exact distinct.1 (List.mem_map_of_mem member)
    -- the other pins are as they were
    have same (other : Int) (away : other ≠ pin) : s1.level other = s.level other ∧ s1.values other = s.values other := by
      refine ⟨committed.others other away,?_⟩
      rw [values_append committed.evaluated,if_neg away,List.append_nil]
    obtain ⟨pinned,others⟩ := ih distinct.2 (fun it member => plain it (List.mem_cons_of_mem _ member))
      (fun it member => by
        obtain ⟨level,valued⟩ := same it.1 (apart it member)
        rw [level,valued]
        exact fresh it (List.mem_cons_of_mem _ member)) later
    obtain ⟨level,valued⟩ := others pin distinct.1
    obtain ⟨began,empty⟩ := fresh _ List.mem_cons_self
    have here : s'.values pin = values := by
      rw [valued,values_append committed.evaluated,empty,if_pos rfl]
      rfl
    refine ⟨.cons ⟨rfl,committed.kept,?_,?_,?_⟩ pinned,?_⟩
    · rw [here,committed.count]
    · rw [here,level,committed.level,began]
    · rw [here,committed.states]
    · intro other absent
      simp only [List.map_cons,List.mem_cons,not_or] at absent
      obtain ⟨level,valued⟩ := others other absent.2
      exact ⟨level.trans (same other absent.1).1,valued.trans (same other absent.1).2⟩

theorem commit_pinned {i : Inputs} {force : Bool} {s s' : Pins} (distinct : (s.pins.map Prod.fst).Nodup)
    (plain : ∀ it ∈ s.pins, Plain it.2) (ran : commit i force s = .ok () s') :
    List.Forall₂ (Pinned force s.level s') s.pins s'.pins := by
  obtain ⟨_,s0,⟨⟩,ran⟩ := returned_of_bind ran
  obtain ⟨_,_,⟨⟩,ran⟩ := returned_of_bind ran
  obtain ⟨pins,s1,loop,⟨⟩⟩ := returned_of_bind ran
  have fresh : ∀ it ∈ s.pins, s.level it.1 = s.level it.1 ∧ ([] : List Bool) = [] := fun _ _ => ⟨rfl,rfl⟩
  obtain ⟨pinned,_⟩ := commitPins_pinned distinct plain fresh loop
  exact pinned.imp (fun _ _ it => ⟨it.pin,it.kept,it.count,it.level,it.states⟩)

/-- What is said of every pin before says something of every pin after. -/
theorem forall₂_forall {α β : Type} {rel : α → β → Prop} {l : List α} {l' : List β}
    (related : List.Forall₂ rel l l') (before : α → Prop) (after : β → Prop)
    (same : ∀ a ∈ l, ∀ b, rel a b → (before a ↔ after b)) : (∀ a ∈ l, before a) ↔ ∀ b ∈ l', after b := by
  induction related with
  | nil => simp
  | @cons a b rest rest' here _ ih =>
    rw [List.forall_mem_cons,List.forall_mem_cons,same a List.mem_cons_self b here,
      ih (fun a member => same a (List.mem_cons_of_mem _ member))]

/-! ### No commit throws -/

def Accepted (function : Str) : Prop := ∀ i, Returns (ParseExpr.getResult i function)

theorem evaluate_returns (i : Inputs) (pin : Int) {function : Str} (accepted : Accepted function) :
    Returns (evaluate i pin function) := by
  apply returns_bind (returns_focus (accepted i))
  intro result
  exact returns_bind (returns_modify _) (fun _ => returns_pure _)

theorem scan_returns (i : Inputs) (pin : Int) {rest : List PinCtl}
    (accepted : ∀ ctl ∈ rest, Accepted ctl.function) (front : List PinCtl) (pinCtl : Nat) (value : Bool) :
    Returns (scan i pin front rest pinCtl value) := by
  induction rest generalizing front pinCtl value with
  | nil => exact returns_pure _
  | cons it rest ih =>
    have later (front : List PinCtl) (pinCtl : Nat) (value : Bool) :=
      ih (fun ctl member => accepted ctl (List.mem_cons_of_mem _ member)) front pinCtl value
    apply returns_bind (evaluate_returns i pin (accepted it List.mem_cons_self))
    intro v
    apply returns_ite (later _ _ _)
    apply returns_ite _ (later _ _ _)
    exact returns_bind (returns_modify _) (fun _ => later _ _ _)

theorem time_returns (clock : Nat → Int) : Returns (onExpr (ParseExpr.time clock)) := fun _ => rfl

theorem settle_returns (i : Inputs) (pin : Int) (force : Bool) (group : List PinCtl) (index : Nat) (value : Bool) :
    Returns (settle i pin force group index value) := by
  apply returns_ite
  · apply returns_bind
    · apply returns_ite
      · exact returns_ite (returns_bind (returns_modify _) (fun _ => returns_modify _)) (returns_pure _)
      · exact returns_modify _
    · intro _
      exact returns_bind (time_returns i.clock) (fun _ => returns_pure _)
  · apply returns_bind
    · apply returns_ite _ (returns_pure _)
      apply returns_bind (time_returns i.clock)
      intro now
      exact returns_ite (returns_modify _) (returns_pure _)
    · exact fun _ => returns_pure _

theorem commitPins_returns (i : Inputs) (force : Bool) {pins : PinMap}
    (accepted : ∀ it ∈ pins, ∀ ctl ∈ it.2, Accepted ctl.function) : Returns (commitPins i force pins) := by
  induction pins with
  | nil => exact returns_pure _
  | cons it rest ih =>
    have first : Returns (commitPin i it.1 force it.2) :=
      returns_bind (scan_returns i it.1 (accepted it List.mem_cons_self) _ _ _)
        (fun out => settle_returns i it.1 force out.1 out.2.1 out.2.2)
    apply returns_bind first
    intro group
    exact returns_bind (ih (fun it member => accepted it (List.mem_cons_of_mem _ member))) (fun _ => returns_pure _)

theorem commit_returns (i : Inputs) (force : Bool) {s : Pins}
    (accepted : ∀ it ∈ s.pins, ∀ ctl ∈ it.2, Accepted ctl.function) : ∃ s', commit i force s = .ok () s' := by
  have loop := commitPins_returns i force accepted
    { s with parseExpr := { s.parseExpr with ticks := 0 }, evaluated := [] }
  obtain ⟨pins,s1,ran⟩ := ok_of_returned loop
  refine ⟨{ s1 with pins },?_⟩
  simp only [commit,bind_apply,modify_apply,get_apply,ran]

/-! ### Runs -/

/-- The pins as `init` makes them. -/
structure Wired (s : Pins) : Prop where
  ordered : (s.pins.map Prod.fst).Pairwise (· < ·)
  plain : ∀ it ∈ s.pins, Plain it.2
  accepted : ∀ it ∈ s.pins, ∀ ctl ∈ it.2, Accepted ctl.function

theorem Wired.distinct {s : Pins} (wired : s.Wired) : (s.pins.map Prod.fst).Nodup :=
  wired.ordered.imp (fun less => Int.ne_of_lt less)

theorem insert_keys (pin : Int) (pinCtl : PinCtl) (pins : PinMap) :
    ∀ it ∈ pins.insert pin pinCtl, it.1 = pin ∨ it.1 ∈ pins.map Prod.fst := by
  induction pins with
  | nil => simp [PinMap.insert]
  | cons first rest ih =>
    intro it member
    simp only [PinMap.insert] at member
    split at member
    · rcases List.mem_cons.mp member with rfl | later
      · exact .inl rfl
      · exact .inr (List.mem_map_of_mem later)
    · split at member
      · rcases List.mem_cons.mp member with rfl | later
        · exact .inr List.mem_cons_self
        · exact .inr (List.mem_map_of_mem (List.mem_cons_of_mem _ later))
      · rcases List.mem_cons.mp member with rfl | later
        · exact .inr List.mem_cons_self
        · exact (ih it later).imp id (List.mem_cons_of_mem _)

theorem insert_ordered (pin : Int) (pinCtl : PinCtl) {pins : PinMap}
    (ordered : (pins.map Prod.fst).Pairwise (· < ·)) :
    ((pins.insert pin pinCtl).map Prod.fst).Pairwise (· < ·) := by
  induction pins with
  | nil => simp [PinMap.insert]
  | cons first rest ih =>
    obtain ⟨key,group⟩ := first
    simp only [List.map_cons,List.pairwise_cons] at ordered
    simp only [PinMap.insert]
    split
    · rename_i below
      simp only [List.map_cons,List.pairwise_cons]
      refine ⟨?_,ordered⟩
      intro other member
      rcases List.mem_cons.mp member with rfl | later
      · exact below
      · exact Int.lt_trans below (ordered.1 other later)
    · split
      · exact List.pairwise_cons.mpr ordered
      · rename_i notBelow other
        refine List.pairwise_cons.mpr ⟨?_,ih ordered.2⟩
        intro key' member
        obtain ⟨it,inside,rfl⟩ := List.mem_map.mp member
        rcases insert_keys pin pinCtl rest it inside with same | old
        · rw [same]
          omega
        · exact ordered.1 it.1 old

/-- What is true of every definition and of the new one. -/
theorem insert_forall {good : PinCtl → Prop} (pin : Int) {pinCtl : PinCtl} (new : good pinCtl) {pins : PinMap}
    (old : ∀ it ∈ pins, ∀ ctl ∈ it.2, good ctl) : ∀ it ∈ pins.insert pin pinCtl, ∀ ctl ∈ it.2, good ctl := by
  induction pins with
  | nil => simpa [PinMap.insert] using new
  | cons first rest ih =>
    obtain ⟨here,later⟩ := List.forall_mem_cons.mp old
    simp only [PinMap.insert]
    split
    · refine List.forall_mem_cons.mpr ⟨?_,old⟩
      simpa using new
    · split
      · refine List.forall_mem_cons.mpr ⟨?_,later⟩
        intro ctl member
        rcases List.mem_append.mp member with before | last
        · exact here ctl before
        · rw [List.mem_singleton.mp last]
          exact new
      · exact List.forall_mem_cons.mpr ⟨here,ih later⟩

def Definition.pinCtl (d : Definition) : PinCtl := { function := d.function, pwm := d.pwm, maxTime := d.maxTime }

/-- What a line that was accepted has done. -/
theorem define_inserts {i : Inputs} {d : Definition} {s s' : Pins} (ran : define i d s = .ok () s') :
    Accepted d.function ∧ ∃ v p, ParseExpr.getResult i d.function s.parseExpr = .ok v p ∧
      s' = { s with parseExpr := p, pins := s.pins.insert d.pin d.pinCtl } := by
  obtain ⟨result,s1,tested,ran⟩ := returned_of_bind ran
  simp only [onExpr,focus] at tested
  split at tested
  · rename_i p evaluated
    cases tested
    split at ran
    · cases ran
    · cases ran
      refine ⟨fun i' p' => ?_,result,p,evaluated,rfl⟩
      exact ParseExpr.getResult_returned (by rw [evaluated]; rfl) i' p'
  · cases tested

theorem define_wired {i : Inputs} {d : Definition} (hundred : d.pwm = 100) (forever : d.maxTime = 0) {s s' : Pins}
    (wired : s.Wired) (ran : define i d s = .ok () s') : s'.Wired := by
  obtain ⟨accepted,_,p,_,rfl⟩ := define_inserts ran
  constructor
  · exact insert_ordered _ _ wired.ordered
  · exact insert_forall d.pin ⟨hundred,forever⟩ wired.plain
  · exact insert_forall d.pin accepted wired.accepted

theorem defined_wired {i : Inputs} {definitions : List Definition}
    (plain : ∀ d ∈ definitions, d.pwm = 100 ∧ d.maxTime = 0) {s s' : Pins} (wired : s.Wired)
    (ran : definitions.forM (define i) s = .ok () s') : s'.Wired := by
  induction definitions generalizing s with
  | nil =>
    cases ran
    exact wired
  | cons d rest ih =>
    obtain ⟨here,later⟩ := List.forall_mem_cons.mp plain
    obtain ⟨_,s1,first,ran⟩ := returned_of_bind ran
    exact ih later (define_wired here.1 here.2 wired first) ran

theorem pinned_keys {force : Bool} {start : Int → Option PinWrite} {s' : Pins} {pins pins' : PinMap}
    (pinned : List.Forall₂ (Pinned force start s') pins pins') : pins'.map Prod.fst = pins.map Prod.fst := by
  induction pinned with
  | nil => rfl
  | cons here _ ih => rw [List.map_cons,List.map_cons,ih,here.pin]

theorem commit_wired {i : Inputs} {force : Bool} {s s' : Pins} (wired : s.Wired)
    (ran : commit i force s = .ok () s') : s'.Wired := by
  have pinned := commit_pinned wired.distinct wired.plain ran
  refine ⟨pinned_keys pinned ▸ wired.ordered,?_,?_⟩
  · exact (forall₂_forall pinned _ _ (fun it _ it' here =>
      ⟨plain_of_kept here.kept,plain_of_kept here.kept.symm⟩)).mp wired.plain
  · have carried {group group' : List PinCtl} (kept : group'.map fixed = group.map fixed) :=
      kept_forall kept (fun it => Accepted it.1)
    exact (forall₂_forall pinned _ _ (fun it _ it' here =>
      ⟨carried here.kept,carried here.kept.symm⟩)).mp wired.accepted

/-- After a commit: the level of every pin is the OR of the values of its definitions. -/
def Ored (s : Pins) : Prop := ∀ it ∈ s.pins, (s.values it.1).length = it.2.length ∧
  s.level it.1 = some (.digitalWrite ((s.values it.1).any id))

/-- A commit in which no pin is switched off and not on again. The values are those of the
expressions, the states those before the commit. -/
def Relit (s : Pins) (i : Inputs) : Prop := ∀ it ∈ s.pins,
  Lamp.darkens (((s.step i).values it.1).zip (it.2.map PinCtl.lastState)) = false

instance (s : Pins) : Decidable s.Ored := inferInstanceAs (Decidable (∀ it ∈ s.pins, _))

instance (s : Pins) (i : Inputs) : Decidable (s.Relit i) := inferInstanceAs (Decidable (∀ it ∈ s.pins, _))

structure Lit (s : Pins) : Prop extends Wired s where
  level : ∀ it ∈ s.pins, s.level it.1 = some (.digitalWrite (it.2.any PinCtl.lastState))

/-- The levels and the states agree after a commit exactly when every level is the OR. -/
theorem lit_iff_ored {force : Bool} {start : Int → Option PinWrite} {s s' : Pins}
    (pinned : List.Forall₂ (Pinned force start s') s.pins s'.pins) :
    (∀ it ∈ s'.pins, s'.level it.1 = some (.digitalWrite (it.2.any PinCtl.lastState))) ↔ s'.Ored := by
  have lit := forall₂_forall pinned
    (fun it => s'.level it.1 = some (.digitalWrite ((s'.values it.1).any id)))
    (fun it' => s'.level it'.1 = some (.digitalWrite (it'.2.any PinCtl.lastState)))
    (fun it _ it' here => by rw [here.pin,here.states])
  have ored := forall₂_forall pinned
    (fun it => s'.level it.1 = some (.digitalWrite ((s'.values it.1).any id)))
    (fun it' => (s'.values it'.1).length = it'.2.length ∧
      s'.level it'.1 = some (.digitalWrite ((s'.values it'.1).any id))) (by
        intro it _ it' here
        have size : it'.2.length = it.2.length := by
          have lengths := congrArg List.length here.kept
          rwa [List.length_map,List.length_map] at lengths
        rw [here.pin,size,here.count]
        simp)
  exact lit.symm.trans ored

/-- A forced commit sets every pin. -/
theorem forced_lit {i : Inputs} {s s' : Pins} (wired : s.Wired) (ran : commit i true s = .ok () s') :
    s'.Lit ∧ s'.Ored := by
  have pinned := commit_pinned wired.distinct wired.plain ran
  have levels := (forall₂_forall pinned (fun _ => True)
    (fun it' => s'.level it'.1 = some (.digitalWrite (it'.2.any PinCtl.lastState))) (by
      intro it _ it' here
      rw [here.pin,here.level,Lamp.finish_forced,zip_any (by rw [List.length_map]; exact here.count),here.states]
      simp)).mp (fun _ _ => trivial)
  exact ⟨⟨commit_wired wired ran,levels⟩,(lit_iff_ored pinned).mp levels⟩

/-- One commit: every level is the OR afterwards exactly when no pin is left dark. -/
theorem step_ored {s : Pins} (lit : s.Lit) (i : Inputs) :
    returned (commit i false s) = true ∧ ((s.step i).Ored ↔ s.Relit i) ∧ (s.Relit i → (s.step i).Lit) := by
  obtain ⟨s',ran⟩ := commit_returns i false lit.accepted
  have next : s.step i = s' := by rw [step,ran,final_ok]
  have pinned := commit_pinned lit.distinct lit.plain ran
  have relit : (∀ it' ∈ s'.pins, s'.level it'.1 = some (.digitalWrite (it'.2.any PinCtl.lastState))) ↔ s.Relit i := by
    rw [Relit,next]
    refine (forall₂_forall pinned _ _ ?_).symm
    intro it member it' here
    have size : (s'.values it.1).length = (it.2.map PinCtl.lastState).length := by
      rw [List.length_map]
      exact here.count
    have finish := Lamp.finish_iff ((s'.values it.1).zip (it.2.map PinCtl.lastState))
    rw [zip_any size,zip_any_last here.count] at finish
    rw [here.pin,here.level,lit.level it member,here.states]
    exact finish.symm
  rw [next]
  refine ⟨by rw [ran]; rfl,(lit_iff_ored pinned).symm.trans relit,?_⟩
  intro kept
  exact ⟨commit_wired lit.toWired ran,relit.mpr kept⟩

/-- Every run from the forced commit of `init` whose commits leave no pin dark has, after each of
them, the OR on every pin; and such a run loses it exactly with the first commit that does. -/
theorem pins_ored (clock : Nat → Int) (definitions : List Definition)
    (plain : ∀ d ∈ definitions, d.pwm = 100 ∧ d.maxTime = 0) (s : Pins)
    (booted : init clock definitions {} = .ok () s) (commits : List Inputs)
    (relit : Along step Relit s commits) :
    (run step s commits).Ored ∧ ∀ i, returned (commit i false (run step s commits)) = true ∧
      (((run step s commits).step i).Ored ↔ (run step s commits).Relit i) := by
  obtain ⟨_,s0,defined,forced⟩ := returned_of_bind booted
  have empty : Wired {} := ⟨.nil,fun _ member => (List.not_mem_nil member).elim,
    fun _ member => (List.not_mem_nil member).elim⟩
  have start := forced_lit (defined_wired plain empty defined) forced
  have kept : ∀ s i, Relit s i → s.Lit ∧ s.Ored → (s.step i).Lit ∧ (s.step i).Ored := by
    intro s i admitted both
    obtain ⟨_,iff,next⟩ := step_ored both.1 i
    exact ⟨next admitted,iff.mpr admitted⟩
  obtain ⟨lit,ored⟩ := run_invariant kept commits s start relit
  refine ⟨ored,?_⟩
  intro i
  obtain ⟨returned,iff,_⟩ := step_ored lit i
  exact ⟨returned,iff⟩

def twice : List Definition := [⟨4, str "F1", 100, 0⟩, ⟨4, str "F2", 100, 0⟩]

def functions (on : List Nat) : Inputs := ⟨0, 0, Vector.ofFn (fun j => decide (j.val ∈ on)), fun _ => 0⟩

def board : Pins := final (init (fun _ => 0) twice {})

/-- F1 is switched on, then F2 as well. -/
theorem pins_ored_both : (run step board [functions [1], functions [1, 2]]).Ored := by
  have booted : returned (init (fun _ => 0) twice {}) = true := by decide +kernel
  exact (pins_ored (fun _ => 0) twice (by decide) board (ok_final booted) [functions [1], functions [1, 2]]
    (by decide +kernel)).1

/-- F1 is switched on, then F2 as well, then F1 off: the pin is dark while F2 is on. -/
theorem pins_not_ored : (∀ d ∈ twice, d.pwm = 100 ∧ d.maxTime = 0) ∧ init (fun _ => 0) twice {} = .ok () board ∧
    (run step board [functions [1], functions [1, 2], functions [2]]).level 4 = some (.digitalWrite false) ∧
    (run step board [functions [1], functions [1, 2], functions [2]]).values 4 = [false, true] ∧
    ¬(run step board [functions [1], functions [1, 2], functions [2]]).Ored := by
  have booted : returned (init (fun _ => 0) twice {}) = true := by decide +kernel
  exact ⟨by decide,ok_final booted,by decide +kernel,by decide +kernel,by decide +kernel⟩

end Pins

end Btcontrol
