import Btcontrol.PinLevels

/-! The time limit of a pin. A commit compares the time it has with the two seconds around the end
of the limit: the pin is switched off by a commit in them and by no later one. -/
namespace Btcontrol

open Exec ParseExpr Transition

namespace Pins

def tick (s : Pins) (c : Tick) : Pins := s.step c.inputs

def group (s : Pins) (pin : Int) : List PinCtl := (s.pins.lookup pin).getD []

/-! ### Work on one pin leaves the others alone -/

/-- The other pins keep their levels and values. -/
def Aside (pin : Int) (s s' : Pins) : Prop :=
  ∀ other, other ≠ pin → s'.level other = s.level other ∧ s'.values other = s.values other

theorem aside_closed (pin : Int) : Closed (Aside pin) := by
  constructor
  · exact fun s other _ => ⟨rfl,rfl⟩
  · intro a b c first second other apart
    obtain ⟨level,values⟩ := first other apart
    obtain ⟨level',values'⟩ := second other apart
    exact ⟨level'.trans level,values'.trans values⟩

theorem write_aside (pin : Int) (w : PinWrite) : Moves (Aside pin) (write pin w) := by
  apply moves_modify
  intro s other apart
  exact ⟨(level_write s pin other w).trans (if_neg apart),rfl⟩

theorem onExpr_aside {α : Type} (pin : Int) (m : ParseExpr.Eval α) : Moves (Aside pin) (onExpr m) := by
  have anything : Moves (fun _ _ => True) m := fun _ => trivial
  exact moves_focus anything (fun s next _ other apart => ⟨rfl,rfl⟩)

theorem evaluate_aside (i : Inputs) (pin : Int) (function : Str) : Moves (Aside pin) (evaluate i pin function) := by
  apply moves_bind (aside_closed pin) (onExpr_aside pin _)
  intro result
  apply moves_bind (aside_closed pin) _ (fun _ => moves_pure (aside_closed pin) _)
  apply moves_modify
  intro s other apart
  have noted : ({ s with evaluated := s.evaluated ++ [(pin, decide (result ≠ 0))] } : Pins).evaluated =
      s.evaluated ++ [decide (result ≠ 0)].map (fun value => (pin, value)) := rfl
  have added := values_append noted other
  rw [if_neg apart,List.append_nil] at added
  exact ⟨rfl,added⟩

theorem scan_aside (i : Inputs) (pin : Int) (rest front : List PinCtl) (pinCtl : Nat) (value : Bool) :
    Moves (Aside pin) (scan i pin front rest pinCtl value) := by
  induction rest generalizing front pinCtl value with
  | nil => exact moves_pure (aside_closed pin) _
  | cons it rest ih =>
    apply moves_bind (aside_closed pin) (evaluate_aside i pin it.function)
    intro v
    apply moves_ite (ih _ _ _)
    apply moves_ite _ (ih _ _ _)
    exact moves_bind (aside_closed pin) (write_aside pin _) (fun _ => ih _ _ _)

/-- What `settle` can do: it writes the pin and reads the time. -/
theorem settle_moves {rel : Pins → Pins → Prop} (closed : Closed rel) {i : Inputs} {pin : Int}
    (write_moves : ∀ w, Moves rel (write pin w)) (time_moves : Moves rel (onExpr (ParseExpr.time i.clock)))
    (force : Bool) (group : List PinCtl) (index : Nat) (value : Bool) :
    Moves rel (settle i pin force group index value) := by
  apply moves_ite
  · apply moves_bind closed
    · apply moves_ite _ (write_moves _)
      apply moves_ite _ (moves_pure closed _)
      exact moves_bind closed (write_moves _) (fun _ => write_moves _)
    · intro _
      exact moves_bind closed time_moves (fun _ => moves_pure closed _)
  · apply moves_bind closed _ (fun _ => moves_pure closed _)
    apply moves_ite _ (moves_pure closed _)
    apply moves_bind closed time_moves
    intro now
    exact moves_ite (write_moves _) (moves_pure closed _)

theorem commitPin_aside (i : Inputs) (pin : Int) (force : Bool) (group : List PinCtl) :
    Moves (Aside pin) (commitPin i pin force group) := by
  apply moves_bind (aside_closed pin) (scan_aside i pin group [] 0 false)
  intro out
  exact settle_moves (aside_closed pin) (write_aside pin) (onExpr_aside pin _) force out.1 out.2.1 out.2.2

/-! ### What a commit changes of a definition -/

theorem scan_kept {i : Inputs} {pin : Int} {rest front : List PinCtl} {pinCtl : Nat} {value : Bool}
    {s s' : Pins} {out : List PinCtl × Nat × Bool} (ran : scan i pin front rest pinCtl value s = .ok out s') :
    out.1.map fixed = (front ++ rest).map fixed := by
  induction rest generalizing front pinCtl value s with
  | nil =>
    cases ran
    rw [List.append_nil]
  | cons it rest ih =>
    have joined : (front ++ [it] ++ rest).map fixed = (front ++ it :: rest).map fixed := by
      rw [List.append_assoc]
      rfl
    obtain ⟨v,s1,_,ran⟩ := returned_of_bind ran
    split at ran
    · exact (ih ran).trans joined
    · split at ran
      · obtain ⟨_,s2,_,ran⟩ := returned_of_bind ran
        have switched := map_fixed_modify (front ++ [{ it with lastState := false }]) pinCtl
          (fun ctl => { ctl with lastState := false }) (fun _ => rfl)
        have here := ih ran
        rw [List.map_append,switched,← List.map_append] at here
        exact here.trans (by simp [fixed])
      · exact (ih ran).trans joined

theorem settle_kept {i : Inputs} {pin : Int} {force : Bool} {group group' : List PinCtl} {index : Nat}
    {value : Bool} {s s' : Pins} (ran : settle i pin force group index value s = .ok group' s') :
    group'.map fixed = group.map fixed := by
  simp only [settle] at ran
  split at ran
  · obtain ⟨_,s1,_,ran⟩ := returned_of_bind ran
    obtain ⟨now,s2,_,⟨⟩⟩ := returned_of_bind ran
    exact map_fixed_modify _ _ _ (fun _ => rfl)
  · obtain ⟨_,s1,_,⟨⟩⟩ := returned_of_bind ran
    rfl

theorem commitPin_kept {i : Inputs} {pin : Int} {force : Bool} {group group' : List PinCtl} {s s' : Pins}
    (ran : commitPin i pin force group s = .ok group' s') : group'.map fixed = group.map fixed := by
  obtain ⟨out,s1,loop,ran⟩ := returned_of_bind ran
  exact (settle_kept ran).trans (scan_kept loop)

/-- One pin over the loop over the pins: the turn it has in it, and what is left alone around it. -/
def Turn (i : Inputs) (force : Bool) (pin : Int) (before after : List PinCtl) (s s' : Pins) : Prop :=
  ∃ t t', commitPin i pin force before t = .ok after t' ∧
    t.level pin = s.level pin ∧ t.values pin = s.values pin ∧
    s'.level pin = t'.level pin ∧ s'.values pin = t'.values pin

theorem commitPins_others {i : Inputs} {force : Bool} {pins pins' : PinMap} {s s' : Pins}
    (ran : commitPins i force pins s = .ok pins' s') (pin : Int) (absent : pin ∉ pins.map Prod.fst) :
    s'.level pin = s.level pin ∧ s'.values pin = s.values pin := by
  induction pins generalizing pins' s with
  | nil =>
    cases ran
    exact ⟨rfl,rfl⟩
  | cons it rest ih =>
    obtain ⟨key,group⟩ := it
    simp only [List.map_cons,List.mem_cons,not_or] at absent
    obtain ⟨group',s1,first,ran⟩ := returned_of_bind ran
    obtain ⟨rest',s2,later,⟨⟩⟩ := returned_of_bind ran
    have here := commitPin_aside i key force group s pin absent.1
    rw [first] at here
    obtain ⟨level,values⟩ := ih later absent.2
    exact ⟨level.trans here.1,values.trans here.2⟩

/-- The loop over the pins keeps their order and gives each its turn. -/
theorem commitPins_turns {i : Inputs} {force : Bool} {pins pins' : PinMap} {s s' : Pins}
    (distinct : (pins.map Prod.fst).Nodup) (ran : commitPins i force pins s = .ok pins' s') :
    List.Forall₂ (fun before after => after.1 = before.1 ∧ Turn i force before.1 before.2 after.2 s s') pins pins' := by
  induction pins generalizing pins' s with
  | nil =>
    cases ran
    exact .nil
  | cons it rest ih =>
    obtain ⟨key,group⟩ := it
    simp only [List.map_cons,List.nodup_cons] at distinct
    obtain ⟨group',s1,first,ran⟩ := returned_of_bind ran
    obtain ⟨rest',s2,later,⟨⟩⟩ := returned_of_bind ran
    obtain ⟨level,values⟩ := commitPins_others later key distinct.1
    apply List.Forall₂.cons ⟨rfl,s,s1,first,rfl,rfl,level,values⟩
    have apart : ∀ it ∈ rest, it.1 ≠ key := by
      rintro it member rfl
      exact distinct.1 (List.mem_map_of_mem member)
    apply ((List.forall₂_and_left _ _).mpr ⟨apart,ih distinct.2 later⟩).imp
    rintro it it' ⟨away,same,t,t',ran,level,values,behind⟩
    have here := commitPin_aside i key force group s it.1 away
    rw [first] at here
    exact ⟨same,t,t',ran,level.trans here.1,values.trans here.2,behind⟩

/-! ### The pins as `init` makes them -/

structure Defined (s : Pins) : Prop where
  ordered : (s.pins.map Prod.fst).Pairwise (· < ·)
  accepted : ∀ it ∈ s.pins, ∀ ctl ∈ it.2, Accepted ctl.function

theorem Defined.distinct {s : Pins} (defined : s.Defined) : (s.pins.map Prod.fst).Nodup :=
  defined.ordered.imp (fun less => Int.ne_of_lt less)

theorem commit_turns {i : Inputs} {force : Bool} {s s' : Pins} (defined : s.Defined)
    (ran : commit i force s = .ok () s') : List.Forall₂ (fun before after => after.1 = before.1 ∧
      Turn i force before.1 before.2 after.2 { s with evaluated := [] } s') s.pins s'.pins := by
  obtain ⟨_,s0,⟨⟩,ran⟩ := returned_of_bind ran
  obtain ⟨_,_,⟨⟩,ran⟩ := returned_of_bind ran
  obtain ⟨pins,s1,loop,⟨⟩⟩ := returned_of_bind ran
  exact (commitPins_turns defined.distinct loop).imp (fun _ _ it => it)

theorem turns_keys {i : Inputs} {force : Bool} {s s' : Pins} {pins pins' : PinMap}
    (turns : List.Forall₂ (fun before after => after.1 = before.1 ∧ Turn i force before.1 before.2 after.2 s s')
      pins pins') : pins'.map Prod.fst = pins.map Prod.fst := by
  induction turns with
  | nil => rfl
  | cons here _ ih => rw [List.map_cons,List.map_cons,ih,here.1]

theorem commit_defined {i : Inputs} {force : Bool} {s s' : Pins} (defined : s.Defined)
    (ran : commit i force s = .ok () s') : s'.Defined := by
  have turns := commit_turns defined ran
  constructor
  · rw [turns_keys turns]
    exact defined.ordered
  · have carried {group group' : List PinCtl} (kept : group'.map fixed = group.map fixed) :=
      kept_forall kept (fun it => Accepted it.1)
    refine (forall₂_forall turns _ _ ?_).mp defined.accepted
    rintro it _ it' ⟨_,_,_,turned,_⟩
    have kept := commitPin_kept turned
    exact ⟨carried kept,carried kept.symm⟩

theorem tick_returns {s : Pins} (defined : s.Defined) (c : Tick) : commit c.inputs false s = .ok () (s.tick c) := by
  obtain ⟨s',ran⟩ := commit_returns c.inputs false defined.accepted
  rw [tick,step,ran,final_ok]

theorem lookup_turn {i : Inputs} {force : Bool} {s s' : Pins} {pins pins' : PinMap} {pin : Int}
    {group : List PinCtl} (turns : List.Forall₂ (fun before after =>
      after.1 = before.1 ∧ Turn i force before.1 before.2 after.2 s s') pins pins')
    (found : pins.lookup pin = some group) :
    ∃ group', pins'.lookup pin = some group' ∧ Turn i force pin group group' s s' := by
  induction turns with
  | nil => cases found
  | @cons it it' rest rest' here _ ih =>
    obtain ⟨key,old⟩ := it
    obtain ⟨key',new⟩ := it'
    obtain ⟨same,turn⟩ := here
    dsimp only at same turn
    subst same
    by_cases this : pin = key'
    · subst this
      rw [List.lookup_cons_self] at found
      cases found
      exact ⟨new,List.lookup_cons_self,turn⟩
    · rw [lookup_entry,if_neg this] at found ⊢
      exact ih found

theorem insert_lookup (pin : Int) (pinCtl : PinCtl) {pins : PinMap} (ordered : (pins.map Prod.fst).Pairwise (· < ·))
    (other : Int) : (pins.insert pin pinCtl).lookup other =
      if other = pin then some ((pins.lookup pin).getD [] ++ [pinCtl]) else pins.lookup other := by
  induction pins with
  | nil => exact lookup_entry pin other [pinCtl] []
  | cons first rest ih =>
    obtain ⟨key,old⟩ := first
    simp only [List.map_cons,List.pairwise_cons] at ordered
    simp only [PinMap.insert]
    split
    · rename_i below
      have behind : rest.lookup pin = none := by
        rw [List.lookup_eq_none_iff]
        intro it member
        have above := ordered.1 it.1 (List.mem_map_of_mem member)
        exact bne_iff_ne.mpr (by omega)
      simp only [lookup_entry,behind,Int.ne_of_lt below,↓reduceIte]
      rfl
    · split
      · rename_i same
        subst same
        simp only [lookup_entry,↓reduceIte]
        split <;> rfl
      · rename_i same
        simp only [lookup_entry,ih ordered.2,same,↓reduceIte]
        by_cases this : other = pin
        · simp only [this,same,↓reduceIte]
        · simp only [this,↓reduceIte]

theorem defined_groups {i : Inputs} {definitions : List Definition} {s s' : Pins} (defined : s.Defined)
    (ran : definitions.forM (define i) s = .ok () s') : s'.Defined ∧ ∀ pin, s'.group pin = s.group pin ++
      (definitions.filter (fun d => d.pin = pin)).map Definition.pinCtl := by
  induction definitions generalizing s with
  | nil =>
    cases ran
    exact ⟨defined,fun pin => (List.append_nil _).symm⟩
  | cons d rest ih =>
    obtain ⟨_,s1,first,ran⟩ := returned_of_bind ran
    obtain ⟨accepted,_,p,_,rfl⟩ := define_inserts first
    have next : Defined { s with parseExpr := p, pins := s.pins.insert d.pin d.pinCtl } :=
      ⟨insert_ordered _ _ defined.ordered,insert_forall d.pin accepted defined.accepted⟩
    obtain ⟨done,groups⟩ := ih next ran
    apply And.intro done
    intro pin
    rw [groups pin,group,insert_lookup _ _ defined.ordered]
    by_cases here : d.pin = pin
    · simp [here,group]
    · simp [here,Ne.symm here,group]

/-- A pin with one definition. -/
theorem lookup_single {s : Pins} {pin : Int} {ctl : PinCtl} (single : s.group pin = [ctl]) :
    s.pins.lookup pin = some [ctl] := by
  unfold group at single
  cases found : s.pins.lookup pin with
  | none =>
    rw [found] at single
    cases single
  | some group =>
    rw [found] at single
    exact congrArg some single

/-! ### One definition -/

/-- The two seconds in which a commit switches the pin off. -/
def Window (ctl : PinCtl) (now : Int) : Prop := now >>> 1 = (ctl.lastChangeTime + ctl.maxTime) >>> 1

instance (ctl : PinCtl) (now : Int) : Decidable (Window ctl now) := inferInstanceAs (Decidable (_ = _))

/-- The definition and the level after a commit at one time. -/
def settled (force value : Bool) (now : Int) (ctl : PinCtl) (level : Option PinWrite) : PinCtl × Option PinWrite :=
  if force ∨ value ≠ ctl.lastState then
    ({ ctl with lastState := value, lastChangeTime := if force ∨ value then now else ctl.lastChangeTime },
      some (.digitalWrite value))
  else (ctl, if ctl.maxTime ≠ 0 ∧ value ∧ Window ctl now then some (.digitalWrite false) else level)

theorem expire_level {i : Inputs} {now : Int} (steady : ∀ n, i.clock n = now) (pin : Int) (ctl : PinCtl) (s : Pins) :
    ∃ s', expire i pin ctl ctl.lastState s = .ok () s' ∧ s'.values pin = s.values pin ∧
      s'.level pin = if ctl.maxTime ≠ 0 ∧ ctl.lastState ∧ Window ctl now then some (.digitalWrite false)
        else s.level pin := by
  have read : onExpr (ParseExpr.time i.clock) s =
      .ok now { s with parseExpr := { s.parseExpr with ticks := s.parseExpr.ticks + 1 } } := by
    rw [← steady s.parseExpr.ticks]
    rfl
  unfold expire
  by_cases limited : ctl.maxTime ≠ 0 ∧ ctl.lastState = true
  · rw [if_pos ⟨limited.1,limited.2,rfl⟩,bind_ok read]
    by_cases window : now >>> 1 = (ctl.lastChangeTime + ctl.maxTime) >>> 1
    · rw [if_pos window,if_pos ⟨limited.1,limited.2,window⟩]
      exact ⟨_,rfl,rfl,(level_write s pin pin _).trans (if_pos rfl)⟩
    · rw [if_neg window,if_neg (fun all => window all.2.2)]
      exact ⟨_,rfl,rfl,rfl⟩
  · rw [if_neg (fun all => limited ⟨all.1,all.2.1⟩),if_neg (fun all => limited ⟨all.1,all.2.1⟩)]
    exact ⟨s,rfl,rfl,rfl⟩

theorem settle_single {i : Inputs} {now pin : Int} {force value : Bool} {ctl : PinCtl} {after : List PinCtl}
    {s s' : Pins} (steady : ∀ n, i.clock n = now) (plain : ctl.pwm = 100)
    (ran : settle i pin force [ctl] 0 value s = .ok after s') : s'.values pin = s.values pin ∧
      if force ∨ value ≠ ctl.lastState then
        after = [{ ctl with lastState := value, lastChangeTime := now }] ∧ s'.level pin = some (.digitalWrite value)
      else after = [ctl] ∧ s'.level pin =
        if ctl.maxTime ≠ 0 ∧ ctl.lastState ∧ Window ctl now then some (.digitalWrite false) else s.level pin := by
  have written : switch pin ctl value = write pin (.digitalWrite value) := if_neg (not_not_intro plain)
  simp only [settle,List.getElem?_cons_zero,Option.getD_some,written] at ran
  split at ran
  · rename_i changes
    obtain ⟨_,s2,⟨⟩,ran⟩ := returned_of_bind ran
    obtain ⟨_,s3,⟨⟩,⟨⟩⟩ := returned_of_bind ran
    rw [if_pos changes]
    refine ⟨rfl,?_,(level_write s pin pin _).trans (if_pos rfl)⟩
    simp [List.modify_cons,steady]
  · rename_i stays
    have same : value = ctl.lastState := by
      simp only [not_or,not_not] at stays
      exact stays.2
    rw [if_neg stays]
    obtain ⟨s2,expired,values,level⟩ := expire_level steady pin ctl s
    subst same
    obtain ⟨_,s3,expired',⟨⟩⟩ := returned_of_bind ran
    rw [expired] at expired'
    cases expired'
    exact ⟨values,rfl,level⟩

theorem scan_single {i : Inputs} {pin : Int} {ctl : PinCtl} {out : List PinCtl × Nat × Bool} {s s' : Pins}
    (plain : ctl.pwm = 100) (ran : scan i pin [] [ctl] 0 false s = .ok out s') :
    ∃ value, s'.values pin = s.values pin ++ [value] ∧
      out = ([{ ctl with lastState := value && ctl.lastState }], 0, value) ∧
      s'.level pin = if !value && ctl.lastState then some (.digitalWrite false) else s.level pin := by
  obtain ⟨value,s1,evaluated,ran⟩ := returned_of_bind ran
  obtain ⟨writes,noted⟩ := evaluate_returned evaluated
  have one : s1.evaluated = s.evaluated ++ [value].map (fun value => (pin, value)) := noted
  have values := values_append one pin
  rw [if_pos rfl] at values
  have level : s1.level pin = s.level pin := congrArg (List.lookup pin) writes
  refine ⟨value,?_⟩
  cases value with
  | true =>
    cases ran
    exact ⟨values,rfl,level⟩
  | false =>
    obtain ⟨function,lit,pwm,maxTime,lastChangeTime⟩ := ctl
    cases plain
    cases lit with
    | false =>
      cases ran
      exact ⟨values,rfl,level⟩
    | true =>
      obtain ⟨_,s2,⟨⟩,⟨⟩⟩ := returned_of_bind ran
      exact ⟨values,rfl,(level_write s1 pin pin _).trans (if_pos rfl)⟩

theorem commitPin_single {i : Inputs} {now pin : Int} {force : Bool} {ctl : PinCtl} {after : List PinCtl} {s s' : Pins}
    (steady : ∀ n, i.clock n = now) (plain : ctl.pwm = 100)
    (ran : commitPin i pin force [ctl] s = .ok after s') :
    ∃ value, s'.values pin = s.values pin ++ [value] ∧
      after = [(settled force value now ctl (s.level pin)).1] ∧
      s'.level pin = (settled force value now ctl (s.level pin)).2 := by
  obtain ⟨out,s1,loop,ran⟩ := returned_of_bind ran
  obtain ⟨value,values,rfl,level⟩ := scan_single plain loop
  have ended : settle i pin force [{ ctl with lastState := value && ctl.lastState }] 0 value s1 = .ok after s' := ran
  have hundred : ({ ctl with lastState := value && ctl.lastState } : PinCtl).pwm = 100 := plain
  obtain ⟨same,here⟩ := settle_single steady hundred ended
  refine ⟨value,same.trans values,?_⟩
  rw [level] at here
  obtain ⟨function,lit,pwm,maxTime,lastChangeTime⟩ := ctl
  cases force <;> cases value <;> cases lit <;> simpa [settled] using here

theorem commit_single {i : Inputs} {now pin : Int} {force : Bool} {ctl : PinCtl} {s s' : Pins} (defined : s.Defined)
    (steady : ∀ n, i.clock n = now) (plain : ctl.pwm = 100) (single : s.group pin = [ctl])
    (ran : commit i force s = .ok () s') :
    ∃ value, s'.values pin = [value] ∧ s'.group pin = [(settled force value now ctl (s.level pin)).1] ∧
      s'.level pin = (settled force value now ctl (s.level pin)).2 := by
  obtain ⟨after,found,t,t',turned,level,values,level',values'⟩ :=
    lookup_turn (commit_turns defined ran) (lookup_single single)
  obtain ⟨value,added,rfl,written⟩ := commitPin_single steady plain turned
  rw [level] at found written
  refine ⟨value,?_,?_,level'.trans written⟩
  · rw [values',added,values]
    rfl
  · rw [group,found]
    rfl

/-! ### Runs -/

/-- The last commit of the run has switched the pin on: its expression is true, and it was false
before or this is the commit of `init`. -/
def SwitchedOn (s : Pins) (before : List Tick) (pin : Int) : Prop :=
  (run tick s before).values pin = [true] ∧
    (before = [] ∨ (run tick s before.dropLast).values pin = [false])

instance (s : Pins) (before : List Tick) (pin : Int) : Decidable (s.SwitchedOn before pin) :=
  inferInstanceAs (Decidable (_ ∧ _))

def Holds (pin : Int) (s : Pins) (c : Tick) : Prop := (s.tick c).values pin = [true]

instance (pin : Int) (s : Pins) (c : Tick) : Decidable (Holds pin s c) := inferInstanceAs (Decidable (_ = _))

structure Single (d : Definition) (s : Pins) (ctl : PinCtl) : Prop extends Defined s where
  group : s.group d.pin = [ctl]
  kept : fixed ctl = (d.function, d.pwm, d.maxTime)
  values : s.values d.pin = [ctl.lastState]

theorem settled_fixed (force value : Bool) (now : Int) (ctl : PinCtl) (level : Option PinWrite) :
    fixed (settled force value now ctl level).1 = fixed ctl ∧
      (settled force value now ctl level).1.lastState = value := by
  unfold settled
  split
  · exact ⟨rfl,rfl⟩
  · rename_i stays
    simp only [not_or,not_not] at stays
    exact ⟨rfl,stays.2.symm⟩

theorem commit_kept {i : Inputs} {now : Int} {force : Bool} {d : Definition} {ctl : PinCtl} {s s' : Pins}
    (defined : s.Defined) (steady : ∀ n, i.clock n = now) (plain : d.pwm = 100) (single : s.group d.pin = [ctl])
    (kept : fixed ctl = (d.function, d.pwm, d.maxTime)) (ran : commit i force s = .ok () s') :
    ∃ value, Single d s' (settled force value now ctl (s.level d.pin)).1 ∧
      s'.level d.pin = (settled force value now ctl (s.level d.pin)).2 := by
  have hundred : ctl.pwm = 100 := (congrArg (fun it => it.2.1) kept).trans plain
  obtain ⟨value,values,single',level⟩ := commit_single defined steady hundred single ran
  obtain ⟨same,state⟩ := settled_fixed force value now ctl (s.level d.pin)
  exact ⟨value,⟨commit_defined defined ran,single',same.trans kept,by rw [values,state]⟩,level⟩

theorem tick_kept {d : Definition} {ctl : PinCtl} {s : Pins} (plain : d.pwm = 100) (single : Single d s ctl) (c : Tick) :
    ∃ value, Single d (s.tick c) (settled false value c.time ctl (s.level d.pin)).1 ∧
      (s.tick c).level d.pin = (settled false value c.time ctl (s.level d.pin)).2 :=
  commit_kept single.toDefined (fun _ => rfl) plain single.group single.kept (tick_returns single.toDefined c)

theorem run_kept {d : Definition} (plain : d.pwm = 100) (commits : List Tick) (s : Pins)
    (start : ∃ ctl, Single d s ctl) : ∃ ctl, Single d (run tick s commits) ctl := by
  have kept : ∀ s c, (∃ ctl, Single d s ctl) → ∃ ctl, Single d (s.tick c) ctl := by
    rintro s c ⟨ctl,single⟩
    obtain ⟨value,next,_⟩ := tick_kept plain single c
    exact ⟨_,next⟩
  exact run_always kept commits s start

/-- While its expression stays true, the definition stays as it is and the level goes to 0 in the
window only. -/
theorem held_run {d : Definition} {ctl : PinCtl} (plain : d.pwm = 100) (limited : 0 < d.maxTime)
    (lit : ctl.lastState = true) (since : List Tick) (s : Pins) (single : Single d s ctl)
    (held : Along tick (Holds d.pin) s since) : (run tick s since).level d.pin =
      if ∃ c ∈ since, Window ctl c.time then some (.digitalWrite false) else s.level d.pin := by
  have limit : ctl.maxTime ≠ 0 := by
    have same : ctl.maxTime = d.maxTime := congrArg (fun it => it.2.2) single.kept
    omega
  induction since generalizing s with
  | nil => simp [run]
  | cons c rest ih =>
    obtain ⟨value,next,level⟩ := tick_kept plain single c
    have on : value = true := by
      have values := next.values
      rw [(settled_fixed false value c.time ctl (s.level d.pin)).2,held.1] at values
      exact (List.cons.inj values).1.symm
    subst on
    have stays : settled false true c.time ctl (s.level d.pin) =
        (ctl, if Window ctl c.time then some (.digitalWrite false) else s.level d.pin) := by
      simp [settled,lit,limit]
    rw [stays] at next level
    have later := ih (s.tick c) next held.2
    refine later.trans ?_
    rw [level]
    by_cases ended : Window ctl c.time
    · simp [ended]
    · simp [ended]

/-- The forced commit of `init`. -/
theorem boot_single {boot : Int} {definitions : List Definition} {d : Definition}
    (once : definitions.filter (fun other => other.pin = d.pin) = [d]) (plain : d.pwm = 100) {s : Pins}
    (booted : init (fun _ => boot) definitions {} = .ok () s) :
    ∃ ctl, Single d s ctl ∧ ctl.lastChangeTime = boot ∧ s.level d.pin = some (.digitalWrite ctl.lastState) := by
  obtain ⟨_,s0,made,forced⟩ := returned_of_bind booted
  have empty : Defined {} := ⟨.nil,fun _ member => (List.not_mem_nil member).elim⟩
  obtain ⟨defined,groups⟩ := defined_groups empty made
  have single : s0.group d.pin = [d.pinCtl] := by
    rw [groups,once]
    rfl
  obtain ⟨value,start,level⟩ := commit_kept defined (fun _ => rfl) plain single rfl forced
  exact ⟨_,start,rfl,level⟩

/-- The commit that switches the pin on. -/
theorem switched_single {boot : Int} {definitions : List Definition} {d : Definition}
    (once : definitions.filter (fun other => other.pin = d.pin) = [d]) (plain : d.pwm = 100) {s : Pins}
    (booted : init (fun _ => boot) definitions {} = .ok () s) (before : List Tick) (on : s.SwitchedOn before d.pin) :
    ∃ ctl, Single d (run tick s before) ctl ∧ ctl.lastState = true ∧
      ctl.lastChangeTime = (before.getLast?.map Tick.time).getD boot ∧
      (run tick s before).level d.pin = some (.digitalWrite true) := by
  obtain ⟨ctl,start,changed,level⟩ := boot_single once plain booted
  obtain ⟨now,change⟩ := on
  rcases List.eq_nil_or_concat before with rfl | ⟨earlier,c,rfl⟩
  · have lit : ctl.lastState = true := (List.cons.inj (start.values.symm.trans now)).1
    rw [lit] at level
    exact ⟨ctl,start,lit,changed,level⟩
  · rw [List.concat_eq_append] at now change ⊢
    rw [List.dropLast_concat] at change
    obtain ⟨ctl,prior⟩ := run_kept plain earlier s ⟨_,start⟩
    obtain ⟨value,next,level⟩ := tick_kept plain prior c
    rw [run_append] at now ⊢
    have dark : ctl.lastState = false := by
      rcases change with none | off
      · simp at none
      · exact (List.cons.inj (prior.values.symm.trans off)).1
    have lit : value = true := by
      have values := next.values
      rw [(settled_fixed false value _ _ _).2] at values
      exact (List.cons.inj (values.symm.trans now)).1
    subst lit
    have switched : settled false true c.time ctl ((run tick s earlier).level d.pin) =
        ({ ctl with lastState := true, lastChangeTime := c.time }, some (.digitalWrite true)) := by
      simp [settled,dark]
    rw [switched] at next level
    exact ⟨_,next,rfl,by simp,level⟩

/-- A pin with one definition and a time limit, switched on and with its expression true ever since:
its level is 0 exactly when one of the commits since then was in the window, whatever the times
of the others are. -/
theorem maxTime_switches_off (boot : Int) (definitions : List Definition) (d : Definition)
    (once : definitions.filter (fun other => other.pin = d.pin) = [d]) (plain : d.pwm = 100) (limited : 0 < d.maxTime)
    (s : Pins) (booted : init (fun _ => boot) definitions {} = .ok () s) (before since : List Tick)
    (on : s.SwitchedOn before d.pin) (held : Along tick (Holds d.pin) (run tick s before) since) :
    ∃ ctl, (run tick s before).group d.pin = [ctl] ∧
      ctl.lastChangeTime = (before.getLast?.map Tick.time).getD boot ∧
      ((run tick s (before ++ since)).level d.pin = some (.digitalWrite false) ↔
        ∃ c ∈ since, c.time >>> 1 = (ctl.lastChangeTime + d.maxTime) >>> 1) := by
  obtain ⟨ctl,single,lit,changed,level⟩ := switched_single once plain booted before on
  have limit : ctl.maxTime = d.maxTime := congrArg (fun it => it.2.2) single.kept
  refine ⟨ctl,single.group,changed,?_⟩
  rw [run_append,held_run plain limited lit since _ single held,level]
  simp only [Window,limit]
  split
  · rename_i ended
    simp [ended]
  · rename_i ended
    simp [ended]

def heater : Definition := ⟨7, str "F1", 100, 10⟩

def heated (time : Int) : Tick := ⟨0, 0, (functions [1]).currentFunc, time⟩

def heaterBoard : Pins := final (init (fun _ => 0) [heater] {})

/-- On at 100, and a commit at 110. -/
theorem maxTime_switches_off_inside :
    (run tick heaterBoard ([heated 100] ++ [heated 105, heated 110, heated 120])).level 7 =
      some (.digitalWrite false) := by
  have booted : returned (init (fun _ => 0) [heater] {}) = true := by decide +kernel
  obtain ⟨ctl,_,changed,iff⟩ := maxTime_switches_off 0 [heater] heater rfl rfl (by decide) heaterBoard
    (ok_final booted) [heated 100] [heated 105, heated 110, heated 120] (by decide +kernel) (by decide +kernel)
  rw [changed] at iff
  exact iff.mpr ⟨heated 110,by simp,by decide⟩

/-- On at 100, the next commits at 105 and at 112: after twelve seconds the heater is on. -/
theorem maxTime_passes : init (fun _ => 0) [heater] {} = .ok () heaterBoard ∧ heater.pwm = 100 ∧ 0 < heater.maxTime ∧
    heaterBoard.SwitchedOn [heated 100] 7 ∧
    Along tick (Holds 7) (run tick heaterBoard [heated 100]) [heated 105, heated 112] ∧
    ((run tick heaterBoard [heated 100]).group 7).map PinCtl.lastChangeTime = [100] ∧
    100 + heater.maxTime + 1 ≤ (heated 112).time ∧
    (run tick heaterBoard [heated 100, heated 105, heated 112]).level 7 = some (.digitalWrite true) := by
  have booted : returned (init (fun _ => 0) [heater] {}) = true := by decide +kernel
  exact ⟨ok_final booted,rfl,by decide,by decide +kernel,by decide +kernel,by decide +kernel,by decide,
    by decide +kernel⟩

end Pins

end Btcontrol
