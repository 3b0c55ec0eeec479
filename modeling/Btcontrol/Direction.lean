import Btcontrol.Turn

/-! Directions. `DIR` accepts 1 and -1 only, and only for a loco that stands; `DIR_MULTI`
checks neither. Where its commands would pass these checks, no step turns a moving loco. -/
namespace Btcontrol

open Exec ClientThread Transition

def Headed (lokdef : List Lokdef) : Prop := ∀ l ∈ lokdef, l.addr ≠ 0 → l.currdir = 1 ∨ l.currdir = -1

instance (lokdef : List Lokdef) : Decidable (Headed lokdef) :=
  inferInstanceAs (Decidable (∀ l ∈ lokdef, _))

/-- A DIR_MULTI asks of each loco it reaches what `DIR` would allow, or what is so already. -/
def TurnsStanding {β : Type} (s : Server β) (label : Label) : Prop :=
  ∀ clientID w cmd, Turn s label clientID w cmd → commandOf w cmd = .ok (some .DIR_MULTI) →
    ∀ n dir, arraySize cmd = .ok n → getInt cmd "dir" = .ok dir →
      ∀ i ∈ (resolve cmd s.lokdef (List.range n)).1, ∀ l, s.lokdef[i]? = some l →
        l.currdir = dir ∨ (l.currspeed = 0 ∧ (dir = 1 ∨ dir = -1))

structure Turned (l l' : Lokdef) : Prop where
  addr : l'.addr = l.addr
  currdir : l'.currdir = l.currdir ∨ (l.currspeed = 0 ∧ (l'.currdir = 1 ∨ l'.currdir = -1))

/-- The directions a plan writes. -/
theorem plan_turns (w : World) (cmd : FBTCtlMessage) (lokdef : List Lokdef) (command : Command) (p : Plan)
    (planned : plan w cmd lokdef command = some p)
    (multi : command = .DIR_MULTI → ∀ n dir, arraySize cmd = .ok n → getInt cmd "dir" = .ok dir →
      ∀ i ∈ (resolve cmd lokdef (List.range n)).1, ∀ l, lokdef[i]? = some l →
        l.currdir = dir ∨ (l.currspeed = 0 ∧ (dir = 1 ∨ dir = -1))) :
    ∀ dir, p.write = .dir dir → ∀ i ∈ p.named, ∀ l, lokdef[i]? = some l →
      l.currdir = dir ∨ (l.currspeed = 0 ∧ (dir = 1 ∨ dir = -1)) := by
  have one (next : Int → Int) (emergencyStop : Bool) (dir : Int)
      (written : (planOne cmd next emergencyStop lokdef).write = .dir dir) : False := by
    simp only [planOne] at written
    split at written <;> cases written
  have many (next : Int → Int) (dir : Int) (written : (planMulti cmd next lokdef).write = .dir dir) :
      False := by
    simp only [planMulti] at written
    repeat' split at written
    all_goals cases written
  intro dir written i member l record
  cases command with
  | ACC => cases planned; exact (one _ _ dir written).elim
  | BREAK => cases planned; exact (one _ _ dir written).elim
  | STOP => cases planned; exact (one _ _ dir written).elim
  | ACC_MULTI => cases planned; exact (many _ dir written).elim
  | BREAK_MULTI => cases planned; exact (many _ dir written).elim
  | STOP_MULTI =>
    cases planned
    simp only [planStopMulti] at written
    split at written <;> cases written
  | DIR =>
    cases planned
    simp only [planDir] at written member
    cases found : located lokdef (getInt cmd "addr") with
    | error e => simp only [found] at written; cases written
    | ok addr_index =>
      cases given : getInt cmd "dir" with
      | error e => simp only [found,given] at written; cases written
      | ok value =>
        simp only [found,given] at written member
        by_cases invalid : value ≠ 1 ∧ value ≠ -1
        · rw [if_pos invalid] at written; cases written
        by_cases moving : speedAt lokdef addr_index ≠ 0
        · rw [if_neg invalid,if_pos moving] at written; cases written
        rw [if_neg invalid,if_neg moving] at written member
        cases written
        rw [List.mem_singleton] at member
        subst member
        have stands : l.currspeed = 0 := by
          simp only [speedAt,record,Option.getD_some] at moving
          omega
        exact .inr ⟨stands,by omega⟩
  | DIR_MULTI =>
    cases planned
    simp only [planDirMulti] at written member
    cases size : arraySize cmd with
    | error e => simp only [size] at written; cases written
    | ok n =>
      cases given : getInt cmd "dir" with
      | error e => simp only [size,given] at written; cases written
      | ok value =>
        simp only [size,given] at written member
        cases written
        exact multi rfl n dir size given i member l record
  | _ => cases planned

theorem commanded_turned {β : Type} (w : World) (cmd : FBTCtlMessage) (g g' : Globals β)
    (commanded : Commanded w cmd g g')
    (multi : commandOf w cmd = .ok (some .DIR_MULTI) → ∀ n dir, arraySize cmd = .ok n →
      getInt cmd "dir" = .ok dir → ∀ i ∈ (resolve cmd g.lokdef (List.range n)).1, ∀ l, g.lokdef[i]? = some l →
        l.currdir = dir ∨ (l.currspeed = 0 ∧ (dir = 1 ∨ dir = -1))) :
    Records Turned g.lokdef g'.lokdef := by
  cases commanded with
  | quiet records => exact Records.mono (fun _ _ idle => ⟨idle.addr,.inl idle.currdir⟩) records
  | driven command p branch planned written =>
    subst written
    have turns := plan_turns w cmd g.lokdef command p planned (fun is => multi (is ▸ branch))
    refine ⟨?_,?_⟩
    · have addrs := congrArg List.length (writeAll_addrs p.write p.named g.lokdef)
      rwa [List.length_map,List.length_map] at addrs
    intro i l l' here there
    rw [writeAll_getElem?,here] at there
    split at there
    · rename_i member
      cases there
      cases write : p.write with
      | speed value => exact ⟨rfl,.inl rfl⟩
      | dir value =>
        refine ⟨rfl,?_⟩
        rcases turns value write i member l here with already | standing
        · exact .inl already.symm
        · exact .inr standing
    · cases there
      exact ⟨rfl,.inl rfl⟩

theorem turned_effect {β : Type} {refused : β → Prop} {lokdef : List Lokdef} {g g' : Globals β}
    (before : Records Turned lokdef g.lokdef) (effect : Effect refused g g') :
    Records Turned lokdef g'.lokdef := by
  refine Records.trans ?_ before effect.records
  intro l m n turned touched
  exact ⟨touched.addr.trans turned.addr,touched.currdir ▸ turned.currdir⟩

/-- One admitted step. -/
theorem step_turned {β : Type} (hardware : Hardware β) (s : Server β) (label : Label)
    (ok : TurnsStanding s label) : Records Turned s.lokdef (Server.step hardware s label).lokdef := by
  have unchanged : Records Turned s.lokdef s.lokdef := Records.refl (fun _ => ⟨rfl,.inl rfl⟩) _
  cases step_stepped hardware s label with
  | idle same =>
    rw [Server.lokdef,Server.lokdef,same]
    exact unchanged
  | turn clientID w cmd turn mid commanded effect =>
    exact turned_effect (commanded_turned w cmd s.globals mid commanded (ok clientID w cmd turn)) effect
  | stopped effect => exact turned_effect unchanged effect

theorem headed_turned {lokdef lokdef' : List Lokdef} (turned : Records Turned lokdef lokdef')
    (headed : Headed lokdef) : Headed lokdef' := by
  intro l' member used
  obtain ⟨i,there⟩ := List.mem_iff_getElem?.mp member
  obtain ⟨l,here,record⟩ := turned.before there
  rcases record.currdir with same | ⟨_,valid⟩
  · rw [same]
    exact headed l (List.mem_of_getElem? here) (record.addr ▸ used)
  · exact valid

/-- In every run whose DIR_MULTIs would pass the checks of `DIR`, every loco always has
direction 1 or -1, and each step that turns a loco finds it standing. -/
theorem turns_standing_only {β : Type} (hardware : Hardware β) (device : β) (lokdefCsv : Str)
    (lokdef : List Lokdef) (read : readLokdef lokdefCsv = .ok lokdef) (labels : List Label)
    (admitted : Along (Server.step hardware) TurnsStanding (Server.start lokdef device) labels) :
    Headed (Server.run hardware (Server.start lokdef device) labels).lokdef ∧
    ∀ before label after, labels = before ++ label :: after → ∀ (i : Nat) (l l' : Lokdef),
      (Server.run hardware (Server.start lokdef device) before).lokdef[i]? = some l →
      (Server.step hardware (Server.run hardware (Server.start lokdef device) before) label).lokdef[i]? =
        some l' →
      l'.currdir ≠ l.currdir → l.currspeed = 0 := by
  constructor
  · have kept : ∀ s label, TurnsStanding s label → Headed s.lokdef →
        Headed (Server.step hardware s label).lokdef :=
      fun s label ok headed => headed_turned (step_turned hardware s label ok) headed
    refine run_invariant kept labels _ ?_ admitted
    exact fun l member used => .inl ((readLokdef_fresh lokdefCsv lokdef read l member).currdir used)
  · rintro before label after rfl i l l' here there changed
    have ok := (along_split before label after _ admitted).2
    rcases ((step_turned hardware _ label ok).2 i l l' here there).currdir with same | ⟨stands,_⟩
    · exact absurd same changed
    · exact stands

/-- A client that turns a loco and then drives it. -/
theorem turns_standing_only_dir :
    Headed (Server.run (SRCP_Hardware okSrcpd) (Server.start twoLocos {})
      [.accept, .helo 1 online, .message 1 online (.struct 11 [(str "addr", .int 3), (str "dir", .int (-1))])]).lokdef := by
  refine (turns_standing_only (SRCP_Hardware okSrcpd) {} twoLocosCsv twoLocos readLokdef_twoLocos _ ?_).1
  have noDirMulti {s : Server SRCP} {label : Label} (other : ∀ clientID w cmd,
      label = .message clientID w cmd → commandOf w cmd ≠ .ok (some .DIR_MULTI)) : TurnsStanding s label := by
    intro clientID w cmd turn branch
    exact absurd branch (other clientID w cmd turn.label)
  refine ⟨noDirMulti ?_,noDirMulti ?_,noDirMulti ?_,trivial⟩
  · rintro clientID w cmd ⟨⟩
  · rintro clientID w cmd ⟨⟩
  · rintro clientID w cmd ⟨⟩ ⟨⟩

def dirThree (dir : Int) : FBTCtlMessage :=
  .struct 15 [(str "dir", .int dir), (str "list", .array [oneLoco DataType.STRUCT 3])]

/-- A DIR_MULTI with direction 5, and one that turns a loco at speed 5. -/
theorem direction_unchecked : readLokdef twoLocosCsv = .ok twoLocos ∧
    ¬Headed (Server.run (SRCP_Hardware okSrcpd) (Server.start twoLocos {})
      [.accept, .helo 1 online, .message 1 online (dirThree 5)]).lokdef ∧
    (Server.run (SRCP_Hardware okSrcpd) (Server.start twoLocos {})
      [.accept, .helo 1 online, .message 1 online (oneLoco 9 3)]).lokdef.map
        (fun l => (l.currspeed, l.currdir)) = [(5, 1), (0, 1), (0, 0)] ∧
    (Server.run (SRCP_Hardware okSrcpd) (Server.start twoLocos {})
      [.accept, .helo 1 online, .message 1 online (oneLoco 9 3), .message 1 online (dirThree (-1))]).lokdef.map
        (fun l => (l.currspeed, l.currdir)) = [(5, -1), (0, 1), (0, 0)] :=
  ⟨readLokdef_twoLocos,by decide +kernel,by decide +kernel,by decide +kernel⟩

end Btcontrol
