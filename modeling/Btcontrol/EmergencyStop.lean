import Btcontrol.Marks

/-! STOP_MULTI sets `emergencyStop` once, and the loop over `changedAddrIndex` hands it to
the first loco of the table only. -/
namespace Btcontrol

open Exec ClientThread

structure Lists (cmd : FBTCtlMessage) (addrs : List Int) : Prop where
  size : arraySize cmd = .ok addrs.length
  addr : ∀ i addr, addrs[i]? = some addr → addrAt cmd i = .ok addr

section

variable {β : Type} (hardware : Hardware β)

/-- At most one call carries the flag, and none without it. -/
theorem hardwareLoop_calls (clientID : Int) (indices : List Nat) (emergencyStop : Bool) (c : Ctx β) :
    ∃ calls, (final (hardwareLoop hardware clientID indices emergencyStop c)).sendLocos = c.sendLocos ++ calls ∧
      (∀ call ∈ calls, call.2 = true → emergencyStop = true) ∧
      ∀ call ∈ calls, ∀ other ∈ calls, call.2 = true → other.2 = true → call = other := by
  induction indices generalizing emergencyStop c with
  | nil =>
    refine ⟨[],(List.append_nil _).symm,?_,?_⟩
    · intro call member
      cases member
    · intro call member
      cases member
  | cons first rest ih =>
    rw [hardwareLoop,bind_apply,get_apply]
    by_cases changed : c.changedAddrIndex[first]?.getD false = true
    · simp only [changed,↓reduceIte,bind_apply]
      have recorded := (sendLoco_marks hardware clientID first emergencyStop c).2
      cases sent : ClientThread.sendLoco hardware clientID first emergencyStop c with
      | error e c1 =>
        rw [sent,final_error] at recorded
        refine ⟨[(first, emergencyStop)],recorded,?_,?_⟩
        · intro call member flag
          rw [List.mem_singleton] at member
          subst member
          exact flag
        · intro call member other member' _ _
          rw [List.mem_singleton] at member member'
          exact member.trans member'.symm
      | ok _ c1 =>
        rw [sent,final_ok] at recorded
        obtain ⟨calls,more,without,_⟩ := ih false c1
        refine ⟨(first, emergencyStop) :: calls,?_,?_,?_⟩
        · rw [more,recorded,List.append_assoc,List.singleton_append]
        · intro call member flag
          rcases List.mem_cons.mp member with rfl | later
          · exact flag
          · exact absurd (without call later flag) (by decide)
        · -- the flag is false after the first call
          intro call member other member' flag flag'
          rcases List.mem_cons.mp member with rfl | later
          · rcases List.mem_cons.mp member' with rfl | later'
            · rfl
            · exact absurd (without other later' flag') (by decide)
          · exact absurd (without call later flag) (by decide)
    · simp only [changed,Bool.false_eq_true,↓reduceIte]
      exact ih emergencyStop c

/-- A loco that is the only one marked gets the flag as it is. -/
theorem hardwareLoop_only (clientID : Int) (indices : List Nat) (emergencyStop : Bool) (c : Ctx β) (i : Nat)
    (member : i ∈ indices) (marked : c.changedAddrIndex[i]? = some true)
    (only : ∀ j : Nat, c.changedAddrIndex[j]? = some true → j = i) :
    (i, emergencyStop) ∈ (final (hardwareLoop hardware clientID indices emergencyStop c)).sendLocos := by
  induction indices with
  | nil => cases member
  | cons first rest ih =>
    rw [hardwareLoop,bind_apply,get_apply]
    by_cases same : first = i
    · subst same
      simp only [marked,Option.getD_some,↓reduceIte,bind_apply]
      have recorded := (sendLoco_marks hardware clientID first emergencyStop c).2
      cases sent : ClientThread.sendLoco hardware clientID first emergencyStop c with
      | error e c1 =>
        rw [sent,final_error] at recorded
        rw [final_error,recorded]
        simp
      | ok _ c1 =>
        rw [sent,final_ok] at recorded
        obtain ⟨calls,more,_⟩ := hardwareLoop_calls hardware clientID rest false c1
        show _ ∈ (final (hardwareLoop hardware clientID rest false c1)).sendLocos
        rw [more,recorded]
        simp
    · have unchanged : ¬c.changedAddrIndex[first]?.getD false = true := by
        intro changed
        exact same (only first (marked_of_changed changed))
      simp only [unchanged,Bool.false_eq_true,↓reduceIte]
      exact ih ((List.mem_cons.mp member).resolve_left (Ne.symm same))

end

/-- A list of known addresses resolves as a whole. -/
theorem resolve_known (cmd : FBTCtlMessage) (lokdef : List Lokdef) (addrs : List Int) (start : Nat)
    (listed : ∀ i addr, addrs[i]? = some addr → addrAt cmd (start + i) = .ok addr)
    (known : ∀ addr ∈ addrs, ∃ i, getAddrIndex lokdef addr = .ok i) :
    ∃ named, resolve cmd lokdef (List.range' start addrs.length) = (named, none) ∧
      ∀ i, i ∈ named ↔ ∃ addr ∈ addrs, getAddrIndex lokdef addr = .ok i := by
  induction addrs generalizing start with
  | nil => exact ⟨[],rfl,by simp⟩
  | cons addr rest ih =>
    obtain ⟨named,resolved,members⟩ := ih (start + 1)
      (fun i other element => by
        rw [Nat.add_assoc,Nat.add_comm 1 i]
        exact listed (i + 1) other (by simpa using element))
      (fun other member => known other (List.mem_cons_of_mem _ member))
    obtain ⟨i,found⟩ := known addr List.mem_cons_self
    have here : located lokdef (addrAt cmd start) = .ok i := by
      rw [show addrAt cmd start = .ok addr from listed 0 addr rfl]
      exact found
    refine ⟨i :: named,?_,?_⟩
    · rw [List.length_cons,List.range'_succ,resolve,here]
      simp only [resolved]
    · intro j
      rw [List.mem_cons,members j]
      constructor
      · rintro (rfl | ⟨other,member,found'⟩)
        · exact ⟨addr,List.mem_cons_self,found⟩
        · exact ⟨other,List.mem_cons_of_mem _ member,found'⟩
      · rintro ⟨other,member,found'⟩
        rcases List.mem_cons.mp member with rfl | later
        · rw [found] at found'
          exact .inl (Except.ok.inj found').symm
        · exact .inr ⟨other,later,found'⟩

/-- A STOP_MULTI of known addresses whose reply is sent marks the locos it names. -/
theorem stop_multi_marks {β : Type} (hardware : Hardware β) (w : World) (cmd : FBTCtlMessage) (addrs : List Int)
    (c : Ctx β) (fresh : c.sendLocos = []) (listed : Lists cmd addrs)
    (known : ∀ addr ∈ addrs, ∃ i, getAddrIndex c.lokdef addr = .ok i) (replied : w.connected = true) :
    ∃ c1 named, execute hardware w cmd (some .STOP_MULTI) c = .ok true c1 ∧ c1.sendLocos = [] ∧
      c1.changedAddrIndex = markAll named c.changedAddrIndex ∧
      ∀ i, i ∈ named ↔ ∃ addr ∈ addrs, getAddrIndex c.lokdef addr = .ok i := by
  obtain ⟨named,resolved,members⟩ := resolve_known cmd c.lokdef addrs 0
    (fun i addr element => by rw [Nat.zero_add]; exact listed.addr i addr element) known
  have planned : plan w cmd c.lokdef .STOP_MULTI = some ⟨named, .speed 0, none, true⟩ := by
    rw [← List.range_eq_range'] at resolved
    simp only [plan,planStopMulti,listed.size,resolved]
  have driven := execute_driven hardware w cmd .STOP_MULTI c _ planned
  rcases driven.outcome with ⟨e,c1,error,_⟩ | ⟨_,closed,_⟩ | ⟨_,_,c1,returned,marks⟩
  · cases error
  · rw [replied] at closed
    cases closed
  · have none := driven.calls
    rw [returned] at none
    exact ⟨c1,named,returned,none.trans fresh,marks,members⟩

/-- In every reachable state, a STOP_MULTI of known addresses whose reply is sent reaches
every loco it names with `emergencyStop` exactly when it names one loco. -/
theorem stop_multi_reaches {β : Type} (hardware : Hardware β) (lokdef : List Lokdef) (device : β)
    (labels : List Label) (clientID : Int) (lastStatus : List LastStatus) (changedAddrIndex : List Bool)
    (w : World) (cmd : FBTCtlMessage) (addrs : List Int)
    (running : (Server.run hardware (Server.start lokdef device) labels).phaseOf clientID =
      some (.running lastStatus changedAddrIndex))
    (stop : commandOf w cmd = .ok (some .STOP_MULTI)) (listed : Lists cmd addrs)
    (known : ∀ addr ∈ addrs, ∃ i,
      getAddrIndex (Server.run hardware (Server.start lokdef device) labels).lokdef addr = .ok i)
    (replied : w.connected = true) :
    (∀ addr ∈ addrs, ∀ i,
      getAddrIndex (Server.run hardware (Server.start lokdef device) labels).lokdef addr = .ok i →
      (i, true) ∈ (final (processMessage hardware clientID w cmd
        ((Server.run hardware (Server.start lokdef device) labels).context lastStatus changedAddrIndex))).sendLocos) ↔
    ∀ addr ∈ addrs, ∀ other ∈ addrs, addr = other := by
  have ready := (Server.run_ready hardware lokdef device labels).running running
  generalize Server.run hardware (Server.start lokdef device) labels = s at running known ready ⊢
  obtain ⟨c1,named,returned,calls,marks,members⟩ := stop_multi_marks hardware w cmd addrs
    (s.context lastStatus changedAddrIndex) rfl listed known replied
  have turn : final (processMessage hardware clientID w cmd (s.context lastStatus changedAddrIndex)) =
      final (hardwareLoop hardware clientID (List.range c1.changedAddrIndex.length) true c1) := by
    simp only [processMessage,bind_apply,stop,lift_ok,returned,get_apply]
  rw [turn]
  constructor
  · -- two locos with the flag are one
    intro reached addr member other member'
    obtain ⟨i,found⟩ := known addr member
    obtain ⟨j,found'⟩ := known other member'
    obtain ⟨all,recorded,_,once⟩ := hardwareLoop_calls hardware clientID
      (List.range c1.changedAddrIndex.length) true c1
    have first := reached addr member i found
    have second := reached other member' j found'
    rw [recorded,calls,List.nil_append] at first second
    have same := once _ first _ second rfl rfl
    cases same
    obtain ⟨_,_,l,record,addr⟩ := getAddrIndex_located found
    obtain ⟨_,_,l',record',other⟩ := getAddrIndex_located found'
    rw [record] at record'
    cases record'
    exact addr.symm.trans other
  · intro same addr member i found
    have slot : i < changedAddrIndex.length := by
      have := (getAddrIndex_located found).2.1
      omega
    have inside : i < c1.changedAddrIndex.length := by
      rw [marks,markAll_length]
      exact slot
    refine hardwareLoop_only hardware clientID _ true c1 i (List.mem_range.mpr inside) ?_ ?_
    · rw [marks,markAll_marked]
      exact .inl ⟨(members i).mpr ⟨addr,member,found⟩,slot⟩
    · intro j marked
      rw [marks,markAll_marked] at marked
      rcases marked with ⟨namedJ,_⟩ | before
      · obtain ⟨other,member',found'⟩ := (members j).mp namedJ
        rw [same addr member other member'] at found
        exact Except.ok.inj (found'.symm.trans found)
      · exact absurd before (ready.1 j)

theorem stop_multi_reaches_one :
    (0, true) ∈ (final (processMessage (SRCP_Hardware okSrcpd) 1 online (manyLocos 16 [3, 3])
      (oneClient.context (initialStatus twoLocos) (noneChanged twoLocos)))).sendLocos := by
  have listed : Lists (manyLocos 16 [3, 3]) [3, 3] := by
    refine ⟨rfl,?_⟩
    intro i addr element
    match i with
    | 0 => cases element; rfl
    | 1 => cases element; rfl
  have known : ∀ addr ∈ [(3 : Int), 3], ∃ i, getAddrIndex oneClient.lokdef addr = .ok i := by
    intro addr member
    have three : addr = 3 := by simpa using member
    exact ⟨0,three ▸ rfl⟩
  exact (stop_multi_reaches (SRCP_Hardware okSrcpd) twoLocos {} joined 1 (initialStatus twoLocos)
    (noneChanged twoLocos) online (manyLocos 16 [3, 3]) [3, 3] rfl rfl listed known rfl).mpr
    (by decide) 3 List.mem_cons_self 0 rfl

/-- A STOP_MULTI of both locos: the second is not told to stop in emergency. -/
theorem stop_multi_misses_second :
    commandOf online (manyLocos 16 [3, 4]) = .ok (some .STOP_MULTI) ∧
    oneClient.phaseOf 1 = some (.running (initialStatus twoLocos) (noneChanged twoLocos)) ∧
    getAddrIndex oneClient.lokdef 3 = .ok 0 ∧ getAddrIndex oneClient.lokdef 4 = .ok 1 ∧
    ¬∀ addr ∈ [(3 : Int), 4], ∀ i, getAddrIndex oneClient.lokdef addr = .ok i →
      (i, true) ∈ (final (processMessage (SRCP_Hardware okSrcpd) 1 online (manyLocos 16 [3, 4])
        (oneClient.context (initialStatus twoLocos) (noneChanged twoLocos)))).sendLocos := by
  refine ⟨rfl,rfl,rfl,rfl,?_⟩
  intro reached
  have second := reached 4 (by decide) 1 rfl
  revert second
  decide +kernel

end Btcontrol
