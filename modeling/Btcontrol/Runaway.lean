import Btcontrol.Marks

/-! What srcpd was told last. The table is written before the backend is called, and
`fullstop` decides from the table alone: a command that is cut short after it has set a
speed to 0 leaves a loco driving that no `fullstop(true)` will stop. Without such a command
the destructor of the last client stops every loco. -/
namespace Btcontrol

open Exec ClientThread Transition

namespace SRCP

def lastSpeed : List (SrcpCmd × Int) → Int → Option Nat
  | [], _ => none
  | (.setGL loco _ speed _ _, _) :: rest, addr => if loco = addr then some speed else lastSpeed rest addr
  | _ :: rest, addr => lastSpeed rest addr

/-- srcpd was told nothing else than speed 0 last. -/
def Stopped (s : SRCP) (addr : Int) : Prop := ∀ speed, lastSpeed s.log addr = some speed → speed = 0

instance (s : SRCP) (addr : Int) : Decidable (Stopped s addr) :=
  match h : lastSpeed s.log addr with
  | none => isTrue (fun speed told => by rw [h] at told; cases told)
  | some 0 => isTrue (fun speed told => by rw [h] at told; cases told; rfl)
  | some (n + 1) => isFalse (fun stopped => absurd (stopped (n + 1) h) (Nat.succ_ne_zero n))

/-- No SET GL in between. -/
def SameSpeeds (s s' : SRCP) : Prop := ∀ addr, lastSpeed s'.log addr = lastSpeed s.log addr

theorem sameSpeeds_closed : Closed SameSpeeds :=
  ⟨fun _ _ => rfl,fun _ _ _ first second addr => (second addr).trans (first addr)⟩

theorem Stopped.same {s s' : SRCP} (same : SameSpeeds s s') {addr : Int} (stopped : Stopped s addr) :
    Stopped s' addr :=
  fun speed told => stopped speed (same addr ▸ told)

/-- A record as far as speeds go. -/
structure SameSpeed (l l' : Lokdef) : Prop where
  addr : l'.addr = l.addr
  currspeed : l'.currspeed = l.currspeed

section Answered

variable {srcpd : Srcpd} (ok : AnswersOK srcpd)
include ok

theorem sendMessage_ok (cmd : SrcpCmd) (s : SRCP) :
    ∃ code, replyType code = .OK ∧ sendMessage srcpd cmd s = .ok code { s with log := (cmd, code) :: s.log } := by
  obtain ⟨code,answered,fine⟩ := ok s.log cmd
  exact ⟨code,fine,by simp only [sendMessage,answered]⟩

/-- An answered INIT leaves speeds alone, in the table and at srcpd. -/
theorem initLoco_ok (i : Nat) (l : Lokdef) (g : Globals SRCP) :
    ∃ g', initLoco srcpd i l g = .ok () g' ∧ Records SameSpeed g.lokdef g'.lokdef ∧
      SameSpeeds g.device g'.device := by
  by_cases done : l.initDone = true
  · refine ⟨g,by simp only [initLoco,done,↓reduceIte,pure_apply],?_,fun _ => rfl⟩
    exact Records.refl (fun _ => ⟨rfl,rfl⟩) _
  obtain ⟨code,fine,sent⟩ := sendMessage_ok ok
    (.initGL l.addr (if l.addr < 128 then 1 else 2) (nFahrstufen l) l.nFunc) g.device
  obtain ⟨info,_,asked⟩ := sendMessage_ok ok (.getGL l.addr)
    { g.device with log := (.initGL l.addr (if l.addr < 128 then 1 else 2) (nFahrstufen l) l.nFunc, code) :: g.device.log }
  refine ⟨⟨g.lokdef.modify i (fun l => { l with initDone := true }),
    { g.device with log := (.getGL l.addr, info) ::
      (.initGL l.addr (if l.addr < 128 then 1 else 2) (nFahrstufen l) l.nFunc, code) :: g.device.log }⟩,?_,?_,?_⟩
  · simp only [initLoco,done,Bool.false_eq_true,↓reduceIte,bind_apply,onDevice,focus,sendLocoInit,sent,
      initReply,fine,ne_eq,not_true_eq_false,setLok,modify_apply,getInfo,asked,pure_apply]
  · exact Records.modify (fun _ => ⟨rfl,rfl⟩) _ _ _ (fun _ _ => ⟨rfl,rfl⟩)
  · exact fun _ => rfl

/-- The whole of `sendLoco`: srcpd is told the speed of the record. -/
theorem sendLoco_ok (i : Nat) (emergencyStop : Bool) (g : Globals SRCP) (l : Lokdef)
    (record : g.lokdef[i]? = some l) :
    ∃ g', sendLoco srcpd i emergencyStop g = .ok () g' ∧ Records SameSpeed g.lokdef g'.lokdef ∧
      ∀ addr, lastSpeed g'.device.log addr =
        if l.addr = addr then some (dccSpeed l) else lastSpeed g.device.log addr := by
  obtain ⟨g1,initialised,records,same⟩ := initLoco_ok ok i l g
  obtain ⟨code,_,sent⟩ := sendMessage_ok ok
    (.setGL l.addr (drivemode l emergencyStop) (dccSpeed l) (nFahrstufen l) l.flagsOn) g1.device
  refine ⟨⟨g1.lokdef,{ g1.device with log :=
    (.setGL l.addr (drivemode l emergencyStop) (dccSpeed l) (nFahrstufen l) l.flagsOn, code) :: g1.device.log }⟩,
    ?_,records,?_⟩
  · simp only [sendLoco,bind_apply,get_apply,record,Option.getD_some,initialised,onDevice,focus,
      sendLocoSpeed,sent,pure_apply]
  · intro addr
    simp only [lastSpeed,same addr]

end Answered

/-- A loco whose record stands was told to stand, except where a command is still under
way; and srcpd was told of locos of the table only. -/
structure Safe (waiting : Nat → Prop) (g : Globals SRCP) : Prop where
  stopped : ∀ i l, First g.lokdef i → g.lokdef[i]? = some l → l.currspeed = 0 →
    waiting i ∨ Stopped g.device l.addr
  known : ∀ addr, lastSpeed g.device.log addr ≠ none → ∃ i, getAddrIndex g.lokdef addr = .ok i

/-- Nothing was sent, and every record that stands stood before. -/
theorem Safe.quiet {waiting : Nat → Prop} {g g' : Globals SRCP} (safe : Safe waiting g)
    {rel : Lokdef → Lokdef → Prop} (records : Records rel g.lokdef g'.lokdef)
    (addr : ∀ l l', rel l l' → l'.addr = l.addr)
    (stood : ∀ l l', rel l l' → l'.currspeed = 0 → l.currspeed = 0)
    (same : SameSpeeds g.device g'.device) : Safe waiting g' := by
  have addrs := records.map_eq Lokdef.addr addr
  constructor
  · intro i l' first there stands
    obtain ⟨l,here,related⟩ := records.before there
    rcases safe.stopped i l (first_congr addrs.symm first) here (stood l l' related stands) with open_ | stopped
    · exact .inl open_
    · exact .inr (addr l l' related ▸ stopped.same same)
  · intro addr told
    obtain ⟨i,found⟩ := safe.known addr (same addr ▸ told)
    exact ⟨i,by rw [getAddrIndex_congr addrs]; exact found⟩

/-- srcpd is told the speed of the record at a position lookups land on. -/
theorem Safe.sent {waiting : Nat → Prop} {g g' : Globals SRCP} (safe : Safe waiting g) {i : Nat} {l : Lokdef}
    (first : First g.lokdef i) (record : g.lokdef[i]? = some l)
    (records : Records SameSpeed g.lokdef g'.lokdef)
    (told : ∀ addr, lastSpeed g'.device.log addr =
      if l.addr = addr then some (dccSpeed l) else lastSpeed g.device.log addr) :
    Safe (fun j => waiting j ∧ j ≠ i) g' := by
  have addrs := records.map_eq Lokdef.addr (fun _ _ same => same.addr)
  constructor
  · intro j m' firstJ there stands
    obtain ⟨m,here,same⟩ := records.before there
    have firstJ := first_congr addrs.symm firstJ
    have standing : m.currspeed = 0 := same.currspeed ▸ stands
    by_cases this : j = i
    · -- the record stands, so 0 was sent
      subst this
      rw [record] at here
      cases here
      refine .inr ?_
      intro speed last
      rw [told,same.addr,if_pos rfl] at last
      cases last
      simp [dccSpeed,standing]
    · have other : l.addr ≠ m.addr := fun same => this (first_unique first firstJ record here same).symm
      rcases safe.stopped j m firstJ here standing with open_ | stopped
      · exact .inl ⟨open_,this⟩
      · refine .inr ?_
        intro speed last
        rw [told,same.addr,if_neg other] at last
        exact stopped speed last
  · intro addr some
    rw [told] at some
    rw [getAddrIndex_congr addrs]
    by_cases here : l.addr = addr
    · obtain ⟨l',record',found⟩ := first
      rw [record] at record'
      cases record'
      exact ⟨i,here ▸ found⟩
    · rw [if_neg here] at some
      exact safe.known addr some

theorem Safe.mono {waiting waiting' : Nat → Prop} {g : Globals SRCP} (safe : Safe waiting g)
    (fewer : ∀ i, waiting i → waiting' i) : Safe waiting' g :=
  ⟨fun i l first record stands => (safe.stopped i l first record stands).imp_left (fewer i),safe.known⟩

/-- A record that is stopped, and srcpd told so. -/
theorem Safe.halt {g g' : Globals SRCP} (safe : Safe (fun _ => False) g) {i : Nat} {l : Lokdef}
    (bound : i < nLokdef g.lokdef) (record : g.lokdef[i]? = some l)
    (same : g'.lokdef.map Lokdef.addr = g.lokdef.map Lokdef.addr)
    (others : ∀ j m m', j ≠ i → g.lokdef[j]? = some m → g'.lokdef[j]? = some m' → m'.currspeed = m.currspeed)
    (told : ∀ addr, lastSpeed g'.device.log addr =
      if l.addr = addr then some 0 else lastSpeed g.device.log addr) : Safe (fun _ => False) g' := by
  constructor
  · intro j m' first there stands
    obtain ⟨m,here,addr⟩ := record_congr same.symm there
    refine .inr ?_
    intro speed last
    rw [told,← addr] at last
    by_cases this : l.addr = m.addr
    · rw [if_pos this] at last
      exact (Option.some.inj last).symm
    · rw [if_neg this] at last
      have other : j ≠ i := by
        intro here_
        subst here_
        rw [record] at here
        cases here
        exact this rfl
      rcases safe.stopped j m (first_congr same.symm first) here (others j m m' other here there ▸ stands) with none | stopped
      · exact none.elim
      · exact stopped speed last
  · intro addr some
    rw [told] at some
    rw [getAddrIndex_congr same]
    by_cases here : l.addr = addr
    · exact here ▸ getAddrIndex_found bound record
    · rw [if_neg here] at some
      exact safe.known addr some

/-- What `fullstop` has done after some of its turns. -/
structure Halting (g g' : Globals SRCP) : Prop where
  safe : Safe (fun _ => False) g'
  addrs : g'.lokdef.map Lokdef.addr = g.lokdef.map Lokdef.addr
  stopped : ∀ addr, Stopped g.device addr → Stopped g'.device addr

theorem stopLoco_ok {srcpd : Srcpd} (ok : AnswersOK srcpd) (clientID : Int) (stopAll : Bool) (i : Nat)
    (g : Globals SRCP) (safe : Safe (fun _ => False) g) (l : Lokdef) (bound : i < nLokdef g.lokdef)
    (record : g.lokdef[i]? = some l) :
    ∃ g', stopLoco srcpd clientID stopAll i l g = .ok () g' ∧ Halting g g' ∧
      (stopAll = true → First g.lokdef i → Stopped g'.device l.addr) := by
  by_cases picked : stops clientID stopAll l
  · have written : (g.lokdef.modify i (fun l => { l with currspeed := 0 }))[i]? =
        some { l with currspeed := 0 } := by
      simp [record]
    obtain ⟨g1,sent,records,told⟩ := sendLoco_ok ok i true
      { g with lokdef := g.lokdef.modify i (fun l => { l with currspeed := 0 }) } _ written
    have zero : dccSpeed { l with currspeed := 0 } = 0 := by simp [dccSpeed]
    rw [zero] at told
    have first : Records (fun m m' => m'.addr = m.addr) g.lokdef
        (g.lokdef.modify i (fun l => { l with currspeed := 0 })) := by
      apply Records.modify
      · exact fun _ => rfl
      · exact fun _ _ => rfl
    have last : Records (fun m m' => m'.addr = m.addr) g1.lokdef
        (g1.lokdef.modify i (fun l => { l with lastClientID := 0 })) := by
      apply Records.modify
      · exact fun _ => rfl
      · exact fun _ _ => rfl
    have addrs : (g1.lokdef.modify i (fun l => { l with lastClientID := 0 })).map Lokdef.addr =
        g.lokdef.map Lokdef.addr :=
      (last.map_eq Lokdef.addr (fun _ _ same => same)).trans
        ((records.map_eq Lokdef.addr (fun _ _ same => same.addr)).trans
          (first.map_eq Lokdef.addr (fun _ _ same => same)))
    refine ⟨{ g1 with lokdef := g1.lokdef.modify i (fun l => { l with lastClientID := 0 }) },?_,⟨?_,addrs,?_⟩,?_⟩
    · simp only [stopLoco,picked,↓reduceIte,bind_apply,setLok,modify_apply,sent]
    · refine safe.halt bound record addrs ?_ told
      intro j m m' other here there
      simp only [List.getElem?_modify,Ne.symm other,↓reduceIte,Option.map_eq_map,Option.map_id_fun',id] at there
      have middle : (g.lokdef.modify i (fun l => { l with currspeed := 0 }))[j]? = some m := by
        simp [Ne.symm other,here]
      exact (records.2 j m m' middle there).currspeed
    · intro addr stopped speed told'
      rw [told] at told'
      split at told'
      · exact (Option.some.inj told').symm
      · exact stopped speed told'
    · intro _ _ speed told'
      rw [told,if_pos rfl] at told'
      exact (Option.some.inj told').symm
  · refine ⟨g,by simp only [stopLoco,picked,↓reduceIte,pure_apply],⟨safe,rfl,fun _ => id⟩,?_⟩
    intro all firstI
    simp only [stops,all,true_and,not_or,Decidable.not_not] at picked
    rcases safe.stopped i l firstI record picked.1 with none | stopped
    · exact none.elim
    · exact stopped

theorem fullstopLoop_ok {srcpd : Srcpd} (ok : AnswersOK srcpd) (clientID : Int) (stopAll : Bool)
    (indices : List Nat) (g : Globals SRCP) (safe : Safe (fun _ => False) g)
    (inside : ∀ i ∈ indices, i < nLokdef g.lokdef ∧ ∃ l, g.lokdef[i]? = some l) :
    ∃ g', fullstopLoop srcpd clientID stopAll indices g = .ok () g' ∧ Halting g g' ∧
      (stopAll = true → ∀ i ∈ indices, ∀ l, First g.lokdef i → g.lokdef[i]? = some l → Stopped g'.device l.addr) := by
  induction indices generalizing g with
  | nil => exact ⟨g,rfl,⟨safe,rfl,fun _ => id⟩,fun _ i member => by cases member⟩
  | cons i rest ih =>
    obtain ⟨bound,l,record⟩ := inside i List.mem_cons_self
    obtain ⟨g1,here,halting,stopped⟩ := stopLoco_ok ok clientID stopAll i g safe l bound record
    have insideRest : ∀ j ∈ rest, j < nLokdef g1.lokdef ∧ ∃ m, g1.lokdef[j]? = some m := by
      intro j member
      obtain ⟨boundJ,m,recordJ⟩ := inside j (List.mem_cons_of_mem _ member)
      obtain ⟨m',there,_⟩ := record_congr halting.addrs recordJ
      exact ⟨nLokdef_congr halting.addrs ▸ boundJ,m',there⟩
    obtain ⟨g2,later,halting2,stopped2⟩ := ih g1 halting.safe insideRest
    refine ⟨g2,?_,⟨halting2.safe,halting2.addrs.trans halting.addrs,
      fun addr h => halting2.stopped addr (halting.stopped addr h)⟩,?_⟩
    · simp only [fullstopLoop,bind_apply,get_apply,record,Option.getD_some,here]
      exact later
    · intro all j member m firstJ recordJ
      rcases List.mem_cons.mp member with rfl | laterJ
      · rw [record] at recordJ
        cases recordJ
        exact halting2.stopped _ (stopped all firstJ)
      · obtain ⟨m',there,addr⟩ := record_congr halting.addrs recordJ
        exact addr ▸ stopped2 all j laterJ m' (first_congr halting.addrs firstJ) there

theorem Safe.none {waiting : Nat → Prop} {g : Globals SRCP} (safe : Safe waiting g)
    (told : ∀ i l, waiting i → g.lokdef[i]? = some l → Stopped g.device l.addr) : Safe (fun _ => False) g := by
  refine ⟨?_,safe.known⟩
  intro i l first record stands
  rcases safe.stopped i l first record stands with open_ | stopped
  · exact .inr (told i l open_ record)
  · exact .inr stopped

section Message

variable {srcpd : Srcpd}

/-- A command that is not a SET GL. -/
theorem sendMessage_sameSpeeds (cmd : SrcpCmd)
    (other : ∀ code rest addr, lastSpeed ((cmd, code) :: rest) addr = lastSpeed rest addr) :
    Moves SameSpeeds (sendMessage srcpd cmd) := by
  intro s
  simp only [sendMessage]
  split
  · exact fun _ => rfl
  · exact fun addr => other _ _ addr

theorem respects_sameSpeeds (srcpd : Srcpd) : Respects (SRCP_Hardware srcpd) SameSpeeds := by
  refine ⟨sameSpeeds_closed,?_,?_⟩
  · intro addr cv value
    apply moves_ite
    · exact moves_pure sameSpeeds_closed _
    · exact moves_bind sameSpeeds_closed (sendMessage_sameSpeeds _ (fun _ _ _ => rfl))
        (fun _ => moves_pure sameSpeeds_closed _)
  · intro addr cv bitNr value
    exact moves_bind sameSpeeds_closed (sendMessage_sameSpeeds _ (fun _ _ _ => rfl))
      (fun _ => moves_pure sameSpeeds_closed _)

theorem powersOnly_sameSpeeds (srcpd : Srcpd) : PowersOnly (SRCP_Hardware srcpd) SameSpeeds := by
  refine ⟨onDevice_leaves ?_,onDevice_leaves ?_⟩
  · exact moves_bind sameSpeeds_closed (sendMessage_sameSpeeds _ (fun _ _ _ => rfl))
      (fun _ => moves_modify _ (fun _ _ => rfl))
  · exact moves_bind sameSpeeds_closed (sendMessage_sameSpeeds _ (fun _ _ _ => rfl))
      (fun _ => moves_modify _ (fun _ _ => rfl))

variable (ok : AnswersOK srcpd)
include ok

/-- One call of the backend for a marked loco. -/
theorem clientSendLoco_ok (clientID : Int) (i : Nat) (emergencyStop : Bool) (c : Ctx SRCP)
    (waiting : Nat → Prop) (safe : Safe waiting c.globals) (first : First c.lokdef i) :
    ∃ c', ClientThread.sendLoco (SRCP_Hardware srcpd) clientID i emergencyStop c = .ok () c' ∧
      c'.changedAddrIndex = c.changedAddrIndex.set i false ∧
      c'.lokdef.map Lokdef.addr = c.lokdef.map Lokdef.addr ∧
      Safe (fun j => waiting j ∧ j ≠ i) c'.globals := by
  have ⟨l,record,_⟩ := first
  have owned : Records SameSpeed c.lokdef
      (c.lokdef.modify i (fun l => { l with lastClientID := clientID })) :=
    Records.modify (fun _ => ⟨rfl,rfl⟩) _ _ _ (fun _ _ => ⟨rfl,rfl⟩)
  have addrs := owned.map_eq Lokdef.addr (fun _ _ same => same.addr)
  have safe1 : Safe waiting ⟨c.lokdef.modify i (fun l => { l with lastClientID := clientID }), c.globals.device⟩ :=
    safe.quiet owned (fun _ _ same => same.addr) (fun _ _ same stands => same.currspeed ▸ stands) (fun _ => rfl)
  have record1 : (c.lokdef.modify i (fun l => { l with lastClientID := clientID }))[i]? =
      some { l with lastClientID := clientID } := by
    simp [record]
  obtain ⟨g,sent,records,told⟩ := sendLoco_ok ok i emergencyStop
    ⟨c.lokdef.modify i (fun l => { l with lastClientID := clientID }), c.globals.device⟩ _ record1
  refine ⟨{ c with
    globals := g
    changedAddrIndex := c.changedAddrIndex.set i false
    sendLocos := c.sendLocos ++ [(i, emergencyStop)] },?_,rfl,?_,?_⟩
  · simp only [ClientThread.sendLoco,bind_apply,modify_apply,setLoko_apply,onGlobals,focus,SRCP_Hardware,sent]
  · exact (records.map_eq Lokdef.addr (fun _ _ same => same.addr)).trans addrs
  · exact safe1.sent (first_congr addrs first) record1 records told

/-- The loop tells srcpd of every marked loco. -/
theorem hardwareLoop_safe (clientID : Int) (indices : List Nat) (emergencyStop : Bool) (c : Ctx SRCP)
    (safe : Safe (fun i => i ∈ indices ∧ c.changedAddrIndex[i]? = some true) c.globals)
    (firsts : ∀ i : Nat, c.changedAddrIndex[i]? = some true → First c.lokdef i) :
    ∃ c', hardwareLoop (SRCP_Hardware srcpd) clientID indices emergencyStop c = .ok () c' ∧
      Safe (fun _ => False) c'.globals := by
  induction indices generalizing emergencyStop c with
  | nil => exact ⟨c,rfl,safe.mono (fun i waiting => by cases waiting.1)⟩
  | cons i rest ih =>
    rw [hardwareLoop,bind_apply,get_apply]
    by_cases changed : c.changedAddrIndex[i]?.getD false = true
    · have marked := marked_of_changed changed
      obtain ⟨c1,sent,marks,addrs,safe1⟩ := clientSendLoco_ok ok clientID i emergencyStop c _ safe (firsts i marked)
      have later : ∀ j : Nat, c1.changedAddrIndex[j]? = some true → j ≠ i ∧ c.changedAddrIndex[j]? = some true := by
        intro j flag
        rw [marks] at flag
        exact marked_of_set flag
      obtain ⟨c2,looped,safe2⟩ := ih false c1
        (safe1.mono (by
          rintro j ⟨⟨member,flag⟩,other⟩
          refine ⟨(List.mem_cons.mp member).resolve_left other,?_⟩
          rw [marks,List.getElem?_set,if_neg (Ne.symm other)]
          exact flag))
        (fun j flag => first_congr addrs (firsts j (later j flag).2))
      refine ⟨c2,?_,safe2⟩
      simp only [changed,↓reduceIte,bind_apply,sent]
      exact looped
    · obtain ⟨c2,looped,safe2⟩ := ih emergencyStop c
        (safe.mono (by
          rintro j ⟨member,flag⟩
          refine ⟨(List.mem_cons.mp member).resolve_left ?_,flag⟩
          intro same
          subst same
          exact changed (by rw [flag]; rfl)))
        firsts
      refine ⟨c2,?_,safe2⟩
      simp only [changed,Bool.false_eq_true,↓reduceIte]
      exact looped

/-- A command is not cut short after it has set to 0 a loco that srcpd was told to drive. -/
def StopsGetThrough (device : SRCP) (lokdef : List Lokdef) (w : World) (cmd : FBTCtlMessage) : Prop :=
  ∀ command p, commandOf w cmd = .ok (some command) → plan w cmd lokdef command = some p →
    p.write = .speed 0 → p.error ≠ none ∨ w.connected = false →
      ∀ i ∈ p.named, ∀ l, lokdef[i]? = some l → Stopped device l.addr

omit ok in
/-- The table as a driving command leaves it: locos it has set to 0 wait for the loop. -/
theorem Safe.written {g : Globals SRCP} (safe : Safe (fun _ => False) g) (p : Plan) :
    Safe (fun i => i ∈ p.named ∧ p.write = .speed 0)
      { g with lokdef := writeAll p.write.apply p.named g.lokdef } := by
  have addrs := writeAll_addrs p.write p.named g.lokdef
  constructor
  · intro i l' first there stands
    have firstBefore := first_congr addrs.symm first
    simp only [writeAll_getElem?] at there
    by_cases member : i ∈ p.named
    · rw [if_pos member] at there
      obtain ⟨l,here,rfl⟩ := Option.map_eq_some_iff.mp there
      cases write : p.write with
      | speed value =>
        rw [write] at stands
        have zero : value = 0 := stands
        exact .inl ⟨member,by rw [zero]⟩
      | dir value =>
        rw [write] at stands
        rcases safe.stopped i l firstBefore here stands with none | stopped
        · exact none.elim
        · exact .inr stopped
    · rw [if_neg member] at there
      rcases safe.stopped i l' firstBefore there stands with none | stopped
      · exact none.elim
      · exact .inr stopped
  · intro addr told
    rw [getAddrIndex_congr addrs]
    exact safe.known addr told

/-- One message of a thread without marks. -/
theorem processMessage_safe (clientID : Int) (w : World) (cmd : FBTCtlMessage) (c : Ctx SRCP)
    (unmarked : Unmarked c.changedAddrIndex) (slots : nLokdef c.lokdef < c.changedAddrIndex.length)
    (safe : Safe (fun _ => False) c.globals)
    (through : StopsGetThrough c.globals.device c.lokdef w cmd) :
    Safe (fun _ => False) (final (processMessage (SRCP_Hardware srcpd) clientID w cmd c)).globals := by
  rw [processMessage,bind_apply]
  cases branch : commandOf w cmd with
  | error e => exact safe
  | ok command =>
    rw [lift_ok]
    simp only [bind_apply]
    cases planned : command.bind (plan w cmd c.lokdef) with
    | none =>
      have quiet := execute_quiet (respects_sameSpeeds srcpd) w cmd c.lokdef command planned
        (fun _ => powersOnly_sameSpeeds srcpd) c
      have safe1 : Safe (fun _ => False) (final (execute (SRCP_Hardware srcpd) w cmd command c)).globals :=
        safe.quiet quiet.records (fun _ _ idle => idle.addr) (fun _ _ idle stands => idle.currspeed ▸ stands)
          quiet.device
      cases executed : execute (SRCP_Hardware srcpd) w cmd command c with
      | error e c1 => rw [executed] at safe1; exact safe1
      | ok emergencyStop c1 =>
        rw [executed,final_ok] at safe1 quiet
        obtain ⟨c2,looped,safe2⟩ := hardwareLoop_safe ok clientID (List.range c1.changedAddrIndex.length)
          emergencyStop c1 (safe1.mono (fun _ none => none.elim)) (fun i flag => by
            rcases quiet.marked i flag with before | first
            · exact absurd before (unmarked i)
            · exact first_congr quiet.addrs first)
        simp only [get_apply,looped]
        exact safe2
    | some p =>
      obtain ⟨name,rfl,planned⟩ := Option.bind_eq_some_iff.mp planned
      have driven := execute_driven (SRCP_Hardware srcpd) w cmd name c p planned
      have written := safe.written p
      -- cut short: what the command had set to 0 stood at srcpd too
      have cut : p.error ≠ none ∨ w.connected = false →
          Safe (fun _ => False) { c.globals with lokdef := writeAll p.write.apply p.named c.lokdef } := by
        intro short
        refine written.none ?_
        rintro i l' ⟨member,zero⟩ there
        obtain ⟨l,here,addr⟩ := record_congr (writeAll_addrs p.write p.named c.lokdef).symm there
        exact addr ▸ through name p branch planned zero short i member l here
      have globals := driven.globals
      rcases driven.outcome with ⟨e,c1,error,thrown⟩ | ⟨_,closed,c1,thrown⟩ | ⟨_,_,c1,returned,marks⟩
      · rw [thrown,final_error] at globals
        simp only [thrown,final_error,globals]
        exact cut (.inl (by rw [error]; exact Option.some_ne_none e))
      · rw [thrown,final_error] at globals
        simp only [thrown,final_error,globals]
        exact cut (.inr closed)
      · rw [returned,final_ok] at globals
        have named := plan_first w cmd c.lokdef name p planned
        have addrs := writeAll_addrs p.write p.named c.lokdef
        obtain ⟨c2,looped,safe2⟩ := hardwareLoop_safe ok clientID (List.range c1.changedAddrIndex.length)
          p.emergencyStop c1
          (by
            rw [globals]
            refine written.mono ?_
            rintro i ⟨member,_⟩
            have slot : i < c.changedAddrIndex.length := Nat.lt_trans (named i member).1 slots
            rw [marks,markAll_length,markAll_marked]
            exact ⟨List.mem_range.mpr slot,.inl ⟨member,slot⟩⟩)
          (fun i flag => by
            rw [marks,markAll_marked] at flag
            rw [Ctx.lokdef,globals]
            rcases flag with ⟨member,_⟩ | before
            · exact first_congr addrs (named i member).2
            · exact absurd before (unmarked i))
        simp only [returned,get_apply,looped]
        exact safe2

end Message

theorem fullstop_ok {srcpd : Srcpd} (ok : AnswersOK srcpd) (clientID : Int) (stopAll : Bool)
    (g : Globals SRCP) (safe : Safe (fun _ => False) g) :
    ∃ g', Server.destructor (SRCP_Hardware srcpd) clientID stopAll g = .ok () g' ∧ Halting g g' ∧
      (stopAll = true → ∀ addr, Stopped g'.device addr) := by
  have inside : ∀ i ∈ List.range (nLokdef g.lokdef), i < nLokdef g.lokdef ∧ ∃ l, g.lokdef[i]? = some l := by
    intro i member
    have bound := List.mem_range.mp member
    have short := nLokdef_le g.lokdef
    exact ⟨bound,g.lokdef[i],List.getElem?_eq_getElem (Nat.lt_of_lt_of_le bound short)⟩
  obtain ⟨g',looped,halting,stopped⟩ := fullstopLoop_ok ok clientID stopAll
    (List.range (nLokdef g.lokdef)) g safe inside
  refine ⟨g',?_,halting,?_⟩
  · simp only [Server.destructor,SRCP_Hardware,fullstop,bind_apply,get_apply,looped]
    rfl
  · -- srcpd was told of locos of the table only, and each of them has been visited
    intro all addr speed told
    obtain ⟨i,found⟩ := halting.safe.known addr (by rw [told]; exact Option.some_ne_none speed)
    rw [getAddrIndex_congr halting.addrs] at found
    obtain ⟨_,bound,l,record,rfl⟩ := getAddrIndex_located found
    exact stopped all i (List.mem_range.mpr bound) l ⟨l,record,found⟩ record speed told

theorem sendHelo_globals (srcpd : Srcpd) (w : World) :
    Moves (fun c c' : Ctx SRCP => c'.globals = c.globals) (sendHelo (SRCP_Hardware srcpd) w) := by
  intro c
  obtain ⟨table,device⟩ := (sendHelo_leaves (SRCP_Hardware srcpd) closed_eq (fun _ => rfl) w c).globals
  exact congrArg₂ Globals.mk table device

def NotCutShort (s : Server SRCP) (label : Label) : Prop :=
  ∀ clientID w cmd, Turn s label clientID w cmd → StopsGetThrough s.globals.device s.lokdef w cmd

theorem step_safe {srcpd : Srcpd} (ok : AnswersOK srcpd) (s : Server SRCP) (label : Label)
    (through : NotCutShort s label) (safe : Safe (fun _ => False) s.globals ∧ s.Ready) :
    Safe (fun _ => False) (Server.step (SRCP_Hardware srcpd) s label).globals ∧
      (Server.step (SRCP_Hardware srcpd) s label).Ready := by
  refine ⟨?_,Server.step_ready _ s label safe.2⟩
  by_cases halted : s.halted = true
  · rw [Server.step_halted _ s label halted]
    exact safe.1
  have live : s.halted = false := Bool.eq_false_iff.mpr halted
  cases label <;> simp only [Server.step,live,Bool.false_eq_true,↓reduceIte]
  case accept => exact safe.1
  case readFails clientID => split <;> exact safe.1
  case helo clientID w =>
    split
    · have same := sendHelo_globals srcpd w (s.context [] [])
      cases sent : sendHelo (SRCP_Hardware srcpd) w (s.context [] []) with
      | ok _ c => rw [sent,final_ok] at same; simp only [same]; exact safe.1
      | error e c => rw [sent,final_error] at same; simp only [Server.leave,same]; exact safe.1
    · exact safe.1
  case message clientID w cmd =>
    split
    · rename_i lastStatus changedAddrIndex phase
      obtain ⟨unmarked,slots⟩ := safe.2.running phase
      have next := processMessage_safe ok clientID w cmd (s.context lastStatus changedAddrIndex) unmarked
        (by show nLokdef s.lokdef < changedAddrIndex.length; omega) safe.1
        (through clientID w cmd ⟨rfl,⟨_,_,phase⟩,live⟩)
      cases processed : processMessage (SRCP_Hardware srcpd) clientID w cmd
          (s.context lastStatus changedAddrIndex) with
      | ok _ c => rw [processed] at next; exact next
      | error e c => rw [processed] at next; exact next
    · exact safe.1
  case destroy clientID =>
    split
    · obtain ⟨g',stopped,halting,_⟩ := fullstop_ok ok clientID (decide (s.numClients - 1 = 0)) s.globals safe.1
      simp only [stopped,final_ok]
      exact halting.safe
    · exact safe.1

theorem safe_start (lokdef : List Lokdef) : Safe (fun _ => False) ⟨lokdef, {}⟩ :=
  ⟨fun _ _ _ _ _ => .inr (fun _ told => by cases told),fun _ told => absurd rfl told⟩

end SRCP

/-- In every run whose messages are not cut short between the table and the backend, the
destructor of the last client leaves every loco stopped at srcpd. -/
theorem last_client_stops_all (srcpd : Srcpd) (ok : AnswersOK srcpd) (lokdef : List Lokdef)
    (labels : List Label)
    (through : Along (Server.step (SRCP_Hardware srcpd)) SRCP.NotCutShort (Server.start lokdef {}) labels)
    (clientID : Int)
    (left : (Server.run (SRCP_Hardware srcpd) (Server.start lokdef {}) labels).phaseOf clientID = some .left)
    (live : (Server.run (SRCP_Hardware srcpd) (Server.start lokdef {}) labels).halted = false)
    (last : (Server.step (SRCP_Hardware srcpd)
      (Server.run (SRCP_Hardware srcpd) (Server.start lokdef {}) labels) (.destroy clientID)).numClients = 0) :
    ∀ addr speed, SRCP.lastSpeed (Server.step (SRCP_Hardware srcpd)
      (Server.run (SRCP_Hardware srcpd) (Server.start lokdef {}) labels)
      (.destroy clientID)).globals.device.log addr = some speed → speed = 0 := by
  have safe := run_invariant (SRCP.step_safe ok) labels _
    ⟨SRCP.safe_start lokdef,fun client member => by cases member⟩ through
  change SRCP.Safe _ (Server.run (SRCP_Hardware srcpd) (Server.start lokdef {}) labels).globals ∧ _ at safe
  generalize Server.run (SRCP_Hardware srcpd) (Server.start lokdef {}) labels = s at left live last safe ⊢
  simp only [Server.step,live,Bool.false_eq_true,↓reduceIte,left] at last ⊢
  obtain ⟨g',stopped,_,all⟩ := SRCP.fullstop_ok ok clientID (decide (s.numClients - 1 = 0)) s.globals safe.1
  simp only [stopped,final_ok]
  exact fun addr => all (decide_eq_true last) addr

theorem okSrcpd_answers : AnswersOK okSrcpd := fun _ _ => ⟨200,rfl,rfl⟩

/-- A client accelerates a loco and goes away. -/
theorem last_client_stops_all_acc :
    SRCP.lastSpeed (Server.step (SRCP_Hardware okSrcpd)
      (Server.run (SRCP_Hardware okSrcpd) (Server.start twoLocos {})
        [.accept, .helo 1 online, .message 1 online (oneLoco 9 3), .readFails 1])
      (.destroy 1)).globals.device.log 3 = some 0 := by
  have noMessage {s : Server SRCP} {label : Label} (other : ∀ clientID w cmd,
      label ≠ .message clientID w cmd) : SRCP.NotCutShort s label :=
    fun clientID w cmd turn => absurd turn.label (other clientID w cmd)
  have through : Along (Server.step (SRCP_Hardware okSrcpd)) SRCP.NotCutShort (Server.start twoLocos {})
      [.accept, .helo 1 online, .message 1 online (oneLoco 9 3), .readFails 1] := by
    refine ⟨noMessage ?_,noMessage ?_,?_,noMessage ?_,trivial⟩
    · rintro clientID w cmd ⟨⟩
    · rintro clientID w cmd ⟨⟩
    · intro clientID w cmd turn
      cases turn.label
      intro command p branch planned zero
      have acc : commandOf online (oneLoco 9 3) = .ok (some .ACC) := rfl
      rw [acc] at branch
      cases branch
      cases planned
      exact absurd zero (by decide +kernel)
    · rintro clientID w cmd ⟨⟩
  obtain ⟨speed,told⟩ := Option.isSome_iff_exists.mp (show (SRCP.lastSpeed (Server.step (SRCP_Hardware okSrcpd)
    (Server.run (SRCP_Hardware okSrcpd) (Server.start twoLocos {})
      [.accept, .helo 1 online, .message 1 online (oneLoco 9 3), .readFails 1])
    (.destroy 1)).globals.device.log 3).isSome = true by decide +kernel)
  rw [told,last_client_stops_all okSrcpd okSrcpd_answers twoLocos _ through 1 (by decide +kernel)
    (by decide +kernel) (by decide +kernel) 3 speed told]

/-- A STOP_MULTI with an unknown address after a loco that drives: the table has speed 0,
srcpd was told 2 and is told nothing else when the client goes. -/
theorem runaway_after_stop_multi : AnswersOK okSrcpd ∧
    (Server.run (SRCP_Hardware okSrcpd) (Server.start twoLocos {})
      [.accept, .helo 1 online, .message 1 online (oneLoco 9 3), .message 1 online (manyLocos 16 [3, 99]),
        .destroy 1]).numClients = 0 ∧
    SRCP.lastSpeed (Server.run (SRCP_Hardware okSrcpd) (Server.start twoLocos {})
      [.accept, .helo 1 online, .message 1 online (oneLoco 9 3), .message 1 online (manyLocos 16 [3, 99]),
        .destroy 1]).globals.device.log 3 = some 2 :=
  ⟨okSrcpd_answers,by decide +kernel,by decide +kernel⟩

end Btcontrol
