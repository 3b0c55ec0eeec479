import Btcontrol.Server

/-! A multi command that throws over its list. The locos before the bad element are
written already, and nothing takes that back. -/
namespace Btcontrol

open Exec ClientThread

def ClientThread.Write.Already : Write → Lokdef → Prop
  | .speed value, l => l.currspeed = value
  | .dir value, l => l.currdir = value

theorem apply_eq_self (write : Write) (l : Lokdef) : write.apply l = l ↔ write.Already l := by
  cases write with
  | speed value =>
    constructor
    · exact fun same => (congrArg Lokdef.currspeed same).symm
    · rintro rfl
      rfl
  | dir value =>
    constructor
    · exact fun same => (congrArg Lokdef.currdir same).symm
    · rintro rfl
      rfl

/-- Writing changes nothing where every written record has the value already. -/
theorem writeAll_eq_self (write : Write) (named : List Nat) (lokdef : List Lokdef) :
    writeAll write.apply named lokdef = lokdef ↔
      ∀ i ∈ named, ∀ l, lokdef[i]? = some l → write.Already l := by
  constructor
  · intro same i member l record
    have here := congrArg (fun lokdef => lokdef[i]?) same
    simp only [writeAll_getElem?,member,↓reduceIte,record,Option.map_some,Option.some.injEq] at here
    exact (apply_eq_self write l).mp here
  · intro already
    apply List.ext_getElem?
    intro i
    rw [writeAll_getElem?]
    by_cases member : i ∈ named
    · rw [if_pos member]
      cases record : lokdef[i]? with
      | none => rfl
      | some l => rw [Option.map_some,(apply_eq_self write l).mpr (already i member l record)]
    · rw [if_neg member]

/-- A command that an address or its list stops, the multi commands among them, leaves the
whole table as it was exactly when every loco named before the bad element has the value
already. -/
theorem failed_command_table {β : Type} (hardware : Hardware β) (clientID : Int) (w : World)
    (cmd : FBTCtlMessage) (command : Command) (c : Ctx β) (p : Plan) (e : Err)
    (branch : commandOf w cmd = .ok (some command)) (planned : plan w cmd c.lokdef command = some p)
    (failed : p.error = some e) :
    ∃ c', processMessage hardware clientID w cmd c = .error e c' ∧
      (c'.lokdef = c.lokdef ↔ ∀ i ∈ p.named, ∀ l, c.lokdef[i]? = some l → p.write.Already l) := by
  have driven := execute_driven hardware w cmd command c p planned
  rcases driven.outcome with ⟨e',c',error,thrown⟩ | ⟨error,_⟩ | ⟨error,_⟩
  · rw [failed] at error
    cases error
    have globals := driven.globals
    rw [thrown,final_error] at globals
    refine ⟨c',?_,?_⟩
    · simp only [processMessage,bind_apply,branch,lift_ok,thrown]
    · rw [Ctx.lokdef,globals]
      exact writeAll_eq_self p.write p.named c.lokdef
  · rw [failed] at error; cases error
  · rw [failed] at error; cases error

/-- An unknown address after a loco that stands already. -/
theorem failed_command_table_stop : ∃ c',
    processMessage (SRCP_Hardware okSrcpd) 1 online (manyLocos 16 [3, 99])
      (oneClient.context (initialStatus twoLocos) (noneChanged twoLocos)) = .error (.invalidAddress 99) c' ∧
    c'.lokdef = oneClient.lokdef := by
  obtain ⟨c',thrown,unchanged⟩ := failed_command_table (SRCP_Hardware okSrcpd) 1 online (manyLocos 16 [3, 99])
    .STOP_MULTI (oneClient.context (initialStatus twoLocos) (noneChanged twoLocos))
    ⟨[0], .speed 0, some (.invalidAddress 99), true⟩ (.invalidAddress 99) rfl rfl rfl
  refine ⟨c',thrown,unchanged.mpr ?_⟩
  intro i member l record
  rw [List.mem_singleton] at member
  subst member
  cases record
  rfl

/-- An unknown address after a loco that gets faster. -/
theorem failed_acc_multi_changes_table : ∃ c',
    processMessage (SRCP_Hardware okSrcpd) 1 online (manyLocos 13 [3, 99])
      (oneClient.context (initialStatus twoLocos) (noneChanged twoLocos)) = .error (.invalidAddress 99) c' ∧
    c'.lokdef ≠ oneClient.lokdef := by
  refine ⟨_,rfl,?_⟩
  decide +kernel

end Btcontrol
