import Mathlib

/-! A mailbox that outlives the sessions it is served in. Mail is marked with the session that is
up whenever it is handled; where no session starts with marked mail in the box, none is sent
in another session than the one it was handled in. -/
namespace Mailbox

variable {Item : Type}

structure Mail (Item : Type) where
  item : Item
  /-- The sessions that were up when it was handed in or moved. -/
  during : List Nat
  deriving DecidableEq

/-- The session that is up, the number of sessions so far, what waits and what was sent, each
with the session it was sent in. -/
structure Box (Item : Type) where
  session : Option Nat
  opened : Nat
  held : List (Mail Item)
  sent : List (Nat × Mail Item)

def Mail.mark (session : Option Nat) (mail : Mail Item) : Mail Item :=
  { mail with during := mail.during ++ session.toList }

/-- Mail from no session at all. -/
def Unmarked (held : List (Mail Item)) : Prop := ∀ mail ∈ held, mail.during = []

instance (held : List (Mail Item)) : Decidable (Unmarked held) :=
  inferInstanceAs (Decidable (∀ mail ∈ held, mail.during = []))

/-- Nothing was sent in a later session than one it was handed in or moved in. -/
def Punctual (sent : List (Nat × Mail Item)) : Prop :=
  ∀ it ∈ sent, ∀ session ∈ it.2.during, ¬ session < it.1

instance (sent : List (Nat × Mail Item)) : Decidable (Punctual sent) :=
  inferInstanceAs (Decidable (∀ it ∈ sent, ∀ session ∈ it.2.during, ¬ session < it.1))

inductive Step : Box Item → Box Item → Prop
  | opening (b : Box Item) (unmarked : Unmarked b.held) :
    Step b { b with session := some (b.opened + 1), opened := b.opened + 1 }
  | closing (b : Box Item) : Step b { b with session := none }
  | posting (b : Box Item) (item : Item) :
    Step b { b with held := b.held ++ [Mail.mark b.session ⟨item, []⟩] }
  | moving (b : Box Item) (mail : Mail Item) (member : mail ∈ b.held) :
    Step b { b with held := mail.mark b.session :: b.held }
  | keeping (b : Box Item) (held : List (Mail Item)) (kept : held ⊆ b.held) :
    Step b { b with held }
  | sending (b : Box Item) (session : Nat) (up : b.session = some session) (mail : Mail Item)
      (member : mail ∈ b.held) : Step b { b with sent := b.sent ++ [(session, mail)] }

/-- Only sessions that were opened leave marks. -/
structure Numbered (b : Box Item) : Prop where
  session : ∀ session, b.session = some session → session ≤ b.opened
  held : ∀ mail ∈ b.held, ∀ mark ∈ mail.during, mark ≤ b.opened

/-- While a session is up every mark is its own; what was sent bears the marks of its session. -/
structure Current (b : Box Item) : Prop where
  held : ∀ session, b.session = some session → ∀ mail ∈ b.held, ∀ mark ∈ mail.during, mark = session
  sent : ∀ it ∈ b.sent, ∀ mark ∈ it.2.during, mark = it.1
  numbered : Numbered b

/-- What holds of the session that is up and of all earlier marks holds of all marks. -/
theorem mark_forall {session : Option Nat} {mail : Mail Item} {p : Nat → Prop}
    (own : ∀ now, session = some now → p now) (earlier : ∀ mark ∈ mail.during, p mark) :
    ∀ mark ∈ (mail.mark session).during, p mark := by
  intro mark member
  rcases List.mem_append.mp member with old | new
  · exact earlier mark old
  · exact own mark (by simpa using new)

theorem step_numbered {b b' : Box Item} (step : Step b b') (numbered : Numbered b) : Numbered b' := by
  cases step with
  | opening unmarked =>
    refine ⟨fun session up => ?_,fun mail member mark marked => ?_⟩
    · cases up
      exact Nat.le_refl _
    · rw [unmarked mail member] at marked
      cases marked
  | closing =>
    refine ⟨fun session up => ?_,numbered.held⟩
    cases up
  | posting item =>
    refine ⟨numbered.session,fun mail member => ?_⟩
    rcases List.mem_append.mp member with old | new
    · exact numbered.held mail old
    · cases List.mem_singleton.mp new
      exact mark_forall numbered.session (by simp)
  | moving moved inside =>
    refine ⟨numbered.session,fun mail member => ?_⟩
    rcases List.mem_cons.mp member with new | old
    · subst new
      exact mark_forall numbered.session (numbered.held moved inside)
    · exact numbered.held mail old
  | keeping held kept =>
    exact ⟨numbered.session,fun mail member => numbered.held mail (kept member)⟩
  | sending => exact ⟨numbered.session,numbered.held⟩

theorem step_current {b b' : Box Item} (step : Step b b') (current : Current b) : Current b' := by
  have numbered := step_numbered step current.numbered
  cases step with
  | opening unmarked =>
    refine ⟨fun session _ mail member mark marked => ?_,current.sent,numbered⟩
    rw [unmarked mail member] at marked
    cases marked
  | closing =>
    refine ⟨fun session up => ?_,current.sent,numbered⟩
    cases up
  | posting item =>
    refine ⟨fun session up mail member => ?_,current.sent,numbered⟩
    rcases List.mem_append.mp member with old | new
    · exact current.held session up mail old
    · cases List.mem_singleton.mp new
      exact mark_forall (fun now here => Option.some.inj (here.symm.trans up)) (by simp)
  | moving moved inside =>
    refine ⟨fun session up mail member => ?_,current.sent,numbered⟩
    rcases List.mem_cons.mp member with new | old
    · subst new
      exact mark_forall (fun now here => Option.some.inj (here.symm.trans up))
        (current.held session up moved inside)
    · exact current.held session up mail old
  | keeping held kept =>
    exact ⟨fun session up mail member => current.held session up mail (kept member),current.sent,numbered⟩
  | sending session up mail member =>
    refine ⟨current.held,fun it found => ?_,numbered⟩
    rcases List.mem_append.mp found with old | new
    · exact current.sent it old
    · cases List.mem_singleton.mp new
      exact current.held session up mail member

theorem steps_current {b b' : Box Item} (steps : Relation.ReflTransGen Step b b')
    (current : Current b) : Current b' := by
  induction steps with
  | refl => exact current
  | tail _ step ih => exact step_current step ih

theorem Current.punctual {b : Box Item} (current : Current b) : Punctual b.sent := by
  intro it member mark marked
  rw [current.sent it member mark marked]
  exact Nat.lt_irrefl _

/-- Mail of the sessions so far is late in the next one. -/
theorem not_punctual {b : Box Item} (numbered : Numbered b) {mail sentMail : Mail Item}
    (member : mail ∈ b.held) (marked : mail.during ≠ []) (same : mail.during ⊆ sentMail.during)
    {sent : List (Nat × Mail Item)} (late : (b.opened + 1,sentMail) ∈ sent) : ¬ Punctual sent := by
  intro punctual
  obtain ⟨mark,found⟩ := List.exists_mem_of_ne_nil _ marked
  exact punctual _ late mark (same found) (Nat.lt_succ_of_le (numbered.held mail member mark found))

end Mailbox
