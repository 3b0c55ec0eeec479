import Btcontrol.Exec
import Btcontrol.Lokdef

/-! `Hardware.h`: the interface of the backends. A backend works on the loco table and on a
state of its own. The interface carries what every backend of the server leaves alone in
the table, so that results about the server hold for any of them. -/
namespace Btcontrol

open Exec

/-- What all client threads share: `lokdef` and the backend's own state. -/
structure Globals (β : Type) where
  lokdef : List Lokdef
  device : β

/-- `lokdef[i].field = ...`. -/
def setLok {β : Type} (i : Nat) (f : Lokdef → Lokdef) : EStateM Err (Globals β) Unit :=
  modify (fun g => { g with lokdef := g.lokdef.modify i f })

/-- The part of an operation that does not look at the table. -/
def onDevice {β α : Type} (m : EStateM Err β α) : EStateM Err (Globals β) α :=
  focus Globals.device (fun device g => { g with device }) m

/-- Two states of one table, record by record. -/
def Records (rel : Lokdef → Lokdef → Prop) (lokdef lokdef' : List Lokdef) : Prop :=
  lokdef'.length = lokdef.length ∧
    ∀ (i : Nat) (l l' : Lokdef), lokdef[i]? = some l → lokdef'[i]? = some l' → rel l l'

/-- What a backend may do to a record: stop the loco, and note that it is initialised or
whose it is. A loco that could not be initialised gets speed -1. -/
structure Touched (refused : Prop) (l l' : Lokdef) : Prop where
  addr : l'.addr = l.addr
  flags : l'.flags = l.flags
  nFunc : l'.nFunc = l.nFunc
  func : l'.func = l.func
  currdir : l'.currdir = l.currdir
  currspeed : l'.currspeed = l.currspeed ∨ l'.currspeed = 0 ∨ refused ∧ l'.currspeed = -1

/-- The effect of a backend operation, where `refused` tells that a loco was refused. -/
structure Effect {β : Type} (refused : β → Prop) (g g' : Globals β) : Prop where
  kept : refused g.device → refused g'.device
  records : Records (Touched (refused g'.device)) g.lokdef g'.lokdef

/-- `class Hardware`. `utils::getThreadClientID()` is the argument `clientID`. -/
structure Hardware (β : Type) where
  sendLoco (clientID : Int) (addr_index : Nat) (emergencyStop : Bool) : EStateM Err (Globals β) Unit
  fullstop (clientID : Int) (stopAll emergencyStop : Bool) : EStateM Err (Globals β) Unit
  pwrOn : EStateM Err (Globals β) Unit
  pwrOff : EStateM Err (Globals β) Unit
  getPowerState : β → Bool
  clientConnected : EStateM Err β Unit
  clientDisconnected (all : Bool) : EStateM Err β Unit
  sendPOM (addr cv value : Int) : EStateM Err β Int
  sendPOMBit (addr cv bitNr : Int) (value : Bool) : EStateM Err β Int
  /-- Some loco could not be initialised so far. -/
  refused : β → Prop
  sendLoco_effect : ∀ clientID i emergencyStop, Moves (Effect refused) (sendLoco clientID i emergencyStop)
  fullstop_effect : ∀ clientID stopAll emergencyStop,
    Moves (Effect refused) (fullstop clientID stopAll emergencyStop)
  pwrOn_effect : Moves (Effect refused) pwrOn
  pwrOff_effect : Moves (Effect refused) pwrOff
  clientDisconnected_kept : ∀ all,
    Moves (fun device device' => refused device → refused device') (clientDisconnected all)

namespace Records

theorem refl {rel : Lokdef → Lokdef → Prop} (reflexive : ∀ l, rel l l) (lokdef : List Lokdef) :
    Records rel lokdef lokdef := by
  refine ⟨rfl,?_⟩
  intro i l l' here there
  rw [here] at there
  cases there
  exact reflexive l

theorem trans {first second whole : Lokdef → Lokdef → Prop} {a b c : List Lokdef}
    (joined : ∀ l m n, first l m → second m n → whole l n)
    (before : Records first a b) (after : Records second b c) : Records whole a c := by
  refine ⟨after.1.trans before.1,?_⟩
  intro i l n here there
  have bound : i < b.length := by
    have := (List.getElem?_eq_some_iff.mp here).1
    have := before.1
    omega
  have middle : b[i]? = some b[i] := List.getElem?_eq_getElem bound
  exact joined l b[i] n (before.2 i l b[i] here middle) (after.2 i b[i] n middle there)

theorem mono {rel rel' : Lokdef → Lokdef → Prop} {a b : List Lokdef}
    (weaker : ∀ l m, rel l m → rel' l m) (records : Records rel a b) : Records rel' a b :=
  ⟨records.1,fun i l m here there => weaker l m (records.2 i l m here there)⟩

/-- A record of the new table, and the one it comes from. -/
theorem before {rel : Lokdef → Lokdef → Prop} {a b : List Lokdef} (records : Records rel a b) {i : Nat}
    {m : Lokdef} (there : b[i]? = some m) : ∃ l, a[i]? = some l ∧ rel l m := by
  have bound : i < a.length := records.1 ▸ (List.getElem?_eq_some_iff.mp there).1
  have here : a[i]? = some a[i] := List.getElem?_eq_getElem bound
  exact ⟨a[i],here,records.2 i _ _ here there⟩

/-- One record changes. -/
theorem modify {rel : Lokdef → Lokdef → Prop} (reflexive : ∀ l, rel l l) (lokdef : List Lokdef)
    (i : Nat) (f : Lokdef → Lokdef) (changed : ∀ l, lokdef[i]? = some l → rel l (f l)) :
    Records rel lokdef (lokdef.modify i f) := by
  refine ⟨List.length_modify ..,?_⟩
  intro j l l' here there
  rw [List.getElem?_modify,here] at there
  by_cases same : i = j
  · subst j
    simp only [↓reduceIte,Option.map_eq_map,Option.map_some,Option.some.injEq] at there
    exact there ▸ changed l here
  · simp only [same,↓reduceIte,Option.map_eq_map,Option.map_some,Option.some.injEq] at there
    exact there ▸ reflexive l

/-- A column that no record changes is unchanged as a whole. -/
theorem map_eq {α : Type} {rel : Lokdef → Lokdef → Prop} {a b : List Lokdef} (column : Lokdef → α)
    (same : ∀ l m, rel l m → column m = column l) (records : Records rel a b) :
    b.map column = a.map column := by
  apply List.ext_getElem?
  intro i
  rw [List.getElem?_map,List.getElem?_map]
  cases here : a[i]? with
  | none =>
    have outside : b[i]? = none := by
      rw [List.getElem?_eq_none_iff] at here ⊢
      exact records.1 ▸ here
    rw [outside]
  | some l =>
    have bound : i < b.length := records.1 ▸ (List.getElem?_eq_some_iff.mp here).1
    have there : b[i]? = some b[i] := List.getElem?_eq_getElem bound
    rw [there,Option.map_some,Option.map_some,same l b[i] (records.2 i l b[i] here there)]

end Records

namespace Touched

theorem refl (refused : Prop) (l : Lokdef) : Touched refused l l :=
  ⟨rfl,rfl,rfl,rfl,rfl,.inl rfl⟩

theorem trans {refused refused' : Prop} (later : refused → refused') {l m n : Lokdef}
    (first : Touched refused l m) (second : Touched refused' m n) : Touched refused' l n := by
  refine ⟨second.addr.trans first.addr,second.flags.trans first.flags,second.nFunc.trans first.nFunc,
    second.func.trans first.func,second.currdir.trans first.currdir,?_⟩
  rcases second.currspeed with kept | stopped | ⟨no,marked⟩
  · rcases first.currspeed with same | zero | ⟨no,marked⟩
    · exact .inl (kept.trans same)
    · exact .inr (.inl (kept.trans zero))
    · exact .inr (.inr ⟨later no,kept.trans marked⟩)
  · exact .inr (.inl stopped)
  · exact .inr (.inr ⟨no,marked⟩)

end Touched

theorem effect_closed {β : Type} (refused : β → Prop) : Closed (Effect refused) := by
  constructor
  · intro g
    exact ⟨id,Records.refl (Touched.refl _) _⟩
  · intro a b c first second
    refine ⟨second.kept ∘ first.kept,Records.trans ?_ first.records second.records⟩
    intro l m n before after
    exact Touched.trans second.kept before after

/-- A write to one record that no backend is forbidden. -/
theorem setLok_effect {β : Type} (refused : β → Prop) (i : Nat) (f : Lokdef → Lokdef)
    (touched : ∀ refused l, Touched refused l (f l)) :
    Moves (Effect refused) (setLok i f : EStateM Err (Globals β) Unit) := by
  apply moves_modify
  intro g
  exact ⟨id,Records.modify (Touched.refl _) _ _ _ (fun l _ => touched _ l)⟩

theorem onDevice_effect {β α : Type} {refused : β → Prop} {m : EStateM Err β α}
    (kept : Moves (fun device device' => refused device → refused device') m) :
    Moves (Effect refused) (onDevice m) :=
  moves_focus kept (fun _ _ moved => ⟨moved,Records.refl (Touched.refl _) _⟩)

theorem onDevice_lokdef {β α : Type} (m : EStateM Err β α) :
    Moves (fun g g' : Globals β => g'.lokdef = g.lokdef) (onDevice m) := by
  intro g
  rw [onDevice,final_focus]

theorem Effect.addrs {β : Type} {refused : β → Prop} {g g' : Globals β}
    (effect : Effect refused g g') : g'.lokdef.map Lokdef.addr = g.lokdef.map Lokdef.addr :=
  effect.records.map_eq Lokdef.addr (fun _ _ touched => touched.addr)

end Btcontrol
