import Btcontrol.ParseExpr
import Btcontrol.RaspiPWM

/-! `RaspiPWM::commit`: the output pins. A pin may be defined several times; each definition keeps
the state it was last switched to. -/
namespace Btcontrol

open Exec ParseExpr Transition

/-- `struct PinCtl`. A `maxTime` of 0 is for ever. -/
structure PinCtl where
  function : Str
  lastState : Bool := false
  pwm : Int := 100
  maxTime : Int := 0
  lastChangeTime : Int := 0
  deriving DecidableEq, Repr

inductive PinWrite where
  | digitalWrite (value : Bool)
  | softPwmStop
  | softPwmCreate (value : Int)
  | softPwmWrite (value : Int)
  deriving DecidableEq, Repr

/-- `std::multimap<int, PinCtl>`: by pin, the definitions of a pin in the order they came. -/
abbrev PinMap := List (Int × List PinCtl)

def PinMap.insert (pin : Int) (pinCtl : PinCtl) : PinMap → PinMap
  | [] => [(pin, [pinCtl])]
  | (key, group) :: rest =>
    if pin < key then (pin, [pinCtl]) :: (key, group) :: rest
    else if pin = key then (key, group ++ [pinCtl]) :: rest
    else (key, group) :: insert pin pinCtl rest

/-- The members that `commit` works on. `writes` and `evaluated` only record: what was written,
the newest first, and what the expressions gave in the last commit. -/
structure Pins where
  pins : PinMap := []
  parseExpr : ParseExpr := {}
  writes : List (Int × PinWrite) := []
  evaluated : List (Int × Bool) := []

namespace Pins

abbrev Action := EStateM PinErr Pins

def onExpr {α : Type} (m : Eval α) : Action α := focus Pins.parseExpr (fun parseExpr s => { s with parseExpr }) m

def write (pin : Int) (w : PinWrite) : Action Unit := modify (fun s => { s with writes := (pin, w) :: s.writes })

/-- One definition of a pin, evaluated. -/
def evaluate (i : Inputs) (pin : Int) (function : Str) : Action Bool := do
  let result ← onExpr (getResult i function)
  modify (fun s => { s with evaluated := s.evaluated ++ [(pin, decide (result ≠ 0))] })
  return decide (result ≠ 0)

variable (i : Inputs) (pin : Int)

/-- The `do` loop over the definitions of one pin; `front` are those it has been through and
`pinCtl` the index of the one it points at. -/
def scan : List PinCtl → List PinCtl → Nat → Bool → Action (List PinCtl × Nat × Bool)
  | front, [], pinCtl, value => pure (front, pinCtl, value)
  | front, it :: rest, pinCtl, value => do
    if ← evaluate i pin it.function then scan (front ++ [it]) rest front.length true
    else if it.lastState then
      write pin (if it.pwm ≠ 100 then .softPwmStop else .digitalWrite value)
      -- off now; if the value is true it is switched on again below
      scan ((front ++ [{ it with lastState := false }]).modify pinCtl (fun ctl => { ctl with lastState := false }))
        rest pinCtl value
    else scan (front ++ [it]) rest pinCtl value

/-- What is written when the pin has to change. -/
def switch (pinCtl : PinCtl) (value : Bool) : Action Unit :=
  if pinCtl.pwm ≠ 100 then
    if value then do
      write pin (.softPwmCreate pinCtl.pwm)
      write pin (.softPwmWrite pinCtl.pwm)
    else pure ()
  else write pin (.digitalWrite value)

/-- The check for `maxTime`, to the accuracy of two seconds. -/
def expire (pinCtl : PinCtl) (value : Bool) : Action Unit :=
  if pinCtl.maxTime ≠ 0 ∧ value ∧ value = pinCtl.lastState then do
    let now ← onExpr (time i.clock)
    if now >>> 1 = (pinCtl.lastChangeTime + pinCtl.maxTime) >>> 1 then write pin (.digitalWrite false)
  else pure ()

/-- The end of the loop: the definition it points at is compared and noted. -/
def settle (force : Bool) (group : List PinCtl) (index : Nat) (value : Bool) : Action (List PinCtl) :=
  let pinCtl := group[index]?.getD { function := [] }
  if force ∨ value ≠ pinCtl.lastState then do
    switch pin pinCtl value
    let now ← onExpr (time i.clock)
    return group.modify index (fun ctl => { ctl with lastState := value, lastChangeTime := now })
  else do
    expire i pin pinCtl value
    return group

def commitPin (force : Bool) (group : List PinCtl) : Action (List PinCtl) := do
  let (group, index, value) ← scan i pin [] group 0 false
  settle i pin force group index value

def commitPins (force : Bool) : PinMap → Action PinMap
  | [] => pure []
  | (pin, group) :: rest => do
    let group ← commitPin i pin force group
    let rest ← commitPins force rest
    return (pin, group) :: rest

/-- `commit(bool)`. No expression that `init` has accepted throws. -/
def commit (force : Bool) : Action Unit := do
  modify (fun s => { s with parseExpr := { s.parseExpr with ticks := 0 }, evaluated := [] })
  let pins ← commitPins i force (← get).pins
  modify (fun s => { s with pins })

/-- One line `wiringpi.pin.<pin>` of the configuration with its `.pwm` and `.maxtime`. -/
structure Definition where
  pin : Int
  function : Str
  pwm : Int := 100
  maxTime : Int := 0

def define (i : Inputs) (d : Definition) : Action Unit := do
  -- a test whether it can be parsed
  let _ ← onExpr (getResult i d.function)
  if d.pwm < 0 ∨ d.pwm > 100 then throw .abort
  else modify (fun s => { s with
    pins := s.pins.insert d.pin { function := d.function, pwm := d.pwm, maxTime := d.maxTime } })

def atBoot (clock : Nat → Int) : Inputs := ⟨0, 0, ({} : RaspiPWM).currentFunc, clock⟩

/-- `init`, as far as the pins go. -/
def init (clock : Nat → Int) (definitions : List Definition) : Action Unit := do
  definitions.forM (define (atBoot clock))
  commit (atBoot clock) true

def step (s : Pins) (i : Inputs) : Pins := final (commit i false s)

def level (s : Pins) (pin : Int) : Option PinWrite := s.writes.lookup pin

def values (s : Pins) (pin : Int) : List Bool := (s.evaluated.filter (fun it => it.1 == pin)).map Prod.snd

end Pins

end Btcontrol
