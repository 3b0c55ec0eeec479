import Btcontrol.RemoteLokdef
import Btcontrol.LokdefText
import Btcontrol.Transition

/-! The views of the ESP32 control that choose from a list: `GuiViewControlLocoSelectLoco` among the locos of the
server, `GuiViewSelectWifi` among the networks that were found. -/
namespace Btcontrol.GuiViewControlLocoSelectLoco

open Transition

def fontHeight : Int := 17

structure State where
  /-- The three are static, or belong to `controlClientThread`: a new view finds what the last one left. -/
  firstLocoDisplayed : Int := 0
  selectedAddrIndex : Int := 0
  needUpdate : Bool := false
  /-- The buttons have the click handlers of this view. -/
  handlers : Bool := false
  deriving DecidableEq

def addr (lokdef : List Lokdef) (i : Int) : Int := (lokdef[i.toNat]?.getD .zeroed).addr

/-- `startGuiView(new GuiViewControlLocoSelectLoco())`: the constructor, `close` of the view before, `init`. -/
def init (lokdef : List Lokdef) (s : State) : State :=
  let s := { s with needUpdate := true, handlers := false, selectedAddrIndex := 0 }
  -- only one loco in list: GuiViewControlLoco is started instead
  if addr lokdef 0 ≠ 0 ∧ addr lokdef 1 = 0 then s else { s with handlers := true }

def close (s : State) : State := { s with handlers := false }

/-- The click handler of `btn1`. -/
def up (s : State) : State :=
  if s.selectedAddrIndex > 0 then
    let selectedAddrIndex := s.selectedAddrIndex - 1
    { s with
      selectedAddrIndex
      firstLocoDisplayed :=
        if selectedAddrIndex < s.firstLocoDisplayed then s.firstLocoDisplayed - 1 else s.firstLocoDisplayed
      needUpdate := true }
  else s

/-- The click handler of `btn2`. -/
def down (lokdef : List Lokdef) (height : Int) (s : State) : State :=
  if addr lokdef s.selectedAddrIndex ≠ 0 ∧ addr lokdef (s.selectedAddrIndex + 1) ≠ 0 then
    let selectedAddrIndex := s.selectedAddrIndex + 1
    { s with
      selectedAddrIndex
      firstLocoDisplayed :=
        if (selectedAddrIndex - s.firstLocoDisplayed) * fontHeight ≥ height then s.firstLocoDisplayed + 1
        else s.firstLocoDisplayed
      needUpdate := true }
  else s

/-- A line of the list as `loop` draws it. -/
structure Row where
  name : Str
  imgname : Str
  y : Int
  selected : Bool

/-- The loop over the table, from its record `n` on. -/
def rows (s : State) (tftFontHeight : Int) : List Lokdef → Nat → List Row
  | [], _ => []
  | l :: rest, n =>
    if l.addr = 0 then []
    else ⟨l.name,l.imgname,(n - s.firstLocoDisplayed) * tftFontHeight,decide ((n : Int) = s.selectedAddrIndex)⟩ ::
      rows s tftFontHeight rest (n + 1)

def loop (lokdef : List Lokdef) (tftFontHeight : Int) (s : State) : State × List Row :=
  if s.needUpdate then ({ s with needUpdate := false },rows s tftFontHeight lokdef 0) else (s,[])

inductive Label where
  | enter
  | close
  | up
  | down
  | loop
  /-- An image that was asked for arrives. -/
  | image
  deriving DecidableEq

def step (lokdef : List Lokdef) (height : Int) (s : State) : Label → State
  | .enter => init lokdef s
  | .close => close s
  | .up => if s.handlers then up s else s
  | .down => if s.handlers then down lokdef height s else s
  | .loop => (loop lokdef fontHeight s).1
  | .image => { s with needUpdate := true }

structure OnScreen (lokdef : List Lokdef) (height : Int) (s : State) : Prop where
  first : 0 ≤ s.firstLocoDisplayed
  selected : s.firstLocoDisplayed ≤ s.selectedAddrIndex
  listed : s.selectedAddrIndex < (locos lokdef).length
  visible : (s.selectedAddrIndex - s.firstLocoDisplayed) * fontHeight < height

/-- The view is only entered while the list is not scrolled. -/
def EntersUnscrolled (s : State) : Label → Prop
  | .enter => s.firstLocoDisplayed = 0
  | _ => True

instance (s : State) : (label : Label) → Decidable (EntersUnscrolled s label)
  | .enter => inferInstanceAs (Decidable (s.firstLocoDisplayed = 0))
  | .close | .up | .down | .loop | .image => .isTrue trivial

/-- Behind a loco there is another one or the end of the list. -/
theorem addr_next {lokdef : List Lokdef} {i : Nat} (listed : i < (locos lokdef).length)
    (used : addr lokdef (i + 1) ≠ 0) : i + 1 < (locos lokdef).length := by
  induction lokdef generalizing i with
  | nil => simp [locos] at listed
  | cons l rest ih =>
    by_cases stop : l.addr = 0
    · simp [locos_end stop] at listed
    rw [locos_cons stop,List.length_cons] at listed ⊢
    cases i with
    | zero =>
      cases rest with
      | nil => exact absurd rfl used
      | cons next rest =>
        have : next.addr ≠ 0 := used
        simp [locos_cons this]
    | succ i =>
      have used : addr rest (i + 1) ≠ 0 := used
      have := ih (by omega) used
      omega

section OnScreen

variable {lokdef : List Lokdef} {height : Int} {s : State}

theorem onScreen_up (shown : OnScreen lokdef height s) : OnScreen lokdef height (up s) := by
  obtain ⟨first,selected,listed,visible⟩ := shown
  unfold up
  split
  · simp only [fontHeight] at visible
    by_cases above : s.selectedAddrIndex - 1 < s.firstLocoDisplayed
    all_goals simp only [above,↓reduceIte]; constructor <;> simp only [fontHeight] <;> omega
  · exact ⟨first,selected,listed,visible⟩

theorem onScreen_down (shown : OnScreen lokdef height s) :
    OnScreen lokdef height (down lokdef height s) := by
  obtain ⟨first,selected,listed,visible⟩ := shown
  unfold down
  split
  · rename_i used
    have next : s.selectedAddrIndex + 1 < (locos lokdef).length := by
      obtain ⟨i,index⟩ := Int.eq_ofNat_of_zero_le (first.trans selected)
      have inside : i < (locos lokdef).length := by omega
      have other : addr lokdef (i + 1) ≠ 0 := by simpa [index] using used.2
      have := addr_next inside other
      omega
    by_cases full : (s.selectedAddrIndex + 1 - s.firstLocoDisplayed) * fontHeight ≥ height
    all_goals
      simp only [full,↓reduceIte]
      simp only [fontHeight] at visible full
      constructor <;> simp only [fontHeight] <;> omega
  · exact ⟨first,selected,listed,visible⟩

theorem onScreen_init (two : 2 ≤ (locos lokdef).length) (row : fontHeight ≤ height)
    (shown : OnScreen lokdef height s) : OnScreen lokdef height (init lokdef s) ↔ s.firstLocoDisplayed = 0 := by
  have kept : (init lokdef s).firstLocoDisplayed = s.firstLocoDisplayed ∧ (init lokdef s).selectedAddrIndex = 0 := by
    unfold init
    dsimp only
    split <;> exact ⟨rfl,rfl⟩
  constructor
  · intro after
    have above := after.selected
    rw [kept.1,kept.2] at above
    exact le_antisymm above shown.first
  · intro unscrolled
    simp only [fontHeight] at row
    constructor <;> simp only [kept,unscrolled,fontHeight] <;> omega

theorem onScreen_step (two : 2 ≤ (locos lokdef).length) (row : fontHeight ≤ height) (label : Label)
    (shown : OnScreen lokdef height s) :
    OnScreen lokdef height (step lokdef height s label) ↔ EntersUnscrolled s label := by
  cases label with
  | enter => exact onScreen_init two row shown
  | close => exact iff_of_true ⟨shown.first,shown.selected,shown.listed,shown.visible⟩ trivial
  | up =>
    refine iff_of_true ?_ trivial
    simp only [step]
    split
    · exact onScreen_up shown
    · exact shown
  | down =>
    refine iff_of_true ?_ trivial
    simp only [step]
    split
    · exact onScreen_down shown
    · exact shown
  | loop =>
    refine iff_of_true ?_ trivial
    simp only [step,loop]
    split
    · exact ⟨shown.first,shown.selected,shown.listed,shown.visible⟩
    · exact shown
  | image => exact iff_of_true ⟨shown.first,shown.selected,shown.listed,shown.visible⟩ trivial

end OnScreen

/-- The selected loco is on screen all along a run exactly when the view is only entered unscrolled: `init` selects
the first loco and leaves `firstLocoDisplayed` where the view before had scrolled to. -/
theorem onScreen_iff (lokdef : List Lokdef) (two : 2 ≤ (locos lokdef).length) (height : Int)
    (row : fontHeight ≤ height) (labels : List Label) :
    (∀ before, before <+: labels → OnScreen lokdef height (run (step lokdef height) {} before)) ↔
      Along (step lokdef height) EntersUnscrolled {} labels := by
  refine always_iff_along (fun s label shown => onScreen_step two row label shown) labels {} ?_
  refine ⟨le_refl 0,le_refl 0,?_,?_⟩
  · change (0 : Int) < _
    omega
  · simp only [fontHeight] at row ⊢
    omega

def twoRows : List Lokdef := [{ Lokdef.zeroed with addr := 1 },{ Lokdef.zeroed with addr := 2 },.zeroed]

theorem onScreen_iff_twoRows : 2 ≤ (locos twoRows).length ∧ fontHeight ≤ 17 ∧
    ∀ before, before <+: [.enter,.down,.up,.enter] →
      OnScreen twoRows 17 (run (step twoRows 17) {} before) :=
  ⟨by decide,by decide,(onScreen_iff twoRows (by decide) 17 (by decide) [.enter,.down,.up,.enter]).mpr (by decide)⟩

theorem reentered_offScreen : ¬∀ before, before <+: [Label.enter,.down,.close,.enter] →
    OnScreen twoRows 17 (run (step twoRows 17) {} before) := by
  intro always
  have above := (always _ (List.prefix_refl _)).selected
  exact absurd above (by decide)

end Btcontrol.GuiViewControlLocoSelectLoco

namespace Btcontrol.GuiViewSelectWifi

/-- `RefreshWifiThread::wifi_bt`. -/
inductive WifiBt where
  | WIFI
  | BLUETOOTH
  | UNDEFINED
  deriving DecidableEq, Repr

/-- `RefreshWifiThread::Entry`. -/
structure Entry where
  rssi : Int := 0
  have_LR : Bool := false
  type : WifiBt
  addr : Vector UInt8 6 := Vector.replicate 6 0
  channel : Int := 0
  deriving DecidableEq

/-- `wifiConfigEntry_t`; the password may be NULL. -/
structure WifiConfigEntry where
  ssid : Str
  password : Option Str
  deriving DecidableEq

structure Config where
  HAVE_BLUETOOTH : Bool := true
  wifiConfig : List WifiConfigEntry
  POWER_DOWN_IDLE_TIMEOUT : UInt32 := 600

/-- The saved name is that of the network; one with a `*` at its end is the start of it. An empty one has no last
character: what stands before it is read, and the comparison is the same either way. -/
def matchesSSID (saved ssid : Str) : Bool :=
  if saved.getLast? = some 42 then saved.dropLast.isPrefixOf (ssid.takeWhile (· ≠ 0))
  else decide (ssid.takeWhile (· ≠ 0) = saved)

/-- NULL without a saved network, or where the saved one has none. -/
def passwordForSSID : List WifiConfigEntry → Str → Option Str
  | [], _ => none
  | saved :: rest, ssid => if matchesSSID saved.ssid ssid then saved.password else passwordForSSID rest ssid

/-- `usable`, computed in the same way by `loop` and by the long click. -/
def usable (config : Config) (ssid : Str) (entry : Entry) : Bool :=
  if entry.type = .WIFI then (passwordForSSID config.wifiConfig ssid).isSome
  else config.HAVE_BLUETOOTH && decide (entry.channel = 30)

/-- A line of the list as `loop` draws it: green where usable, on a blue ground where selected. -/
structure Row where
  ssid : Str
  entry : Entry
  text : Str
  usable : Bool
  selected : Bool

/-- `buff`, 50 characters with the NUL. -/
def rowText (n : Nat) (ssid : Str) (entry : Entry) : Str :=
  let name := str "[" ++ decimal n ++ str "] " ++ ssid.takeWhile (· ≠ 0)
  let text := if entry.type = .WIFI then
      name ++ str " (" ++ decimal entry.rssi ++ (if entry.have_LR then str " LR" else []) ++ str ")"
    else name ++ str " (c" ++ decimal entry.channel ++ str " " ++ decimal entry.rssi ++ str ")"
  text.take 49

/-- One round over the map; the first draws the usable networks, the second the others. -/
def round (config : Config) (selectedWifi : Int) (wanted : Bool) : List (Str × Entry) → Nat → List Row
  | [], _ => []
  | (ssid,entry) :: rest, n =>
    if usable config ssid entry = wanted then
      ⟨ssid,entry,rowText n ssid entry,wanted,decide ((n : Int) = selectedWifi)⟩ ::
        round config selectedWifi wanted rest (n + 1)
    else round config selectedWifi wanted rest n

/-- `n` goes on from the first round to the second. -/
def drawRows (config : Config) (selectedWifi : Int) (wifiList : List (Str × Entry)) : List Row :=
  let first := round config selectedWifi true wifiList 0
  first ++ round config selectedWifi false wifiList first.length

structure State where
  selectedWifi : Int := 0
  needUpdate : Bool := false
  lastFoundWifis : Int := 0
  lastKeyPressed : UInt32 := 0
  listChanged : Bool := false

inductive Drawn where
  | unchanged
  | noNetworks
  | rows (rows : List Row)
  /-- `GuiViewPowerDown` is started. -/
  | powerDown

def loop (config : Config) (wifiList : List (Str × Entry)) (now : UInt32) (s : State) : State × Drawn :=
  if s.needUpdate || s.listChanged then
    let s := { s with needUpdate := false, listChanged := false }
    let wifiCount : Int := wifiList.length
    if wifiCount = 0 then (s,.noNetworks)
    else
      let selectedWifi := if s.selectedWifi > wifiCount - 1 then wifiCount - 1 else s.selectedWifi
      let rows := drawRows config selectedWifi wifiList
      ({ s with selectedWifi, lastFoundWifis := rows.length },.rows rows)
  else if now > s.lastKeyPressed + config.POWER_DOWN_IDLE_TIMEOUT * 1000 then (s,.powerDown)
  else (s,.unchanged)

/-- The view that is started for a network. -/
inductive View where
  | connectWifi (ssid password : Str) (LR : Bool)
  | connectServer (btAddr : Vector UInt8 6) (channel : Int)
  deriving DecidableEq

/-- What the long click does with the entry it has found. -/
def connect (config : Config) (ssid : Str) (entry : Entry) : Option View :=
  if entry.type = .WIFI then match passwordForSSID config.wifiConfig ssid with
    | some password => some (.connectWifi ssid password entry.have_LR)
    | none => none
  else if config.HAVE_BLUETOOTH then some (.connectServer entry.addr entry.channel)
  else none

/-- The loop of the long click: it counts the usable entries only. -/
def pressed (config : Config) (selectedWifi : Int) : List (Str × Entry) → Nat → Option View
  | [], _ => none
  | (ssid,entry) :: rest, n =>
    if usable config ssid entry then
      if (n : Int) = selectedWifi then connect config ssid entry
      else pressed config selectedWifi rest (n + 1)
    else pressed config selectedWifi rest n

def buttonCallbackLongPress (config : Config) (wifiList : List (Str × Entry)) (now : UInt32) (s : State) :
    State × Option View :=
  ({ s with lastKeyPressed := now },pressed config s.selectedWifi wifiList 0)

/-- The view goes to the network of the line. -/
def ConnectsTo (config : Config) (row : Row) : View → Prop
  | .connectWifi ssid password LR => row.entry.type = .WIFI ∧ ssid = row.ssid ∧
      passwordForSSID config.wifiConfig row.ssid = some password ∧ LR = row.entry.have_LR
  | .connectServer btAddr channel => row.entry.type ≠ .WIFI ∧ btAddr = row.entry.addr ∧ channel = row.entry.channel

section Rows

variable (config : Config) (selectedWifi : Int) (wanted : Bool) (wifiList : List (Str × Entry))

theorem round_usable (n : Nat) (row : Row) (drawn : row ∈ round config selectedWifi wanted wifiList n) :
    row.usable = wanted ∧ usable config row.ssid row.entry = wanted := by
  induction wifiList generalizing n with
  | nil => exact absurd drawn List.not_mem_nil
  | cons network rest ih =>
    obtain ⟨ssid,entry⟩ := network
    simp only [round] at drawn
    split at drawn
    · rename_i fits
      rcases List.mem_cons.mp drawn with rfl | later
      · exact ⟨rfl,fits⟩
      · exact ih _ later
    · exact ih _ drawn

/-- The lines of a round are numbered from `n` on. -/
theorem round_selected (n : Nat) (row : Row) (drawn : row ∈ round config selectedWifi wanted wifiList n)
    (selected : row.selected = true) : (n : Int) ≤ selectedWifi := by
  induction wifiList generalizing n with
  | nil => exact absurd drawn List.not_mem_nil
  | cons network rest ih =>
    obtain ⟨ssid,entry⟩ := network
    simp only [round] at drawn
    split at drawn
    · rcases List.mem_cons.mp drawn with rfl | later
      · exact le_of_eq (of_decide_eq_true selected)
      · have := ih _ later
        omega
    · exact ih _ drawn

theorem round_find (n : Nat) (row : Row) (drawn : row ∈ round config selectedWifi wanted wifiList n)
    (selected : row.selected = true) : (round config selectedWifi wanted wifiList n).find? Row.selected = some row := by
  induction wifiList generalizing n with
  | nil => exact absurd drawn List.not_mem_nil
  | cons network rest ih =>
    obtain ⟨ssid,entry⟩ := network
    simp only [round] at drawn ⊢
    split at drawn
    · rename_i fits
      rw [if_pos fits]
      rcases List.mem_cons.mp drawn with rfl | later
      · exact List.find?_cons_of_pos selected
      · have behind := round_selected config selectedWifi wanted rest (n + 1) row later selected
        have other : ¬(n : Int) = selectedWifi := by omega
        rw [List.find?_cons_of_neg (by simpa using other)]
        exact ih _ later
    · rename_i fails
      rw [if_neg fails]
      exact ih _ drawn

/-- The long click counts as the first round does. -/
theorem pressed_eq (n : Nat) : pressed config selectedWifi wifiList n =
    ((round config selectedWifi true wifiList n).find? Row.selected).bind
      (fun row => connect config row.ssid row.entry) := by
  induction wifiList generalizing n with
  | nil => rfl
  | cons network rest ih =>
    obtain ⟨ssid,entry⟩ := network
    simp only [pressed,round]
    split
    · by_cases here : (n : Int) = selectedWifi
      · rw [if_pos here,List.find?_cons_of_pos (by simpa using here)]
        rfl
      · rw [if_neg here,List.find?_cons_of_neg (by simpa using here)]
        exact ih _
    · exact ih _

theorem connect_usable (row : Row) (fits : usable config row.ssid row.entry = true) :
    ∃ view, connect config row.ssid row.entry = some view ∧ ConnectsTo config row view := by
  unfold usable at fits
  unfold connect
  split at fits
  · rename_i wifi
    obtain ⟨password,found⟩ := Option.isSome_iff_exists.mp fits
    rw [if_pos wifi,found]
    exact ⟨_,rfl,wifi,rfl,found,rfl⟩
  · rename_i other
    obtain ⟨bluetooth,-⟩ := Bool.and_eq_true_iff.mp fits
    rw [if_neg other,if_pos bluetooth]
    exact ⟨_,rfl,other,rfl,rfl⟩

variable {config selectedWifi wifiList}

theorem pressed_usable {row : Row} (drawn : row ∈ drawRows config selectedWifi wifiList)
    (selected : row.selected = true) (fits : row.usable = true) :
    ∃ view, pressed config selectedWifi wifiList 0 = some view ∧ ConnectsTo config row view := by
  rcases List.mem_append.mp drawn with first | second
  · rw [pressed_eq,round_find config selectedWifi true wifiList 0 row first selected]
    exact connect_usable config row (round_usable config selectedWifi true wifiList 0 row first).2
  · have unusable := (round_usable config selectedWifi false wifiList _ row second).1
    rw [unusable] at fits
    cases fits

theorem pressed_nothing
    (unusable : ∀ row ∈ drawRows config selectedWifi wifiList, row.selected = true → row.usable = false) :
    pressed config selectedWifi wifiList 0 = none := by
  have nowhere : (round config selectedWifi true wifiList 0).find? Row.selected = none := by
    apply List.find?_eq_none.mpr
    intro row first selected
    have fails := unusable row (List.mem_append_left _ first) selected
    rw [(round_usable config selectedWifi true wifiList 0 row first).1] at fails
    cases fails
  rw [pressed_eq,nowhere]
  rfl

end Rows

def Drawn.lines : Drawn → List Row
  | .rows drawn => drawn
  | .unchanged | .noNetworks | .powerDown => []

/-- A long click after `loop` has drawn the list connects to the highlighted network where that one is usable,
and to nothing otherwise. -/
theorem connects_highlighted (config : Config) (wifiList : List (Str × Entry)) (drawnAt pressedAt : UInt32) (s : State)
    (draws : s.needUpdate = true ∨ s.listChanged = true) :
    let drawn := loop config wifiList drawnAt s
    let clicked := (buttonCallbackLongPress config wifiList pressedAt drawn.1).2
    (∀ row ∈ drawn.2.lines, row.selected = true → row.usable = true →
      ∃ view, clicked = some view ∧ ConnectsTo config row view) ∧
    ((∀ row ∈ drawn.2.lines, row.selected = true → row.usable = false) → clicked = none) := by
  have update : (s.needUpdate || s.listChanged) = true := Bool.or_eq_true_iff.mpr draws
  simp only [loop,update,↓reduceIte]
  by_cases empty : (wifiList.length : Int) = 0
  · simp only [empty,↓reduceIte,buttonCallbackLongPress,Drawn.lines]
    obtain rfl : wifiList = [] := List.eq_nil_of_length_eq_zero (by omega)
    exact ⟨fun row drawn => absurd drawn List.not_mem_nil,fun _ => rfl⟩
  · simp only [empty,↓reduceIte,buttonCallbackLongPress,Drawn.lines]
    exact ⟨fun row drawn selected fits => pressed_usable drawn selected fits,pressed_nothing⟩

/-- One saved network and the control channel of a Bluetooth device between two that are not usable. -/
def mixed : Config := { wifiConfig := [⟨str "train*",some (str "secret")⟩] }

def mixedList : List (Str × Entry) :=
  [(str "a",{ type := .BLUETOOTH, channel := 1 }),(str "b",{ type := .BLUETOOTH, channel := 30 }),
    (str "c",{ type := .WIFI }),(str "train1",{ type := .WIFI, have_LR := true })]

theorem connects_highlighted_mixed : ({ selectedWifi := 1, needUpdate := true } : State).needUpdate = true ∧
    ∃ view, (buttonCallbackLongPress mixed mixedList 5 (loop mixed mixedList 4 { selectedWifi := 1, needUpdate := true }).1).2 =
      some view ∧ view = .connectWifi (str "train1") (str "secret") true := by
  refine ⟨rfl,?_⟩
  have connected := (connects_highlighted mixed mixedList 4 5 { selectedWifi := 1, needUpdate := true } (.inl rfl)).1
    ⟨str "train1",{ type := .WIFI, have_LR := true },rowText 1 (str "train1") { type := .WIFI, have_LR := true },
      true,true⟩ (.tail _ (.head _)) rfl rfl
  obtain ⟨view,clicked,-⟩ := connected
  exact ⟨view,clicked,Option.some_injective _ (clicked.symm.trans rfl)⟩

end Btcontrol.GuiViewSelectWifi
