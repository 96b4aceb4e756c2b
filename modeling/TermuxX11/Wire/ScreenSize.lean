import TermuxX11.Activity.Dimensions
import TermuxX11.Wire.ActivityToServer

/-!
# The size of the screen on its way to the X server

`LorieView` sends the resolution, the refresh rate and the name of its display; the server passes
what it reads to `lorieConfigureNotify`.  Between the two, sizes are `int`s at both ends and fields
of sixteen bits in the message (`lossless_iff`).
-/

namespace TermuxX11.Wire

open ByteCoding Framing

/-! ### The view -/

/-- `getDisplay()`. -/
structure Display where
  isDefault : Bool
  refreshRate : ℚ

/-- The names of displays. -/
inductive DisplayName
  | builtin
  | dex
  | external
  deriving DecidableEq

/-- What is passed to the native `sendWindowChange`. -/
structure WindowChange where
  width : Int32
  height : Int32
  framerate : Int32
  name : DisplayName
  deriving DecidableEq

/-- `LorieView.sendWindowChange`; `px` and `py` are what `getDimensionsFromSettings` gives. -/
def WindowChange.ofView (display : Option Display) (dexEnabled : Bool) (px py : Int32) :
    WindowChange where
  width := px
  height := py
  framerate :=
    match display with
    | some d => Int32.ofInt (Java.saturate (Java.truncate d.refreshRate))
    | none => 30
  name :=
    if display.all (·.isDefault) then .builtin else if dexEnabled then .dex else .external

/-! ### The message -/

namespace DisplayName

/-- The bytes of the name in `GetStringUTFChars`. -/
def bytes : DisplayName → Bytes
  | builtin => "builtin".toList.map fun c => UInt8.ofNat c.toNat
  | dex => "dex".toList.map fun c => UInt8.ofNat c.toNat
  | external => "external".toList.map fun c => UInt8.ofNat c.toNat

def cString (name : DisplayName) : CString where
  bytes := name.bytes
  zero_notMem := by cases name <;> decide
  length_lt := by cases name <;> decide

end DisplayName

/-- No name. -/
def noName : CString := ⟨[], by decide, by decide⟩

/-- `sendWindowChange` of the activity.  There is no second `write` without a name. -/
def sendWindowChange (c : WindowChange) : ActivityMessage :=
  .screenSize (.ofInt c.width.toInt) (.ofInt c.height.toInt) (.ofInt c.framerate.toInt)
    (if c.width ≤ 0 ∨ c.height ≤ 0 then noName else c.name.cString)

/-! ### The server -/

/-- The arguments of `lorieConfigureNotify`. -/
structure Configuration where
  width : ℤ
  height : ℤ
  framerate : ℤ
  nameSize : ℕ
  name : Option Bytes
  deriving DecidableEq

/-- `sendConfigureNotify`, on the copy that `handleLorieEvents` makes of a new size. -/
def sendConfigureNotify : ServerEvent → Option Configuration
  | .configureNotify width height framerate name =>
    some
      { width := width.toNat, height := height.toNat, framerate := framerate.toNat,
        nameSize := name.length, name := if name.length ≠ 0 then some (cString name) else none }
  | _ => none

/-- What the view has sent, as the server should get it. -/
def WindowChange.configuration (c : WindowChange) : Configuration where
  width := c.width.toInt
  height := c.height.toInt
  framerate := c.framerate.toInt
  nameSize := c.name.bytes.length
  name := some c.name.bytes

/-- The server configures what the view has sent, from the bytes of a socket. -/
def Lossless (cs : List WindowChange) (s : Socket) : Prop :=
  (handleLorieEvents.serve s.total.length s).1.map sendConfigureNotify =
    cs.map fun c => some c.configuration

/-- A screen with pixels, whose sizes and rate fit into their fields. -/
structure WindowChange.Fits (c : WindowChange) : Prop where
  width : 0 < c.width.toInt ∧ c.width.toInt < 2 ^ 16
  height : 0 < c.height.toInt ∧ c.height.toInt < 2 ^ 16
  framerate : 0 ≤ c.framerate.toInt ∧ c.framerate.toInt < 2 ^ 16

theorem DisplayName.length_ne_zero (name : DisplayName) : name.bytes.length ≠ 0 := by
  cases name <;> decide

theorem DisplayName.cString_bytes (name : DisplayName) :
    ByteCoding.cString name.bytes = name.bytes :=
  cString_eq_self name.cString.zero_notMem

/-- What the server configures after a message. -/
theorem sendConfigureNotify_event (c : WindowChange) :
    sendConfigureNotify (sendWindowChange c).event =
      some
        { width := (UInt16.ofInt c.width.toInt).toNat
          height := (UInt16.ofInt c.height.toInt).toNat
          framerate := (UInt16.ofInt c.framerate.toInt).toNat
          nameSize := if c.width ≤ 0 ∨ c.height ≤ 0 then 0 else c.name.bytes.length
          name := if c.width ≤ 0 ∨ c.height ≤ 0 then none else some c.name.bytes } := by
  rw [sendWindowChange, ActivityMessage.event, sendConfigureNotify]
  by_cases hempty : c.width ≤ 0 ∨ c.height ≤ 0
  · simp only [if_pos hempty]
    rfl
  · simp only [if_neg hempty]
    have hname : (if c.name.cString.bytes.length ≠ 0 then some (cString c.name.cString.bytes)
        else none) = some c.name.bytes :=
      (if_pos c.name.length_ne_zero).trans (congrArg some c.name.cString_bytes)
    rw [hname]
    rfl

/-- A message is configured as it was sent exactly if everything in it fits. -/
theorem sendConfigureNotify_eq_iff (c : WindowChange) :
    sendConfigureNotify (sendWindowChange c).event = some c.configuration ↔ c.Fits := by
  rw [sendConfigureNotify_event, WindowChange.configuration, Option.some_inj,
    Configuration.mk.injEq, toNat_ofInt_eq_iff, toNat_ofInt_eq_iff, toNat_ofInt_eq_iff]
  simp only [Int32.le_iff_toInt_le, Int32.toInt_zero]
  constructor
  · rintro ⟨hwidth, hheight, hframerate, -, hname⟩
    split_ifs at hname with hempty
    exact ⟨⟨by omega, hwidth.2⟩, ⟨by omega, hheight.2⟩, hframerate⟩
  · rintro ⟨hwidth, hheight, hframerate⟩
    have hempty : ¬ (c.width.toInt ≤ 0 ∨ c.height.toInt ≤ 0) := by omega
    rw [if_neg hempty, if_neg hempty]
    exact ⟨⟨hwidth.1.le, hwidth.2⟩, ⟨hheight.1.le, hheight.2⟩, hframerate, rfl, rfl⟩

/-- What the server configures from a socket. -/
theorem map_serve_eq {cs : List WindowChange} {s : Socket}
    (hs : s.total = (cs.map sendWindowChange).flatMap ActivityMessage.write)
    (hd : Delivered (cs.map sendWindowChange) s) :
    (handleLorieEvents.serve s.total.length s).1.map sendConfigureNotify =
      cs.map fun c => sendConfigureNotify (sendWindowChange c).event := by
  have hpayload : ∀ m ∈ cs.map sendWindowChange, (0 : UInt8) ∉ m.payload := by
    intro m hm
    obtain ⟨c, -, rfl⟩ := List.mem_map.1 hm
    rw [sendWindowChange, ActivityMessage.payload]
    exact CString.zero_notMem _
  rw [handleLorieEvents.serve_eq_iterate le_rfl, iterate_of_delivered hs le_rfl hpayload hd,
    List.map_map, List.map_map]
  rfl

/-- **Screen sizes arrive as they were sent**, in every run of changes that is delivered, exactly if
they have pixels and fit into sixteen bits. -/
theorem lossless_iff (cs : List WindowChange) (s : Socket)
    (hs : s.total = (cs.map sendWindowChange).flatMap ActivityMessage.write)
    (hd : Delivered (cs.map sendWindowChange) s) : Lossless cs s ↔ ∀ c ∈ cs, c.Fits := by
  rw [Lossless, map_serve_eq hs hd, List.map_inj_left]
  exact forall₂_congr fun c _ => sendConfigureNotify_eq_iff c

/-- A message that has arrived as a whole is delivered. -/
theorem delivered_available (m : ActivityMessage) : Delivered [m] (.available m.write) := by
  rw [ActivityMessage.write]
  refine ⟨?_, ?_, trivial⟩
  · simp [Arrived, Socket.read_available]
  · simp [Arrived, Socket.read_available]

/-- The default resolution arrives. -/
theorem lossless_default :
    Lossless [⟨1280, 1024, 60, .builtin⟩]
      (.available (sendWindowChange ⟨1280, 1024, 60, .builtin⟩).write) := by
  refine (lossless_iff [⟨1280, 1024, 60, .builtin⟩] _ (by simp)
    (delivered_available (sendWindowChange _))).2 fun c hc => ?_
  obtain rfl := List.mem_singleton.1 hc
  exact ⟨by decide, by decide, by decide⟩

open Activity Java in
/-- A width that the settings take loses its highest bit. -/
theorem wide_loses :
    onPreferenceChange "70000x1024".toList = .ok true ∧
      getDimensionsFromSettings .wrapping { displayResolutionCustom := "70000x1024".toList }
        1080 2340 = .ok (70000, 1024) ∧
      sendConfigureNotify (sendWindowChange (.ofView none false 70000 1024)).event =
        some ⟨4464, 1024, 30, 7, some DisplayName.builtin.bytes⟩ ∧
      ¬ Lossless [.ofView none false 70000 1024]
        (.available (sendWindowChange (.ofView none false 70000 1024)).write) := by
  refine ⟨by decide, by decide, by decide, fun h => ?_⟩
  have hdelivered : Delivered ([WindowChange.ofView none false 70000 1024].map sendWindowChange)
      (.available (sendWindowChange (.ofView none false 70000 1024)).write) :=
    delivered_available _
  exact absurd ((map_serve_eq (by simp) hdelivered).symm.trans h) (by decide)

end TermuxX11.Wire
