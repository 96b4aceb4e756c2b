import Mathlib

/-!
# `VirtualKeysBinding`

The constants of the enumeration, in the order of `values()`, with their names and the
predicates by which `VirtualKeysView.handleInputEvent` chooses what to send.  `keycode`,
`toAndroidKeyCode` and `toString` are used by the input sender and the drawing code only
and are left out.
-/

namespace TermuxX11.VirtualKeys

/-- `VirtualKeysBinding`. -/
inductive Binding
  | none | keyEsc | keyEscape | keyF1 | keyF2 | keyF3 | keyF4 | keyF5 | keyF6 | keyF7 | keyF8
  | keyF9 | keyF10 | keyF11 | keyF12 | keyGrave | key1 | key2 | key3 | key4 | key5 | key6 | key7
  | key8 | key9 | key0 | keyMinus | keyEquals | keyBksp | keyBackspace | keyTab | keyQ | keyW
  | keyE | keyR | keyT | keyY | keyU | keyI | keyO | keyP | keyBracketLeft | keyBracketRight
  | keyBackslash | keyCapital | keyCapsLock | keyA | keyS | keyD | keyF | keyG | keyH | keyJ
  | keyK | keyL | keySemicolon | keyApostrophe | keyEnter | keyShiftL | keyLshift | keyShiftR
  | keyRshift | keyZ | keyX | keyC | keyV | keyB | keyN | keyM | keyComma | keyPeriod | keySlash
  | keyCtrlL | keyLctrl | keyLcontrol | keyCtrlR | keyRctrl | keyRcontrol | keyLwin | keyLmenu
  | keyLalt | keyAltL | keySpace | keyRmenu | keyRalt | keyAltR | keyRwin | keyUp | keyDown
  | keyLeft | keyRight | keyInsert | keyHome | keyEnd | keyPgup | keyPageup | keyPgdn
  | keyPagedown | keyDelete | keyDel | keyPrtscn | keyPrint | keyScrollLock | keyPause | numpad0
  | keyKp0 | numpad1 | keyKp1 | numpad2 | keyKp2 | numpad3 | keyKp3 | numpad4 | keyKp4 | numpad5
  | keyKp5 | numpad6 | keyKp6 | numpad7 | keyKp7 | numpad8 | keyKp8 | numpad9 | keyKp9
  | numpadDecimal | keyKpDecimal | numpadDivide | keyKpDivide | numpadMultiply | keyKpMultiply
  | numpadMinus | keyKpSubtract | numpadPlus | keyKpAdd | numpadEnter | keyKpEnter | keyNumLock
  | keyNumlock | keyScroll | mouseLeftButton | mouseRightButton | mouseMiddleButton | mouseMoveUp
  | mouseMoveDown | mouseMoveLeft | mouseMoveRight | mouseScrollUp | mouseScrollDown
  | mouseLeftRight | mouseTouchmodeSwitch
  deriving DecidableEq, Repr, Inhabited

namespace Binding

/-- `values()`. -/
def values : List Binding :=
  [.none, .keyEsc, .keyEscape, .keyF1, .keyF2, .keyF3, .keyF4, .keyF5, .keyF6, .keyF7, .keyF8,
    .keyF9, .keyF10, .keyF11, .keyF12, .keyGrave, .key1, .key2, .key3, .key4, .key5, .key6,
    .key7, .key8, .key9, .key0, .keyMinus, .keyEquals, .keyBksp, .keyBackspace, .keyTab, .keyQ,
    .keyW, .keyE, .keyR, .keyT, .keyY, .keyU, .keyI, .keyO, .keyP, .keyBracketLeft,
    .keyBracketRight, .keyBackslash, .keyCapital, .keyCapsLock, .keyA, .keyS, .keyD, .keyF,
    .keyG, .keyH, .keyJ, .keyK, .keyL, .keySemicolon, .keyApostrophe, .keyEnter, .keyShiftL,
    .keyLshift, .keyShiftR, .keyRshift, .keyZ, .keyX, .keyC, .keyV, .keyB, .keyN, .keyM,
    .keyComma, .keyPeriod, .keySlash, .keyCtrlL, .keyLctrl, .keyLcontrol, .keyCtrlR, .keyRctrl,
    .keyRcontrol, .keyLwin, .keyLmenu, .keyLalt, .keyAltL, .keySpace, .keyRmenu, .keyRalt,
    .keyAltR, .keyRwin, .keyUp, .keyDown, .keyLeft, .keyRight, .keyInsert, .keyHome, .keyEnd,
    .keyPgup, .keyPageup, .keyPgdn, .keyPagedown, .keyDelete, .keyDel, .keyPrtscn, .keyPrint,
    .keyScrollLock, .keyPause, .numpad0, .keyKp0, .numpad1, .keyKp1, .numpad2, .keyKp2, .numpad3,
    .keyKp3, .numpad4, .keyKp4, .numpad5, .keyKp5, .numpad6, .keyKp6, .numpad7, .keyKp7,
    .numpad8, .keyKp8, .numpad9, .keyKp9, .numpadDecimal, .keyKpDecimal, .numpadDivide,
    .keyKpDivide, .numpadMultiply, .keyKpMultiply, .numpadMinus, .keyKpSubtract, .numpadPlus,
    .keyKpAdd, .numpadEnter, .keyKpEnter, .keyNumLock, .keyNumlock, .keyScroll, .mouseLeftButton,
    .mouseRightButton, .mouseMiddleButton, .mouseMoveUp, .mouseMoveDown, .mouseMoveLeft,
    .mouseMoveRight, .mouseScrollUp, .mouseScrollDown, .mouseLeftRight, .mouseTouchmodeSwitch]

/-- `name()`. -/
def name : Binding → String
  | none => "NONE"
  | keyEsc => "KEY_ESC"
  | keyEscape => "KEY_ESCAPE"
  | keyF1 => "KEY_F1"
  | keyF2 => "KEY_F2"
  | keyF3 => "KEY_F3"
  | keyF4 => "KEY_F4"
  | keyF5 => "KEY_F5"
  | keyF6 => "KEY_F6"
  | keyF7 => "KEY_F7"
  | keyF8 => "KEY_F8"
  | keyF9 => "KEY_F9"
  | keyF10 => "KEY_F10"
  | keyF11 => "KEY_F11"
  | keyF12 => "KEY_F12"
  | keyGrave => "KEY_GRAVE"
  | key1 => "KEY_1"
  | key2 => "KEY_2"
  | key3 => "KEY_3"
  | key4 => "KEY_4"
  | key5 => "KEY_5"
  | key6 => "KEY_6"
  | key7 => "KEY_7"
  | key8 => "KEY_8"
  | key9 => "KEY_9"
  | key0 => "KEY_0"
  | keyMinus => "KEY_MINUS"
  | keyEquals => "KEY_EQUALS"
  | keyBksp => "KEY_BKSP"
  | keyBackspace => "KEY_BACKSPACE"
  | keyTab => "KEY_TAB"
  | keyQ => "KEY_Q"
  | keyW => "KEY_W"
  | keyE => "KEY_E"
  | keyR => "KEY_R"
  | keyT => "KEY_T"
  | keyY => "KEY_Y"
  | keyU => "KEY_U"
  | keyI => "KEY_I"
  | keyO => "KEY_O"
  | keyP => "KEY_P"
  | keyBracketLeft => "KEY_BRACKET_LEFT"
  | keyBracketRight => "KEY_BRACKET_RIGHT"
  | keyBackslash => "KEY_BACKSLASH"
  | keyCapital => "KEY_CAPITAL"
  | keyCapsLock => "KEY_CAPS_LOCK"
  | keyA => "KEY_A"
  | keyS => "KEY_S"
  | keyD => "KEY_D"
  | keyF => "KEY_F"
  | keyG => "KEY_G"
  | keyH => "KEY_H"
  | keyJ => "KEY_J"
  | keyK => "KEY_K"
  | keyL => "KEY_L"
  | keySemicolon => "KEY_SEMICOLON"
  | keyApostrophe => "KEY_APOSTROPHE"
  | keyEnter => "KEY_ENTER"
  | keyShiftL => "KEY_SHIFT_L"
  | keyLshift => "KEY_LSHIFT"
  | keyShiftR => "KEY_SHIFT_R"
  | keyRshift => "KEY_RSHIFT"
  | keyZ => "KEY_Z"
  | keyX => "KEY_X"
  | keyC => "KEY_C"
  | keyV => "KEY_V"
  | keyB => "KEY_B"
  | keyN => "KEY_N"
  | keyM => "KEY_M"
  | keyComma => "KEY_COMMA"
  | keyPeriod => "KEY_PERIOD"
  | keySlash => "KEY_SLASH"
  | keyCtrlL => "KEY_CTRL_L"
  | keyLctrl => "KEY_LCTRL"
  | keyLcontrol => "KEY_LCONTROL"
  | keyCtrlR => "KEY_CTRL_R"
  | keyRctrl => "KEY_RCTRL"
  | keyRcontrol => "KEY_RCONTROL"
  | keyLwin => "KEY_LWIN"
  | keyLmenu => "KEY_LMENU"
  | keyLalt => "KEY_LALT"
  | keyAltL => "KEY_ALT_L"
  | keySpace => "KEY_SPACE"
  | keyRmenu => "KEY_RMENU"
  | keyRalt => "KEY_RALT"
  | keyAltR => "KEY_ALT_R"
  | keyRwin => "KEY_RWIN"
  | keyUp => "KEY_UP"
  | keyDown => "KEY_DOWN"
  | keyLeft => "KEY_LEFT"
  | keyRight => "KEY_RIGHT"
  | keyInsert => "KEY_INSERT"
  | keyHome => "KEY_HOME"
  | keyEnd => "KEY_END"
  | keyPgup => "KEY_PGUP"
  | keyPageup => "KEY_PAGEUP"
  | keyPgdn => "KEY_PGDN"
  | keyPagedown => "KEY_PAGEDOWN"
  | keyDelete => "KEY_DELETE"
  | keyDel => "KEY_DEL"
  | keyPrtscn => "KEY_PRTSCN"
  | keyPrint => "KEY_PRINT"
  | keyScrollLock => "KEY_SCROLL_LOCK"
  | keyPause => "KEY_PAUSE"
  | numpad0 => "NUMPAD_0"
  | keyKp0 => "KEY_KP_0"
  | numpad1 => "NUMPAD_1"
  | keyKp1 => "KEY_KP_1"
  | numpad2 => "NUMPAD_2"
  | keyKp2 => "KEY_KP_2"
  | numpad3 => "NUMPAD_3"
  | keyKp3 => "KEY_KP_3"
  | numpad4 => "NUMPAD_4"
  | keyKp4 => "KEY_KP_4"
  | numpad5 => "NUMPAD_5"
  | keyKp5 => "KEY_KP_5"
  | numpad6 => "NUMPAD_6"
  | keyKp6 => "KEY_KP_6"
  | numpad7 => "NUMPAD_7"
  | keyKp7 => "KEY_KP_7"
  | numpad8 => "NUMPAD_8"
  | keyKp8 => "KEY_KP_8"
  | numpad9 => "NUMPAD_9"
  | keyKp9 => "KEY_KP_9"
  | numpadDecimal => "NUMPAD_DECIMAL"
  | keyKpDecimal => "KEY_KP_DECIMAL"
  | numpadDivide => "NUMPAD_DIVIDE"
  | keyKpDivide => "KEY_KP_DIVIDE"
  | numpadMultiply => "NUMPAD_MULTIPLY"
  | keyKpMultiply => "KEY_KP_MULTIPLY"
  | numpadMinus => "NUMPAD_MINUS"
  | keyKpSubtract => "KEY_KP_SUBTRACT"
  | numpadPlus => "NUMPAD_PLUS"
  | keyKpAdd => "KEY_KP_ADD"
  | numpadEnter => "NUMPAD_ENTER"
  | keyKpEnter => "KEY_KP_ENTER"
  | keyNumLock => "KEY_NUM_LOCK"
  | keyNumlock => "KEY_NUMLOCK"
  | keyScroll => "KEY_SCROLL"
  | mouseLeftButton => "MOUSE_LEFT_BUTTON"
  | mouseRightButton => "MOUSE_RIGHT_BUTTON"
  | mouseMiddleButton => "MOUSE_MIDDLE_BUTTON"
  | mouseMoveUp => "MOUSE_MOVE_UP"
  | mouseMoveDown => "MOUSE_MOVE_DOWN"
  | mouseMoveLeft => "MOUSE_MOVE_LEFT"
  | mouseMoveRight => "MOUSE_MOVE_RIGHT"
  | mouseScrollUp => "MOUSE_SCROLL_UP"
  | mouseScrollDown => "MOUSE_SCROLL_DOWN"
  | mouseLeftRight => "MOUSE_LEFT_RIGHT"
  | mouseTouchmodeSwitch => "MOUSE_TOUCHMODE_SWITCH"

/-- `valueOf`; `none` stands for the `IllegalArgumentException`. -/
def valueOf (s : String) : Option Binding := values.find? fun b => b.name == s

/-- The aliases that `fromString` knows besides the names of the constants. -/
def fromAlias : String → Binding
  | "KEY_ESC" => .keyEsc
  | "KEY_BKSP" | "KEY_BACKSPACE" => .keyBksp
  | "KEY_SHIFT" | "KEY_LSHIFT" => .keyShiftL
  | "KEY_RSHIFT" => .keyShiftR
  | "KEY_CTRL" | "KEY_LCTRL" | "KEY_LCONTROL" => .keyCtrlL
  | "KEY_RCTRL" | "KEY_RCONTROL" => .keyCtrlR
  | "KEY_ALT" | "KEY_LALT" => .keyAltL
  | "KEY_RALT" => .keyAltR
  | "KEY_DELETE" => .keyDel
  | "KEY_PAGEUP" | "KEY_PG_UP" => .keyPgup
  | "KEY_PAGEDOWN" | "KEY_PG_DOWN" => .keyPgdn
  | "KEY_PRINT" => .keyPrtscn
  | "KEY_CAPS" => .keyCapital
  | "KEY_NUMLOCK" => .keyNumLock
  | "KEY_SCROLL" => .keyScrollLock
  | "KEY_KP0" | "NUMPAD_0" => .numpad0
  | "KEY_KP1" | "NUMPAD_1" => .numpad1
  | "KEY_KP2" | "NUMPAD_2" => .numpad2
  | "KEY_KP3" | "NUMPAD_3" => .numpad3
  | "KEY_KP4" | "NUMPAD_4" => .numpad4
  | "KEY_KP5" | "NUMPAD_5" => .numpad5
  | "KEY_KP6" | "NUMPAD_6" => .numpad6
  | "KEY_KP7" | "NUMPAD_7" => .numpad7
  | "KEY_KP8" | "NUMPAD_8" => .numpad8
  | "KEY_KP9" | "NUMPAD_9" => .numpad9
  | "KEY_KP_DIVIDE" => .numpadDivide
  | "KEY_KP_MULTIPLY" => .numpadMultiply
  | "KEY_KP_SUBTRACT" => .numpadMinus
  | "KEY_KP_ADD" => .numpadPlus
  | "KEY_KP_DECIMAL" => .numpadDecimal
  | "KEY_KP_ENTER" => .numpadEnter
  | _ => .none

/-- `fromString`: the constant of that name, else an alias, else `NONE`. -/
def fromString (s : String) : Binding := (valueOf s).getD (fromAlias s)

/-- `isMouse()`: the constants declared with `mouse` set; all the others have `keyboard` set. -/
def isMouse : Binding → Bool
  | mouseLeftButton | mouseRightButton | mouseMiddleButton | mouseMoveUp | mouseMoveDown
  | mouseMoveLeft | mouseMoveRight | mouseScrollUp | mouseScrollDown | mouseLeftRight
  | mouseTouchmodeSwitch => true
  | _ => false

/-- `isKeyboard()`. -/
def isKeyboard (b : Binding) : Bool := !b.isMouse

/-- `isMouseMove()`. -/
def isMouseMove : Binding → Bool
  | mouseMoveUp | mouseMoveDown | mouseMoveLeft | mouseMoveRight => true
  | _ => false

/-- `getPointerButton()`. -/
def getPointerButton : Binding → Option ℕ
  | mouseLeftButton => some 1
  | mouseMiddleButton => some 2
  | mouseRightButton => some 3
  | mouseScrollUp => some 4
  | mouseScrollDown => some 5
  | _ => Option.none

theorem mem_values (b : Binding) : b ∈ values := by
  cases b <;> decide

theorem valueOf_name (b : Binding) : valueOf b.name = some b := by
  have h : ∀ b ∈ values, valueOf b.name = some b := by decide +kernel
  exact h b (mem_values b)

/-- What `name` writes, `fromString` reads back. -/
theorem fromString_name (b : Binding) : fromString b.name = b := by
  rw [fromString, valueOf_name, Option.getD_some]

end Binding

end TermuxX11.VirtualKeys
