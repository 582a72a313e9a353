import Arale.Lib.Trace

/-!
# The lights

`liblights` drives the screen, the button light and the notification LED. The
button light and the notification LED are one device: `BUTTON_FILE` and
`MX_LED_FILE` are the same path, and both write `MX_TRIGGER_FILE`.

This is the module as it runs here: there is no trackball light, all writes
succeed and the delay files are there, so every function returns 0. What was
written last to a file is its content. `blink_mx_led` returns at once if its
static `preStatus` says that nothing changes.
-/

namespace Arale.Lights

/-- `light_state_t`, without `brightnessMode` -/
structure LightState where
  color : UInt32
  flashMode : Int32
  flashOnMS : Int
  flashOffMS : Int
  deriving DecidableEq, Repr

/-- `LIGHT_FLASH_TIMED` -/
def lightFlashTimed : Int32 := 1

/-- What a variable of the type `light_state_t` holds at the start. -/
def LightState.zero : LightState := ⟨0, 0, 0, 0⟩

/-- The content of `MX_TRIGGER_FILE`. -/
inductive Trigger where
  | none
  | timer
  | other
  deriving DecidableEq, Repr

structure Files where
  trigger : Trigger
  /-- `MX_LED_FILE`, which is also `BUTTON_FILE` -/
  brightness : Int
  delayOn : Int
  delayOff : Int
  lcd : Int
  deriving DecidableEq, Repr

/-- `preStatus` and `nowStatus` -/
inductive Status where
  | off
  | blink
  | noBlink
  deriving DecidableEq, Repr

structure Device where
  notification : LightState
  battery : LightState
  backlight : Int
  buttons : Int
  preStatus : Status
  files : Files
  deriving DecidableEq, Repr

/-- The variables at the start, with what the files hold then. -/
def Device.start (files : Files) : Device where
  notification := .zero
  battery := .zero
  backlight := 255
  buttons := 0
  preStatus := .off
  files := files

/-- `is_lit` -/
def isLit (state : LightState) : Int := (state.color &&& 0x00ffffff).toNat

/-! ## Brightness -/

/-- `rgb_to_brightness` -/
def rgbToBrightness (state : LightState) : Int :=
  let color := state.color &&& 0x00ffffff
  (((77 * ((color >>> 16) &&& 0x00ff).toNat + 150 * ((color >>> 8) &&& 0x00ff).toNat
    + 29 * (color &&& 0x00ff).toNat) >>> 8 : Nat) : Int)

/-- `BRIGHTNESS_MAP` -/
def brightnessMap : List Int :=
  [
    416, 422, 428, 435, 441, 448, 454, 460, 467, 473, 480, 486, 492, 499, 505, 512,
    518, 524, 531, 537, 544, 550, 556, 563, 569, 576, 582, 588, 595, 601, 608, 614,
    620, 627, 633, 640, 646, 652, 659, 665, 672, 678, 684, 691, 697, 704, 710, 716,
    723, 729, 736, 742, 748, 755, 761, 768, 774, 780, 787, 793, 800, 806, 812, 819,
    825, 832, 838, 844, 851, 857, 864, 870, 876, 883, 889, 896, 902, 908, 915, 921,
    928, 934, 940, 947, 953, 960, 966, 972, 979, 985, 992, 998, 1004, 1011, 1017, 1024,
    1030, 1036, 1043, 1049, 1056, 1062, 1068, 1075, 1081, 1088, 1094, 1100, 1107, 1113, 1120, 1126,
    1132, 1139, 1145, 1152, 1158, 1164, 1171, 1177, 1184, 1190, 1196, 1203, 1209, 1216, 1222, 1228,
    1235, 1241, 1248, 1254, 1260, 1267, 1273, 1280, 1286, 1292, 1299, 1305, 1312, 1318, 1324, 1331,
    1337, 1344, 1350, 1356, 1363, 1369, 1376, 1382, 1388, 1395, 1401, 1408, 1414, 1420, 1427, 1433,
    1440, 1446, 1452, 1459, 1465, 1472, 1478, 1484, 1491, 1497, 1504, 1510, 1516, 1523, 1529, 1536,
    1542, 1548, 1555, 1561, 1568, 1574, 1580, 1587, 1593, 1600, 1606, 1612, 1619, 1625, 1632, 1638,
    1644, 1651, 1657, 1664, 1670, 1676, 1683, 1689, 1696, 1702, 1708, 1715, 1721, 1728, 1734, 1740,
    1747, 1753, 1760, 1766, 1772, 1779, 1785, 1792, 1798, 1804, 1811, 1817, 1824, 1830, 1836, 1843,
    1849, 1856, 1862, 1868, 1875, 1881, 1888, 1894, 1900, 1907, 1913, 1920, 1926, 1932, 1939, 1945,
    1952, 1958, 1964, 1971, 1977, 1984, 1990, 1996, 2003, 2009, 2016, 2022, 2028, 2035, 2041, 2047]

/-- `to_mx4_brightness` -/
def toMx4Brightness (brightness : Int) : Int :=
  if brightness ≤ 0 then 0
  else if 256 ≤ brightness then 2047
  else brightnessMap.getD brightness.toNat 0

/-! ## The notification LED -/

/-- `nowStatus` -/
def nowStatus (level onMS offMS : Int) : Status :=
  if level = 0 then .off else if onMS ≠ 0 ∧ offMS ≠ 0 then .blink else .noBlink

/-- The writes of `blink_mx_led` -/
def writeLed (files : Files) (onMS offMS : Int) : Status → Files
  | .off => { files with trigger := .none, brightness := 0 }
  | .blink => { files with trigger := .timer, delayOff := offMS, delayOn := onMS }
  | .noBlink => { files with trigger := .none, brightness := 255 }

/-- `blink_mx_led` -/
def blinkMxLed (s : Device) (level onMS offMS : Int) : Device :=
  if s.preStatus = nowStatus level onMS offMS then s
  else
    { s with
      files := writeLed s.files onMS offMS (nowStatus level onMS offMS)
      preStatus := nowStatus level onMS offMS }

/-- The times that `set_speaker_light_locked` uses. -/
def flashTimes (state : LightState) : Int × Int :=
  if state.flashMode = lightFlashTimed then (state.flashOnMS, state.flashOffMS) else (0, 0)

/-- `red || green || blue`, which are 0 if `alpha` is -/
def hasColor (state : LightState) : Bool :=
  let alpha := (state.color >>> 24) &&& 0xff
  let red := if alpha ≠ 0 then (state.color >>> 16) &&& 0xff else 0
  let green := if alpha ≠ 0 then (state.color >>> 8) &&& 0xff else 0
  let blue := if alpha ≠ 0 then state.color &&& 0xff else 0
  red != 0 || green != 0 || blue != 0

/-- `set_speaker_light_locked` -/
def setSpeakerLightLocked (s : Device) (state : LightState) : Device :=
  if hasColor state then blinkMxLed s 255 (flashTimes state).1 (flashTimes state).2
  else blinkMxLed s 0 0 0

/-- `handle_speaker_battery_locked` -/
def handleSpeakerBatteryLocked (s : Device) : Device :=
  if isLit s.battery ≠ 0 then setSpeakerLightLocked s s.battery
  else
    let s := setSpeakerLightLocked s s.battery
    setSpeakerLightLocked s s.notification

/-- `set_light_battery` -/
def setLightBattery (s : Device) (state : LightState) : Device :=
  handleSpeakerBatteryLocked { s with battery := state }

/-- `set_light_notifications` -/
def setLightNotifications (s : Device) (state : LightState) : Device :=
  handleSpeakerBatteryLocked { s with notification := state }

/-! ## Buttons and screen -/

/-- `do_set_light_buttons` -/
def doSetLightButtons (s : Device) (on : Int) : Device :=
  { s with
    buttons := on
    files :=
      { s.files with trigger := .none, brightness := if on ≠ 0 then s.backlight else 0 } }

/-- `set_light_buttons` -/
def setLightButtons (s : Device) (state : LightState) : Device := doSetLightButtons s (isLit state)

/-- The locked part of `set_light_backlight` -/
def backlightLocked (s : Device) (state : LightState) : Device :=
  let brightness := rgbToBrightness state
  { s with backlight := brightness, files := { s.files with lcd := toMx4Brightness brightness } }

/-- `set_light_backlight`, with nothing in between -/
def setLightBacklight (s : Device) (state : LightState) : Device :=
  let s := backlightLocked s state
  if s.buttons ≠ 0 then doSetLightButtons s 1 else s

end Arale.Lights
