import Mathlib.Algebra.Group.Nat.Defs
import Arale.Gps.MnldMessage

/-!
# The handler for messages of the MNL daemon

`mnld_to_gps_handler` reads a datagram into `buff`, and the first number tells
what is behind it.

> `mnld_in_bounds`: all copies stay within the arrays exactly if the strings of a
> message fit: no length is greater than its array, and what then stands in
> `requestor_id` and `client_name` has a NUL behind at most 63 and 509 characters.

> `notification_converted`: a notification with strings of at most 62 and 509
> characters is handed to `notify_cb` with both strings in hexadecimal digits.

Nothing in the handler looks at the lengths: `requestor_overflows`.
-/

namespace Arale.Gps

open Arale.Lib List
open Arale.At (Line)

/-! ## Model -/

inductive MnldCmd where
  | notification
  | dataConnReq
  | dataConnRelease
  | requestSetId
  | requestRefloc
  | agpsLoc
  | notification2
  | dataConnReq2
  | updateEpoFileDone
  | updateEpoFileFail
  | mnlDie
  | gpsIcon
  | injectTimeReq
  | injectLocationReq
  | measurement
  | navigation
deriving DecidableEq

namespace MnldCmd

def number : MnldCmd → UInt32
  | notification => 230
  | dataConnReq => 231
  | dataConnRelease => 232
  | requestSetId => 233
  | requestRefloc => 234
  | agpsLoc => 235
  | notification2 => 236
  | dataConnReq2 => 237
  | updateEpoFileDone => 0x36
  | updateEpoFileFail => 0x38
  | mnlDie => 0x41
  | gpsIcon => 0x42
  | injectTimeReq => 0x48
  | injectLocationReq => 0x49
  | measurement => 0x76
  | navigation => 0x77

def all : List MnldCmd :=
  [notification, notification2, dataConnReq, dataConnReq2, dataConnRelease, requestSetId,
    requestRefloc, agpsLoc, updateEpoFileDone, updateEpoFileFail, injectTimeReq, injectLocationReq,
    mnlDie, gpsIcon, measurement, navigation]

/-- The command with a number, `none` for an unknown one. -/
def ofNumber (type : UInt32) : Option MnldCmd := all.find? fun cmd => cmd.number == type

theorem ofNumber_some {type : UInt32} {cmd : MnldCmd} (h : ofNumber type = some cmd) :
    type = cmd.number := by
  have hnumber := List.find?_some h
  exact (beq_iff_eq.mp hnumber).symm

end MnldCmd

structure GpsNiNotification where
  notificationId : UInt32
  /-- `GPS_NI_TYPE_UMTS_SUPL` -/
  niType : UInt32 := 2
  notifyFlags : UInt32
  timeout : UInt32 := 8
  /-- `GPS_NI_RESPONSE_NORESP` -/
  defaultResponse : UInt32 := 3
  requestorId : Line
  text : Line
  requestorIdEncoding : UInt32
  textEncoding : UInt32
deriving DecidableEq

/-- The fields of `GpsLocation` that have a flag may be absent. -/
structure GpsLocation where
  latitude : Line
  longitude : Line
  altitude : Option Line
  speed : Option Line
  bearing : Option Line
  accuracy : Option Line
  timestamp : Option Line
deriving DecidableEq

inductive GpsStatusValue where
  | sessionBegin
  | sessionEnd
  | engineOn
  | engineOff
deriving DecidableEq

/-- What the handler does. -/
inductive MnldCall where
  /-- `notify_cb` -/
  | notify (notification : GpsNiNotification)
  /-- `status_cb` of AGPS: a data connection to an address -/
  | dataConn (ipaddr : UInt32)
  | dataConnAddr (addr : Line)
  | dataConnRelease
  | requestSetid (flags : UInt32)
  | requestRefloc (flags : UInt32)
  | location (location : GpsLocation)
  | unlinkEpoFile
  | requestUtcTime
  | sendLocationToMnl
  /-- `status_cb` -/
  | status (status : GpsStatusValue)
  /-- the lock for the stop and the wake lock are released, `start_flag = 0` -/
  | released
  /-- `measurement_callback`; the fields are copied one by one -/
  | measurement (measurement clock : Line)
  /-- `navigation_message_callback` with the numbers of an event and its data -/
  | navigation (event data : Line)
deriving DecidableEq

/-- The variables that the handler reads. A callback may be absent. -/
structure MnldFlags where
  epoDownloadFailed : Bool
  gpsEpoFileCount : Nat
  started : Bool
  locationCb : Bool
  requestUtcTimeCb : Bool
  gpsmeasurementInitFlag : Bool
  gpsnavigationInitFlag : Bool

/-- What stands in the arrays on the stack that are not cleared. -/
structure MnldStack where
  requestorId : Line
  clientName : Line
  requestorId_length : requestorId.length = 1024
  clientName_length : clientName.length = 1024

section Model

/-- `sizeof(buff)` -/
def mnldBuffSize : Nat := 9000

def notifyFlags (type : UInt32) : UInt32 :=
  if type = 1 then 1
  else if type = 2 then 1 ||| 2
  else if type = 3 then 1 ||| 2
  else if type = 4 then 4
  else 0

/-- `MNL_AGPS_CMD_NOTIFICATION`; `GPS_ENC_SUPL_UCS2` is 3. -/
def notification (stack : MnldStack) (buff : Line) (offset : Nat) :
    Except (Fault MnldArray) (List MnldCall) := do
  let id ← buffGetInt buff offset
  let type ← buffGetInt buff id.2
  let requestorId ← buffGetString .requestorId stack.requestorId buff type.2
  let clientName ← buffGetString .clientName stack.clientName buff requestorId.2
  -- the buffer is cleared before each of the two conversions
  let ucs2Buff ← ascStrToUsc2Str .requestorId (padded 0 1024 []) requestorId.1
  let requestor ← rawDataToHexString .notifyRequestorId (padded 0 256 []) ucs2Buff.1 ucs2Buff.2
  let ucs2Buff ← ascStrToUsc2Str .clientName (padded 0 1024 []) clientName.1
  let text ← rawDataToHexString .notifyText (padded 0 2048 []) ucs2Buff.1 ucs2Buff.2
  return [.notify
    { notificationId := id.1
      notifyFlags := notifyFlags type.1
      requestorId := requestor
      text := text
      requestorIdEncoding := 3
      textEncoding := 3 }]

/-- `MNL_AGPS_CMD_NOTIFICATION_2` -/
def notification2 (buff : Line) (offset : Nat) : Except (Fault MnldArray) (List MnldCall) := do
  let id ← buffGetInt buff offset
  let type ← buffGetInt buff id.2
  let requestorId ← buffGetString .notifyRequestorId (padded 0 256 []) buff type.2
  let text ← buffGetString .notifyText (padded 0 2048 []) buff requestorId.2
  let requestorIdEncoding ← buffGetInt buff text.2
  let textEncoding ← buffGetInt buff requestorIdEncoding.2
  return [.notify
    { notificationId := id.1
      notifyFlags := notifyFlags type.1
      requestorId := requestorId.1
      text := text.1
      requestorIdEncoding := requestorIdEncoding.1
      textEncoding := textEncoding.1 }]

/-- The bytes of a field. -/
def fieldOf (struct : Line) (offset size : Nat) : Line := (struct.drop offset).take size

/-- A field with a flag before it. -/
def optionalField (struct : Line) (flag offset size : Nat) : Option Line :=
  if struct.getD flag 0 ≠ 0 then some (fieldOf struct offset size) else none

/-- The fields of `mnl_agps_agps_location`. -/
def gpsLocation (location : Line) : GpsLocation where
  latitude := fieldOf location 0 8
  longitude := fieldOf location 8 8
  altitude := optionalField location 16 24 8
  speed := optionalField location 32 36 4
  bearing := optionalField location 40 44 4
  accuracy := optionalField location 48 52 4
  timestamp := optionalField location 56 64 8

/-- `sizeof(mnl_agps_agps_location)` -/
def locationSize : Nat := 72

/-- `sizeof(struct sockaddr_storage)` -/
def sockaddrStorageSize : Nat := 128

/-- `sizeof(MTK_GPS_MEASUREMENT)` -/
def measurementSize : Nat := 220

/-- `sizeof(MTK_GPS_CLOCK)` -/
def clockSize : Nat := 68

/-- `sizeof(MTK_GPS_NAVIGATION_EVENT)` -/
def navigationEventSize : Nat := 56

/-- `HAL_CMD_MEASUREMENT`: the first of 32 measurements is reported if it has a
number. -/
def measurement (buff : Line) (offset : Nat) : Except (Fault MnldArray) (List MnldCall) := do
  let measurements ← buffGetStruct (32 * measurementSize) buff offset
  let clock ← buffGetStruct clockSize buff measurements.2
  let first := fieldOf measurements.1 0 measurementSize
  return if first.getD 8 0 ≠ 0 then [.measurement first clock.1] else []

/-- `HAL_CMD_NAVIGATION`. Memory is there for each `malloc`. -/
def navigation (buff : Line) (offset : Nat) : Except (Fault MnldArray) (List MnldCall) := do
  let event ← buffGetStruct navigationEventSize buff offset
  let length := intOf (fieldOf event.1 12 4)
  -- the copy has its own size, so only what it is read from can be too short
  let data ← sliceAt .navigationData (fieldOf event.1 16 40) 0 length.toNat
  return [.navigation (fieldOf event.1 4 6) data]

/-- `HAL_CMD_GPS_ICON` -/
def gpsIcon (flags : MnldFlags) (status : UInt32) : List MnldCall :=
  if flags.started then []
  else if status = 1 then [.status .engineOn, .status .sessionBegin]
  else if status = 0 then [.status .engineOff, .status .sessionEnd]
  else []

/-- The cases of the handler, behind the number of the command. -/
def handleCmd (flags : MnldFlags) (stack : MnldStack) (buff : Line) (offset : Nat) :
    MnldCmd → Except (Fault MnldArray) (List MnldCall)
  | .notification => notification stack buff offset
  | .notification2 => notification2 buff offset
  | .dataConnReq => do
    let ipaddr ← buffGetInt buff offset
    let _isEmergency ← buffGetInt buff ipaddr.2
    return [.dataConn ipaddr.1]
  | .dataConnReq2 => do
    let addr ← buffGetStruct sockaddrStorageSize buff offset
    let _isEmergency ← buffGetInt buff addr.2
    return [.dataConnAddr addr.1]
  | .dataConnRelease => .ok [.dataConnRelease]
  | .requestSetId => do
    let setid ← buffGetInt buff offset
    return [.requestSetid setid.1]
  | .requestRefloc => do
    let refloc ← buffGetInt buff offset
    return [.requestRefloc refloc.1]
  | .agpsLoc => do
    let location ← buffGetStruct locationSize buff offset
    return if flags.locationCb then [.location (gpsLocation location.1)] else []
  | .updateEpoFileDone =>
    .ok (if !flags.epoDownloadFailed ∧ flags.gpsEpoFileCount = 0 then [.unlinkEpoFile] else [])
  | .updateEpoFileFail => .ok []
  | .injectTimeReq => .ok (if flags.requestUtcTimeCb then [.requestUtcTime] else [])
  | .injectLocationReq => .ok [.sendLocationToMnl]
  | .mnlDie => .ok [.status .sessionEnd, .status .engineOff, .released]
  | .gpsIcon => do
    let status ← buffGetInt buff offset
    return gpsIcon flags status.1
  | .measurement => if flags.gpsmeasurementInitFlag then measurement buff offset else .ok []
  | .navigation => if flags.gpsnavigationInitFlag then navigation buff offset else .ok []

/-- `buff` after a datagram has been read. -/
def mnldBuff (datagram : Line) : Line := padded 0 mnldBuffSize datagram

/-- `mnld_to_gps_handler` -/
def mnldToGpsHandler (flags : MnldFlags) (stack : MnldStack) (datagram : Line) :
    Except (Fault MnldArray) (List MnldCall) := do
  let type ← buffGetInt (mnldBuff datagram) 0
  match MnldCmd.ofNumber type.1 with
  | some cmd => handleCmd flags stack (mnldBuff datagram) type.2 cmd
  | none => return []

end Model

/-! ## A notification -/

section Notification

variable {stack : MnldStack} {buff : Line}

/-- An array after the string at an offset has been copied into it. -/
def withString (buff : Line) (offset : Nat) (array : Line) : Line :=
  (buff.drop (offset + 4)).take (intAt buff offset).toNat ++ array.drop (intAt buff offset).toNat

/-- The string at an offset fits into an array, where a NUL stands behind fewer than
`chars` characters. -/
structure StringFits (buff : Line) (offset chars : Nat) (array : Line) : Prop where
  size_le : (intAt buff offset).toNat ≤ array.length
  ended : 0 ∈ (withString buff offset array).take chars

/-- The offset of the second string. -/
def secondString (buff : Line) : Nat := 16 + (intAt buff 12).toNat

/-- The first NUL of a list. -/
theorem exists_string {l : Line} {n : Nat} (h : 0 ∈ l.take n) :
    ∃ str rest, l = str ++ 0 :: rest ∧ 0 ∉ str ∧ str.length < n := by
  obtain ⟨str, rest, hsplit, hstr⟩ := eq_append_cons_of_mem h
  refine ⟨str, rest ++ l.drop n, ?_, hstr, ?_⟩
  · have hl := take_append_drop n l
    rw [hsplit, append_assoc, cons_append] at hl
    exact hl.symm
  · have hlength := length_take_le n l
    rw [hsplit, length_append, length_cons] at hlength
    omega

/-- Both strings have been read, and they are converted. -/
theorem notification_eq (hbuff : buff.length = mnldBuffSize)
    (hfirst : (intAt buff 12).toNat ≤ stack.requestorId.length)
    (hsecond : (intAt buff (secondString buff)).toNat ≤ stack.clientName.length)
    {requestor client rest rest' : Line}
    (hrequestor : withString buff 12 stack.requestorId = requestor ++ 0 :: rest)
    (hclient : withString buff (secondString buff) stack.clientName = client ++ 0 :: rest')
    (hnul : 0 ∉ requestor) (hnul' : 0 ∉ client) (hlength : requestor.length ≤ 63)
    (hlength' : client.length ≤ 509) :
    notification stack buff 4 = .ok [.notify
      { notificationId := intAt buff 4
        notifyFlags := notifyFlags (intAt buff 8)
        requestorId := padded 0 256 (hexString (ucs2 requestor))
        text := padded 0 2048 (hexString (ucs2 client))
        requestorIdEncoding := 3
        textEncoding := 3 }] := by
  have hsize := stack.requestorId_length
  have hsize' := stack.clientName_length
  have hoffset : secondString buff ≤ 1040 := by
    rw [secondString]
    omega
  rw [mnldBuffSize] at hbuff
  have hid : buffGetInt buff 4 = .ok (intAt buff 4, 8) := buffGetInt_eq (by omega)
  have htype : buffGetInt buff 8 = .ok (intAt buff 8, 12) := buffGetInt_eq (by omega)
  have hstring : buffGetString .requestorId stack.requestorId buff 12 =
      .ok (requestor ++ 0 :: rest, secondString buff) := by
    rw [buffGetString_eq (by omega) hfirst, ← hrequestor]
    rfl
  have hstring' : buffGetString .clientName stack.clientName buff (secondString buff) =
      .ok (client ++ 0 :: rest',
        secondString buff + 4 + (intAt buff (secondString buff)).toNat) := by
    rw [buffGetString_eq (by omega) hsecond, ← hclient]
    rfl
  have husc : 2 * (ucs2 requestor).length ≤ 256 := by
    rw [ucs2_length]
    omega
  have husc' : 2 * (ucs2 client).length ≤ 2048 := by
    rw [ucs2_length]
    omega
  simp only [notification, hid, ok_bind, htype, hstring, hstring',
    ascStrToUsc2Str_padded hnul _ (show 2 * requestor.length + 4 < 1024 by omega),
    rawDataToHexString_padded _ husc,
    ascStrToUsc2Str_padded hnul' _ (show 2 * client.length + 4 < 1024 by omega),
    rawDataToHexString_padded _ husc']
  rfl

end Notification

/-! ## All messages -/

section Bounds

variable {stack : MnldStack} {buff : Line}

theorem notification_ok_iff (hbuff : buff.length = mnldBuffSize) :
    (∃ calls, notification stack buff 4 = .ok calls) ↔
      StringFits buff 12 64 stack.requestorId ∧
        StringFits buff (secondString buff) 510 stack.clientName := by
  constructor
  · have hid : buffGetInt buff 4 = .ok (intAt buff 4, 8) := buffGetInt_eq (by rw [hbuff]; decide)
    have htype : buffGetInt buff 8 = .ok (intAt buff 8, 12) :=
      buffGetInt_eq (by rw [hbuff]; decide)
    rintro ⟨calls, h⟩
    rw [notification, hid, ok_bind, htype, ok_bind] at h
    obtain ⟨requestor, hrequestor, h⟩ := bind_ok h
    obtain ⟨hinside, hsize⟩ := buffGetString_ok hrequestor
    rw [buffGetString_eq hinside hsize] at hrequestor
    cases hrequestor
    obtain ⟨client, hclient, h⟩ := bind_ok h
    obtain ⟨hinside', hsize'⟩ := buffGetString_ok hclient
    rw [buffGetString_eq hinside' hsize'] at hclient
    cases hclient
    obtain ⟨usc, husc, h⟩ := bind_ok h
    obtain ⟨requestor, hhex, h⟩ := bind_ok h
    obtain ⟨usc', husc', h⟩ := bind_ok h
    obtain ⟨p, hnul, -, hlen⟩ := ascStrToUsc2Str_ok husc
    obtain ⟨q, hnul', hroom', -⟩ := ascStrToUsc2Str_ok husc'
    have hdigits := hexLoop_ok hhex
    rw [padded_length (Nat.zero_le _)] at hdigits hroom'
    have hmem : ∀ {l : Line} {n p : Nat}, l[p]? = some 0 → p < n → 0 ∈ l.take n :=
      fun {l n p} hp hn => mem_of_getElem? ((List.getElem?_take_of_lt hn).trans hp)
    exact ⟨⟨hsize, hmem hnul (by omega)⟩, hsize', hmem hnul' (by omega)⟩
  · rintro ⟨hrequestor, hclient⟩
    obtain ⟨requestor, rest, hsplit, hnul, hlength⟩ := exists_string hrequestor.ended
    obtain ⟨client, rest', hsplit', hnul', hlength'⟩ := exists_string hclient.ended
    exact ⟨_, notification_eq hbuff hrequestor.size_le hclient.size_le hsplit hsplit' hnul hnul'
      (Nat.le_of_lt_succ hlength) (Nat.le_of_lt_succ hlength')⟩

theorem notification2_ok_iff (hbuff : buff.length = mnldBuffSize) :
    (∃ calls, notification2 buff 4 = .ok calls) ↔
      (intAt buff 12).toNat ≤ 256 ∧ (intAt buff (secondString buff)).toNat ≤ 2048 := by
  have hrequestor : (padded (0 : UInt8) 256 []).length = 256 := padded_length (Nat.zero_le _)
  have htext : (padded (0 : UInt8) 2048 []).length = 2048 := padded_length (Nat.zero_le _)
  rw [mnldBuffSize] at hbuff
  have hid : buffGetInt buff 4 = .ok (intAt buff 4, 8) := buffGetInt_eq (by omega)
  have htype : buffGetInt buff 8 = .ok (intAt buff 8, 12) := buffGetInt_eq (by omega)
  rw [notification2, hid, ok_bind, htype, ok_bind]
  constructor
  · rintro ⟨calls, h⟩
    obtain ⟨requestor, hstring, h⟩ := bind_ok h
    obtain ⟨hinside, hsize⟩ := buffGetString_ok hstring
    rw [buffGetString_eq hinside hsize] at hstring
    cases hstring
    obtain ⟨text, hstring', -⟩ := bind_ok h
    exact ⟨hrequestor ▸ hsize, htext ▸ (buffGetString_ok hstring').2⟩
  · rintro ⟨hfirst, hsecond⟩
    have hoffset : secondString buff ≤ 272 := by
      rw [secondString]
      omega
    have hstring : buffGetString .notifyRequestorId (padded 0 256 []) buff 12 =
        .ok (_, secondString buff) := buffGetString_eq (by omega) (by omega)
    have hstring' : buffGetString .notifyText (padded 0 2048 []) buff (secondString buff) =
        .ok (_, secondString buff + 4 + (intAt buff (secondString buff)).toNat) :=
      buffGetString_eq (by omega) (by omega)
    rw [hstring, ok_bind, hstring', ok_bind, buffGetInt_eq (by omega), ok_bind,
      buffGetInt_eq (by omega), ok_bind]
    exact ⟨_, rfl⟩

theorem measurement_ok (hbuff : buff.length = mnldBuffSize) :
    ∃ calls, measurement buff 4 = .ok calls := by
  rw [mnldBuffSize] at hbuff
  rw [measurement, measurementSize, clockSize, buffGetStruct_eq (by omega), ok_bind,
    buffGetStruct_eq (by omega), ok_bind]
  exact ⟨_, rfl⟩

theorem navigation_ok_iff (hbuff : buff.length = mnldBuffSize) :
    (∃ calls, navigation buff 4 = .ok calls) ↔ (intAt buff 16).toNat ≤ 40 := by
  rw [mnldBuffSize] at hbuff
  have hfield : intOf (fieldOf ((buff.drop 4).take 56) 12 4) = intAt buff 16 := by
    rw [fieldOf, drop_take, take_take, drop_drop]
    rfl
  have hdata : (fieldOf ((buff.drop 4).take 56) 16 40).length = 40 := by
    rw [fieldOf, length_take, length_drop, length_take, length_drop]
    omega
  rw [navigation, navigationEventSize, buffGetStruct_eq (by omega), ok_bind]
  simp only [hfield]
  constructor
  · rintro ⟨calls, h⟩
    obtain ⟨data, hslice, -⟩ := bind_ok h
    have hinside := (sliceAt_ok hslice).1
    omega
  · intro hlength
    rw [sliceAt_eq (by omega), ok_bind]
    exact ⟨_, rfl⟩

/-- What the strings and the length of an event have to fulfil. -/
structure MessageFits (flags : MnldFlags) (stack : MnldStack) (buff : Line) : Prop where
  notification : intAt buff 0 = MnldCmd.notification.number →
    StringFits buff 12 64 stack.requestorId ∧
      StringFits buff (secondString buff) 510 stack.clientName
  notification2 : intAt buff 0 = MnldCmd.notification2.number →
    (intAt buff 12).toNat ≤ 256 ∧ (intAt buff (secondString buff)).toNat ≤ 2048
  navigation : intAt buff 0 = MnldCmd.navigation.number → flags.gpsnavigationInitFlag = true →
    (intAt buff 16).toNat ≤ 40

theorem handleCmd_ok {flags : MnldFlags} (hbuff : buff.length = mnldBuffSize) {cmd : MnldCmd}
    (hnumber : intAt buff 0 = cmd.number) (hfits : MessageFits flags stack buff) :
    ∃ calls, handleCmd flags stack buff 4 cmd = .ok calls := by
  have hsize := hbuff
  rw [mnldBuffSize] at hsize
  cases cmd with
  | notification => exact (notification_ok_iff hbuff).mpr (hfits.notification hnumber)
  | notification2 => exact (notification2_ok_iff hbuff).mpr (hfits.notification2 hnumber)
  | dataConnReq =>
    rw [handleCmd, buffGetInt_eq (by omega), ok_bind, buffGetInt_eq (by omega), ok_bind]
    exact ⟨_, rfl⟩
  | dataConnReq2 =>
    rw [handleCmd, sockaddrStorageSize, buffGetStruct_eq (by omega), ok_bind,
      buffGetInt_eq (by omega), ok_bind]
    exact ⟨_, rfl⟩
  | requestSetId | requestRefloc | gpsIcon =>
    rw [handleCmd, buffGetInt_eq (by omega), ok_bind]
    exact ⟨_, rfl⟩
  | agpsLoc =>
    rw [handleCmd, locationSize, buffGetStruct_eq (by omega), ok_bind]
    exact ⟨_, rfl⟩
  | measurement =>
    rw [handleCmd]
    split
    · exact measurement_ok hbuff
    · exact ⟨[], rfl⟩
  | navigation =>
    rw [handleCmd]
    split
    · next hinit => exact (navigation_ok_iff hbuff).mpr (hfits.navigation hnumber hinit)
    · exact ⟨[], rfl⟩
  | dataConnRelease | updateEpoFileDone | updateEpoFileFail | mnlDie | injectTimeReq
  | injectLocationReq => exact ⟨_, rfl⟩

variable {flags : MnldFlags} {datagram : Line}

theorem mnldToGpsHandler_eq (hbuff : (mnldBuff datagram).length = mnldBuffSize) {cmd : MnldCmd}
    (hnumber : intAt (mnldBuff datagram) 0 = cmd.number) :
    mnldToGpsHandler flags stack datagram = handleCmd flags stack (mnldBuff datagram) 4 cmd := by
  have hof : MnldCmd.ofNumber cmd.number = some cmd := by cases cmd <;> rfl
  rw [mnldToGpsHandler, buffGetInt_eq (by rw [hbuff]; decide), ok_bind, hnumber]
  simp only [hof]

/-- **Messages in bounds.** All copies stay within the arrays exactly if the strings
and lengths of the message fit. -/
theorem mnld_in_bounds (flags : MnldFlags) (stack : MnldStack) {datagram : Line}
    (hdatagram : datagram.length ≤ mnldBuffSize) :
    (∃ calls, mnldToGpsHandler flags stack datagram = .ok calls) ↔
      MessageFits flags stack (mnldBuff datagram) := by
  have hbuff : (mnldBuff datagram).length = mnldBuffSize := padded_length hdatagram
  constructor
  · intro hok
    refine ⟨fun hcmd => ?_, fun hcmd => ?_, fun hcmd hinit => ?_⟩
    · rw [mnldToGpsHandler_eq hbuff hcmd] at hok
      exact (notification_ok_iff hbuff).mp hok
    · rw [mnldToGpsHandler_eq hbuff hcmd] at hok
      exact (notification2_ok_iff hbuff).mp hok
    · rw [mnldToGpsHandler_eq hbuff hcmd, handleCmd, if_pos hinit] at hok
      exact (navigation_ok_iff hbuff).mp hok
  · intro hfits
    cases hcmd : MnldCmd.ofNumber (intAt (mnldBuff datagram) 0) with
    | none =>
      rw [mnldToGpsHandler, buffGetInt_eq (by rw [hbuff]; decide), ok_bind, hcmd]
      exact ⟨[], rfl⟩
    | some cmd =>
      have hnumber := MnldCmd.ofNumber_some hcmd
      rw [mnldToGpsHandler_eq hbuff hnumber]
      exact handleCmd_ok hbuff hnumber hfits

end Bounds

/-! ## A notification that is sent -/

section Sent

variable {buff : Line} {offset : Nat}

/-- What the daemon sends: the number of the command, then the fields. -/
def notificationMessage (id type : UInt32) (requestor client : Line) : Line :=
  buffPutString client (buffPutString requestor
    (buffPutInt type (buffPutInt id (buffPutInt 230 []))))

theorem drop_next {first rest : Line} (h : buff.drop offset = first ++ rest) :
    buff.drop (offset + first.length) = rest := by
  rw [← drop_drop, h, drop_left]

theorem intAt_eq {n : UInt32} {rest : Line} (h : buff.drop offset = intBytes n ++ rest) :
    intAt buff offset = n := by
  have hlength : (intBytes n).length = 4 := rfl
  rw [intAt, h, ← hlength, take_left, intOf_intBytes]

/-- A string with its length before it. -/
theorem string_eq {str rest : Line} (hstr : str.length < 2 ^ 31)
    (h : buff.drop offset = intBytes (UInt32.ofNat (str.length + 1)) ++ (str ++ [0] ++ rest)) :
    (intAt buff offset).toNat = str.length + 1 ∧
      (buff.drop (offset + 4)).take (intAt buff offset).toNat = str ++ 0 :: [] ∧
        buff.drop (offset + 4 + (str.length + 1)) = rest := by
  have hlen : (intAt buff offset).toNat = str.length + 1 := by
    rw [intAt_eq h, UInt32.toNat_ofNat']
    omega
  have hstring : buff.drop (offset + 4) = str ++ [0] ++ rest := drop_next h
  have hlength : (str ++ [0]).length = str.length + 1 := length_append
  refine ⟨hlen, ?_, ?_⟩
  · rw [hlen, hstring, ← hlength, take_left]
  · rw [← hlength]
    exact drop_next hstring

theorem withString_eq {str : Line}
    (h : (buff.drop (offset + 4)).take (intAt buff offset).toNat = str ++ 0 :: []) (array : Line) :
    withString buff offset array = str ++ 0 :: array.drop (intAt buff offset).toNat := by
  rw [withString, h, append_assoc, cons_append, nil_append]

/-- What stands in the buffer for a message. -/
structure HasMessage (buff : Line) (id type : UInt32) (requestor client : Line) : Prop where
  cmd : intAt buff 0 = 230
  id : intAt buff 4 = id
  type : intAt buff 8 = type
  requestorLen : (intAt buff 12).toNat = requestor.length + 1
  requestor : (buff.drop 16).take (intAt buff 12).toNat = requestor ++ 0 :: []
  clientLen : (intAt buff (secondString buff)).toNat = client.length + 1
  client : (buff.drop (secondString buff + 4)).take (intAt buff (secondString buff)).toNat =
    client ++ 0 :: []

theorem mnldBuff_message (id type : UInt32) {requestor client : Line}
    (hlength : requestor.length < 2 ^ 31)
    (hlength' : client.length < 2 ^ 31) (behind : Line) :
    HasMessage (mnldBuff (notificationMessage id type requestor client ++ behind)) id type requestor
      client := by
  obtain ⟨tail, hcmd⟩ : ∃ tail,
      (mnldBuff (notificationMessage id type requestor client ++ behind)).drop 0 =
        intBytes 230 ++ (intBytes id ++ (intBytes type ++
          (intBytes (UInt32.ofNat (requestor.length + 1)) ++ (requestor ++ [0] ++
            (intBytes (UInt32.ofNat (client.length + 1)) ++ (client ++ [0] ++ tail)))))) := by
    refine ⟨behind ++ replicate (mnldBuffSize -
      (notificationMessage id type requestor client ++ behind).length) 0, ?_⟩
    rw [drop_zero, mnldBuff, padded]
    simp only [notificationMessage, buffPutString, buffPutInt, nil_append, append_assoc]
  generalize mnldBuff (notificationMessage id type requestor client ++ behind) = buff at hcmd
  -- each field is behind the one before
  have hid : buff.drop 4 = _ := drop_next hcmd
  have htype : buff.drop 8 = _ := drop_next hid
  have hrequestor : buff.drop 12 = _ := drop_next htype
  obtain ⟨hlen, hstring, hrest⟩ := string_eq hlength hrequestor
  have hsecond : secondString buff = 16 + (requestor.length + 1) := by rw [secondString, hlen]
  rw [← hsecond] at hrest
  obtain ⟨hlen', hstring', -⟩ := string_eq hlength' hrest
  exact ⟨intAt_eq hcmd, intAt_eq hid, intAt_eq htype, hlen, hstring, hlen', hstring'⟩

/-- A notification with strings that are short enough is handed over, with each
string in UCS-2 and hexadecimal digits. The digits leave room for a NUL. -/
theorem notification_converted (flags : MnldFlags) (stack : MnldStack) (id type : UInt32)
    {requestor client : Line} (hnul : 0 ∉ requestor) (hnul' : 0 ∉ client)
    (hlength : requestor.length ≤ 62) (hlength' : client.length ≤ 509) (behind : Line)
    (hdatagram : (notificationMessage id type requestor client ++ behind).length ≤ mnldBuffSize) :
    ∃ n : GpsNiNotification,
      mnldToGpsHandler flags stack (notificationMessage id type requestor client ++ behind) =
          .ok [.notify n] ∧
        n.notificationId = id ∧ n.notifyFlags = notifyFlags type ∧
        n.requestorId = padded 0 256 (hexString (ucs2 requestor)) ∧
        n.text = padded 0 2048 (hexString (ucs2 client)) ∧
        (hexString (ucs2 requestor)).length < 256 ∧ (hexString (ucs2 client)).length < 2048 := by
  have hbuff : (mnldBuff (notificationMessage id type requestor client ++ behind)).length =
      mnldBuffSize := padded_length hdatagram
  have hmessage := mnldBuff_message id type (Nat.lt_of_le_of_lt hlength (by decide))
    (Nat.lt_of_le_of_lt hlength' (by decide)) behind
  have hfirst := hmessage.requestorLen
  have hsecond := hmessage.clientLen
  have hsize := stack.requestorId_length
  have hsize' := stack.clientName_length
  have hnotification := @notification_eq stack _ hbuff (by omega) (by omega) _ _ _ _
    (withString_eq hmessage.requestor _) (withString_eq hmessage.client _) hnul hnul' (by omega)
    hlength'
  rw [hmessage.id, hmessage.type] at hnotification
  have hhandler := @mnldToGpsHandler_eq stack flags _ hbuff .notification hmessage.cmd
  rw [handleCmd, hnotification] at hhandler
  refine ⟨_, hhandler, rfl, rfl, rfl, rfl, ?_, ?_⟩
  · rw [hexString_length, ucs2_length]
    omega
  · rw [hexString_length, ucs2_length]
    omega

end Sent

/-! ## Lengths that do not fit -/

def sampleFlags : MnldFlags where
  epoDownloadFailed := false
  gpsEpoFileCount := 0
  started := true
  locationCb := true
  requestUtcTimeCb := true
  gpsmeasurementInitFlag := true
  gpsnavigationInitFlag := true

def sampleStack : MnldStack where
  requestorId := replicate 1024 0
  clientName := replicate 1024 0
  requestorId_length := length_replicate
  clientName_length := length_replicate

theorem notification_converted_sample :
    ∃ n : GpsNiNotification,
      mnldToGpsHandler sampleFlags sampleStack (notificationMessage 7 1 [65] [66] ++ []) =
          .ok [.notify n] ∧
        n.notificationId = 7 ∧ n.notifyFlags = notifyFlags 1 ∧
        n.requestorId = padded 0 256 (hexString (ucs2 [65])) ∧
        n.text = padded 0 2048 (hexString (ucs2 [66])) ∧
        (hexString (ucs2 [65])).length < 256 ∧ (hexString (ucs2 [66])).length < 2048 :=
  notification_converted sampleFlags sampleStack 7 1 (by decide) (by decide) (by decide)
    (by decide) []
    (by decide)

theorem mnld_in_bounds_sample :
    ∃ calls, mnldToGpsHandler sampleFlags sampleStack (notificationMessage 7 1 [65] [66] ++ []) =
      .ok calls := by
  have hmessage := @mnldBuff_message 7 1 [65] [66] (by decide) (by decide) []
  refine (mnld_in_bounds sampleFlags sampleStack (by decide)).mpr
    ⟨fun _ => ⟨⟨?_, ?_⟩, ⟨?_, ?_⟩⟩, fun hcmd => ?_, fun hcmd => ?_⟩
  · rw [hmessage.requestorLen, sampleStack.requestorId_length]
    decide
  · rw [withString_eq hmessage.requestor]
    exact mem_cons_of_mem _ mem_cons_self
  · rw [hmessage.clientLen, sampleStack.clientName_length]
    decide
  · rw [withString_eq hmessage.client]
    exact mem_cons_of_mem _ mem_cons_self
  · rw [hmessage.cmd] at hcmd
    cases hcmd
  · rw [hmessage.cmd] at hcmd
    cases hcmd

/-- A string that is longer than `requestor_id` is copied all the same. -/
theorem requestor_too_long {stack : MnldStack} {buff : Line} (hbuff : buff.length = mnldBuffSize)
    (hlong : 1024 < (intAt buff 12).toNat) (hend : 16 + (intAt buff 12).toNat ≤ mnldBuffSize) :
    notification stack buff 4 = .error (.outside .requestorId 1024) := by
  have hid : buffGetInt buff 4 = .ok (intAt buff 4, 8) := buffGetInt_eq (by omega)
  have htype : buffGetInt buff 8 = .ok (intAt buff 8, 12) := buffGetInt_eq (by omega)
  have hlen : buffGetInt buff 12 = .ok (intAt buff 12, 16) := buffGetInt_eq (by omega)
  have hmem : ((buff.drop 16).take (intAt buff 12).toNat).length = (intAt buff 12).toNat := by
    rw [length_take, length_drop]
    omega
  have hcopy : storeAt MnldArray.requestorId stack.requestorId 0
      ((buff.drop 16).take (intAt buff 12).toNat) = .error (.outside .requestorId 1024) := by
    rw [storeAt_outside (by rw [hmem, stack.requestorId_length]; omega) (Nat.zero_le _),
      stack.requestorId_length]
  have hstring : buffGetString .requestorId stack.requestorId buff 12 =
      .error (.outside .requestorId 1024) := by
    rw [buffGetString, hlen, ok_bind]
    show buffCopy .requestorId stack.requestorId (intAt buff 12).toNat buff 16 = _
    rw [buffCopy, sliceAt_eq (by omega), ok_bind, hcopy]
    rfl
  rw [notification, hid, ok_bind, htype, ok_bind, hstring]
  rfl

/-- A message of 16 bytes that announces a string of 1025. -/
theorem requestor_overflows :
    mnldToGpsHandler sampleFlags sampleStack
        (intBytes 230 ++ (intBytes 7 ++ (intBytes 1 ++ intBytes 1025))) =
      .error (.outside .requestorId 1024) := by
  have hbuff : (mnldBuff (intBytes 230 ++ (intBytes 7 ++ (intBytes 1 ++ intBytes 1025)))).length =
      mnldBuffSize := padded_length (by decide)
  have hcmd : (mnldBuff (intBytes 230 ++ (intBytes 7 ++ (intBytes 1 ++ intBytes 1025)))).drop 0 =
      intBytes 230 ++ (intBytes 7
        ++ (intBytes 1 ++ (intBytes 1025 ++ replicate (mnldBuffSize - 16) 0))) :=
    rfl
  have hid := drop_next hcmd
  have htype := drop_next hid
  have hlen : intAt (mnldBuff (intBytes 230 ++ (intBytes 7 ++ (intBytes 1 ++ intBytes 1025)))) 12
      = 1025 :=
    intAt_eq (drop_next htype)
  rw [mnldToGpsHandler, buffGetInt_eq (by rw [hbuff]; decide), ok_bind, intAt_eq hcmd]
  apply requestor_too_long hbuff
  · rw [hlen]
    decide
  · rw [hlen]
    decide

end Arale.Gps
