import Mathlib.Algebra.Group.Nat.Defs
import Arale.Lights.Device

/-!
# What the notification LED shows

The LED is to show the battery state if that is lit, and else the state of the
notifications. `Files.shows` says what the files hold for that.

`blink_mx_led` does not write if `preStatus` is the status to be shown. There
are two ways in which the files do not have what `preStatus` stands for: the
buttons wrote them meanwhile, or the LED blinks with other times. A state that
is not lit is safe from this as long as something else was shown before or is
shown now, since `handle_speaker_battery_locked` turns the LED off first.

> `led_shows`: as long as each request is written or finds its own state in the
> files, the LED shows the current request after it.

`Watched` keeps track of whether the buttons wrote the files since the last
request that was written.
-/

namespace Arale.Lights

open Arale.Lib (Run)

/-! ## What is to be shown -/

inductive Shown where
  | off
  | blink (onMS offMS : Int)
  | steady
  deriving DecidableEq, Repr

/-- A color with alpha is shown, blinking if both times are given. -/
def LightState.shown (state : LightState) : Shown :=
  if state.color >>> 24 ≠ 0 ∧ isLit state ≠ 0 then
    if state.flashMode = lightFlashTimed ∧ state.flashOnMS ≠ 0 ∧ state.flashOffMS ≠ 0 then
      .blink state.flashOnMS state.flashOffMS
    else .steady
  else .off

/-- The battery state if it is lit, otherwise the notification state. -/
def effective (battery notification : LightState) : LightState :=
  if isLit battery ≠ 0 then battery else notification

def Device.shown (s : Device) : Shown := (effective s.battery s.notification).shown

def Files.shows (files : Files) : Shown → Prop
  | .off => files.trigger = .none ∧ files.brightness = 0
  | .blink onMS offMS => files.trigger = .timer ∧ files.delayOn = onMS ∧ files.delayOff = offMS
  | .steady => files.trigger = .none ∧ files.brightness = 255

instance (files : Files) (shown : Shown) : Decidable (files.shows shown) :=
  match shown with
  | .off => inferInstanceAs (Decidable (_ ∧ _))
  | .blink _ _ => inferInstanceAs (Decidable (_ ∧ _ ∧ _))
  | .steady => inferInstanceAs (Decidable (_ ∧ _))

def Shown.status : Shown → Status
  | .off => .off
  | .blink _ _ => .blink
  | .steady => .noBlink

theorem status_eq_off {shown : Shown} : shown.status = .off ↔ shown = .off := by
  cases shown <;> simp [Shown.status]

/-- A byte of a color, as a number. -/
theorem byte_toNat (color : UInt32) : (color &&& 0xff).toNat = color.toNat % 256 := by
  exact Nat.and_two_pow_sub_one_eq_mod color.toNat 8

theorem shifted_toNat (color : UInt32) :
    (color >>> 24).toNat = color.toNat / 2 ^ 24 ∧ (color >>> 16).toNat = color.toNat / 2 ^ 16
      ∧ (color >>> 8).toNat = color.toNat / 2 ^ 8 := by
  refine ⟨?_, ?_, ?_⟩ <;> rw [UInt32.toNat_shiftRight, Nat.shiftRight_eq_div_pow] <;> rfl

theorem isLit_eq (state : LightState) :
    isLit state = ((state.color.toNat % 2 ^ 24 : Nat) : Int) := by
  exact congrArg Int.ofNat (Nat.and_two_pow_sub_one_eq_mod state.color.toNat 24)

/-- The three colors are zero together if the low bits are. -/
theorem hasColor_iff (state : LightState) :
    hasColor state = true ↔ state.color >>> 24 ≠ 0 ∧ isLit state ≠ 0 := by
  have hlt := state.color.toNat_lt
  obtain ⟨halpha, hred, hgreen⟩ := shifted_toNat state.color
  have hzero : ∀ c : UInt32, c = 0 ↔ c.toNat = 0 := fun c => by
    rw [← UInt32.toNat_inj]
    rfl
  rw [isLit_eq]
  by_cases h : (state.color >>> 24) &&& 0xff = 0
  · have hnone : state.color >>> 24 = 0 := by
      rw [hzero] at h ⊢
      rw [byte_toNat] at h
      omega
    simp [hasColor, hnone]
  · have hsome : state.color >>> 24 ≠ 0 := fun heq => h (by rw [heq]; rfl)
    simp only [hasColor, h, hsome, ne_eq, not_false_eq_true, if_true, true_and, Bool.or_eq_true,
      bne_iff_ne, hzero, byte_toNat, hred, hgreen]
    omega

/-! ## A request -/

/-- The writes for what is to be shown. -/
def Files.write (files : Files) : Shown → Files
  | .off => writeLed files 0 0 .off
  | .blink onMS offMS => writeLed files onMS offMS .blink
  | .steady => writeLed files 0 0 .noBlink

theorem write_shows (files : Files) (shown : Shown) : (files.write shown).shows shown := by
  cases shown <;> simp [Files.write, Files.shows, writeLed]

/-- `set_speaker_light_locked` in terms of what is to be shown. -/
theorem setSpeakerLightLocked_eq (s : Device) (state : LightState) :
    setSpeakerLightLocked s state =
      if s.preStatus = state.shown.status then s
      else { s with files := s.files.write state.shown, preStatus := state.shown.status } := by
  unfold setSpeakerLightLocked
  by_cases hcolor : hasColor state = true
  · have hlit := (hasColor_iff state).mp hcolor
    rw [if_pos hcolor]
    by_cases htimed : state.flashMode = lightFlashTimed
    · have htimes : flashTimes state = (state.flashOnMS, state.flashOffMS) := if_pos htimed
      by_cases hboth : state.flashOnMS ≠ 0 ∧ state.flashOffMS ≠ 0
      · have hshown : state.shown = .blink state.flashOnMS state.flashOffMS := by
          rw [LightState.shown, if_pos hlit, if_pos ⟨htimed, hboth⟩]
        have hnow : nowStatus 255 state.flashOnMS state.flashOffMS = .blink := by
          rw [nowStatus, if_neg (by decide), if_pos hboth]
        rw [hshown, blinkMxLed, htimes, hnow]
        rfl
      · have hshown : state.shown = .steady := by
          rw [LightState.shown, if_pos hlit, if_neg (fun h => hboth h.2)]
        have hnow : nowStatus 255 state.flashOnMS state.flashOffMS = .noBlink := by
          rw [nowStatus, if_neg (by decide), if_neg hboth]
        rw [hshown, blinkMxLed, htimes, hnow]
        rfl
    · have htimes : flashTimes state = (0, 0) := if_neg htimed
      have hshown : state.shown = .steady := by
        rw [LightState.shown, if_pos hlit, if_neg (fun h => htimed h.1)]
      rw [hshown, blinkMxLed, htimes]
      rfl
  · have hshown : state.shown = .off := by
      rw [LightState.shown, if_neg (fun h => hcolor ((hasColor_iff state).mpr h))]
    rw [if_neg hcolor, hshown]
    rfl

/-- A state without a color is off. -/
theorem shown_off {state : LightState} (h : isLit state = 0) : state.shown = .off := by
  rw [LightState.shown, if_neg (fun hlit => hlit.2 h)]

/-- `blink_mx_led` writes for a request, given what was shown before and what
is to be shown now. -/
def rewritten (battery : LightState) (old new : Shown) : Bool :=
  if isLit battery ≠ 0 then new.status != old.status else new != .off || old != .off

/-- `set_speaker_light_locked` for a battery that is not lit turns the LED off. -/
theorem setSpeakerLightLocked_off {s : Device} {old : Shown} (hpre : s.preStatus = old.status)
    {state : LightState} (hoff : state.shown = .off) :
    ∃ files, setSpeakerLightLocked s state = { s with files := files, preStatus := .off }
      ∧ (old = .off → files = s.files) ∧ (old ≠ .off → files.shows .off) := by
  rw [setSpeakerLightLocked_eq, hoff, hpre]
  by_cases hold : old = .off
  · subst hold
    refine ⟨s.files, ?_, fun _ => rfl, fun h => absurd rfl h⟩
    exact congrArg (fun p => { s with preStatus := p }) hpre
  · refine ⟨s.files.write .off, ?_, fun h => absurd h hold, fun _ => write_shows _ _⟩
    have hstatus : ¬old.status = Shown.off.status := fun h => hold (status_eq_off.mp h)
    rw [if_neg hstatus]
    rfl

/-- What a request does, if `preStatus` is what was shown before: the new state
is in `preStatus`, and in the files if they are written. -/
theorem handleSpeakerBatteryLocked_spec {s : Device} {old : Shown}
    (hpre : s.preStatus = old.status) :
    ∃ files, handleSpeakerBatteryLocked s = { s with files := files, preStatus := s.shown.status }
      ∧ (rewritten s.battery old s.shown = true → files.shows s.shown)
      ∧ (rewritten s.battery old s.shown = false → files = s.files) := by
  unfold handleSpeakerBatteryLocked
  by_cases hlit : isLit s.battery ≠ 0
  · have hshown : s.shown = s.battery.shown := by
      rw [Device.shown, effective, if_pos hlit]
    rw [if_pos hlit, setSpeakerLightLocked_eq, rewritten, if_pos hlit, hshown, hpre]
    by_cases hsame : old.status = s.battery.shown.status
    · refine ⟨s.files, ?_, fun h => ?_, fun _ => rfl⟩
      · rw [if_pos hsame, ← hsame, ← hpre]
      · exact absurd hsame.symm (bne_iff_ne.mp h)
    · refine ⟨s.files.write s.battery.shown, ?_, fun _ => write_shows _ _, fun h => ?_⟩
      · rw [if_neg hsame]
      · exact absurd (bne_eq_false_iff_eq.mp h).symm hsame
  · have hshown : s.shown = s.notification.shown := by
      rw [Device.shown, effective, if_neg hlit]
    -- the LED is off when the notification is shown
    obtain ⟨files, hfirst, hunchanged, hwritten⟩ :=
      setSpeakerLightLocked_off hpre (shown_off (Decidable.not_not.mp hlit))
    rw [if_neg hlit, rewritten, if_neg hlit, hshown]
    simp only [hfirst]
    rw [setSpeakerLightLocked_eq]
    by_cases hnew : s.notification.shown = .off
    · rw [hnew]
      refine ⟨files, rfl, fun h => hwritten ?_, fun h => hunchanged ?_⟩
      · simpa using h
      · simpa using h
    · refine ⟨files.write s.notification.shown, ?_, fun _ => write_shows _ _, fun h => ?_⟩
      · rw [if_neg (fun h => hnew (status_eq_off.mp h.symm))]
      · simp [hnew] at h

/-! ## Calls -/

inductive Call where
  | battery (state : LightState)
  | notifications (state : LightState)
  | buttons (state : LightState)
  | backlight (state : LightState)
  deriving DecidableEq, Repr

def Device.call (s : Device) : Call → Device
  | .battery state => setLightBattery s state
  | .notifications state => setLightNotifications s state
  | .buttons state => setLightButtons s state
  | .backlight state => setLightBacklight s state

/-- The requests for the LED: the two states with the new one. -/
def Call.request (s : Device) : Call → Option (LightState × LightState)
  | .battery state => some (state, s.notification)
  | .notifications state => some (s.battery, state)
  | _ => none

/-- The device with other states. -/
def Device.withStates (s : Device) (states : LightState × LightState) : Device :=
  { s with battery := states.1, notification := states.2 }

theorem call_request {s : Device} {c : Call} {states : LightState × LightState}
    (h : c.request s = some states) :
    s.call c = handleSpeakerBatteryLocked (s.withStates states) := by
  cases c with
  | battery state =>
    cases h
    rfl
  | notifications state =>
    cases h
    rfl
  | buttons state => cases h
  | backlight state => cases h

/-- The device, and whether something else wrote the files since they were
written for a request. -/
structure Watched where
  device : Device
  touched : Bool
  deriving DecidableEq, Repr

/-- The files may hold anything at the start. -/
def Watched.start (files : Files) : Watched := ⟨.start files, !decide (files.shows .off)⟩

/-- The request is written. -/
def Watched.writes (w : Watched) (states : LightState × LightState) : Bool :=
  rewritten states.1 w.device.shown (w.device.withStates states).shown

def Watched.touchedBy (w : Watched) (c : Call) : Bool :=
  match c.request w.device, c with
  | some states, _ => w.touched && !w.writes states
  | none, .buttons _ => true
  | none, _ => w.touched || w.device.buttons != 0

def Watched.call (w : Watched) (c : Call) : Option Watched :=
  some ⟨w.device.call c, w.touchedBy c⟩

/-- A request is written, or what it shows is in the files. -/
def effectual (w : Watched) (c : Call) : Prop :=
  ∀ states, c.request w.device = some states →
    w.writes states = true
      ∨ w.touched = false ∧ (w.device.withStates states).shown = w.device.shown

theorem all_effectual (w : Watched) (c : Call) :
    (c.request w.device).all (fun states => decide (w.writes states = true
      ∨ w.touched = false ∧ (w.device.withStates states).shown = w.device.shown)) = true
      ↔ effectual w c := by
  cases hrequest : c.request w.device with
  | none => simp [effectual, hrequest]
  | some states => simp [effectual, hrequest]

instance (w : Watched) (c : Call) : Decidable (effectual w c) :=
  decidable_of_iff _ (all_effectual w c)

/-- `preStatus` is what is to be shown, and if nothing else wrote the files, they
show it. -/
structure Watched.Inv (w : Watched) : Prop where
  preStatus : w.device.preStatus = w.device.shown.status
  files : w.touched = false → w.device.files.shows w.device.shown

theorem start_shown (files : Files) : (Device.start files).shown = .off := by
  have hzero : (effective .zero .zero).shown = .off := by decide
  exact hzero

theorem Watched.Inv.start (files : Files) : (Watched.start files).Inv where
  preStatus := by
    rw [Watched.start, start_shown]
    rfl
  files h := by
    have hoff : decide (files.shows .off) = true := by simpa [Watched.start] using h
    rw [Watched.start, start_shown]
    exact of_decide_eq_true hoff

/-- A request that has an effect is shown. -/
theorem Watched.Inv.request {w : Watched} {c : Call} {states : LightState × LightState}
    (h : w.Inv) (hc : effectual w c) (hrequest : c.request w.device = some states) :
    (w.device.call c).preStatus = (w.device.call c).shown.status
      ∧ (w.device.call c).files.shows (w.device.call c).shown := by
  obtain ⟨files, heq, hwritten, hunchanged⟩ :=
    @handleSpeakerBatteryLocked_spec (w.device.withStates states) w.device.shown h.preStatus
  have hcall := (call_request hrequest).trans heq
  have hshown : (w.device.call c).shown = (w.device.withStates states).shown := by
    rw [hcall]
    rfl
  rw [hshown, hcall]
  refine ⟨rfl, ?_⟩
  cases hwrites : w.writes states with
  | true => exact hwritten hwrites
  | false =>
    -- the files were not written, and show what they showed before
    rcases hc states hrequest with hwrite | ⟨htouched, hsame⟩
    · rw [hwrites] at hwrite
      cases hwrite
    · have hold := h.files htouched
      rw [← hsame] at hold
      have hfiles : files = w.device.files := hunchanged hwrites
      rw [hfiles]
      exact hold

/-- The other calls do not change what is to be shown. -/
theorem Watched.Inv.other {w : Watched} {c : Call} (h : w.Inv)
    (hrequest : c.request w.device = none) :
    (w.device.call c).preStatus = (w.device.call c).shown.status
      ∧ (w.touchedBy c = false → (w.device.call c).files.shows (w.device.call c).shown) := by
  cases c with
  | battery state => cases hrequest
  | notifications state => cases hrequest
  | buttons state => exact ⟨h.preStatus, fun htouched => by cases htouched⟩
  | backlight state =>
    by_cases hbuttons : w.device.buttons = 0
    · have hcall : w.device.call (.backlight state) = backlightLocked w.device state :=
        if_neg (fun hne => hne hbuttons)
      rw [hcall]
      refine ⟨h.preStatus, fun htouched => ?_⟩
      have hfiles := h.files ((Bool.or_eq_false_iff.mp htouched).1)
      have hshows : ∀ shown, w.device.files.shows shown →
          (backlightLocked w.device state).files.shows shown := by
        intro shown hshows
        cases shown <;> exact hshows
      exact hshows _ hfiles
    · have hcall : w.device.call (.backlight state) =
          doSetLightButtons (backlightLocked w.device state) 1 := if_pos hbuttons
      rw [hcall]
      refine ⟨h.preStatus, fun htouched => ?_⟩
      exact absurd (bne_eq_false_iff_eq.mp (Bool.or_eq_false_iff.mp htouched).2) hbuttons

theorem Watched.Inv.step (w : Watched) (c : Call) (w' : Watched) (h : w.Inv) (hc : effectual w c)
    (hstep : w.call c = some w') : w'.Inv := by
  cases hstep
  cases hrequest : c.request w.device with
  | some states =>
    obtain ⟨hpre, hshows⟩ := h.request hc hrequest
    exact ⟨hpre, fun _ => hshows⟩
  | none =>
    obtain ⟨hpre, hshows⟩ := h.other hrequest
    exact ⟨hpre, hshows⟩

/-- In every sequence of calls in which each request has an effect, the LED shows
the current request right after it. -/
theorem led_shows {files : Files} {calls : List Call} {w w' : Watched} {c : Call}
    (hrun : Run Watched.call effectual (.start files) calls w) (hc : effectual w c)
    (hled : (c.request w.device).isSome = true) (hstep : w.call c = some w') :
    w'.device.files.shows w'.device.shown := by
  have hinv := hrun.invariant Watched.Inv.step (.start files)
  obtain ⟨states, hrequest⟩ := Option.isSome_iff_exists.mp hled
  cases hstep
  exact (hinv.request hc hrequest).2

/-- A red light that blinks. -/
def red (onMS offMS : Int) : LightState := ⟨0xffff0000, lightFlashTimed, onMS, offMS⟩

/-- A white light. -/
def white : LightState := ⟨0xffffffff, 0, 0, 0⟩

/-- The buttons are lit while a notification blinks, and the next notification
blinks with other times. -/
theorem led_shows_again :
    ∃ w, Run Watched.call effectual (.start ⟨.other, 3, 0, 0, 0⟩)
        [.notifications (red 500 2000), .buttons white] w
      ∧ (w.device.call (.notifications (red 300 300))).files.shows
        (w.device.call (.notifications (red 300 300))).shown := by
  refine Run.exists_of_exec (A := fun w => effectual w (.notifications (red 300 300)))
    (by decide) ?_
  intro w hrun hnext
  exact @led_shows _ _ w ⟨_, w.touchedBy (.notifications (red 300 300))⟩
    (.notifications (red 300 300)) hrun hnext rfl rfl

/-- The LED is dark. -/
def dark : Device := .start ⟨.none, 0, 0, 0, 0⟩

/-- The buttons are lit and the notifications are cleared: the LED stays on. A
battery that blinks faster goes on blinking slowly. -/
theorem led_stale :
    (setLightNotifications (setLightButtons dark white) .zero).shown = .off
      ∧ (setLightNotifications (setLightButtons dark white) .zero).files.brightness = 255
      ∧ (setLightBattery (setLightBattery dark (red 1000 1000)) (red 100 100)).shown
        = .blink 100 100
      ∧ (setLightBattery (setLightBattery dark (red 1000 1000)) (red 100 100)).files.delayOn
        = 1000 := by
  decide

end Arale.Lights
