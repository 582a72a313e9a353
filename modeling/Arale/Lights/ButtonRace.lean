import Arale.Lights.Device

/-!
# The button light and the screen

`set_light_backlight` takes the lock to change the brightness of the screen,
looks at `g_buttons` without it, and if the buttons are lit runs the setter of
the buttons, so that they follow the screen. In between, other threads may run
`set_light_buttons`.

> `button_light_kept`: when all calls are over, the buttons are as the last call
> of `set_light_buttons` asked for, unless that call turned them off after
> `g_buttons` was read and before the setter ran.

That call is then undone: the setter turns the buttons on again.
-/

namespace Arale.Lights

open Arale.Lib (Run anyStep)

/-- How far `set_light_backlight` is: before its locked part, behind it, before
`do_set_light_buttons(1)`, or at its end. -/
inductive BacklightPc where
  | start
  | unlocked
  | syncing
  | done
  deriving DecidableEq, Repr

/-- One `set_light_backlight` and some `set_light_buttons`. `last` is the call
whose locked part ran last, and `late` says that it ran while the other call was
`syncing`. -/
structure Race where
  device : Device
  pc : BacklightPc
  waiting : List LightState
  last : Option LightState
  late : Bool
  deriving DecidableEq, Repr

def Race.start (device : Device) (calls : List LightState) : Race where
  device := device
  pc := .start
  waiting := calls
  last := none
  late := false

/-- Who moves next: `set_light_backlight`, or one of the waiting calls. -/
inductive Move where
  | backlight
  | buttons (i : Nat)
  deriving DecidableEq, Repr

/-- The next part of `set_light_backlight(state)` -/
def backlightStep (state : LightState) (s : Race) : Option Race :=
  match s.pc with
  | .start => some { s with device := backlightLocked s.device state, pc := .unlocked }
  | .unlocked => some { s with pc := if s.device.buttons ≠ 0 then .syncing else .done }
  | .syncing => some { s with device := doSetLightButtons s.device 1, pc := .done }
  | .done => none

/-- The locked part of a `set_light_buttons` -/
def buttonsStep (s : Race) (i : Nat) : Option Race :=
  match s.waiting[i]? with
  | none => none
  | some state =>
    some { s with
      device := setLightButtons s.device state
      waiting := s.waiting.eraseIdx i
      last := some state
      late := s.pc == .syncing }

def raceStep (state : LightState) (s : Race) : Move → Option Race
  | .backlight => backlightStep state s
  | .buttons i => buttonsStep s i

def Race.finished (s : Race) : Prop := s.pc = .done ∧ s.waiting = []

/-- The buttons are as asked for, and as bright as the screen. -/
def Device.keeps (s : Device) (request : LightState) : Prop :=
  (s.buttons ≠ 0 ↔ isLit request ≠ 0)
    ∧ s.files.brightness = if isLit request ≠ 0 then s.backlight else 0

instance (s : Device) (request : LightState) : Decidable (s.keeps request) :=
  inferInstanceAs (Decidable (_ ∧ _))

theorem setLightButtons_keeps (s : Device) (request : LightState) :
    (setLightButtons s request).keeps request :=
  ⟨Iff.rfl, rfl⟩

/-- The setter that `set_light_backlight` runs. -/
theorem doSetLightButtons_keeps_iff (s : Device) (request : LightState) :
    (doSetLightButtons s 1).keeps request ↔ isLit request ≠ 0 := by
  constructor
  · intro h
    exact h.1.mp Int.one_ne_zero
  · intro hlit
    refine ⟨iff_of_true Int.one_ne_zero hlit, ?_⟩
    rw [if_pos hlit]
    rfl

/-- What holds between the parts of `set_light_backlight`, for the last request.
Behind the locked part buttons that are lit have the old brightness. -/
def Race.agrees (s : Race) (request : LightState) : Prop :=
  match s.pc with
  | .start => s.late = false ∧ s.device.keeps request
  | .unlocked =>
    s.late = false ∧ (s.device.buttons ≠ 0 ↔ isLit request ≠ 0)
      ∧ (isLit request = 0 → s.device.files.brightness = 0)
  | .syncing => s.late = false → isLit request ≠ 0
  | .done => s.device.keeps request ↔ ¬(s.late = true ∧ isLit request = 0)

/-- The last request agrees with the lights, or all calls are waiting. -/
def Race.Inv (calls : List LightState) (s : Race) : Prop :=
  (s.last = none ∧ s.waiting = calls) ∨ ∃ request, s.last = some request ∧ s.agrees request

theorem agrees_backlight {state request : LightState} {s s' : Race} (h : s.agrees request)
    (hstep : backlightStep state s = some s') : s'.agrees request := by
  obtain ⟨device, pc, waiting, last, late⟩ := s
  cases pc with
  | start =>
    cases hstep
    obtain ⟨hlate, hbuttons, hbrightness⟩ := h
    refine ⟨hlate, hbuttons, fun hoff => ?_⟩
    rw [if_neg (fun hlit => hlit hoff)] at hbrightness
    exact hbrightness
  | unlocked =>
    cases hstep
    obtain ⟨hlate, hbuttons, hdark⟩ := h
    simp only [Race.agrees] at hlate hbuttons hdark ⊢
    by_cases hon : device.buttons ≠ 0
    · simp only [if_pos hon]
      exact fun _ => hbuttons.mp hon
    · have hoff : ¬isLit request ≠ 0 := fun hlit => hon (hbuttons.mpr hlit)
      simp only [if_neg hon, hlate]
      refine iff_of_true ⟨iff_of_false hon hoff, ?_⟩ (fun h => by cases h.1)
      rw [if_neg hoff]
      exact hdark (Decidable.not_not.mp hoff)
  | syncing =>
    cases hstep
    simp only [Race.agrees] at h ⊢
    rw [doSetLightButtons_keeps_iff]
    constructor
    · intro hlit hlate
      exact hlit hlate.2
    · intro hnot
      cases late with
      | true => exact fun hoff => hnot ⟨rfl, hoff⟩
      | false => exact h rfl
  | done => cases hstep

theorem agrees_buttons {s s' : Race} {i : Nat} (hstep : buttonsStep s i = some s') :
    ∃ request, s'.last = some request ∧ s'.agrees request := by
  unfold buttonsStep at hstep
  split at hstep
  · cases hstep
  · rename_i request _
    cases hstep
    refine ⟨request, rfl, ?_⟩
    obtain ⟨device, pc, waiting, last, late⟩ := s
    have hkeeps := setLightButtons_keeps device request
    cases pc with
    | start => exact ⟨rfl, hkeeps⟩
    | unlocked =>
      refine ⟨rfl, hkeeps.1, fun hoff => ?_⟩
      have hbrightness := hkeeps.2
      rw [if_neg (fun hlit => hlit hoff)] at hbrightness
      exact hbrightness
    | syncing => exact fun hlate => by cases hlate
    | done => exact iff_of_true hkeeps (fun h => by cases h.1)

/-- `set_light_backlight` takes no request away. -/
theorem backlightStep_frame {state : LightState} {s s' : Race}
    (hstep : backlightStep state s = some s') : s'.last = s.last ∧ s'.waiting = s.waiting := by
  unfold backlightStep at hstep
  split at hstep
  · cases hstep
    exact ⟨rfl, rfl⟩
  · cases hstep
    exact ⟨rfl, rfl⟩
  · cases hstep
    exact ⟨rfl, rfl⟩
  · cases hstep

theorem Race.Inv.step {state : LightState} {calls : List LightState} (s : Race) (move : Move)
    (s' : Race) (h : s.Inv calls) (hstep : raceStep state s move = some s') : s'.Inv calls := by
  cases move with
  | backlight =>
    obtain ⟨hsame, hwaits⟩ := backlightStep_frame hstep
    rcases h with ⟨hlast, hwaiting⟩ | ⟨request, hlast, hagrees⟩
    · exact Or.inl ⟨hsame.trans hlast, hwaits.trans hwaiting⟩
    · exact Or.inr ⟨request, hsame.trans hlast, agrees_backlight hagrees hstep⟩
  | buttons i => exact Or.inr (agrees_buttons hstep)

/-- In every interleaving, from any state of the device: at the end the lights
are as the last request wants them exactly if it was not an off between the
check and the setter. -/
theorem button_light_kept {state : LightState} {device : Device} {calls : List LightState}
    {moves : List Move} {s : Race} (hcalls : calls ≠ [])
    (hrun : Run (raceStep state) anyStep (.start device calls) moves s) (hend : s.finished) :
    ∃ request, s.last = some request
      ∧ (s.device.keeps request ↔ ¬(s.late = true ∧ isLit request = 0)) := by
  have hinv : s.Inv calls :=
    hrun.invariant (fun s i s' h _ hstep => Race.Inv.step s i s' h hstep) (Or.inl ⟨rfl, rfl⟩)
  obtain ⟨hpc, hwaiting⟩ := hend
  rcases hinv with ⟨-, hall⟩ | ⟨request, hlast, hagrees⟩
  · exact absurd (hall.symm.trans hwaiting) hcalls
  · rw [Race.agrees, hpc] at hagrees
    exact ⟨request, hlast, hagrees⟩

/-- The screen at a quarter. -/
def dimmed : LightState := ⟨0xff404040, 0, 0, 0⟩

/-- The lights are on. -/
def lit : LightState := ⟨0xffffffff, 0, 0, 0⟩

/-- The buttons are turned on before the check, and off when all is over. -/
theorem button_light_kept_off :
    ∃ s, Run (raceStep dimmed) anyStep (.start (.start ⟨.none, 0, 0, 0, 0⟩) [lit, .zero])
        [.backlight, .buttons 0, .backlight, .backlight, .buttons 0] s
      ∧ s.device.keeps .zero := by
  refine Run.exists_of_exec
    (A := fun s => s.pc = .done ∧ s.waiting = [] ∧ s.last = some .zero ∧ s.late = false)
    (by decide) ?_
  rintro s hrun ⟨hpc, hwaiting, hlast, hlate⟩
  obtain ⟨request, hrequest, hkeeps⟩ :=
    button_light_kept (List.cons_ne_nil _ _) hrun ⟨hpc, hwaiting⟩
  rw [hlast] at hrequest
  cases hrequest
  refine hkeeps.mpr fun h => ?_
  rw [hlate] at h
  cases h.1

/-- The buttons are turned off between the check and the setter, and stay on. -/
theorem button_light_lost :
    ∃ s, Run (raceStep dimmed) anyStep (.start (.start ⟨.none, 0, 0, 0, 0⟩) [lit, .zero])
        [.buttons 0, .backlight, .backlight, .buttons 0, .backlight] s
      ∧ decide (s.pc = .done ∧ s.waiting = [] ∧ s.last = some .zero ∧ s.device.buttons = 1
        ∧ s.device.files.brightness = 64 ∧ s.device.backlight = 64) = true :=
  Run.of_exec_any _ _ _ _ _ (by decide)

end Arale.Lights
