import Arale.Mux.FlowControl

/-!
# All channels under one receiving thread

One thread runs `extract_frames` for all channels: it asks for a frame, is
then on the line of the frame's channel until it is done with it, and asks
for the next one. The retry threads of all channels run beside it. `Flow`
holds the lines and where the receiving thread is.

Every frame is a fresh allocation, so the frames returned so far are told
apart by their number.

> `line_run`: what a run does on one channel is a run of its line, in which
> only frames of that channel are received.
-/

namespace Arale.Mux

open Arale.Lib (Run)

structure Flow where
  line : Nat → Line
  /-- the channel `extract_frames` is on -/
  current : Option Nat
  /-- the frames the decoders returned -/
  returned : List FramePtr

def Flow.start (channels : Nat → Channel) : Flow where
  line c := Line.start (channels c)
  current := none
  returned := []

/-- The next frame is returned, or something moves on a line. -/
inductive FlowAct where
  | getFrame (frame : Frame)
  | on (c : Nat) (act : LineAct)
  deriving DecidableEq, Repr

def FlowAct.channel : FlowAct → Nat
  | .getFrame frame => frame.channel.toNat
  | .on c _ => c

def FlowAct.act (s : Flow) : FlowAct → LineAct
  | .getFrame frame => .receive ⟨s.returned.length, frame⟩
  | .on _ act => act

/-- The acts of the thread that runs `extract_frames`. -/
def LineAct.byReceiver : LineAct → Bool
  | .receiver | .write _ | .offFails | .createFails => true
  | _ => false

def LineAct.isReceive : LineAct → Bool
  | .receive _ => true
  | _ => false

def Flow.setLine (s : Flow) (c : Nat) (line : Line) : Flow :=
  { s with line := fun c' => if c' = c then line else s.line c' }

/-- A frame whose channel lies outside the table has no defined effect. -/
def flowStep (b : Build) (s : Flow) (i : FlowAct) : Option Flow :=
  match i with
  | .getFrame frame =>
    if s.current = none ∧ frame.channel.toNat < gsm0710MaxChannels b then
      (lineStep (s.line frame.channel.toNat) (i.act s)).map fun line =>
        { s.setLine frame.channel.toNat line with
          current := some frame.channel.toNat
          returned := s.returned ++ [⟨s.returned.length, frame⟩] }
    else none
  | .on c act =>
    if act.isReceive = true ∨ (act.byReceiver = true ∧ s.current ≠ some c) then none
    else
      (lineStep (s.line c) act).map fun line =>
        { s.setLine c line with
          current := if s.current = some c ∧ line.phase = .idle then none else s.current }

/-! ## One line in a run of all -/

/-- A step on this channel meets the condition. -/
def onChannel (c : Nat) (cond : Line → LineAct → Prop) (s : Flow) (i : FlowAct) : Prop :=
  i.channel = c → cond (s.line c) (i.act s)

/-- A step meets the condition on the line it is on. -/
def onEvery (cond : Line → LineAct → Prop) (s : Flow) (i : FlowAct) : Prop :=
  cond (s.line i.channel) (i.act s)

instance (c : Nat) (cond : Line → LineAct → Prop) [∀ s act, Decidable (cond s act)] (s : Flow)
    (i : FlowAct) : Decidable (onChannel c cond s i) :=
  inferInstanceAs (Decidable (i.channel = c → cond (s.line c) (i.act s)))

instance (cond : Line → LineAct → Prop) [∀ s act, Decidable (cond s act)] (s : Flow)
    (i : FlowAct) : Decidable (onEvery cond s i) :=
  inferInstanceAs (Decidable (cond (s.line i.channel) (i.act s)))

theorem Flow.setLine_line (s : Flow) (c : Nat) (line : Line) :
    (s.setLine c line).line c = line := if_pos rfl

theorem Flow.setLine_line_ne (s : Flow) {c c' : Nat} (line : Line) (h : c' ≠ c) :
    (s.setLine c line).line c' = s.line c' := if_neg h

/-- A step of the whole is a step of the line it is on, and leaves the other
lines alone. Only a returned frame is received. -/
theorem flowStep_line {b : Build} {s t : Flow} {i : FlowAct} (h : flowStep b s i = some t) :
    ∃ line, lineStep (s.line i.channel) (i.act s) = some line ∧
      t.line = (s.setLine i.channel line).line ∧
      t.returned = s.returned ++ (match i with
        | .getFrame frame => [⟨s.returned.length, frame⟩]
        | .on _ _ => []) ∧
      ∀ frame, i.act s = .receive frame →
        frame.frame.channel.toNat = i.channel ∧ i = .getFrame frame.frame := by
  cases i with
  | getFrame frame =>
    simp only [flowStep] at h
    split at h
    · obtain ⟨line, hline, rfl⟩ := Option.map_eq_some_iff.mp h
      refine ⟨line, hline, rfl, rfl, ?_⟩
      intro frame' hact
      cases hact
      exact ⟨rfl, rfl⟩
    · cases h
  | on c act =>
    simp only [flowStep] at h
    split at h
    · cases h
    · next hact =>
      obtain ⟨line, hline, rfl⟩ := Option.map_eq_some_iff.mp h
      refine ⟨line, hline, rfl, (List.append_nil _).symm, ?_⟩
      intro frame hreceive
      have hreceive : act = .receive frame := hreceive
      exact absurd (.inl (by rw [hreceive]; rfl)) hact

/-- Frames that are received are of this channel. -/
def ofChannel (c : Nat) (cond : Line → LineAct → Prop) (s : Line) (act : LineAct) : Prop :=
  cond s act ∧ ∀ frame, act = .receive frame → frame.frame.channel.toNat = c

/-- The line of a channel goes through a run of its own. -/
theorem line_run {b : Build} {cond : Line → LineAct → Prop} (c : Nat) {s t : Flow}
    {acts : List FlowAct} (h : Run (flowStep b) (onChannel c cond) s acts t) :
    ∃ lineActs, Run lineStep (ofChannel c cond) (s.line c) lineActs (t.line c) := by
  refine h.project (fun s => s.line c)
    (fun s i => if i.channel = c then some (i.act s) else none) ?_ ?_
  · intro s i s' act hcond hstep hact
    obtain ⟨line, hline, hlines, -, hreceive⟩ := flowStep_line hstep
    split at hact
    · next hc =>
      cases hact
      subst hc
      refine ⟨⟨hcond rfl, fun frame hframe => (hreceive frame hframe).1⟩, ?_⟩
      show lineStep (s.line i.channel) (i.act s) = some (s'.line i.channel)
      rw [hlines, Flow.setLine_line]
      exact hline
    · cases hact
  · intro s i s' hstep hact
    obtain ⟨line, -, hlines, -⟩ := flowStep_line hstep
    split at hact
    · cases hact
    · next hc =>
      show s'.line c = s.line c
      rw [hlines, Flow.setLine_line_ne s line (fun heq => hc heq.symm)]

/-! ## Runs on concrete frames -/

def uihFrame (channel : UInt8) (data : List UInt8) : Frame := ⟨channel, gsm0710TypeUih, data⟩

/-- Every channel set up and open. -/
def openChannels (c : Nat) : Channel :=
  { logicalChannelInit .plain 1509 .zero c with fd := c + 3, opened := true }

end Arale.Mux
