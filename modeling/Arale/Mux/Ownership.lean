import Mathlib.Data.List.Nodup
import Arale.Mux.Flow

/-!
# Who owns a received frame

A frame the decoders return is allocated, and whoever has it last has to pass
it to `destroy_frame`. It is held while `extract_frames` has it in hand, while
it is in the list of its channel, and while a retry thread writes it. So a frame
is handled properly if it is held by one party and not destroyed, or held by
none and destroyed once (`OwnedOnce`).

The direct route does that. The route through the list does not:

- `_fc_cacheFrameData` destroys the frame it has just put into the list, and
  a retry thread will write it;
- a retry thread does not destroy the frames it has written;
- a frame for video telephony that the PTY does not take is forgotten.

> `owned_once`: as long as every PTY takes whole frames, every frame returned
> is held by one party or was destroyed once.
> `queued_frame_destroyed`: otherwise a frame can be in the list and
> destroyed.
-/

namespace Arale.Mux

open List
open Arale.Lib (Run anyStep)

/-- The frame `extract_frames` has in hand. Once it is cached, it has not. -/
def Phase.inHand : Phase → List FramePtr
  | .control frame | .check frame | .write frame | .cache frame _ | .finish frame => [frame]
  | _ => []

/-- The frame a retry thread writes. -/
def RetryPc.inHand : RetryPc → List FramePtr
  | .write frame _ => [frame]
  | _ => []

/-- The frames somebody holds. -/
def Line.held (s : Line) : List FramePtr :=
  s.phase.inHand ++ s.channel.rxFl.frames ++ s.retry.flatMap RetryPc.inHand

/-- The addresses of the frames somebody holds. -/
def Line.holds (s : Line) : List Nat := s.held.map (·.addr)

/-- Held by one party and not destroyed, or destroyed once and held by none,
over all channels. -/
def OwnedOnce (t : Flow) : Prop :=
  ∀ p ∈ t.returned, ∀ c,
    if c = p.frame.channel.toNat then
      ((t.line c).destroyed.count p.addr = 0 ∧ (t.line c).holds.count p.addr = 1) ∨
        ((t.line c).destroyed.count p.addr = 1 ∧ (t.line c).holds.count p.addr = 0)
    else p.addr ∉ (t.line c).destroyed ∧ p.addr ∉ (t.line c).holds

/-! ## Whole frames -/

variable {s s' : Line} {act : LineAct}

/-- The PTY does not take the whole of a frame. -/
def blocks (s : Line) (act : LineAct) : Bool :=
  match s.phase, act with
  | .write frame, .write (.wrote n) => n < frame.frame.data.length
  | .write _, .write .eagain => true
  | _, _ => false

def takesAll (s : Line) (act : LineAct) : Prop := blocks s act = false

instance (s : Line) (act : LineAct) : Decidable (takesAll s act) :=
  inferInstanceAs (Decidable (blocks s act = false))

/-- `extract_frames` has not blocked. -/
def Phase.unblocked : Phase → Prop
  | .idle | .control _ | .check _ | .write _ | .finish _ => True
  | _ => False

/-- Nothing was ever cached, and the frames received are those destroyed and
the one in hand. -/
structure Unblocked (s : Line) : Prop where
  rxFcOff : s.channel.rxFcOff = false
  rxFl : s.channel.rxFl = .null
  retry : s.retry = []
  phase : s.phase.unblocked
  account : s.destroyed ++ s.phase.inHand.map (·.addr) = s.received.map (·.frame.addr)

/-- With whole frames taken, the only way through a line is the direct one. -/
theorem Unblocked.step (h : Unblocked s) (htakes : takesAll s act)
    (hstep : LineStep s act s') : Unblocked s' := by
  obtain ⟨hoff, hlist, hretry, hphase, haccount⟩ := h
  have hnone : ∀ {i : Nat} {pc : RetryPc}, s.retry[i]? ≠ some pc := by
    intro i pc
    rw [hretry]
    simp
  cases hstep with
  | receiveData hidle _ | receiveControl hidle _ =>
    rw [hidle] at haccount
    exact ⟨hoff, hlist, hretry, trivial, by simpa [Phase.inHand] using haccount⟩
  | command hcontrol _ | handshake _ _ _ hcontrol _ =>
    rw [hcontrol] at haccount
    exact ⟨hoff, hlist, hretry, trivial, haccount⟩
  | close hcontrol _ hcached =>
    -- closing a channel whose list was never made destroys nothing
    rw [hlist] at hcached
    cases hcached
    rw [hcontrol] at haccount
    refine ⟨rfl, ?_, hretry, trivial, by simpa [Phase.inHand] using haccount⟩
    exact rxFl_close_null hlist
  | enqueue _ hon _ | refuse _ hon => cases hoff.symm.trans hon
  | pass hcheck _ =>
    rw [hcheck] at haccount
    exact ⟨hoff, hlist, hretry, trivial, haccount⟩
  | writeAll hwrite _ =>
    rw [hwrite] at haccount
    exact ⟨hoff, hlist, hretry, trivial, haccount⟩
  | writePart hwrite hshort =>
    simp only [takesAll, blocks, hwrite, decide_eq_false_iff_not] at htakes
    exact absurd hshort htakes
  | writeAgain | retryAgain => exact ⟨hoff, hlist, hretry, hphase, haccount⟩
  | discardVt hwrite _ | writeNothing hwrite _ => simp [takesAll, blocks, hwrite] at htakes
  | finish hfinish =>
    rw [hfinish] at haccount
    exact ⟨hoff, hlist, hretry, trivial, by simpa [Phase.inHand] using haccount⟩
  | cacheRemaining h | sendOff h | offFails h | wait h | create h | createFails h | wakeup h =>
    exact (h ▸ hphase).elim
  | block h => rcases h with h | h <;> exact (h ▸ hphase).elim
  | retryStart hi | retryPop hi | retryEmpty hi | retrySendOn hi | onFails hi | retryClear hi
  | retrySignal hi | retryEnd hi | retryWrite hi | retryWritten hi =>
    exact absurd hi hnone

/-! ## All channels -/

theorem refuseLast_frames (total : Nat) (received : List Received) :
    (refuseLast total received).map (·.frame) = received.map (·.frame) := by
  rcases eq_nil_or_concat received with rfl | ⟨front, r, rfl⟩
  · rfl
  · simp [refuseLast]

/-- Frames are received one by one. -/
theorem received_step {s s' : Line} {act : LineAct} (h : LineStep s act s') :
    s'.received.map (·.frame) = s.received.map (·.frame) ++ (match act with
      | .receive frame => [frame]
      | _ => []) := by
  cases h with
  | receiveData | receiveControl => exact map_append
  | refuse => exact (refuseLast_frames _ s.received).trans (append_nil _).symm
  | _ => exact (append_nil _).symm

/-- Every line is unblocked and has received the frames of its channel, and
the frames returned are numbered in order. -/
structure Accounted (t : Flow) : Prop where
  unblocked : ∀ c, Unblocked (t.line c)
  received : ∀ c, (t.line c).received.map (·.frame)
    = t.returned.filter fun p => p.frame.channel.toNat = c
  numbered : t.returned.map (·.addr) = List.range t.returned.length

theorem accounted_start (channels : Nat → Channel) : Accounted (Flow.start channels) where
  unblocked _ := ⟨rfl, rfl, rfl, trivial, rfl⟩
  received _ := rfl
  numbered := rfl

theorem Accounted.step {b : Build} {t t' : Flow} {i : FlowAct} (h : Accounted t)
    (htakes : onEvery takesAll t i) (hstep : flowStep b t i = some t') : Accounted t' := by
  obtain ⟨line, hline, hlines, hreturned, hframe⟩ := flowStep_line hstep
  have hinv := lineStep_inv hline
  refine ⟨?_, ?_, ?_⟩
  · intro c
    rw [hlines]
    by_cases hc : c = i.channel
    · subst hc
      rw [Flow.setLine_line]
      exact (h.unblocked i.channel).step htakes hinv
    · rw [Flow.setLine_line_ne t line hc]
      exact h.unblocked c
  · intro c
    rw [hlines, hreturned, filter_append, ← h.received c]
    by_cases hc : c = i.channel
    · subst hc
      rw [Flow.setLine_line, received_step hinv]
      cases i with
      | getFrame frame => simp [FlowAct.act, FlowAct.channel]
      | on c act =>
        cases act with
        | receive frame => cases (hframe frame rfl).2
        | _ => rfl
    · rw [Flow.setLine_line_ne t line hc]
      cases i with
      | getFrame frame =>
        have hne : frame.channel.toNat ≠ c := fun heq => hc heq.symm
        simp [hne]
      | on c act => simp
  · rw [hreturned, map_append, h.numbered, length_append]
    cases i with
    | getFrame frame => exact range_succ.symm
    | on c act => simp

/-- On an unblocked line only `extract_frames` holds a frame. -/
theorem Unblocked.destroyed_holds {s : Line} (h : Unblocked s) :
    s.destroyed ++ s.holds = s.received.map (·.frame.addr) := by
  rw [← h.account, Line.holds, Line.held, h.rxFl, h.retry]
  simp [RxList.frames]

/-- Frames with the same number are the same frame. -/
theorem Accounted.addr_inj {t : Flow} (h : Accounted t) {p q : FramePtr} (hp : p ∈ t.returned)
    (hq : q ∈ t.returned) (heq : p.addr = q.addr) : p = q := by
  have hnodup : (t.returned.map (·.addr)).Nodup := by
    rw [h.numbered]
    exact nodup_range
  exact inj_on_of_nodup_map hnodup hp hq heq

theorem Accounted.ownedOnce {t : Flow} (h : Accounted t) : OwnedOnce t := by
  intro p hp c
  have hsplit := (h.unblocked c).destroyed_holds
  have hreceived : (t.line c).received.map (·.frame.addr)
      = (t.returned.filter fun q => q.frame.channel.toNat = c).map (·.addr) := by
    rw [← h.received c, map_map]
    rfl
  rw [hreceived] at hsplit
  split
  · next hc =>
    -- the number of this frame occurs once among those of the channel
    have hmem : p.addr ∈ (t.returned.filter fun q => q.frame.channel.toNat = c).map (·.addr) :=
      mem_map.mpr ⟨p, mem_filter.mpr ⟨hp, by simp [hc]⟩, rfl⟩
    have hnodup : ((t.returned.filter fun q => q.frame.channel.toNat = c).map (·.addr)).Nodup := by
      refine List.Nodup.sublist (filter_sublist.map _) ?_
      rw [h.numbered]
      exact nodup_range
    have hcount := count_eq_one_of_mem hnodup hmem
    rw [← hsplit, count_append] at hcount
    omega
  · next hc =>
    have hnot : p.addr ∉ (t.line c).destroyed ++ (t.line c).holds := by
      rw [hsplit]
      intro hmem
      obtain ⟨q, hq, heq⟩ := mem_map.mp hmem
      obtain ⟨hq, hqc⟩ := mem_filter.mp hq
      rw [h.addr_inj hq hp heq] at hqc
      exact hc (of_decide_eq_true hqc).symm
    exact ⟨fun hd => hnot (mem_append_left _ hd), fun hh => hnot (mem_append_right _ hh)⟩

/-- **Ownership.** As long as every write of `extract_frames` to a PTY takes
the whole frame, every frame returned so far is held by one party and not
destroyed, or held by none and destroyed once. -/
theorem owned_once {b : Build} {channels : Nat → Channel} {acts : List FlowAct} {t : Flow}
    (hrun : Run (flowStep b) (onEvery takesAll) (Flow.start channels) acts t) : OwnedOnce t := by
  have haccounted : Accounted t :=
    hrun.invariant (fun _ _ _ h htakes hstep => h.step htakes hstep) (accounted_start channels)
  exact haccounted.ownedOnce

/-- A data frame that is interrupted once and then written, and a SABM. -/
theorem owned_once_direct :
    ∃ acts t, Run (flowStep .plain) (onEvery takesAll) (Flow.start openChannels) acts t ∧
      OwnedOnce t ∧ t.returned.length = 2 ∧ (t.line 1).destroyed = [0, 1] := by
  refine ⟨[.getFrame (uihFrame 1 [1, 2, 3]), .on 1 .receiver, .on 1 (.write .eintr),
    .on 1 (.write (.wrote 3)), .on 1 .receiver, .getFrame ⟨1, gsm0710TypeSabm, []⟩,
    .on 1 .receiver, .on 1 .receiver], ?_⟩
  exact Run.exists_of_exec (by decide +kernel) fun t hrun hmore => ⟨owned_once hrun, hmore⟩

/-- The PTY does not take the first frame, so the second one goes into the
list, and is destroyed there. -/
theorem queued_frame_destroyed :
    ¬ ∀ (b : Build) (channels : Nat → Channel) (acts : List FlowAct) (t : Flow),
      Run (flowStep b) anyStep (Flow.start channels) acts t → OwnedOnce t := by
  intro h
  obtain ⟨t, hrun, ht⟩ := Run.of_exec_any (flowStep .plain) anyStep
    (Flow.start openChannels)
    [.getFrame (uihFrame 1 [1, 2, 3]), .on 1 .receiver, .on 1 (.write .eagain),
      .on 1 .receiver, .on 1 .receiver, .on 1 .receiver, .on 1 .receiver,
      .getFrame (uihFrame 1 [4]), .on 1 .receiver]
    (fun t => decide (t.returned[1]? = some (⟨1, uihFrame 1 [4]⟩ : FramePtr) ∧
      (t.line 1).destroyed = [1] ∧ (t.line 1).holds = [0, 1])) (by decide +kernel)
  obtain ⟨hreturned, hdestroyed, hholds⟩ := of_decide_eq_true ht
  have howned := h .plain _ _ t hrun ⟨1, uihFrame 1 [4]⟩ (mem_of_getElem? hreturned) 1
  rw [if_pos (by decide), hdestroyed, hholds] at howned
  exact absurd howned (by decide)

end Arale.Mux
