import Arale.Mux.AdvGetFrame
import Arale.Mux.Feed
import Arale.Lib.Resume

/-!
# The advanced-mode stream

`advStep` is what the advanced decoder does to the next byte: hunt for a
flag, unescape and store, or close the frame. `advDecoder` makes it a
`Lib.Decoder`.

The code agrees with it except in one place. At the head of every call, the
loop that skips empty frames looks at `adv_length` only, so a flag octet
that arrives at the start of a call, when an escape has been read and
nothing stored yet, is skipped there; in the byte loop the same octet is the
escaped one. `AdvRun true` has that skip as a step of its own and describes
every call; `AdvRun false` does not have it and is a run of `advDecoder`,
and describes the calls not entered that way (`NoPendingSkip`).

`advFollows` is the statement for both, from which the results about whole
streams are taken.
-/

namespace Arale.Mux

open Arale.Lib List

/-! ## The decoder over a list -/

/-- What the decoder keeps between bytes: nothing while it hunts for a flag,
else the unescaped bytes and whether an escape is pending. -/
inductive AdvState where
  | hunting
  | reading (data : List UInt8) (esc : Bool)
  deriving DecidableEq, Repr

def Closing.events : Closing → List Event
  | .tooShort => []
  | .mismatch => [.dropped]
  | .good f => [.frame f]

/-- Unescape and store one byte. -/
def advByte (data : List UInt8) (esc : Bool) (b : UInt8) : AdvState :=
  if esc then .reading (data ++ [b ^^^ gsm0710FrameAdvEscCopml]) false
  else if b = gsm0710FrameAdvEsc then .reading data true
  else .reading (data ++ [b]) false

/-- One step of the advanced decoder. A frame that is too long is thrown
away before the byte that does not fit is looked at. -/
def advStep : AdvState → List UInt8 → Option (AdvState × List UInt8 × List Event)
  | _, [] => none
  | .hunting, b :: bs =>
    some (if b = gsm0710FrameAdvFlag then .reading [] false else .hunting, bs, [])
  | .reading data esc, b :: bs =>
    if esc = false ∧ b = gsm0710FrameAdvFlag then
      if data = [] then some (.reading [] false, bs, [])
      else some (.hunting, bs, (closeFrame data).events)
    else if data.length < gsm0710BufferSize then some (advByte data esc b, bs, [])
    else some (.hunting, b :: bs, [.dropped])

theorem advStep_nil (s : AdvState) : advStep s [] = none := by
  cases s <;> rfl

/-- A step looks at one byte and never at those behind it. -/
theorem advStep_cons (s : AdvState) (b : UInt8) :
    ∃ s' os, (∀ bs, advStep s (b :: bs) = some (s', bs, os)) ∨
      ∀ bs, advStep s (b :: bs) = some (s', b :: bs, os) := by
  cases s with
  | hunting => exact ⟨_, _, Or.inl fun _ => rfl⟩
  | reading data esc =>
    by_cases hclose : esc = false ∧ b = gsm0710FrameAdvFlag
    · by_cases hdata : data = []
      · exact ⟨_, _, Or.inl fun _ => by rw [advStep, if_pos hclose, if_pos hdata]⟩
      · exact ⟨_, _, Or.inl fun _ => by rw [advStep, if_pos hclose, if_neg hdata]⟩
    · by_cases hroom : data.length < gsm0710BufferSize
      · exact ⟨_, _, Or.inl fun _ => by rw [advStep, if_neg hclose, if_pos hroom]⟩
      · exact ⟨_, _, Or.inr fun _ => by rw [advStep, if_neg hclose, if_neg hroom]⟩

/-- The advanced decoder as a resumable decoder. -/
def advDecoder : Decoder AdvState UInt8 Event where
  step := advStep
  step_append := by
    intro s s' xs ys os h zs
    cases xs with
    | nil =>
      rw [advStep_nil] at h
      cases h
    | cons b bs =>
      obtain ⟨t, ps, hstep | hstep⟩ := advStep_cons s b
      · cases (hstep bs).symm.trans h
        exact hstep _
      · cases (hstep bs).symm.trans h
        exact hstep _

/-! ## Runs, with and without the skip at the head of a call -/

/-- Any number of steps; `allow` admits the skip of a flag octet while an
escape is pending and nothing is stored. -/
inductive AdvRun (allow : Bool) :
    AdvState → List UInt8 → AdvState → List UInt8 → List Event → Prop where
  | refl (s : AdvState) (xs : List UInt8) : AdvRun allow s xs s xs []
  | step {s s' s'' : AdvState} {xs ys ws : List UInt8} {os ps : List Event} :
      advStep s xs = some (s', ys, os) → AdvRun allow s' ys s'' ws ps →
      AdvRun allow s xs s'' ws (os ++ ps)
  | skip {s : AdvState} {bs ws : List UInt8} {ps : List Event} : allow = true →
      AdvRun allow (.reading [] true) bs s ws ps →
      AdvRun allow (.reading [] true) (gsm0710FrameAdvFlag :: bs) s ws ps

namespace AdvRun

variable {allow : Bool} {s s' s'' : AdvState} {xs ys ws : List UInt8} {os ps : List Event}

theorem single (h : advStep s xs = some (s', ys, os)) : AdvRun allow s xs s' ys os := by
  have hrun := AdvRun.step h (AdvRun.refl s' ys : AdvRun allow s' ys s' ys [])
  rwa [append_nil] at hrun

theorem trans (h₁ : AdvRun allow s xs s' ys os) (h₂ : AdvRun allow s' ys s'' ws ps) :
    AdvRun allow s xs s'' ws (os ++ ps) := by
  induction h₁ with
  | refl => exact h₂
  | step hstep _ ih =>
    rw [append_assoc]
    exact AdvRun.step hstep (ih h₂)
  | skip hallow _ ih => exact AdvRun.skip hallow (ih h₂)

theorem append (h : AdvRun allow s xs s' ys os) (zs : List UInt8) :
    AdvRun allow s (xs ++ zs) s' (ys ++ zs) os := by
  induction h with
  | refl => exact AdvRun.refl _ _
  | step hstep _ ih => exact AdvRun.step (advDecoder.step_append hstep zs) ih
  | skip hallow _ ih => exact AdvRun.skip hallow ih

/-- Without the skip, a run is one of the decoder. -/
theorem steps (h : AdvRun false s xs s' ys os) : advDecoder.Steps s xs s' ys os := by
  induction h with
  | refl => exact Decoder.Steps.refl _ _
  | step hstep _ ih => exact Decoder.Steps.head hstep ih
  | skip hallow _ _ => cases hallow

end AdvRun

/-! ## A call is a run -/

/-- What the buffer holds for the decoder: the stored frame counts only once
its flag was found. -/
def advAbs (buf : Gsm0710Buffer) : AdvState :=
  if buf.flagFound then .reading buf.advData buf.advFoundEsc else .hunting

variable {buf : Gsm0710Buffer}

theorem advAbs_reading (h : buf.flagFound = true) :
    advAbs buf = .reading buf.advData buf.advFoundEsc := by
  unfold advAbs
  rw [h]
  rfl

theorem advAbs_hunting (h : buf.flagFound = false) : advAbs buf = .hunting := by
  unfold advAbs
  rw [h]
  rfl

/-- The call does not start on a flag octet with an escape pending and
nothing stored. -/
def NoPendingSkip (buf : Gsm0710Buffer) : Prop :=
  ¬ (buf.flagFound = true ∧ buf.advData = [] ∧ buf.advFoundEsc = true ∧
    buf.unread.head? = some gsm0710FrameAdvFlag)

instance (buf : Gsm0710Buffer) : Decidable (NoPendingSkip buf) :=
  inferInstanceAs (Decidable (¬ (_ ∧ _ ∧ _ ∧ _)))

variable {allow : Bool}

theorem advRun_hunt (pre xs : List UInt8) (hpre : gsm0710FrameAdvFlag ∉ pre) :
    AdvRun allow .hunting (pre ++ xs) .hunting xs [] := by
  induction pre with
  | nil => exact AdvRun.refl _ _
  | cons b pre ih =>
    have hstep : advStep .hunting (b :: (pre ++ xs)) = some (.hunting, pre ++ xs, []) := by
      rw [advStep, if_neg (ne_of_not_mem_cons hpre).symm]
    exact AdvRun.step hstep (ih (not_mem_of_not_mem_cons hpre))

/-- Flags in front of a frame of which nothing is stored are skipped: by the
decoder itself, or with an escape pending by the skip of a call. -/
theorem advRun_flags {esc : Bool} (xs : List UInt8) (k : Nat)
    (h : k = 0 ∨ esc = false ∨ allow = true) :
    AdvRun allow (.reading [] esc) (List.replicate k gsm0710FrameAdvFlag ++ xs)
      (.reading [] esc) xs [] := by
  induction k with
  | zero => exact AdvRun.refl _ _
  | succ k ih =>
    have hwhy := h.resolve_left k.succ_ne_zero
    have hrest := ih (.inr hwhy)
    cases esc with
    | false =>
      have hstep : advStep (.reading [] false)
          (gsm0710FrameAdvFlag :: (List.replicate k gsm0710FrameAdvFlag ++ xs))
          = some (.reading [] false, List.replicate k gsm0710FrameAdvFlag ++ xs, []) := rfl
      exact AdvRun.step hstep hrest
    | true => exact AdvRun.skip (hwhy.resolve_left Bool.true_eq_false.mp) hrest

/-- What the byte loop may count on: a frame has started, and a flag under
the read pointer closes something. -/
structure MainReady (buf : Gsm0710Buffer) : Prop where
  flag : buf.flagFound = true
  head : buf.advData = [] → buf.advFoundEsc = false →
    buf.unread.head? ≠ some gsm0710FrameAdvFlag

/-- The search: what it leaves is the open frame there was, one that just started,
or nothing. -/
theorem advSearch_runs (allow : Bool) (buf : Gsm0710Buffer) :
    Runs (AdvRun allow) advAbs buf (advSearch buf) [] ∧
      gsm0710BufferLength (advSearch buf) ≤ gsm0710BufferLength buf ∧
      (buf.flagFound = false → buf.unread ≠ [] →
        gsm0710BufferLength (advSearch buf) < gsm0710BufferLength buf) ∧
      ((buf.flagFound = true ∧ advSearch buf = buf) ∨
        ((advSearch buf).flagFound = true ∧ (advSearch buf).advFoundEsc = false) ∨
        ((advSearch buf).flagFound = false ∧ (advSearch buf).unread = [])) := by
  unfold advSearch
  split
  · next hflag =>
    refine ⟨⟨AdvRun.refl _ _, rfl⟩, Nat.le_refl _, fun hshut => ?_, .inl ⟨hflag, rfl⟩⟩
    rw [hflag] at hshut
    cases hshut
  · next hshut =>
    have hflag : buf.flagFound = false := Bool.eq_false_iff.mpr hshut
    obtain ⟨pre, hpre, hcase⟩ :=
      findStartFlag_contents gsm0710FrameAdvFlag buf.ring.datacount buf.ring (Nat.le_refl _)
    generalize findStartFlag gsm0710FrameAdvFlag buf.ring.datacount buf.ring = found at hcase ⊢
    obtain ⟨ok, r⟩ := found
    rcases hcase with ⟨hok, heq⟩ | ⟨hok, heq, hnil⟩
    · obtain rfl : ok = true := hok
      have hlt : r.datacount < buf.ring.datacount := by
        have hlen := congrArg length heq
        simp only [length_append, length_cons, Ring.contents_length] at hlen
        omega
      refine ⟨⟨?_, rfl⟩, Nat.le_of_lt hlt, fun _ _ => hlt, .inr (.inl ⟨rfl, rfl⟩)⟩
      rw [advAbs_hunting hflag]
      show AdvRun allow .hunting buf.ring.contents (.reading [] false) r.contents []
      rw [heq]
      exact (advRun_hunt pre _ hpre).trans (AdvRun.single rfl)
    · obtain rfl : ok = false := hok
      have hzero : r.datacount = 0 := Ring.contents_eq_nil.mp hnil
      have hle : r.datacount ≤ buf.ring.datacount := by omega
      refine ⟨⟨?_, rfl⟩, hle, fun _ hne => ?_, .inr (.inr ⟨hflag, hnil⟩)⟩
      · show AdvRun allow (advAbs buf) buf.ring.contents (advAbs buf) r.contents []
        rw [advAbs_hunting hflag, heq, hnil]
        exact append_nil pre ▸ advRun_hunt pre [] hpre
      · have hpos : buf.ring.datacount ≠ 0 := fun h0 => hne (Ring.contents_eq_nil.mpr h0)
        show r.datacount < buf.ring.datacount
        omega

/-- The skip: behind it the byte loop may start. -/
theorem advSkip_runs (h : allow = true ∨ NoPendingSkip buf) :
    Runs (AdvRun allow) advAbs buf (advSkip buf) [] ∧
      gsm0710BufferLength (advSkip buf) ≤ gsm0710BufferLength buf ∧
      (advSkip buf).flagFound = buf.flagFound ∧
      (buf.flagFound = true → MainReady (advSkip buf)) := by
  unfold advSkip
  split
  · next hskip =>
    obtain ⟨hflag, hdata⟩ := Bool.and_eq_true_iff.mp hskip
    replace hdata := List.isEmpty_iff.mp hdata
    obtain ⟨⟨k, hk⟩, hhead⟩ :=
      skipFlags_contents gsm0710FrameAdvFlag buf.ring.datacount buf.ring (Nat.le_refl _)
    generalize skipFlags gsm0710FrameAdvFlag buf.ring.datacount buf.ring = r at hk hhead ⊢
    refine ⟨⟨?_, rfl⟩, ?_, rfl, fun _ => ⟨hflag, fun _ _ => hhead⟩⟩
    · -- with an escape pending and no skip admitted there is no flag to skip
      have hwhy : k = 0 ∨ buf.advFoundEsc = false ∨ allow = true := by
        rcases h with hallow | hno
        · exact .inr (.inr hallow)
        · cases k with
          | zero => exact .inl rfl
          | succ k =>
            refine .inr (.inl (Bool.eq_false_iff.mpr fun hesc => hno ⟨hflag, hdata, hesc, ?_⟩))
            rw [Gsm0710Buffer.unread, hk]
            rfl
      show AdvRun allow (advAbs buf) buf.ring.contents (advAbs buf) r.contents []
      rw [advAbs_reading hflag, hdata, hk]
      exact advRun_flags r.contents k hwhy
    · have hlen := congrArg length hk
      rw [length_append, Ring.contents_length, Ring.contents_length] at hlen
      show r.datacount ≤ buf.ring.datacount
      omega
  · next hskip =>
    refine ⟨⟨AdvRun.refl _ _, rfl⟩, Nat.le_refl _, rfl, fun hflag => ⟨hflag, fun hdata => ?_⟩⟩
    rw [hflag, hdata] at hskip
    exact absurd rfl hskip

/-- A call of the advanced decoder: without a byte left it stands still, and it
never ends the program. -/
def AdvCall (allow : Bool) (buf : Gsm0710Buffer) (r : GetFrame × Gsm0710Buffer) : Prop :=
  CallSpec (AdvRun allow) (fun _ ys => ys = []) advAbs (fun _ _ _ => False) buf r

/-- Back at `l_begin` in the middle of a call, where no frame is open: what
follows is a call of the loop, on fewer bytes. -/
theorem advResume_spec {loop : Gsm0710Buffer → GetFrame × Gsm0710Buffer}
    (h : buf.flagFound = false ∨ allow = true ∨ NoPendingSkip buf)
    (hloop : ∀ mid, MainReady mid → gsm0710BufferLength mid ≤ gsm0710BufferLength buf →
      (buf.flagFound = false → buf.unread ≠ [] →
        gsm0710BufferLength mid < gsm0710BufferLength buf) → AdvCall allow mid (loop mid)) :
    AdvCall allow buf (advResume loop buf) := by
  obtain ⟨hruns₁, hle₁, hlt₁, hcase⟩ := advSearch_runs allow buf
  -- the search, if there is one, leaves no escape pending
  have hopen : allow = true ∨ NoPendingSkip (advSearch buf) := by
    rcases hcase with ⟨hflag, hsame⟩ | ⟨-, hesc⟩ | ⟨hshut, -⟩
    · rw [hsame]
      exact h.resolve_left (by simp [hflag])
    · exact .inr fun hpend => by simp [hesc] at hpend
    · exact .inr fun hpend => by simp [hshut] at hpend
  obtain ⟨hruns₂, hle₂, hsame, hready⟩ := advSkip_runs hopen
  have hruns : Runs (AdvRun allow) advAbs buf (advBegin buf) [] :=
    hruns₁.trans hruns₂ (hruns₁.run.trans hruns₂.run)
  have hle : gsm0710BufferLength (advBegin buf) ≤ gsm0710BufferLength buf :=
    Nat.le_trans hle₂ hle₁
  unfold advResume
  split
  · next hflag =>
    refine (hloop _ (hready (hsame ▸ hflag)) hle ?_).after hruns rfl hle hruns.run.trans id
    exact fun hfalse hne => Nat.lt_of_le_of_lt hle₂ (hlt₁ hfalse hne)
  · next hflag =>
    have hshut : (advSearch buf).flagFound = false := by
      rw [← hsame]
      exact Bool.eq_false_iff.mpr hflag
    have hbegin : advBegin buf = advSearch buf := by simp [advBegin, advSkip, hshut]
    refine CallSpec.null hruns rfl ?_
    rw [hbegin]
    rcases hcase with ⟨hopen, hsame⟩ | ⟨hopen, -⟩ | ⟨-, hnil⟩
    · rw [hsame, hopen] at hshut
      cases hshut
    · rw [hopen] at hshut
      cases hshut
    · exact hnil

/-- A call that goes on behind one step of the decoder. -/
theorem AdvCall.after_step {mid : Gsm0710Buffer} {r : GetFrame × Gsm0710Buffer} {s : AdvState}
    {os : List Event} (hcall : AdvCall allow mid r)
    (hstep : advStep (advAbs buf) buf.unread = some (s, mid.unread, os)) (hs : advAbs mid = s)
    (hos : framesOf os = []) (hcount : mid.droppedCount = buf.droppedCount + os.count .dropped)
    (hle : gsm0710BufferLength mid ≤ gsm0710BufferLength buf) : AdvCall allow buf r := by
  subst hs
  have hruns : Runs (AdvRun allow) advAbs buf mid os := ⟨AdvRun.single hstep, hcount⟩
  exact hcall.after hruns hos hle hruns.run.trans id

/-- The byte loop: one case per branch of its body, each a step of the
decoder, and the rest of the loop by induction. -/
theorem advMain_spec (n : Nat) (hready : MainReady buf) (hn : gsm0710BufferLength buf ≤ n) :
    AdvCall allow buf (advMain n buf) := by
  induction n generalizing buf with
  | zero =>
    exact CallSpec.null ⟨AdvRun.refl _ _, rfl⟩ rfl (Ring.contents_eq_nil.mpr (Nat.le_zero.mp hn))
  | succ n ih =>
    unfold advMain
    by_cases h0 : buf.ring.datacount = 0
    · rw [if_pos h0]
      exact CallSpec.null ⟨AdvRun.refl _ _, rfl⟩ rfl (Ring.contents_eq_nil.mpr h0)
    rw [if_neg h0]
    have hcons : buf.unread = buf.ring.peek :: buf.ring.inc.contents := Ring.contents_eq_peek h0
    have habs := advAbs_reading hready.flag
    have hinc : buf.ring.inc.datacount + 1 = gsm0710BufferLength buf := by
      rw [Ring.inc_datacount]
      unfold gsm0710BufferLength
      omega
    have hlen : buf.ring.inc.datacount ≤ gsm0710BufferLength buf := by omega
    have hlen' : buf.ring.inc.datacount ≤ n := by omega
    by_cases hclose : buf.advFoundEsc = false ∧ buf.ring.peek = gsm0710FrameAdvFlag
    · rw [if_pos hclose]
      have hdata : buf.advData ≠ [] := by
        intro hnil
        refine hready.head hnil hclose.1 ?_
        rw [hcons, hclose.2]
        rfl
      have hstep : advStep (advAbs buf) buf.unread
          = some (.hunting, buf.ring.inc.contents, (closeFrame buf.advData).events) := by
        rw [habs, hcons, advStep, if_pos hclose, if_neg hdata]
      cases hc : closeFrame buf.advData with
      | tooShort | mismatch =>
        rw [hc] at hstep
        refine AdvCall.after_step (advResume_spec (.inl rfl) fun mid hmid hle _ => ?_) hstep
          rfl rfl rfl hlen
        exact ih hmid (Nat.le_trans hle hlen')
      | good f =>
        rw [hc] at hstep
        refine CallSpec.frame ⟨AdvRun.single hstep, rfl⟩ rfl ?_
        show buf.ring.inc.datacount < _
        omega
    · rw [if_neg hclose]
      by_cases hroom : buf.advData.length < gsm0710BufferSize
      · rw [dif_pos hroom]
        have hstep : advStep (advAbs buf) buf.unread
            = some (advByte buf.advData buf.advFoundEsc buf.ring.peek,
              buf.ring.inc.contents, []) := by
          rw [habs, hcons, advStep, if_neg hclose, if_pos hroom]
        have hstored : ∀ b, AdvCall allow (storeAdv buf b false hroom)
            (advMain n (storeAdv buf b false hroom)) := fun b =>
          ih ⟨hready.flag, fun hnil => absurd hnil (by simp [storeAdv])⟩ hlen'
        unfold advByte at hstep
        split
        · next hesc =>
          rw [if_pos hesc] at hstep
          exact (hstored _).after_step hstep (advAbs_reading hready.flag) rfl rfl hlen
        · next hesc =>
          rw [if_neg hesc] at hstep
          split
          · next hpeek =>
            rw [if_pos hpeek] at hstep
            exact AdvCall.after_step (ih ⟨hready.flag, fun _ hfalse => by cases hfalse⟩ hlen') hstep
              (advAbs_reading hready.flag) rfl rfl hlen
          · next hpeek =>
            rw [if_neg hpeek] at hstep
            exact (hstored _).after_step hstep (advAbs_reading hready.flag) rfl rfl hlen
      · rw [dif_neg hroom]
        -- nothing is used up here; the search that follows uses up a byte
        have hstep : advStep (advAbs buf) buf.unread
            = some (.hunting, buf.unread, [.dropped]) := by
          rw [habs, hcons, advStep, if_neg hclose, if_neg hroom]
        refine AdvCall.after_step (advResume_spec (.inl rfl) fun mid hmid _ hlt => ?_) hstep
          rfl rfl rfl (Nat.le_refl _)
        have hfewer := hlt rfl (hcons ▸ cons_ne_nil _ _)
        exact ih hmid (Nat.le_of_lt_succ (Nat.lt_of_lt_of_le hfewer hn))

/-- **The advanced decoder follows its runs**: those with the skip in every
buffer, those without in a buffer that does not start with a pending one. -/
theorem advFollows (allow : Bool) :
    Follows (AdvRun allow) (fun _ ys => ys = []) advAbs (fun _ _ _ => False)
      (fun buf => buf.flagFound = false ∨ allow = true ∨ NoPendingSkip buf)
      gsm0710AdvancedBufferGetFrame where
  call buf h := advResume_spec h fun _ hmid hle _ => advMain_spec _ hmid hle
  next := by
    -- a frame is handed over with no other one open
    intro buf buf' f h
    have hshut := advGetFrame_exits (P := fun r => r.1 = .frame f → r.2.flagFound = false)
      (fun _ hnull => by cases hnull) (fun _ _ _ _ => rfl) buf
    rw [h] at hshut
    exact .inl (hshut rfl)
  write _ _ := rfl
  refl := AdvRun.refl
  trans := AdvRun.trans
  append := AdvRun.append
  bad_mono h := h.elim

/-! ## Read boundaries -/

/-- No call of the advanced decoder ends the program. -/
theorem advFeed_returns {ps : List (List UInt8)} (hfits : Fits gsm0710AdvancedBufferGetFrame buf ps)
    (henters : Enters (fun buf => buf.flagFound = false ∨ allow = true ∨ NoPendingSkip buf)
      gsm0710AdvancedBufferGetFrame buf ps) :
    ∃ fs buf' os, feed gsm0710AdvancedBufferGetFrame buf ps = .ok (fs, buf') ∧
      AdvRun allow (advAbs buf) (buf.unread ++ ps.flatten) (advAbs buf') buf'.unread os ∧
      framesOf os = fs ∧ buf'.droppedCount = buf.droppedCount + os.count .dropped ∧
      (buf.unread = [] → buf'.unread = []) := by
  obtain ⟨⟨fs, buf'⟩, hfeed⟩ :=
    feed_returns (advFollows allow) ps hfits henters fun _ _ _ _ hbad => hbad
  obtain ⟨os, hrun, hframes, hcount, hend⟩ := feed_runs (advFollows allow) ps hfits henters hfeed
  exact ⟨fs, buf', os, hfeed, hrun, hframes, hcount, hend⟩

/-- **Where the cut does not matter in advanced mode.** Two feeds of one
stream into empty buffers, none of whose pieces starts with a flag octet
that finds an escape pending and nothing stored, give the same frames and
the same `dropped_count`. -/
theorem advFeed_cut_independent {buf₁ buf₂ : Gsm0710Buffer} {ps₁ ps₂ : List (List UInt8)}
    (hempty₁ : buf₁.unread = []) (hempty₂ : buf₂.unread = []) (hflag₁ : buf₁.flagFound = false)
    (hflag₂ : buf₂.flagFound = false) (hdropped : buf₁.droppedCount = buf₂.droppedCount)
    (hcut : ps₁.flatten = ps₂.flatten) (hfits₁ : Fits gsm0710AdvancedBufferGetFrame buf₁ ps₁)
    (hfits₂ : Fits gsm0710AdvancedBufferGetFrame buf₂ ps₂)
    (hskip₁ : Along gsm0710AdvancedBufferGetFrame
      (fun buf p => NoPendingSkip (gsm0710BufferWrite buf p)) buf₁ ps₁)
    (hskip₂ : Along gsm0710AdvancedBufferGetFrame
      (fun buf p => NoPendingSkip (gsm0710BufferWrite buf p)) buf₂ ps₂) :
    ∃ fs end₁ end₂, feed gsm0710AdvancedBufferGetFrame buf₁ ps₁ = .ok (fs, end₁) ∧
      feed gsm0710AdvancedBufferGetFrame buf₂ ps₂ = .ok (fs, end₂) ∧
      end₁.droppedCount = end₂.droppedCount := by
  have henters : ∀ {buf ps}, Along gsm0710AdvancedBufferGetFrame
      (fun buf p => NoPendingSkip (gsm0710BufferWrite buf p)) buf ps →
      Enters (fun buf => buf.flagFound = false ∨ false = true ∨ NoPendingSkip buf)
        gsm0710AdvancedBufferGetFrame buf ps :=
    fun halong => Along.mono (fun _ _ h => Or.inr (Or.inr h)) _ halong
  obtain ⟨fs₁, end₁, os₁, hfeed₁, hrun₁, hframes₁, hcount₁, hend₁⟩ :=
    advFeed_returns hfits₁ (henters hskip₁)
  obtain ⟨fs₂, end₂, os₂, hfeed₂, hrun₂, hframes₂, hcount₂, hend₂⟩ :=
    advFeed_returns hfits₂ (henters hskip₂)
  rw [hempty₁, hend₁ hempty₁, advAbs_hunting hflag₁] at hrun₁
  rw [hempty₂, hend₂ hempty₂, advAbs_hunting hflag₂, ← hcut] at hrun₂
  -- without the skip both are runs of one decoder, from one standstill to another
  have hstuck : ∀ s, advDecoder.Stuck s [] := advStep_nil
  obtain ⟨_, _, ho⟩ := hrun₁.steps.unique (hstuck _) hrun₂.steps (hstuck _)
  have hfs : fs₂ = fs₁ := by rw [← hframes₁, ← hframes₂, ho]
  subst hfs
  refine ⟨fs₂, end₁, end₂, hfeed₁, hfeed₂, ?_⟩
  rw [hcount₁, hcount₂, ho, hdropped]

/-- A stream with an escaped flag octet, whole and cut behind its escape but
one byte late. -/
theorem advFeed_cut_independent_escaped :
    ∃ fs end₁ end₂,
      feed gsm0710AdvancedBufferGetFrame (gsm0710BufferInit ⟨4094, by decide⟩)
        [[0x7E, 0x7D, 0x7E, 0xEF, 0xC3, 0x7E]] = .ok (fs, end₁) ∧
      feed gsm0710AdvancedBufferGetFrame (gsm0710BufferInit ⟨0, by decide⟩)
        [[0x7E, 0x7D, 0x7E], [0xEF, 0xC3, 0x7E]] = .ok (fs, end₂) ∧
      end₁.droppedCount = end₂.droppedCount :=
  advFeed_cut_independent (by rfl) (by rfl) (by rfl) (by rfl) (by rfl) (by decide)
    (by decide +kernel) (by decide +kernel) (by decide +kernel) (by decide +kernel)

/-- The cut does matter: the same stream gives the frame it carries when it
arrives whole, and nothing when it is cut right behind the escape. -/
theorem advFeed_cut_dependent :
    ¬ ∀ ps₁ ps₂ : List (List UInt8), ps₁.flatten = ps₂.flatten →
      Fits gsm0710AdvancedBufferGetFrame (gsm0710BufferInit ⟨0, by decide⟩) ps₁ →
      Fits gsm0710AdvancedBufferGetFrame (gsm0710BufferInit ⟨0, by decide⟩) ps₂ →
      (feed gsm0710AdvancedBufferGetFrame (gsm0710BufferInit ⟨0, by decide⟩) ps₁).toOption.map
          Prod.fst
        = (feed gsm0710AdvancedBufferGetFrame (gsm0710BufferInit ⟨0, by decide⟩) ps₂).toOption.map
          Prod.fst := by
  intro h
  have hsame := h [[0x7E, 0x7D, 0x7E, 0xEF, 0xC3, 0x7E]] [[0x7E, 0x7D], [0x7E, 0xEF, 0xC3, 0x7E]]
    (by decide) (by decide +kernel) (by decide +kernel)
  have hwhole : (feed gsm0710AdvancedBufferGetFrame (gsm0710BufferInit ⟨0, by decide⟩)
      [[0x7E, 0x7D, 0x7E, 0xEF, 0xC3, 0x7E]]).toOption.map Prod.fst
      = some [⟨23, 0xEF, []⟩] := by decide +kernel
  have hcut : (feed gsm0710AdvancedBufferGetFrame (gsm0710BufferInit ⟨0, by decide⟩)
      [[0x7E, 0x7D], [0x7E, 0xEF, 0xC3, 0x7E]]).toOption.map Prod.fst = some [] := by
    decide +kernel
  rw [hwhole, hcut] at hsame
  cases hsame

end Arale.Mux
