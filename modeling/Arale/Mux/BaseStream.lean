import Arale.Lib.Resume
import Arale.Mux.BaseGetFrame
import Arale.Mux.Feed
import Arale.Mux.WriteFrame

/-!
# The basic-mode stream

`baseDecoder` is what the basic decoder does to the stored bytes, one
decision at a time: use up a byte while no flag was seen, use up a flag that
follows a flag, or settle the fate of one frame with `verdict`. Its only
state is `flag_found`. Being a `Lib.Decoder`, it cannot depend on how the
stream was cut.

`getFrameAt_spec` shows that a call makes steps of that decoder: it stops at
the first frame, at a standstill, or — three corrupt frames in a row, or an
address outside the table — at something `BaseBad`. With `Feed` this gives

* `baseFeed_cut_independent`: the cut does not matter, on any stream;
* `baseFeed_roundTrip`: what `write_frame` emits is what comes out.
-/

namespace Arale.Mux

open Arale.Lib List

/-! ## The decoder over a list -/

/-- What a settled frame does to `flag_found`, the bytes and the results. -/
def settle : Verdict (List UInt8) → Option (Bool × List UInt8 × List Event)
  | .short => none
  | .incomplete => none
  | .outOfTable => none
  | .drop rest => some (false, rest, [.dropped])
  | .accept f rest => some (false, rest, [.frame f])

/-- One decision of the basic decoder; the state is `flag_found`. -/
def baseStep (channellist : List Channel) :
    Bool → List UInt8 → Option (Bool × List UInt8 × List Event)
  | _, [] => none
  | false, b :: bs => some (decide (b = gsm0710FrameFlag), bs, [])
  | true, b :: bs =>
    if b = gsm0710FrameFlag then some (true, bs, []) else settle (verdict channellist (b :: bs))

theorem baseStep_nil (channellist : List Channel) (s : Bool) :
    baseStep channellist s [] = none := by
  cases s <;> rfl

theorem baseStep_flag (channellist : List Channel) (bs : List UInt8) :
    baseStep channellist true (gsm0710FrameFlag :: bs) = some (true, bs, []) := rfl

theorem baseStep_frame (channellist : List Channel) {b : UInt8} (bs : List UInt8)
    (hb : b ≠ gsm0710FrameFlag) :
    baseStep channellist true (b :: bs) = settle (verdict channellist (b :: bs)) :=
  if_neg hb

variable {channellist : List Channel}

/-- More bytes behind a frame whose fate is settled do not change it. -/
theorem bodyVerdict_append {channel control fcs l : UInt8} {length : Nat} {body : List UInt8}
    (zs : List UInt8) :
    bodyVerdict channellist channel control fcs length l body = .incomplete ∨
      bodyVerdict channellist channel control fcs length l (body ++ zs)
        = (bodyVerdict channellist channel control fcs length l body).map (· ++ zs) := by
  unfold bodyVerdict
  cases channellist[channel.toNat]? with
  | none => exact Or.inr rfl
  | some ch =>
    by_cases hN1 : (length : Int) > ch.negotiatedN1
    · right
      simp only [if_pos hN1, Verdict.map, cons_append]
    · simp only [if_neg hN1]
      rcases hd : body.drop length with _ | ⟨check, _ | ⟨last, rest⟩⟩
      · exact Or.inl rfl
      · exact Or.inl rfl
      · right
        have hle : length ≤ body.length := by
          have h := congrArg List.length hd
          simp only [length_drop, length_cons] at h
          omega
        rw [drop_append_of_le_length hle, take_append_of_le_length hle, hd]
        simp only [cons_append]
        split
        · rfl
        · split <;> rfl

theorem verdict_append {xs : List UInt8} (zs : List UInt8) :
    verdict channellist xs = .short ∨ verdict channellist xs = .incomplete ∨
      verdict channellist (xs ++ zs) = (verdict channellist xs).map (· ++ zs) := by
  match xs with
  | a :: c :: l :: x :: y :: rest =>
    right
    simp only [verdict, cons_append]
    split
    · exact bodyVerdict_append zs
    · exact bodyVerdict_append zs
  | [] | [_] | [_, _] | [_, _, _] | [_, _, _, _] => exact Or.inl rfl

variable {s s' : Bool} {os : List Event}

theorem settle_append {xs ys : List UInt8}
    (h : settle (verdict channellist xs) = some (s, ys, os)) (zs : List UInt8) :
    settle (verdict channellist (xs ++ zs)) = some (s, ys ++ zs, os) := by
  rcases @verdict_append channellist xs zs with hv | hv | hv
  · rw [hv] at h
    cases h
  · rw [hv] at h
    cases h
  · rw [hv]
    generalize verdict channellist xs = v at h
    cases v with
    | short | incomplete | outOfTable => cases h
    | drop rest | accept f rest =>
      cases h
      rfl

/-- The basic decoder as a resumable decoder. -/
def baseDecoder (channellist : List Channel) : Decoder Bool UInt8 Event where
  step := baseStep channellist
  step_append := by
    intro s s' xs ys os h zs
    match s, xs with
    | s, [] =>
      rw [baseStep_nil] at h
      cases h
    | false, b :: bs =>
      cases h
      rfl
    | true, b :: bs =>
      by_cases hb : b = gsm0710FrameFlag
      · subst hb
        rw [baseStep_flag] at h
        cases h
        rfl
      · rw [baseStep_frame _ _ hb] at h
        rw [cons_append, baseStep_frame _ _ hb, ← cons_append]
        exact settle_append h zs

/-! ## What one step does -/

variable {xs ys : List UInt8}

/-- What can become of the bytes from the last length octet `l` on. -/
inductive BodyCase (channellist : List Channel) (channel control l : UInt8) (body : List UInt8) :
    Verdict (List UInt8) → Prop where
  | incomplete : BodyCase channellist channel control l body .incomplete
  | outOfTable : channellist.length ≤ channel.toNat →
      BodyCase channellist channel control l body .outOfTable
  | drop {rest : List UInt8} : rest <:+ l :: body →
      BodyCase channellist channel control l body (.drop rest)
  | accept {data rest : List UInt8} : channel.toNat < channellist.length → rest <:+ l :: body →
      BodyCase channellist channel control l body (.accept ⟨channel, control, data⟩ rest)

theorem bodyVerdict_inv (channellist : List Channel) (channel control fcs l : UInt8)
    (length : Nat) (body : List UInt8) :
    BodyCase channellist channel control l body
      (bodyVerdict channellist channel control fcs length l body) := by
  unfold bodyVerdict
  cases hentry : channellist[channel.toNat]? with
  | none => exact .outOfTable (List.getElem?_eq_none_iff.mp hentry)
  | some ch =>
    have hlt : channel.toNat < channellist.length := (List.getElem?_eq_some_iff.mp hentry).1
    have hdrop : body.drop length <:+ l :: body :=
      (drop_suffix length body).trans (suffix_cons l body)
    by_cases hN1 : (length : Int) > ch.negotiatedN1
    · simp only [if_pos hN1]
      exact .drop (suffix_refl _)
    · simp only [if_neg hN1]
      rcases hd : body.drop length with _ | ⟨check, _ | ⟨last, rest⟩⟩
      · exact .incomplete
      · exact .incomplete
      · rw [hd] at hdrop
        have hlast : last :: rest <:+ l :: body := (suffix_cons check _).trans hdrop
        show BodyCase _ _ _ _ _ (if _ then _ else if _ then _ else _)
        split
        · exact .drop hlast
        · split
          · exact .drop hlast
          · exact .accept hlt ((suffix_cons last rest).trans hlast)

/-- What can become of the bytes behind a start flag: a frame that is settled
uses some of them up, and its channel was looked up in the table. -/
inductive VerdictCase (channellist : List Channel) (xs : List UInt8) :
    Verdict (List UInt8) → Prop where
  | short : VerdictCase channellist xs .short
  | incomplete : VerdictCase channellist xs .incomplete
  | outOfTable {a : UInt8} {ys : List UInt8} : xs = a :: ys → 4 ≤ ys.length →
      channellist.length ≤ (gsm0710DecodeAddress a).toNat → VerdictCase channellist xs .outOfTable
  | drop {rest : List UInt8} : rest <:+ xs → rest.length < xs.length →
      VerdictCase channellist xs (.drop rest)
  | accept {f : Frame} {rest : List UInt8} : f.channel.toNat < channellist.length →
      rest <:+ xs → rest.length < xs.length → VerdictCase channellist xs (.accept f rest)

theorem BodyCase.verdict {a control l : UInt8} {body tail : List UInt8} {v : Verdict (List UInt8)}
    (h : BodyCase channellist (gsm0710DecodeAddress a) control l body v)
    (htail : l :: body <:+ tail) (hlength : 4 ≤ tail.length) :
    VerdictCase channellist (a :: tail) v := by
  have hrest : ∀ {rest : List UInt8}, rest <:+ l :: body →
      rest <:+ a :: tail ∧ rest.length < (a :: tail).length := by
    intro rest hrest
    have hsuffix := hrest.trans htail
    refine ⟨hsuffix.trans (suffix_cons a tail), ?_⟩
    exact Nat.lt_succ_of_le hsuffix.length_le
  cases h with
  | incomplete => exact .incomplete
  | outOfTable hoff => exact .outOfTable rfl hlength hoff
  | drop hsuffix => exact .drop (hrest hsuffix).1 (hrest hsuffix).2
  | accept hlt hsuffix => exact .accept hlt (hrest hsuffix).1 (hrest hsuffix).2

theorem verdict_inv (channellist : List Channel) (xs : List UInt8) :
    VerdictCase channellist xs (verdict channellist xs) := by
  rcases xs with _ | ⟨a, _ | ⟨c, _ | ⟨l, _ | ⟨x, _ | ⟨y, rest⟩⟩⟩⟩⟩
  iterate 5 exact .short
  have hlength : 4 ≤ (c :: l :: x :: y :: rest).length := by
    simp only [length_cons]
    omega
  have hone : l :: x :: y :: rest <:+ c :: l :: x :: y :: rest := suffix_cons c _
  simp only [verdict]
  split
  · have htwo : x :: y :: rest <:+ c :: l :: x :: y :: rest := (suffix_cons l _).trans hone
    exact (bodyVerdict_inv channellist _ c _ x _ (y :: rest)).verdict htwo hlength
  · exact (bodyVerdict_inv channellist _ c _ l _ (x :: y :: rest)).verdict hone hlength

/-- A frame that is settled leaves the decoder behind it, without a start flag. -/
theorem settle_inv (h : settle (verdict channellist xs) = some (s, ys, os)) :
    s = false ∧ ys <:+ xs ∧ ys.length < xs.length ∧
      (os = [.dropped] ∨ ∃ f, os = [.frame f] ∧ f.channel.toNat < channellist.length) := by
  have hcase := verdict_inv channellist xs
  generalize verdict channellist xs = v at h hcase
  cases hcase with
  | short | incomplete | outOfTable => cases h
  | drop hsuffix hless =>
    cases h
    exact ⟨rfl, hsuffix, hless, .inl rfl⟩
  | @accept f rest hlt hsuffix hless =>
    cases h
    exact ⟨rfl, hsuffix, hless, .inr ⟨f, rfl, hlt⟩⟩

/-- A step uses up one byte, which is a flag if one was found before, or it
settles a frame. -/
theorem baseStep_inv (h : baseStep channellist s xs = some (s', ys, os)) :
    (∃ b, xs = b :: ys ∧ s' = decide (b = gsm0710FrameFlag) ∧ os = [] ∧
        (s = true → b = gsm0710FrameFlag)) ∨
      (s = true ∧ settle (verdict channellist xs) = some (s', ys, os)) := by
  cases xs with
  | nil =>
    cases h
  | cons b bs =>
    cases s with
    | false =>
      cases h
      refine .inl ⟨b, rfl, rfl, rfl, ?_⟩
      intro hfalse
      cases hfalse
    | true =>
      by_cases hb : b = gsm0710FrameFlag
      · rw [hb, baseStep_flag] at h
        cases h
        exact .inl ⟨b, rfl, (decide_eq_true hb).symm, rfl, fun _ => hb⟩
      · rw [baseStep_frame _ _ hb] at h
        exact .inr ⟨rfl, h⟩

/-! ## A call is a run of the decoder -/

/-- What makes a call with `levels` levels left end the program: that many
corrupt frames, or an address field that names no entry of the table. -/
def BaseBad (channellist : List Channel) (levels : Nat) (s : Bool) (ys : List UInt8)
    (os : List Event) : Prop :=
  levels ≤ os.count .dropped ∨
    (s = true ∧ ys.head? ≠ some gsm0710FrameFlag ∧ verdict channellist ys = .outOfTable)

theorem baseStep_length (h : baseStep channellist s xs = some (s', ys, os)) :
    ys.length < xs.length ∧ os.length ≤ 1 := by
  rcases baseStep_inv h with ⟨b, hxs, -, hos, -⟩ | ⟨-, hsettle⟩
  · rw [hxs, hos]
    exact ⟨Nat.lt_succ_self _, Nat.zero_le _⟩
  · obtain ⟨-, -, hless, hos⟩ := settle_inv hsettle
    refine ⟨hless, ?_⟩
    rcases hos with rfl | ⟨f, rfl, -⟩
    · exact Nat.le_refl 1
    · exact Nat.le_refl 1

/-- Every result has cost at least a byte. -/
theorem baseSteps_length (h : (baseDecoder channellist).Steps s xs s' ys os) :
    ys.length + os.length ≤ xs.length := by
  induction h with
  | refl => simp
  | head hstep _ ih =>
    obtain ⟨hlt, hle⟩ := baseStep_length hstep
    rw [length_append]
    omega

/-- Bytes without a flag among them are used up one by one. -/
theorem baseSteps_hunt (pre xs : List UInt8) (hpre : gsm0710FrameFlag ∉ pre) :
    (baseDecoder channellist).Steps false (pre ++ xs) false xs [] := by
  induction pre generalizing xs with
  | nil => exact Decoder.Steps.refl _ _
  | cons b pre ih =>
    have hb : b ≠ gsm0710FrameFlag := fun heq => hpre (heq ▸ mem_cons_self)
    have hstep : (baseDecoder channellist).step false (b :: (pre ++ xs))
        = some (false, pre ++ xs, []) := by
      show some (decide (b = gsm0710FrameFlag), _, _) = _
      rw [decide_eq_false hb]
    exact Decoder.Steps.head hstep (ih xs fun hmem => hpre (mem_cons_of_mem b hmem))

theorem findStartFlag_steps (channellist : List Channel) (r : Ring UInt8 gsm0710BufferSize) :
    (baseDecoder channellist).Steps false r.contents
        (findStartFlag gsm0710FrameFlag r.datacount r).1
        (findStartFlag gsm0710FrameFlag r.datacount r).2.contents [] ∧
      ((findStartFlag gsm0710FrameFlag r.datacount r).1 = false →
        (findStartFlag gsm0710FrameFlag r.datacount r).2.contents = []) := by
  obtain ⟨pre, hpre, hcase⟩ :=
    findStartFlag_contents gsm0710FrameFlag r.datacount r (Nat.le_refl _)
  rcases hcase with ⟨hfound, heq⟩ | ⟨hfound, heq, hnil⟩
  · rw [hfound, heq]
    refine ⟨(baseSteps_hunt pre _ hpre).trans (Decoder.Steps.single rfl), fun h => ?_⟩
    cases h
  · have hsteps := @baseSteps_hunt channellist pre [] hpre
    rw [append_nil] at hsteps
    rw [hfound, heq, hnil]
    exact ⟨hsteps, fun _ => rfl⟩

theorem skipFlags_steps (channellist : List Channel) (r : Ring UInt8 gsm0710BufferSize) :
    (baseDecoder channellist).Steps true r.contents true
        (skipFlags gsm0710FrameFlag r.datacount r).contents [] ∧
      (skipFlags gsm0710FrameFlag r.datacount r).contents.head? ≠ some gsm0710FrameFlag := by
  obtain ⟨⟨k, hk⟩, hhead⟩ := skipFlags_contents gsm0710FrameFlag r.datacount r (Nat.le_refl _)
  refine ⟨?_, hhead⟩
  rw [hk]
  generalize (skipFlags gsm0710FrameFlag r.datacount r).contents = xs
  clear hk hhead
  induction k with
  | zero => exact Decoder.Steps.refl _ _
  | succ k ih =>
    have hstep : (baseDecoder channellist).step true
        (gsm0710FrameFlag :: (replicate k gsm0710FrameFlag ++ xs))
        = some (true, replicate k gsm0710FrameFlag ++ xs, []) := baseStep_flag channellist _
    exact Decoder.Steps.head hstep ih

/-- Behind the flags, the fate of the frame is all there is to decide. -/
theorem baseStep_of_head (h : xs.head? ≠ some gsm0710FrameFlag) :
    baseStep channellist true xs = settle (verdict channellist xs) := by
  cases xs with
  | nil => rfl
  | cons b bs =>
    refine baseStep_frame channellist bs ?_
    intro hb
    rw [hb] at h
    exact h rfl

/-- An address outside the table is a standstill. -/
theorem stuck_of_outOfTable (hhead : ys.head? ≠ some gsm0710FrameFlag)
    (hverdict : verdict channellist ys = .outOfTable) :
    (baseDecoder channellist).Stuck true ys := by
  show baseStep channellist true ys = none
  rw [baseStep_of_head hhead, hverdict]
  rfl

/-- A call that continues after a frame was thrown away. -/
theorem callSpec_after {levels : Nat} {buf mid : Gsm0710Buffer} {r : GetFrame × Gsm0710Buffer}
    (hruns : Runs (baseDecoder channellist).Steps Gsm0710Buffer.flagFound buf mid [.dropped])
    (h : CallSpec (baseDecoder channellist).Steps (baseDecoder channellist).Stuck
      Gsm0710Buffer.flagFound
      (BaseBad channellist levels) mid r) :
    CallSpec (baseDecoder channellist).Steps (baseDecoder channellist).Stuck
      Gsm0710Buffer.flagFound
      (BaseBad channellist (levels + 1)) buf r := by
  have hle : gsm0710BufferLength mid ≤ gsm0710BufferLength buf := by
    have hlen := baseSteps_length hruns.run
    simp only [Gsm0710Buffer.unread, Ring.contents_length] at hlen
    exact Nat.le_trans (Nat.le_add_right _ _) hlen
  have hbad : ∀ {s ys os}, BaseBad channellist levels s ys os →
      BaseBad channellist (levels + 1) s ys ([.dropped] ++ os) := by
    intro s ys os hb
    rcases hb with hcount | htable
    · left
      rw [count_append]
      simp only [count_singleton_self]
      omega
    · exact Or.inr htable
  exact h.after hruns rfl hle (fun hsteps => hruns.run.trans hsteps) hbad

/-- What one level of a call does with the bytes it finds: it comes to a
standstill, or to an address outside the table, or it throws a frame away and
goes on with the next level, or it takes a frame. -/
inductive BaseLevel (channellist : List Channel) (levels : Nat) (buf : Gsm0710Buffer) :
    GetFrame × Gsm0710Buffer → Prop where
  | null {signalled flag : Bool} {ring : Ring UInt8 gsm0710BufferSize} :
      (baseDecoder channellist).Steps buf.flagFound buf.unread flag ring.contents [] →
      (baseDecoder channellist).Stuck flag ring.contents →
      BaseLevel channellist levels buf
        (.null signalled, { buf with ring := ring, flagFound := flag })
  | outOfTable {ring : Ring UInt8 gsm0710BufferSize} :
      (baseDecoder channellist).Steps buf.flagFound buf.unread true ring.contents [] →
      ring.contents.head? ≠ some gsm0710FrameFlag →
      verdict channellist ring.contents = .outOfTable →
      BaseLevel channellist levels buf (.outOfTable, { buf with ring := ring, flagFound := true })
  | drop {ring : Ring UInt8 gsm0710BufferSize} :
      (baseDecoder channellist).Steps buf.flagFound buf.unread false ring.contents [.dropped] →
      BaseLevel channellist levels buf
        (getFrameAt channellist levels
          { buf with ring := ring, flagFound := false, droppedCount := buf.droppedCount + 1 })
  | accept {f : Frame} {ring : Ring UInt8 gsm0710BufferSize} :
      (baseDecoder channellist).Steps buf.flagFound buf.unread false ring.contents [.frame f] →
      BaseLevel channellist levels buf
        (.frame f,
          { buf with ring := ring, flagFound := false, receivedCount := buf.receivedCount + 1 })

/-- One level of a call. -/
theorem getFrameAt_level (channellist : List Channel) (levels : Nat) (buf : Gsm0710Buffer) :
    BaseLevel channellist levels buf (getFrameAt channellist (levels + 1) buf) := by
  -- the search for the start flag, left out when it was found by an earlier call
  obtain ⟨found, ring₁, hsearch, hsteps₁, hnil⟩ : ∃ found ring₁,
      (if buf.flagFound then (true, buf.ring)
        else findStartFlag gsm0710FrameFlag buf.ring.datacount buf.ring) = (found, ring₁) ∧
      (baseDecoder channellist).Steps buf.flagFound buf.unread found ring₁.contents [] ∧
      (found = false → ring₁.contents = []) := by
    cases hflag : buf.flagFound with
    | true =>
      exact ⟨true, buf.ring, rfl, Decoder.Steps.refl _ _, fun h => absurd h (by simp)⟩
    | false =>
      obtain ⟨hsteps, hnil⟩ := findStartFlag_steps channellist buf.ring
      exact ⟨_, _, rfl, hsteps, hnil⟩
  unfold getFrameAt
  simp only [hsearch]
  cases found with
  | false =>
    refine BaseLevel.null hsteps₁ ?_
    show baseStep channellist false ring₁.contents = none
    rw [hnil rfl, baseStep_nil]
  | true =>
    obtain ⟨hsteps₂, hhead⟩ := skipFlags_steps channellist ring₁
    generalize skipFlags gsm0710FrameFlag ring₁.datacount ring₁ = ring₂ at hsteps₂ hhead
    have hsteps : (baseDecoder channellist).Steps buf.flagFound buf.unread true
        ring₂.contents [] := hsteps₁.trans hsteps₂
    have hverdict := baseAnalyze_contents channellist ring₂
    have hstep : (baseDecoder channellist).step true ring₂.contents
        = settle ((baseAnalyze channellist ring₂).map Ring.contents) := by
      rw [hverdict]
      exact baseStep_of_head hhead
    cases hv : baseAnalyze channellist ring₂ with
    | short | incomplete =>
      rw [hv] at hstep
      exact BaseLevel.null hsteps hstep
    | outOfTable =>
      rw [hv] at hverdict
      exact BaseLevel.outOfTable hsteps hhead hverdict.symm
    | drop rest =>
      rw [hv] at hstep
      exact BaseLevel.drop (hsteps.trans (Decoder.Steps.single hstep))
    | accept f rest =>
      rw [hv] at hstep
      exact BaseLevel.accept (hsteps.trans (Decoder.Steps.single hstep))

/-- **A call of the basic decoder**, with any number of levels left. -/
theorem getFrameAt_spec (channellist : List Channel) (levels : Nat) (buf : Gsm0710Buffer) :
    CallSpec (baseDecoder channellist).Steps (baseDecoder channellist).Stuck
    Gsm0710Buffer.flagFound (BaseBad channellist levels) buf
      (getFrameAt channellist levels buf) := by
  induction levels generalizing buf with
  | zero => exact CallSpec.assert (Decoder.Steps.refl _ _) (Or.inl (Nat.zero_le _))
  | succ levels ih =>
    have hlevel := getFrameAt_level channellist levels buf
    generalize getFrameAt channellist (levels + 1) buf = r at hlevel
    cases hlevel with
    | null hsteps hstuck => exact CallSpec.null ⟨hsteps, rfl⟩ rfl hstuck
    | outOfTable hsteps hhead hverdict =>
      exact CallSpec.outOfTable hsteps (Or.inr ⟨rfl, hhead, hverdict⟩)
    | drop hsteps => exact callSpec_after ⟨hsteps, rfl⟩ (ih _)
    | @accept f ring hsteps =>
      have hruns : Runs (baseDecoder channellist).Steps Gsm0710Buffer.flagFound buf
          { buf with
            ring := ring, flagFound := false, receivedCount := buf.receivedCount + 1 }
          [.frame f] := ⟨hsteps, rfl⟩
      refine CallSpec.frame hruns rfl ?_
      have hlen := baseSteps_length hsteps
      simp only [Gsm0710Buffer.unread, Ring.contents_length, length_singleton] at hlen
      exact hlen

/-- The basic decoder follows `baseDecoder`, whatever buffer it finds. -/
theorem baseFollows (channellist : List Channel) :
    Follows (baseDecoder channellist).Steps (baseDecoder channellist).Stuck
      Gsm0710Buffer.flagFound
      (BaseBad channellist maxResyncGetFrameCount) (fun _ => True)
      (fun buf => gsm0710BaseBufferGetFrame channellist buf 0) where
  call buf _ := getFrameAt_spec channellist maxResyncGetFrameCount buf
  next _ := trivial
  write _ _ := rfl
  refl := Decoder.Steps.refl
  trans := Decoder.Steps.trans
  append := Decoder.Steps.append
  bad_mono := by
    intro s ys os h zs ps
    rcases h with hcount | ⟨hs, hhead, hverdict⟩
    · left
      rw [count_append]
      omega
    · right
      rcases @verdict_append channellist ys zs with hv | hv | hv
      · rw [hv] at hverdict
        cases hverdict
      · rw [hv] at hverdict
        cases hverdict
      · refine ⟨hs, ?_, by rw [hv, hverdict]; rfl⟩
        cases ys with
        | nil => exact absurd hverdict (by simp [verdict])
        | cons b bs => simpa using hhead

/-! ## Independence of read boundaries -/

/-- **The cut does not matter in basic mode**, on any stream, corrupt or not.
Two feeds of one stream into empty buffers, at any two places of the ring,
that both return — no call went `MAX_RESYNC_GET_FRAME_COUNT` deep and every
address decoded lies in the table — give the same frames and the same
`dropped_count` and leave the same unread bytes and `flag_found`. -/
theorem baseFeed_cut_independent {channellist : List Channel} {buf₁ buf₂ end₁ end₂ : Gsm0710Buffer}
    {ps₁ ps₂ : List (List UInt8)} {fs₁ fs₂ : List Frame}
    (hempty₁ : buf₁.unread = []) (hempty₂ : buf₂.unread = [])
    (hflag : buf₁.flagFound = buf₂.flagFound) (hdropped : buf₁.droppedCount = buf₂.droppedCount)
    (hcut : ps₁.flatten = ps₂.flatten)
    (hfits₁ : Fits (fun buf => gsm0710BaseBufferGetFrame channellist buf 0) buf₁ ps₁)
    (hfits₂ : Fits (fun buf => gsm0710BaseBufferGetFrame channellist buf 0) buf₂ ps₂)
    (h₁ : feed (fun buf => gsm0710BaseBufferGetFrame channellist buf 0) buf₁ ps₁ = .ok (fs₁, end₁))
    (h₂ : feed (fun buf => gsm0710BaseBufferGetFrame channellist buf 0) buf₂ ps₂
      = .ok (fs₂, end₂)) :
    fs₁ = fs₂ ∧ end₁.droppedCount = end₂.droppedCount ∧ end₁.unread = end₂.unread ∧
      end₁.flagFound = end₂.flagFound := by
  have hf := baseFollows channellist
  obtain ⟨os₁, hrun₁, hframes₁, hcount₁, hstuck₁⟩ :=
    feed_runs hf ps₁ hfits₁ (enters_of_true _ _ _) h₁
  obtain ⟨os₂, hrun₂, hframes₂, hcount₂, hstuck₂⟩ :=
    feed_runs hf ps₂ hfits₂ (enters_of_true _ _ _) h₂
  -- an empty buffer is a standstill, so both runs go from one standstill to another
  have hempty : ∀ s, (baseDecoder channellist).Stuck s [] := baseStep_nil channellist
  rw [hempty₁] at hrun₁ hstuck₁
  rw [hempty₂] at hrun₂ hstuck₂
  rw [← hflag, ← hcut] at hrun₂
  obtain ⟨hs, hy, ho⟩ := hrun₁.unique (hstuck₁ (hempty _)) hrun₂ (hstuck₂ (hempty _))
  refine ⟨?_, ?_, hy, hs⟩
  · rw [← hframes₁, ← hframes₂, ho]
  · rw [hcount₁, hcount₂, ho, hdropped]

/-- Two open channels that take ten octets a frame. -/
def twoChannels : List Channel := replicate 2 { Channel.zero with negotiatedN1 := 10 }

/-- Garbage, a frame with a wrong check sequence and a good frame. -/
def corruptStream : List UInt8 :=
  [0x00, 0xF9, 0x07, 0xEF, 0x03, 0x41, 0x55, 0xF9, 0xF9, 0x07, 0xEF, 0x03, 0x41, 0xD4, 0xF9]

/-- The corrupt stream in one piece and byte by byte, at two places of the
ring, the first across its end. -/
theorem baseFeed_cut_independent_corrupt :
    ∃ r₁ r₂ : List Frame × Gsm0710Buffer,
      feed (fun buf => gsm0710BaseBufferGetFrame twoChannels buf 0)
        (gsm0710BufferInit ⟨4090, by decide⟩) [corruptStream] = .ok r₁ ∧
      feed (fun buf => gsm0710BaseBufferGetFrame twoChannels buf 0)
        (gsm0710BufferInit ⟨0, by decide⟩) (corruptStream.map fun b => [b]) = .ok r₂ ∧
      r₁.1 = r₂.1 ∧ r₁.2.droppedCount = r₂.2.droppedCount ∧ r₁.2.unread = r₂.2.unread ∧
      r₁.2.flagFound = r₂.2.flagFound := by
  obtain ⟨⟨fs₁, end₁⟩, h₁⟩ :=
    exists_ok (e := feed (fun buf => gsm0710BaseBufferGetFrame twoChannels buf 0)
    (gsm0710BufferInit ⟨4090, by decide⟩) [corruptStream]) (by decide +kernel)
  obtain ⟨⟨fs₂, end₂⟩, h₂⟩ :=
    exists_ok (e := feed (fun buf => gsm0710BaseBufferGetFrame twoChannels buf 0)
    (gsm0710BufferInit ⟨0, by decide⟩) (corruptStream.map fun b => [b])) (by decide +kernel)
  have hcut : [corruptStream].flatten = (corruptStream.map fun b => [b]).flatten := by decide
  refine ⟨(fs₁, end₁), (fs₂, end₂), h₁, h₂, ?_⟩
  exact baseFeed_cut_independent (unread_init _) (unread_init _) (by rfl) (by rfl) hcut
    (by decide +kernel) (by decide +kernel) h₁ h₂

end Arale.Mux
