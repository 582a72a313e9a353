import Arale.Mux.Buffer

/-!
# Feeding a decoder from the serial line

The serial reader stores what it read with `gsm0710_buffer_write`; the frame
assembler then asks for frames until there is none. `drain` is the second
half and `feed` alternates the two over the pieces a stream arrives in. Both
are parameters in the decoder function, basic or advanced.

A decoder function is understood through a run relation over the stored
bytes, whose results are the frames handed over and the frames thrown away.
`CallSpec` says what one call has to do with that relation. From it follow,
for the whole of a feed, `feed_runs` (a feed that returns is a run over the
stream, to a standstill) and `feed_returns` (a feed returns when nothing
lies ahead on the stream that a call could fail on).
-/

namespace Arale.Mux

open List

/-- What becomes of a frame on the line. -/
inductive Event where
  | frame (f : Frame)
  | dropped
  deriving DecidableEq, Repr

/-- The frames handed over, in order. -/
def framesOf : List Event → List Frame
  | [] => []
  | .frame f :: os => f :: framesOf os
  | .dropped :: os => framesOf os

theorem framesOf_append (os ps : List Event) :
    framesOf (os ++ ps) = framesOf os ++ framesOf ps := by
  induction os with
  | nil => rfl
  | cons o os ih => cases o <;> simp [framesOf, ih]

theorem framesOf_frames (fs : List Frame) : framesOf (fs.map Event.frame) = fs := by
  induction fs with
  | nil => rfl
  | cons f fs ih => simp [framesOf, ih]

theorem mem_of_framesOf {f : Frame} {os : List Event} (h : f ∈ framesOf os) :
    Event.frame f ∈ os := by
  induction os with
  | nil => cases h
  | cons o os ih =>
    cases o with
    | dropped => exact mem_cons_of_mem _ (ih h)
    | frame g =>
      rcases mem_cons.mp h with rfl | hrest
      · exact mem_cons_self
      · exact mem_cons_of_mem _ (ih hrest)

/-- How a call can end the program. -/
inductive Fault where
  | assert (index : Nat)
  | outOfTable
  deriving DecidableEq, Repr

/-- Call for frames until there is none, at most `n` times. -/
def drain (get : Gsm0710Buffer → GetFrame × Gsm0710Buffer) :
    Nat → Gsm0710Buffer → Except Fault (List Frame × Gsm0710Buffer)
  | 0, buf => .ok ([], buf)
  | n + 1, buf =>
    match get buf with
    | (.frame f, buf') =>
      match drain get n buf' with
      | .ok (fs, buf'') => .ok (f :: fs, buf'')
      | .error e => .error e
    | (.null _, buf') => .ok ([], buf')
    | (.assert index, _) => .error (.assert index)
    | (.outOfTable, _) => .error .outOfTable

/-- Store the pieces one after the other, draining the buffer after each. -/
def feed (get : Gsm0710Buffer → GetFrame × Gsm0710Buffer) :
    Gsm0710Buffer → List (List UInt8) → Except Fault (List Frame × Gsm0710Buffer)
  | buf, [] => .ok ([], buf)
  | buf, p :: ps =>
    match drain get (gsm0710BufferLength (gsm0710BufferWrite buf p) + 1)
        (gsm0710BufferWrite buf p) with
    | .error e => .error e
    | .ok (fs, buf') =>
      match feed get buf' ps with
      | .error e => .error e
      | .ok (gs, buf'') => .ok (fs ++ gs, buf'')

theorem exists_ok {α : Type} {e : Except Fault α} (h : e.isOk = true) : ∃ r, e = .ok r := by
  cases e with
  | error _ => exact absurd h (by simp [Except.isOk, Except.toBool])
  | ok r => exact ⟨r, rfl⟩

/-- A condition on the buffer and the piece about to be stored in it, at
every piece of a feed. -/
def Along (get : Gsm0710Buffer → GetFrame × Gsm0710Buffer)
    (cond : Gsm0710Buffer → List UInt8 → Prop) : Gsm0710Buffer → List (List UInt8) → Prop
  | _, [] => True
  | buf, p :: ps =>
    cond buf p ∧
      match drain get (gsm0710BufferLength (gsm0710BufferWrite buf p) + 1)
          (gsm0710BufferWrite buf p) with
      | .error _ => True
      | .ok (_, buf') => Along get cond buf' ps

instance Along.decidable (get : Gsm0710Buffer → GetFrame × Gsm0710Buffer)
    (cond : Gsm0710Buffer → List UInt8 → Prop) [inst : ∀ buf p, Decidable (cond buf p)] :
    ∀ buf ps, Decidable (Along get cond buf ps)
  | _, [] => .isTrue trivial
  | buf, p :: ps =>
    @instDecidableAnd _ _ (inst buf p)
      (match drain get (gsm0710BufferLength (gsm0710BufferWrite buf p) + 1)
          (gsm0710BufferWrite buf p) with
      | .error _ => .isTrue trivial
      | .ok (_, buf') => Along.decidable get cond buf' ps)

theorem Along.mono {get : Gsm0710Buffer → GetFrame × Gsm0710Buffer}
    {cond cond' : Gsm0710Buffer → List UInt8 → Prop} (h : ∀ buf p, cond buf p → cond' buf p)
    (ps : List (List UInt8)) {buf : Gsm0710Buffer} (halong : Along get cond buf ps) :
    Along get cond' buf ps := by
  induction ps generalizing buf with
  | nil => exact trivial
  | cons p ps ih =>
    obtain ⟨hhead, htail⟩ := halong
    refine ⟨h buf p hhead, ?_⟩
    split
    · exact trivial
    · next hd =>
      rw [hd] at htail
      exact ih htail

/-- Each piece is no longer than the free space it finds. -/
def Fits (get : Gsm0710Buffer → GetFrame × Gsm0710Buffer) :
    Gsm0710Buffer → List (List UInt8) → Prop :=
  Along get fun buf p => p.length ≤ gsm0710BufferFree buf

instance (get : Gsm0710Buffer → GetFrame × Gsm0710Buffer) (buf : Gsm0710Buffer)
    (ps : List (List UInt8)) : Decidable (Fits get buf ps) :=
  Along.decidable get _ buf ps

/-! ## What a call has to do with a run relation -/

section

variable {σ : Type} (Run : σ → List UInt8 → σ → List UInt8 → List Event → Prop)
  (Stuck : σ → List UInt8 → Prop) (abs : Gsm0710Buffer → σ)
  (Bad : σ → List UInt8 → List Event → Prop)

/-- From `buf` to `buf'` there is a run over the stored bytes with results
`os`, and `dropped_count` counts the frames thrown away. -/
structure Runs (buf buf' : Gsm0710Buffer) (os : List Event) : Prop where
  run : Run (abs buf) buf.unread (abs buf') buf'.unread os
  dropped : buf'.droppedCount = buf.droppedCount + os.count .dropped

/-- One call: a frame is the next one of the run and uses up bytes, `NULL`
means a standstill, and a call that ends the program has met something bad
on the way. -/
inductive CallSpec (buf : Gsm0710Buffer) : GetFrame × Gsm0710Buffer → Prop where
  | frame {f : Frame} {buf' : Gsm0710Buffer} {os : List Event} :
      Runs Run abs buf buf' os → framesOf os = [f] →
      gsm0710BufferLength buf' < gsm0710BufferLength buf → CallSpec buf (.frame f, buf')
  | null {signalled : Bool} {buf' : Gsm0710Buffer} {os : List Event} :
      Runs Run abs buf buf' os → framesOf os = [] → Stuck (abs buf') buf'.unread →
      CallSpec buf (.null signalled, buf')
  | assert {index : Nat} {buf' : Gsm0710Buffer} {s : σ} {ys : List UInt8} {os : List Event} :
      Run (abs buf) buf.unread s ys os → Bad s ys os → CallSpec buf (.assert index, buf')
  | outOfTable {buf' : Gsm0710Buffer} {s : σ} {ys : List UInt8} {os : List Event} :
      Run (abs buf) buf.unread s ys os → Bad s ys os → CallSpec buf (.outOfTable, buf')

/-- `get` follows the run relation when it is entered in a buffer that meets
`Entry`, which every buffer does that a frame was just taken from. Runs can
be put together, and stand when more bytes arrive. -/
structure Follows (Entry : Gsm0710Buffer → Prop)
    (get : Gsm0710Buffer → GetFrame × Gsm0710Buffer) : Prop where
  call : ∀ buf, Entry buf → CallSpec Run Stuck abs Bad buf (get buf)
  next : ∀ {buf buf' : Gsm0710Buffer} {f : Frame}, get buf = (.frame f, buf') → Entry buf'
  write : ∀ buf p, abs (gsm0710BufferWrite buf p) = abs buf
  refl : ∀ s xs, Run s xs s xs []
  trans : ∀ {s s' s'' : σ} {xs ys ws : List UInt8} {os ps : List Event},
    Run s xs s' ys os → Run s' ys s'' ws ps → Run s xs s'' ws (os ++ ps)
  append : ∀ {s s' : σ} {xs ys : List UInt8} {os : List Event}, Run s xs s' ys os →
    ∀ zs, Run s (xs ++ zs) s' (ys ++ zs) os
  bad_mono : ∀ {s : σ} {ys : List UInt8} {os : List Event}, Bad s ys os →
    ∀ zs ps, Bad s (ys ++ zs) (ps ++ os)

/-- Nothing bad lies ahead on `xs`. -/
def Safe (s : σ) (xs : List UInt8) : Prop := ∀ s' ys os, Run s xs s' ys os → ¬ Bad s' ys os

/-- Every piece finds the decoder in a buffer it may be entered in. -/
def Enters (Entry : Gsm0710Buffer → Prop) (get : Gsm0710Buffer → GetFrame × Gsm0710Buffer) :
    Gsm0710Buffer → List (List UInt8) → Prop :=
  Along get fun buf p => Entry (gsm0710BufferWrite buf p)

variable {Run Stuck abs Bad} {Entry : Gsm0710Buffer → Prop}
  {get : Gsm0710Buffer → GetFrame × Gsm0710Buffer}

/-- Two runs in a row, once their relation is known to compose. -/
theorem Runs.trans {buf buf' buf'' : Gsm0710Buffer} {os ps : List Event}
    (h₁ : Runs Run abs buf buf' os) (h₂ : Runs Run abs buf' buf'' ps)
    (hrun : Run (abs buf) buf.unread (abs buf'') buf''.unread (os ++ ps)) :
    Runs Run abs buf buf'' (os ++ ps) := by
  refine ⟨hrun, ?_⟩
  rw [h₂.dropped, h₁.dropped, count_append, Nat.add_assoc]

/-- A call that goes on behind a run without frames. -/
theorem CallSpec.after {Bad' : σ → List UInt8 → List Event → Prop} {buf mid : Gsm0710Buffer}
    {r : GetFrame × Gsm0710Buffer} {os : List Event} (hruns : Runs Run abs buf mid os)
    (hos : framesOf os = []) (hle : gsm0710BufferLength mid ≤ gsm0710BufferLength buf)
    (htrans : ∀ {s ys ps}, Run (abs mid) mid.unread s ys ps →
      Run (abs buf) buf.unread s ys (os ++ ps))
    (hbad : ∀ {s ys ps}, Bad s ys ps → Bad' s ys (os ++ ps))
    (h : CallSpec Run Stuck abs Bad mid r) : CallSpec Run Stuck abs Bad' buf r := by
  cases h with
  | frame hruns' hps hlt =>
    refine CallSpec.frame (hruns.trans hruns' (htrans hruns'.run)) ?_ (by omega)
    rw [framesOf_append, hos, hps, nil_append]
  | null hruns' hps hstuck =>
    refine CallSpec.null (hruns.trans hruns' (htrans hruns'.run)) ?_ hstuck
    rw [framesOf_append, hos, hps, nil_append]
  | assert hrun hb => exact CallSpec.assert (htrans hrun) (hbad hb)
  | outOfTable hrun hb => exact CallSpec.outOfTable (htrans hrun) (hbad hb)

variable (hf : Follows Run Stuck abs Bad Entry get)
include hf

/-- What is safe stays so along the way. -/
theorem Safe.later {s s' : σ} {xs ys zs : List UInt8} {os : List Event}
    (hsafe : Safe Run Bad s (xs ++ zs)) (h : Run s xs s' ys os) : Safe Run Bad s' (ys ++ zs) := by
  intro t ws ps hrun hbad
  have hmono := hf.bad_mono hbad [] os
  rw [append_nil] at hmono
  exact hsafe t ws (os ++ ps) (hf.trans (hf.append h zs) hrun) hmono

/-- What is safe is so for fewer bytes. -/
theorem Safe.fewer {s : σ} {xs zs : List UInt8}
    (hsafe : Safe Run Bad s (xs ++ zs)) : Safe Run Bad s xs := by
  intro t ws ps hrun hbad
  exact hsafe t (ws ++ zs) ps (hf.append hrun zs) (hf.bad_mono hbad zs [])

/-- Draining goes on to a standstill: each frame taken uses up a byte, so
the bytes stored bound the number of calls. -/
theorem drain_runs (n : Nat) {buf buf' : Gsm0710Buffer} {fs : List Frame} (hentry : Entry buf)
    (hn : gsm0710BufferLength buf < n) (h : drain get n buf = .ok (fs, buf')) :
    ∃ os, Runs Run abs buf buf' os ∧ framesOf os = fs ∧ Stuck (abs buf') buf'.unread := by
  induction n generalizing buf buf' fs with
  | zero => omega
  | succ n ih =>
    have hcall := hf.call buf hentry
    unfold drain at h
    cases hg : get buf with
    | mk g mid =>
      rw [hg] at h hcall
      cases hcall with
      | @frame f _ os hruns hos hlt =>
        simp only at h
        cases hd : drain get n mid with
        | error e => rw [hd] at h; cases h
        | ok r =>
          rw [hd] at h
          cases h
          obtain ⟨ps, hruns', hps, hstuck⟩ := ih (hf.next hg) (by omega) hd
          refine ⟨os ++ ps, hruns.trans hruns' (hf.trans hruns.run hruns'.run), ?_, hstuck⟩
          rw [framesOf_append, hos, hps, singleton_append]
      | null hruns hos hstuck =>
        cases h
        exact ⟨_, hruns, hos, hstuck⟩
      | assert _ _ => cases h
      | outOfTable _ _ => cases h

/-- Draining returns when nothing bad lies ahead. -/
theorem drain_returns (n : Nat) {buf : Gsm0710Buffer} (hentry : Entry buf)
    (hsafe : Safe Run Bad (abs buf) buf.unread) : ∃ r, drain get n buf = .ok r := by
  induction n generalizing buf with
  | zero => exact ⟨_, rfl⟩
  | succ n ih =>
    have hcall := hf.call buf hentry
    unfold drain
    cases hg : get buf with
    | mk g mid =>
      rw [hg] at hcall
      cases hcall with
      | @frame f _ os hruns _ _ =>
        have hlater : Safe Run Bad (abs mid) mid.unread := by
          have hnil : Safe Run Bad (abs buf) (buf.unread ++ []) := by rwa [append_nil]
          have h := hnil.later hf hruns.run
          rwa [append_nil] at h
        obtain ⟨r, hr⟩ := ih (hf.next hg) hlater
        exact ⟨(f :: r.1, r.2), by simp only [hr]⟩
      | null _ _ _ => exact ⟨_, rfl⟩
      | assert hrun hbad => exact absurd hbad (hsafe _ _ _ hrun)
      | outOfTable hrun hbad => exact absurd hbad (hsafe _ _ _ hrun)

/-- **A feed that returns is a run** over the stream its pieces make up, with
the frames and the count of dropped frames that the run gives. It ends at a
standstill if it started at one. -/
theorem feed_runs (ps : List (List UInt8)) {buf buf' : Gsm0710Buffer} {fs : List Frame}
    (hfits : Fits get buf ps) (henters : Enters Entry get buf ps)
    (h : feed get buf ps = .ok (fs, buf')) :
    ∃ os, Run (abs buf) (buf.unread ++ ps.flatten) (abs buf') buf'.unread os ∧
      framesOf os = fs ∧ buf'.droppedCount = buf.droppedCount + os.count .dropped ∧
      (Stuck (abs buf) buf.unread → Stuck (abs buf') buf'.unread) := by
  induction ps generalizing buf buf' fs with
  | nil =>
    cases h
    rw [flatten_nil, append_nil]
    exact ⟨[], hf.refl _ _, rfl, by simp, id⟩
  | cons p ps ih =>
    obtain ⟨hroom, hfits⟩ := hfits
    obtain ⟨hentry, henters⟩ := henters
    unfold feed at h
    cases hd : drain get (gsm0710BufferLength (gsm0710BufferWrite buf p) + 1)
        (gsm0710BufferWrite buf p) with
    | error e => rw [hd] at h; cases h
    | ok r =>
      obtain ⟨gs, mid⟩ := r
      simp only [hd] at h hfits henters
      cases hrest : feed get mid ps with
      | error e => rw [hrest] at h; cases h
      | ok r' =>
        rw [hrest] at h
        cases h
        obtain ⟨os, hruns, hos, hstuck⟩ := drain_runs hf _ hentry (Nat.lt_succ_self _) hd
        obtain ⟨qs, hlater, hqs, hcount, hend⟩ := ih hfits henters hrest
        have hrun := hruns.run
        rw [hf.write, unread_write hroom] at hrun
        refine ⟨os ++ qs, ?_, ?_, ?_, fun _ => hend hstuck⟩
        · rw [flatten_cons, ← append_assoc]
          exact hf.trans (hf.append hrun _) hlater
        · rw [framesOf_append, hos, hqs]
        · have hwrite : (gsm0710BufferWrite buf p).droppedCount = buf.droppedCount := rfl
          rw [hcount, hruns.dropped, hwrite, count_append, Nat.add_assoc]

/-- **A feed returns** when nothing bad lies ahead on the stream. -/
theorem feed_returns (ps : List (List UInt8)) {buf : Gsm0710Buffer} (hfits : Fits get buf ps)
    (henters : Enters Entry get buf ps)
    (hsafe : Safe Run Bad (abs buf) (buf.unread ++ ps.flatten)) :
    ∃ r, feed get buf ps = .ok r := by
  induction ps generalizing buf with
  | nil => exact ⟨_, rfl⟩
  | cons p ps ih =>
    obtain ⟨hroom, hfits⟩ := hfits
    obtain ⟨hentry, henters⟩ := henters
    rw [flatten_cons, ← append_assoc, ← unread_write hroom, ← hf.write buf p] at hsafe
    obtain ⟨r, hd⟩ := drain_returns hf (gsm0710BufferLength (gsm0710BufferWrite buf p) + 1)
      hentry (hsafe.fewer hf)
    obtain ⟨fs, mid⟩ := r
    simp only [hd] at hfits henters
    obtain ⟨os, hruns, _, _⟩ := drain_runs hf _ hentry (Nat.lt_succ_self _) hd
    obtain ⟨r', hrest⟩ := ih hfits henters (hsafe.later hf hruns.run)
    refine ⟨(fs ++ r'.1, r'.2), ?_⟩
    unfold feed
    simp only [hd, hrest]

end

/-- A decoder that may be entered in any buffer is so at every piece. -/
theorem enters_of_true (get : Gsm0710Buffer → GetFrame × Gsm0710Buffer) (ps : List (List UInt8))
    (buf : Gsm0710Buffer) : Enters (fun _ => True) get buf ps := by
  induction ps generalizing buf with
  | nil => exact trivial
  | cons p ps ih =>
    refine ⟨trivial, ?_⟩
    split
    · exact trivial
    · exact ih _

end Arale.Mux
