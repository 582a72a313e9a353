import Arale.C2k.PdnTable

/-!
# A failed handover from C2K

When a handover starts, `onIratSourceStarted` suspends the interfaces of the
active PDNs. If it fails, `onIratSourceFinished` resumes those of the PDNs that
are active then, and sends `AT+CGACT=0` again for the ones marked `NEED_DEACT`.
In between, requests and the lines of `AT+CGACT?` change that mark.

`Owed` says why nothing is forgotten: whatever is suspended still has an active
PDN, and whatever was refused is still marked. It is kept if the modem reports
no refused PDN at all, and no active one as inactive.
-/

namespace Arale.C2k.Irat

open List
open Arale.Lib

variable {n : Nat}

/-- What happens between the two events of a handover. -/
inductive DataAct (n : Nat) where
  | requestDeactive (interfaceId : Int) (reply : Fin n → Option Int)
  | refresh (responseCid : Fin n) (state : Int)

def dataStep (p : Pdns n) : DataAct n → Option (Pdns n)
  | .requestDeactive interfaceId reply => some (p.requestDeactiveDataCall interfaceId reply)
  | .refresh responseCid state => some (p.updateActiveStatus responseCid state)

/-- The requests name an interface, and the modem reports no PDN that was refused
and no active one as inactive. -/
def spares (p : Pdns n) : DataAct n → Prop
  | .requestDeactive interfaceId _ => interfaceId ≠ invalidCid
  | .refresh i state =>
    (p.info i).active ≠ stateNeedDeact ∧ ((p.info i).active = stateActive → 0 < state)

instance (p : Pdns n) : (act : DataAct n) → Decidable (spares p act)
  | .requestDeactive interfaceId _ => inferInstanceAs (Decidable (interfaceId ≠ invalidCid))
  | .refresh i state => inferInstanceAs (Decidable ((p.info i).active ≠ stateNeedDeact
      ∧ ((p.info i).active = stateActive → 0 < state)))

/-- An interface is resumed or disabled. -/
def restores (f : Int) (c : NetCall n) : Prop := c = .resume f ∨ c = .disable f

instance (f : Int) : DecidablePred (restores (n := n) f) := fun c =>
  inferInstanceAs (Decidable (c = .resume f ∨ c = .disable f))

/-- The interface is suspended, and was neither resumed nor disabled since. -/
def Suspended (p : Pdns n) (f : Int) : Prop := Stands (.suspend f) (restores f) p.log

/-- The PDN was refused, and `AT+CGACT=0` was not sent for it since. -/
def Refused (p : Pdns n) (i : Fin n) : Prop := Stands (.refused i) (· = .deactivate i) p.log

/-- A bound record has its own cid, and an active one is bound. -/
structure Proper (i : Fin n) (info : PdnInfo n) : Prop where
  own : info.interfaceId ≠ invalidCid → info.cid = some i
  active : info.active = stateActive → info.interfaceId ≠ invalidCid

/-- To be deactivated once more. -/
def Marked (info : PdnInfo n) : Prop :=
  info.active = stateNeedDeact ∧ info.interfaceId ≠ invalidCid

/-- What is suspended has an active PDN, and what was refused is marked. -/
structure Owed (p : Pdns n) : Prop where
  proper : ∀ i, Proper i (p.info i)
  suspended : ∀ f, Suspended p f → ∃ i, (p.info i).active = stateActive ∧ (p.info i).interfaceId = f
  refused : ∀ i, Refused p i → Marked (p.info i)

section Steps

variable {p : Pdns n} {f : Int} {i : Fin n}

theorem Owed.started {table : Fin n → PdnInfo n} (htable : ∀ i, Proper i (table i)) :
    Owed (Pdns.onIratSourceStarted ⟨table, []⟩) := by
  refine ⟨htable, fun f hf => ?_, fun i hi => ?_⟩
  · obtain ⟨i, hi, hbound⟩ := Pdns.mem_forRecords.mp hf.mem
    exact ⟨i, eq_of_beq hi, NetCall.suspend.inj hbound⟩
  · obtain ⟨_, -, hcall⟩ := Pdns.mem_forRecords.mp hi.mem
    cases hcall

theorem info_setActive (p : Pdns n) (i : Fin n) (state : Int) (j : Fin n) :
    (p.setActive i state).info j
      = { p.info j with active := if j = i then state else (p.info j).active } := by
  by_cases hj : j = i
  · subst hj
    simp [Pdns.setActive, Pdns.set]
  · simp [Pdns.setActive, Pdns.set, hj]

theorem proper_setActive (h : ∀ j, Proper j (p.info j)) {state : Int}
    (hstate : state = stateActive → (p.info i).interfaceId ≠ invalidCid) (j : Fin n) :
    Proper j ((p.setActive i state).info j) := by
  rw [info_setActive]
  refine ⟨(h j).own, fun hactive => ?_⟩
  by_cases hj : j = i
  · subst hj
    exact hstate ((if_pos rfl).symm.trans hactive)
  · exact (h j).active ((if_neg hj).symm.trans hactive)

theorem Owed.refresh (h : Owed p) {state : Int} (hspares : spares p (.refresh i state)) :
    Owed (p.updateActiveStatus i state) := by
  obtain ⟨hneed, hactive⟩ := hspares
  refine ⟨proper_setActive h.proper ?_, fun f hf => ?_, fun j hj => ?_⟩
  · intro hstate
    split at hstate
    · split at hstate
      · cases hstate
      · assumption
    · next hle => exact absurd (hstate ▸ (by decide : stateActive > 0)) hle
  · obtain ⟨j, hj, hbound⟩ := h.suspended f hf
    refine ⟨j, ?_, ?_⟩ <;> rw [Pdns.updateActiveStatus, info_setActive]
    · by_cases hji : j = i
      · subst hji
        simp [hactive hj, (h.proper j).active hj]
      · exact (if_neg hji).trans hj
    · exact hbound
  · obtain ⟨hmarked, hbound⟩ := h.refused j hj
    have hji : j ≠ i := fun heq => hneed (heq ▸ hmarked)
    rw [Pdns.updateActiveStatus, info_setActive]
    exact ⟨(if_neg hji).trans hmarked, hbound⟩

/-- The loop of a request goes on while the modem agrees, and ends with a PDN that
it refuses to deactivate. -/
theorem deactivateLoop_eq (f : Int) (reply : Fin n → Option Int) (is : List (Fin n)) (p : Pdns n) :
    ∃ sent : List (Fin n),
      (Pdns.deactivateLoop f reply is p = (p.call (sent.map .deactivate), true)
        ∧ ∀ i ∈ is, (p.info i).interfaceId = f → i ∈ sent)
      ∨ Pdns.deactivateLoop f reply is p = (p.call (sent.map .deactivate), false)
      ∨ ∃ i, (p.info i).interfaceId = f ∧ Pdns.deactivateLoop f reply is p
        = ((p.call (sent.map .deactivate ++ [.refused i])).setActive i stateNeedDeact, false) := by
  induction is generalizing p with
  | nil => exact ⟨[], .inl ⟨by simp [Pdns.deactivateLoop, Pdns.call], by simp⟩⟩
  | cons j is ih =>
    unfold Pdns.deactivateLoop
    by_cases hj : (p.info j).interfaceId = f
    · rw [if_pos hj]
      cases reply j with
      | none =>
        obtain ⟨sent, ⟨hloop, hall⟩ | hstopped⟩ := ih (p.call [.deactivate j])
        · refine ⟨j :: sent, .inl ⟨by simpa [Pdns.call] using hloop, fun i hi hbound => ?_⟩⟩
          rcases mem_cons.mp hi with rfl | hi
          · exact mem_cons_self
          · exact mem_cons_of_mem _ (hall i hi hbound)
        · refine ⟨j :: sent, .inr ?_⟩
          simpa [Pdns.call, Pdns.setActive, Pdns.set] using hstopped
      | some errCode =>
        refine ⟨[j], .inr ?_⟩
        dsimp only
        split
        · exact .inr ⟨j, hj, rfl⟩
        · exact .inl rfl
    · simpa [hj] using ih p

/-- An interface is disabled after other calls. Its records may change, if those
that are still refused then are marked. -/
theorem Owed.disabled (h : Owed p) (hf : f ≠ invalidCid) (info : Fin n → PdnInfo n)
    {calls : List (NetCall n)} {info' : Fin n → PdnInfo n} (hproper : ∀ i, Proper i (info' i))
    (hbound : ∀ i, (info i).interfaceId = (p.info i).interfaceId)
    (hsuspend : ∀ g, .suspend g ∉ calls)
    (hinfo : ∀ i, info' i = p.info i ∧ .refused i ∉ calls ∨ (p.info i).interfaceId = f
      ∧ (Marked (info' i) ∨ .refused i ∉ calls ∧ .deactivate i ∈ calls)) :
    Owed ⟨info', p.log ++ calls ++ Pdns.disables info f⟩ := by
  refine ⟨hproper, fun g hg => ?_, fun i hi => ?_⟩
  · obtain ⟨hcalls, hnone⟩ := hg.of_append (by simp [Pdns.mem_disables])
    obtain ⟨i, hactive, hg⟩ := h.suspended g (hcalls.of_append (hsuspend g)).1
    rcases hinfo i with ⟨hsame, -⟩ | ⟨hi, -⟩
    · refine ⟨i, ?_⟩
      dsimp only
      rw [hsame]
      exact ⟨hactive, hg⟩
    · have hdisable := Pdns.mem_disables.mpr ⟨hf, ⟨i, (hbound i).trans hi⟩, rfl⟩
      exact absurd (.inr (by rw [← hi, hg])) (hnone _ hdisable)
  · have hcalls := (hi.of_append (by simp [Pdns.mem_disables])).1
    rcases hinfo i with ⟨hsame, hnew⟩ | ⟨-, hmarked | ⟨hnew, hsent⟩⟩
    · dsimp only
      rw [hsame]
      exact h.refused i (hcalls.of_append hnew).1
    · exact hmarked
    · exact absurd rfl ((hcalls.of_append hnew).2 _ hsent)

theorem Owed.request (hf : f ≠ invalidCid) (reply : Fin n → Option Int) (h : Owed p) :
    Owed (p.requestDeactiveDataCall f reply) := by
  unfold Pdns.requestDeactiveDataCall
  obtain ⟨sent, ⟨hloop, hall⟩ | hloop | ⟨i, hi, hloop⟩⟩ :=
    deactivateLoop_eq f reply (finRange n) p <;> rw [hloop]
  · refine h.disabled hf p.info (fun i => ?_) (fun _ => rfl) (by simp) fun i => ?_
    · by_cases hi : (p.info i).interfaceId = f
      · refine (congrArg (Proper i) (if_pos hi)).mpr ⟨fun hinvalid => absurd rfl hinvalid, ?_⟩
        exact fun hstate => by cases hstate
      · exact (congrArg (Proper i) (if_neg hi)).mpr (h.proper i)
    · by_cases hi : (p.info i).interfaceId = f
      · refine .inr ⟨hi, .inr ⟨by simp, ?_⟩⟩
        exact mem_map_of_mem (hall i (mem_finRange i) hi)
      · exact .inl ⟨if_neg hi, by simp⟩
  · exact h.disabled hf p.info h.proper (fun _ => rfl) (by simp) fun i => .inl ⟨rfl, by simp⟩
  · refine h.disabled hf _ (proper_setActive h.proper fun hstate => by cases hstate) (fun j => ?_)
      (by simp) fun j => ?_
    · rw [info_setActive]
      rfl
    · rw [info_setActive]
      by_cases hj : j = i
      · subst hj
        exact .inr ⟨hi, .inl ⟨if_pos rfl, hi.symm ▸ hf⟩⟩
      · exact .inl ⟨by rw [if_neg hj]; rfl, by simp [hj]⟩

theorem Owed.step {act : DataAct n} {p' : Pdns n} (h : Owed p) (hspares : spares p act)
    (hstep : dataStep p act = some p') : Owed p' := by
  cases act with
  | requestDeactive interfaceId reply =>
    cases hstep
    exact h.request hspares reply
  | refresh responseCid state =>
    cases hstep
    exact h.refresh hspares

/-! ## The end of the handover -/

/-- A retry sends commands to the PDNs whose records it changes. -/
theorem retryDeactivate_calls (reply : Fin n → Option Int) (p : Pdns n) (i : Fin n) :
    ∃ calls, (p.retryDeactivate reply i).log = p.log ++ calls
      ∧ (∀ c ∈ calls, (∃ j, c = .deactivate j) ∨ ∃ f, c = .disable f)
      ∧ (∀ j, .deactivate j ∈ calls ∨ (p.retryDeactivate reply i).info j = p.info j)
      ∧ ((p.info i).active = stateNeedDeact → (p.info i).cid = some i → .deactivate i ∈ calls) := by
  unfold Pdns.retryDeactivate
  cases hcid : (p.info i).cid with
  | none => exact ⟨[], by simp⟩
  | some cid =>
    dsimp only
    split
    · obtain ⟨calls, info, heq, hdisables⟩ := Pdns.deactivatePdnByCid_eq p cid (reply i)
      rw [heq]
      refine ⟨.deactivate cid :: calls, rfl, fun c hc => ?_, fun j => ?_, fun _ hown => ?_⟩
      · rcases mem_cons.mp hc with rfl | hc
        · exact .inl ⟨cid, rfl⟩
        · exact .inr (hdisables c hc)
      · by_cases hj : j = cid
        · exact .inl (hj ▸ mem_cons_self)
        · exact .inr (Function.update_of_ne hj _ _)
      · cases hown
        exact mem_cons_self
    · next hunmarked => exact ⟨[], by simp [hunmarked]⟩

/-- The command is sent to every PDN that is marked when the loop begins. -/
theorem retries_calls (reply : Fin n → Option Int) (is : List (Fin n)) (p : Pdns n) :
    ∃ calls, (is.foldl (Pdns.retryDeactivate reply) p).log = p.log ++ calls
      ∧ (∀ c ∈ calls, (∃ j, c = .deactivate j) ∨ ∃ f, c = .disable f)
      ∧ ∀ i ∈ is, (p.info i).active = stateNeedDeact → (p.info i).cid = some i →
        .deactivate i ∈ calls := by
  induction is generalizing p with
  | nil => exact ⟨[], by simp⟩
  | cons j is ih =>
    obtain ⟨first, hfirst, honly, hkept, hsent⟩ := retryDeactivate_calls reply p j
    obtain ⟨rest, hrest, honly', hsent'⟩ := ih (p.retryDeactivate reply j)
    refine ⟨first ++ rest, ?_, ?_, fun i hi hactive hcid => mem_append.mpr ?_⟩
    · rw [foldl_cons, hrest, hfirst, append_assoc]
    · intro c hc
      exact (mem_append.mp hc).elim (honly c) (honly' c)
    · rcases mem_cons.mp hi with rfl | hi
      · exact .inl (hsent hactive hcid)
      · rcases hkept i with hsent | hsame
        · exact .inl hsent
        · exact .inr (hsent' i hi (hsame ▸ hactive) (hsame ▸ hcid))

end Steps

/-- **A failed handover restores data.** In a run that meets `spares`, every
interface suspended at the start is resumed or disabled, and `AT+CGACT=0` is sent
again for every PDN that was refused. -/
theorem failed_handover_restores {table : Fin n → PdnInfo n} {acts : List (DataAct n)} {p : Pdns n}
    (htable : ∀ i, Proper i (table i))
    (hrun : Run dataStep spares (Pdns.onIratSourceStarted ⟨table, []⟩) acts p)
    (reply : Fin n → Option Int) :
    (∀ f, ¬ Suspended (p.onIratSourceFinished .failed reply) f)
      ∧ ∀ i, ¬ Refused (p.onIratSourceFinished .failed reply) i := by
  have howed : Owed p :=
    hrun.invariant (fun _ _ _ h hspares hstep => h.step hspares hstep) (.started htable)
  obtain ⟨calls, hlog, honly, hsent⟩ :=
    retries_calls reply (finRange n) p.resumeAllDataTransmit
  constructor
  · intro f hf
    rw [Suspended, Pdns.onIratSourceFinished, hlog] at hf
    obtain ⟨hbefore, hnone⟩ := (hf.of_append fun hmem => by simpa using honly _ hmem).1.of_append
      (by simp [Pdns.mem_forRecords])
    obtain ⟨i, hactive, hbound⟩ := howed.suspended f hbefore
    exact hnone _ (Pdns.mem_forRecords.mpr ⟨i, by simp [hactive], by rw [hbound]⟩) (.inl rfl)
  · intro i hi
    rw [Refused, Pdns.onIratSourceFinished, hlog] at hi
    obtain ⟨hbefore, hnone⟩ := hi.of_append fun hmem => by simpa using honly _ hmem
    obtain ⟨hmarked, hbound⟩ :=
      howed.refused i (hbefore.of_append (by simp [Pdns.mem_forRecords])).1
    exact hnone _ (hsent i (mem_finRange i) hmarked ((howed.proper i).own hbound)) rfl

/-- Two active PDNs on interfaces of their own. -/
def twoPdns (i : Fin 2) : PdnInfo 2 := ⟨i.val, i.val, some i, false, stateActive⟩

/-- The modem asks for a retry. -/
def refuse (_ : Fin 2) : Option Int := some deactRetryNeeded

/-- One PDN is reported active, and the other one is refused. -/
theorem failed_handover_restores_two :
    ∃ p, Run dataStep spares (Pdns.onIratSourceStarted ⟨twoPdns, []⟩)
        [.refresh 0 1, .requestDeactive 1 refuse] p
      ∧ Suspended p 0 ∧ Refused p 1 ∧ ∀ reply,
        (∀ f, ¬ Suspended (p.onIratSourceFinished .failed reply) f)
          ∧ ∀ i, ¬ Refused (p.onIratSourceFinished .failed reply) i := by
  refine Run.exists_of_exec (A := fun p => Stands (.suspend 0) (restores 0) p.log
    ∧ Stands (.refused 1) (· = .deactivate 1) p.log) (by decide +kernel) ?_
  rintro p hrun ⟨hsuspended, hrefused⟩
  exact ⟨hsuspended, hrefused,
    failed_handover_restores (fun i => ⟨fun _ => rfl, by decide +revert⟩) hrun⟩

/-- An active PDN is reported inactive, and its interface stays suspended. A PDN
that was refused is reported active, and is not deactivated again. -/
theorem failed_handover_forgets :
    (∃ p, Run dataStep anyStep (Pdns.onIratSourceStarted ⟨twoPdns, []⟩) [.refresh 0 0] p
      ∧ Stands (.suspend 0) (restores 0) (p.onIratSourceFinished .failed refuse).log)
    ∧ ∃ p, Run dataStep anyStep (Pdns.onIratSourceStarted ⟨twoPdns, []⟩)
        [.requestDeactive 1 refuse, .refresh 1 1] p
      ∧ Stands (.refused 1) (· = .deactivate 1) (p.onIratSourceFinished .failed refuse).log :=
  ⟨Run.exists_of_exec (by decide +kernel) fun _ _ h => h,
    Run.exists_of_exec (by decide +kernel) fun _ _ h => h⟩

end Arale.C2k.Irat
