import Arale.Ril.EventLoop

/-!
# Which deleted events still fire

`ril_event_del` is to stop the callback of an event, but it only takes the event
out of `watch_table`: what is in `timer_list` or in `pending_list` stays there
and is fired. An event in neither of them is never called back again after
`ril_event_del`, unless it is added again.

An event is in a list if some node leads to it (`inLists`). `Gone s ev` says that
nothing leads to `ev` any more: no node, no slot of the table, and not the loop of
`firePending`. Whatever the loop and the callers do then, they come to events only
along these ways, so they never come to `ev` (`Gone.step`).
-/

namespace Arale.Ril.EventLoop

open List
open Arale.Lib (Links Avoids Run)

variable {n : Nat}

/-! ## The table -/

/-- The event is in `timer_list` or in `pending_list`. -/
def inLists (s : EventState n) (ev : Fin n) : Prop :=
  ∃ node, s.links.next node = some (.event ev) ∨ s.links.prev node = some (.event ev)

/-- The call adds the event. -/
def EventAct.adds (ev : Fin n) : EventAct n → Bool
  | .add e => e = ev
  | .timerAdd e tv _ => tv.isSome && e = ev
  | _ => false

/-- An event that is watched is not set up or added. -/
def proper (s : EventState n) : EventAct n → Prop
  | .set ev _ _ | .add ev => some ev ∉ s.watchTable
  | _ => True

instance (s : EventState n) (act : EventAct n) : Decidable (proper s act) :=
  match act with
  | .set ev _ _ | .add ev => inferInstanceAs (Decidable (some ev ∉ s.watchTable))
  | .copyFds | .selected _ | .interrupted | .failed | .timeouts _ | .readies | .fire
  | .timerAdd .. | .del _ => .isTrue trivial

/-- An event in the table knows its slot. -/
structure Slots (s : EventState n) : Prop where
  length : s.watchTable.length = maxFdEvents
  index : ∀ (i : Nat) ev, s.watchTable[i]? = some (some ev) → (s.events ev).index = i

section Table

variable {s : EventState n} {ev : Fin n} {i : Nat}

/-- What `removeWatch` leaves alone. -/
theorem removeWatch_eq (s : EventState n) (ev : Fin n) (i : Nat) : ∃ events readFds nfds,
    removeWatch s ev i
        = ⟨s.links, events, s.watchTable.set i none, readFds, nfds, s.pc, s.fired⟩
      ∧ ∀ e, e ≠ ev → (events e).index = (s.events e).index := by
  unfold removeWatch
  dsimp only
  split
  · exact ⟨_, _, _, rfl, fun e hne => by simp [modifyEvent, hne]⟩
  · exact ⟨_, _, _, rfl, fun e hne => by simp [modifyEvent, hne]⟩

/-- A slot that is not empty after another one is cleared. -/
theorem getElem?_clear {table : List (Option (Fin n))} {j : Nat}
    (h : (table.set i none)[j]? = some (some ev)) : i ≠ j ∧ table[j]? = some (some ev) := by
  rw [List.getElem?_set] at h
  split at h
  · split at h <;> cases h
  · next hne => exact ⟨hne, h⟩

theorem mem_of_clear {table : List (Option (Fin n))} (h : some ev ∈ table.set i none) :
    some ev ∈ table := by
  obtain ⟨j, hj⟩ := mem_iff_getElem?.mp h
  exact mem_of_getElem? (getElem?_clear hj).2

/-- An event that is removed from its slot is not in the table any more. -/
theorem Slots.removed (h : Slots s) (hindex : (s.events ev).index = i) :
    some ev ∉ (removeWatch s ev i).watchTable := by
  obtain ⟨_, _, _, hremove, -⟩ := removeWatch_eq s ev i
  rw [hremove]
  intro hmem
  obtain ⟨j, hj⟩ := mem_iff_getElem?.mp hmem
  obtain ⟨hne, hj⟩ := getElem?_clear hj
  have heq := h.index j ev hj
  omega

theorem Slots.removeWatch (h : Slots s) (hindex : (s.events ev).index = i) :
    Slots (removeWatch s ev i) := by
  have hremoved := h.removed hindex
  obtain ⟨_, _, _, hremove, hkept⟩ := removeWatch_eq s ev i
  rw [hremove] at hremoved ⊢
  refine ⟨(length_set ..).trans h.length, fun j e hj => ?_⟩
  have hne : e ≠ ev := fun heq => hremoved (heq ▸ mem_of_getElem? hj)
  exact (hkept e hne).trans (h.index j e (getElem?_clear hj).2)

/-- `ril_event_del` leaves all as it is, or removes the event from the slot it
knows. -/
theorem rilEventDel_cases (s : EventState n) (ev : Fin n) :
    (rilEventDel s ev = s ∧ ((s.events ev).index < 0 ∨ maxFdEvents ≤ (s.events ev).index))
      ∨ ∃ i : Nat, (s.events ev).index = i ∧ rilEventDel s ev = removeWatch s ev i := by
  unfold rilEventDel
  dsimp only
  split
  · next hrange => exact .inl ⟨rfl, hrange⟩
  · next hrange => exact .inr ⟨_, by omega, rfl⟩

/-- A deleted event is not in the table. -/
theorem Slots.deleted (h : Slots s) (ev : Fin n) : some ev ∉ (rilEventDel s ev).watchTable := by
  rcases rilEventDel_cases s ev with ⟨hsame, hrange⟩ | ⟨i, hindex, hremove⟩
  · rw [hsame]
    intro hmem
    obtain ⟨i, hi⟩ := mem_iff_getElem?.mp hmem
    have hlt : i < s.watchTable.length := (List.getElem?_eq_some_iff.mp hi).1
    have hindex := h.index i ev hi
    rw [h.length] at hlt
    omega
  · rw [hremove]
    exact h.removed hindex

/-- What adding an event of the table to `pending_list` and removing it from its
slot keep, `processReadReadies` keeps. -/
theorem readyLoop_keeps {P : EventState n → Prop} {ready : List Int}
    (hkeeps : ∀ (s : EventState n) (i : Nat) rev s', P s → s.watchTable[i]? = some (some rev) →
      addToList s rev .pendingList = some s' → P s' ∧ P (removeWatch s' rev i))
    {is : List Nat} {count : Nat} {s s' : EventState n} (hs : P s)
    (h : readyLoop ready is count s = some s') : P s' := by
  induction is generalizing count s with
  | nil => exact Option.some.inj h ▸ hs
  | cons i is ih =>
    unfold readyLoop at h
    split at h
    · exact Option.some.inj h ▸ hs
    · split at h
      · exact ih hs h
      · next rev hrev =>
        split at h
        · obtain ⟨s₁, hadd, hrest⟩ := Option.bind_eq_some_iff.mp h
          have hslot : s.watchTable[i]? = some (some rev) := by
            rw [getD_eq_getElem?_getD, Option.getD_eq_iff] at hrev
            rcases hrev with hslot | ⟨-, hnone⟩
            · exact hslot
            · cases hnone
          obtain ⟨hadded, hremoved⟩ := hkeeps s i rev s₁ hs hslot hadd
          split at hrest
          · exact ih hadded hrest
          · exact ih hremoved hrest
        · exact ih hs h

/-- Only the links change. -/
theorem addToList_eq {s s' : EventState n} {list : Node n} (h : addToList s ev list = some s') :
    ∃ l, s.links.insertBefore (.event ev) list = some l ∧ s' = { s with links := l } := by
  obtain ⟨l, hl, hs⟩ := Option.map_eq_some_iff.mp h
  exact ⟨l, hl, hs.symm⟩

theorem Slots.processReadReadies {s' : EventState n} {ready : List Int} (h : Slots s)
    (hprocess : processReadReadies s ready = some s') : Slots s' := by
  refine readyLoop_keeps ?_ h hprocess
  intro s i rev s' hs hslot hadd
  obtain ⟨l, -, rfl⟩ := addToList_eq hadd
  have hslots : Slots { s with links := l } := ⟨hs.length, hs.index⟩
  exact ⟨hslots, hslots.removeWatch (hs.index i rev hslot)⟩

end Table

/-! ## Nothing leads to the event -/

section Gone

variable {s s' : EventState n} {ev : Fin n} {act : EventAct n}

/-- Nothing leads to the event any more. -/
structure Gone (s : EventState n) (ev : Fin n) : Prop where
  links : Avoids s.links (.event ev)
  loop : s.pc ≠ .firing (.event ev)
  table : some ev ∉ s.watchTable

theorem pendingList_ne (ev : Fin n) : Node.pendingList ≠ .event ev := by simp

theorem findTimer_avoids {timeout fuel : Nat} {list node : Node n}
    (hlinks : Avoids s.links (.event ev)) (hlist : list ≠ .event ev)
    (h : findTimer s timeout fuel list = some node) : node ≠ .event ev := by
  induction fuel generalizing list with
  | zero => cases h
  | succ fuel ih =>
    unfold findTimer at h
    split at h
    · obtain ⟨next, hnext, hrest⟩ := Option.bind_eq_some_iff.mp h
      exact ih (fun heq => hlinks.next list (heq ▸ hnext)) hrest
    · exact Option.some.inj h ▸ hlist

/-- `processTimeouts` only changes links, and comes to events along them. -/
theorem timeoutLoop_avoids {now fuel : Nat} {tev : Node n}
    (h : timeoutLoop now fuel tev s = some s') :
    ∃ l, s' = { s with links := l } ∧
      ∀ ev, Avoids s.links (.event ev) → tev ≠ .event ev → Avoids l (.event ev) := by
  induction fuel generalizing tev s with
  | zero => cases h
  | succ fuel ih =>
    unfold timeoutLoop at h
    split at h
    · next e =>
      split at h
      · obtain ⟨next, hnext, h⟩ := Option.bind_eq_some_iff.mp h
        obtain ⟨s₁, hremove, h⟩ := Option.bind_eq_some_iff.mp h
        obtain ⟨s₂, hadd, h⟩ := Option.bind_eq_some_iff.mp h
        obtain ⟨l₁, hl₁, rfl⟩ := Option.map_eq_some_iff.mp hremove
        obtain ⟨l₂, hl₂, rfl⟩ := addToList_eq hadd
        obtain ⟨l, rfl, hl⟩ := ih h
        refine ⟨l, rfl, fun ev hlinks hne => hl ev ?_ fun heq => hlinks.next _ (heq ▸ hnext)⟩
        exact (hlinks.remove hl₁).insertBefore hne (pendingList_ne ev) hl₂
      · exact ⟨s.links, (Option.some.inj h).symm, fun _ hlinks _ => hlinks⟩
    · exact ⟨s.links, (Option.some.inj h).symm, fun _ hlinks _ => hlinks⟩

/-- The event stays out of reach, and others are fired. -/
def Silent (s s' : EventState n) (ev : Fin n) : Prop :=
  Gone s' ev ∧ ∃ more, s'.fired = s.fired ++ more ∧ ev ∉ more

theorem Gone.silent (h : Gone s' ev) (hfired : s'.fired = s.fired) : Silent s s' ev :=
  ⟨h, [], by simpa using hfired, not_mem_nil⟩

theorem Gone.processReadReadies {ready : List Int} (h : Gone s ev)
    (hprocess : processReadReadies s ready = some s') :
    Avoids s'.links (.event ev) ∧ some ev ∉ s'.watchTable ∧ s'.fired = s.fired := by
  refine readyLoop_keeps (P := fun u => Avoids u.links (.event ev) ∧ some ev ∉ u.watchTable
    ∧ u.fired = s.fired) ?_ ⟨h.links, h.table, rfl⟩ hprocess
  rintro u i rev u' ⟨hlinks, htable, hfired⟩ hslot hadd
  obtain ⟨l, hl, rfl⟩ := addToList_eq hadd
  have hrev : Node.event rev ≠ .event ev := by
    rintro ⟨⟩
    exact htable (mem_of_getElem? hslot)
  have havoids := hlinks.insertBefore hrev (pendingList_ne ev) hl
  obtain ⟨_, _, _, hremove, -⟩ := removeWatch_eq { u with links := l } rev i
  rw [hremove]
  exact ⟨⟨havoids, htable, hfired⟩, havoids, fun hmem => htable (mem_of_clear hmem), hfired⟩

/-- What the loop does: it only goes on, moves expired timers or what is ready, or
fires the event it is at. -/
theorem loopStep_cases (hstep : loopStep s act = some s') :
    (∃ pc, (∀ ev, pc ≠ .firing (.event ev)) ∧ s' = { s with pc := pc })
      ∨ (∃ now ready tev u, s.links.next .timerList = some tev
        ∧ timeoutLoop now (n + 1) tev s = some u ∧ s' = { u with pc := .readies ready })
      ∨ (∃ ready u first, processReadReadies s ready = some u
        ∧ u.links.next .pendingList = some first ∧ s' = { u with pc := .firing first })
      ∨ ∃ e next l, s.pc = .firing (.event e) ∧ s.links.next (.event e) = some next
        ∧ s.links.remove (.event e) = some l
        ∧ s' = { s with links := l, pc := .firing next, fired := s.fired ++ [e] } := by
  cases act with
  | copyFds =>
    obtain ⟨-, hstep⟩ := Option.ite_none_right_eq_some.mp hstep
    exact .inl ⟨_, by simp, (Option.some.inj hstep).symm⟩
  | selected ready =>
    simp only [loopStep] at hstep
    split at hstep
    · obtain ⟨-, hstep⟩ := Option.ite_none_right_eq_some.mp hstep
      exact .inl ⟨_, by simp, (Option.some.inj hstep).symm⟩
    · cases hstep
  | interrupted | failed =>
    simp only [loopStep] at hstep
    split at hstep
    · exact .inl ⟨_, by simp, (Option.some.inj hstep).symm⟩
    · cases hstep
  | timeouts now =>
    simp only [loopStep] at hstep
    split at hstep
    · next ready _ =>
      obtain ⟨u, hprocess, hu⟩ := Option.map_eq_some_iff.mp hstep
      obtain ⟨tev, htev, hloop⟩ := Option.bind_eq_some_iff.mp hprocess
      exact .inr (.inl ⟨now, ready, tev, u, htev, hloop, hu.symm⟩)
    · cases hstep
  | readies =>
    simp only [loopStep] at hstep
    split at hstep
    · next ready _ =>
      obtain ⟨u, hprocess, hstep⟩ := Option.bind_eq_some_iff.mp hstep
      obtain ⟨first, hfirst, hu⟩ := Option.bind_eq_some_iff.mp hstep
      exact .inr (.inr (.inl ⟨ready, u, first, hprocess, hfirst, (Option.some.inj hu).symm⟩))
    · cases hstep
  | fire =>
    simp only [loopStep] at hstep
    split at hstep
    · exact .inl ⟨_, by simp, (Option.some.inj hstep).symm⟩
    · next e hpc =>
      obtain ⟨next, hnext, hstep⟩ := Option.bind_eq_some_iff.mp hstep
      obtain ⟨u, hremove, hu⟩ := Option.bind_eq_some_iff.mp hstep
      obtain ⟨l, hl, rfl⟩ := Option.map_eq_some_iff.mp hremove
      exact .inr (.inr (.inr ⟨e, next, l, hpc, hnext, hl, (Option.some.inj hu).symm⟩))
    · cases hstep
  | set | add | timerAdd | del => cases hstep

theorem Gone.loopStep (h : Gone s ev) (hstep : loopStep s act = some s') :
    Silent s s' ev := by
  obtain ⟨pc, hpc, rfl⟩ | ⟨now, ready, tev, u, htev, hloop, rfl⟩
    | ⟨ready, u, first, hprocess, hfirst, rfl⟩ | ⟨e, next, l, hpc, hnext, hl, rfl⟩ :=
    loopStep_cases hstep
  · exact Gone.silent ⟨h.links, hpc ev, h.table⟩ rfl
  · obtain ⟨l, rfl, hl⟩ := timeoutLoop_avoids hloop
    have havoids := hl ev h.links fun heq => h.links.next _ (heq ▸ htev)
    exact Gone.silent ⟨havoids, by simp, h.table⟩ rfl
  · obtain ⟨hlinks, htable, hfired⟩ := h.processReadReadies hprocess
    refine Gone.silent ⟨hlinks, ?_, htable⟩ hfired
    rintro ⟨⟩
    exact hlinks.next _ hfirst
  · refine ⟨⟨h.links.remove hl, ?_, h.table⟩, [e], rfl, ?_⟩
    · rintro ⟨⟩
      exact h.links.next _ hnext
    · intro hmem
      rw [mem_singleton.mp hmem] at h
      exact h.loop hpc

/-- **One step**, unless it adds the event. -/
theorem Gone.step (h : Gone s ev) (hact : act.adds ev = false)
    (hstep : eventStep s act = some s') : Silent s s' ev := by
  cases act with
  | set e fd persist =>
    cases hstep
    have hnone : none ≠ some (Node.event ev) := (Option.some_ne_none _).symm
    exact Gone.silent ⟨(h.links.setNext hnone _).setPrev hnone _, h.loop, h.table⟩ rfl
  | add e =>
    cases hstep
    unfold rilEventAdd
    split
    · exact h.silent rfl
    · refine Gone.silent ⟨h.links, h.loop, fun hmem => ?_⟩ rfl
      rcases mem_or_eq_of_mem_set hmem with hold | hnew
      · exact h.table hold
      · cases hnew
        exact of_decide_eq_false hact rfl
  | timerAdd e tv now =>
    cases tv with
    | none =>
      cases hstep
      exact h.silent rfl
    | some tv =>
      have hne : Node.event e ≠ .event ev := by
        rintro ⟨⟩
        exact of_decide_eq_false hact rfl
      obtain ⟨first, hfirst, hstep⟩ := Option.bind_eq_some_iff.mp hstep
      obtain ⟨list, hlist, hstep⟩ := Option.bind_eq_some_iff.mp hstep
      obtain ⟨l, hl, rfl⟩ := addToList_eq hstep
      have hplace : list ≠ .event ev := by
        refine findTimer_avoids ?_ ?_ hlist
        · exact h.links
        · exact fun heq => h.links.next _ (heq ▸ hfirst)
      exact Gone.silent ⟨h.links.insertBefore hne hplace hl, h.loop, h.table⟩ rfl
  | del e =>
    cases hstep
    rcases rilEventDel_cases s e with ⟨hsame, -⟩ | ⟨i, -, hremove⟩
    · rw [hsame]
      exact h.silent rfl
    · obtain ⟨_, _, _, heq, -⟩ := removeWatch_eq s e i
      rw [hremove, heq]
      exact Gone.silent ⟨h.links, h.loop, fun hmem => h.table (mem_of_clear hmem)⟩ rfl
  | copyFds | selected | interrupted | failed | timeouts | readies | fire =>
    simp only [eventStep] at hstep
    exact h.loopStep hstep

end Gone

/-! ## Runs -/

section Runs

variable {s t : EventState n} {acts : List (EventAct n)} {ev : Fin n}

/-- An event that nothing leads to is not fired until it is added again. -/
theorem Gone.run (h : Gone s ev)
    (hrun : Run eventStep (fun _ act => act.adds ev = false) s acts t) :
    ∃ more, t.fired = s.fired ++ more ∧ ev ∉ more := by
  induction hrun with
  | nil s => exact ⟨[], (append_nil _).symm, not_mem_nil⟩
  | cons hact hstep _ ih =>
    obtain ⟨hgone, first, hfirst, hnotFirst⟩ := h.step hact hstep
    obtain ⟨more, hmore, hnotMore⟩ := ih hgone
    refine ⟨first ++ more, ?_, ?_⟩
    · rw [hmore, hfirst, append_assoc]
    · exact fun hmem => (mem_append.mp hmem).elim hnotFirst hnotMore

theorem Slots.congr {s' : EventState n} (h : Slots s) (htable : s'.watchTable = s.watchTable)
    (hindex : ∀ e, (s'.events e).index = (s.events e).index) : Slots s' := by
  refine ⟨htable ▸ h.length, fun i e hi => ?_⟩
  rw [htable] at hi
  exact (hindex e).trans (h.index i e hi)

theorem Slots.step {s' : EventState n} {act : EventAct n} (h : Slots s) (hproper : proper s act)
    (hstep : eventStep s act = some s') : Slots s' := by
  cases act with
  | set e fd persist =>
    cases hstep
    refine ⟨h.length, fun i e' hi => ?_⟩
    have hne : e' ≠ e := fun heq => hproper (heq ▸ mem_of_getElem? hi)
    simpa [rilEventSet, modifyEvent, hne] using h.index i e' hi
  | add e =>
    cases hstep
    unfold rilEventAdd
    split
    · exact h
    · next i hi =>
      refine ⟨(length_set ..).trans h.length, fun j e' hj => ?_⟩
      change (s.watchTable.set i (some e))[j]? = some (some e') at hj
      change (if e' = e then { s.events e' with index := (i : Int) } else s.events e').index = j
      rw [List.getElem?_set] at hj
      split at hj
      · next hij =>
        cases Option.some.inj (Option.ite_none_right_eq_some.mp hj).2
        rw [if_pos rfl, hij]
      · have hne : e' ≠ e := fun heq => hproper (heq ▸ mem_of_getElem? hj)
        rw [if_neg hne]
        exact h.index j e' hj
  | timerAdd e tv now =>
    cases tv with
    | none => exact Option.some.inj hstep ▸ h
    | some tv =>
      obtain ⟨first, -, hstep⟩ := Option.bind_eq_some_iff.mp hstep
      obtain ⟨list, -, hstep⟩ := Option.bind_eq_some_iff.mp hstep
      obtain ⟨l, -, rfl⟩ := addToList_eq hstep
      refine h.congr rfl fun e' => ?_
      simp only [modifyEvent]
      split <;> rfl
  | del e =>
    cases hstep
    rcases rilEventDel_cases s e with ⟨hsame, -⟩ | ⟨i, hindex, hremove⟩
    · exact hsame.symm ▸ h
    · exact hremove.symm ▸ h.removeWatch hindex
  | copyFds | selected | interrupted | failed | timeouts | readies | fire =>
    simp only [eventStep] at hstep
    obtain ⟨pc, -, rfl⟩ | ⟨now, ready, tev, u, -, hloop, rfl⟩ | ⟨ready, u, first, hprocess, -, rfl⟩
      | ⟨e, next, l, -, -, -, rfl⟩ := loopStep_cases hstep
    · exact ⟨h.length, h.index⟩
    · obtain ⟨l, rfl, -⟩ := timeoutLoop_avoids hloop
      exact ⟨h.length, h.index⟩
    · have hslots := h.processReadReadies hprocess
      exact ⟨hslots.length, hslots.index⟩
    · exact ⟨h.length, h.index⟩

/-- An event in neither list, and not the next one of `firePending`, does not fire
after `ril_event_del` until it is added again. -/
theorem deleted_silent {events : Fin n → RilEvent} {later : List (EventAct n)}
    (hbefore : Run eventStep proper (.start events) acts s) (hlists : ¬ inLists s ev)
    (hnext : s.pc ≠ .firing (.event ev))
    (hlater : Run eventStep (fun _ act => act.adds ev = false) (rilEventDel s ev) later t) :
    ∃ more, t.fired = s.fired ++ more ∧ ev ∉ more := by
  have hstart : Slots (EventState.start events) := by
    refine ⟨length_replicate, fun i e hi => ?_⟩
    cases eq_of_mem_replicate (mem_of_getElem? hi)
  have hslots : Slots s :=
    hbefore.invariant (fun _ _ _ h hproper hstep => h.step hproper hstep) hstart
  have hlinks : Avoids s.links (.event ev) :=
    ⟨fun node heq => hlists ⟨node, .inl heq⟩, fun node heq => hlists ⟨node, .inr heq⟩⟩
  have hdel : Gone (rilEventDel s ev) ev ∧ (rilEventDel s ev).fired = s.fired := by
    have htable := hslots.deleted ev
    rcases rilEventDel_cases s ev with ⟨hsame, -⟩ | ⟨i, -, hremove⟩
    · rw [hsame] at htable ⊢
      exact ⟨⟨hlinks, hnext, htable⟩, rfl⟩
    · obtain ⟨_, _, _, heq, -⟩ := removeWatch_eq s ev i
      rw [hremove, heq] at htable ⊢
      exact ⟨⟨hlinks, hnext, htable⟩, rfl⟩
  rw [← hdel.2]
  exact hdel.1.run hlater

/-- Two events for the descriptors 3 and 4. -/
def watchBoth : List (EventAct 2) := [.set 0 3 true, .set 1 4 true, .add 0, .add 1]

/-- A turn of the loop up to `firePending`. -/
def turn (ready : List Int) (now : Nat) : List (EventAct 2) :=
  [.copyFds, .selected ready, .timeouts now, .readies]

def fresh : EventState 2 := .start fun _ => ⟨0, 0, false, 0⟩

/-- An event is deleted by its own callback, and only the other one fires in the
next turn. -/
theorem deleted_silent_own : ∃ s t,
    Run eventStep proper fresh (watchBoth ++ turn [3] 0 ++ [.fire]) s
    ∧ Run eventStep (fun _ act => act.adds 0 = false) (rilEventDel s 0)
        (.fire :: turn [4] 0 ++ [.fire]) t
    ∧ s.fired = [0] ∧ t.fired = [0, 1]
    ∧ ∃ more, t.fired = s.fired ++ more ∧ 0 ∉ more := by
  simp only [exists_and_left]
  refine Run.exists_of_exec (A := fun s => s.links.next .timerList = some .timerList
      ∧ s.links.next .pendingList = some .pendingList ∧ s.links.prev .timerList = some .timerList
      ∧ s.links.prev .pendingList = some .pendingList
      ∧ (∀ e, s.links.next (.event e) = none ∧ s.links.prev (.event e) = none)
      ∧ s.pc = .firing .pendingList ∧ s.fired = [0]
      ∧ (Arale.Lib.exec eventStep (fun _ act => act.adds 0 = false) (rilEventDel s 0)
        (.fire :: turn [4] 0 ++ [.fire])).any (fun t => t.fired = [0, 1]) = true) (by decide) ?_
  rintro s hs ⟨htimer, hpending, htimer', hpending', hevents, hpc, hfired, hlater⟩
  refine Run.exists_of_exec hlater fun t ht hboth => ⟨hfired, hboth, deleted_silent hs ?_ ?_ ht⟩
  · rintro ⟨node, hnode⟩
    cases node with
    | timerList => simp [htimer, htimer'] at hnode
    | pendingList => simp [hpending, hpending'] at hnode
    | event e => simp [hevents e] at hnode
  · simp [hpc]

/-- Two events are ready, and the callback of the first one deletes the second
one, which is fired all the same. A timer that is deleted is fired, too. -/
theorem deleted_fires :
    (∃ s t, Run eventStep proper fresh (watchBoth ++ turn [3, 4] 0 ++ [.fire]) s
      ∧ Run eventStep (fun _ act => act.adds 1 = false) (rilEventDel s 1) [.fire] t
      ∧ t.fired = s.fired ++ [1])
    ∧ ∃ s t, Run eventStep proper fresh [.set 0 (-1) false, .timerAdd 0 (some 5) 0] s
      ∧ Run eventStep (fun _ act => act.adds 0 = false) (rilEventDel s 0) (turn [] 6 ++ [.fire]) t
      ∧ t.fired = s.fired ++ [0] := by
  simp only [exists_and_left]
  constructor
  · exact Run.exists_of_exec (by decide) fun s _ hlater => Run.exists_of_exec hlater fun _ _ h => h
  · exact Run.exists_of_exec (by decide) fun s _ hlater => Run.exists_of_exec hlater fun _ _ h => h

end Runs

end Arale.Ril.EventLoop
