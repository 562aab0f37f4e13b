import Ferry.Daemon.Ledger

/-!
# The sessions

What a step does to the session loops, and the invariant that every step keeps: a session that is not
yet numbered has no loop, and an active session is the one of its address and runs its loop.
-/

namespace Ferry

open Exec

namespace Daemon

variable {s t u : Daemon}

/-! ## What the ways have in common -/

/-- Nothing but the incoming transfers and what they do not depend on changes, and no pairing is
stored. -/
abbrev Unpaired (s t : Daemon) : Prop := Within Same (.objects :: .ledger :: quietParts) s t

/-- Nothing but the incoming transfers and what they do not depend on changes. -/
abbrev Bookkept (s t : Daemon) : Prop := Within Same (.devices :: .objects :: .ledger :: quietParts) s t

theorem bookkept_of_unpaired (h : Unpaired s t) : Bookkept s t :=
  h.mono fun _ hp ↦ List.mem_cons_of_mem _ hp

theorem unpaired_of_quiet (h : Quiet s t) : Unpaired s t := h.mono fun _ hp ↦ by simp [hp]

theorem unpaired_mapLedger (s : Daemon) (f : Ledger → Ledger) : Unpaired s (s.mapLedger f) := by
  intro p hp
  cases p <;> simp_all [Same, mapLedger, quietParts]

theorem unpaired_setObject (s : Daemon) (object : ℕ) (incoming : IncomingTransfer) :
    Unpaired s (s.setObject object incoming) := by
  intro p hp
  cases p <;> simp_all [Same, setObject, quietParts]

theorem unpaired_addObject (s : Daemon) (incoming : IncomingTransfer) :
    Unpaired s (s.addObject incoming) := unpaired_of_quiet (quiet_addObject s incoming)

/-- An explicit change of the dictionaries and of an object. -/
theorem unpaired_changed {f : Ledger → Ledger} {object : ℕ} {incoming : IncomingTransfer}
    (h : Quiet ((s.mapLedger f).setObject object incoming) t) : Unpaired s t :=
  (unpaired_mapLedger s f).trans ((unpaired_setObject _ _ _).trans (unpaired_of_quiet h))

/-- A new object is registered. -/
theorem unpaired_added {f : Ledger → Ledger} {incoming : IncomingTransfer}
    (h : Quiet ((s.addObject incoming).mapLedger f) t) : Unpaired s t :=
  (unpaired_addObject s incoming).trans ((unpaired_mapLedger _ _).trans (unpaired_of_quiet h))

theorem FrameMove.unpaired {ps : ℕ} {now : Clock} {uuid : Text} {plaintext : Plaintext}
    {r : Except PyError LoopFlow} (h : FrameMove s ps now uuid plaintext r t) :
    Unpaired s t ∨ acceptsPairing plaintext = true ∧
      (s.sessions ps).state = .waitingForRemoteDecision ∧ Unpaired (s.pairWith ps now.wall uuid) t := by
  cases h with
  | paired haccept hstate hquiet => exact .inr ⟨haccept, hstate, unpaired_of_quiet hquiet⟩
  | quiet hquiet => exact .inl (unpaired_of_quiet hquiet)
  | received _ _ hquiet => exact .inl (unpaired_changed hquiet)
  | unwritten _ hquiet | refused _ _ _ hquiet =>
    exact .inl ((unpaired_mapLedger s _).trans ((unpaired_setObject _ _ _).trans
      ((unpaired_mapLedger _ _).trans (unpaired_of_quiet hquiet))))
  | registeredItem _ _ _ _ hquiet => exact .inl (unpaired_added hquiet)
  | registeredPending _ _ _ _ _ hquiet =>
    exact .inl ((unpaired_addObject s _).trans ((unpaired_mapLedger _ _).trans
      ((unpaired_mapLedger _ _).trans (unpaired_of_quiet hquiet))))
  | unnotified _ _ _ hquiet => exact .inl (unpaired_added hquiet)
  | finalised _ _ _ _ _ _ hquiet => exact .inl (unpaired_changed hquiet)
  | unfinalised _ _ _ _ _ hquiet => exact .inl (unpaired_changed hquiet)
  | dropped _ hquiet => exact .inl (unpaired_changed hquiet)
  | swept _ hquiet => exact .inl ((unpaired_mapLedger s _).trans (unpaired_of_quiet hquiet))
  | resumed _ _ _ _ _ hquiet => exact .inl (unpaired_added hquiet)

theorem HandlerMove.unpaired {failed : Bool} {await : LoopAwait} {r : Except PyError LoopFlow}
    (h : HandlerMove s failed await r t) : Unpaired s t := by
  cases h with
  | quiet _ hquiet _ => exact unpaired_of_quiet hquiet
  | forgotten _ hquiet => exact (unpaired_mapLedger s _).trans (unpaired_of_quiet hquiet)

/-- The session whose pairing a call stores, and when. -/
def callPairs (s : Daemon) : Event → Option (ℕ × ℤ × Text)
  | .acceptPairing remoteAddr now uuid =>
    (s.activeSessions.get remoteAddr).bind fun ps ↦
      if (s.sessions ps).state = .waitingForLocalDecision then some (ps, now, uuid) else none
  | _ => none

theorem CallMove.unpaired {event : Event} (h : CallMove s event t) : Unpaired s t ∨ ∃ ps now uuid,
    s.callPairs event = some (ps, now, uuid) ∧ Unpaired (s.pairWith ps now uuid) t := by
  cases h with
  | quiet hquiet => exact .inl (unpaired_of_quiet hquiet)
  | paired hactive hstate hquiet =>
    exact .inr ⟨_, _, _, by simp [callPairs, hactive, hstate], unpaired_of_quiet hquiet⟩
  | accepted _ _ _ hquiet => exact .inl (unpaired_changed hquiet)
  | rejectedAway _ hquiet => exact .inl ((unpaired_mapLedger s _).trans (unpaired_of_quiet hquiet))
  | rejected _ hquiet => exact .inl (unpaired_changed hquiet)
  | cancelled _ hquiet => exact .inl (unpaired_changed hquiet)
  | discarded hquiet => exact .inl ((unpaired_mapLedger s _).trans (unpaired_of_quiet hquiet))
  | requested _ _ _ _ hquiet => exact .inl (unpaired_added hquiet)

theorem AwaitMove.unpaired {failed : Bool} {await : Await} (h : AwaitMove s failed await t) :
    Unpaired s t := by
  cases h with
  | quiet hquiet => exact unpaired_of_quiet hquiet
  | resumed _ hquiet => exact (unpaired_setObject s _ _).trans (unpaired_of_quiet hquiet)
  | abandoned _ hquiet =>
    exact (unpaired_setObject s _ _).trans ((unpaired_mapLedger _ _).trans (unpaired_of_quiet hquiet))

theorem ExpiryMove.unpaired {sleeping : AcceptanceTimer} (h : ExpiryMove s sleeping t) :
    Unpaired s t := by
  cases h with
  | quiet _ hquiet => exact unpaired_of_quiet hquiet
  | expired _ hquiet => exact unpaired_changed hquiet

theorem bookkept_mapLedger (s : Daemon) (f : Ledger → Ledger) : Bookkept s (s.mapLedger f) :=
  bookkept_of_unpaired (unpaired_mapLedger s f)

/-- The pairing is stored before. -/
theorem bookkept_pairWith {ps : ℕ} {now : ℤ} {uuid : Text} (h : Unpaired (s.pairWith ps now uuid) t) :
    Bookkept s t := by
  intro p hp
  have hsame := bookkept_of_unpaired h p hp
  cases p <;> simp_all [Same, pairWith, quietParts, Database.Settles, Database.interrupted]

theorem FrameMove.bookkept {ps : ℕ} {now : Clock} {uuid : Text} {plaintext : Plaintext}
    {r : Except PyError LoopFlow} (h : FrameMove s ps now uuid plaintext r t) : Bookkept s t :=
  h.unpaired.elim bookkept_of_unpaired fun hpaired ↦ bookkept_pairWith hpaired.2.2

theorem HandlerMove.bookkept {failed : Bool} {await : LoopAwait} {r : Except PyError LoopFlow}
    (h : HandlerMove s failed await r t) : Bookkept s t := bookkept_of_unpaired h.unpaired

theorem CallMove.bookkept {event : Event} (h : CallMove s event t) : Bookkept s t :=
  h.unpaired.elim bookkept_of_unpaired fun ⟨_, _, _, _, hpaired⟩ ↦ bookkept_pairWith hpaired

theorem AwaitMove.bookkept {failed : Bool} {await : Await} (h : AwaitMove s failed await t) :
    Bookkept s t := bookkept_of_unpaired h.unpaired

theorem ExpiryMove.bookkept {sleeping : AcceptanceTimer} (h : ExpiryMove s sleeping t) :
    Bookkept s t := bookkept_of_unpaired h.unpaired

section Bookkept

variable (h : Bookkept s t)
include h

theorem Bookkept.next : s.next ≤ t.next := h .next (by decide)

theorem Bookkept.loop (ps : ℕ) : (t.sessions ps).loop = (s.sessions ps).loop :=
  ((h .loops (by decide)).2 ps).1

theorem Bookkept.remoteAddr (ps : ℕ) : (t.sessions ps).remoteAddr = (s.sessions ps).remoteAddr :=
  ((h .loops (by decide)).2 ps).2.1

theorem Bookkept.activeSessions : t.activeSessions = s.activeSessions := (h .loops (by decide)).1

end Bookkept

/-! ## The invariant -/

/-- A session without a number has no loop, and an active session runs its loop. -/
structure SessionsSane (s : Daemon) : Prop where
  fresh : ∀ ps, s.next ≤ ps → (s.sessions ps).loop = .ended
  active : ∀ remoteAddr ps, s.activeSessions.get remoteAddr = some ps →
    (s.sessions ps).remoteAddr = remoteAddr ∧ (s.sessions ps).loop ≠ .ended

namespace SessionsSane

theorem bookkept (h : s.SessionsSane) (hkept : Bookkept s t) : t.SessionsSane where
  fresh ps hps := by
    rw [Bookkept.loop hkept]
    exact h.fresh ps ((Bookkept.next hkept).trans hps)
  active remoteAddr ps hactive := by
    rw [Bookkept.activeSessions hkept] at hactive
    rw [Bookkept.remoteAddr hkept, Bookkept.loop hkept]
    exact h.active remoteAddr ps hactive

theorem suspended {kind : Await → Prop} (h : t.SessionsSane) (hleft : Suspended kind t u) :
    u.SessionsSane := by
  cases hleft with
  | returned => exact h
  | awaits => exact ⟨fun ps hps ↦ h.fresh ps (Nat.le_of_succ_le hps), h.active⟩

/-- The loop of a session that runs is set. -/
theorem setLoop (h : t.SessionsSane) {ps : ℕ} {loop : LoopState}
    (hruns : (t.sessions ps).loop ≠ .ended) (hloop : loop ≠ .ended) : (t.setLoop ps loop).SessionsSane where
  fresh other hother := by
    have hne : other ≠ ps := fun heq ↦ hruns (heq ▸ h.fresh other hother)
    change (Function.update t.sessions ps _ other).loop = _
    rw [Function.update_of_ne hne]
    exact h.fresh other hother
  active remoteAddr other hactive := by
    have hold := h.active remoteAddr other hactive
    change (Function.update t.sessions ps _ other).remoteAddr = remoteAddr ∧
      (Function.update t.sessions ps _ other).loop ≠ .ended
    by_cases hother : other = ps
    · subst hother
      rw [Function.update_self]
      exact ⟨hold.1, hloop⟩
    · rw [Function.update_of_ne hother]
      exact hold

theorem ended (h : t.SessionsSane) {ps : ℕ} (hend : t.LoopEnded ps u) : u.SessionsSane where
  fresh other hother := by
    by_cases heq : other = ps
    · rw [heq]
      exact hend.loop_self
    · rw [hend.loop_of_ne other heq]
      exact h.fresh other (hend.next.trans hother)
  active remoteAddr other hactive := by
    rw [hend.activeSessions, Dict.get_pop] at hactive
    split at hactive
    · exact (nomatch hactive)
    · next haddr =>
      have hold := h.active remoteAddr other hactive
      have hne : other ≠ ps := fun heq ↦ haddr (heq ▸ hold.1.symm)
      rw [hend.remoteAddr, hend.loop_of_ne other hne]
      exact hold

theorem settled (h : t.SessionsSane) {ps : ℕ} {r : Except PyError LoopFlow}
    (hruns : (t.sessions ps).loop ≠ .ended) (hend : Settled ps r t u) : u.SessionsSane := by
  cases hend with
  | reads | awaits => exact h.setLoop hruns (by simp)
  | ends _ hended => exact h.ended hended

theorem connect (h : s.SessionsSane) (remoteAddr : Text) (remote : RemotePeer) (paired : Bool)
    (sendFaults : List (Option ℕ)) :
    (s.connect (newSession remoteAddr remote paired sendFaults)).SessionsSane where
  fresh ps hps := by
    have hne : ps ≠ s.next := Nat.ne_of_gt hps
    change (Function.update s.sessions s.next _ ps).loop = _
    rw [Function.update_of_ne hne]
    exact h.fresh ps (Nat.le_of_succ_le hps)
  active addr ps hactive := by
    change (s.activeSessions.set remoteAddr s.next).get addr = some ps at hactive
    change (Function.update s.sessions s.next _ ps).remoteAddr = addr ∧
      (Function.update s.sessions s.next _ ps).loop ≠ .ended
    rw [Dict.get_set] at hactive
    split at hactive
    · next haddr =>
      obtain rfl := Option.some.inj hactive
      rw [Function.update_self]
      exact ⟨haddr.symm, by simp [newSession]⟩
    · have hold := h.active addr ps hactive
      have hne : ps ≠ s.next := fun heq ↦ hold.2 (h.fresh ps heq.ge)
      rw [Function.update_of_ne hne]
      exact hold

theorem step (h : s.SessionsSane) (event : Event) : (s.step event).SessionsSane := by
  have hmove := step_move s event
  generalize s.step event = u at hmove
  cases hmove with
  | idle => exact h
  | connected => exact h.connect _ _ _ _
  | framed hreading hframe hend =>
    refine (h.bookkept hframe.bookkept).settled ?_ hend
    rw [Bookkept.loop hframe.bookkept, hreading]
    exact fun heq ↦ nomatch heq
  | handled hawait hhandler hend =>
    refine (h.bookkept hhandler.bookkept).settled ?_ hend
    rw [Bookkept.loop hhandler.bookkept, hawait]
    exact fun heq ↦ nomatch heq
  | ended _ hend => exact h.ended hend
  | resumed _ hawait hleft =>
    exact (SessionsSane.bookkept (s := { s with tasks := s.tasks.pop _ }) ⟨h.fresh, h.active⟩
      hawait.bookkept).suspended hleft
  | expired _ hexpiry hleft =>
    exact ((h.bookkept (bookkept_mapLedger s _)).bookkept hexpiry.bookkept).suspended hleft
  | called hcall hleft => exact (h.bookkept hcall.bookkept).suspended hleft

theorem run (h : s.SessionsSane) (events : List Event) : (s.run events).SessionsSane := by
  induction events generalizing s with
  | nil => exact h
  | cons event events ih => exact ih (h.step event)

end SessionsSane

theorem Started.sessionsSane (h : s.Started) : s.SessionsSane where
  fresh ps _ := h.loops ps
  active remoteAddr ps hactive := by
    rw [h.active] at hactive
    exact (nomatch hactive)

end Daemon

end Ferry
