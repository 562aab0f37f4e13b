import Ferry.Daemon.Bookkeeping
import Ferry.Daemon.Traffic

/-!
# When the daemon is busy

A TRANSFER_REQUEST or a BATCH_REQUEST is refused while anything is registered, whoever it belongs to.
Every entry of `_active_outgoing_transfers` belongs to a call of `send_file` that has not returned, and
every batch to a session that runs or to a call of `send_batch`, but for the batches that an ending
session or a raising call leaves behind.
-/

namespace Ferry

open Exec Text
open IncomingTransfer (sampleMetadata)

namespace Daemon

variable {s t u : Daemon} {own : Option FileSend} {caller : Option BatchSend}

/-! ## What the entries wait for -/

/-- A call of `send_batch` holds a batch. -/
def BatchSend.Holds (b : BatchSend) (s : Daemon) (i : Text) (batch : ℕ) : Prop :=
  b.batchId = i ∧ b.batch = batch ∧ b.ps = (s.batches batch).peer

/-- The session of an incoming batch runs its loop, or a suspended call of `send_batch` holds the batch. -/
def Attends (s : Daemon) (i : Text) (batch : ℕ) : Prop :=
  (s.batches batch).direction = .incoming ∧ s.Runs (s.batches batch).peer ∨
    ∃ task await b, s.tasks.get task = some await ∧ await.batching = some b ∧ b.Holds s i batch

/-- A call of `send_file` has an entry of `_active_outgoing_transfers`. -/
def FileSend.Registers (send : FileSend) (i : Text) (entry : ℕ × ℕ) : Prop :=
  send.metadata.transferId = i ∧ entry = (send.ps, send.xfer)

/-- Every entry waits for a suspended call or for a session.  `own` and `caller` are the calls of the
coroutine that runs. -/
structure Attended (own : Option FileSend) (caller : Option BatchSend) (s : Daemon) : Prop where
  task_lt : ∀ task await, s.tasks.get task = some await → task < s.next
  batch_lt : ∀ i batch, s.activeBatches.get i = some batch → batch < s.next
  outgoing : ∀ i entry, s.activeOutgoingTransfers.get i = some entry →
    (∃ task send await, s.tasks.get task = some (.file send await) ∧ send.Registers i entry) ∨
      ∃ send, own = some send ∧ send.Registers i entry
  batches : ∀ i batch, s.activeBatches.get i = some batch → s.Attends i batch ∨
    ∃ b, caller = some b ∧ b.Holds s i batch

theorem BatchSend.Holds.steady {b : BatchSend} {i : Text} {batch : ℕ} (h : b.Holds s i batch)
    (hsteady : Steady s t) (hlt : batch < s.next) : b.Holds t i batch :=
  ⟨h.1, h.2.1, h.2.2.trans (hsteady.batch batch hlt).1.symm⟩

theorem Attends.steady {i : Text} {batch : ℕ} (h : s.Attends i batch) (hsteady : Steady s t)
    (hlt : batch < s.next) : t.Attends i batch := by
  obtain ⟨hpeer, hdirection⟩ := hsteady.batch batch hlt
  rcases h with ⟨hincoming, hruns⟩ | ⟨task, await, b, htask, hbatching, hholds⟩
  · refine .inl ⟨hdirection.trans hincoming, ?_⟩
    rw [hpeer, Runs, hsteady.loop]
    exact hruns
  · exact .inr ⟨task, await, b, hsteady.tasks ▸ htask, hbatching, hholds.steady hsteady hlt⟩

theorem Attended.drains (h : Attended own caller s) (hdrains : Drains s t) : Attended own caller t where
  task_lt task await htask :=
    (h.task_lt task await (hdrains.tasks ▸ htask)).trans_le hdrains.next
  batch_lt i batch hi := (h.batch_lt i batch (hdrains.batches i batch hi)).trans_le hdrains.next
  outgoing i entry hi := by
    rw [hdrains.tasks]
    exact h.outgoing i entry (hdrains.outgoing i entry hi)
  batches i batch hi := by
    have hold := hdrains.batches i batch hi
    have hlt := h.batch_lt i batch hold
    rcases h.batches i batch hold with hattends | ⟨b, hb, hholds⟩
    · exact .inl (hattends.steady hdrains.toSteady hlt)
    · exact .inr ⟨b, hb, hholds.steady hdrains.toSteady hlt⟩

theorem Attended.arrives {ps : ℕ} (h : Attended none none s) (hruns : s.Runs ps)
    (harrives : Arrives ps s t) : Attended none none t where
  task_lt task await htask :=
    (h.task_lt task await (harrives.tasks ▸ htask)).trans_le harrives.next
  batch_lt i batch hi := by
    rcases harrives.batches i batch hi with hold | ⟨rfl, -⟩
    · exact (h.batch_lt i batch hold).trans_le harrives.next
    · exact harrives.allocates
  outgoing i entry hi := by
    rw [harrives.outgoing] at hi
    rw [harrives.tasks]
    exact h.outgoing i entry hi
  batches i batch hi := by
    rcases harrives.batches i batch hi with hold | ⟨-, hincoming, hpeer⟩
    · rcases h.batches i batch hold with hattends | ⟨_, hnone, -⟩
      · exact .inl (hattends.steady harrives.toSteady (h.batch_lt i batch hold))
      · exact (nomatch hnone)
    · refine .inl (.inl ⟨hincoming, ?_⟩)
      rw [hpeer, Runs, harrives.loop]
      exact hruns

theorem Attended.setLoop {ps : ℕ} {loop : LoopState} (h : Attended none none t) (hloop : loop ≠ .ended) :
    Attended none none (t.setLoop ps loop) where
  task_lt := h.task_lt
  batch_lt := h.batch_lt
  outgoing := h.outgoing
  batches i batch hi := by
    rcases h.batches i batch hi with (⟨hincoming, hruns⟩ | hheld) | ⟨_, hnone, -⟩
    · refine .inl (.inl ⟨hincoming, ?_⟩)
      change (Function.update t.sessions ps _ (t.batches batch).peer).loop ≠ .ended
      by_cases hpeer : (t.batches batch).peer = ps
      · rwa [hpeer, Function.update_self]
      · rwa [Function.update_of_ne hpeer]
    · exact .inl (.inr hheld)
    · exact (nomatch hnone)

theorem Attended.ends {ps : ℕ} (h : Attended none none t)
    (hnone : ∀ i batch, t.activeBatches.get i = some batch →
      (t.batches batch).direction = .incoming → (t.batches batch).peer ≠ ps)
    (hends : Ends ps t u) : Attended none none u where
  task_lt task await htask := (h.task_lt task await (hends.tasks ▸ htask)).trans_le hends.next
  batch_lt i batch hi := (h.batch_lt i batch (hends.batches i batch hi)).trans_le hends.next
  outgoing i entry hi := by
    rw [hends.tasks]
    exact h.outgoing i entry (hends.outgoing i entry hi)
  batches i batch hi := by
    have hold := hends.batches i batch hi
    obtain ⟨hpeer, hdirection⟩ := hends.batch batch (h.batch_lt i batch hold)
    rcases h.batches i batch hold with (⟨hincoming, hruns⟩ | hheld) | ⟨_, hnot, -⟩
    · refine .inl (.inl ⟨hdirection.trans hincoming, ?_⟩)
      rw [hpeer, Runs, hends.loop _ (hnone i batch hold hincoming)]
      exact hruns
    · obtain ⟨task, await, b, htask, hbatching, hid, hbatch, hps⟩ := hheld
      exact .inl (.inr ⟨task, await, b, hends.tasks ▸ htask, hbatching, hid, hbatch,
        hps.trans hpeer.symm⟩)
    · cases hnot

/-- The file that a suspended coroutine sends. -/
def Await.sending : Await → Option FileSend
  | .file send _ => some send
  | _ => none

/-- A coroutine is left behind, with what it holds. -/
theorem Attended.suspend {await : Await} (h : Attended await.sending await.batching t) :
    Attended none none (t.suspend await) := by
  have hself : (t.suspend await).tasks.get t.next = some await := Dict.get_set_self _ _ _
  have hkept : ∀ task left, t.tasks.get task = some left →
      (t.suspend await).tasks.get task = some left := by
    intro task left htask
    change (t.tasks.set t.next await).get task = some left
    rwa [Dict.get_set_of_ne _ _ (h.task_lt task left htask).ne]
  refine ⟨fun task left htask ↦ ?_, fun i batch hi ↦ ?_, fun i entry hi ↦ ?_, fun i batch hi ↦ ?_⟩
  · change (t.tasks.set t.next await).get task = some left at htask
    rw [Dict.get_set] at htask
    split at htask
    · next heq => exact heq ▸ Nat.lt_succ_self _
    · exact (h.task_lt task left htask).trans (Nat.lt_succ_self _)
  · exact (h.batch_lt i batch hi).trans (Nat.lt_succ_self _)
  · rcases h.outgoing i entry hi with ⟨task, send, left, htask, hregisters⟩ | ⟨send, hsend, hregisters⟩
    · exact .inl ⟨task, send, left, hkept task _ htask, hregisters⟩
    · cases await with
      | file send' await =>
        obtain rfl := Option.some.inj hsend
        exact .inl ⟨_, send', await, hself, hregisters⟩
      | _ => exact (nomatch hsend)
  · rcases h.batches i batch hi with (hincoming | hheld) | ⟨b, hbatching, hholds⟩
    · exact .inl (.inl hincoming)
    · obtain ⟨task, left, b, htask, hbatching, hholds⟩ := hheld
      exact .inl (.inr ⟨task, left, b, hkept task left htask, hbatching, hholds⟩)
    · exact .inl (.inr ⟨_, await, b, hself, hbatching, hholds⟩)

/-- Nothing rests on a coroutine that need not be there. -/
theorem Attended.weaken (h : Attended none none t) : Attended own caller t where
  task_lt := h.task_lt
  batch_lt := h.batch_lt
  outgoing i entry hi := (h.outgoing i entry hi).imp_right fun ⟨_, hnone, _⟩ ↦ nomatch hnone
  batches i batch hi := (h.batches i batch hi).imp_right fun ⟨_, hnone, _⟩ ↦ nomatch hnone

/-- A coroutine is resumed. -/
theorem Attended.pop {task : ℕ} {await : Await} (h : Attended none none s)
    (htask : s.tasks.get task = some await) :
    Attended await.sending await.batching { s with tasks := s.tasks.pop task } := by
  have hkept : ∀ other left, s.tasks.get other = some left → other ≠ task →
      (s.tasks.pop task).get other = some left := by
    intro other left hother hne
    rwa [Dict.get_pop_of_ne _ hne]
  refine ⟨fun other left hother ↦ ?_, h.batch_lt, fun i entry hi ↦ ?_, fun i batch hi ↦ ?_⟩
  · rw [Dict.get_pop] at hother
    split at hother
    · exact (nomatch hother)
    · exact h.task_lt other left hother
  · rcases h.outgoing i entry hi with ⟨other, send, left, hother, hregisters⟩ | ⟨_, hnone, -⟩
    · by_cases hne : other = task
      · subst hne
        obtain rfl := Option.some.inj (htask.symm.trans hother)
        exact .inr ⟨send, rfl, hregisters⟩
      · exact .inl ⟨other, send, left, hkept other _ hother hne, hregisters⟩
    · exact (nomatch hnone)
  · rcases h.batches i batch hi with (hincoming | hheld) | ⟨_, hnone, -⟩
    · exact .inl (.inl hincoming)
    · obtain ⟨other, left, b, hother, hbatching, hholds⟩ := hheld
      by_cases hne : other = task
      · subst hne
        obtain rfl := Option.some.inj (htask.symm.trans hother)
        exact .inr ⟨b, hbatching, hholds⟩
      · exact .inl (.inr ⟨other, left, b, hkept other left hother hne, hbatching, hholds⟩)
    · exact (nomatch hnone)

/-- How a call goes on after a segment. -/
theorem runCall_cases (m : Call) (s : Daemon) :
    (∃ left, (m s).1 = .ok (some left) ∧ runCall m s = (m s).2.suspend left) ∨
      (∀ left, (m s).1 ≠ .ok (some left)) ∧ runCall m s = (m s).2 := by
  unfold runCall
  cases hm : m s with
  | mk r t =>
    cases r with
    | error e => exact .inr ⟨fun _ h ↦ (nomatch h), rfl⟩
    | ok left =>
      cases left with
      | none => exact .inr ⟨fun _ h ↦ (nomatch h), rfl⟩
      | some left => exact .inl ⟨left, rfl, rfl⟩

theorem Attended.runCall_drains {m : Call} (h : Attended none none s) (hm : SendsNothing m) :
    Attended none none (runCall m s) := by
  have hdrained := h.drains (hm s).1
  rcases runCall_cases m s with ⟨left, -, hrun⟩ | ⟨-, hrun⟩
  · rw [hrun]
    exact hdrained.weaken.suspend
  · rw [hrun]
    exact hdrained

/-- What the coroutine holds that a segment leaves behind. -/
def leftSending : Except PyError (Option Await) → Option FileSend
  | .ok (some left) => left.sending
  | _ => none

def leftBatching : Except PyError (Option Await) → Option BatchSend
  | .ok (some left) => left.batching
  | _ => none

/-- After a segment of a call that sends, its entries wait for the coroutine that is left behind. -/
theorem Attended.sends {r : Except PyError (Option Await)} (h : Attended own caller s)
    (hmove : SendMove own caller s r t) (hraises : ∀ b e, caller = some b → r = .error e →
      s.activeBatches.get b.batchId ≠ some b.batch) :
    Attended (leftSending r) (leftBatching r) t where
  task_lt task await htask := (h.task_lt task await (hmove.tasks ▸ htask)).trans_le hmove.next
  batch_lt i batch hi := (h.batch_lt i batch (hmove.batches i batch hi)).trans_le hmove.next
  outgoing i entry hi := by
    rcases hmove.outgoing i entry hi with ⟨hold, hstays⟩ | ⟨send, await, hr, hregisters⟩
    · rcases h.outgoing i entry hold with ⟨task, send, left, htask, hregisters⟩ | ⟨send, hsend, hregisters⟩
      · exact .inl ⟨task, send, left, hmove.tasks.symm ▸ htask, hregisters⟩
      · obtain ⟨await, rfl⟩ := hstays send hsend hregisters.1
        exact .inr ⟨send, rfl, hregisters⟩
    · subst hr
      exact .inr ⟨send, rfl, hregisters⟩
  batches i batch hi := by
    have hold := hmove.batches i batch hi
    have hlt := h.batch_lt i batch hold
    rcases h.batches i batch hold with hattends | ⟨b, hb, hholds⟩
    · exact .inl (hattends.steady hmove.toSteady hlt)
    · obtain ⟨rfl, rfl, hps⟩ := hholds.steady hmove.toSteady hlt
      rcases hmove.caller b hb with hnone | ⟨e, he⟩ | ⟨left, b', rfl, hleft, hid, hbatch, hsame⟩
      · exact (nomatch hnone.symm.trans hi)
      · exact absurd hold (hraises b e hb he)
      · exact .inr ⟨b', hleft, hid, hbatch, hsame.trans hps⟩

theorem Attended.runCall_sends {m : Call} (h : Attended own caller s)
    (hmove : wp m (SendMove own caller s) s)
    (hraises : ∀ b e, caller = some b → (m s).1 = .error e →
      s.activeBatches.get b.batchId ≠ some b.batch) :
    Attended none none (runCall m s) := by
  have hsent := h.sends hmove hraises
  rcases runCall_cases m s with ⟨left, hr, hrun⟩ | ⟨hr, hrun⟩
  · rw [hrun]
    rw [hr] at hsent
    exact hsent.suspend
  · rw [hrun]
    cases hresult : (m s).1 with
    | error e => rwa [hresult] at hsent
    | ok left =>
      cases left with
      | none => rwa [hresult] at hsent
      | some left => exact absurd hresult (hr left)

/-- A batch is registered by `send_batch`, which awaits. -/
theorem Attended.runCall_departs {ps : ℕ} {batchId : Text} {m : Call} (h : Attended none none s)
    (hdeparts : wp m (Departs ps batchId s) s) (hsend : s.canSend ps = true) :
    Attended none none (runCall m s) := by
  have hdeparts' : Departs ps batchId s (m s).1 (m s).2 := hdeparts
  rcases hdeparts'.result with ⟨-, hrefused⟩ | ⟨b, hr, hid, hbatch, hps⟩
  · exact absurd (hsend.symm.trans hrefused) (by simp)
  · rcases runCall_cases m s with ⟨left, hleft, hrun⟩ | ⟨hnone, -⟩
    · rw [hrun]
      obtain rfl : .batch b .request = left := by simpa using hr.symm.trans hleft
      apply Attended.suspend
      refine ⟨fun task await htask ↦ ?_, fun i batch hi ↦ ?_, fun i entry hi ↦ ?_, fun i batch hi ↦ ?_⟩
      · exact (h.task_lt task await (hdeparts'.tasks ▸ htask)).trans_le hdeparts'.next
      · rcases hdeparts'.batches i batch hi with hold | ⟨-, rfl, -⟩
        · exact (h.batch_lt i batch hold).trans_le hdeparts'.next
        · exact hdeparts'.allocates
      · rw [hdeparts'.outgoing] at hi
        rw [hdeparts'.tasks]
        exact h.outgoing i entry hi
      · rcases hdeparts'.batches i batch hi with hold | ⟨rfl, rfl, hpeer⟩
        · rcases h.batches i batch hold with hattends | ⟨_, hnone, -⟩
          · exact .inl (hattends.steady hdeparts'.toSteady (h.batch_lt i batch hold))
          · exact (nomatch hnone)
        · exact .inr ⟨b, rfl, hid, hbatch, hps.trans hpeer.symm⟩
    · exact absurd hr (hnone _)

/-! ## Events that leave a batch behind -/

/-- A segment of a session loop ends the loop. -/
def stops : Except PyError LoopFlow → Bool
  | .ok .stop | .error _ => true
  | _ => false

/-- The session whose loop an event ends. -/
def endsLoop (s : Daemon) : Event → Option ℕ
  | .frame ps plaintext now uuid =>
    match (s.sessions ps).loop with
    | .reading => if stops (processFrame ps plaintext now uuid s).1 then some ps else none
    | _ => none
  | .loopEnds ps =>
    match (s.sessions ps).loop with
    | .reading => some ps
    | _ => none
  | .loopResumes ps failed =>
    match (s.sessions ps).loop with
    | .handling await => if stops (resumeHandler ps failed await s).1 then some ps else none
    | _ => none
  | _ => none

/-- An incoming batch of a session. -/
def incomingBatch (s : Daemon) (ps : ℕ) : Option Text :=
  (s.activeBatches.items.find? fun item ↦ (s.batches item.2).direction = .incoming ∧
    (s.batches item.2).peer = ps).map Prod.fst

/-- The batch of a call of `send_batch` that raises. -/
def abandons (s : Daemon) : Event → Option Text
  | .resume task failed now =>
    (s.tasks.get task).bind fun await ↦ await.batching.bind fun b ↦
      if s.isReady failed await = true ∧ s.activeBatches.get b.batchId = some b.batch ∧
          (resumeCall failed now await { s with tasks := s.tasks.pop task }).1.isOk = false then
        some b.batchId
      else none
  | .sendBatch remoteAddr files _ _ batchId _ =>
    (s.activeSessions.get remoteAddr).bind fun ps ↦
      if (s.sessions ps).state = .established ∧ files ≠ [] ∧ s.canSend ps = false then some batchId
      else none
  | _ => none

/-- The batch that an event leaves registered for nobody. -/
def strands (s : Daemon) (event : Event) : Option Text :=
  ((s.endsLoop event).bind s.incomingBatch).or (s.abandons event)

/-- An event leaves no entry of the dictionaries behind. -/
abbrev KeepsFree (s : Daemon) (event : Event) : Prop :=
  s.misfiles event = none ∧ s.strands event = none

theorem incomingBatch_eq_none_iff {ps : ℕ} : s.incomingBatch ps = none ↔
    ∀ i batch, s.activeBatches.get i = some batch → (s.batches batch).direction = .incoming →
      (s.batches batch).peer ≠ ps := by
  simp only [incomingBatch, Option.map_eq_none_iff, List.find?_eq_none, decide_eq_true_eq, not_and,
    Prod.forall, Dict.mem_items]

/-! ## Steps -/

theorem Attended.drained_ends {ps : ℕ} (h : Attended none none s) (hdrains : Drains s t)
    (hnone : s.incomingBatch ps = none) (hends : Ends ps t u) : Attended none none u := by
  refine (h.drains hdrains).ends (fun i batch hi hincoming ↦ ?_) hends
  have hold := hdrains.batches i batch hi
  obtain ⟨hpeer, hdirection⟩ := hdrains.batch batch (h.batch_lt i batch hold)
  rw [hdirection] at hincoming
  rw [hpeer]
  exact incomingBatch_eq_none_iff.mp hnone i batch hold hincoming

/-- A segment of a session loop. -/
theorem Attended.runLoop {ps : ℕ} {m : Segment LoopFlow} (h : Attended none none s)
    (hruns : s.Runs ps) (hm : wp m (Traffics ps s) s)
    (hends : stops (m s).1 = true → s.incomingBatch ps = none) :
    Attended none none (runLoop ps m s) := by
  have hm' : Traffics ps s (m s).1 (m s).2 := hm
  unfold Daemon.runLoop
  cases hresult : m s with
  | mk r t =>
    rw [hresult] at hm' hends
    have hended : stops r = true → r ≠ .ok .next → Attended none none (endLoop ps t).2 := by
      intro hstops hr
      have hdrains : Drains s t := hm'.resolve_right fun harrives ↦ hr harrives.1
      exact h.drained_ends hdrains (hends hstops) (endLoop_ends ps t)
    have ht : Attended none none t := by
      rcases hm' with hdrains | ⟨-, harrives⟩
      · exact h.drains hdrains
      · exact h.arrives hruns harrives
    cases r with
    | error e => exact hended rfl (by simp)
    | ok flow =>
      cases flow with
      | next => exact ht.setLoop (by simp)
      | stop => exact hended rfl (by simp)
      | await await => exact ht.setLoop (by simp)

theorem Attended.connect (h : Attended none none s) (hsessions : s.SessionsSane)
    (session : PeerSession) : Attended none none (s.connect session) where
  task_lt task await htask := (h.task_lt task await htask).trans (Nat.lt_succ_self _)
  batch_lt i batch hi := (h.batch_lt i batch hi).trans (Nat.lt_succ_self _)
  outgoing := h.outgoing
  batches i batch hi := by
    rcases h.batches i batch hi with (⟨hincoming, hruns⟩ | hheld) | ⟨_, hnone, -⟩
    · refine .inl (.inl ⟨hincoming, ?_⟩)
      have hne : (s.batches batch).peer ≠ s.next := fun heq ↦ hruns (hsessions.fresh _ heq.ge)
      change (Function.update s.sessions s.next _ (s.batches batch).peer).loop ≠ .ended
      rwa [Function.update_of_ne hne]
    · exact .inl (.inr hheld)
    · exact (nomatch hnone)

/-- A suspended coroutine is resumed. -/
theorem Attended.resumed {task : ℕ} {failed : Bool} {now : Clock} {await : Await}
    (h : Attended none none s) (htask : s.tasks.get task = some await)
    (hready : s.isReady failed await = true)
    (hkeeps : s.abandons (.resume task failed now) = none) :
    Attended none none
      (runCall (resumeCall failed now await) { s with tasks := s.tasks.pop task }) := by
  have hpopped := h.pop htask
  have hraises : ∀ b e, await.batching = some b →
      (resumeCall failed now await { s with tasks := s.tasks.pop task }).1 = .error e →
      s.activeBatches.get b.batchId ≠ some b.batch := by
    intro b e hbatching he hregistered
    simp [abandons, htask, hbatching, hready, hregistered, he, Except.isOk, Except.toBool] at hkeeps
  cases await with
  | file send await => exact hpopped.runCall_sends (resumeSend_move send failed now.wall await _) hraises
  | batch b await => exact hpopped.runCall_sends (resumeBatch_move b failed now.wall await _) hraises
  | _ => exact Attended.runCall_drains hpopped (ceases_resumeCall failed now rfl)

theorem attended_step (event : Event) (h : Attended none none s) (hsessions : s.SessionsSane)
    (hkeeps : s.strands event = none) : Attended none none (s.step event) := by
  rw [strands, Option.or_eq_none_iff] at hkeeps
  obtain ⟨hends, habandons⟩ := hkeeps
  cases event with
  | connect remoteAddr remote paired sendFaults => exact h.connect hsessions _
  | frame ps plaintext now uuid =>
    dsimp only [step]
    split
    · next hreading =>
      refine h.runLoop ?_ (processFrame_traffics ps plaintext now uuid s) fun hstops ↦ ?_
      · rw [Runs, hreading]
        simp
      · simpa only [endsLoop, hreading, hstops, if_true, Option.bind_some] using hends
    · exact h
  | loopEnds ps =>
    dsimp only [step]
    split
    · next hreading =>
      have hnone : s.incomingBatch ps = none := by
        simpa only [endsLoop, hreading, Option.bind_some] using hends
      exact h.drained_ends (drains_refl s) hnone (endLoop_ends ps s)
    · exact h
  | loopResumes ps failed =>
    dsimp only [step]
    split
    · next await hawait =>
      refine h.runLoop ?_ (wp_mono (tame_resumeHandler ps failed await s) fun _ _ ↦ .inl)
        fun hstops ↦ ?_
      · rw [Runs, hawait]
        simp
      · simpa only [endsLoop, hawait, hstops, if_true, Option.bind_some] using hends
    · exact h
  | resume task failed now =>
    dsimp only [step]
    split
    · exact h
    · next await htask =>
      split
      · next hready => exact h.resumed htask hready habandons
      · exact h
  | expire timer =>
    dsimp only [step]
    split
    · exact h
    · exact Attended.runCall_drains (s := { s with ledger := _ })
        ⟨h.task_lt, h.batch_lt, h.outgoing, h.batches⟩ (ceases_acceptanceTimeout _)
  | stall now =>
    exact h.drains (tame_of_keeps (keeps_monitorStallTimeouts now) (by simp) s)
  | acceptPairing remoteAddr now uuid => exact h.runCall_drains (ceases_acceptPairing _ _ _)
  | rejectPairing remoteAddr => exact h.runCall_drains (ceases_rejectPairing _)
  | acceptTransfer remoteAddr transferId => exact h.runCall_drains (ceases_acceptTransfer _ _)
  | rejectTransfer remoteAddr transferId => exact h.runCall_drains (ceases_rejectTransfer _ _)
  | acceptBatch remoteAddr batchId => exact h.runCall_drains (ceases_acceptBatch _ _)
  | rejectBatch remoteAddr batchId => exact h.runCall_drains (ceases_rejectBatch _ _)
  | cancelTransfer transferId reason now => exact h.runCall_drains (ceases_cancelTransfer _ _ _)
  | discard transferId => exact h.runCall_drains (ceases_discardInterruptedTransfer _)
  | requestResume remoteAddr transferId now =>
    exact h.runCall_drains (ceases_requestResume _ _ _)
  | sendFile remoteAddr item now =>
    exact h.runCall_sends (startFile_move remoteAddr item now s) fun _ _ hnone ↦ by cases hnone
  | sendBatch remoteAddr files totalBytes batchName batchId now =>
    dsimp only [step]
    have hmove := sendBatch_move remoteAddr files totalBytes batchName batchId now s
    rcases hmove with ⟨hdrains, hr⟩ | ⟨ps, hactive, hstate, hfiles, hdeparts⟩
    · rcases runCall_cases (sendBatch remoteAddr files totalBytes batchName batchId now) s with
        ⟨left, hleft, -⟩ | ⟨-, hrun⟩
      · cases hr.symm.trans hleft
      · rw [hrun]
        exact h.drains hdrains
    · refine h.runCall_departs hdeparts ?_
      simpa [abandons, hactive, hstate, hfiles] using habandons

/-! ## Answers that are no refusals -/

/-- A refusal because something else is going on. -/
def Frame.isBusy : Frame → Bool
  | .transferReject _ .busy | .batchReject _ .busy => true
  | _ => false

/-- The session is sent frames, none of which is such a refusal. -/
def Answers (ps : ℕ) (s t : Daemon) : Prop :=
  ∃ frames, (t.sessions ps).sent = (s.sessions ps).sent ++ frames ∧
    ∀ frame ∈ frames, frame.isBusy = false

section Answers

variable {ps : ℕ} {α : Type}

theorem answers_of_sent (h : (t.sessions ps).sent = (s.sessions ps).sent) : Answers ps s t :=
  ⟨[], by simp [h], fun _ h ↦ (nomatch h)⟩

instance : IsPreorder Daemon (Answers ps) where
  refl _ := answers_of_sent rfl
  trans := by
    rintro s t u ⟨frames, ht, hframes⟩ ⟨frames', hu, hframes'⟩
    refine ⟨frames ++ frames', by rw [hu, ht, List.append_assoc], fun frame hmem ↦ ?_⟩
    exact (List.mem_append.mp hmem).elim (hframes frame) (hframes' frame)

/-- A segment that sends no refusal to a session. -/
abbrev Admits (ps : ℕ) (m : Segment α) : Prop := Stays (Answers ps) m

theorem admits_pure (a : α) : Admits ps (pure a : Segment α) := stays_pure a

theorem admits_get_bind {f : Daemon → Segment α} (h : ∀ s, Admits ps (f s)) : Admits ps (get >>= f) :=
  fun s ↦ h s s

/-- A segment that leaves the sessions alone. -/
theorem admits_of_sessions {m : Segment α} (h : ∀ s, wp m (fun _ t ↦ t.sessions = s.sessions) s) :
    Admits ps m :=
  fun s ↦ wp_mono (h s) fun _ _ ht ↦ answers_of_sent (by rw [ht])

theorem admits_onLedger (f : Ledger → Ledger) : Admits ps (onLedger f) :=
  admits_of_sessions fun _ ↦ rfl

theorem admits_onObject (object : ℕ) (m : Method α) : Admits ps (onObject object m) :=
  admits_of_sessions fun _ ↦ rfl

theorem admits_onDb (m : Exec PyError Database α) : Admits ps (onDb m) :=
  admits_of_sessions fun _ ↦ rfl

theorem admits_onSession {other : ℕ} {f : PeerSession → PeerSession}
    (h : ∀ session, (f session).sent = session.sent) : Admits ps (onSession other f) := by
  intro s
  apply answers_of_sent
  change (Function.update s.sessions other _ ps).sent = _
  by_cases hps : ps = other
  · subst hps
    rw [Function.update_self]
    exact h _
  · rw [Function.update_of_ne hps]

theorem admits_sendEncrypted (other : ℕ) {frame : Frame} (h : frame.isBusy = false) :
    Admits ps (sendEncrypted other frame) := by
  refine admits_get_bind fun s ↦ stays_bind (stays_raiseIf _ _) fun _ ↦ admits_get_bind fun s ↦
    stays_bind (admits_onSession fun _ ↦ rfl) fun _ ↦ ?_
  split
  · exact stays_throw _
  · intro s
    change Answers ps s { s with sessions := Function.update s.sessions other _ }
    by_cases hps : ps = other
    · subst hps
      refine ⟨[frame], ?_, fun _ hmem ↦ List.mem_singleton.mp hmem ▸ h⟩
      change (Function.update s.sessions ps _ ps).sent = _
      rw [Function.update_self]
    · apply answers_of_sent
      change (Function.update s.sessions other _ ps).sent = _
      rw [Function.update_of_ne hps]

theorem admits_reply (other : ℕ) {frame : Frame} (h : frame.isBusy = false) :
    Admits ps (reply other frame) :=
  stays_bind (admits_sendEncrypted other h) fun _ ↦ admits_pure _

theorem admits_newObject (incoming : IncomingTransfer) : Admits ps (newObject incoming) :=
  admits_of_sessions fun _ ↦ rfl

theorem admits_allocate : Admits ps allocate := admits_of_sessions fun _ ↦ rfl

theorem admits_registerBatch (batchId : Text) (batch : Batch) : Admits ps (registerBatch batchId batch) :=
  admits_of_sessions fun _ ↦ rfl

theorem admits_registerTransfer (other : ℕ) (metadata : TransferMetadata) :
    Admits ps (registerTransfer other metadata) :=
  admits_get_bind fun _ ↦ stays_bind (admits_newObject _) fun _ ↦
    stays_bind (admits_onLedger _) fun _ ↦ admits_pure _

/-! ### The end of a session loop -/

theorem admits_recordTransferOnce (transferId : Text) (record : TransferRecord) :
    Admits ps (recordTransferOnce transferId record) := by
  refine admits_get_bind fun s ↦ stays_ite _ (admits_pure _) ?_
  refine stays_tryCatch (stays_bind (admits_onDb _) fun _ ↦ ?_) fun _ ↦ admits_pure _
  exact admits_of_sessions fun _ ↦ rfl

theorem admits_reportIncoming (transferId : Text) (other : ℕ) (metadata : TransferMetadata)
    (status : TransferStatus) (startedAt : ℤ) (sha256 : Text) :
    Admits ps (reportIncoming transferId other metadata status startedAt sha256) :=
  admits_get_bind fun _ ↦ stays_bind (admits_recordTransferOnce _ _) fun _ ↦
    admits_of_sessions fun _ ↦ rfl

theorem admits_signalCancel (other : ℕ) (transferId : Text) : Admits ps (signalCancel other transferId) := by
  refine stays_bind (admits_of_sessions fun s ↦ ?_) fun _ ↦ admits_of_sessions fun s ↦ ?_
  · unfold signalResponse
    rw [wp_modify]
    split <;> rfl
  · unfold signalResult
    rw [wp_modify]
    split <;> rfl

theorem admits_transitionSession (other : ℕ) (new : SessionState) :
    Admits ps (transitionSession other new) :=
  admits_get_bind fun _ ↦ stays_bind (stays_raiseIf _ _) fun _ ↦ admits_onSession fun _ ↦ rfl

theorem admits_forEach {β : Type} {f : β → Segment Unit} (h : ∀ b, Admits ps (f b)) (items : List β) :
    Admits ps (forEach f items) := by
  induction items with
  | nil => exact admits_pure _
  | cons b rest ih => exact stays_bind (h b) fun _ ↦ ih

theorem admits_closeStates (other : ℕ) : Admits ps (closeStates other) := by
  have hclose : Admits ps (do
      transitionSession other .closing
      transitionSession other .disconnected) :=
    stays_bind (admits_transitionSession _ _) fun _ ↦ admits_transitionSession _ _
  have hquietly : ∀ {m : Segment Unit}, Admits ps m → Admits ps (tryCatch m fun _ ↦ pure ()) :=
    fun hm ↦ stays_tryCatch hm fun _ ↦ admits_pure _
  refine stays_bind (stays_tryCatch hclose fun _ ↦ admits_get_bind fun s ↦ ?_) fun _ ↦
    admits_get_bind fun s ↦ ?_
  · exact stays_ite _ (hquietly (admits_transitionSession _ _)) (admits_pure _)
  · exact stays_ite _ (hquietly hclose) (admits_pure _)

theorem admits_endLoop (other : ℕ) : Admits ps (endLoop other) := by
  refine stays_bind (admits_get_bind fun s ↦ stays_bind (admits_forEach (fun item ↦ ?_) _) fun _ ↦
    admits_forEach (fun item ↦ ?_) _) fun _ ↦ stays_bind (admits_closeStates _) fun _ ↦
      stays_bind (admits_of_sessions fun _ ↦ rfl) fun _ ↦ admits_onSession fun _ ↦ rfl
  · exact stays_bind (admits_onLedger _) fun _ ↦ stays_bind (admits_onObject _ _) fun _ ↦
      admits_get_bind fun s ↦ admits_reportIncoming _ _ _ _ _ _
  · exact stays_bind (admits_of_sessions fun _ ↦ rfl) fun _ ↦ admits_signalCancel _ _

end Answers

/-! ## Requests while nothing goes on -/

/-- Nothing is registered. -/
structure Unoccupied (s : Daemon) : Prop where
  transfers : ∀ i, s.ledger.incomingTransfers.get i = none
  batches : ∀ i, s.activeBatches.get i = none

theorem keys_eq_nil {ν : Type} {d : Dict Text ν} (h : ∀ i, d.get i = none) : d.keys = [] := by
  refine List.eq_nil_iff_forall_not_mem.mpr fun i hi ↦ ?_
  have hsome := AList.lookup_isSome.mpr (AList.mem_keys.mpr hi)
  exact absurd (h i) (Option.isSome_iff_ne_none.mp hsome)

theorem admits_onTransferRequest {ps : ℕ} (hidle : s.Unoccupied) (payload : Payload) (now : ℤ) :
    wp (onTransferRequest ps payload now) (fun _ t ↦ Answers ps s t) s := by
  unfold onTransferRequest
  rw [wp_get_bind]
  split
  · exact stays_ite _ (admits_reply _ rfl) (stays_throw _) s
  · next metadata _ =>
    rw [wp_ite]
    constructor
    · intro _
      refine stays_ite _ ?_ (admits_reply _ rfl) s
      exact stays_bind (admits_registerTransfer _ _) fun _ ↦ stays_bind (admits_onObject _ _) fun _ ↦
        admits_reply _ rfl
    · intro _
      rw [if_neg (by simp [keys_eq_nil hidle.transfers])]
      refine stays_bind (admits_registerTransfer _ _) (fun _ ↦ admits_get_bind fun _ ↦ ?_) s
      exact stays_bind (stays_raiseIf _ _) fun _ ↦ stays_bind admits_allocate fun _ ↦
        stays_bind (admits_onLedger _) fun _ ↦ admits_pure _

theorem admits_onBatchRequest {ps : ℕ} (hidle : s.Unoccupied) (payload : Payload) :
    wp (onBatchRequest ps payload) (fun _ t ↦ Answers ps s t) s := by
  unfold onBatchRequest
  rw [wp_get_bind]
  split
  · exact answers_of_sent rfl
  · rw [if_neg (by simp [keys_eq_nil hidle.transfers, keys_eq_nil hidle.batches])]
    exact stays_bind (admits_registerBatch _ _) (fun _ ↦ admits_pure _) s

theorem answers_runLoop {ps : ℕ} {m : Segment LoopFlow} (h : wp m (fun _ t ↦ Answers ps s t) s) :
    Answers ps s (runLoop ps m s) := by
  have hset : ∀ (t : Daemon) loop, Answers ps t (t.setLoop ps loop) := by
    intro t loop
    apply answers_of_sent
    change (Function.update t.sessions ps _ ps).sent = _
    rw [Function.update_self]
  have h' : Answers ps s (m s).2 := h
  unfold runLoop
  cases hm : m s with
  | mk r t =>
    rw [hm] at h'
    have hended : Answers ps s (endLoop ps t).2 := trans_of (Answers ps) h' (admits_endLoop ps t)
    cases r with
    | error e => exact hended
    | ok flow =>
      cases flow with
      | stop => exact hended
      | next => exact trans_of (Answers ps) h' (hset _ _)
      | await await => exact trans_of (Answers ps) h' (hset _ _)

/-- A TRANSFER_REQUEST or a BATCH_REQUEST of a session. -/
def request (ps : ℕ) (type : MessageType) (payload : Payload) (text : Text) (now : Clock) (uuid : Text) :
    Event := .frame ps (.control ⟨some type, .obj payload text⟩) now uuid

theorem answers_request (hidle : s.Unoccupied) {ps : ℕ} {type : MessageType}
    (htype : type = .transferRequest ∨ type = .batchRequest) (payload : Payload) (text : Text)
    (now : Clock) (uuid : Text) : Answers ps s (s.step (request ps type payload text now uuid)) := by
  unfold request
  dsimp only [step]
  split
  · apply answers_runLoop
    rcases htype with rfl | rfl
    · exact admits_onTransferRequest hidle payload now.wall
    · exact admits_onBatchRequest hidle payload
  · exact answers_of_sent rfl

/-! ## Runs -/

/-- A suspended call of `send_file` or `send_batch` to a session. -/
def Await.SendsTo (ps : ℕ) : Await → Prop
  | .file send _ => send.ps = ps ∨ ∃ b, send.caller = some b ∧ b.ps = ps
  | .batch b _ => b.ps = ps
  | _ => False

/-- The loop of a session has ended, and every call to it has returned. -/
structure Finished (s : Daemon) (ps : ℕ) : Prop where
  loop : (s.sessions ps).loop = .ended
  calls : ∀ task await, s.tasks.get task = some await → ¬await.SendsTo ps

/-- No entry of the dictionaries refers to a session: whatever an incoming transfer has an entry for, it
belongs to another one. -/
structure Released (s : Daemon) (ps : ℕ) : Prop where
  peers : ∀ i, s.ledger.incomingPeers.get i ≠ some ps
  transfers : ∀ i, s.ledger.incomingTransfers.get i ≠ none →
    ∃ other, s.ledger.incomingPeers.get i = some other ∧ other ≠ ps
  timeouts : ∀ i, s.ledger.acceptTimeoutTasks.get i ≠ none →
    ∃ other, s.ledger.incomingPeers.get i = some other ∧ other ≠ ps
  lastChunks : ∀ i, s.ledger.lastChunkTime.get i ≠ none →
    ∃ other, s.ledger.incomingPeers.get i = some other ∧ other ≠ ps
  outgoing : ∀ i xfer, s.activeOutgoingTransfers.get i ≠ some (ps, xfer)
  batches : ∀ i batch, s.activeBatches.get i = some batch → (s.batches batch).peer ≠ ps

/-- A finished session has no entry, and when every session is finished or has none, no request is refused
because something else is going on. -/
structure NeverStuck (s : Daemon) : Prop where
  released : ∀ ps, s.Finished ps → s.Released ps
  admitted : (∀ ps, s.Finished ps ∨ s.Released ps) → ∀ ps type payload text now uuid,
    type = .transferRequest ∨ type = .batchRequest →
      Answers ps s (s.step (request ps type payload text now uuid))

theorem Attended.released {ps : ℕ} (h : Attended none none s) (hfiled : s.Filed)
    (hfinished : s.Finished ps) : s.Released ps := by
  have hpeers : ∀ i, s.ledger.incomingPeers.get i ≠ some ps :=
    fun i hi ↦ hfiled.tidy.owners i ps hi hfinished.loop
  have howned : ∀ i, s.ledger.incomingTransfers.get i ≠ none →
      ∃ other, s.ledger.incomingPeers.get i = some other ∧ other ≠ ps := by
    intro i hi
    obtain ⟨object, hobject⟩ := Option.ne_none_iff_exists'.mp hi
    obtain ⟨other, hother⟩ := hfiled.sane.owned i object hobject
    exact ⟨other, hother, fun heq ↦ hpeers i (heq ▸ hother)⟩
  refine ⟨hpeers, howned, fun i hi ↦ howned i (hfiled.tidy.timeouts i hi),
    fun i hi ↦ howned i (hfiled.tidy.lastChunks i hi), fun i xfer hi ↦ ?_, fun i batch hi hpeer ↦ ?_⟩
  · rcases h.outgoing i _ hi with ⟨task, send, await, htask, -, hentry⟩ | ⟨_, hnone, -⟩
    · exact hfinished.calls task _ htask (.inl (congrArg Prod.fst hentry).symm)
    · exact (nomatch hnone)
  · rcases h.batches i batch hi with
      (⟨-, hruns⟩ | ⟨task, await, b, htask, hbatching, -, -, hps⟩) | ⟨_, hnone, -⟩
    · exact hruns (hpeer ▸ hfinished.loop)
    · have hsends : b.ps = ps := hps.trans hpeer
      apply hfinished.calls task await htask
      cases await with
      | file send await => exact .inr ⟨b, hbatching, hsends⟩
      | batch b' await =>
        cases hbatching
        exact hsends
      | _ => exact (nomatch hbatching)
    · exact (nomatch hnone)

theorem unoccupied_of_released (hfiled : s.Filed) (h : ∀ ps, s.Released ps) : s.Unoccupied where
  transfers i := by
    by_contra hne
    obtain ⟨object, hobject⟩ := Option.ne_none_iff_exists'.mp hne
    obtain ⟨ps, hps⟩ := hfiled.sane.owned i object hobject
    exact (h ps).peers i hps
  batches i := by
    by_contra hne
    obtain ⟨batch, hbatch⟩ := Option.ne_none_iff_exists'.mp hne
    exact (h _).batches i batch hbatch rfl

theorem Started.attended (h : s.Started) : Attended none none s := by
  refine ⟨fun task await htask ↦ ?_, fun i batch hi ↦ ?_, fun i entry hi ↦ ?_, fun i batch hi ↦ ?_⟩
  · rw [h.tasks] at htask
    exact (nomatch htask)
  · rw [h.batches] at hi
    exact (nomatch hi)
  · rw [h.outgoing] at hi
    exact (nomatch hi)
  · rw [h.batches] at hi
    exact (nomatch hi)

/-- A BATCH_REQUEST of the first session. -/
def sampleBatchRequest : Event :=
  message .batchRequest [(lit "batch_id", .str (lit "b")), (lit "batch_name", .str (lit "Photos")),
    (lit "total_items", .int 1), (lit "total_bytes", .int 3)]

end Daemon

end Ferry
