import Ferry.Daemon.Tame

/-!
# Outgoing transfers and batches

What the segments do to `_active_outgoing_transfers` and `_active_batches`.  Most of them add nothing to
the two dictionaries.  A BATCH_REQUEST adds a batch of the session that it comes from; a call of
`send_batch` or `send_file` adds what it awaits.
-/

namespace Ferry

open Exec Text

namespace Daemon

/-! ## Segments that add nothing -/

/-- The coroutines, the session loops and the sessions of the batches are as they were. -/
structure Steady (s t : Daemon) : Prop where
  next : s.next ≤ t.next
  tasks : t.tasks = s.tasks
  loop : ∀ ps, (t.sessions ps).loop = (s.sessions ps).loop
  batch : ∀ batch < s.next, (t.batches batch).peer = (s.batches batch).peer ∧
    (t.batches batch).direction = (s.batches batch).direction

/-- Besides, nothing is added to the dictionaries of outgoing transfers and batches. -/
structure Drains (s t : Daemon) : Prop extends Steady s t where
  outgoing : ∀ i entry, t.activeOutgoingTransfers.get i = some entry →
    s.activeOutgoingTransfers.get i = some entry
  batches : ∀ i batch, t.activeBatches.get i = some batch → s.activeBatches.get i = some batch

theorem steady_refl (s : Daemon) : Steady s s := ⟨le_rfl, rfl, fun _ ↦ rfl, fun _ _ ↦ ⟨rfl, rfl⟩⟩

theorem steady_trans {s t u : Daemon} (h : Steady s t) (h' : Steady t u) : Steady s u where
  next := h.next.trans h'.next
  tasks := h'.tasks.trans h.tasks
  loop ps := (h'.loop ps).trans (h.loop ps)
  batch batch hlt :=
    have hlt' := hlt.trans_le h.next
    ⟨(h'.batch batch hlt').1.trans (h.batch batch hlt).1,
      (h'.batch batch hlt').2.trans (h.batch batch hlt).2⟩

theorem drains_refl (s : Daemon) : Drains s s := ⟨steady_refl s, fun _ _ h ↦ h, fun _ _ h ↦ h⟩

theorem drains_trans {s t u : Daemon} (h : Drains s t) (h' : Drains t u) : Drains s u where
  toSteady := steady_trans h.toSteady h'.toSteady
  outgoing i entry hi := h.outgoing i entry (h'.outgoing i entry hi)
  batches i batch hi := h.batches i batch (h'.batches i batch hi)

instance : IsPreorder Daemon Drains where
  refl := drains_refl
  trans _ _ _ := drains_trans

variable {α : Type} {parts : List Part} {s t u : Daemon}

/-- A segment that adds nothing. -/
abbrev AddsNothing (m : Segment α) : Prop := Stays Drains m

theorem steady_of_within (h : Within Same parts s t)
    (hparts : ∀ p ∈ parts, p ∉ [Part.next, .loops, .batchObjects, .tasks]) : Steady s t := by
  have hsame : ∀ p ∈ [Part.next, .loops, .batchObjects, .tasks], Same p s t :=
    fun p hp ↦ h p fun hmem ↦ hparts p hmem hp
  refine ⟨hsame .next (by decide), hsame .tasks (by decide), fun ps ↦ ?_, fun batch hlt ↦ ?_⟩
  · exact ((hsame .loops (by decide)).2 ps).1
  · rw [(hsame .batchObjects (by decide)).2 batch hlt]
    exact ⟨rfl, rfl⟩

theorem drains_of_within (h : Within Same parts s t) (hparts : ∀ p ∈ parts, p ∉ trafficParts) :
    Drains s t := by
  have houtgoing : t.activeOutgoingTransfers = s.activeOutgoingTransfers :=
    h .activeOutgoing fun hmem ↦ hparts _ hmem (by decide)
  have hbatches : t.activeBatches = s.activeBatches :=
    h .activeBatches fun hmem ↦ hparts _ hmem (by decide)
  refine ⟨steady_of_within h fun p hp hmem ↦ hparts p hp ?_, fun _ _ hi ↦ houtgoing ▸ hi,
    fun _ _ hi ↦ hbatches ▸ hi⟩
  exact List.Sublist.subset (by decide) hmem

instance : Tame Drains where
  within := drains_of_within
  onBatch {f} h batch s := by
    refine ⟨⟨le_rfl, rfl, fun _ ↦ rfl, fun other _ ↦ ?_⟩, fun _ _ hi ↦ hi, fun _ _ hi ↦ hi⟩
    change (Function.update s.batches batch _ other).peer = _ ∧
      (Function.update s.batches batch _ other).direction = _
    by_cases hother : other = batch
    · subst hother
      rw [Function.update_self]
      exact ⟨(h _).peer, (h _).direction⟩
    · rw [Function.update_of_ne hother]
      exact ⟨rfl, rfl⟩
  popBatch batchId s := by
    refine ⟨⟨le_rfl, rfl, fun _ ↦ rfl, fun _ _ ↦ ⟨rfl, rfl⟩⟩, fun _ _ hi ↦ hi, fun i batch hi ↦ ?_⟩
    change (s.activeBatches.pop batchId).get i = some batch at hi
    rw [Dict.get_pop] at hi
    split at hi
    · exact (nomatch hi)
    · exact hi

/-! ### Batches that arrive -/

/-- A batch of a session is registered. -/
structure Arrives (ps : ℕ) (s t : Daemon) : Prop extends Steady s t where
  allocates : s.next < t.next
  outgoing : t.activeOutgoingTransfers = s.activeOutgoingTransfers
  batches : ∀ i batch, t.activeBatches.get i = some batch → s.activeBatches.get i = some batch ∨
    batch = s.next ∧ (t.batches batch).direction = .incoming ∧ (t.batches batch).peer = ps

/-- What a frame does: it adds nothing, or a batch arrives and the loop goes on. -/
def Traffics (ps : ℕ) (s : Daemon) (r : Except PyError LoopFlow) (t : Daemon) : Prop :=
  Drains s t ∨ r = .ok .next ∧ Arrives ps s t

theorem onBatchRequest_traffics (ps : ℕ) (payload : Payload) (s : Daemon) :
    wp (onBatchRequest ps payload) (Traffics ps s) s := by
  unfold onBatchRequest
  rw [wp_get_bind]
  split
  · exact .inl (drains_refl s)
  · rw [wp_ite]
    refine ⟨fun _ ↦ ?_, fun _ ↦ .inr ⟨rfl, ?_⟩⟩
    · exact wp_mono (tame_reply _ _ s) fun _ _ ↦ .inl
    · refine ⟨⟨Nat.le_succ _, rfl, fun _ ↦ rfl, fun batch hlt ↦ ?_⟩, Nat.lt_succ_self _, rfl,
        fun i batch hi ↦ ?_⟩
      · change (Function.update s.batches s.next _ batch).peer = _ ∧
          (Function.update s.batches s.next _ batch).direction = _
        rw [Function.update_of_ne hlt.ne]
        exact ⟨rfl, rfl⟩
      · change (Dict.set _ _ _).get i = some batch at hi
        rw [Dict.get_set] at hi
        split at hi
        · obtain rfl := Option.some.inj hi
          refine .inr ⟨rfl, ?_⟩
          change (Function.update s.batches s.next _ s.next).direction = _ ∧
            (Function.update s.batches s.next _ s.next).peer = _
          rw [Function.update_self]
          exact ⟨rfl, rfl⟩
        · exact .inl hi

theorem processFrame_traffics (ps : ℕ) (plaintext : Plaintext) (now : Clock) (uuid : Text)
    (s : Daemon) : wp (processFrame ps plaintext now uuid) (Traffics ps s) s :=
  tame_processFrame (fun _ ↦ onBatchRequest_traffics _ _ s) (fun _ _ ↦ .inl) _ _ _

/-- A session loop ends, and nothing is added. -/
structure Ends (ps : ℕ) (s t : Daemon) : Prop where
  next : s.next ≤ t.next
  tasks : t.tasks = s.tasks
  loop : ∀ other, other ≠ ps → (t.sessions other).loop = (s.sessions other).loop
  batch : ∀ batch < s.next, (t.batches batch).peer = (s.batches batch).peer ∧
    (t.batches batch).direction = (s.batches batch).direction
  outgoing : ∀ i entry, t.activeOutgoingTransfers.get i = some entry →
    s.activeOutgoingTransfers.get i = some entry
  batches : ∀ i batch, t.activeBatches.get i = some batch → s.activeBatches.get i = some batch

theorem endLoop_ends (ps : ℕ) (s : Daemon) : wp (endLoop ps) (fun _ t ↦ Ends ps s t) s := by
  have hends : ∀ {t}, Drains s t → Ends ps s t := fun h ↦
    ⟨h.next, h.tasks, fun other _ ↦ h.loop other, h.batch, h.outgoing, h.batches⟩
  unfold endLoop
  apply wp_bind_of (tame_cancelForPeer (R := Drains) ps s)
  · exact fun _ _ h ↦ hends h
  intro _ t ht
  apply wp_bind_of (tame_of_keeps (R := Drains) (keeps_closeStates ps) (by decide) t)
  · exact fun _ _ h ↦ hends (drains_trans ht h)
  intro _ u hu
  have hdrained := drains_trans ht hu
  rw [wp_modify_bind]
  refine ⟨hdrained.next, hdrained.tasks, fun other hother ↦ ?_, hdrained.batch, hdrained.outgoing,
    hdrained.batches⟩
  change (Function.update u.sessions ps _ other).loop = _
  rw [Function.update_of_ne hother]
  exact hdrained.loop other

/-! ### The calls of the user -/

/-- A call that adds nothing, and that leaves no call of `send_file` or `send_batch` behind. -/
def SendsNothing (m : Call) : Prop :=
  ∀ s, wp m (fun r t ↦ Drains s t ∧ ∀ left, r = .ok (some left) → left.isSending = false) s

/-- The `send_batch` that a suspended coroutine belongs to. -/
def Await.batching : Await → Option BatchSend
  | .file send _ => send.caller
  | .batch b _ => some b
  | _ => none

/-- The same call of `send_batch`. -/
def BatchSend.IsSame (b b' : BatchSend) : Prop :=
  b'.batchId = b.batchId ∧ b'.batch = b.batch ∧ b'.ps = b.ps

/-- A segment leaves a call of `send_file` behind whose transfer has an entry of
`_active_outgoing_transfers`. -/
def LeavesFile (r : Except PyError (Option Await)) (i : Text) (entry : ℕ × ℕ) : Prop :=
  ∃ send await, r = .ok (some (.file send await)) ∧ send.metadata.transferId = i ∧
    entry = (send.ps, send.xfer)

/-- A segment leaves a call of `send_batch` behind, or raises. -/
def HoldsBatch (r : Except PyError (Option Await)) (b : BatchSend) : Prop :=
  (∃ e, r = .error e) ∨ ∃ left b', r = .ok (some left) ∧ left.batching = some b' ∧ b.IsSame b'

/-- What a segment of `send_file` and `send_batch` does: whatever is in `_active_outgoing_transfers`
belongs to another call, or to the one that is left behind.  `own` is the file that is being sent, and
`caller` the `send_batch`. -/
structure SendMove (own : Option FileSend) (caller : Option BatchSend) (s : Daemon)
    (r : Except PyError (Option Await)) (t : Daemon) : Prop extends Steady s t where
  outgoing : ∀ i entry, t.activeOutgoingTransfers.get i = some entry →
    (s.activeOutgoingTransfers.get i = some entry ∧
      ∀ send, own = some send → send.metadata.transferId = i →
        ∃ await, r = .ok (some (.file send await))) ∨ LeavesFile r i entry
  batches : ∀ i batch, t.activeBatches.get i = some batch → s.activeBatches.get i = some batch
  caller : ∀ b, caller = some b → t.activeBatches.get b.batchId = none ∨ HoldsBatch r b

/-- A segment before the rest of a call that sends nothing of its own. -/
theorem SendMove.after {own : Option FileSend} {caller : Option BatchSend}
    {r : Except PyError (Option Await)} (h : Drains s t)
    (hown : ∀ send, own = some send → ∀ entry,
      t.activeOutgoingTransfers.get send.metadata.transferId ≠ some entry)
    (hmove : SendMove none caller t r u) : SendMove own caller s r u where
  toSteady := steady_trans h.toSteady hmove.toSteady
  outgoing i entry hi := by
    rcases hmove.outgoing i entry hi with ⟨hold, -⟩ | hleft
    · refine .inl ⟨h.outgoing i entry hold, fun send hsend hid ↦ ?_⟩
      exact absurd (hid ▸ hold) (hown send hsend entry)
    · exact .inr hleft
  batches i batch hi := h.batches i batch (hmove.batches i batch hi)
  caller := hmove.caller

/-- A segment that ends without a coroutine of its own. -/
theorem SendMove.ended {own : Option FileSend} {caller : Option BatchSend}
    {r : Except PyError (Option Await)} (h : Drains s t)
    (hown : ∀ send, own = some send → ∀ entry,
      t.activeOutgoingTransfers.get send.metadata.transferId ≠ some entry)
    (hcaller : ∀ b, caller = some b → t.activeBatches.get b.batchId = none ∨ HoldsBatch r b) :
    SendMove own caller s r t :=
  SendMove.after h hown ⟨steady_refl t, fun _ _ hi ↦ .inl ⟨hi, fun _ h ↦ nomatch h⟩,
    fun _ _ hi ↦ hi, hcaller⟩

theorem tame_popOutgoing (transferId : Text) : AddsNothing (popOutgoing transferId) := by
  intro s
  refine ⟨⟨le_rfl, rfl, fun _ ↦ rfl, fun _ _ ↦ ⟨rfl, rfl⟩⟩, fun i entry hi ↦ ?_, fun _ _ hi ↦ hi⟩
  change (s.activeOutgoingTransfers.pop transferId).get i = some entry at hi
  rw [Dict.get_pop] at hi
  split at hi
  · exact (nomatch hi)
  · exact hi

/-- The `finally` of `send_file`: the transfer stays registered if and only if it is awaited. -/
theorem unregistering_pops {m : Segment FileFlow} {P : FileSend → FileAwait → Daemon → Prop}
    (transferId : Text) (hm : AddsNothing m)
    (hawait : wp m (fun r t ↦ ∀ send await, r = .ok (.await send await) → P send await t) s) :
    wp (unregistering transferId m) (fun r t ↦ Drains s t ∧
      (t.activeOutgoingTransfers.get transferId = none ∧ ((∃ e, r = .error e) ∨
        ∃ result, r = .ok (.returned result)) ∨
      ∃ send await, r = .ok (.await send await) ∧ P send await t)) s := by
  have hpopped : ∀ t : Daemon, (t.activeOutgoingTransfers.pop transferId).get transferId = none :=
    fun t ↦ Dict.get_pop_self _ _
  unfold unregistering
  have htry : wp (tryCatch m fun e ↦ do
      popOutgoing transferId
      throw e) (fun r t ↦ Drains s t ∧
        (t.activeOutgoingTransfers.get transferId = none ∧ (∃ e, r = .error e) ∨
          (∃ result, r = .ok (.returned result)) ∨
          ∃ send await, r = .ok (.await send await) ∧ P send await t)) s := by
    apply wp_tryCatch_of (wp_and (hm s) hawait)
    · rintro e t ⟨ht, -⟩
      exact ⟨drains_trans ht (tame_popOutgoing transferId t), .inl ⟨hpopped t, e, rfl⟩⟩
    · rintro flow t ⟨ht, hawait⟩
      refine ⟨ht, .inr ?_⟩
      cases flow with
      | returned result => exact .inl ⟨result, rfl⟩
      | await send await => exact .inr ⟨send, await, rfl, hawait send await rfl⟩
  apply wp_bind_of htry
  · rintro e t ⟨ht, ⟨hnone, -⟩ | ⟨_, hr⟩ | ⟨_, _, hr, -⟩⟩
    · exact ⟨ht, .inl ⟨hnone, .inl ⟨e, rfl⟩⟩⟩
    · exact (nomatch hr)
    · exact (nomatch hr)
  · rintro flow t ⟨ht, ⟨-, _, hr⟩ | ⟨result, hr⟩ | ⟨send, await, hr, hP⟩⟩
    · exact (nomatch hr)
    · cases hr
      exact ⟨drains_trans ht (tame_popOutgoing transferId t),
        .inl ⟨hpopped t, .inr ⟨result, rfl⟩⟩⟩
    · cases hr
      exact ⟨ht, .inr ⟨send, await, rfl, hP⟩⟩

/-- What `send_file` does up to its first await: it has returned or raised, and nothing is added, or its
transfer is registered. -/
def FileMove (caller : Option BatchSend) (s : Daemon) (r : Except PyError FileFlow) (t : Daemon) : Prop :=
  Drains s t ∧ ((∃ e, r = .error e) ∨ ∃ result, r = .ok (.returned result)) ∨
  Steady s t ∧ t.activeBatches = s.activeBatches ∧ ∃ send await, r = .ok (.await send await) ∧
    send.caller = caller ∧ ∀ i entry, t.activeOutgoingTransfers.get i = some entry →
      s.activeOutgoingTransfers.get i = some entry ∨
        send.metadata.transferId = i ∧ entry = (send.ps, send.xfer)

theorem FileMove.after {caller : Option BatchSend} {r : Except PyError FileFlow} (h : Drains s t)
    (hbatches : t.activeBatches = s.activeBatches) (hmove : FileMove caller t r u) :
    FileMove caller s r u := by
  rcases hmove with ⟨hdrains, hr⟩ | ⟨hsteady, hsame, send, await, hr, hcaller, houtgoing⟩
  · exact .inl ⟨drains_trans h hdrains, hr⟩
  · refine .inr ⟨steady_trans h.toSteady hsteady, hsame.trans hbatches, send, await, hr, hcaller, ?_⟩
    exact fun i entry hi ↦ (houtgoing i entry hi).imp_left (h.outgoing i entry)

/-- `_active_outgoing_transfers[transfer_id] = (ps, xfer)`. -/
def setOutgoing (s : Daemon) (transferId : Text) (entry : ℕ × ℕ) : Daemon :=
  { s with activeOutgoingTransfers := s.activeOutgoingTransfers.set transferId entry }

theorem setOutgoing_get (s : Daemon) (transferId i : Text) (entry : ℕ × ℕ) :
    (s.setOutgoing transferId entry).activeOutgoingTransfers.get i =
      if i = transferId then some entry else s.activeOutgoingTransfers.get i := Dict.get_set ..

/-- The transfer of `send_file` is registered, and the request is sent. -/
theorem requestFile_move (send : FileSend) (s : Daemon) :
    wp (unregistering send.metadata.transferId (requestFile send)) (FileMove send.caller s)
      (s.setOutgoing send.metadata.transferId (send.ps, send.xfer)) := by
  have hrequest : ∀ t, wp (requestFile send) (fun r u ↦ ∀ send' await,
      r = .ok (.await send' await) → send' = send ∧ u.activeBatches = t.activeBatches) t := by
    intro t
    apply wp_bind_of (keeps_sendEncrypted send.ps (.transferRequest send.metadata) t)
    · exact fun _ _ _ _ _ h ↦ nomatch h
    · rintro _ u hu send' await ⟨⟩
      exact ⟨rfl, hu .activeBatches (by simp)⟩
  have hadds : AddsNothing (requestFile send) :=
    stays_bind (tame_sendEncrypted _ _) fun _ ↦ stays_pure _
  apply wp_mono (unregistering_pops send.metadata.transferId hadds (hrequest _))
  rintro r t ⟨ht, ⟨hnone, hr⟩ | ⟨_, await, hr, rfl, hbatches⟩⟩
  · refine .inl ⟨⟨⟨ht.next, ht.tasks, ht.loop, ht.batch⟩, fun i entry hi ↦ ?_, ht.batches⟩, hr⟩
    have hne : i ≠ send.metadata.transferId := by
      rintro rfl
      exact (nomatch hnone.symm.trans hi)
    have hold := ht.outgoing i entry hi
    rwa [setOutgoing_get, if_neg hne] at hold
  · refine .inr ⟨⟨ht.next, ht.tasks, ht.loop, ht.batch⟩, hbatches, _, await, hr, rfl,
      fun i entry hi ↦ ?_⟩
    have hold := ht.outgoing i entry hi
    rw [setOutgoing_get] at hold
    split at hold
    · next heq => exact .inr ⟨heq.symm, (Option.some.inj hold).symm⟩
    · exact .inl hold

theorem sendFile_move (remoteAddr : Text) (item : BatchItem) (caller : Option BatchSend) (now : ℤ)
    (s : Daemon) : wp (sendFile remoteAddr item caller now) (FileMove caller s) s := by
  have hraised : ∀ {e t}, Within Same [.disk, .outgoing] s t → FileMove caller s (.error e) t :=
    fun h ↦ .inl ⟨drains_of_within h (by decide), .inl ⟨_, rfl⟩⟩
  unfold sendFile
  rw [wp_get_bind, wp_ofResult_bind]
  refine ⟨fun _ _ ↦ hraised (within_refl s), fun ps _ ↦ ?_⟩
  rw [wp_raiseIf_bind]
  refine ⟨fun _ ↦ hraised (within_refl s), fun _ ↦ ?_⟩
  have hnew : Keeps [.disk, .outgoing] (newOutgoing (OutgoingTransfer.new item.sourcePath
      item.transferId (caller.elim [] BatchSend.batchId) item.relativePath)) :=
    (keeps_newOutgoing _).mono (by simp)
  apply wp_bind_of (hnew s)
  · exact fun _ _ h ↦ hraised h
  intro xfer t ht
  apply wp_bind_of (keeps_buildMetadata xfer item.mimeType now t)
  · exact fun _ _ h ↦ hraised (ht.trans h)
  intro metadata u hu
  have hkept := ht.trans hu
  cases metadata with
  | none => exact .inl ⟨drains_of_within hkept (by decide), .inr ⟨false, rfl⟩⟩
  | some metadata =>
    dsimp only
    rw [wp_modify_bind]
    apply wp_mono (requestFile_move ⟨ps, xfer, metadata, now, caller⟩ u)
    exact fun _ _ h ↦ h.after (drains_of_within hkept (by decide)) (hkept .activeBatches (by decide))

/-! ### A batch of files -/

/-- The end of `send_batch` without an entry of `_active_batches`. -/
theorem batchSent_move {own : Option FileSend} {b : BatchSend}
    (hown : ∀ send, own = some send → ∀ entry,
      s.activeOutgoingTransfers.get send.metadata.transferId ≠ some entry)
    (hnone : s.activeBatches.get b.batchId = none) :
    wp (batchSent b) (SendMove own (some b) s) s := by
  apply wp_mono (keeps_batchSent b s)
  intro r t ht
  have hdrains : Drains s t := drains_of_within ht (by decide)
  refine .ended hdrains (fun send hsend entry hi ↦ ?_) ?_
  · exact hown send hsend entry (hdrains.outgoing _ _ hi)
  · rintro _ ⟨⟩
    left
    rw [ht .activeBatches (by decide)]
    exact hnone

theorem completeBatch_move (b : BatchSend) (s : Daemon) :
    wp (completeBatch b) (SendMove none (some b) s) s := by
  unfold completeBatch
  rw [wp_get_bind]
  split
  · next hnone => exact batchSent_move (fun _ h ↦ nomatch h) hnone
  · apply wp_bind_of (tame_sendEncrypted (R := Drains) b.ps (.batchComplete b.batchId) s)
    · intro e t ht
      exact .ended ht (fun _ h ↦ nomatch h) fun _ _ ↦ .inr (.inl ⟨e, rfl⟩)
    · intro _ t ht
      refine .ended ht (fun _ h ↦ nomatch h) ?_
      rintro _ ⟨⟩
      exact .inr (.inr ⟨_, b, rfl, rfl, rfl, rfl, rfl⟩)

theorem BatchSend.IsSame.trans {b b' b'' : BatchSend} (h : b.IsSame b') (h' : b'.IsSame b'') :
    b.IsSame b'' := ⟨h'.1.trans h.1, h'.2.1.trans h.2.1, h'.2.2.trans h.2.2⟩

/-- The caller may be replaced by one with other counters. -/
theorem SendMove.of_isSame {own : Option FileSend} {b b' : BatchSend}
    {r : Except PyError (Option Await)} (hsame : b.IsSame b') (h : SendMove own (some b') s r t) :
    SendMove own (some b) s r t where
  toSteady := h.toSteady
  outgoing := h.outgoing
  batches := h.batches
  caller := by
    rintro _ ⟨⟩
    rcases h.caller b' rfl with hnone | he | ⟨left, b'', hr, hleft, hsame'⟩
    · exact .inl (hsame.1 ▸ hnone)
    · exact .inr (.inl he)
    · exact .inr (.inr ⟨left, b'', hr, hleft, hsame.trans hsame'⟩)

/-- The result of an item is counted, and the loop goes on. -/
theorem countSent_move {own : Option FileSend} {b : BatchSend} {success : Bool}
    {next : BatchSend → Call}
    (hown : ∀ send, own = some send → ∀ entry,
      s.activeOutgoingTransfers.get send.metadata.transferId ≠ some entry)
    (hnext : ∀ b' t, b.IsSame b' → wp (next b') (SendMove none (some b') t) t) :
    wp (countSent b success >>= next) (SendMove own (some b) s) s := by
  have hcount : wp (countSent b success) (fun r t ↦ Drains s t ∧
      ∃ b', r = .ok b' ∧ b.IsSame b') s := by
    apply wp_and
    · refine stays_bind (Tame.onBatch (fun _ ↦ ?_) _) (fun _ ↦ stays_pure _) s
      split <;> constructor <;> rfl
    · refine ⟨_, rfl, ?_⟩
      split <;> exact ⟨rfl, rfl, rfl⟩
  apply wp_bind_of hcount
  · exact fun _ _ h ↦ nomatch h.2.choose_spec.1
  · rintro a t ⟨ht, b', hr, hsame⟩
    obtain rfl := Except.ok.inj hr
    apply wp_mono (hnext a t hsame)
    intro r u hu
    exact .after ht (fun send hsend entry hi ↦ hown send hsend entry (ht.outgoing _ _ hi))
      (hu.of_isSame hsame)

theorem sendItems_move (now : ℤ) (b : BatchSend) (items : List BatchItem) (s : Daemon) :
    wp (sendItems now b items) (SendMove none (some b) s) s := by
  induction items generalizing b s with
  | nil => exact completeBatch_move b s
  | cons item rest ih =>
    unfold sendItems
    rw [wp_get_bind]
    split
    · exact completeBatch_move b s
    · apply wp_bind_of (sendFile_move b.remoteAddr item (some { b with remaining := rest }) now s)
      · rintro e t (⟨ht, -⟩ | ⟨-, -, _, _, hr, -⟩)
        · exact .ended ht (fun _ h ↦ nomatch h) fun _ _ ↦ .inr (.inl ⟨e, rfl⟩)
        · exact (nomatch hr)
      · rintro flow t (⟨ht, ⟨_, hr⟩ | ⟨result, hr⟩⟩ | ⟨ht, hbatches, send, await, hr, hcaller, houtgoing⟩)
        · exact (nomatch hr)
        · cases hr
          have hrest : wp (countSent b result >>= fun b ↦ sendItems now b rest)
              (SendMove none (some b) t) t :=
            countSent_move (fun _ h ↦ nomatch h) fun b' u _ ↦ ih b' u
          exact wp_mono hrest fun _ _ h ↦ .after ht (fun _ h ↦ nomatch h) h
        · cases hr
          refine ⟨ht, fun i entry hi ↦ ?_, fun i batch hi ↦ hbatches ▸ hi, ?_⟩
          · rcases houtgoing i entry hi with hold | hnew
            · exact .inl ⟨hold, fun _ h ↦ nomatch h⟩
            · exact .inr ⟨send, await, rfl, hnew⟩
          · rintro _ ⟨⟩
            exact .inr (.inr ⟨_, _, rfl, hcaller, rfl, rfl, rfl⟩)

/-- The file that a segment has sent, and what follows it. -/
theorem fileReturned_move {own : Option FileSend} (now : ℤ) (caller : Option BatchSend)
    (success : Bool) (hown : ∀ send, own = some send → ∀ entry,
      s.activeOutgoingTransfers.get send.metadata.transferId ≠ some entry) :
    wp (fileReturned now caller (.returned success)) (SendMove own caller s) s := by
  cases caller with
  | none => exact .ended (drains_refl s) hown fun _ h ↦ nomatch h
  | some b => exact countSent_move hown fun b' t _ ↦ sendItems_move now b' b'.remaining t

/-! ### One file -/

/-- A segment of `send_file` awaits as the same call. -/
def Proceeds (send : FileSend) (m : Segment FileFlow) : Prop :=
  Returns (fun flow ↦ ∀ send' await, flow = .await send' await → send' = send) m

section Proceeds

variable {send : FileSend}

theorem proceeds_await (await : FileAwait) : Proceeds send (pure (.await send await)) :=
  returns_pure fun _ _ h ↦ (FileFlow.await.inj h).1.symm

theorem proceeds_fileUnsent (status : TransferStatus) : Proceeds send (fileUnsent send status) :=
  returns_bind fun _ ↦ returns_pure fun _ _ h ↦ nomatch h

theorem proceeds_ite (c : Prop) [Decidable c] {m n : Segment FileFlow} (hm : Proceeds send m)
    (hn : Proceeds send n) : Proceeds send (if c then m else n) := by
  split
  · exact hm
  · exact hn

theorem proceeds_sendQuietly (ps : ℕ) (frame : Frame) (await : FileAwait) (status : TransferStatus) :
    Proceeds send (sendQuietly ps frame (.await send await) (fileUnsent send status)) :=
  returns_bind fun _ ↦ proceeds_ite _ (proceeds_await _) (proceeds_fileUnsent _)

theorem proceeds_streamFile (batch : Option ℕ)
    (pull : Sending (Option (Bytes × OutgoingTransfer.ChunkStream))) :
    Proceeds send (streamFile send batch pull) := by
  refine returns_bind fun pulled ↦ ?_
  split
  · exact proceeds_await _
  · refine returns_bind fun s ↦ proceeds_ite _ (proceeds_sendQuietly _ _ _ _) ?_
    exact returns_bind fun _ ↦ proceeds_await _
  · exact proceeds_sendQuietly _ _ _ _

theorem proceeds_resumeFile (failed : Bool) (await : FileAwait) :
    Proceeds send (resumeFile send failed await) := by
  have hanswered : ∀ response, Proceeds send (fileAnswered send response) := fun response ↦
    returns_bind fun s ↦ proceeds_ite _ (proceeds_streamFile _ _) (proceeds_fileUnsent _)
  have hresult : ∀ result, Proceeds send (fileResult send result) := fun result ↦
    returns_bind fun _ ↦ returns_pure fun _ _ h ↦ nomatch h
  unfold resumeFile
  split
  · exact returns_bind fun _ ↦ returns_bind fun _ ↦ proceeds_await _
  · exact proceeds_ite _ (returns_bind fun _ ↦ hanswered _) (returns_bind fun _ ↦ hanswered _)
  · refine returns_bind fun _ ↦ ?_
    dsimp only
    split
    · exact proceeds_streamFile _ _
    · exact returns_bind fun _ ↦ proceeds_streamFile _ _
  · exact proceeds_fileUnsent _
  · exact proceeds_fileUnsent _
  · exact returns_bind fun _ ↦ returns_bind fun _ ↦ proceeds_await _
  · exact proceeds_ite _ (returns_bind fun _ ↦ hresult _) (returns_bind fun _ ↦ hresult _)

end Proceeds

theorem resumeSend_move (send : FileSend) (failed : Bool) (now : ℤ) (await : FileAwait) (s : Daemon) :
    wp (resumeSend send failed now await) (SendMove (some send) send.caller s) s := by
  have hresumed := unregistering_pops send.metadata.transferId
    (tame_resumeFile send failed await) (P := fun send' _ _ ↦ send' = send)
    (wp_mono (proceeds_resumeFile failed await s) fun _ _ h send' await hr ↦ h _ hr send' await rfl)
  have hown : ∀ {t : Daemon}, t.activeOutgoingTransfers.get send.metadata.transferId = none →
      ∀ send', some send = some send' → ∀ entry,
        t.activeOutgoingTransfers.get send'.metadata.transferId ≠ some entry := by
    rintro t hnone _ ⟨⟩ entry hi
    exact (nomatch hnone.symm.trans hi)
  unfold resumeSend
  apply wp_bind_of hresumed
  · rintro e t ⟨ht, ⟨hnone, -⟩ | ⟨_, _, hr, -⟩⟩
    · exact .ended ht (hown hnone) fun _ _ ↦ .inr (.inl ⟨e, rfl⟩)
    · exact (nomatch hr)
  · rintro flow t ⟨ht, ⟨hnone, ⟨_, hr⟩ | ⟨result, hr⟩⟩ | ⟨send', await', hr, hsame⟩⟩
    · exact (nomatch hr)
    · cases hr
      have hrest : wp (fileReturned now send.caller (.returned result)) (SendMove none send.caller t) t :=
        fileReturned_move now send.caller result fun _ h ↦ nomatch h
      exact wp_mono hrest fun _ _ h ↦ .after ht (hown hnone) h
    · cases hr
      subst hsame
      refine ⟨ht.toSteady, fun i entry hi ↦ .inl ⟨ht.outgoing i entry hi, ?_⟩, ht.batches, ?_⟩
      · rintro _ ⟨⟩ -
        exact ⟨await', rfl⟩
      · exact fun b hb ↦ .inr (.inr ⟨_, b, rfl, hb, rfl, rfl, rfl⟩)

theorem startFile_move (remoteAddr : Text) (item : BatchItem) (now : ℤ) (s : Daemon) :
    wp (startFile remoteAddr item now) (SendMove none none s) s := by
  unfold startFile
  apply wp_bind_of (sendFile_move remoteAddr item none now s)
  · rintro e t (⟨ht, -⟩ | ⟨-, -, _, _, hr, -⟩)
    · exact .ended ht (fun _ h ↦ nomatch h) fun _ h ↦ nomatch h
    · exact (nomatch hr)
  · rintro flow t (⟨ht, ⟨_, hr⟩ | ⟨result, hr⟩⟩ | ⟨ht, hbatches, send, await, hr, -, houtgoing⟩)
    · exact (nomatch hr)
    · cases hr
      exact .ended ht (fun _ h ↦ nomatch h) fun _ h ↦ nomatch h
    · cases hr
      refine ⟨ht, fun i entry hi ↦ ?_, fun i batch hi ↦ hbatches ▸ hi, fun _ h ↦ nomatch h⟩
      rcases houtgoing i entry hi with hold | hnew
      · exact .inl ⟨hold, fun _ h ↦ nomatch h⟩
      · exact .inr ⟨send, await, rfl, hnew⟩

theorem resumeBatch_move (b : BatchSend) (failed : Bool) (now : ℤ) (await : BatchAwait) (s : Daemon) :
    wp (resumeBatch b failed now await) (SendMove none (some b) s) s := by
  have hraised : ∀ {e t}, Drains s t → SendMove none (some b) s (.error e) t :=
    fun ht ↦ .ended ht (fun _ h ↦ nomatch h) fun _ _ ↦ .inr (.inl ⟨_, rfl⟩)
  have hpopped : ∀ t : Daemon, (t.activeBatches.pop b.batchId).get b.batchId = none :=
    fun t ↦ Dict.get_pop_self _ _
  unfold resumeBatch
  split
  · unfold drained
    rw [wp_raiseIf_bind]
    refine ⟨fun _ ↦ hraised (drains_refl s), fun _ ↦ ?_⟩
    have hwait : AddsNothing (waitForTransferResponse b.ps b.batchId) :=
      tame_of_keeps (keeps_waitForTransferResponse _ _) (by decide)
    apply wp_bind_of (hwait s)
    · exact fun _ _ ht ↦ hraised ht
    · intro waiter t ht
      refine .ended ht (fun _ h ↦ nomatch h) ?_
      rintro _ ⟨⟩
      exact .inr (.inr ⟨_, b, rfl, rfl, rfl, rfl, rfl⟩)
  · next waiter =>
    unfold drained
    rw [wp_raiseIf_bind]
    refine ⟨fun _ ↦ hraised (drains_refl s), fun _ ↦ ?_⟩
    have hresponse : AddsNothing (transferResponse b.ps b.batchId waiter) :=
      tame_of_keeps (keeps_transferResponse _ _ _) (by decide)
    apply wp_bind_of (hresponse s)
    · exact fun _ _ ht ↦ hraised ht
    · intro response t ht
      unfold batchAnswered
      rw [wp_ite]
      constructor
      · intro _
        apply wp_mono (sendItems_move now b b.remaining t)
        exact fun _ _ h ↦ .after ht (fun _ h ↦ nomatch h) h
      · intro _
        refine .ended (drains_trans ht (Tame.popBatch b.batchId t)) (fun _ h ↦ nomatch h) ?_
        rintro _ ⟨⟩
        exact .inl (hpopped t)
  · unfold drained
    rw [wp_raiseIf_bind]
    refine ⟨fun _ ↦ hraised (drains_refl s), fun _ ↦ ?_⟩
    apply wp_bind_of (P := fun r t ↦ r = .ok () ∧ Drains s t ∧ t.activeBatches.get b.batchId = none)
      ⟨rfl, Tame.popBatch b.batchId s, hpopped s⟩
    · exact fun _ _ h ↦ nomatch h.1
    · rintro _ t ⟨-, ht, hnone⟩
      have hsent : wp (batchSent b) (SendMove none (some b) t) t :=
        batchSent_move (fun _ h ↦ nomatch h) hnone
      exact wp_mono hsent fun _ _ h ↦ .after ht (fun _ h ↦ nomatch h) h

/-- A batch to a session is registered by `send_batch`, which awaits or has raised. -/
structure Departs (ps : ℕ) (batchId : Text) (s : Daemon) (r : Except PyError (Option Await))
    (t : Daemon) : Prop extends Steady s t where
  allocates : s.next < t.next
  outgoing : t.activeOutgoingTransfers = s.activeOutgoingTransfers
  batches : ∀ i batch, t.activeBatches.get i = some batch → s.activeBatches.get i = some batch ∨
    i = batchId ∧ batch = s.next ∧ (t.batches batch).peer = ps
  result : (∃ e, r = .error e) ∧ s.canSend ps = false ∨ ∃ b, r = .ok (some (.batch b .request)) ∧
    b.batchId = batchId ∧ b.batch = s.next ∧ b.ps = ps

theorem sendBatch_move (remoteAddr : Text) (files : List BatchItem) (totalBytes : ℤ)
    (batchName batchId : Text) (now : ℤ) (s : Daemon) :
    wp (sendBatch remoteAddr files totalBytes batchName batchId now) (fun r t ↦
      Drains s t ∧ r = .ok none ∨ ∃ ps, s.activeSessions.get remoteAddr = some ps ∧
        (s.sessions ps).state = .established ∧ files ≠ [] ∧ Departs ps batchId s r t) s := by
  unfold sendBatch
  rw [wp_get_bind]
  split
  · exact .inl ⟨drains_refl s, rfl⟩
  · next ps hactive =>
    rw [wp_ite]
    refine ⟨fun _ ↦ .inl ⟨drains_refl s, rfl⟩, fun hready ↦ ?_⟩
    rw [not_or, not_not] at hready
    obtain ⟨hstate, hfiles⟩ := hready
    set batch : Batch := {
      batchName := batchName
      totalItems := files.length
      totalBytes := totalBytes
      itemsCompleted := 0
      itemsFailed := 0
      bytesTransferred := 0
      state := .requested
      direction := .outgoing
      peer := ps }
    set t : Daemon := { s with
      next := s.next + 1
      batches := Function.update s.batches s.next batch
      activeBatches := s.activeBatches.set batchId s.next }
    have hsent := wp_and (sendEncrypted_raises ps
      (.batchRequest batchId batchName files.length totalBytes now) t)
      (keeps_sendEncrypted ps (.batchRequest batchId batchName files.length totalBytes now) t)
    have hdeparts : ∀ {r u}, Within Same [] t u → ((∃ e, r = .error e) ∧ s.canSend ps = false ∨
        ∃ b, r = .ok (some (.batch b .request)) ∧ b.batchId = batchId ∧ b.batch = s.next ∧
          b.ps = ps) → Departs ps batchId s r u := by
      intro r u hu hr
      have hsteady : Steady t u := steady_of_within hu (by simp)
      have hbatches : u.activeBatches = t.activeBatches := hu .activeBatches (by simp)
      have houtgoing : u.activeOutgoingTransfers = t.activeOutgoingTransfers :=
        hu .activeOutgoing (by simp)
      refine ⟨⟨(Nat.le_succ _).trans hsteady.next, hsteady.tasks, hsteady.loop, fun other hlt ↦ ?_⟩,
        hsteady.next, houtgoing, fun i other hi ↦ ?_, hr⟩
      · have hkept := hsteady.batch other (Nat.lt_succ_of_lt hlt)
        change _ = (Function.update s.batches s.next batch other).peer ∧
          _ = (Function.update s.batches s.next batch other).direction at hkept
        rwa [Function.update_of_ne hlt.ne] at hkept
      · rw [hbatches] at hi
        change (s.activeBatches.set batchId s.next).get i = some other at hi
        rw [Dict.get_set] at hi
        split at hi
        · next hid =>
          obtain rfl := Option.some.inj hi
          refine .inr ⟨hid, rfl, ?_⟩
          rw [(hsteady.batch s.next (Nat.lt_succ_self _)).1]
          change (Function.update s.batches s.next batch s.next).peer = ps
          rw [Function.update_self]
        · exact .inl hi
    have hregistered : wp (registerBatch batchId batch) (fun r u ↦ r = .ok s.next ∧ u = t) s :=
      ⟨rfl, rfl⟩
    apply wp_bind_of hregistered
    · exact fun _ _ h ↦ nomatch h.1
    rintro _ _ ⟨⟨⟩, rfl⟩
    apply wp_bind_of hsent
    · rintro e u ⟨hraises, hu⟩
      exact .inr ⟨ps, hactive, hstate, hfiles, hdeparts hu (.inl ⟨⟨e, rfl⟩, hraises ⟨e, rfl⟩⟩)⟩
    · rintro _ u ⟨-, hu⟩
      exact .inr ⟨ps, hactive, hstate, hfiles, hdeparts hu (.inr ⟨_, rfl, rfl, rfl, rfl⟩)⟩

end Daemon

end Ferry
