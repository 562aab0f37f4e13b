import Ferry.Base.Footprint
import Ferry.Daemon.Step
import Ferry.Service.Records

/-!
# What the segments leave alone

The parts of the daemon, and for each function that several segments share, the parts that it may
change.
-/

namespace Ferry

open Exec

namespace Daemon

/-- The parts of the daemon that some result tells apart.  What the sessions sent is in none. -/
inductive Part
  | disk
  | database
  | rows
  | devices
  | next
  | loops
  | states
  | waits
  | objects
  | outgoing
  | batchObjects
  | ledger
  | activeOutgoing
  | activeBatches
  | outcomes
  | delivered
  | tasks
  deriving DecidableEq

/-- When a part counts as unchanged.  An object that is not yet allocated may change, and a row may
cease to be INTERRUPTED. -/
def Same : Part → Daemon → Daemon → Prop
  | .disk, s, t => t.disk = s.disk ∧ t.downloadDir = s.downloadDir
  | .database, s, t => t.db = s.db
  | .rows, s, t => s.db.Settles t.db
  | .devices, s, t => t.db.devices = s.db.devices
  | .next, s, t => s.next ≤ t.next
  | .loops, s, t => t.activeSessions = s.activeSessions ∧
      ∀ ps, (t.sessions ps).loop = (s.sessions ps).loop ∧
        (t.sessions ps).remoteAddr = (s.sessions ps).remoteAddr ∧
        (t.sessions ps).remote = (s.sessions ps).remote
  | .states, s, t => ∀ ps, (t.sessions ps).state = (s.sessions ps).state
  | .waits, s, t => t.responses = s.responses ∧ t.results = s.results ∧
      ∀ ps, (t.sessions ps).transferEvents = (s.sessions ps).transferEvents ∧
        (t.sessions ps).resultEvents = (s.sessions ps).resultEvents
  | .objects, s, t => s.next ≤ t.next ∧ ∀ object < s.next, t.objects object = s.objects object
  | .outgoing, s, t => s.next ≤ t.next ∧ ∀ xfer < s.next, t.outgoing xfer = s.outgoing xfer
  | .batchObjects, s, t => s.next ≤ t.next ∧ ∀ batch < s.next, t.batches batch = s.batches batch
  | .ledger, s, t => t.ledger = s.ledger
  | .activeOutgoing, s, t => t.activeOutgoingTransfers = s.activeOutgoingTransfers
  | .activeBatches, s, t => t.activeBatches = s.activeBatches
  | .outcomes, s, t => t.completions = s.completions ∧ t.recordedTransferIds = s.recordedTransferIds
  | .delivered, s, t => t.delivered = s.delivered
  | .tasks, s, t => t.tasks = s.tasks

theorem same_refl (p : Part) (s : Daemon) : Same p s s := by
  cases p <;> simp [Same]

theorem same_trans (p : Part) {s t u : Daemon} (h : Same p s t) (h' : Same p t u) : Same p s u := by
  cases p <;> simp only [Same] at h h' ⊢
  case next | rows => exact h.trans h'
  case loops => exact ⟨h'.1.trans h.1, fun ps ↦ ⟨(h'.2 ps).1.trans (h.2 ps).1,
    (h'.2 ps).2.1.trans (h.2 ps).2.1, (h'.2 ps).2.2.trans (h.2 ps).2.2⟩⟩
  case states => exact fun ps ↦ (h' ps).trans (h ps)
  case waits => exact ⟨h'.1.trans h.1, h'.2.1.trans h.2.1, fun ps ↦
    ⟨(h'.2.2 ps).1.trans (h.2.2 ps).1, (h'.2.2 ps).2.trans (h.2.2 ps).2⟩⟩
  case objects | outgoing | batchObjects =>
    exact ⟨h.1.trans h'.1, fun o ho ↦ (h'.2 o (ho.trans_le h.1)).trans (h.2 o ho)⟩
  case disk | outcomes => exact ⟨h'.1.trans h.1, h'.2.trans h.2⟩
  all_goals exact h'.trans h

instance (p : Part) : IsPreorder Daemon (Same p) where
  refl := same_refl p
  trans _ _ _ := same_trans p

variable {α : Type}

/-- A segment changes no part outside a list. -/
abbrev Keeps (parts : List Part) (m : Segment α) : Prop := Touches Same parts m

/-! ## Access -/

theorem keeps_allocate : Keeps [] allocate := by
  intro s p _
  cases p <;> simp [Same, allocate]

/-- A use of the database that leaves the devices and settles rows. -/
theorem keeps_onDb {m : Exec PyError Database α} (hm : Stays Database.Bookkeeps m) :
    Keeps [.database] (onDb m) := by
  intro s p hp
  have hdb := hm s.db
  cases p <;> simp_all [Same, onDb, zoom, wp, Database.Bookkeeps]

/-- A use of the database that leaves the history. -/
theorem keeps_onDevices {m : Exec PyError Database α}
    (hm : Stays Database.SameTransfers m) : Keeps [.database, .devices] (onDb m) := by
  intro s p hp
  have hdb := Database.settles_of_eq (hm s.db)
  cases p <;> simp_all [Same, onDb, zoom]

theorem keeps_onLedger (f : Ledger → Ledger) : Keeps [.ledger] (onLedger f) := by
  apply touches_modify
  intro s p hp
  cases p <;> simp_all [Same]

/-- An assignment to fields of a session that no part mentions. -/
theorem keeps_onSession {ps : ℕ} {f : PeerSession → PeerSession}
    (h : ∀ session, f session = { session with
      closed := (f session).closed, sendFaults := (f session).sendFaults, sent := (f session).sent }) :
    Keeps [] (onSession ps f) := by
  apply touches_modify
  intro s p _
  have hall : ∀ ps', (Function.update s.sessions ps (f (s.sessions ps)) ps') =
      { s.sessions ps' with
        closed := (Function.update s.sessions ps (f (s.sessions ps)) ps').closed
        sendFaults := (Function.update s.sessions ps (f (s.sessions ps)) ps').sendFaults
        sent := (Function.update s.sessions ps (f (s.sessions ps)) ps').sent } := by
    intro ps'
    by_cases hps : ps' = ps
    · subst hps
      rw [Function.update_self]
      exact h _
    · rw [Function.update_of_ne hps]
  cases p <;> simp only [Same, le_refl, Database.Settles.refl, implies_true, and_self, true_and]
  all_goals
    intro ps'
    rw [hall ps']
  all_goals simp

theorem keeps_onBatch (batch : ℕ) (f : Batch → Batch) : Keeps [.batchObjects] (onBatch batch f) := by
  apply touches_modify
  intro s p hp
  cases p <;> simp_all [Same]

theorem keeps_onObject (object : ℕ) (m : Method α) : Keeps [.disk, .objects] (onObject object m) := by
  intro s p hp
  cases p <;> simp_all [Same, onObject, zoom]

theorem keeps_onOutgoing (xfer : ℕ) (m : Sending α) : Keeps [.disk, .outgoing] (onOutgoing xfer m) := by
  intro s p hp
  cases p <;> simp_all [Same, onOutgoing, zoom]

theorem keeps_newObject (incoming : IncomingTransfer) : Keeps [] (newObject incoming) := by
  intro s p _
  have hne : ∀ object < s.next, object ≠ s.next := fun object h ↦ h.ne
  cases p <;> simp +contextual [Same, newObject, allocate, bind, andThen, modify, modifyGet,
    MonadStateOf.modifyGet, pure, hne]

theorem keeps_newOutgoing (xfer : OutgoingTransfer) : Keeps [] (newOutgoing xfer) := by
  intro s p _
  have hne : ∀ object < s.next, object ≠ s.next := fun object h ↦ h.ne
  cases p <;> simp +contextual [Same, newOutgoing, allocate, bind, andThen, modify, modifyGet,
    MonadStateOf.modifyGet, pure, hne]

theorem keeps_registerBatch (batchId : Text) (batch : Batch) :
    Keeps [.activeBatches] (registerBatch batchId batch) := by
  intro s p hp
  have hne : ∀ object < s.next, object ≠ s.next := fun object h ↦ h.ne
  cases p <;> simp_all +contextual [Same, registerBatch, allocate, bind, andThen, modify, modifyGet,
    MonadStateOf.modifyGet, pure]

theorem keeps_popBatch (batchId : Text) : Keeps [.activeBatches] (popBatch batchId) := by
  apply touches_modify
  intro s p hp
  cases p <;> simp_all [Same]

theorem keeps_popOutgoing (transferId : Text) : Keeps [.activeOutgoing] (popOutgoing transferId) := by
  apply touches_modify
  intro s p hp
  cases p <;> simp_all [Same]

/-! ## Sending -/

theorem keeps_writeFrame (ps : ℕ) (frame : Frame) : Keeps [] (writeFrame ps frame) := by
  unfold writeFrame
  apply touches_get_bind
  intro s
  refine touches_bind (keeps_onSession fun _ ↦ rfl) fun _ ↦ ?_
  split
  · exact touches_throw _
  · exact keeps_onSession fun _ ↦ rfl

theorem keeps_sendEncrypted (ps : ℕ) (frame : Frame) : Keeps [] (sendEncrypted ps frame) := by
  unfold sendEncrypted
  apply touches_get_bind
  intro s
  exact touches_bind (touches_raiseIf _ _) fun _ ↦ keeps_writeFrame ps frame

theorem keeps_drained (failed : Bool) : Keeps [] (drained failed) := touches_raiseIf _ _

theorem keeps_sendQuietly {parts : List Part} (ps : ℕ) (frame : Frame) (await : α)
    {otherwise : Segment α} (h : Keeps parts otherwise) :
    Keeps parts (sendQuietly ps frame await otherwise) := by
  unfold sendQuietly
  apply touches_bind
  · refine touches_tryCatch (touches_bind ?_ fun _ ↦ touches_pure _) fun _ ↦ touches_pure _
    exact (keeps_sendEncrypted ps frame).mono (by simp)
  · intro written
    split
    · exact touches_pure _
    · exact h

theorem keeps_reply (ps : ℕ) (frame : Frame) : Keeps [] (reply ps frame) :=
  touches_bind (keeps_sendEncrypted ps frame) fun _ ↦ touches_pure _

theorem keeps_replyQuietly (ps : ℕ) (frame : Frame) : Keeps [] (replyQuietly ps frame) :=
  keeps_sendQuietly ps frame _ (touches_pure _)

/-! ## Waiting -/

theorem keeps_waitForTransferResponse (ps : ℕ) (transferId : Text) :
    Keeps [.waits] (waitForTransferResponse ps transferId) := by
  intro s p hp
  cases p <;> simp_all [Same, waitForTransferResponse, onSession, allocate, bind, andThen, modify,
    modifyGet, MonadStateOf.modifyGet, pure, Function.update_apply, apply_ite]

theorem keeps_waitForTransferResult (ps : ℕ) (transferId : Text) :
    Keeps [.waits] (waitForTransferResult ps transferId) := by
  intro s p hp
  cases p <;> simp_all [Same, waitForTransferResult, onSession, allocate, bind, andThen, modify,
    modifyGet, MonadStateOf.modifyGet, pure, Function.update_apply, apply_ite]

/-- An assignment to the two dictionaries of events of a session. -/
theorem keeps_onEvents {ps : ℕ} {f : PeerSession → PeerSession}
    (h : ∀ session, f session = { session with
      transferEvents := (f session).transferEvents, resultEvents := (f session).resultEvents }) :
    Keeps [.waits] (onSession ps f) := by
  apply touches_modify
  intro s p hp
  have hall : ∀ ps', (Function.update s.sessions ps (f (s.sessions ps)) ps') =
      { s.sessions ps' with
        transferEvents := (Function.update s.sessions ps (f (s.sessions ps)) ps').transferEvents
        resultEvents := (Function.update s.sessions ps (f (s.sessions ps)) ps').resultEvents } := by
    intro ps'
    by_cases hps : ps' = ps
    · subst hps
      rw [Function.update_self]
      exact h _
    · rw [Function.update_of_ne hps]
  cases p
  case waits => exact absurd List.mem_cons_self hp
  all_goals simp only [Same, le_refl, Database.Settles.refl, implies_true, and_self, true_and]
  all_goals
    intro ps'
    rw [hall ps']
  all_goals simp

theorem keeps_transferResponse (ps : ℕ) (transferId : Text) (waiter : ℕ) :
    Keeps [.waits] (transferResponse ps transferId waiter) := by
  unfold transferResponse
  apply touches_get_bind
  intro s
  refine touches_bind (touches_raiseIf _ _) fun _ ↦ ?_
  exact touches_bind (keeps_onEvents fun _ ↦ rfl) fun _ ↦ touches_pure _

theorem keeps_transferResult (ps : ℕ) (transferId : Text) (waiter : ℕ) :
    Keeps [.waits] (transferResult ps transferId waiter) := by
  unfold transferResult
  apply touches_get_bind
  intro s
  refine touches_bind (touches_raiseIf _ _) fun _ ↦ ?_
  exact touches_bind (keeps_onEvents fun _ ↦ rfl) fun _ ↦ touches_pure _

theorem keeps_signalResponse (ps : ℕ) (transferId : Text) (value : Response) :
    Keeps [.waits] (signalResponse ps transferId value) := by
  apply touches_modify
  intro s p hp
  split
  · exact same_refl p s
  · cases p <;> simp_all [Same]

theorem keeps_signalResult (ps : ℕ) (transferId : Text) (value : Bool) :
    Keeps [.waits] (signalResult ps transferId value) := by
  apply touches_modify
  intro s p hp
  split
  · exact same_refl p s
  · cases p <;> simp_all [Same]

theorem keeps_signalCancel (ps : ℕ) (transferId : Text) :
    Keeps [.waits] (signalCancel ps transferId) :=
  touches_bind (keeps_signalResponse _ _ _) fun _ ↦ keeps_signalResult _ _ _

/-! ## Outcomes -/

theorem keeps_recordTransferOnce (transferId : Text) {record : TransferRecord}
    (hstatus : record.status ≠ .interrupted) :
    Keeps [.database, .outcomes] (recordTransferOnce transferId record) := by
  unfold recordTransferOnce
  apply touches_get_bind
  intro s
  refine touches_ite _ (touches_pure _) ?_
  refine touches_tryCatch (touches_bind ?_ fun _ ↦ ?_) fun _ ↦ touches_pure _
  · exact (keeps_onDb (Database.bookkeeps_addTransfer _ hstatus)).mono (by decide)
  apply touches_modify
  intro s p hp
  cases p <;> simp_all [Same]

theorem keeps_notifyTransferComplete (transferId : Text) (success : Bool) (fileName : Text)
    (direction : Direction) :
    Keeps [.outcomes] (notifyTransferComplete transferId success fileName direction) := by
  apply touches_modify
  intro s p hp
  cases p <;> simp_all [Same]

theorem keeps_reportIncoming (transferId : Text) (ps : ℕ) (metadata : TransferMetadata)
    {status : TransferStatus} (hstatus : status ≠ .interrupted) (startedAt : ℤ) (sha256 : Text) :
    Keeps [.database, .outcomes] (reportIncoming transferId ps metadata status startedAt sha256) := by
  unfold reportIncoming
  apply touches_get_bind
  intro s
  exact touches_bind (keeps_recordTransferOnce _ hstatus) fun _ ↦
    (keeps_notifyTransferComplete _ _ _ _).mono (by decide)

theorem keeps_reportBatch (batchId : Text) (deviceId : JsonValue) (batch : Batch)
    (direction : Direction) {status : TransferStatus} (hstatus : status ≠ .interrupted)
    (startedAt : ℤ) :
    Keeps [.database, .outcomes] (reportBatch batchId deviceId batch direction status startedAt) :=
  touches_bind (keeps_recordTransferOnce _ hstatus) fun _ ↦
    (keeps_notifyTransferComplete _ _ _ _).mono (by decide)

/-! ## The session loop -/

theorem keeps_countBatchBytes (batchId : Text) (length : ℕ) :
    Keeps [.batchObjects] (countBatchBytes batchId length) := by
  unfold countBatchBytes
  apply touches_get_bind
  intro s
  split
  · exact touches_pure _
  · exact keeps_onBatch _ _

theorem keeps_chunkErrorSent (transferId : Text) (metadata : TransferMetadata) (owner : ℕ) :
    Keeps [.database, .outcomes] (chunkErrorSent transferId metadata owner) :=
  touches_bind (keeps_reportIncoming _ _ _ (by decide) _ _) fun _ ↦ touches_pure _

theorem keeps_countBatchItem (ps : ℕ) (metadata : TransferMetadata) (success : Bool) :
    Keeps [.database, .outcomes, .batchObjects, .activeBatches]
      (countBatchItem ps metadata success) := by
  unfold countBatchItem
  apply touches_get_bind
  intro s
  split
  · exact touches_pure _
  · refine touches_bind ((keeps_onBatch _ _).mono (by decide)) fun _ ↦ ?_
    apply touches_get_bind
    intro t
    apply touches_ite
    · exact touches_bind ((keeps_popBatch _).mono (by decide)) fun _ ↦
        (keeps_reportBatch _ _ _ _ (by split <;> decide) _).mono (by decide)
    · exact touches_pure _

theorem keeps_onResponse (ps : ℕ) (transferId : JsonValue) (value : Response) :
    Keeps [.waits] (onResponse ps transferId value) := by
  unfold onResponse
  refine touches_bind (touches_ofResult _) fun key ↦ ?_
  cases key with
  | none => exact touches_pure _
  | some key => exact touches_bind (keeps_signalResponse _ _ _) fun _ ↦ touches_pure _

theorem keeps_onResult (ps : ℕ) (transferId : JsonValue) (success : Bool) :
    Keeps [.waits, .delivered] (onResult ps transferId success) := by
  unfold onResult
  refine touches_bind (touches_ofResult _) fun key ↦ ?_
  cases key with
  | none => exact touches_pure _
  | some key =>
    refine touches_bind ((keeps_signalResult _ _ _).mono (by decide)) fun _ ↦ ?_
    refine touches_bind (touches_modify fun s p hp ↦ ?_) fun _ ↦ touches_pure _
    split
    · cases p <;> simp_all [Same]
    · exact same_refl p s

theorem keeps_interruptedTransfer (transferId : JsonValue) :
    Keeps [.database] (interruptedTransfer transferId) := by
  unfold interruptedTransfer
  refine touches_bind (touches_ofResult _) fun parameter ↦ ?_
  cases parameter with
  | none => exact touches_bind (keeps_onDb Database.bookkeeps_access) fun _ ↦ touches_pure _
  | some key =>
    exact touches_bind (keeps_onDb (Database.bookkeeps_getInterruptedTransfer key)) fun _ ↦
      touches_pure _

theorem keeps_onBatchRequest (ps : ℕ) (payload : Payload) :
    Keeps [.activeBatches] (onBatchRequest ps payload) := by
  unfold onBatchRequest
  apply touches_get_bind
  intro s
  split
  · exact touches_pure _
  · apply touches_ite
    · exact (keeps_reply _ _).mono (by simp)
    · exact touches_bind (keeps_registerBatch _ _) fun _ ↦ touches_pure _

theorem keeps_onBatchComplete (batchId : JsonValue) :
    Keeps [.activeBatches] (onBatchComplete batchId) := by
  unfold onBatchComplete
  refine touches_bind (touches_ofResult _) fun key ↦ ?_
  cases key with
  | none => exact touches_pure _
  | some key => exact touches_bind (keeps_popBatch _) fun _ ↦ touches_pure _

theorem keeps_onBatchCancel (batchId : JsonValue) :
    Keeps [.activeBatches, .outcomes] (onBatchCancel batchId) := by
  unfold onBatchCancel
  refine touches_bind (touches_ofResult _) fun key ↦ ?_
  apply touches_get_bind
  intro s
  cases key with
  | none => exact touches_pure _
  | some key =>
    refine touches_bind ((keeps_popBatch _).mono (by decide)) fun _ ↦ ?_
    split
    · exact touches_pure _
    · exact touches_bind ((keeps_notifyTransferComplete _ _ _ _).mono (by decide)) fun _ ↦
        touches_pure _

theorem keeps_transitionSession (ps : ℕ) (new : SessionState) :
    Keeps [.states] (transitionSession ps new) := by
  unfold transitionSession
  apply touches_get_bind
  intro s
  refine touches_bind (touches_raiseIf _ _) fun _ ↦ ?_
  apply touches_modify
  intro t p hp
  cases p <;> simp_all [Same, Function.update_apply, apply_ite]

theorem keeps_establish (ps : ℕ) (now : ℤ) (uuid : Text) :
    Keeps [.states, .database, .devices] (establish ps now uuid) := by
  unfold establish
  refine touches_bind ((keeps_transitionSession _ _).mono (by decide)) fun _ ↦ ?_
  apply touches_get_bind
  intro s
  exact touches_bind ((keeps_onDevices (sameTransfers_persistTrust _ _ _)).mono (by decide)) fun _ ↦
    (keeps_transitionSession _ _).mono (by decide)

theorem keeps_acceptRemotely (ps : ℕ) (now : ℤ) (uuid : Text) :
    Keeps [.states, .database, .devices] (acceptRemotely ps now uuid) := by
  unfold acceptRemotely
  apply touches_get_bind
  intro s
  apply touches_ite
  · exact touches_bind ((keeps_transitionSession _ _).mono (by decide)) fun _ ↦ touches_pure _
  · apply touches_ite
    · exact touches_bind (keeps_establish _ _ _) fun _ ↦ (keeps_replyQuietly _ _).mono (by simp)
    · exact touches_pure _

theorem keeps_onPairDecision (ps : ℕ) (payload : JsonValue) (now : ℤ) (uuid : Text) :
    Keeps [.states, .database, .devices] (onPairDecision ps payload now uuid) := by
  unfold onPairDecision
  refine touches_bind (touches_ofResult _) fun payload ↦ ?_
  refine touches_ite _ (touches_pure _) ?_
  exact touches_ite _ (keeps_acceptRemotely _ _ _) (touches_pure _)

theorem keeps_parseNotification {β : Type} (parsed : Except PyError β) :
    Keeps [] (parseNotification parsed) := by
  unfold parseNotification
  split
  · exact touches_pure _
  · exact touches_bind (touches_raiseIf _ _) fun _ ↦ touches_pure _

theorem keeps_closeStates (ps : ℕ) : Keeps [.states] (closeStates ps) := by
  have hclose : Keeps [.states] (do
      transitionSession ps .closing
      transitionSession ps .disconnected) :=
    touches_bind (keeps_transitionSession _ _) fun _ ↦ keeps_transitionSession _ _
  unfold closeStates
  apply touches_bind
  · refine touches_tryCatch hclose fun _ ↦ touches_get_bind fun s ↦ ?_
    apply touches_ite
    · exact touches_tryCatch (keeps_transitionSession _ _) fun _ ↦ touches_pure _
    · exact touches_pure _
  · intro _
    apply touches_get_bind
    intro s
    apply touches_ite
    · exact touches_tryCatch hclose fun _ ↦ touches_pure _
    · exact touches_pure _

theorem keeps_forEach {β : Type} {parts : List Part} {f : β → Segment Unit}
    (h : ∀ b, Keeps parts (f b)) (items : List β) : Keeps parts (forEach f items) := by
  induction items with
  | nil => exact touches_pure _
  | cons b rest ih => exact touches_bind (h b) fun _ ↦ ih

theorem keeps_cancelOutgoingForPeer (ps : ℕ) (transferId : Text) (xfer : ℕ) :
    Keeps [.disk, .outgoing, .waits] (cancelOutgoingForPeer ps transferId xfer) :=
  touches_bind ((keeps_onOutgoing _ _).mono (by decide)) fun _ ↦
    (keeps_signalCancel _ _).mono (by decide)

/-! ## The calls of the user -/

theorem keeps_disconnectSession (ps : ℕ) : Keeps [.states] (disconnectSession ps) := by
  have hclosed : Keeps [.states] (do
      onSession ps fun session ↦ { session with closed := true }
      pure (none : Option Await)) :=
    touches_bind ((keeps_onSession fun _ ↦ rfl).mono (by simp)) fun _ ↦ touches_pure _
  refine touches_get_bind fun s ↦ touches_ite _ ?_ hclosed
  refine touches_bind ?_ fun _ ↦ hclosed
  exact touches_tryCatch (keeps_transitionSession _ _) fun _ ↦ touches_pure _

theorem keeps_acceptPairing (remoteAddr : Text) (now : ℤ) (uuid : Text) :
    Keeps [.states, .database, .devices] (acceptPairing remoteAddr now uuid) := by
  refine touches_get_bind fun s ↦ ?_
  split
  · exact touches_pure _
  · next ps _ =>
    have hsent : Keeps [.states, .database, .devices] (do
        sendEncrypted ps (.pairDecision true)
        pure (none : Option Await)) :=
      touches_bind ((keeps_sendEncrypted _ _).mono (by simp)) fun _ ↦ touches_pure _
    apply touches_ite
    · exact touches_bind ((keeps_transitionSession _ _).mono (by decide)) fun _ ↦ hsent
    · exact touches_ite _ (touches_bind (keeps_establish _ _ _) fun _ ↦ hsent) hsent

theorem keeps_rejectPairing (remoteAddr : Text) : Keeps [.states] (rejectPairing remoteAddr) := by
  unfold rejectPairing
  apply touches_get_bind
  intro s
  split
  · exact touches_pure _
  · exact keeps_sendQuietly _ _ _ (keeps_disconnectSession _)

theorem keeps_acceptBatch (remoteAddr batchId : Text) :
    Keeps [.batchObjects] (acceptBatch remoteAddr batchId) := by
  unfold acceptBatch
  apply touches_get_bind
  intro s
  split
  · exact touches_pure _
  · split
    · exact touches_pure _
    · refine touches_bind (keeps_onBatch _ _) fun _ ↦ ?_
      exact touches_bind ((keeps_sendEncrypted _ _).mono (by simp)) fun _ ↦ touches_pure _

theorem keeps_rejectBatch (remoteAddr batchId : Text) :
    Keeps [.activeBatches] (rejectBatch remoteAddr batchId) := by
  unfold rejectBatch
  apply touches_get_bind
  intro s
  refine touches_bind (keeps_popBatch _) fun _ ↦ ?_
  split
  · exact touches_pure _
  · split
    · exact touches_pure _
    · exact touches_bind ((keeps_sendEncrypted _ _).mono (by simp)) fun _ ↦ touches_pure _

theorem keeps_broadcastCancel (now : ℤ) (batchId : Text) (batch size : ℕ) (sessions : List ℕ) :
    Keeps [.database, .outcomes] (broadcastCancel now batchId batch size sessions) := by
  induction sessions with
  | nil =>
    refine touches_get_bind fun s ↦ touches_bind (touches_raiseIf _ _) fun _ ↦ ?_
    exact touches_bind (keeps_reportBatch _ _ _ _ (by decide) _) fun _ ↦ touches_pure _
  | cons ps rest ih =>
    refine touches_get_bind fun s ↦ touches_bind (touches_raiseIf _ _) fun _ ↦ ?_
    exact keeps_sendQuietly _ _ _ ih

theorem keeps_incomingCancelled (transferId : Text) (object : ℕ) (deviceId : JsonValue) (now : ℤ) :
    Keeps [.database, .outcomes] (incomingCancelled transferId object deviceId now) := by
  refine touches_get_bind fun s ↦
    touches_bind (keeps_recordTransferOnce _ (by simp [incomingRecord])) fun _ ↦ ?_
  exact touches_bind ((keeps_notifyTransferComplete _ _ _ _).mono (by decide)) fun _ ↦ touches_pure _

theorem keeps_rejectionSent (timer : AcceptanceTimer) :
    Keeps [.database, .outcomes] (rejectionSent timer) :=
  touches_bind (keeps_reportIncoming _ _ _ (by decide) _ _) fun _ ↦ touches_pure _

theorem keeps_monitorStallTimeouts (now : ℤ) : Keeps [] (monitorStallTimeouts now) := by
  refine touches_get_bind fun s ↦ keeps_forEach (fun ps ↦ ?_) _
  exact keeps_onSession fun _ ↦ rfl

/-! ## Sending files and batches -/

/-- The parts that a segment of `send_file` may change while its transfer is registered. -/
def sendParts : List Part := [.disk, .database, .waits, .outgoing, .batchObjects, .outcomes]

theorem keeps_reportFile (send : FileSend) {status : TransferStatus}
    (hstatus : status ≠ .interrupted) (sha256 : Text) :
    Keeps [.database, .outcomes] (reportFile send status sha256) := by
  refine touches_get_bind fun s ↦ touches_ite _ ?_ (touches_pure _)
  exact touches_bind (keeps_recordTransferOnce _ hstatus) fun _ ↦
    (keeps_notifyTransferComplete _ _ _ _).mono (by decide)

theorem keeps_fileUnsent (send : FileSend) {status : TransferStatus}
    (hstatus : status ≠ .interrupted) : Keeps [.database, .outcomes] (fileUnsent send status) :=
  touches_bind (keeps_reportFile _ hstatus _) fun _ ↦ touches_pure _

theorem keeps_pullFrame (send : FileSend)
    (pull : Sending (Option (Bytes × OutgoingTransfer.ChunkStream))) :
    Keeps [.disk, .outgoing] (pullFrame send pull) := by
  apply touches_tryCatch
  · refine touches_bind (keeps_onOutgoing _ _) fun next ↦ touches_get_bind fun s ↦ ?_
    split
    · exact touches_pure _
    · refine touches_ite _ (touches_pure _) ?_
      exact touches_bind ((keeps_writeFrame _ _).mono (by simp)) fun _ ↦ touches_pure _
  · exact fun _ ↦ touches_ite _ (touches_pure _) (touches_throw _)

theorem keeps_streamed (send : FileSend) : Keeps [.database, .outcomes] (streamed send) := by
  refine touches_get_bind fun s ↦ touches_ite _ ?_ ?_
  · exact keeps_sendQuietly _ _ _ (keeps_fileUnsent _ (by decide))
  · exact touches_bind ((keeps_sendEncrypted _ _).mono (by simp)) fun _ ↦ touches_pure _

theorem keeps_streamFile (send : FileSend) (batch : Option ℕ)
    (pull : Sending (Option (Bytes × OutgoingTransfer.ChunkStream))) :
    Keeps sendParts (streamFile send batch pull) := by
  refine touches_bind ((keeps_pullFrame _ _).mono (by decide)) fun pulled ↦ ?_
  split
  · exact touches_pure _
  · exact (keeps_streamed _).mono (by decide)
  · exact (keeps_sendQuietly _ _ _ (keeps_fileUnsent _ (by decide))).mono (by decide)

theorem keeps_fileAnswered (send : FileSend) (response : Response) :
    Keeps sendParts (fileAnswered send response) := by
  refine touches_get_bind fun s ↦ touches_ite _ (keeps_streamFile _ _ _) ?_
  exact (keeps_fileUnsent _ (by split <;> decide)).mono (by decide)

theorem keeps_fileResult (send : FileSend) (result : Bool) :
    Keeps [.database, .outcomes] (fileResult send result) :=
  touches_bind (keeps_reportFile _ (by split <;> decide) _) fun _ ↦ touches_pure _

theorem keeps_resumeFile (send : FileSend) (failed : Bool) (await : FileAwait) :
    Keeps sendParts (resumeFile send failed await) := by
  have hdrained : Keeps sendParts (drained failed) := (keeps_drained failed).mono (by simp)
  unfold resumeFile
  split
  · exact touches_bind hdrained fun _ ↦
      touches_bind ((keeps_waitForTransferResponse _ _).mono (by decide)) fun _ ↦ touches_pure _
  · refine touches_ite _ ?_ ?_
    · exact touches_bind (touches_pure _) fun _ ↦ keeps_fileAnswered _ _
    · exact touches_bind ((keeps_transferResponse _ _ _).mono (by decide)) fun _ ↦
        keeps_fileAnswered _ _
  · refine touches_bind hdrained fun _ ↦ ?_
    dsimp only
    split
    · exact keeps_streamFile _ _ _
    · exact touches_bind ((keeps_onBatch _ _).mono (by decide)) fun _ ↦ keeps_streamFile _ _ _
  · exact (keeps_fileUnsent _ (by decide)).mono (by decide)
  · exact (keeps_fileUnsent _ (by decide)).mono (by decide)
  · exact touches_bind hdrained fun _ ↦
      touches_bind ((keeps_waitForTransferResult _ _).mono (by decide)) fun _ ↦ touches_pure _
  · have hresult : ∀ result, Keeps sendParts (fileResult send result) := fun result ↦
      (keeps_fileResult send result).mono (by decide)
    refine touches_ite _ ?_ ?_
    · exact touches_bind (touches_pure _) fun _ ↦ hresult _
    · exact touches_bind ((keeps_transferResult _ _ _).mono (by decide)) fun _ ↦ hresult _

theorem keeps_unregistering {parts : List Part} (transferId : Text) {m : Segment FileFlow}
    (h : Keeps parts m) : Keeps (.activeOutgoing :: parts) (unregistering transferId m) := by
  have hpop : Keeps (.activeOutgoing :: parts) (popOutgoing transferId) :=
    (keeps_popOutgoing transferId).mono (by simp)
  apply touches_bind
  · refine touches_tryCatch (h.mono fun _ ↦ List.mem_cons_of_mem _) fun e ↦ ?_
    exact touches_bind hpop fun _ ↦ touches_throw _
  · intro flow
    split
    · exact touches_bind hpop fun _ ↦ touches_pure _
    · exact touches_pure _

theorem keeps_buildMetadata (xfer : ℕ) (mimeType : Text) (now : ℤ) :
    Keeps [.disk, .outgoing] (buildMetadata xfer mimeType now) := by
  refine touches_get_bind fun s ↦ touches_tryCatch ?_ fun e ↦
    touches_ite _ (touches_pure _) (touches_throw _)
  exact touches_bind (keeps_onOutgoing _ _) fun _ ↦ touches_pure _

theorem keeps_sendFile (remoteAddr : Text) (item : BatchItem) (caller : Option BatchSend) (now : ℤ) :
    Keeps [.activeOutgoing, .disk, .outgoing] (sendFile remoteAddr item caller now) := by
  refine touches_get_bind fun s ↦ touches_bind (touches_ofResult _) fun ps ↦
    touches_bind (touches_raiseIf _ _) fun _ ↦ ?_
  refine touches_bind ((keeps_newOutgoing _).mono (by simp)) fun xfer ↦ ?_
  refine touches_bind ((keeps_buildMetadata _ _ _).mono (by decide)) fun metadata ↦ ?_
  split
  · exact touches_pure _
  · refine touches_bind (touches_modify fun s p hp ↦ ?_) fun _ ↦ ?_
    · cases p <;> simp_all [Same]
    · refine (keeps_unregistering _ ?_).mono (List.cons_subset_cons _ (List.nil_subset _))
      exact touches_bind (keeps_sendEncrypted _ _) fun _ ↦ touches_pure _

theorem keeps_countSent (b : BatchSend) (success : Bool) : Keeps [.batchObjects] (countSent b success) :=
  touches_bind (keeps_onBatch _ _) fun _ ↦ touches_pure _

theorem keeps_batchSent (b : BatchSend) : Keeps [.database, .outcomes] (batchSent b) :=
  touches_get_bind fun _ ↦ touches_bind (keeps_reportBatch _ _ _ _ (by split <;> decide) _) fun _ ↦
    touches_pure _

theorem keeps_completeBatch (b : BatchSend) : Keeps [.database, .outcomes] (completeBatch b) := by
  refine touches_get_bind fun s ↦ ?_
  split
  · exact keeps_batchSent _
  · exact touches_bind ((keeps_sendEncrypted _ _).mono (by simp)) fun _ ↦ touches_pure _

theorem keeps_sendItems (now : ℤ) (b : BatchSend) (items : List BatchItem) :
    Keeps (.activeOutgoing :: sendParts) (sendItems now b items) := by
  induction items generalizing b with
  | nil => exact (keeps_completeBatch b).mono (by decide)
  | cons item rest ih =>
    refine touches_get_bind fun s ↦ ?_
    split
    · exact (keeps_completeBatch b).mono (by decide)
    · refine touches_bind ((keeps_sendFile _ _ _ _).mono (by decide)) fun flow ↦ ?_
      split
      · exact touches_pure _
      · exact touches_bind ((keeps_countSent _ _).mono (by decide)) fun b ↦ ih b

theorem keeps_fileReturned (now : ℤ) (caller : Option BatchSend) (flow : FileFlow) :
    Keeps (.activeOutgoing :: sendParts) (fileReturned now caller flow) := by
  unfold fileReturned
  split
  · exact touches_pure _
  · split
    · exact touches_pure _
    · exact touches_bind ((keeps_countSent _ _).mono (by decide)) fun b ↦ keeps_sendItems _ _ _

theorem keeps_resumeSend (send : FileSend) (failed : Bool) (now : ℤ) (await : FileAwait) :
    Keeps (.activeOutgoing :: sendParts) (resumeSend send failed now await) :=
  touches_bind (keeps_unregistering _ (keeps_resumeFile _ _ _)) fun _ ↦ keeps_fileReturned _ _ _

theorem keeps_startFile (remoteAddr : Text) (item : BatchItem) (now : ℤ) :
    Keeps (.activeOutgoing :: sendParts) (startFile remoteAddr item now) :=
  touches_bind ((keeps_sendFile _ _ _ _).mono (by decide)) fun _ ↦ keeps_fileReturned _ _ _

theorem keeps_sendBatch (remoteAddr : Text) (files : List BatchItem) (totalBytes : ℤ)
    (batchName batchId : Text) (now : ℤ) :
    Keeps [.activeBatches] (sendBatch remoteAddr files totalBytes batchName batchId now) := by
  refine touches_get_bind fun s ↦ ?_
  split
  · exact touches_pure _
  · refine touches_ite _ (touches_pure _) ?_
    refine touches_bind (keeps_registerBatch _ _) fun _ ↦ ?_
    exact touches_bind ((keeps_sendEncrypted _ _).mono (by simp)) fun _ ↦ touches_pure _

theorem keeps_resumeBatch (b : BatchSend) (failed : Bool) (now : ℤ) (await : BatchAwait) :
    Keeps (.activeOutgoing :: .activeBatches :: sendParts) (resumeBatch b failed now await) := by
  have hdrained : Keeps (.activeOutgoing :: .activeBatches :: sendParts) (drained failed) :=
    (keeps_drained failed).mono (by simp)
  have hpop : Keeps (.activeOutgoing :: .activeBatches :: sendParts) (popBatch b.batchId) :=
    (keeps_popBatch _).mono (by decide)
  unfold resumeBatch
  split
  · exact touches_bind hdrained fun _ ↦
      touches_bind ((keeps_waitForTransferResponse _ _).mono (by decide)) fun _ ↦ touches_pure _
  · refine touches_bind hdrained fun _ ↦
      touches_bind ((keeps_transferResponse _ _ _).mono (by decide)) fun response ↦ ?_
    refine touches_ite _ ((keeps_sendItems _ _ _).mono (by decide)) ?_
    exact touches_bind hpop fun _ ↦ touches_pure _
  · exact touches_bind hdrained fun _ ↦ touches_bind hpop fun _ ↦
      (keeps_batchSent _).mono (by decide)

end Daemon

end Ferry
