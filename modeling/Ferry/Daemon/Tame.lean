import Ferry.Daemon.Moves

/-!
# Relations across the segments

Most segments leave `_active_outgoing_transfers` alone, take batches away at most, and change nothing of
a batch but its counters and its state.  A relation that such changes keep is kept by all these
segments; the dictionaries grow in a BATCH_REQUEST and in the calls of `send_file` and `send_batch` only.
-/

namespace Ferry

open Exec Text

namespace Daemon

variable {α : Type} {parts : List Part} {s t u : Daemon}

/-! ## Tame relations -/

/-- The parts that belong to the sessions, the coroutines, the outgoing transfers and the batches. -/
def trafficParts : List Part :=
  [.next, .loops, .batchObjects, .activeOutgoing, .activeBatches, .tasks]

/-- A batch with other counters, or in another state. -/
structure Batch.SameTerms (batch batch' : Batch) : Prop where
  peer : batch'.peer = batch.peer
  direction : batch'.direction = batch.direction
  totalItems : batch'.totalItems = batch.totalItems
  totalBytes : batch'.totalBytes = batch.totalBytes

/-- A relation that changes of other parts keep, as well as the counters of batches and the end of a
batch. -/
class Tame (R : Daemon → Daemon → Prop) : Prop extends IsPreorder Daemon R where
  within : ∀ {parts s t}, Within Same parts s t → (∀ p ∈ parts, p ∉ trafficParts) → R s t
  onBatch : ∀ {f : Batch → Batch}, (∀ b : Batch, b.SameTerms (f b)) → ∀ batch,
    Stays R (onBatch batch f)
  popBatch : ∀ batchId, Stays R (popBatch batchId)

section Rules

variable {R : Daemon → Daemon → Prop}

theorem tame_get_bind {f : Daemon → Segment α} (h : ∀ s, Stays R (f s)) : Stays R (get >>= f) :=
  fun s ↦ h s s

theorem tame_of_keeps [Tame R] {m : Segment α} (h : Keeps parts m)
    (hparts : ∀ p ∈ parts, p ∉ trafficParts) : Stays R m := fun s ↦ Tame.within (h s) hparts

theorem tame_onDb [Tame R] (m : Exec PyError Database α) : Stays R (onDb m) := by
  have hkeeps : Keeps [.database, .rows, .devices] (onDb m) := fun s p hp ↦ by
    cases p <;> simp_all [Same, onDb, zoom]
  exact fun s ↦ Tame.within (hkeeps s) (by decide)

/-- A coroutine that is a call of `send_file` or `send_batch`. -/
def Await.isSending : Await → Bool
  | .file _ _ | .batch _ _ => true
  | _ => false

/-- A call that leaves no call of `send_file` or `send_batch` behind. -/
def Ceases (R : Daemon → Daemon → Prop) (m : Call) : Prop :=
  ∀ s, wp m (fun r t ↦ R s t ∧ ∀ left, r = .ok (some left) → left.isSending = false) s

theorem ceases_get_bind {f : Daemon → Call} (h : ∀ s, Ceases R (f s)) :
    Ceases R (get >>= f) := fun s ↦ h s s

theorem ceases_ite (c : Prop) [Decidable c] {m n : Call} (hm : Ceases R m)
    (hn : Ceases R n) : Ceases R (if c then m else n) := by
  split
  · exact hm
  · exact hn

variable [IsPreorder Daemon R]

theorem ceases_none : Ceases R (pure none) :=
  fun s ↦ ⟨refl_of R s, fun _ h ↦ nomatch h⟩

theorem ceases_await {await : Await} (h : await.isSending = false) :
    Ceases R (pure (some await)) := by
  refine fun s ↦ ⟨refl_of R s, ?_⟩
  rintro left ⟨⟩
  exact h

theorem ceases_bind {m : Segment α} {f : α → Call} (hm : Stays R m)
    (hf : ∀ a, Ceases R (f a)) : Ceases R (m >>= f) := by
  intro s
  apply wp_bind_of (hm s)
  · exact fun _ _ h ↦ ⟨h, fun _ h ↦ nomatch h⟩
  · exact fun a t ht ↦ wp_mono (hf a t) fun _ _ h ↦ ⟨trans_of R ht h.1, h.2⟩

theorem stays_forEach {β : Type} {f : β → Segment Unit} (h : ∀ b, Stays R (f b))
    (items : List β) : Stays R (forEach f items) := by
  induction items with
  | nil => exact stays_pure _
  | cons b rest ih => exact stays_bind (h b) fun _ ↦ ih

end Rules

section Tame

variable {R : Daemon → Daemon → Prop} [Tame R]

theorem tame_onLedger (f : Ledger → Ledger) : Stays R (onLedger f) :=
  tame_of_keeps (keeps_onLedger f) (by decide)

theorem tame_onObject (object : ℕ) (m : Method α) : Stays R (onObject object m) :=
  tame_of_keeps (keeps_onObject object m) (by decide)

theorem tame_cancelObject (object : ℕ) : Stays R (cancelObject object) :=
  tame_onObject object _

theorem tame_sendEncrypted (ps : ℕ) (frame : Frame) : Stays R (sendEncrypted ps frame) :=
  tame_of_keeps (keeps_sendEncrypted ps frame) (by simp)

theorem tame_sendQuietly (ps : ℕ) (frame : Frame) (await : α) {otherwise : Segment α}
    (h : Stays R otherwise) : Stays R (sendQuietly ps frame await otherwise) := by
  refine stays_bind ?_ fun written ↦ stays_ite _ (stays_pure _) h
  exact stays_tryCatch (stays_bind (tame_sendEncrypted _ _) fun _ ↦ stays_pure _)
    fun _ ↦ stays_pure _

theorem tame_reply (ps : ℕ) (frame : Frame) : Stays R (reply ps frame) :=
  tame_of_keeps (keeps_reply ps frame) (by simp)

theorem tame_replyQuietly (ps : ℕ) (frame : Frame) : Stays R (replyQuietly ps frame) :=
  tame_of_keeps (keeps_replyQuietly ps frame) (by simp)

theorem tame_recordTransferOnce (transferId : Text) (record : TransferRecord) :
    Stays R (recordTransferOnce transferId record) := by
  have houtcome : Keeps [.outcomes] (modify fun s ↦
      { s with recordedTransferIds := transferId :: s.recordedTransferIds }) :=
    touches_modify fun s p hp ↦ by cases p <;> simp_all [Same]
  refine tame_get_bind fun s ↦ stays_ite _ (stays_pure _) ?_
  exact stays_tryCatch (stays_bind (tame_onDb _) fun _ ↦ tame_of_keeps houtcome (by decide))
    fun _ ↦ stays_pure _

theorem tame_notifyTransferComplete (transferId : Text) (success : Bool) (fileName : Text)
    (direction : Direction) :
    Stays R (notifyTransferComplete transferId success fileName direction) :=
  tame_of_keeps (keeps_notifyTransferComplete _ _ _ _) (by decide)

theorem tame_reportIncoming (transferId : Text) (ps : ℕ) (metadata : TransferMetadata)
    (status : TransferStatus) (startedAt : ℤ) (sha256 : Text) :
    Stays R (reportIncoming transferId ps metadata status startedAt sha256) :=
  tame_get_bind fun _ ↦ stays_bind (tame_recordTransferOnce _ _) fun _ ↦
    tame_notifyTransferComplete _ _ _ _

theorem tame_reportBatch (batchId : Text) (deviceId : JsonValue) (batch : Batch)
    (direction : Direction) (status : TransferStatus) (startedAt : ℤ) :
    Stays R (reportBatch batchId deviceId batch direction status startedAt) :=
  stays_bind (tame_recordTransferOnce _ _) fun _ ↦ tame_notifyTransferComplete _ _ _ _

/-! ### The session loop -/

theorem tame_countBatchBytes (batchId : Text) (length : ℕ) :
    Stays R (countBatchBytes batchId length) := by
  refine tame_get_bind fun s ↦ ?_
  split
  · exact stays_pure _
  · exact Tame.onBatch (fun _ ↦ by constructor <;> rfl) _

theorem tame_chunkFailed (transferId : Text) (object : ℕ) (metadata : TransferMetadata)
    (e : PyError) : Stays R (chunkFailed transferId object metadata e) := by
  refine stays_ite _ ?_ (stays_ite _ ?_ (stays_throw _))
  · refine tame_get_bind fun s ↦ stays_bind (tame_onLedger _) fun _ ↦ ?_
    split
    · exact tame_of_keeps (touches_bind (keeps_notifyTransferComplete _ _ _ _) fun _ ↦
        touches_pure _) (by decide)
    · exact tame_sendQuietly _ _ _
        (tame_of_keeps (keeps_chunkErrorSent _ _ _) (by decide))
  · exact stays_bind (tame_cancelObject _) fun _ ↦ stays_bind (tame_onLedger _) fun _ ↦
      stays_pure _

theorem tame_onChunkReceived (now : ℤ) (plaintext : Bytes) :
    Stays R (onChunkReceived now plaintext) := by
  refine tame_get_bind fun s ↦ ?_
  split
  · exact stays_bind (stays_raiseIf _ _) fun _ ↦ stays_pure _
  · split
    · exact stays_pure _
    · refine tame_get_bind fun s ↦ stays_bind (tame_onLedger _) fun _ ↦ ?_
      refine stays_tryCatch ?_ fun _ ↦ tame_chunkFailed _ _ _ _
      exact stays_bind (tame_onObject _ _) fun _ ↦
        stays_bind (tame_countBatchBytes _ _) fun _ ↦ stays_pure _

theorem tame_registerTransfer (ps : ℕ) (metadata : TransferMetadata) :
    Stays R (registerTransfer ps metadata) := by
  refine tame_get_bind fun s ↦ ?_
  exact stays_bind (tame_of_keeps (keeps_newObject _) (by simp)) fun _ ↦
    stays_bind (tame_onLedger _) fun _ ↦ stays_pure _

theorem tame_registerPending (ps : ℕ) (metadata : TransferMetadata) :
    Stays R (registerPending ps metadata) := by
  refine stays_bind (tame_registerTransfer _ _) fun _ ↦ tame_get_bind fun s ↦ ?_
  refine stays_bind (stays_raiseIf _ _) fun _ ↦ ?_
  exact stays_bind (tame_of_keeps keeps_allocate (by simp)) fun _ ↦
    stays_bind (tame_onLedger _) fun _ ↦ stays_pure _

theorem tame_onTransferRequest (ps : ℕ) (payload : Payload) (now : ℤ) :
    Stays R (onTransferRequest ps payload now) := by
  refine tame_get_bind fun s ↦ ?_
  split
  · exact stays_ite _ (tame_reply _ _) (stays_throw _)
  · refine stays_ite _ (stays_ite _ ?_ (tame_reply _ _))
      (stays_ite _ (tame_reply _ _) (tame_registerPending _ _))
    exact stays_bind (tame_registerTransfer _ _) fun _ ↦
      stays_bind (tame_onObject _ _) fun _ ↦ tame_reply _ _

theorem tame_onTransferComplete (ps : ℕ) (transferId : JsonValue) :
    Stays R (onTransferComplete ps transferId) := by
  refine stays_bind (stays_ofResult _) fun key ↦ tame_get_bind fun s ↦ ?_
  split
  · exact stays_bind (stays_ofResult _) fun _ ↦ stays_pure _
  · split
    · exact stays_pure _
    · next object _ =>
      refine stays_bind (tame_onLedger _) fun _ ↦
        stays_bind (tame_onObject _ _) fun success ↦ stays_bind ?_ fun _ ↦ ?_
      · have hdelivered : Keeps [.delivered] (modify fun s ↦ if success then
            { s with delivered := object :: s.delivered } else s) := by
          refine touches_modify fun s p hp ↦ ?_
          split
          · cases p <;> simp_all [Same]
          · exact same_refl p s
        exact tame_of_keeps hdelivered (by decide)
      · exact tame_get_bind fun s ↦ stays_bind (tame_sendEncrypted _ _) fun _ ↦
          stays_pure _

theorem tame_countBatchItem (ps : ℕ) (metadata : TransferMetadata) (success : Bool) :
    Stays R (countBatchItem ps metadata success) := by
  refine tame_get_bind fun s ↦ ?_
  split
  · exact stays_pure _
  · refine stays_bind (Tame.onBatch (fun _ ↦ ?_) _) fun _ ↦ tame_get_bind fun s ↦ ?_
    · split <;> exact ⟨rfl, rfl, rfl, rfl⟩
    · refine stays_ite _ (stays_bind (Tame.popBatch _) fun _ ↦ ?_) (stays_pure _)
      exact tame_reportBatch _ _ _ _ _ _

theorem tame_resultSent (ps : ℕ) (transferId : Text) (object : ℕ) (success : Bool)
    (sha256 : Text) : Stays R (resultSent ps transferId object success sha256) := by
  refine stays_bind (tame_onLedger _) fun _ ↦ tame_get_bind fun s ↦ ?_
  refine stays_ite _ ?_ ?_
  · exact stays_bind (tame_reportIncoming _ _ _ _ _ _) fun _ ↦ stays_pure _
  · exact stays_bind (tame_countBatchItem _ _ _) fun _ ↦ stays_pure _

theorem tame_cancelActive (ps : ℕ) (transferId : Text) :
    Stays R (cancelActive ps transferId) := by
  have hcancel (xfer : ℕ) : Stays R (onOutgoing xfer OutgoingTransfer.cancel) :=
    tame_of_keeps (keeps_onOutgoing _ _) (by decide)
  refine tame_get_bind fun s ↦ stays_bind (tame_onLedger _) fun _ ↦ ?_
  dsimp only
  split
  · split
    · exact stays_pure _
    · exact hcancel _
  · refine stays_bind (tame_cancelObject _) fun _ ↦
      stays_bind (tame_reportIncoming _ _ _ _ _ _) fun _ ↦ ?_
    split
    · exact stays_pure _
    · exact hcancel _

theorem tame_onTransferCancel (ps : ℕ) (transferId : JsonValue) :
    Stays R (onTransferCancel ps transferId) := by
  refine stays_bind (stays_ofResult _) fun _ ↦ stays_bind (stays_ofResult _) fun key ↦
    tame_get_bind fun s ↦ ?_
  cases key with
  | none => exact stays_pure _
  | some key =>
    have hsignal : Stays R (do
        signalCancel ps key
        pure LoopFlow.next) :=
      tame_of_keeps (touches_bind (keeps_signalCancel _ _) fun _ ↦ touches_pure _) (by decide)
    exact stays_ite _ hsignal (stays_bind (tame_cancelActive _ _) fun _ ↦ hsignal)

theorem tame_cancelIncomingTransfer (transferId : JsonValue) :
    Stays R (cancelIncomingTransfer transferId) := by
  refine stays_bind (stays_ofResult _) fun key ↦ tame_get_bind fun s ↦ ?_
  cases key with
  | none => exact stays_pure _
  | some key =>
    refine stays_bind (tame_onLedger _) fun _ ↦ ?_
    split
    · exact stays_pure _
    · refine stays_bind (tame_cancelObject _) fun _ ↦ ?_
      exact tame_of_keeps (touches_bind (keeps_notifyTransferComplete _ _ _ _) fun _ ↦
        touches_pure _) (by decide)

theorem tame_onTransferResumeRequest (ps : ℕ) (payload : Payload) (now : ℤ) :
    Stays R (onTransferResumeRequest ps payload now) := by
  have hresume : ∀ transferId info, Stays R (resumeIncoming ps transferId info now) := by
    intro transferId info
    refine tame_get_bind fun s ↦ stays_bind (stays_ofResult _) fun metadata ↦ ?_
    exact stays_bind (tame_of_keeps (keeps_newObject _) (by simp)) fun _ ↦
      stays_bind (tame_onObject _ _) fun _ ↦ stays_bind (tame_onLedger _) fun _ ↦
        stays_bind (tame_sendEncrypted _ _) fun _ ↦ stays_pure _
  refine stays_ite _ ?_ (stays_pure _)
  refine stays_bind (tame_of_keeps (keeps_interruptedTransfer _) (by decide)) fun found ↦ ?_
  split
  · exact tame_replyQuietly _ _
  · refine tame_get_bind fun s ↦ stays_bind (stays_ofResult _) fun refusal ↦ ?_
    split
    · exact tame_replyQuietly _ _
    · exact stays_tryCatch (hresume _ _) fun _ ↦ tame_replyQuietly _ _

theorem tame_onBatchComplete (batchId : JsonValue) : Stays R (onBatchComplete batchId) := by
  refine stays_bind (stays_ofResult _) fun key ↦ ?_
  cases key with
  | none => exact stays_pure _
  | some key => exact stays_bind (Tame.popBatch _) fun _ ↦ stays_pure _

theorem tame_onBatchCancel (batchId : JsonValue) : Stays R (onBatchCancel batchId) := by
  refine stays_bind (stays_ofResult _) fun key ↦ tame_get_bind fun s ↦ ?_
  cases key with
  | none => exact stays_pure _
  | some key =>
    refine stays_bind (Tame.popBatch _) fun _ ↦ ?_
    split
    · exact stays_pure _
    · exact tame_of_keeps (touches_bind (keeps_notifyTransferComplete _ _ _ _) fun _ ↦
        touches_pure _) (by decide)

/-- What a frame does, but for a BATCH_REQUEST. -/
theorem tame_processFrame {ps : ℕ} {Q : Except PyError LoopFlow → Daemon → Prop} {s : Daemon}
    (hrequest : ∀ payload, wp (onBatchRequest ps payload) Q s) (hQ : ∀ r t, R s t → Q r t)
    (plaintext : Plaintext) (now : Clock) (uuid : Text) :
    wp (processFrame ps plaintext now uuid) Q s := by
  have hnothing : ∀ {m : Segment LoopFlow}, Stays R m → wp m Q s := fun h ↦ wp_mono (h s) hQ
  have hmessage : ∀ type payload, wp (handleTransferMessage ps type payload now.wall) Q s := by
    intro type payload
    unfold handleTransferMessage
    rw [wp_ofResult_bind]
    refine ⟨fun _ _ ↦ hQ _ _ (refl_of R s), fun payload _ ↦ ?_⟩
    dsimp only
    split
    · exact hnothing (tame_onTransferRequest _ _ _)
    · exact hnothing (tame_of_keeps (keeps_onResponse _ _ _) (by decide))
    · exact hnothing (tame_of_keeps (keeps_onResponse _ _ _) (by decide))
    · exact hnothing (tame_onTransferComplete _ _)
    · exact hnothing (tame_of_keeps (keeps_onResult _ _ _) (by decide))
    · exact hnothing (tame_onTransferCancel _ _)
    · exact hnothing (tame_cancelIncomingTransfer _)
    · exact hnothing (tame_onTransferResumeRequest _ _ _)
    · exact hnothing (tame_of_keeps (keeps_onResponse _ _ _) (by decide))
    · exact hnothing (tame_of_keeps (keeps_onResponse _ _ _) (by decide))
    · exact hrequest _
    · exact hnothing (tame_of_keeps (keeps_onResponse _ _ _) (by decide))
    · exact hnothing (tame_of_keeps (keeps_onResponse _ _ _) (by decide))
    · exact hnothing (tame_onBatchCancel _)
    · exact hnothing (tame_onBatchComplete _)
    · exact hQ _ _ (refl_of R s)
  unfold processFrame
  split
  · exact hQ _ _ (refl_of R s)
  · exact hnothing (tame_onChunkReceived _ _)
  · exact hQ _ _ (refl_of R s)
  · exact hnothing (tame_of_keeps (keeps_onPairDecision _ _ _ _) (by decide))
  · exact hnothing (stays_bind (stays_ofResult _) fun _ ↦ stays_bind (stays_ofResult _) fun _ ↦
      stays_pure _)
  · exact hnothing (stays_ite _ (stays_pure _)
      (tame_of_keeps (keeps_parseNotification _) (by simp)))
  · exact hnothing (tame_of_keeps (keeps_parseNotification _) (by simp))
  · exact hmessage _ _

theorem tame_resumeHandler (ps : ℕ) (failed : Bool) (await : LoopAwait) :
    Stays R (resumeHandler ps failed await) := by
  have hdrained : Stays R (drained failed) := stays_raiseIf _ _
  unfold resumeHandler
  split
  · exact stays_bind hdrained fun _ ↦ stays_pure _
  · exact stays_pure _
  · exact stays_ite _ (tame_replyQuietly _ _) (stays_pure _)
  · exact tame_of_keeps (keeps_chunkErrorSent _ _ _) (by decide)
  · exact stays_bind hdrained fun _ ↦ tame_resultSent _ _ _ _ _

/-! ### The end of a session loop -/

theorem tame_cancelForPeer (ps : ℕ) : Stays R (cancelForPeer ps) := by
  refine tame_get_bind fun s ↦ stays_bind (stays_forEach (fun item ↦ ?_) _) fun _ ↦
    stays_forEach (fun item ↦ ?_) _
  · refine stays_bind (tame_onLedger _) fun _ ↦ stays_bind (tame_cancelObject _) fun _ ↦
      tame_get_bind fun s ↦ ?_
    exact tame_reportIncoming _ _ _ _ _ _
  · exact tame_of_keeps (keeps_cancelOutgoingForPeer _ _ _) (by decide)

/-! ### The calls of the user -/

theorem ceases_sendQuietly (ps : ℕ) (frame : Frame) {await : Await} {otherwise : Call}
    (h : await.isSending = false) (hotherwise : Ceases R otherwise) :
    Ceases R (sendQuietly ps frame (some await) otherwise) := by
  refine ceases_bind ?_ fun _ ↦ ceases_ite _ (ceases_await h) hotherwise
  exact stays_tryCatch (stays_bind (tame_sendEncrypted _ _) fun _ ↦ stays_pure _)
    fun _ ↦ stays_pure _

theorem tame_transitionSession (ps : ℕ) (new : SessionState) :
    Stays R (transitionSession ps new) :=
  tame_of_keeps (keeps_transitionSession ps new) (by decide)

theorem ceases_acceptPairing (remoteAddr : Text) (now : ℤ) (uuid : Text) :
    Ceases R (acceptPairing remoteAddr now uuid) := by
  refine ceases_get_bind fun s ↦ ?_
  split
  · exact ceases_none
  · next ps _ =>
    have hsent : Ceases R (do
        sendEncrypted ps (.pairDecision true)
        pure (none : Option Await)) :=
      ceases_bind (tame_sendEncrypted _ _) fun _ ↦ ceases_none
    refine ceases_ite _ (ceases_bind (tame_transitionSession _ _) fun _ ↦ hsent) ?_
    exact ceases_ite _ (ceases_bind
      (tame_of_keeps (keeps_establish _ _ _) (by decide)) fun _ ↦ hsent) hsent

theorem ceases_disconnectSession (ps : ℕ) : Ceases R (disconnectSession ps) := by
  have hclosed : Ceases R (do
      onSession ps fun session ↦ { session with closed := true }
      pure (none : Option Await)) :=
    ceases_bind (tame_of_keeps (keeps_onSession fun _ ↦ rfl) (by simp)) fun _ ↦
      ceases_none
  refine ceases_get_bind fun s ↦ ceases_ite _ ?_ hclosed
  exact ceases_bind (stays_tryCatch (tame_transitionSession _ _) fun _ ↦
    stays_pure _) fun _ ↦ hclosed

theorem ceases_rejectPairing (remoteAddr : Text) : Ceases R (rejectPairing remoteAddr) := by
  refine ceases_get_bind fun s ↦ ?_
  split
  · exact ceases_none
  · exact ceases_sendQuietly _ _ rfl (ceases_disconnectSession _)

theorem ceases_acceptBatch (remoteAddr batchId : Text) :
    Ceases R (acceptBatch remoteAddr batchId) := by
  refine ceases_get_bind fun s ↦ ?_
  split
  · exact ceases_none
  · split
    · exact ceases_none
    · exact ceases_bind (Tame.onBatch (fun _ ↦ by constructor <;> rfl) _) fun _ ↦
        ceases_bind (tame_sendEncrypted _ _) fun _ ↦ ceases_none

theorem ceases_rejectBatch (remoteAddr batchId : Text) :
    Ceases R (rejectBatch remoteAddr batchId) := by
  refine ceases_get_bind fun s ↦ ceases_bind (Tame.popBatch _) fun _ ↦ ?_
  split
  · exact ceases_none
  · split
    · exact ceases_none
    · exact ceases_bind (tame_sendEncrypted _ _) fun _ ↦ ceases_none

theorem ceases_acceptTransfer (remoteAddr transferId : Text) :
    Ceases R (acceptTransfer remoteAddr transferId) := by
  refine ceases_get_bind fun s ↦ ?_
  split
  · exact ceases_acceptBatch _ _
  · split
    · exact ceases_none
    · exact ceases_bind (tame_onLedger _) fun _ ↦
        ceases_bind (tame_onObject _ _) fun _ ↦
          ceases_bind (tame_sendEncrypted _ _) fun _ ↦ ceases_none

theorem ceases_rejectTransfer (remoteAddr transferId : Text) :
    Ceases R (rejectTransfer remoteAddr transferId) := by
  refine ceases_get_bind fun s ↦ ?_
  split
  · exact ceases_rejectBatch _ _
  · refine ceases_bind (tame_onLedger _) fun _ ↦ ?_
    split
    · exact ceases_none
    · exact ceases_bind (tame_onLedger _) fun _ ↦
        ceases_bind (tame_cancelObject _) fun _ ↦
          ceases_bind (tame_sendEncrypted _ _) fun _ ↦ ceases_none

theorem ceases_broadcastCancel (now : ℤ) (batchId : Text) (batch size : ℕ)
    (sessions : List ℕ) : Ceases R (broadcastCancel now batchId batch size sessions) := by
  induction sessions with
  | nil =>
    exact ceases_get_bind fun _ ↦ ceases_bind (stays_raiseIf _ _) fun _ ↦
      ceases_bind (tame_reportBatch _ _ _ _ _ _) fun _ ↦ ceases_none
  | cons ps rest ih =>
    exact ceases_get_bind fun s ↦ ceases_bind (stays_raiseIf _ _) fun _ ↦
      ceases_sendQuietly _ _ rfl ih

theorem ceases_incomingCancelled (transferId : Text) (object : ℕ) (deviceId : JsonValue)
    (now : ℤ) : Ceases R (incomingCancelled transferId object deviceId now) :=
  ceases_get_bind fun _ ↦
    ceases_bind (tame_recordTransferOnce _ _) fun _ ↦
      ceases_bind (tame_notifyTransferComplete _ _ _ _) fun _ ↦ ceases_none

theorem ceases_cancelTransfer (transferId reason : Text) (now : ℤ) :
    Ceases R (cancelTransfer transferId reason now) := by
  refine ceases_get_bind fun s ↦ ?_
  split
  · exact ceases_bind (Tame.popBatch _) fun _ ↦ ceases_broadcastCancel _ _ _ _ _
  · split
    · exact ceases_bind (tame_of_keeps (keeps_onOutgoing _ _) (by decide)) fun _ ↦
        ceases_bind (tame_of_keeps (keeps_signalCancel _ _) (by decide)) fun _ ↦
          ceases_none
    · split
      · refine ceases_get_bind fun s ↦ ceases_bind (tame_onLedger _) fun _ ↦
          ceases_bind (tame_cancelObject _) fun _ ↦ ?_
        split
        · exact ceases_incomingCancelled _ _ _ _
        · exact ceases_sendQuietly _ _ rfl (ceases_incomingCancelled _ _ _ _)
      · exact ceases_none

theorem ceases_discardInterruptedTransfer (transferId : Text) :
    Ceases R (discardInterruptedTransfer transferId) := by
  have hdisk : ∀ m : Exec PyError Disk Unit,
      Stays R (zoom Daemon.disk (fun disk s ↦ { s with disk }) m) := by
    intro m
    have hkeeps : Keeps [.disk] (zoom Daemon.disk (fun disk s ↦ { s with disk }) m) :=
      fun s p hp ↦ by cases p <;> simp_all [Same, zoom]
    exact tame_of_keeps hkeeps (by decide)
  have hrest : Ceases R (do
      onLedger fun ledger ↦ ledger.forget transferId
      tryCatch (onDb (Database.deleteInterruptedTransfer transferId)) fun _ ↦ pure ()
      pure (none : Option Await)) :=
    ceases_bind (tame_onLedger _) fun _ ↦ ceases_bind
      (stays_tryCatch (tame_onDb _) fun _ ↦ stays_pure _)
      fun _ ↦ ceases_none
  refine ceases_get_bind fun s ↦ ceases_ite _ ?_ hrest
  exact ceases_bind (stays_tryCatch (hdisk _) fun e ↦
    stays_ite _ (stays_pure _) (stays_throw _)) fun _ ↦ hrest

theorem ceases_requestResume (remoteAddr transferId : Text) (now : ℤ) :
    Ceases R (requestResume remoteAddr transferId now) := by
  refine ceases_get_bind fun s ↦ ?_
  split
  · exact ceases_none
  · refine ceases_bind (tame_onDb _) fun info ↦ ?_
    split
    · exact ceases_none
    · split
      · exact ceases_none
      · refine ceases_get_bind fun s ↦
          ceases_bind (tame_of_keeps (keeps_newObject _) (by simp)) fun _ ↦
            ceases_bind ?_ fun prepared ↦ ?_
        · exact stays_tryCatch (stays_bind (tame_onObject _ _) fun _ ↦ stays_pure _)
            fun _ ↦ stays_pure _
        · split
          · exact ceases_none
          · exact ceases_bind (tame_onLedger _) fun _ ↦
              ceases_bind (tame_sendEncrypted _ _) fun _ ↦ ceases_await rfl

theorem ceases_rejectionSent (timer : AcceptanceTimer) : Ceases R (rejectionSent timer) :=
  ceases_bind (tame_reportIncoming _ _ _ _ _ _) fun _ ↦ ceases_none

theorem ceases_acceptanceTimeout (timer : AcceptanceTimer) :
    Ceases R (acceptanceTimeout timer) := by
  refine ceases_get_bind fun s ↦ ?_
  split
  · exact ceases_none
  · exact ceases_bind (tame_onLedger _) fun _ ↦
      ceases_bind (tame_cancelObject _) fun _ ↦
        ceases_sendQuietly _ _ rfl (ceases_rejectionSent _)

theorem ceases_resumeAnswered (transferId : Text) (object : ℕ) (resumeChunkIndex : ℤ)
    (response : Response) :
    Ceases R (resumeAnswered transferId object resumeChunkIndex response) := by
  have habandon : Ceases R (abandonResume transferId) :=
    ceases_bind (tame_onLedger _) fun _ ↦ ceases_none
  refine ceases_ite _ (fun s ↦ ?_) habandon
  have hresumed : Ceases R (do
      onObject object (IncomingTransfer.resume resumeChunkIndex)
      pure none) := ceases_bind (tame_onObject _ _) fun _ ↦ ceases_none
  apply wp_tryCatch_of (hresumed s) (fun _ t h ↦ ?_) fun _ _ h ↦ h
  exact wp_mono (habandon t) fun _ _ h' ↦ ⟨trans_of R h.1 h'.1, h'.2⟩

/-- A coroutine that is no call of `send_file` or `send_batch`, when it is resumed. -/
theorem ceases_resumeCall (failed : Bool) (now : Clock) {await : Await}
    (h : await.isSending = false) : Ceases R (resumeCall failed now await) := by
  cases await with
  | acceptanceTimeout timer => exact ceases_rejectionSent timer
  | rejectPairing ps => exact ceases_disconnectSession ps
  | cancelBatch batchId batch size remaining => exact ceases_broadcastCancel _ _ _ _ _
  | cancelIncoming transferId object ps =>
    exact ceases_get_bind fun s ↦ ceases_incomingCancelled _ _ _ _
  | resumeRequest transferId object ps resumeChunkIndex =>
    exact ceases_bind (stays_raiseIf _ _) fun _ ↦ ceases_bind
      (tame_of_keeps (keeps_waitForTransferResponse _ _) (by decide)) fun _ ↦
        ceases_await rfl
  | resumeResponse transferId object ps resumeChunkIndex waiter =>
    refine ceases_ite _ ?_ ?_
    · exact ceases_bind (stays_pure _) fun _ ↦ ceases_resumeAnswered _ _ _ _
    · exact ceases_bind (tame_of_keeps (keeps_transferResponse _ _ _) (by decide)) fun _ ↦
        ceases_resumeAnswered _ _ _ _
  | file => exact (nomatch h)
  | batch => exact (nomatch h)

/-! ## Segments that send -/

/-! ### A file that is sent -/

theorem tame_fileUnsent (send : FileSend) (status : TransferStatus) :
    Stays R (fileUnsent send status) :=
  stays_bind (tame_get_bind fun _ ↦ stays_ite _ (stays_bind (tame_recordTransferOnce _ _)
    fun _ ↦ tame_notifyTransferComplete _ _ _ _) (stays_pure _)) fun _ ↦ stays_pure _

theorem tame_streamFile (send : FileSend) (batch : Option ℕ)
    (pull : Sending (Option (Bytes × OutgoingTransfer.ChunkStream))) :
    Stays R (streamFile send batch pull) := by
  refine stays_bind (tame_of_keeps (keeps_pullFrame _ _) (by decide)) fun pulled ↦ ?_
  split
  · exact stays_pure _
  · exact tame_of_keeps (keeps_streamed _) (by decide)
  · exact tame_sendQuietly _ _ _ (tame_fileUnsent _ _)

theorem tame_fileAnswered (send : FileSend) (response : Response) :
    Stays R (fileAnswered send response) :=
  tame_get_bind fun _ ↦ stays_ite _ (tame_streamFile _ _ _) (tame_fileUnsent _ _)

theorem tame_resumeFile (send : FileSend) (failed : Bool) (await : FileAwait) :
    Stays R (resumeFile send failed await) := by
  have hdrained : Stays R (drained failed) := stays_raiseIf _ _
  unfold resumeFile
  split
  · exact stays_bind hdrained fun _ ↦ stays_bind
      (tame_of_keeps (keeps_waitForTransferResponse _ _) (by decide)) fun _ ↦ stays_pure _
  · refine stays_ite _ ?_ ?_
    · exact stays_bind (stays_pure _) fun _ ↦ tame_fileAnswered _ _
    · exact stays_bind (tame_of_keeps (keeps_transferResponse _ _ _) (by decide)) fun _ ↦
        tame_fileAnswered _ _
  · refine stays_bind hdrained fun _ ↦ ?_
    dsimp only
    split
    · exact tame_streamFile _ _ _
    · exact stays_bind (Tame.onBatch (fun _ ↦ by constructor <;> rfl) _) fun _ ↦ tame_streamFile _ _ _
  · exact tame_fileUnsent _ _
  · exact tame_fileUnsent _ _
  · exact stays_bind hdrained fun _ ↦ stays_bind
      (tame_of_keeps (keeps_waitForTransferResult _ _) (by decide)) fun _ ↦ stays_pure _
  · have hresult : ∀ result, Stays R (fileResult send result) := fun result ↦
      tame_of_keeps (keeps_fileResult send result) (by decide)
    refine stays_ite _ ?_ ?_
    · exact stays_bind (stays_pure _) fun _ ↦ hresult _
    · exact stays_bind (tame_of_keeps (keeps_transferResult _ _ _) (by decide)) fun _ ↦ hresult _

end Tame

end Daemon

end Ferry
