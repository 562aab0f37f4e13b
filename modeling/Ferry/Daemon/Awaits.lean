import Ferry.Daemon.Step

/-!
# What the calls leave behind

Which coroutine a call leaves behind when it awaits: only `request_resume` leaves a `request_resume`.
-/

namespace Ferry

open Exec

namespace Daemon

/-- The transfer that a suspended `request_resume` has registered. -/
def Await.resuming : Await → Option (Text × ℕ)
  | .resumeRequest transferId object _ _ => some (transferId, object)
  | .resumeResponse transferId object _ _ _ => some (transferId, object)
  | _ => none

/-- A call that leaves no `request_resume` behind. -/
def ResumesNothing (m : Call) : Prop :=
  Returns (fun left ↦ ∀ await, left = some await → await.resuming = none) m

variable {α : Type}

theorem resumesNothing_none : ResumesNothing (pure none) := returns_pure fun _ h ↦ nomatch h

theorem resumesNothing_await {await : Await} (h : await.resuming = none) :
    ResumesNothing (pure (some await)) :=
  returns_pure fun _ heq ↦ Option.some.inj heq ▸ h

theorem resumesNothing_bind {m : Segment α} {f : α → Call} (hf : ∀ a, ResumesNothing (f a)) :
    ResumesNothing (m >>= f) := returns_bind hf

theorem resumesNothing_ite (c : Prop) [Decidable c] {m n : Call} (hm : ResumesNothing m)
    (hn : ResumesNothing n) : ResumesNothing (if c then m else n) := by
  split
  · exact hm
  · exact hn

theorem resumesNothing_sendQuietly (ps : ℕ) (frame : Frame) {await : Await} {otherwise : Call}
    (h : await.resuming = none) (hotherwise : ResumesNothing otherwise) :
    ResumesNothing (sendQuietly ps frame (some await) otherwise) :=
  resumesNothing_bind fun _ ↦ resumesNothing_ite _ (resumesNothing_await h) hotherwise

/-! ## The calls of the user -/

theorem resumesNothing_acceptPairing (remoteAddr : Text) (now : ℤ) (uuid : Text) :
    ResumesNothing (acceptPairing remoteAddr now uuid) := by
  refine resumesNothing_bind fun s ↦ ?_
  split
  · exact resumesNothing_none
  · have hsent : ∀ ps, ResumesNothing (do
        sendEncrypted ps (.pairDecision true)
        pure (none : Option Await)) := fun ps ↦ resumesNothing_bind fun _ ↦ resumesNothing_none
    refine resumesNothing_ite _ (resumesNothing_bind fun _ ↦ hsent _) ?_
    exact resumesNothing_ite _ (resumesNothing_bind fun _ ↦ hsent _) (hsent _)

theorem resumesNothing_disconnectSession (ps : ℕ) : ResumesNothing (disconnectSession ps) := by
  refine resumesNothing_bind fun s ↦ resumesNothing_ite _ ?_ ?_
  · exact resumesNothing_bind fun _ ↦ resumesNothing_bind fun _ ↦ resumesNothing_none
  · exact resumesNothing_bind fun _ ↦ resumesNothing_none

theorem resumesNothing_rejectPairing (remoteAddr : Text) :
    ResumesNothing (rejectPairing remoteAddr) := by
  refine resumesNothing_bind fun s ↦ ?_
  split
  · exact resumesNothing_none
  · exact resumesNothing_sendQuietly _ _ rfl (resumesNothing_disconnectSession _)

theorem resumesNothing_acceptBatch (remoteAddr batchId : Text) :
    ResumesNothing (acceptBatch remoteAddr batchId) := by
  refine resumesNothing_bind fun s ↦ ?_
  split
  · exact resumesNothing_none
  · split
    · exact resumesNothing_none
    · exact resumesNothing_bind fun _ ↦ resumesNothing_bind fun _ ↦ resumesNothing_none

theorem resumesNothing_rejectBatch (remoteAddr batchId : Text) :
    ResumesNothing (rejectBatch remoteAddr batchId) := by
  refine resumesNothing_bind fun s ↦ resumesNothing_bind fun _ ↦ ?_
  split
  · exact resumesNothing_none
  · split
    · exact resumesNothing_none
    · exact resumesNothing_bind fun _ ↦ resumesNothing_none

theorem resumesNothing_acceptTransfer (remoteAddr transferId : Text) :
    ResumesNothing (acceptTransfer remoteAddr transferId) := by
  refine resumesNothing_bind fun s ↦ ?_
  split
  · exact resumesNothing_acceptBatch _ _
  · split
    · exact resumesNothing_none
    · exact resumesNothing_bind fun _ ↦ resumesNothing_bind fun _ ↦ resumesNothing_bind fun _ ↦
        resumesNothing_none

theorem resumesNothing_rejectTransfer (remoteAddr transferId : Text) :
    ResumesNothing (rejectTransfer remoteAddr transferId) := by
  refine resumesNothing_bind fun s ↦ ?_
  split
  · exact resumesNothing_rejectBatch _ _
  · refine resumesNothing_bind fun _ ↦ ?_
    split
    · exact resumesNothing_none
    · exact resumesNothing_bind fun _ ↦ resumesNothing_bind fun _ ↦ resumesNothing_bind fun _ ↦
        resumesNothing_none

theorem resumesNothing_broadcastCancel (now : ℤ) (batchId : Text) (batch size : ℕ)
    (sessions : List ℕ) : ResumesNothing (broadcastCancel now batchId batch size sessions) := by
  induction sessions with
  | nil =>
    exact resumesNothing_bind fun _ ↦ resumesNothing_bind fun _ ↦ resumesNothing_bind fun _ ↦
      resumesNothing_none
  | cons ps rest ih =>
    exact resumesNothing_bind fun _ ↦ resumesNothing_bind fun _ ↦
      resumesNothing_sendQuietly _ _ rfl ih

theorem resumesNothing_incomingCancelled (transferId : Text) (object : ℕ) (deviceId : JsonValue)
    (now : ℤ) : ResumesNothing (incomingCancelled transferId object deviceId now) :=
  resumesNothing_bind fun _ ↦ resumesNothing_bind fun _ ↦ resumesNothing_bind fun _ ↦
    resumesNothing_none

theorem resumesNothing_cancelTransfer (transferId reason : Text) (now : ℤ) :
    ResumesNothing (cancelTransfer transferId reason now) := by
  refine resumesNothing_bind fun s ↦ ?_
  split
  · exact resumesNothing_bind fun _ ↦ resumesNothing_broadcastCancel _ _ _ _ _
  · split
    · exact resumesNothing_bind fun _ ↦ resumesNothing_bind fun _ ↦ resumesNothing_none
    · split
      · refine resumesNothing_bind fun _ ↦ resumesNothing_bind fun _ ↦ resumesNothing_bind fun _ ↦ ?_
        split
        · exact resumesNothing_incomingCancelled _ _ _ _
        · exact resumesNothing_sendQuietly _ _ rfl (resumesNothing_incomingCancelled _ _ _ _)
      · exact resumesNothing_none

theorem resumesNothing_discardInterruptedTransfer (transferId : Text) :
    ResumesNothing (discardInterruptedTransfer transferId) := by
  refine resumesNothing_bind fun s ↦ resumesNothing_ite _ ?_ ?_
  · exact resumesNothing_bind fun _ ↦ resumesNothing_bind fun _ ↦ resumesNothing_bind fun _ ↦
      resumesNothing_none
  · exact resumesNothing_bind fun _ ↦ resumesNothing_bind fun _ ↦ resumesNothing_none

theorem resumesNothing_rejectionSent (timer : AcceptanceTimer) :
    ResumesNothing (rejectionSent timer) := resumesNothing_bind fun _ ↦ resumesNothing_none

theorem resumesNothing_acceptanceTimeout (timer : AcceptanceTimer) :
    ResumesNothing (acceptanceTimeout timer) := by
  refine resumesNothing_bind fun s ↦ ?_
  split
  · exact resumesNothing_none
  · exact resumesNothing_bind fun _ ↦ resumesNothing_bind fun _ ↦
      resumesNothing_sendQuietly _ _ rfl (resumesNothing_rejectionSent _)

/-! ## Sending files and batches -/

theorem resumesNothing_completeBatch (b : BatchSend) : ResumesNothing (completeBatch b) := by
  refine resumesNothing_bind fun s ↦ ?_
  split
  · exact resumesNothing_bind fun _ ↦ resumesNothing_bind fun _ ↦ resumesNothing_none
  · exact resumesNothing_bind fun _ ↦ resumesNothing_await rfl

theorem resumesNothing_sendItems (now : ℤ) (b : BatchSend) (items : List BatchItem) :
    ResumesNothing (sendItems now b items) := by
  induction items generalizing b with
  | nil => exact resumesNothing_completeBatch b
  | cons item rest ih =>
    refine resumesNothing_bind fun s ↦ ?_
    split
    · exact resumesNothing_completeBatch b
    · refine resumesNothing_bind fun flow ↦ ?_
      split
      · exact resumesNothing_await rfl
      · exact resumesNothing_bind fun b ↦ ih b

theorem resumesNothing_fileReturned (now : ℤ) (caller : Option BatchSend) (flow : FileFlow) :
    ResumesNothing (fileReturned now caller flow) := by
  unfold fileReturned
  split
  · exact resumesNothing_await rfl
  · split
    · exact resumesNothing_none
    · exact resumesNothing_bind fun _ ↦ resumesNothing_sendItems _ _ _

theorem resumesNothing_startFile (remoteAddr : Text) (item : BatchItem) (now : ℤ) :
    ResumesNothing (startFile remoteAddr item now) :=
  resumesNothing_bind fun _ ↦ resumesNothing_fileReturned _ _ _

theorem resumesNothing_sendBatch (remoteAddr : Text) (files : List BatchItem) (totalBytes : ℤ)
    (batchName batchId : Text) (now : ℤ) :
    ResumesNothing (sendBatch remoteAddr files totalBytes batchName batchId now) := by
  refine resumesNothing_bind fun s ↦ ?_
  split
  · exact resumesNothing_none
  · refine resumesNothing_ite _ resumesNothing_none ?_
    exact resumesNothing_bind fun _ ↦ resumesNothing_bind fun _ ↦ resumesNothing_await rfl

theorem resumesNothing_resumeBatch (b : BatchSend) (failed : Bool) (now : ℤ) (await : BatchAwait) :
    ResumesNothing (resumeBatch b failed now await) := by
  unfold resumeBatch
  split
  · exact resumesNothing_bind fun _ ↦ resumesNothing_bind fun _ ↦ resumesNothing_await rfl
  · refine resumesNothing_bind fun _ ↦ resumesNothing_bind fun _ ↦ resumesNothing_ite _ ?_ ?_
    · exact resumesNothing_sendItems _ _ _
    · exact resumesNothing_bind fun _ ↦ resumesNothing_none
  · exact resumesNothing_bind fun _ ↦ resumesNothing_bind fun _ ↦ resumesNothing_bind fun _ ↦
      resumesNothing_bind fun _ ↦ resumesNothing_none

/-! ## Coroutines after an await -/

theorem resumesNothing_abandonResume (transferId : Text) :
    ResumesNothing (abandonResume transferId) := resumesNothing_bind fun _ ↦ resumesNothing_none

theorem resumesNothing_resumeAnswered (transferId : Text) (object : ℕ) (resumeChunkIndex : ℤ)
    (response : Response) :
    ResumesNothing (resumeAnswered transferId object resumeChunkIndex response) := by
  refine resumesNothing_ite _ ?_ (resumesNothing_abandonResume _)
  intro s
  have hresumed : ResumesNothing (do
      onObject object (IncomingTransfer.resume resumeChunkIndex)
      pure none) := resumesNothing_bind fun _ ↦ resumesNothing_none
  exact wp_tryCatch_of (hresumed s) (fun _ t _ ↦ resumesNothing_abandonResume _ t) fun _ _ h ↦ h

/-- A resumed coroutine leaves a `request_resume` behind only if it is this one. -/
theorem resumeCall_resuming (failed : Bool) (now : Clock) (await : Await) :
    Returns (fun left ↦ ∀ next, left = some next → next.resuming = none ∨ next.resuming = await.resuming)
      (resumeCall failed now await) := by
  have hnothing : ∀ {m : Call}, ResumesNothing m → Returns (fun left ↦ ∀ next, left = some next →
      next.resuming = none ∨ next.resuming = await.resuming) m :=
    fun h s ↦ wp_mono (h s) fun _ _ hr a ha next hnext ↦ .inl (hr a ha next hnext)
  cases await with
  | acceptanceTimeout timer => exact hnothing (resumesNothing_rejectionSent timer)
  | rejectPairing ps => exact hnothing (resumesNothing_disconnectSession ps)
  | cancelBatch batchId batch size remaining =>
    exact hnothing (resumesNothing_broadcastCancel _ _ _ _ _)
  | cancelIncoming transferId object ps =>
    exact hnothing (resumesNothing_bind fun _ ↦ resumesNothing_incomingCancelled _ _ _ _)
  | resumeRequest transferId object ps resumeChunkIndex =>
    exact returns_bind fun _ ↦ returns_bind fun _ ↦ returns_pure fun next hnext ↦
      .inr (Option.some.inj hnext ▸ rfl)
  | resumeResponse transferId object ps resumeChunkIndex waiter =>
    refine hnothing (resumesNothing_ite _ ?_ ?_)
    · exact resumesNothing_bind fun _ ↦ resumesNothing_resumeAnswered _ _ _ _
    · exact resumesNothing_bind fun _ ↦ resumesNothing_resumeAnswered _ _ _ _
  | file send await => exact hnothing (resumesNothing_bind fun _ ↦ resumesNothing_fileReturned _ _ _)
  | batch b await => exact hnothing (resumesNothing_resumeBatch _ _ _ _)

end Daemon

end Ferry
