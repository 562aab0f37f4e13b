import Ferry.Android.Client
import Ferry.Android.ReceiverSlot

/-!
# Steps of the Android client

The functions that send leave the receiver alone, add deferreds of `sendFile` only and set no flag, and
every event leaves the active receiver together with its metadata.
-/

namespace Ferry

open Exec

namespace FerryControlClient

open TransferClient (Apart KeepsCoherent)

/-! ## What the sending functions do -/

/-- The receiver stays, deferreds of `sendFile` are added only, and no flag is set. -/
structure SendSide (c c' : FerryControlClient) : Prop where
  apart : Apart c.receiving c'.receiving
  answers : c.transferAnswers <+: c'.transferAnswers
  resumeIds : c'.resumeIds = c.resumeIds
  cancelled : c'.outgoingCancelled = true → c.outgoingCancelled = true
  cancelledByPeer : c'.outgoingCancelledByPeer = true → c.outgoingCancelledByPeer = true

theorem SendSide.refl (c : FerryControlClient) : SendSide c c :=
  ⟨refl_of Apart _, List.prefix_rfl, rfl, id, id⟩

instance : IsPreorder FerryControlClient SendSide where
  refl := SendSide.refl
  trans := fun _ _ _ h h' ↦ ⟨trans_of Apart h.apart h'.apart,
    h.answers.trans h'.answers, h'.resumeIds.trans h.resumeIds,
    h.cancelled ∘ h'.cancelled, h.cancelledByPeer ∘ h'.cancelledByPeer⟩

/-- An assignment to fields that do not matter here. -/
theorem sendSide_of_eq {c c' : FerryControlClient} (hreceiving : c'.receiving = c.receiving)
    (hanswers : c'.transferAnswers = c.transferAnswers) (hids : c'.resumeIds = c.resumeIds)
    (hcancelled : c'.outgoingCancelled = c.outgoingCancelled)
    (hpeer : c'.outgoingCancelledByPeer = c.outgoingCancelledByPeer) : SendSide c c' where
  apart := by
    rw [hreceiving]
    exact refl_of Apart _
  answers := by
    rw [hanswers]
  resumeIds := hids
  cancelled := by
    rw [hcancelled]
    exact id
  cancelledByPeer := by
    rw [hpeer]
    exact id

theorem sendSide_write (session : ℕ) (frame : OutgoingFrame) : Stays SendSide (write session frame) := by
  apply stays_get_bind
  intro client
  refine stays_bind (stays_raiseIf _ _) (fun _ ↦ stays_bind ?_ fun _ ↦
    stays_bind (stays_raiseIf _ _) fun _ ↦ ?_) client
  · exact stays_modify fun _ ↦ ⟨⟨rfl, rfl, rfl, rfl, rfl, rfl⟩, List.prefix_rfl, rfl, id, id⟩
  · exact stays_modify fun _ ↦ sendSide_of_eq rfl rfl rfl rfl rfl

theorem sendSide_record (entry : TransferHistoryEntry) : Stays SendSide (record entry) :=
  stays_modify fun _ ↦ sendSide_of_eq rfl rfl rfl rfl rfl

/-- The flags are taken back. -/
theorem sendSide_resetFlags : Stays SendSide (update fun client ↦
    { client with outgoingCancelled := false, outgoingCancelledByPeer := false }) :=
  stays_modify fun _ ↦ ⟨refl_of Apart _, List.prefix_rfl, rfl, nofun, nofun⟩

theorem sendSide_startFile (now : ℤ) (uri transferId : Text) (source : SourceFile) (batchId : Text) :
    Stays SendSide (startFile now uri transferId source batchId) := by
  apply stays_get_bind
  intro client
  exact stays_ite _ (stays_pure _) (stays_bind sendSide_resetFlags fun _ ↦
    stays_bind (sendSide_write _ _) fun _ ↦ stays_pure _) client

theorem sendSide_returnFile (now : ℤ) (file : FileSend) (success : Bool) :
    Stays SendSide (returnFile now file success) :=
  stays_bind (sendSide_record _) fun _ ↦
    stays_bind (stays_modify fun _ ↦ sendSide_of_eq rfl rfl rfl rfl rfl) fun _ ↦ stays_pure _

theorem sendSide_awaitAccept (file : FileSend) : Stays SendSide (awaitAccept file) := by
  apply stays_get_bind
  intro client
  have hadd (k : ℕ) : Stays SendSide (update fun client ↦ { client with
      transferAnswers := client.transferAnswers ++ [(file.payload.transferId, none)]
      pendingTransferAccept := some k }) :=
    stays_modify fun c ↦ ⟨refl_of Apart _, List.prefix_append _ _, rfl, id, id⟩
  exact stays_bind (hadd _) (fun _ ↦ stays_pure _) client

theorem sendSide_onAnswer (now : ℤ) (file : FileSend) (answer : Option Bool) :
    Stays SendSide (onAnswer now file answer) := by
  match answer with
  | none => exact stays_pure _
  | some true => exact stays_pure _
  | some false => exact sendSide_returnFile now file false

theorem sendSide_abandonFile (file : FileSend) : Stays SendSide (abandonFile file) :=
  stays_bind (stays_modify fun _ ↦ sendSide_of_eq rfl rfl rfl rfl rfl) fun _ ↦ stays_pure _

theorem sendSide_streamChunk (file : FileSend) (input : SendInput) :
    Stays SendSide (streamChunk file input) := by
  cases input with
  | data data => exact stays_bind (sendSide_write _ _) fun _ ↦ stays_pure _
  | eof => exact stays_pure _
  | readError => exact stays_throw _
  | turn | timeout | opened _ | item _ _ => exact stays_pure _

theorem sendSide_abortStream (now : ℤ) (file : FileSend) : Stays SendSide (abortStream now file) := by
  apply stays_get_bind
  intro client
  refine stays_ite _ (stays_ite _ ?_ (stays_pure _)) (stays_ite _ (sendSide_write _ _) (stays_pure _))
    client
  exact stays_modify fun _ ↦ sendSide_of_eq rfl rfl rfl rfl rfl

theorem sendSide_goOnFile (now : ℤ) (input : SendInput) (file : FileSend) :
    Stays SendSide (goOnFile now input file) := by
  apply stays_get_bind
  intro client
  cases file.phase with
  | requested => exact sendSide_awaitAccept file client
  | awaiting k =>
    cases input with
    | timeout => exact sendSide_abandonFile file client
    | turn | data _ | eof | readError | opened _ | item _ _ => exact sendSide_onAnswer now file _ client
  | streaming => exact stays_ite _ (stays_pure _) (sendSide_streamChunk file input) client
  | streamed streamSuccess =>
    cases streamSuccess with
    | true => exact stays_bind (sendSide_write _ _) (fun _ ↦ stays_pure _) client
    | false => exact stays_bind (sendSide_abortStream now file) (fun _ ↦ stays_pure _) client
  | ending success => exact sendSide_returnFile now file success client

theorem sendSide_startBatch (now : ℤ) (uris : List Text) (batchId batchName : Text) (totalBytes : ℤ) :
    Stays SendSide (startBatch now uris batchId batchName totalBytes) := by
  apply stays_get_bind
  intro client
  exact stays_ite _ (stays_pure _) (stays_bind sendSide_resetFlags fun _ ↦
    stays_bind (sendSide_write _ _) fun _ ↦ stays_pure _) client

theorem sendSide_returnBatch (batch : BatchSend) (success : Bool) :
    Stays SendSide (returnBatch batch success) :=
  stays_bind (sendSide_write _ _) fun _ ↦ stays_pure _

theorem sendSide_goOnBatch (input : SendInput) (batch : BatchSend) :
    Stays SendSide (goOnBatch input batch) := by
  have hforget : Stays SendSide (update fun client ↦ { client with pendingBatchAccept := none }) :=
    stays_modify fun _ ↦ sendSide_of_eq rfl rfl rfl rfl rfl
  have hadd : Stays SendSide (awaitBatch batch) := by
    apply stays_get_bind
    intro client
    refine stays_bind ?_ (fun _ ↦ stays_pure _) client
    exact stays_modify fun _ ↦ sendSide_of_eq rfl rfl rfl rfl rfl
  apply stays_get_bind
  intro client
  cases batch.phase with
  | requested => exact hadd client
  | awaiting k =>
    cases input with
    | timeout => exact stays_bind hforget (fun _ ↦ stays_pure _) client
    | turn | data _ | eof | readError | opened _ | item _ _ =>
      dsimp only
      split
      · exact stays_pure _ client
      · exact stays_pure _ client
      · exact stays_pure _ client
  | items =>
    cases batch.uris with
    | nil => exact sendSide_returnBatch batch _ client
    | cons uri uris => exact stays_ite _ (sendSide_returnBatch batch false) (stays_pure _) client

theorem sendSide_nextItem (now : ℤ) (input : SendInput) (batch : BatchSend) :
    Stays SendSide (nextItem now input batch) := by
  apply stays_get_bind
  intro client
  split
  · exact stays_ite _ (stays_pure _)
      (stays_bind (sendSide_startFile _ _ _ _ _) fun _ ↦ stays_pure _) client
  · exact stays_pure _ client

theorem sendSide_goOnJob (now : ℤ) (input : SendInput) (job : SendJob) :
    Stays SendSide (goOnJob now input job) := by
  rcases job with ⟨batch, file⟩
  cases file with
  | some file => exact stays_bind (sendSide_goOnFile now input file) fun _ ↦ stays_pure _
  | none =>
    cases batch with
    | none => exact stays_pure _
    | some batch =>
      refine stays_bind (sendSide_nextItem now input batch) fun started ↦ ?_
      cases started with
      | some item => exact stays_pure _
      | none =>
        refine stays_bind (sendSide_goOnBatch input batch) fun progress ↦ ?_
        cases progress with
        | waits => exact stays_pure _
        | goesOn batch => exact stays_pure _
        | returns value => exact stays_pure _

theorem sendSide_settle {α : Type} {turn : Action (Progress α)} (h : Stays SendSide turn) :
    Stays SendSide (settle turn) := stays_tryCatch h fun _ ↦ stays_pure _

theorem sendSide_goOn (now : ℤ) (index : ℕ) (input : SendInput) : Stays SendSide (goOn now index input) := by
  apply stays_get_bind
  intro client
  cases client.jobs[index]? with
  | none => exact stays_pure _ client
  | some job =>
    refine stays_bind (sendSide_settle (sendSide_goOnJob now input job)) (fun _ ↦ ?_) client
    exact stays_modify fun _ ↦ sendSide_of_eq rfl rfl rfl rfl rfl

theorem sendSide_addJob (started : Progress SendJob) : Stays SendSide (addJob started) :=
  stays_modify fun _ ↦ sendSide_of_eq rfl rfl rfl rfl rfl

theorem sendSide_sendFile (now : ℤ) (uri transferId : Text) (source : SourceFile) :
    Stays SendSide (sendFile now uri transferId source) := by
  refine stays_bind (sendSide_settle (stays_bind (sendSide_startFile _ _ _ _ _) fun progress ↦ ?_))
    fun _ ↦ sendSide_addJob _
  cases progress with
  | goesOn file => exact stays_pure _
  | waits | returns _ => exact stays_pure _

theorem sendSide_sendBatch (now : ℤ) (uris : List Text) (batchId batchName : Text) (totalBytes : ℤ) :
    Stays SendSide (sendBatch now uris batchId batchName totalBytes) := by
  refine stays_bind (sendSide_settle (stays_bind (sendSide_startBatch _ _ _ _ _) fun progress ↦ ?_))
    fun _ ↦ sendSide_addJob _
  cases progress with
  | goesOn batch => exact stays_pure _
  | waits | returns _ => exact stays_pure _

theorem sendSide_goOnResume (now : ℤ) (input : SendInput) (resume : ResumeSend) :
    Stays SendSide (goOnResume now input resume) := by
  have hforget {m : Action (Progress ResumeSend)} (hm : Stays SendSide m) :
      Stays SendSide (forgetRecord resume m) := by
    refine stays_bind (stays_tryCatch hm fun _ ↦ stays_pure _) fun progress ↦ ?_
    cases progress with
    | returns value =>
      exact stays_bind (stays_modify fun _ ↦ sendSide_of_eq rfl rfl rfl rfl rfl) fun _ ↦ stays_pure _
    | waits | goesOn _ => exact stays_pure _
  have hreject (reason : String) : Stays SendSide (rejectResume resume reason) :=
    stays_bind (stays_tryCatch (sendSide_write _ _) fun _ ↦ stays_pure _) fun _ ↦ stays_pure _
  have hverify (content : Option Bytes) : Stays SendSide (verifyPrefix now content resume) := by
    apply stays_get_bind
    intro client
    refine stays_bind ?_ (fun _ ↦ ?_) client
    · exact stays_modify fun _ ↦ sendSide_of_eq rfl rfl rfl rfl rfl
    split
    · exact hreject _
    · exact stays_ite _ (hreject _)
        (stays_tryCatch (stays_bind (sendSide_write _ _) fun _ ↦ stays_pure _) fun _ ↦ stays_pure _)
  have hstream : Stays SendSide (streamResumed resume input) := by
    apply stays_get_bind
    intro client
    refine stays_ite _ (stays_pure _) ?_ client
    cases input with
    | data data => exact stays_bind (sendSide_write _ _) fun _ ↦ stays_pure _
    | readError => exact stays_throw _
    | eof | turn | timeout | opened _ | item _ _ => exact stays_pure _
  unfold goOnResume
  cases resume.phase with
  | launched =>
    cases input with
    | item transferId source => exact hverify source.content
    | turn | timeout | data _ | eof | readError | opened _ => exact stays_pure _
  | accepted uri =>
    cases input with
    | opened skipped =>
      cases skipped with
      | none => exact hforget (stays_pure _)
      | some skipped => exact hforget (stays_ite _ (stays_pure _) (stays_pure _))
    | turn | timeout | data _ | eof | readError | item _ _ => exact stays_pure _
  | streaming => exact hforget hstream
  | streamed => exact hforget (stays_bind (sendSide_write _ _) fun _ ↦ stays_pure _)

theorem sendSide_goOnResuming (now : ℤ) (index : ℕ) (input : SendInput) :
    Stays SendSide (goOnResuming now index input) := by
  apply stays_get_bind
  intro client
  cases client.resumeSends[index]? with
  | none => exact stays_pure _ client
  | some resume =>
    refine stays_bind (sendSide_settle (sendSide_goOnResume now input resume)) (fun _ ↦ ?_) client
    exact stays_modify fun _ ↦ sendSide_of_eq rfl rfl rfl rfl rfl

/-! ## Coherence -/

/-- The receiver stays together with its metadata. -/
def Keeps (c c' : FerryControlClient) : Prop := KeepsCoherent c.receiving c'.receiving

instance : IsPreorder FerryControlClient Keeps where
  refl := fun _ ↦ id
  trans := fun _ _ _ h h' ↦ h' ∘ h

theorem SendSide.keeps {c c' : FerryControlClient} (h : SendSide c c') : Keeps c c' := h.apart.keepsCoherent

theorem keeps_onReceiving {α : Type} {m : TransferClient.Action α} (hm : Stays KeepsCoherent m) :
    Stays Keeps (onReceiving m) := fun c ↦ hm c.receiving

theorem keeps_of_eq {c c' : FerryControlClient} (h : c'.receiving = c.receiving) : Keeps c c' := by
  rw [Keeps, h]
  exact id

theorem keeps_record (entry : TransferHistoryEntry) : Stays Keeps (record entry) :=
  stays_modify fun _ ↦ keeps_of_eq rfl

theorem keeps_completeAccept (value : Bool) : Stays Keeps (completeAccept value) :=
  stays_modify fun _ ↦ keeps_of_eq rfl

theorem keeps_completeBatch (value : Bool) : Stays Keeps (completeBatch value) :=
  stays_modify fun _ ↦ keeps_of_eq rfl

theorem keeps_noteInterrupted (now : ℤ) : Stays Keeps (noteInterrupted now) := by
  apply stays_get_bind
  intro client
  split
  · split
    · refine stays_ite _ ?_ (keeps_record _) client
      exact stays_modify fun _ ↦ keeps_of_eq rfl
    · exact stays_pure _ client
  · exact stays_pure _ client

theorem keeps_endLoop (now : ℤ) : Stays Keeps (endLoop now) :=
  stays_bind (keeps_noteInterrupted now) fun _ ↦
    stays_bind (keeps_onReceiving TransferClient.keepsCoherent_endLoop) fun _ ↦
      stays_bind (keeps_completeAccept false) fun _ ↦ stays_modify fun _ ↦ keeps_of_eq rfl

theorem keeps_onTransferComplete (now : ℤ) (transferId : Text) :
    Stays Keeps (onTransferComplete now transferId) := by
  apply stays_get_bind
  intro client
  refine stays_bind (keeps_onReceiving (TransferClient.keepsCoherent_onTransferComplete transferId))
    (fun _ ↦ ?_) client
  split
  · exact stays_ite _ (stays_pure _) (stays_get_bind fun after ↦ keeps_record _ after)
  · exact stays_pure _

theorem keeps_onTransferCancel (transferId : Text) : Stays Keeps (onTransferCancel transferId) := by
  apply stays_get_bind
  intro client
  refine stays_bind (keeps_onReceiving (TransferClient.keepsCoherent_onTransferCancel transferId))
    (fun _ ↦ stays_ite _ (keeps_completeAccept false) (stays_bind ?_ fun _ ↦ keeps_completeAccept false))
    client
  exact stays_modify fun _ ↦ keeps_of_eq rfl

theorem keeps_onTransferAnswer (transferId : Text) (value : Bool) :
    Stays Keeps (onTransferAnswer transferId value) := by
  apply stays_get_bind
  intro client
  exact stays_ite _ (stays_pure _)
    (stays_bind (keeps_onReceiving
      ((TransferClient.apart_markHandled transferId).mono fun _ _ h ↦ h.keepsCoherent))
      fun _ ↦ keeps_completeAccept value) client

theorem keeps_onResumeAccept (transferId : Text) (resumeChunkIndex : ℤ) :
    Stays Keeps (onResumeAccept transferId resumeChunkIndex) := by
  refine stays_bind (keeps_onReceiving (TransferClient.keepsCoherent_onResumeAccept _ _)) fun _ ↦ ?_
  exact stays_modify fun _ ↦ keeps_of_eq rfl

theorem keeps_onResumeReject (now : ℤ) (transferId : Text) : Stays Keeps (onResumeReject now transferId) := by
  apply stays_get_bind
  intro client
  refine stays_bind (keeps_onReceiving TransferClient.keepsCoherent_onResumeReject) (fun _ ↦ ?_) client
  have hforget : Stays Keeps (update fun client ↦ { client with
      interruptedStore := client.interruptedStore.pop transferId }) :=
    stays_modify fun _ ↦ keeps_of_eq rfl
  cases client.receiving.activeReceiverMeta with
  | none => exact hforget
  | some metadata => exact stays_bind (keeps_record _) fun _ ↦ hforget

theorem keeps_handleTransferMessage (now : ℤ) (message : ClientMessage) :
    Stays Keeps (handleTransferMessage now message) := by
  cases message with
  | transferComplete transferId => exact keeps_onTransferComplete now transferId
  | transferCancel transferId => exact keeps_onTransferCancel transferId
  | transferError transferId =>
    exact stays_bind (keeps_onReceiving TransferClient.keepsCoherent_cancelReceiver)
      fun _ ↦ keeps_completeAccept false
  | transferAccept transferId => exact keeps_onTransferAnswer transferId true
  | transferReject transferId => exact keeps_onTransferAnswer transferId false
  | transferResumeRequest transferId resumeChunkIndex resumeOffsetBytes partialSha256 =>
    exact stays_modify fun _ ↦ keeps_of_eq rfl
  | transferResumeAccept transferId resumeChunkIndex =>
    exact keeps_onResumeAccept transferId resumeChunkIndex
  | transferResumeReject transferId => exact keeps_onResumeReject now transferId
  | batchAccept batchId => exact keeps_completeBatch true
  | batchReject batchId => exact keeps_completeBatch false
  | batchCancel batchId =>
    refine stays_bind ?_ fun _ ↦ stays_bind (keeps_completeBatch false) fun _ ↦ stays_bind ?_ fun _ ↦
      keeps_onReceiving (TransferClient.keepsCoherent_handleTransferMessage now (.batchCancel batchId))
    · exact stays_modify fun _ ↦ keeps_of_eq rfl
    · exact stays_modify fun _ ↦ keeps_of_eq rfl
  | transferRequest _ | transferResult _ _ | batchRequest _ _ | batchComplete _ | other =>
    exact keeps_onReceiving (TransferClient.keepsCoherent_handleTransferMessage now _)

theorem keeps_processFrame (now : ℤ) (frame : ClientFrame) : Stays Keeps (processFrame now frame) := by
  cases frame with
  | chunk plaintext =>
    exact keeps_onReceiving (TransferClient.keepsCoherent_onChunkReceived plaintext.1)
  | message message => exact keeps_handleTransferMessage now message
  | pairDecision accept =>
    apply stays_get_bind
    intro client
    refine stays_ite _ (stays_ite _ ?_ (stays_pure _)) (keeps_endLoop now) client
    exact stays_modify fun _ ↦ keeps_of_eq rfl

theorem keeps_requestResume (now : ℤ) (record : InterruptedRecord) :
    Stays Keeps (requestResume now record) := by
  apply stays_get_bind
  intro client
  refine stays_ite _ (stays_pure _) (stays_bind (stays_tryCatch
    (keeps_onReceiving (TransferClient.keepsCoherent_requestResume now _)) fun _ ↦ ?_)
    fun _ ↦ stays_bind (m := get) (fun _ ↦ id) fun after ↦ ?_) client
  · exact stays_modify fun _ ↦ keeps_of_eq rfl
  · exact stays_modify fun _ ↦ keeps_of_eq rfl

theorem keeps_discardInterrupted (transferId : Text) : Stays Keeps (discardInterrupted transferId) := by
  have hdisk {α : Type} (m : Exec IoError Disk α) :
      Stays Keeps (onReceiving (TransferClient.onDisk m)) :=
    keeps_onReceiving fun _ ↦ TransferClient.keepsCoherent_of_eq rfl rfl rfl
  have hforget : Stays Keeps (update fun client ↦ { client with
      interruptedStore := client.interruptedStore.pop transferId }) :=
    stays_modify fun _ ↦ keeps_of_eq rfl
  apply stays_get_bind
  intro client
  refine stays_bind (hdisk _) (fun found ↦ ?_) client
  split
  · exact stays_bind (hdisk _) fun _ ↦ hforget
  · exact hforget

/-- Every event keeps the receiver with its metadata. -/
theorem keeps_act (event : ControlEvent) : Stays Keeps (act event) := by
  cases event with
  | startSession remoteStaticB64 isTrusted =>
    apply stays_get_bind
    intro client
    refine stays_bind (keeps_onReceiving fun _ ↦ ?_) (fun _ ↦ ?_) client
    · exact TransferClient.keepsCoherent_of_eq rfl rfl rfl
    · exact stays_modify fun _ ↦ keeps_of_eq rfl
  | frame now frame => exact stays_tryCatch (keeps_processFrame now frame) fun _ ↦ keeps_endLoop now
  | loopEnd now => exact keeps_endLoop now
  | acceptPairing => exact stays_modify fun _ ↦ keeps_of_eq rfl
  | rejectPairing => exact stays_modify fun _ ↦ keeps_of_eq rfl
  | setAutoAcceptTransfers value =>
    exact stays_modify fun _ ↦ TransferClient.keepsCoherent_of_eq rfl rfl rfl
  | acceptIncomingTransfer => exact fun c ↦ TransferClient.keepsCoherent_decided c.receiving _ _
  | rejectIncomingTransfer => exact fun c ↦ TransferClient.keepsCoherent_decided c.receiving _ _
  | cancelIncomingTransfer transferId =>
    exact keeps_onReceiving (TransferClient.keepsCoherent_cancelIncomingTransfer transferId)
  | cancelOutgoingTransfer =>
    refine stays_bind ?_ fun _ ↦ keeps_completeAccept false
    exact stays_modify fun _ ↦ keeps_of_eq rfl
  | requestResume now record => exact keeps_requestResume now record
  | discardInterrupted transferId => exact keeps_discardInterrupted transferId
  | sendFile now uri transferId source =>
    exact (sendSide_sendFile now uri transferId source).mono fun _ _ h ↦ h.keeps
  | sendBatch now uris batchId batchName totalBytes =>
    exact (sendSide_sendBatch now uris batchId batchName totalBytes).mono fun _ _ h ↦ h.keeps
  | decideIncoming index timedOut =>
    exact fun c ↦ TransferClient.keepsCoherent_runWaiting c.receiving index timedOut
  | awaitResume index timedOut =>
    exact fun c ↦ TransferClient.keepsCoherent_runResuming c.receiving index timedOut
  | goOn now index input => exact (sendSide_goOn now index input).mono fun _ _ h ↦ h.keeps
  | goOnResuming now index input =>
    exact (sendSide_goOnResuming now index input).mono fun _ _ h ↦ h.keeps
  | disk disk => exact stays_modify fun _ ↦ TransferClient.keepsCoherent_of_eq rfl rfl rfl

theorem coherent_step {c : FerryControlClient} (h : c.receiving.Coherent) (event : ControlEvent) :
    (c.step event).receiving.Coherent := by
  unfold step
  split
  · exact keeps_act event c h
  · exact h

end FerryControlClient

end Ferry
