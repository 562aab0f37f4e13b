import Ferry.Android.Isolation

/-!
# What lasts

Identifiers that have been handled, results of `sendFile` and refusals stay for as long as the process
runs, and the flags of a cancellation stay until an upload starts.
-/

namespace Ferry

open Exec

/-! ## Handled identifiers -/

namespace TransferClient

/-- No identifier is forgotten. -/
def Remembers (c c' : TransferClient) : Prop := c.handledTransferIds ⊆ c'.handledTransferIds

instance : IsPreorder TransferClient Remembers where
  refl := fun _ ↦ List.Subset.refl _
  trans := fun _ _ _ ↦ List.Subset.trans

theorem remembers_of_eq {c c' : TransferClient} (h : c'.handledTransferIds = c.handledTransferIds) :
    Remembers c c' := by
  rw [Remembers, h]
  exact List.Subset.refl _

theorem Remembers.handled {c c' : TransferClient} (h : Remembers c c') {transferId : Text}
    (hhandled : c.Handled transferId) : c'.Handled transferId := ⟨hhandled.1, h hhandled.2⟩

theorem remembers_sendEncryptedMessage (reply : ClientReply) :
    Stays Remembers (sendEncryptedMessage reply) := by
  apply stays_get_bind
  intro client
  refine stays_bind ?_ (fun _ ↦ stays_bind (stays_raiseIf _ _) fun _ ↦ ?_) client
  · exact stays_modify fun _ ↦ remembers_of_eq rfl
  · exact stays_modify fun _ ↦ remembers_of_eq rfl

theorem remembers_onDisk {α : Type} (m : Exec IoError Disk α) : Stays Remembers (onDisk m) :=
  fun _ ↦ remembers_of_eq rfl

theorem remembers_onReceiver {α : Type} (receiver : FerryTransferReceiver)
    (m : FerryTransferReceiver.Method α) : Stays Remembers (onReceiver receiver m) :=
  fun _ ↦ remembers_of_eq rfl

theorem remembers_onNewReceiver {α : Type} (receiver : FerryTransferReceiver)
    (m : FerryTransferReceiver.Method α) : Stays Remembers (onNewReceiver receiver m) :=
  fun _ ↦ remembers_of_eq rfl

theorem remembers_dropReceiver : Stays Remembers dropReceiver := stays_modify fun _ ↦ remembers_of_eq rfl

theorem remembers_cancelActive : Stays Remembers cancelActive := by
  apply stays_get_bind
  intro client
  cases client.activeReceiver with
  | none => exact stays_pure () client
  | some receiver => exact remembers_onReceiver receiver _ client

theorem remembers_cancelReceiver : Stays Remembers cancelReceiver :=
  stays_bind remembers_cancelActive fun _ ↦ remembers_dropReceiver

theorem remembers_completeResume (value : Bool) : Stays Remembers (completeResume value) :=
  stays_modify fun _ ↦ remembers_of_eq rfl

theorem remembers_markHandled (transferId : Text) : Stays Remembers (markHandled transferId) := by
  apply stays_modify
  intro client handledId hhandled
  dsimp only
  split
  · exact List.mem_cons_of_mem _ hhandled
  · exact hhandled

/-- After `handledTransferIds.add` the identifier has been handled. -/
theorem handled_markHandled {transferId : Text} (h : transferId ≠ []) (c : TransferClient) :
    wp (markHandled transferId) (fun _ c' ↦ c'.Handled transferId) c := by
  refine ⟨h, ?_⟩
  change transferId ∈ if transferId ≠ [] then transferId :: c.handledTransferIds else c.handledTransferIds
  rw [if_pos h]
  exact List.mem_cons_self

theorem remembers_onChunkReceived (plaintext : Bytes) : Stays Remembers (onChunkReceived plaintext) := by
  refine stays_tryCatch (stays_bind (stays_ofResult _) fun chunk ↦ ?_) fun _ ↦ remembers_cancelReceiver
  apply stays_get_bind
  intro client
  cases client.activeReceiver with
  | none => exact stays_pure () client
  | some receiver =>
    refine stays_bind (remembers_onReceiver receiver _) (fun _ ↦ ?_) client
    exact stays_modify fun _ ↦ remembers_of_eq rfl

theorem remembers_installReceiver (metadata : Kotlin.TransferMetadata) (receiver : FerryTransferReceiver)
    (isBatched : Bool) : Stays Remembers (installReceiver metadata receiver isBatched) := by
  have hanswer : Stays Remembers (acceptAtOnce metadata) :=
    stays_bind (stays_modify fun _ ↦ remembers_of_eq rfl) fun _ ↦ remembers_sendEncryptedMessage _
  have hask : Stays Remembers (askUser metadata) := stays_modify fun _ ↦ remembers_of_eq rfl
  refine stays_bind (stays_modify fun _ ↦ remembers_of_eq rfl) fun _ ↦ stays_get_bind fun client ↦ ?_
  exact stays_ite _ hanswer hask client

theorem remembers_onTransferRequest (now : ℤ) (fields : String → Kotlin.MapValue) :
    Stays Remembers (onTransferRequest now fields) := by
  have hbegin (isBatched : Bool) : Stays Remembers (beginTransfer now fields isBatched) := by
    refine stays_bind (stays_ofResult _) fun metadata ↦ stays_get_bind fun client ↦ ?_
    refine stays_bind (remembers_onDisk _) (fun _ ↦ stays_bind (remembers_onNewReceiver _ _) ?_) client
    rintro ⟨outcome, receiver⟩
    cases outcome with
    | ok _ => exact remembers_installReceiver metadata receiver isBatched
    | error e => exact stays_ite _ (remembers_sendEncryptedMessage _) (stays_throw e)
  apply stays_get_bind
  intro client
  exact stays_ite _ (remembers_sendEncryptedMessage _) (stays_ite _ (remembers_sendEncryptedMessage _)
    (stays_tryCatch (hbegin _) fun _ ↦ remembers_sendEncryptedMessage _)) client

theorem remembers_onTransferComplete (transferId : Text) :
    Stays Remembers (onTransferComplete transferId) := by
  have hcomplete (receiver : FerryTransferReceiver) :
      Stays Remembers (completeTransfer transferId receiver) := by
    refine stays_bind (remembers_markHandled transferId) fun _ ↦
      stays_bind (remembers_onReceiver receiver _) fun success ↦ ?_
    exact stays_bind (stays_modify fun _ ↦ remembers_of_eq rfl) fun _ ↦
      stays_bind remembers_dropReceiver fun _ ↦ remembers_sendEncryptedMessage _
  apply stays_get_bind
  intro client
  cases client.activeReceiver with
  | none => exact stays_pure () client
  | some receiver => exact stays_ite _ (stays_pure ()) (hcomplete receiver) client

theorem remembers_onTransferCancel (transferId : Text) : Stays Remembers (onTransferCancel transferId) := by
  apply stays_get_bind
  intro client
  exact stays_ite _ (stays_pure ())
    (stays_bind (remembers_markHandled transferId) fun _ ↦ remembers_cancelReceiver) client

/-- A CANCEL is remembered. -/
theorem handled_onTransferCancel {transferId : Text} (h : transferId ≠ []) (c : TransferClient) :
    wp (onTransferCancel transferId) (fun _ c' ↦ c'.Handled transferId) c := by
  unfold onTransferCancel
  rw [wp_get_bind, wp_ite]
  refine ⟨id, fun _ ↦ wp_bind_of (handled_markHandled h c) (fun _ _ ↦ id) fun _ c' hhandled ↦ ?_⟩
  exact wp_mono (remembers_cancelReceiver c') fun _ _ hlater ↦ hlater.handled hhandled

theorem remembers_onBatchRequest (batchId : Text) (totalItems : ℤ) :
    Stays Remembers (onBatchRequest batchId totalItems) :=
  stays_ite _ (remembers_sendEncryptedMessage _)
    (stays_bind (stays_modify fun _ ↦ remembers_of_eq rfl) fun _ ↦ remembers_sendEncryptedMessage _)

theorem remembers_onResumeAccept (transferId : Text) (resumeChunkIndex : ℤ) :
    Stays Remembers (onResumeAccept transferId resumeChunkIndex) := by
  apply stays_get_bind
  intro client
  cases client.activeReceiver with
  | none => exact remembers_completeResume true client
  | some receiver =>
    exact stays_ite _
      (stays_tryCatch
        (stays_bind (remembers_onReceiver receiver _) fun _ ↦ remembers_completeResume true)
        fun _ ↦ stays_bind remembers_cancelReceiver fun _ ↦ remembers_completeResume false)
      (remembers_completeResume true) client

theorem remembers_onResumeReject : Stays Remembers onResumeReject :=
  stays_bind remembers_cancelReceiver fun _ ↦ remembers_completeResume false

theorem remembers_handleTransferMessage (now : ℤ) (message : PeerMessage) :
    Stays Remembers (handleTransferMessage now message) := by
  cases message with
  | transferRequest fields => exact remembers_onTransferRequest now fields
  | transferComplete transferId => exact remembers_onTransferComplete transferId
  | transferCancel transferId => exact remembers_onTransferCancel transferId
  | transferError => exact remembers_cancelReceiver
  | transferAccept transferId => exact remembers_markHandled transferId
  | transferReject transferId => exact remembers_markHandled transferId
  | transferResumeAccept transferId resumeChunkIndex =>
    exact remembers_onResumeAccept transferId resumeChunkIndex
  | transferResumeReject => exact remembers_onResumeReject
  | batchRequest batchId totalItems => exact remembers_onBatchRequest batchId totalItems
  | batchCancel batchId => exact stays_modify fun _ ↦ remembers_of_eq rfl
  | batchComplete batchId => exact stays_modify fun _ ↦ remembers_of_eq rfl
  | other => exact stays_pure ()

theorem remembers_requestResume (now : ℤ) (record : InterruptedRecord) :
    Stays Remembers (requestResume now record) := by
  have hask (partialSha256 : Text) : Stays Remembers (askPeer record partialSha256) := by
    refine stays_bind (stays_modify fun _ ↦ remembers_of_eq rfl) fun _ ↦ stays_tryCatch
      (stays_bind (remembers_sendEncryptedMessage _) fun _ ↦ ?_)
      fun _ ↦ stays_bind remembers_cancelReceiver fun _ ↦ ?_
    · exact stays_modify fun _ ↦ remembers_of_eq rfl
    · exact stays_modify fun _ ↦ remembers_of_eq rfl
  have hrebuild (metadata : Kotlin.TransferMetadata) (partialSha256 : Text) :
      Stays Remembers (rebuildReceiver record metadata partialSha256) := by
    refine stays_get_bind fun client ↦ stays_bind (remembers_onNewReceiver _ _) (fun begun ↦ ?_) client
    refine stays_bind (remembers_onNewReceiver _ _) fun interrupted ↦ ?_
    exact stays_bind (stays_modify fun _ ↦ remembers_of_eq rfl) fun _ ↦ hask partialSha256
  refine stays_bind (stays_ofResult _) fun metadata ↦ stays_get_bind fun client ↦ ?_
  refine stays_bind (remembers_onDisk _) (fun _ ↦ stays_bind (stays_raiseIf _ _) fun _ ↦ ?_) client
  refine stays_bind (remembers_onDisk _) fun _ ↦ stays_bind (stays_raiseIf _ _) fun _ ↦ ?_
  exact hrebuild metadata _

theorem remembers_decideIncoming (metadata : Kotlin.TransferMetadata) (accepted : Bool) :
    Stays Remembers (decideIncoming metadata accepted) :=
  stays_bind (stays_modify fun _ ↦ remembers_of_eq rfl) fun _ ↦
    stays_ite _ (remembers_sendEncryptedMessage _)
      (stays_bind remembers_cancelReceiver fun _ ↦ remembers_sendEncryptedMessage _)

theorem remembers_cancelIncomingTransfer (transferId : Option Text) :
    Stays Remembers (cancelIncomingTransfer transferId) := by
  apply stays_get_bind
  intro client
  cases (client.activeReceiverMeta.map Kotlin.TransferMetadata.transferId).or transferId with
  | none => exact stays_pure () client
  | some currentId =>
    exact stays_bind remembers_cancelReceiver
      (fun _ ↦ stays_tryCatch (remembers_sendEncryptedMessage _) fun _ ↦ stays_pure ()) client

theorem remembers_endLoop : Stays Remembers endLoop := by
  have hinterrupt : Stays Remembers interruptActive := by
    apply stays_get_bind
    intro client
    cases client.activeReceiver with
    | none => exact remembers_cancelActive client
    | some receiver =>
      cases client.activeReceiverMeta with
      | none => exact remembers_cancelActive client
      | some metadata =>
        exact stays_bind (remembers_onReceiver receiver _)
          (fun _ ↦ stays_ite _ (stays_pure ()) remembers_cancelActive) client
  refine stays_bind (stays_modify fun _ ↦ remembers_of_eq rfl) fun _ ↦ stays_bind hinterrupt fun _ ↦ ?_
  refine stays_bind remembers_dropReceiver fun _ ↦ stays_bind (remembers_completeResume false) fun _ ↦ ?_
  exact stays_modify fun _ ↦ remembers_of_eq rfl

theorem remembers_decided (c : TransferClient) (value : Bool) (note : RequestRecord → RequestRecord) :
    Remembers c (c.decided value note) := by
  unfold decided
  split
  · exact refl_of Remembers c
  · split
    · exact remembers_of_eq rfl
    · exact refl_of Remembers c

theorem remembers_runWaiting (c : TransferClient) (index : ℕ) (timedOut : Bool) :
    Remembers c (c.runWaiting index timedOut) := by
  have hdecide (metadata : Kotlin.TransferMetadata) (value : Bool) : Remembers c
      (decideIncoming metadata value { c with waiting := c.waiting.eraseIdx index }).2 :=
    remembers_decideIncoming metadata value { c with waiting := c.waiting.eraseIdx index }
  unfold runWaiting
  split
  · exact refl_of Remembers c
  · next k metadata _ =>
    dsimp only
    split
    · exact hdecide metadata false
    · exact hdecide metadata _
    · exact refl_of Remembers c

theorem remembers_runResuming (c : TransferClient) (index : ℕ) (timedOut : Bool) :
    Remembers c (c.runResuming index timedOut) := by
  have habandon : Stays Remembers abandonResume :=
    stays_bind (stays_modify fun _ ↦ remembers_of_eq rfl) fun _ ↦ remembers_cancelReceiver
  unfold runResuming
  split
  · exact refl_of Remembers c
  · dsimp only
    split
    · exact habandon { c with resuming := c.resuming.eraseIdx index }
    · exact remembers_of_eq rfl
    · exact refl_of Remembers c

end TransferClient

/-! ## Results, refusals and flags -/

namespace FerryControlClient

open TransferClient (Remembers)

/-- The deferred at an index has been completed with `false`. -/
def Declined (c : FerryControlClient) (k : ℕ) : Prop :=
  c.transferAnswers[k]?.bind Prod.snd = some false

/-- What has been handled, returned and refused stays, and the flags stay unless `resets`. -/
structure Lasts (resets : Prop) (c c' : FerryControlClient) : Prop where
  handled : Remembers c.receiving c'.receiving
  returned : c.returned ⊆ c'.returned
  declined : ∀ k, c.Declined k → c'.Declined k
  cancelled : c.Cancelled → resets ∨ c'.Cancelled

variable {resets : Prop}

theorem Lasts.refl (c : FerryControlClient) : Lasts resets c c :=
  ⟨refl_of Remembers _, List.Subset.refl _, fun _ ↦ id, .inr⟩

instance : IsPreorder FerryControlClient (Lasts resets) where
  refl := Lasts.refl
  trans := fun _ _ _ h h' ↦ ⟨trans_of Remembers h.handled h'.handled,
    List.Subset.trans h.returned h'.returned, fun k ↦ h'.declined k ∘ h.declined k,
    fun hcancelled ↦ (h.cancelled hcancelled).elim .inl h'.cancelled⟩

/-- An assignment to fields that do not matter here. -/
theorem lasts_of_eq {c c' : FerryControlClient}
    (hhandled : c'.receiving.handledTransferIds = c.receiving.handledTransferIds)
    (hreturned : c'.returned = c.returned) (hanswers : c'.transferAnswers = c.transferAnswers)
    (hcancelled : c'.outgoingCancelled = c.outgoingCancelled)
    (hpeer : c'.outgoingCancelledByPeer = c.outgoingCancelledByPeer) : Lasts resets c c' := by
  refine ⟨TransferClient.remembers_of_eq hhandled, ?_, fun k hdeclined ↦ ?_, fun hflags ↦ .inr ?_⟩
  · rw [hreturned]
    exact List.Subset.refl _
  · rwa [Declined, hanswers]
  · rwa [Cancelled, hcancelled, hpeer]

theorem lasts_onReceiving {α : Type} {m : TransferClient.Action α} (hm : Stays Remembers m) :
    Stays (Lasts resets) (onReceiving m) :=
  fun c ↦ ⟨hm c.receiving, List.Subset.refl _, fun _ ↦ id, .inr⟩

theorem lasts_record (entry : TransferHistoryEntry) : Stays (Lasts resets) (record entry) :=
  stays_modify fun _ ↦ lasts_of_eq rfl rfl rfl rfl rfl

/-- The first value of a deferred stays. -/
theorem completed_declined {answers : List (Text × Option Bool)} {k : ℕ}
    (h : answers[k]?.bind Prod.snd = some false) (value : Bool) (slot : Option ℕ) :
    (completed answers value slot)[k]?.bind Prod.snd = some false := by
  cases slot with
  | none => exact h
  | some pending =>
    obtain ⟨answer, hget, hanswer⟩ := Option.bind_eq_some_iff.mp h
    rw [completed, List.getElem?_modify, hget]
    split
    · simp [hanswer]
    · simpa using hanswer

theorem lasts_completeAccept (value : Bool) : Stays (Lasts resets) (completeAccept value) :=
  stays_modify fun _ ↦ ⟨refl_of Remembers _, List.Subset.refl _,
    fun _ hdeclined ↦ completed_declined hdeclined value _, .inr⟩

theorem lasts_completeBatch (value : Bool) : Stays (Lasts resets) (completeBatch value) :=
  stays_modify fun _ ↦ lasts_of_eq rfl rfl rfl rfl rfl

/-! ### The coroutines that send -/

theorem lasts_write (session : ℕ) (frame : OutgoingFrame) :
    Stays (Lasts resets) (write session frame) := by
  apply stays_get_bind
  intro client
  refine stays_bind (stays_raiseIf _ _) (fun _ ↦ stays_bind ?_ fun _ ↦
    stays_bind (stays_raiseIf _ _) fun _ ↦ ?_) client
  · exact stays_modify fun _ ↦ lasts_of_eq rfl rfl rfl rfl rfl
  · exact stays_modify fun _ ↦ lasts_of_eq rfl rfl rfl rfl rfl

/-- An upload that starts takes the flags back. -/
theorem lasts_resetFlags : Stays (Lasts True) (update fun client ↦
    { client with outgoingCancelled := false, outgoingCancelledByPeer := false }) :=
  stays_modify fun _ ↦ ⟨refl_of Remembers _, List.Subset.refl _, fun _ ↦ id, fun _ ↦ .inl trivial⟩

theorem Lasts.of_resets {c c' : FerryControlClient} (h : Lasts True c c') (hresets : resets) :
    Lasts resets c c' := ⟨h.handled, h.returned, h.declined, fun _ ↦ .inl hresets⟩

theorem lasts_startFile (now : ℤ) (uri transferId : Text) (source : SourceFile) (batchId : Text)
    (c : FerryControlClient) : wp (startFile now uri transferId source batchId)
      (fun _ c' ↦ Lasts (c.Established ∧ source.opens = true) c c') c := by
  unfold startFile
  rw [wp_get_bind, wp_ite]
  refine ⟨fun _ ↦ Lasts.refl c, fun hstarts ↦ ?_⟩
  rw [not_or, not_not, Bool.not_eq_false] at hstarts
  have hrest (frame : OutgoingFrame) (progress : Progress FileSend) : Stays (Lasts True) (do
      update fun client ↦ { client with outgoingCancelled := false, outgoingCancelledByPeer := false }
      write c.sessions frame
      return progress) :=
    stays_bind lasts_resetFlags fun _ ↦ stays_bind (lasts_write _ _) fun _ ↦ stays_pure _
  exact (hrest _ _ c).of_resets hstarts

theorem lasts_startBatch (now : ℤ) (uris : List Text) (batchId batchName : Text) (totalBytes : ℤ)
    (c : FerryControlClient) : wp (startBatch now uris batchId batchName totalBytes)
      (fun _ c' ↦ Lasts (c.Established ∧ uris ≠ []) c c') c := by
  unfold startBatch
  rw [wp_get_bind, wp_ite]
  refine ⟨fun _ ↦ Lasts.refl c, fun hstarts ↦ ?_⟩
  rw [not_or, not_not] at hstarts
  have hrest (frame : OutgoingFrame) (progress : Progress BatchSend) : Stays (Lasts True) (do
      update fun client ↦ { client with outgoingCancelled := false, outgoingCancelledByPeer := false }
      write c.sessions frame
      return progress) :=
    stays_bind lasts_resetFlags fun _ ↦ stays_bind (lasts_write _ _) fun _ ↦ stays_pure _
  exact (hrest _ _ c).of_resets hstarts

theorem lasts_returned (result : Text × Bool) : Stays (Lasts resets)
    (update fun client ↦ { client with returned := result :: client.returned }) :=
  stays_modify fun _ ↦ ⟨refl_of Remembers _, List.subset_cons_self _ _, fun _ ↦ id, .inr⟩

theorem lasts_returnFile (now : ℤ) (file : FileSend) (success : Bool) :
    Stays (Lasts resets) (returnFile now file success) :=
  stays_bind (lasts_record _) fun _ ↦ stays_bind (lasts_returned _) fun _ ↦ stays_pure _

theorem lasts_awaitAccept (file : FileSend) : Stays (Lasts resets) (awaitAccept file) := by
  apply stays_get_bind
  intro client
  have hadd (k : ℕ) : Stays (Lasts resets) (update fun client ↦ { client with
      transferAnswers := client.transferAnswers ++ [(file.payload.transferId, none)]
      pendingTransferAccept := some k }) := by
    refine stays_modify fun c ↦ ⟨refl_of Remembers _, List.Subset.refl _, fun k hdeclined ↦ ?_, .inr⟩
    obtain ⟨answer, hget, hanswer⟩ := Option.bind_eq_some_iff.mp hdeclined
    have hlt := (List.getElem?_eq_some_iff.mp hget).1
    change (c.transferAnswers ++ [_])[k]?.bind Prod.snd = some false
    rw [List.getElem?_append_left hlt, hget]
    exact hanswer
  exact stays_bind (hadd _) (fun _ ↦ stays_pure _) client

theorem lasts_abandonFile (file : FileSend) : Stays (Lasts resets) (abandonFile file) := by
  refine stays_bind (stays_modify fun _ ↦ ?_) fun _ ↦ stays_pure _
  exact ⟨refl_of Remembers _, List.subset_cons_self _ _, fun _ ↦ id, .inr⟩

theorem lasts_abortStream (now : ℤ) (file : FileSend) : Stays (Lasts resets) (abortStream now file) := by
  apply stays_get_bind
  intro client
  refine stays_ite _ (stays_ite _ ?_ (stays_pure _)) (stays_ite _ (lasts_write _ _) (stays_pure _)) client
  exact stays_modify fun _ ↦ lasts_of_eq rfl rfl rfl rfl rfl

theorem lasts_streamChunk (file : FileSend) (input : SendInput) :
    Stays (Lasts resets) (streamChunk file input) := by
  cases input with
  | data data => exact stays_bind (lasts_write _ _) fun _ ↦ stays_pure _
  | eof => exact stays_pure _
  | readError => exact stays_throw _
  | turn | timeout | opened _ | item _ _ => exact stays_pure _

theorem lasts_goOnFile (now : ℤ) (input : SendInput) (file : FileSend) :
    Stays (Lasts resets) (goOnFile now input file) := by
  have hanswer (answer : Option Bool) : Stays (Lasts resets) (onAnswer now file answer) := by
    match answer with
    | none => exact stays_pure _
    | some true => exact stays_pure _
    | some false => exact lasts_returnFile now file false
  apply stays_get_bind
  intro client
  cases file.phase with
  | requested => exact lasts_awaitAccept file client
  | awaiting k =>
    cases input with
    | timeout => exact lasts_abandonFile file client
    | turn | data _ | eof | readError | opened _ | item _ _ => exact hanswer _ client
  | streaming => exact stays_ite _ (stays_pure _) (lasts_streamChunk file input) client
  | streamed streamSuccess =>
    cases streamSuccess with
    | true => exact stays_bind (lasts_write _ _) (fun _ ↦ stays_pure _) client
    | false => exact stays_bind (lasts_abortStream now file) (fun _ ↦ stays_pure _) client
  | ending success => exact lasts_returnFile now file success client

theorem lasts_goOnBatch (input : SendInput) (batch : BatchSend) :
    Stays (Lasts resets) (goOnBatch input batch) := by
  have hforget : Stays (Lasts resets) (update fun client ↦ { client with pendingBatchAccept := none }) :=
    stays_modify fun _ ↦ lasts_of_eq rfl rfl rfl rfl rfl
  have hreturn (success : Bool) : Stays (Lasts resets) (returnBatch batch success) :=
    stays_bind (lasts_write _ _) fun _ ↦ stays_pure _
  have hadd : Stays (Lasts resets) (awaitBatch batch) := by
    apply stays_get_bind
    intro client
    refine stays_bind ?_ (fun _ ↦ stays_pure _) client
    exact stays_modify fun _ ↦ lasts_of_eq rfl rfl rfl rfl rfl
  apply stays_get_bind
  intro client
  cases batch.phase with
  | requested => exact hadd client
  | awaiting k =>
    cases input with
    | timeout => exact stays_bind hforget (fun _ ↦ stays_pure _) client
    | turn | data _ | eof | readError | opened _ | item _ _ =>
      dsimp only
      split
      · exact stays_pure _ client
      · exact stays_pure _ client
      · exact stays_pure _ client
  | items =>
    cases batch.uris with
    | nil => exact hreturn _ client
    | cons uri uris => exact stays_ite _ (hreturn false) (stays_pure _) client

/-- A batch starts no item while the flags are set. -/
theorem lasts_nextItem (now : ℤ) (input : SendInput) (batch : BatchSend) :
    Stays (Lasts resets) (nextItem now input batch) := by
  apply stays_get_bind
  intro client
  split
  · next uri uris transferId source _ _ =>
    rw [wp_ite]
    refine ⟨fun _ ↦ Lasts.refl client, fun hrunning ↦ ?_⟩
    have hflags : ¬client.Cancelled := fun hflags ↦ hrunning (.inr (.inl hflags.1))
    apply wp_bind_of (lasts_startFile now uri transferId source batch.batchId client)
    · exact fun _ _ h ↦ ⟨h.handled, h.returned, h.declined, fun hset ↦ absurd hset hflags⟩
    · exact fun _ _ h ↦ ⟨h.handled, h.returned, h.declined, fun hset ↦ absurd hset hflags⟩
  · exact stays_pure _ client

theorem lasts_goOnJob (now : ℤ) (input : SendInput) (job : SendJob) :
    Stays (Lasts resets) (goOnJob now input job) := by
  rcases job with ⟨batch, file⟩
  cases file with
  | some file => exact stays_bind (lasts_goOnFile now input file) fun _ ↦ stays_pure _
  | none =>
    cases batch with
    | none => exact stays_pure _
    | some batch =>
      refine stays_bind (lasts_nextItem now input batch) fun started ↦ ?_
      cases started with
      | some item => exact stays_pure _
      | none =>
        refine stays_bind (lasts_goOnBatch input batch) fun progress ↦ ?_
        cases progress with
        | waits => exact stays_pure _
        | goesOn batch => exact stays_pure _
        | returns value => exact stays_pure _

theorem lasts_settle {α : Type} {turn : Action (Progress α)} (h : Stays (Lasts resets) turn) :
    Stays (Lasts resets) (settle turn) := stays_tryCatch h fun _ ↦ stays_pure _

theorem lasts_goOn (now : ℤ) (index : ℕ) (input : SendInput) :
    Stays (Lasts resets) (goOn now index input) := by
  apply stays_get_bind
  intro client
  cases client.jobs[index]? with
  | none => exact stays_pure _ client
  | some job =>
    refine stays_bind (lasts_settle (lasts_goOnJob now input job)) (fun _ ↦ ?_) client
    exact stays_modify fun _ ↦ lasts_of_eq rfl rfl rfl rfl rfl

theorem lasts_addJob (started : Progress SendJob) : Stays (Lasts resets) (addJob started) :=
  stays_modify fun _ ↦ lasts_of_eq rfl rfl rfl rfl rfl

/-- A call that starts a coroutine. -/
theorem lasts_started {α : Type} {start : Action (Progress α)}
    {first : Progress α → Action (Progress SendJob)} {c : FerryControlClient}
    (h : wp start (fun _ c' ↦ Lasts resets c c') c)
    (hfirst : ∀ progress, Stays (Lasts resets) (first progress)) :
    wp (settle (start >>= first) >>= addJob) (fun _ c' ↦ Lasts resets c c') c := by
  have hstarted : wp (start >>= first) (fun _ c' ↦ Lasts resets c c') c :=
    wp_bind_of h (fun _ _ ↦ id) fun progress c' hlasts ↦
      wp_mono (hfirst progress c') fun _ _ ↦ trans_of (Lasts _) hlasts
  have hsettled : wp (settle (start >>= first)) (fun _ c' ↦ Lasts resets c c') c :=
    wp_tryCatch_of hstarted (fun _ _ ↦ id) fun _ _ ↦ id
  exact wp_bind_of hsettled (fun _ _ ↦ id) fun started c' hlasts ↦
    wp_mono (lasts_addJob started c') fun _ _ ↦ trans_of (Lasts _) hlasts

theorem lasts_sendFile (now : ℤ) (uri transferId : Text) (source : SourceFile) (c : FerryControlClient) :
    wp (sendFile now uri transferId source)
      (fun _ c' ↦ Lasts (c.Established ∧ source.opens = true) c c') c := by
  refine lasts_started (lasts_startFile now uri transferId source [] c) fun progress ↦ ?_
  cases progress with
  | goesOn file => exact stays_pure _
  | waits | returns _ => exact stays_pure _

theorem lasts_sendBatch (now : ℤ) (uris : List Text) (batchId batchName : Text) (totalBytes : ℤ)
    (c : FerryControlClient) : wp (sendBatch now uris batchId batchName totalBytes)
      (fun _ c' ↦ Lasts (c.Established ∧ uris ≠ []) c c') c := by
  refine lasts_started (lasts_startBatch now uris batchId batchName totalBytes c) fun progress ↦ ?_
  cases progress with
  | goesOn batch => exact stays_pure _
  | waits | returns _ => exact stays_pure _

theorem lasts_goOnResume (now : ℤ) (input : SendInput) (resume : ResumeSend) :
    Stays (Lasts resets) (goOnResume now input resume) := by
  have hforget {m : Action (Progress ResumeSend)} (hm : Stays (Lasts resets) m) :
      Stays (Lasts resets) (forgetRecord resume m) := by
    refine stays_bind (stays_tryCatch hm fun _ ↦ stays_pure _) fun progress ↦ ?_
    cases progress with
    | returns value =>
      exact stays_bind (stays_modify fun _ ↦ lasts_of_eq rfl rfl rfl rfl rfl) fun _ ↦ stays_pure _
    | waits | goesOn _ => exact stays_pure _
  have hreject (reason : String) : Stays (Lasts resets) (rejectResume resume reason) :=
    stays_bind (stays_tryCatch (lasts_write _ _) fun _ ↦ stays_pure _) fun _ ↦ stays_pure _
  have hverify (content : Option Bytes) : Stays (Lasts resets) (verifyPrefix now content resume) := by
    apply stays_get_bind
    intro client
    refine stays_bind ?_ (fun _ ↦ ?_) client
    · exact stays_modify fun _ ↦ lasts_of_eq rfl rfl rfl rfl rfl
    split
    · exact hreject _
    · exact stays_ite _ (hreject _)
        (stays_tryCatch (stays_bind (lasts_write _ _) fun _ ↦ stays_pure _) fun _ ↦ stays_pure _)
  have hstream : Stays (Lasts resets) (streamResumed resume input) := by
    apply stays_get_bind
    intro client
    refine stays_ite _ (stays_pure _) ?_ client
    cases input with
    | data data => exact stays_bind (lasts_write _ _) fun _ ↦ stays_pure _
    | readError => exact stays_throw _
    | eof | turn | timeout | opened _ | item _ _ => exact stays_pure _
  unfold goOnResume
  cases resume.phase with
  | launched =>
    cases input with
    | item transferId source => exact hverify source.content
    | turn | timeout | data _ | eof | readError | opened _ => exact stays_pure _
  | accepted uri =>
    cases input with
    | opened skipped =>
      cases skipped with
      | none => exact hforget (stays_pure _)
      | some skipped => exact hforget (stays_ite _ (stays_pure _) (stays_pure _))
    | turn | timeout | data _ | eof | readError | item _ _ => exact stays_pure _
  | streaming => exact hforget hstream
  | streamed => exact hforget (stays_bind (lasts_write _ _) fun _ ↦ stays_pure _)

theorem lasts_goOnResuming (now : ℤ) (index : ℕ) (input : SendInput) :
    Stays (Lasts resets) (goOnResuming now index input) := by
  apply stays_get_bind
  intro client
  cases client.resumeSends[index]? with
  | none => exact stays_pure _ client
  | some resume =>
    refine stays_bind (lasts_settle (lasts_goOnResume now input resume)) (fun _ ↦ ?_) client
    exact stays_modify fun _ ↦ lasts_of_eq rfl rfl rfl rfl rfl

/-! ### The loop -/

theorem lasts_endLoop (now : ℤ) : Stays (Lasts resets) (endLoop now) := by
  have hnote : Stays (Lasts resets) (noteInterrupted now) := by
    apply stays_get_bind
    intro client
    split
    · split
      · refine stays_ite _ ?_ (lasts_record _) client
        exact stays_modify fun _ ↦ lasts_of_eq rfl rfl rfl rfl rfl
      · exact stays_pure _ client
    · exact stays_pure _ client
  refine stays_bind hnote fun _ ↦ stays_bind (lasts_onReceiving TransferClient.remembers_endLoop) fun _ ↦ ?_
  exact stays_bind (lasts_completeAccept false) fun _ ↦
    stays_modify fun _ ↦ lasts_of_eq rfl rfl rfl rfl rfl

theorem lasts_onTransferComplete (now : ℤ) (transferId : Text) :
    Stays (Lasts resets) (onTransferComplete now transferId) := by
  apply stays_get_bind
  intro client
  refine stays_bind (lasts_onReceiving (TransferClient.remembers_onTransferComplete transferId))
    (fun _ ↦ ?_) client
  split
  · exact stays_ite _ (stays_pure _) (stays_get_bind fun after ↦ lasts_record _ after)
  · exact stays_pure _

/-- A CANCEL sets the flags. -/
theorem lasts_setFlags : Stays (Lasts resets) (update fun client ↦
    { client with outgoingCancelledByPeer := true, outgoingCancelled := true }) :=
  stays_modify fun _ ↦ ⟨refl_of Remembers _, List.Subset.refl _, fun _ ↦ id, fun _ ↦ .inr ⟨rfl, rfl⟩⟩

theorem lasts_onTransferCancel (transferId : Text) :
    Stays (Lasts resets) (onTransferCancel transferId) := by
  apply stays_get_bind
  intro client
  refine stays_bind (lasts_onReceiving (TransferClient.remembers_onTransferCancel transferId))
    (fun _ ↦ ?_) client
  exact stays_ite _ (lasts_completeAccept false)
    (stays_bind lasts_setFlags fun _ ↦ lasts_completeAccept false)

theorem lasts_onTransferAnswer (transferId : Text) (value : Bool) :
    Stays (Lasts resets) (onTransferAnswer transferId value) := by
  apply stays_get_bind
  intro client
  exact stays_ite _ (stays_pure _)
    (stays_bind (lasts_onReceiving (TransferClient.remembers_markHandled transferId))
      fun _ ↦ lasts_completeAccept value) client

theorem lasts_onResumeReject (now : ℤ) (transferId : Text) :
    Stays (Lasts resets) (onResumeReject now transferId) := by
  have hforget : Stays (Lasts resets) (update fun client ↦ { client with
      interruptedStore := client.interruptedStore.pop transferId }) :=
    stays_modify fun _ ↦ lasts_of_eq rfl rfl rfl rfl rfl
  apply stays_get_bind
  intro client
  refine stays_bind (lasts_onReceiving TransferClient.remembers_onResumeReject) (fun _ ↦ ?_) client
  cases client.receiving.activeReceiverMeta with
  | none => exact hforget
  | some metadata => exact stays_bind (lasts_record _) fun _ ↦ hforget

theorem lasts_handleTransferMessage (now : ℤ) (message : ClientMessage) :
    Stays (Lasts resets) (handleTransferMessage now message) := by
  cases message with
  | transferComplete transferId => exact lasts_onTransferComplete now transferId
  | transferCancel transferId => exact lasts_onTransferCancel transferId
  | transferError transferId =>
    exact stays_bind (lasts_onReceiving TransferClient.remembers_cancelReceiver)
      fun _ ↦ lasts_completeAccept false
  | transferAccept transferId => exact lasts_onTransferAnswer transferId true
  | transferReject transferId => exact lasts_onTransferAnswer transferId false
  | transferResumeRequest transferId resumeChunkIndex resumeOffsetBytes partialSha256 =>
    exact stays_modify fun _ ↦ lasts_of_eq rfl rfl rfl rfl rfl
  | transferResumeAccept transferId resumeChunkIndex =>
    refine stays_bind (lasts_onReceiving (TransferClient.remembers_onResumeAccept _ _)) fun _ ↦ ?_
    exact stays_modify fun _ ↦ lasts_of_eq rfl rfl rfl rfl rfl
  | transferResumeReject transferId => exact lasts_onResumeReject now transferId
  | batchAccept batchId => exact lasts_completeBatch true
  | batchReject batchId => exact lasts_completeBatch false
  | batchCancel batchId =>
    refine stays_bind ?_ fun _ ↦ stays_bind (lasts_completeBatch false) fun _ ↦ stays_bind ?_ fun _ ↦
      lasts_onReceiving (TransferClient.remembers_handleTransferMessage now (.batchCancel batchId))
    · exact stays_modify fun _ ↦ ⟨refl_of Remembers _, List.Subset.refl _, fun _ ↦ id,
        fun hset ↦ .inr ⟨hset.1, rfl⟩⟩
    · exact stays_modify fun _ ↦ lasts_of_eq rfl rfl rfl rfl rfl
  | transferRequest _ | transferResult _ _ | batchRequest _ _ | batchComplete _ | other =>
    exact lasts_onReceiving (TransferClient.remembers_handleTransferMessage now _)

theorem lasts_receiveFrame (now : ℤ) (frame : ClientFrame) :
    Stays (Lasts resets) (receiveFrame now frame) := by
  refine stays_tryCatch ?_ fun _ ↦ lasts_endLoop now
  cases frame with
  | chunk plaintext => exact lasts_onReceiving (TransferClient.remembers_onChunkReceived plaintext.1)
  | message message => exact lasts_handleTransferMessage now message
  | pairDecision accept =>
    apply stays_get_bind
    intro client
    refine stays_ite _ (stays_ite _ ?_ (stays_pure _)) (lasts_endLoop now) client
    exact stays_modify fun _ ↦ lasts_of_eq rfl rfl rfl rfl rfl

/-! ### The user -/

theorem lasts_cancelOutgoingTransfer : Stays (Lasts resets) cancelOutgoingTransfer := by
  refine stays_bind (stays_modify fun _ ↦ ?_) fun _ ↦ lasts_completeAccept false
  exact ⟨refl_of Remembers _, List.Subset.refl _, fun _ ↦ id, fun hset ↦ .inr ⟨rfl, hset.2⟩⟩

theorem lasts_requestResume (now : ℤ) (record : InterruptedRecord) :
    Stays (Lasts resets) (requestResume now record) := by
  apply stays_get_bind
  intro client
  refine stays_ite _ (stays_pure _) (stays_bind (stays_tryCatch
    (lasts_onReceiving (TransferClient.remembers_requestResume now _)) fun _ ↦ ?_)
    fun _ ↦ stays_bind (m := get) Lasts.refl fun after ↦ ?_) client
  · exact stays_modify fun _ ↦ lasts_of_eq rfl rfl rfl rfl rfl
  · exact stays_modify fun _ ↦ lasts_of_eq rfl rfl rfl rfl rfl

theorem lasts_discardInterrupted (transferId : Text) :
    Stays (Lasts resets) (discardInterrupted transferId) := by
  have hdisk {α : Type} (m : Exec IoError Disk α) :
      Stays (Lasts resets) (onReceiving (TransferClient.onDisk m)) :=
    lasts_onReceiving (TransferClient.remembers_onDisk m)
  have hforget : Stays (Lasts resets) (update fun client ↦ { client with
      interruptedStore := client.interruptedStore.pop transferId }) :=
    stays_modify fun _ ↦ lasts_of_eq rfl rfl rfl rfl rfl
  apply stays_get_bind
  intro client
  refine stays_bind (hdisk _) (fun found ↦ ?_) client
  split
  · exact stays_bind (hdisk _) fun _ ↦ hforget
  · exact hforget

/-! ### Every event -/

/-- An upload starts that takes the flags back. -/
def Resets (c : FerryControlClient) : ControlEvent → Prop
  | .sendFile _ _ _ source => c.Established ∧ source.opens = true
  | .sendBatch _ uris _ _ _ => c.Established ∧ uris ≠ []
  | _ => False

instance (c : FerryControlClient) (event : ControlEvent) : Decidable (c.Resets event) := by
  unfold Resets
  split <;> infer_instance

theorem lasts_step (c : FerryControlClient) (event : ControlEvent) :
    Lasts (c.Resets event) c (c.step event) := by
  unfold step
  split
  · cases event with
    | startSession remoteStaticB64 isTrusted =>
      exact lasts_of_eq rfl rfl rfl rfl rfl
    | frame now frame => exact lasts_receiveFrame now frame c
    | loopEnd now => exact lasts_endLoop now c
    | acceptPairing => exact lasts_of_eq rfl rfl rfl rfl rfl
    | rejectPairing => exact lasts_of_eq rfl rfl rfl rfl rfl
    | setAutoAcceptTransfers value => exact lasts_of_eq rfl rfl rfl rfl rfl
    | acceptIncomingTransfer =>
      exact ⟨TransferClient.remembers_decided c.receiving _ _, List.Subset.refl _, fun _ ↦ id, .inr⟩
    | rejectIncomingTransfer =>
      exact ⟨TransferClient.remembers_decided c.receiving _ _, List.Subset.refl _, fun _ ↦ id, .inr⟩
    | cancelIncomingTransfer transferId =>
      exact lasts_onReceiving (TransferClient.remembers_cancelIncomingTransfer transferId) c
    | cancelOutgoingTransfer => exact lasts_cancelOutgoingTransfer c
    | requestResume now record => exact lasts_requestResume now record c
    | discardInterrupted transferId => exact lasts_discardInterrupted transferId c
    | sendFile now uri transferId source => exact lasts_sendFile now uri transferId source c
    | sendBatch now uris batchId batchName totalBytes =>
      exact lasts_sendBatch now uris batchId batchName totalBytes c
    | decideIncoming index timedOut =>
      exact ⟨TransferClient.remembers_runWaiting c.receiving index timedOut, List.Subset.refl _,
        fun _ ↦ id, .inr⟩
    | awaitResume index timedOut =>
      exact ⟨TransferClient.remembers_runResuming c.receiving index timedOut, List.Subset.refl _,
        fun _ ↦ id, .inr⟩
    | goOn now index input => exact lasts_goOn now index input c
    | goOnResuming now index input => exact lasts_goOnResuming now index input c
    | disk disk => exact lasts_of_eq rfl rfl rfl rfl rfl
  · exact Lasts.refl c

end FerryControlClient

end Ferry
