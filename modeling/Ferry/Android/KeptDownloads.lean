import Ferry.Android.ChunkRouting
import Ferry.Android.InterruptedDownloads

/-!
# Downloads that are kept

Every event of the Android client that meets the condition keeps the interrupted downloads, and so does
every run of such events.  A request for the rest of a transfer that times out does not: it removes the
staging file of the transfer and leaves the record.
-/

namespace Ferry

open Exec Disk

namespace FerryControlClient

open TransferClient FerryTransferReceiver

/-! ## Functions that leave the downloads alone -/

/-- The receiver, the staging files and the key of the peer stay, and the records but for those that are
removed. -/
structure Leaves (removed : Text → Prop) (c c' : FerryControlClient) : Prop where
  still : Still c.receiving c'.receiving
  key : c'.receiving.connectedPeerStaticB64 = c.receiving.connectedPeerStaticB64
  forgets : Forgets removed c c'

section Sending

variable {removed : Text → Prop}

instance : IsPreorder FerryControlClient (Leaves removed) where
  refl := fun _ ↦ ⟨refl_of Still _, rfl, forgets_of_eq rfl⟩
  trans := by
    intro c c' c'' h h'
    refine ⟨h.still.trans h'.still, h'.key.trans h.key, fun transferId ↦ ?_⟩
    rcases h'.forgets transferId with hsame | hgone
    · rw [hsame]
      exact h.forgets transferId
    · exact .inr hgone

/-- An assignment to fields that do not matter here. -/
theorem leaves_of_eq {c c' : FerryControlClient} (hreceiving : c'.receiving = c.receiving)
    (hstore : c'.interruptedStore = c.interruptedStore) : Leaves removed c c' where
  still := by
    rw [hreceiving]
    exact refl_of Still _
  key := by rw [hreceiving]
  forgets := forgets_of_eq hstore

theorem leaves_write (session : ℕ) (frame : OutgoingFrame) :
    Stays (Leaves removed) (write session frame) := by
  apply stays_get_bind
  intro client
  refine stays_bind (stays_raiseIf _ _) (fun _ ↦ stays_bind ?_ fun _ ↦
    stays_bind (stays_raiseIf _ _) fun _ ↦ ?_) client
  · exact stays_modify fun _ ↦ ⟨still_of_eq rfl rfl rfl, rfl, forgets_of_eq rfl⟩
  · exact stays_modify fun _ ↦ leaves_of_eq rfl rfl

theorem leaves_record (entry : TransferHistoryEntry) : Stays (Leaves removed) (record entry) :=
  stays_modify fun _ ↦ leaves_of_eq rfl rfl

theorem leaves_completeAccept (value : Bool) : Stays (Leaves removed) (completeAccept value) :=
  stays_modify fun _ ↦ leaves_of_eq rfl rfl

theorem leaves_completeBatch (value : Bool) : Stays (Leaves removed) (completeBatch value) :=
  stays_modify fun _ ↦ leaves_of_eq rfl rfl

/-- The flags are taken back. -/
theorem leaves_resetFlags : Stays (Leaves removed) (update fun client ↦
    { client with outgoingCancelled := false, outgoingCancelledByPeer := false }) :=
  stays_modify fun _ ↦ leaves_of_eq rfl rfl

theorem leaves_startFile (now : ℤ) (uri transferId : Text) (source : SourceFile) (batchId : Text) :
    Stays (Leaves removed) (startFile now uri transferId source batchId) := by
  apply stays_get_bind
  intro client
  exact stays_ite _ (stays_pure _) (stays_bind leaves_resetFlags fun _ ↦
    stays_bind (leaves_write _ _) fun _ ↦ stays_pure _) client

theorem leaves_returnFile (now : ℤ) (file : FileSend) (success : Bool) :
    Stays (Leaves removed) (returnFile now file success) :=
  stays_bind (leaves_record _) fun _ ↦
    stays_bind (stays_modify fun _ ↦ leaves_of_eq rfl rfl) fun _ ↦ stays_pure _

theorem leaves_awaitAccept (file : FileSend) : Stays (Leaves removed) (awaitAccept file) := by
  apply stays_get_bind
  intro client
  refine stays_bind ?_ (fun _ ↦ stays_pure _) client
  exact stays_modify fun _ ↦ leaves_of_eq rfl rfl

theorem leaves_onAnswer (now : ℤ) (file : FileSend) (answer : Option Bool) :
    Stays (Leaves removed) (onAnswer now file answer) := by
  match answer with
  | none => exact stays_pure _
  | some true => exact stays_pure _
  | some false => exact leaves_returnFile now file false

theorem leaves_streamChunk (file : FileSend) (input : SendInput) :
    Stays (Leaves removed) (streamChunk file input) := by
  cases input with
  | data data => exact stays_bind (leaves_write _ _) fun _ ↦ stays_pure _
  | eof => exact stays_pure _
  | readError => exact stays_throw _
  | turn | timeout | opened _ | item _ _ => exact stays_pure _

/-- The record of an upload takes the place of a record of the same identifier. -/
theorem leaves_abortStream (now : ℤ) (file : FileSend) :
    Stays (Leaves (· = file.payload.transferId)) (abortStream now file) := by
  have hsave (client : FerryControlClient) : Stays (Leaves (· = file.payload.transferId))
      (update fun c ↦ { c with
        interruptedStore := c.interruptedStore.set file.payload.transferId
          (c.outgoingRecord now file) }) := by
    apply stays_modify
    refine fun c ↦ ⟨refl_of Still _, rfl, fun transferId ↦ ?_⟩
    unfold download
    dsimp only
    rw [Dict.get_set]
    split
    · next heq => exact .inr ⟨rfl, heq⟩
    · exact .inl rfl
  apply stays_get_bind
  intro client
  exact stays_ite _ (stays_ite _ (hsave client) (stays_pure _))
    (stays_ite _ (leaves_write _ _) (stays_pure _)) client

/-- The transfers whose records a turn of `sendFile` may replace. -/
def Replaced (file : Option FileSend) (transferId : Text) : Prop :=
  ∃ f ∈ file, f.phase = .streamed false ∧ f.payload.transferId = transferId

theorem leaves_goOnFile (now : ℤ) (input : SendInput) (file : FileSend) :
    Stays (Leaves (Replaced (some file))) (goOnFile now input file) := by
  apply stays_get_bind
  intro client
  cases hphase : file.phase with
  | requested => exact leaves_awaitAccept file client
  | awaiting k =>
    cases input with
    | timeout =>
      refine stays_bind ?_ (fun _ ↦ stays_pure _) client
      exact stays_modify fun _ ↦ leaves_of_eq rfl rfl
    | turn | data _ | eof | readError | opened _ | item _ _ => exact leaves_onAnswer now file _ client
  | streaming => exact stays_ite _ (stays_pure _) (leaves_streamChunk file input) client
  | streamed streamSuccess =>
    cases streamSuccess with
    | true => exact stays_bind (leaves_write _ _) (fun _ ↦ stays_pure _) client
    | false =>
      refine stays_bind ((leaves_abortStream now file).mono fun c c' h ↦ ?_) (fun _ ↦ stays_pure _) client
      refine ⟨h.still, h.key, fun transferId ↦ (h.forgets transferId).imp_right fun hgone ↦ ?_⟩
      exact ⟨hgone.1, file, rfl, hphase, hgone.2.symm⟩
  | ending success => exact leaves_returnFile now file success client

theorem leaves_startBatch (now : ℤ) (uris : List Text) (batchId batchName : Text) (totalBytes : ℤ) :
    Stays (Leaves removed) (startBatch now uris batchId batchName totalBytes) := by
  apply stays_get_bind
  intro client
  exact stays_ite _ (stays_pure _) (stays_bind leaves_resetFlags fun _ ↦
    stays_bind (leaves_write _ _) fun _ ↦ stays_pure _) client

theorem leaves_returnBatch (batch : BatchSend) (success : Bool) :
    Stays (Leaves removed) (returnBatch batch success) :=
  stays_bind (leaves_write _ _) fun _ ↦ stays_pure _

theorem leaves_goOnBatch (input : SendInput) (batch : BatchSend) :
    Stays (Leaves removed) (goOnBatch input batch) := by
  have hadd : Stays (Leaves removed) (awaitBatch batch) := by
    apply stays_get_bind
    intro client
    refine stays_bind ?_ (fun _ ↦ stays_pure _) client
    exact stays_modify fun _ ↦ leaves_of_eq rfl rfl
  apply stays_get_bind
  intro client
  cases batch.phase with
  | requested => exact hadd client
  | awaiting k =>
    cases input with
    | timeout =>
      refine stays_bind ?_ (fun _ ↦ stays_pure _) client
      exact stays_modify fun _ ↦ leaves_of_eq rfl rfl
    | turn | data _ | eof | readError | opened _ | item _ _ =>
      dsimp only
      split
      · exact stays_pure _ client
      · exact stays_pure _ client
      · exact stays_pure _ client
  | items =>
    cases batch.uris with
    | nil => exact leaves_returnBatch batch _ client
    | cons uri uris => exact stays_ite _ (leaves_returnBatch batch false) (stays_pure _) client

theorem leaves_nextItem (now : ℤ) (input : SendInput) (batch : BatchSend) :
    Stays (Leaves removed) (nextItem now input batch) := by
  apply stays_get_bind
  intro client
  split
  · exact stays_ite _ (stays_pure _)
      (stays_bind (leaves_startFile _ _ _ _ _) fun _ ↦ stays_pure _) client
  · exact stays_pure _ client

theorem leaves_turnBatch (now : ℤ) (input : SendInput) (batch : BatchSend) :
    Stays (Leaves removed) (turnBatch now input batch) := by
  refine stays_bind (leaves_nextItem now input batch) fun started ↦ ?_
  cases started with
  | some item => exact stays_pure _
  | none =>
    refine stays_bind (leaves_goOnBatch input batch) fun progress ↦ ?_
    cases progress with
    | waits | goesOn _ | returns _ => exact stays_pure _

theorem leaves_goOnJob (now : ℤ) (input : SendInput) (job : SendJob) :
    Stays (Leaves (Replaced job.file)) (goOnJob now input job) := by
  rcases job with ⟨batch, file⟩
  cases file with
  | some file => exact stays_bind (leaves_goOnFile now input file) fun _ ↦ stays_pure _
  | none =>
    cases batch with
    | none => exact stays_pure _
    | some batch => exact leaves_turnBatch now input batch

theorem leaves_settle {α : Type} {turn : Action (Progress α)} (h : Stays (Leaves removed) turn) :
    Stays (Leaves removed) (settle turn) := stays_tryCatch h fun _ ↦ stays_pure _

theorem leaves_addJob (started : Progress SendJob) : Stays (Leaves removed) (addJob started) :=
  stays_modify fun _ ↦ leaves_of_eq rfl rfl

theorem leaves_sendFile (now : ℤ) (uri transferId : Text) (source : SourceFile) :
    Stays (Leaves removed) (sendFile now uri transferId source) := by
  refine stays_bind (leaves_settle (stays_bind (leaves_startFile _ _ _ _ _) fun progress ↦ ?_))
    fun _ ↦ leaves_addJob _
  cases progress with
  | goesOn file => exact stays_pure _
  | waits | returns _ => exact stays_pure _

theorem leaves_sendBatch (now : ℤ) (uris : List Text) (batchId batchName : Text) (totalBytes : ℤ) :
    Stays (Leaves removed) (sendBatch now uris batchId batchName totalBytes) := by
  refine stays_bind (leaves_settle (stays_bind (leaves_startBatch _ _ _ _ _) fun progress ↦ ?_))
    fun _ ↦ leaves_addJob _
  cases progress with
  | goesOn batch => exact stays_pure _
  | waits | returns _ => exact stays_pure _

/-! ### The answer to a resume request -/

theorem leaves_forgetRecord (resume : ResumeSend) {m : Action (Progress ResumeSend)}
    (hm : Stays (Leaves (· = resume.transferId)) m) :
    Stays (Leaves (· = resume.transferId)) (forgetRecord resume m) := by
  refine stays_bind (stays_tryCatch hm fun _ ↦ stays_pure _) fun progress ↦ ?_
  cases progress with
  | returns value =>
    refine stays_bind (stays_modify fun c ↦ ⟨refl_of Still _, rfl, ?_⟩) fun _ ↦ stays_pure _
    exact forgets_pop rfl
  | waits | goesOn _ => exact stays_pure _

theorem leaves_streamResumed (resume : ResumeSend) (input : SendInput) :
    Stays (Leaves removed) (streamResumed resume input) := by
  apply stays_get_bind
  intro client
  refine stays_ite _ (stays_pure _) ?_ client
  cases input with
  | data data => exact stays_bind (leaves_write _ _) fun _ ↦ stays_pure _
  | readError => exact stays_throw _
  | eof | turn | timeout | opened _ | item _ _ => exact stays_pure _

/-- Past its ACCEPT an answer forgets the record of its transfer. -/
theorem leaves_goOnResume (now : ℤ) (input : SendInput) {resume : ResumeSend}
    (hphase : resume.phase ≠ .launched) :
    Stays (Leaves (· = resume.transferId)) (goOnResume now input resume) := by
  unfold goOnResume
  split
  · next hlaunched => exact absurd hlaunched hphase
  · split
    · exact leaves_forgetRecord resume (stays_ite _ (stays_pure _) (stays_pure _))
    · exact leaves_forgetRecord resume (stays_pure _)
    · exact stays_pure _
  · exact leaves_forgetRecord resume (leaves_streamResumed resume input)
  · exact leaves_forgetRecord resume (stays_bind (leaves_write _ _) fun _ ↦ stays_pure _)

/-- A resume request forgets a record that has expired. -/
theorem forgets_load {c c' : FerryControlClient} {now : ℤ} {transferId : Text}
    (hstore : c'.interruptedStore = (c.interruptedStore.load now transferId).2) :
    Forgets (fun b ↦ transferId = b ∧ c.Expired now b) c c' := by
  unfold InterruptedTransferStore.load at hstore
  split at hstore
  · exact forgets_of_eq hstore
  · next record hrecord =>
    split at hstore
    · next hexpired =>
      apply (forgets_pop hstore).mono
      rintro _ hrecorded rfl
      refine ⟨rfl, record, ?_, hexpired⟩
      unfold Recorded at hrecorded
      unfold download at hrecorded ⊢
      rw [hrecord, Option.filter_some] at hrecorded ⊢
      split at hrecorded
      · next hincoming => exact if_pos hincoming
      · exact absurd rfl hrecorded
    · exact forgets_of_eq hstore

/-- Up to its ACCEPT an answer forgets the record of its transfer when it has expired. -/
theorem leaves_verifyPrefix (now : ℤ) (content : Option Bytes) (resume : ResumeSend)
    (c : FerryControlClient) : wp (verifyPrefix now content resume)
      (fun _ c' ↦ Leaves (fun b ↦ resume.transferId = b ∧ c.Expired now b) c c') c := by
  set loaded := c.interruptedStore.load now resume.transferId with hloaded
  have hstored : Leaves (fun b ↦ resume.transferId = b ∧ c.Expired now b) c
      { c with interruptedStore := loaded.2 } := ⟨refl_of Still _, rfl, forgets_load rfl⟩
  have hreject (reason : String) : Stays (Leaves (fun b ↦ resume.transferId = b ∧ c.Expired now b))
      (rejectResume resume reason) :=
    stays_bind (stays_tryCatch (leaves_write _ _) fun _ ↦ stays_pure _) fun _ ↦ stays_pure _
  unfold verifyPrefix update
  rw [wp_get_bind]
  dsimp only
  rw [← hloaded, wp_modify_bind]
  split
  · apply wp_mono (hreject _ _)
    exact fun _ _ h ↦ trans_of (Leaves _) hstored h
  · have haccept (uri : Text) : Stays (Leaves (fun b ↦ resume.transferId = b ∧ c.Expired now b))
        (tryCatch
          (do
            write resume.session (.transferResumeAccept resume.transferId resume.resumeChunkIndex)
            return .goesOn { resume with phase := .accepted uri })
          fun _ ↦ return .returns false : Action (Progress ResumeSend)) :=
      stays_tryCatch (stays_bind (leaves_write _ _) fun _ ↦ stays_pure _) fun _ ↦ stays_pure _
    apply wp_mono (stays_ite _ (hreject _) (haccept _) _)
    exact fun _ _ h ↦ trans_of (Leaves _) hstored h

end Sending

/-! ## Messages -/

section Messages

variable {removed : Text → Prop} {c c' : FerryControlClient} {now : ℤ}

theorem Intact.leaves (h : c.Intact) (hleaves : Leaves removed c c') : Secures removed c c' :=
  h.still hleaves.still hleaves.forgets

/-- What removes nothing afterwards. -/
theorem Secures.trans {c'' : FerryControlClient} (h : Secures removed c c')
    (h' : Secures (fun _ ↦ False) c' c'') : Secures removed c c'' := by
  refine ⟨h'.intact, fun transferId hbefore ↦ ?_⟩
  rcases h.held transferId hbefore with hafter | hremoved
  · exact .inl ((h'.held transferId hafter).resolve_right id)
  · exact .inr hremoved

theorem dropSafe_of_none (h : c.receiving.activeReceiver = none) : c.DropSafe where
  asked := fun _ hreceiver ↦ nomatch h.symm.trans hreceiver
  known := fun _ _ hreceiver ↦ nomatch h.symm.trans hreceiver

theorem DropSafe.leaves (h : c.DropSafe) (hleaves : Leaves removed c c') : c'.DropSafe where
  asked := by
    rw [hleaves.still.activeReceiver]
    exact fun receiver hreceiver hrecorded ↦
      h.asked receiver hreceiver (hleaves.forgets.recorded hrecorded)
  known := by
    rw [hleaves.key, hleaves.still.activeReceiver]
    exact h.known

/-- A round of the loop secures the downloads, and when it raises the session may end. -/
def Round (removed : Text → Prop) (c : FerryControlClient) {α : Type} (r : Except KotlinException α)
    (c' : FerryControlClient) : Prop :=
  Secures removed c c' ∧ ∀ e, r = .error e → c'.DropSafe

/-- What follows a round and changes nothing of the downloads. -/
theorem round_bind {α β : Type} {m : Action α} {rest : α → Action β} (hm : wp m (Round removed c) c)
    (hrest : ∀ a, Stays (Leaves fun _ ↦ False) (rest a)) (hsucceeds : ∀ a, Succeeds (rest a)) :
    wp (m >>= rest) (Round removed c) c := by
  apply wp_bind_of hm
  · exact fun e c₁ h ↦ ⟨h.1, fun _ _ ↦ h.2 e rfl⟩
  · intro a c₁ h
    apply wp_mono (wp_and (hsucceeds a c₁) (hrest a c₁))
    rintro _ c₂ ⟨⟨b, rfl⟩, hleaves⟩
    exact ⟨h.1.trans (h.1.intact.leaves hleaves), nofun⟩

/-- A message that changes nothing of the downloads. -/
theorem round_leaves {m : Action Unit} (h : c.Intact) (hm : Stays (Leaves removed) m)
    (hsucceeds : Succeeds m) : wp m (Round removed c) c := by
  apply wp_mono (wp_and (hsucceeds c) (hm c))
  rintro _ c' ⟨⟨_, rfl⟩, hleaves⟩
  exact ⟨h.leaves hleaves, nofun⟩

theorem round_onTransferAnswer (h : c.Intact) (transferId : Text) (value : Bool) :
    wp (onTransferAnswer transferId value) (Round removed c) c := by
  have hmarked : Stays (Leaves removed) (onReceiving (TransferClient.markHandled transferId)) :=
    stays_modify fun _ ↦ ⟨still_of_eq rfl rfl rfl, rfl, forgets_of_eq rfl⟩
  apply round_leaves h
  · apply stays_get_bind
    intro client
    exact stays_ite _ (stays_pure _) (stays_bind hmarked fun _ ↦ leaves_completeAccept value) client
  · apply succeeds_get_bind
    intro client
    exact succeeds_ite _ (succeeds_pure _) (succeeds_bind (succeeds_modify _) fun _ ↦ succeeds_modify _) client

/-- A receiver without any bytes has nothing to lose. -/
theorem dropSafe_of_opened {metadata : Kotlin.TransferMetadata}
    (hopened : Opened metadata c.receiving c'.receiving) (hsize : 0 < metadata.chunkSize)
    (hnot : ¬c'.Recorded metadata.transferId) : c'.DropSafe := by
  obtain ⟨new, hnew, hmeta, hstate, hbytes⟩ := hopened.activeReceiver
  constructor
  · intro receiver hreceiver
    obtain rfl := Option.some.inj (hnew.symm.trans hreceiver)
    rwa [hmeta]
  · intro _ receiver hreceiver
    obtain rfl := Option.some.inj (hnew.symm.trans hreceiver)
    refine ⟨by rw [hstate]; exact nofun, fun hlose ↦ ?_⟩
    have harrived := hlose.2
    rw [hmeta, hbytes] at harrived
    exact absurd hsize (not_lt.mpr harrived)

theorem round_transferRequest (h : c.Intact) {fields : String → Kotlin.MapValue}
    (hcareful : c.CarefulMessage now (.transferRequest fields)) :
    wp (onReceiving (TransferClient.onTransferRequest now fields)) (Round removed c) c := by
  obtain ⟨hfault, hopens⟩ := hcareful
  apply wp_mono (wp_onReceiving (onTransferRequest_effect c.receiving))
  rintro r _ ⟨t, rfl, hanswers, hrefused, hraises⟩
  have hforgets : Forgets removed c { c with receiving := t } := forgets_of_eq rfl
  by_cases hadmits : c.receiving.Admits fields
  · rcases hanswers.receiver with hstill | ⟨metadata, hmetadata, hopened⟩
    · have hleaves : Leaves removed c { c with receiving := t } := ⟨hstill, hanswers.key, hforgets⟩
      exact ⟨h.leaves hleaves, fun e he ↦ (hfault (hraises e he)).leaves hleaves⟩
    · have hapart := hopens hadmits metadata hmetadata
      refine ⟨h.opened hopened hforgets hapart, fun _ _ ↦ ?_⟩
      exact dropSafe_of_opened hopened (Kotlin.TransferMetadata.fromMap_sizes hmetadata).1
        fun hrecorded ↦ hapart.recorded (hforgets.recorded hrecorded)
  · have hleaves : Leaves removed c { c with receiving := t } :=
      ⟨hrefused hadmits, hanswers.key, hforgets⟩
    exact ⟨h.leaves hleaves, fun e he ↦ (hfault (hraises e he)).leaves hleaves⟩

theorem round_batchRequest (h : c.Intact) {batchId : Text} {totalItems : ℤ}
    (hcareful : c.CarefulMessage now (.batchRequest batchId totalItems)) :
    wp (onReceiving (TransferClient.onBatchRequest batchId totalItems)) (Round removed c) c := by
  apply wp_mono (wp_onReceiving (onBatchRequest_effect batchId totalItems c.receiving))
  rintro r _ ⟨t, rfl, hstill, hkey, hraises⟩
  have hleaves : Leaves removed c { c with receiving := t } := ⟨hstill, hkey, forgets_of_eq rfl⟩
  exact ⟨h.leaves hleaves, fun e he ↦ (hcareful (hraises e he)).leaves hleaves⟩

theorem round_transferComplete (h : c.Intact) (hcoherent : c.receiving.Coherent) {transferId : Text}
    (hcareful : c.CarefulMessage now (.transferComplete transferId)) :
    wp (onTransferComplete now transferId)
      (Round (c.Removed (.frame now (.message (.transferComplete transferId)))) c) c := by
  have hended : wp (onReceiving (TransferClient.onTransferComplete transferId))
      (Round (c.Removed (.frame now (.message (.transferComplete transferId)))) c) c := by
    cases hactive : c.receiving.activeReceiver with
    | none =>
      have hsame : wp (TransferClient.onTransferComplete transferId) (fun r c' ↦ r = .ok () ∧
          c' = c.receiving) c.receiving := by
        unfold TransferClient.onTransferComplete
        rw [wp_get_bind, hactive]
        exact ⟨rfl, rfl⟩
      apply wp_mono (wp_onReceiving hsame)
      rintro _ _ ⟨t, rfl, rfl, rfl⟩
      exact ⟨h.leaves (refl_of (Leaves _) c), nofun⟩
    | some receiver =>
      by_cases hhandled : c.receiving.Handled transferId
      · have hsame : wp (TransferClient.onTransferComplete transferId) (fun r c' ↦ r = .ok () ∧
            c' = c.receiving) c.receiving := by
          unfold TransferClient.onTransferComplete
          rw [wp_get_bind, hactive]
          dsimp only
          rw [if_pos hhandled]
          exact ⟨rfl, rfl⟩
        apply wp_mono (wp_onReceiving hsame)
        rintro _ _ ⟨t, rfl, rfl, rfl⟩
        exact ⟨h.leaves (refl_of (Leaves _) c), nofun⟩
      · have hapart := hcareful.resolve_left hhandled receiver hactive
        apply wp_mono (wp_onReceiving (onTransferComplete_effect hcoherent hactive hhandled))
        rintro r _ ⟨t, rfl, hnone, hfinal⟩
        refine ⟨?_, fun _ _ ↦ dropSafe_of_none hnone⟩
        refine h.completed hcoherent hactive hnone hfinal (forgets_of_eq rfl) hapart ?_
        exact fun hplaced ↦ ⟨receiver, hactive, rfl, hplaced⟩
  unfold onTransferComplete
  rw [wp_get_bind]
  apply round_bind hended
  · intro _
    split
    · exact stays_ite _ (stays_pure _) (stays_get_bind fun after ↦ leaves_record _ after)
    · exact stays_pure _
  · intro _
    split
    · exact succeeds_ite _ (succeeds_pure _) (succeeds_get_bind fun after ↦ succeeds_modify _ after)
    · exact succeeds_pure _

/-- What ends a receiver that has nothing to lose. -/
theorem round_ends {m : TransferClient.Action Unit} (h : c.Intact) (hstake : ¬c.AtStake)
    (hm : Stays Ends m) (hsucceeds : Succeeds m) : wp (onReceiving m) (Round removed c) c := by
  apply wp_mono (wp_onReceiving (wp_and (hsucceeds c.receiving) (hm c.receiving)))
  rintro _ _ ⟨t, rfl, ⟨_, rfl⟩, hends⟩
  exact ⟨h.ends hends (forgets_of_eq rfl) hstake, nofun⟩

theorem round_transferCancel (h : c.Intact) {transferId : Text}
    (hcareful : c.CarefulMessage now (.transferCancel transferId)) :
    wp (onTransferCancel transferId) (Round removed c) c := by
  have hended : wp (onReceiving (TransferClient.onTransferCancel transferId)) (Round removed c) c := by
    rcases hcareful with hhandled | hstake
    · have hsame : wp (TransferClient.onTransferCancel transferId) (fun r c' ↦ r = .ok () ∧
          c' = c.receiving) c.receiving := by
        unfold TransferClient.onTransferCancel
        rw [wp_get_bind, if_pos hhandled]
        exact ⟨rfl, rfl⟩
      apply wp_mono (wp_onReceiving hsame)
      rintro _ _ ⟨t, rfl, rfl, rfl⟩
      exact ⟨h.leaves (refl_of (Leaves _) c), nofun⟩
    · exact round_ends h hstake (ends_onTransferCancel transferId) (succeeds_onTransferCancel transferId)
  unfold onTransferCancel
  rw [wp_get_bind]
  apply round_bind hended
  · intro _
    refine stays_ite _ (leaves_completeAccept false) (stays_bind ?_ fun _ ↦ leaves_completeAccept false)
    exact stays_modify fun _ ↦ leaves_of_eq rfl rfl
  · intro _
    exact succeeds_ite _ (succeeds_modify _) (succeeds_bind (succeeds_modify _) fun _ ↦ succeeds_modify _)

theorem round_resumeReject (h : c.Intact) {transferId : Text}
    (hcareful : c.CarefulMessage now (.transferResumeReject transferId)) :
    wp (onResumeReject now transferId)
      (Round (c.Removed (.frame now (.message (.transferResumeReject transferId)))) c) c := by
  have hquits : wp (onReceiving TransferClient.onResumeReject) (fun r c' ↦ (∃ u, r = .ok u) ∧
      Quits c.receiving c'.receiving ∧ c'.interruptedStore = c.interruptedStore) c := by
    have hcancelled : wp TransferClient.onResumeReject (fun _ c' ↦ Quits c.receiving c') c.receiving := by
      apply wp_bind_of (quits_cancelReceiver c.receiving)
      · exact fun _ _ hquits ↦ hquits
      · exact fun _ c' hquits ↦ hquits.still (still_completeResume false c')
    apply wp_mono (wp_onReceiving (wp_and (succeeds_onResumeReject c.receiving) hcancelled))
    rintro _ _ ⟨t, rfl, hr, hquits⟩
    exact ⟨hr, hquits, rfl⟩
  have hforgotten {c₁ : FerryControlClient} (hquits : Quits c.receiving c₁.receiving)
      (hstore : c₁.interruptedStore = c.interruptedStore) :
      wp (update fun client ↦ { client with
        interruptedStore := client.interruptedStore.pop transferId })
        (Round (c.Removed (.frame now (.message (.transferResumeReject transferId)))) c) c₁ := by
    refine ⟨h.rejected hquits ?_ hcareful rfl, nofun⟩
    exact congrArg (·.pop transferId) hstore
  unfold onResumeReject
  rw [wp_get_bind]
  apply wp_bind_of hquits
  · rintro e _ ⟨⟨_, he⟩, -⟩
    exact nomatch he
  · rintro _ c₁ ⟨-, hquits, hstore⟩
    cases c.receiving.activeReceiverMeta with
    | none => exact hforgotten hquits hstore
    | some metadata =>
      dsimp only
      unfold record
      rw [update, wp_modify_bind]
      exact hforgotten hquits hstore

/-- The receiver to which TRANSFER_RESUME_ACCEPT is addressed resumes, or had nothing to lose. -/
theorem onResumeAccept_safe (h : c.Intact) (hcoherent : c.receiving.Coherent)
    {receiver : FerryTransferReceiver} (hactive : c.receiving.activeReceiver = some receiver)
    (hcareful : c.CarefulAccept receiver) (resumeChunkIndex : ℤ) :
    wp (TransferClient.onResumeAccept receiver.metadata.transferId resumeChunkIndex)
      (fun _ t ↦ Resumed receiver c.receiving t ∨ Quits c.receiving t ∧ ¬c.AtStake) c.receiving := by
  by_cases hstake : c.AtStake
  · have hwaits := hcareful.waits hstake
    have htemp : receiver.tempFile = c.receiving.partFile receiver.metadata.transferId := by
      rw [tempFile, stagingFile, partFile, hcoherent.stagingDir receiver hactive]
    have hfile : c.receiving.disk.IsFile receiver.tempFile := by
      obtain ⟨other, hother, hstate | hrecorded⟩ := hstake
      · obtain rfl := Option.some.inj (hactive.symm.trans hother)
        rcases hwaits with hwaits | hwaits
        · cases hwaits.symm.trans hstate
        · cases hwaits.symm.trans hstate
      · obtain rfl := Option.some.inj (hactive.symm.trans hother)
        obtain ⟨record, hrecord⟩ := Option.ne_none_iff_exists'.mp hrecorded
        obtain ⟨data, hdata, -⟩ := partSize_eq_some.mp (h.recorded _ record hrecord)
        exact ⟨data, htemp ▸ hdata⟩
    apply wp_mono (onResumeAccept_resumed hcoherent hactive hwaits hfile (hcareful.disk hwaits).1 _)
    exact fun _ _ hresumed ↦ .inl hresumed
  · apply wp_mono (onResumeAccept_effect hcoherent hactive resumeChunkIndex)
    rintro _ t (hquits | hresumed)
    · exact .inr ⟨hquits, hstake⟩
    · exact .inl hresumed

theorem round_resumeAccept (h : c.Intact) (hcoherent : c.receiving.Coherent) {transferId : Text}
    (resumeChunkIndex : ℤ)
    (hcareful : c.CarefulMessage now (.transferResumeAccept transferId resumeChunkIndex)) :
    wp (onResumeAccept transferId resumeChunkIndex) (Round removed c) c := by
  -- the record is forgotten when the receiver is still there
  have hstored {t : TransferClient} (hsecures : ∀ c' : FerryControlClient, c'.receiving = t →
      (c'.interruptedStore =
        if t.activeReceiver.map (·.metadata.transferId) = some transferId
        then c.interruptedStore.pop transferId else c.interruptedStore) → Secures removed c c')
      (ht : t.Coherent) : wp (update fun client ↦ { client with
        interruptedStore :=
          if client.receiving.activeReceiverMeta.map Kotlin.TransferMetadata.transferId = some transferId
          then client.interruptedStore.pop transferId else client.interruptedStore })
        (Round removed c) { c with receiving := t } := by
    refine ⟨hsecures _ rfl ?_, nofun⟩
    have hmeta : t.activeReceiverMeta.map Kotlin.TransferMetadata.transferId =
        t.activeReceiver.map (·.metadata.transferId) := by
      rw [ht.metadata, Option.map_map]
      rfl
    rw [← hmeta]
    rfl
  have hsucceeds := succeeds_onResumeAccept transferId resumeChunkIndex c.receiving
  have hkeeps : wp (TransferClient.onResumeAccept transferId resumeChunkIndex) (fun _ t ↦ t.Coherent)
      c.receiving := keepsCoherent_onResumeAccept transferId resumeChunkIndex c.receiving hcoherent
  unfold onResumeAccept
  by_cases hours : c.receiving.activeReceiver.map (·.metadata.transferId) = some transferId
  · obtain ⟨receiver, hactive, rfl⟩ := Option.map_eq_some_iff.mp hours
    have hsafe := onResumeAccept_safe h hcoherent hactive (hcareful receiver hactive rfl) resumeChunkIndex
    apply wp_bind_of (wp_onReceiving (wp_and hsucceeds (wp_and hkeeps hsafe)))
    · rintro e _ ⟨t, -, ⟨_, he⟩, -⟩
      exact nomatch he
    rintro _ _ ⟨t, rfl, -, ht, hresumed | ⟨hquits, hstake⟩⟩
    · apply hstored _ ht
      rintro c' rfl hstore
      obtain ⟨resumed, hresumedActive, hmeta, -⟩ := hresumed.activeReceiver
      rw [hresumedActive, Option.map_some, hmeta, if_pos rfl] at hstore
      exact h.resumed hcoherent hactive hresumed hstore (hcareful receiver hactive rfl)
    · apply hstored _ ht
      rintro c' rfl hstore
      rw [hquits.activeReceiver, if_neg (by exact nofun)] at hstore
      exact h.ends (.inr hquits) (forgets_of_eq hstore) hstake
  · have helsewhere : c.receiving.activeReceiverMeta.map Kotlin.TransferMetadata.transferId ≠
        some transferId := by
      rw [hcoherent.metadata, Option.map_map]
      exact hours
    apply wp_bind_of (wp_onReceiving (wp_and hsucceeds
      (wp_and hkeeps (@onResumeAccept_elsewhere _ _ resumeChunkIndex helsewhere))))
    · rintro e _ ⟨t, -, ⟨_, he⟩, -⟩
      exact nomatch he
    rintro _ _ ⟨t, rfl, -, ht, hactive, hdir, hdisk⟩
    apply hstored _ ht
    rintro c' rfl hstore
    rw [hactive, if_neg hours] at hstore
    exact h.still (still_of_eq hactive hdir hdisk) (forgets_of_eq hstore)

theorem round_handleTransferMessage (h : c.Intact) (hcoherent : c.receiving.Coherent)
    {message : ClientMessage} (hcareful : c.CarefulMessage now message) :
    wp (handleTransferMessage now message) (Round (c.Removed (.frame now (.message message))) c) c := by
  have hclosed (removed : Text → Prop) (batchId : Text) :
      Stays (Leaves removed) (onReceiving (TransferClient.closeBatch batchId)) :=
    stays_modify fun _ ↦ ⟨still_of_eq rfl rfl rfl, rfl, forgets_of_eq rfl⟩
  cases message with
  | transferRequest fields => exact round_transferRequest h hcareful
  | transferComplete transferId => exact round_transferComplete h hcoherent hcareful
  | transferCancel transferId => exact round_transferCancel h hcareful
  | transferError transferId =>
    apply round_bind (round_ends h hcareful ends_cancelReceiver succeeds_cancelReceiver)
    · exact fun _ ↦ leaves_completeAccept false
    · exact fun _ ↦ succeeds_modify _
  | transferAccept transferId => exact round_onTransferAnswer h transferId true
  | transferReject transferId => exact round_onTransferAnswer h transferId false
  | transferResumeRequest transferId resumeChunkIndex resumeOffsetBytes partialSha256 =>
    exact round_leaves h (stays_modify fun _ ↦ leaves_of_eq rfl rfl) (succeeds_modify _)
  | transferResumeAccept transferId resumeChunkIndex =>
    exact round_resumeAccept h hcoherent resumeChunkIndex hcareful
  | transferResumeReject transferId => exact round_resumeReject h hcareful
  | transferResult transferId success | other => exact round_leaves h (stays_pure ()) (succeeds_pure ())
  | batchRequest batchId totalItems => exact round_batchRequest h hcareful
  | batchAccept batchId => exact round_leaves h (leaves_completeBatch true) (succeeds_modify _)
  | batchReject batchId => exact round_leaves h (leaves_completeBatch false) (succeeds_modify _)
  | batchCancel batchId =>
    apply round_leaves h
    · refine stays_bind ?_ fun _ ↦ stays_bind (leaves_completeBatch false) fun _ ↦
        stays_bind ?_ fun _ ↦ hclosed _ batchId
      · exact stays_modify fun _ ↦ leaves_of_eq rfl rfl
      · exact stays_modify fun _ ↦ leaves_of_eq rfl rfl
    · exact succeeds_bind (succeeds_modify _) fun _ ↦ succeeds_bind (succeeds_modify _) fun _ ↦
        succeeds_bind (succeeds_modify _) fun _ ↦ succeeds_modify _
  | batchComplete batchId => exact round_leaves h (hclosed _ batchId) (succeeds_modify _)

theorem round_onChunkReceived (h : c.Intact) (hcoherent : c.receiving.Coherent) {plaintext : Bytes}
    (hcareful : c.CarefulChunk plaintext) :
    wp (onReceiving (TransferClient.onChunkReceived plaintext)) (Round removed c) c := by
  have heffect := onChunkReceived_effect plaintext c.receiving
  have hsucceeds := succeeds_onChunkReceived plaintext c.receiving
  have hround {P : TransferClient → Prop} (hP : wp (TransferClient.onChunkReceived plaintext)
      (fun _ t ↦ P t) c.receiving) (hsecures : ∀ t, P t → Secures removed c { c with receiving := t }) :
      wp (onReceiving (TransferClient.onChunkReceived plaintext)) (Round removed c) c := by
    apply wp_mono (wp_onReceiving (wp_and hsucceeds hP))
    rintro _ _ ⟨t, rfl, ⟨_, rfl⟩, ht⟩
    exact ⟨hsecures t ht, nofun⟩
  unfold CarefulChunk at hcareful
  cases hactive : c.receiving.activeReceiver with
  | none =>
    apply hround heffect
    rintro t (hends | ⟨_, _, _, _, -, hsome, -⟩)
    · refine h.ends hends (forgets_of_eq rfl) ?_
      rintro ⟨receiver, hreceiver, -⟩
      exact nomatch hactive.symm.trans hreceiver
    · exact nomatch hactive.symm.trans hsome
  | some receiver =>
    rw [hactive] at hcareful
    cases hchunk : Kotlin.decodeChunkFrame plaintext with
    | error e =>
      rw [hchunk] at hcareful
      apply hround heffect
      rintro t (hends | ⟨_, _, _, _, hok, -⟩)
      · exact h.ends hends (forgets_of_eq rfl) hcareful
      · exact nomatch hchunk.symm.trans hok
    | ok chunk =>
      obtain ⟨transferId, seq, data⟩ := chunk
      rw [hchunk] at hcareful
      obtain ⟨hcount, htakes⟩ := hcareful
      have hfed (t : TransferClient) (hfed : Fed receiver data c.receiving t) :
          Secures removed c { c with receiving := t } :=
        Intact.chunk h hactive hfed (hcoherent.stagingDir receiver hactive) (forgets_of_eq rfl) hcount
      by_cases hstake : c.AtStake
      · exact hround (onChunkReceived_fed hchunk hactive (htakes hstake)) hfed
      · apply hround heffect
        rintro t (hends | ⟨_, _, _, other, hok, hsome, hother⟩)
        · exact h.ends hends (forgets_of_eq rfl) hstake
        · obtain rfl := Option.some.inj (hactive.symm.trans hsome)
          obtain ⟨rfl, rfl, rfl⟩ := Except.ok.inj (hchunk.symm.trans hok)
          exact hfed t hother

end Messages

/-! ## Events -/

section Events

variable {c : FerryControlClient} {now : ℤ}

theorem secures_requestResume (h : c.Intact) {record : InterruptedRecord} {removed : Text → Prop}
    (hcareful : c.Careful (.requestResume now record)) :
    wp (requestResume now record) (fun _ c' ↦ Secures removed c c') c := by
  unfold requestResume
  rw [wp_get_bind, wp_ite]
  refine ⟨fun _ ↦ h.leaves (refl_of (Leaves _) c), fun hestablished ↦ ?_⟩
  obtain ⟨hshown, hresuming, hsent⟩ := hcareful (not_not.mp hestablished)
  have hasked : wp (tryCatch (onReceiving (TransferClient.requestResume now record.resumed)) fun e ↦
      update fun client ↦ { client with
        interruptedStore :=
          if e = .fileNotFound then client.interruptedStore.pop record.transferId
          else client.interruptedStore }) (fun _ c' ↦ Secures removed c c') c := by
    have hsecures {c' : FerryControlClient} (hreceiving : Still c.receiving c'.receiving ∨
        ∃ metadata, Kotlin.TransferMetadata.fromMap now record.originalMetadata = .ok metadata ∧
          Rebuilt metadata c.receiving c'.receiving) (hforgets : Forgets removed c c') :
        Secures removed c c' := by
      rcases hreceiving with hstill | ⟨metadata, hmetadata, hrebuilt⟩
      · exact h.still hstill hforgets
      · exact h.rebuilt hrebuilt hforgets hresuming fun hfault ↦ hsent hfault metadata hmetadata
    apply wp_tryCatch_of (wp_onReceiving (requestResume_effect now record.resumed c.receiving))
    · rintro e _ ⟨t, rfl, hmissing, hreceiving⟩
      refine hsecures hreceiving ?_
      by_cases hnotFound : e = .fileNotFound
      · -- a file that the disk does not show has no record
        apply (@forgets_pop c _ record.transferId (if_pos hnotFound)).mono
        rintro _ hrecorded rfl
        have hgone := hmissing (congrArg Except.error hnotFound)
        exact nomatch (hshown hrecorded).symm.trans hgone
      · exact forgets_of_eq (if_neg hnotFound)
    · rintro _ _ ⟨t, rfl, -, hreceiving⟩
      exact hsecures hreceiving (forgets_of_eq rfl)
  apply wp_bind_of hasked
  · exact fun _ _ hsecures ↦ hsecures
  · intro _ c₁ hsecures
    refine hsecures.trans (hsecures.intact.leaves ?_)
    exact leaves_of_eq rfl rfl

/-- Everything stays but for one staging file. -/
structure OnlyPart (transferId : Text) (c c' : TransferClient) : Prop where
  activeReceiver : c'.activeReceiver = c.activeReceiver
  stagingDir : c'.stagingDir = c.stagingDir
  disk : OnlyFile (c.partFile transferId) c.disk c'.disk

theorem onlyPart_onDisk {α : Type} {transferId : Text} {m : Exec IoError Disk α}
    {receiving : TransferClient} (hm : Stays (OnlyFile (receiving.partFile transferId)) m) :
    wp (TransferClient.onDisk m) (fun _ t ↦ OnlyPart transferId receiving t) receiving :=
  ⟨rfl, rfl, hm receiving.disk⟩

theorem OnlyPart.trans {transferId : Text} {t t' t'' : TransferClient} (h : OnlyPart transferId t t')
    (h' : OnlyPart transferId t' t'') : OnlyPart transferId t t'' := by
  refine ⟨h'.activeReceiver.trans h.activeReceiver, h'.stagingDir.trans h.stagingDir, ?_⟩
  have hdisk := h'.disk
  rw [partFile_eq h.stagingDir] at hdisk
  exact h.disk.trans hdisk

/-- The staging file and the record of a download are removed. -/
theorem Intact.discarded {c' : FerryControlClient} {transferId : Text} {removed : Text → Prop}
    (h : c.Intact) (honly : OnlyPart transferId c.receiving c'.receiving)
    (hstore : c'.interruptedStore = c.interruptedStore.pop transferId)
    (hapart : c.Careful (.discardInterrupted transferId)) (hremoved : removed transferId) :
    Secures removed c c' := by
  have hsize {b : Text} (hne : b ≠ transferId) : c'.receiving.partSize b = c.receiving.partSize b := by
    apply partSize_congr honly.stagingDir
    apply honly.disk.nodes
    exact child_ne _ _ fun heq ↦ hne (List.append_cancel_right heq)
  have hforgets : Forgets removed c c' := by
    apply (forgets_pop hstore).mono
    rintro _ - rfl
    exact hremoved
  have hdownload {b : Text} (hne : b ≠ transferId) : c'.download b = c.download b := by
    rw [download_pop hstore, if_neg hne]
  constructor
  · constructor
    · intro b record hrecord
      have hne : b ≠ transferId := by
        rintro rfl
        rw [download_pop hstore, if_pos rfl] at hrecord
        exact nomatch hrecord
      rw [hsize hne]
      exact h.recorded b record (hdownload hne ▸ hrecord)
    · intro receiver hreceiver hlive
      rw [honly.activeReceiver] at hreceiver
      obtain ⟨hpart, hnot⟩ := h.receiver receiver hreceiver hlive
      rw [hsize (hapart receiver hreceiver hlive)]
      exact ⟨hpart, fun hrecorded ↦ hnot (hforgets.recorded hrecorded)⟩
  · intro b hheld
    by_cases heq : b = transferId
    · obtain rfl := heq
      exact .inr hremoved
    · left
      rcases hheld with ⟨record, hrecord, hlength⟩ | ⟨receiver, hreceiver, hid, hstate, hpart⟩
      · refine .inl ⟨record, ?_, by rw [hsize heq, hlength]⟩
        rwa [hdownload heq]
      · refine .inr ⟨receiver, ?_, hid, hstate, by rw [hsize heq, hpart]⟩
        rwa [honly.activeReceiver]

theorem secures_discardInterrupted (h : c.Intact) {transferId : Text}
    (hcareful : c.Careful (.discardInterrupted transferId)) :
    wp (discardInterrupted transferId)
      (fun _ c' ↦ Secures (c.Removed (.discardInterrupted transferId)) c c') c := by
  set partFile := c.receiving.partFile transferId with hpartFile
  have hforgotten {t : TransferClient} (honly : OnlyPart transferId c.receiving t) :
      wp (update fun client ↦ { client with
        interruptedStore := client.interruptedStore.pop transferId })
        (fun _ c' ↦ Secures (c.Removed (.discardInterrupted transferId)) c c') { c with receiving := t } :=
    h.discarded honly rfl hcareful rfl
  have hqueried : wp (TransferClient.onDisk (JavaFile.fileExists partFile)) (fun r t ↦
      (∃ found, r = .ok found) ∧ OnlyPart transferId c.receiving t) c.receiving :=
    ⟨⟨_, rfl⟩, onlyPart_onDisk (JavaFile.onlyFile_fileExists _ _)⟩
  unfold discardInterrupted
  rw [wp_get_bind]
  apply wp_bind_of (wp_onReceiving hqueried)
  · rintro e _ ⟨t, -, ⟨_, he⟩, -⟩
    exact nomatch he
  rintro found _ ⟨t, rfl, -, honly⟩
  cases found with
  | false => exact hforgotten honly
  | true =>
    have hdeleted : wp (TransferClient.onDisk (JavaFile.delete partFile)) (fun r t' ↦
        (∃ b, r = .ok b) ∧ OnlyPart transferId c.receiving t') t := by
      obtain ⟨⟨b, hb⟩, -⟩ := JavaFile.delete_spec partFile t.disk
      have hdelete : OnlyPart transferId t (TransferClient.onDisk (JavaFile.delete partFile) t).2 := by
        rw [hpartFile, ← partFile_eq honly.stagingDir]
        exact onlyPart_onDisk (JavaFile.onlyFile_delete _)
      exact ⟨⟨b, congrArg (Except.mapError KotlinException.ofIo) hb⟩, honly.trans hdelete⟩
    apply wp_bind_of (wp_onReceiving hdeleted)
    · rintro e _ ⟨t', -, ⟨_, he⟩, -⟩
      exact nomatch he
    · rintro _ _ ⟨t', rfl, -, honly'⟩
      exact hforgotten honly'

theorem secures_goOn (h : c.Intact) {index : ℕ} {input : SendInput} {removed : Text → Prop}
    (hcareful : c.Careful (.goOn now index input)) :
    wp (goOn now index input) (fun _ c' ↦ Secures removed c c') c := by
  unfold goOn
  rw [wp_get_bind]
  cases hjob : c.jobs[index]? with
  | none => exact h.leaves (refl_of (Leaves _) c)
  | some job =>
    have hturn : Stays (Leaves (Replaced job.file)) (do
        let progress ← settle (goOnJob now input job)
        update fun client ↦ { client with jobs := afterTurn client.jobs index progress } : Action Unit) :=
      stays_bind (leaves_settle (leaves_goOnJob now input job)) fun _ ↦
        stays_modify fun _ ↦ leaves_of_eq rfl rfl
    apply wp_mono (hturn c)
    intro _ c' hleaves
    apply h.still hleaves.still
    apply hleaves.forgets.mono
    rintro transferId hrecorded ⟨file, hfile, hphase, rfl⟩
    exact absurd hrecorded (hcareful job hjob file hfile hphase)

theorem secures_goOnResuming (h : c.Intact) {index : ℕ} {input : SendInput}
    (hcareful : c.Careful (.goOnResuming now index input)) :
    wp (goOnResuming now index input)
      (fun _ c' ↦ Secures (c.Removed (.goOnResuming now index input)) c c') c := by
  unfold goOnResuming
  rw [wp_get_bind]
  cases hresume : c.resumeSends[index]? with
  | none => exact h.leaves (refl_of (Leaves _) c)
  | some resume =>
    have hturn : wp (goOnResume now input resume)
        (fun _ c' ↦ Leaves (c.Removed (.goOnResuming now index input)) c c') c := by
      by_cases hphase : resume.phase = .launched
      · unfold goOnResume
        rw [hphase]
        cases input with
        | item transferId source =>
          apply wp_mono (leaves_verifyPrefix now source.content resume c)
          intro _ c' hleaves
          refine ⟨hleaves.still, hleaves.key, hleaves.forgets.mono ?_⟩
          exact fun transferId _ hexpired ↦ ⟨resume, hresume, hexpired⟩
        | turn | timeout | data _ | eof | readError | opened _ => exact refl_of (Leaves _) c
      · apply wp_mono (leaves_goOnResume now input hphase c)
        intro _ c' hleaves
        refine ⟨hleaves.still, hleaves.key, hleaves.forgets.mono ?_⟩
        rintro _ hrecorded rfl
        exact absurd hrecorded (hcareful resume hresume hphase)
    have hsettled : wp (settle (goOnResume now input resume))
        (fun _ c' ↦ Leaves (c.Removed (.goOnResuming now index input)) c c') c := by
      apply wp_tryCatch_of hturn
      · exact fun _ _ hleaves ↦ hleaves
      · exact fun _ _ hleaves ↦ hleaves
    apply wp_bind_of hsettled
    · exact fun _ _ hleaves ↦ h.leaves hleaves
    · intro progress c₁ hleaves
      refine h.leaves (trans_of (Leaves _) hleaves ?_)
      exact leaves_of_eq rfl rfl

/-- Other programs leave the staging files of the downloads alone. -/
theorem secures_disk (h : c.Intact) {disk : Disk} {removed : Text → Prop} (hcareful : c.Careful (.disk disk)) :
    Secures removed c { c with receiving.disk := disk } := by
  have hsize {b : Text} (hb : c.Recorded b ∨ ∃ receiver ∈ c.receiving.activeReceiver,
      receiver.state.Live ∧ receiver.metadata.transferId = b) :
      TransferClient.partSize { c.receiving with disk } b = c.receiving.partSize b :=
    partSize_congr rfl (hcareful b hb)
  constructor
  · constructor
    · intro b record hrecord
      exact (hsize (.inl (recorded_of_mem hrecord))).trans (h.recorded b record hrecord)
    · intro receiver hreceiver hlive
      obtain ⟨hpart, hnot⟩ := h.receiver receiver hreceiver hlive
      exact ⟨(hsize (.inr ⟨receiver, hreceiver, hlive, rfl⟩)).trans hpart, hnot⟩
  · rintro b (⟨record, hrecord, hlength⟩ | ⟨receiver, hreceiver, hid, hstate, hpart⟩)
    · exact .inl (.inl ⟨record, hrecord, (hsize (.inl (recorded_of_mem hrecord))).trans hlength⟩)
    · refine .inl (.inr ⟨receiver, hreceiver, hid, hstate, ?_⟩)
      exact (hsize (.inr ⟨receiver, hreceiver, .inr hstate, hid⟩)).trans hpart

/-- A round, and what follows it where it raises. -/
theorem secures_tryCatch {m rescue : Action Unit} {removed : Text → Prop}
    {P : FerryControlClient → FerryControlClient → Prop} (hround : wp m (Round removed c) c)
    (hrescue : ∀ e last, m c = (.error e, last) → last.Intact → last.DropSafe →
      wp rescue (fun _ c' ↦ Secures (fun _ ↦ False) last c' ∧ P last c') last) :
    wp (tryCatch m fun _ ↦ rescue) (fun _ c' ↦ Secures removed c c' ∧
      ∀ e last, m c = (.error e, last) → P last c') c := by
  have hran : wp m (fun r last ↦ m c = (r, last) ∧ Round removed c r last) c := ⟨rfl, hround⟩
  apply wp_tryCatch_of hran
  · rintro e last ⟨hrun, hround⟩
    apply wp_mono (hrescue e last hrun hround.1.intact (hround.2 e rfl))
    rintro _ c' ⟨hsecures, hlast⟩
    refine ⟨hround.1.trans hsecures, fun e' last' hrun' ↦ ?_⟩
    obtain ⟨-, rfl⟩ := Prod.mk.inj (hrun.symm.trans hrun')
    exact hlast
  · rintro u c' ⟨hrun, hround⟩
    exact ⟨hround.1, fun e last hrun' ↦ nomatch hrun.symm.trans hrun'⟩

/-- A round of the loop, with the end of the session where the round raises. -/
theorem secures_receiveFrame {frame : ClientFrame} {removed : Text → Prop}
    (hcoherent : c.receiving.Coherent) (hround : wp (processFrame now frame) (Round removed c) c) :
    wp (receiveFrame now frame) (fun _ c' ↦ Secures removed c c' ∧
      ∀ e last, processFrame now frame c = (.error e, last) → ∀ transferId,
        last.Arriving transferId ∨ last.Resuming transferId → c'.Kept transferId) c := by
  apply secures_tryCatch hround
  intro e last hrun hintact hdrop
  have hkeeps : last.receiving.Coherent := by
    have hsame := keeps_processFrame now frame c hcoherent
    rwa [hrun] at hsame
  apply wp_mono (hintact.drop hkeeps hdrop now)
  exact fun _ _ h ↦ h.2

/-- A session that ends with a round of its loop. -/
theorem exists_of_dropped {frame : ClientFrame} {last : FerryControlClient}
    (hframe : frame ≠ .pairDecision false) (h : last ∈ c.dropped (.frame now frame)) :
    ∃ e, processFrame now frame c = (.error e, last) := by
  unfold dropped at h
  split at h
  · next hevent => cases hevent
  · next hevent => exact absurd (ControlEvent.frame.inj hevent).2 hframe
  · next hevent =>
    obtain ⟨rfl, rfl⟩ := ControlEvent.frame.inj hevent
    split at h
    · next e _ hrun =>
      obtain rfl := Option.some.inj h
      exact ⟨e, hrun⟩
    · cases h
  · cases h

/-- The downloads are secured, and so is the transfer of a session that ends. -/
def Sound (c : FerryControlClient) (event : ControlEvent) (c' : FerryControlClient) : Prop :=
  Secures (c.Removed event) c c' ∧ ∀ last ∈ c.dropped event, ∀ transferId,
    last.Arriving transferId ∨ last.Resuming transferId → c'.Kept transferId

theorem sound_frame {frame : ClientFrame} (h : c.Intact) (hcoherent : c.receiving.Coherent)
    (hcareful : c.Careful (.frame now frame)) :
    wp (receiveFrame now frame) (fun _ c' ↦ c.Sound (.frame now frame) c') c := by
  have hround (hframe : frame ≠ .pairDecision false)
      (hround : wp (processFrame now frame) (Round (c.Removed (.frame now frame)) c) c) :
      wp (receiveFrame now frame) (fun _ c' ↦ c.Sound (.frame now frame) c') c := by
    apply wp_mono (secures_receiveFrame hcoherent hround)
    rintro _ c' ⟨hsecures, hkept⟩
    refine ⟨hsecures, fun last hlast ↦ ?_⟩
    obtain ⟨e, hrun⟩ := exists_of_dropped hframe hlast
    exact hkept e last hrun
  cases frame with
  | chunk plaintext => exact hround nofun (round_onChunkReceived h hcoherent hcareful)
  | message message => exact hround nofun (round_handleTransferMessage h hcoherent hcareful)
  | pairDecision accept =>
    cases accept with
    | true =>
      apply hround nofun
      apply round_leaves h
      · apply stays_get_bind
        intro client
        refine stays_ite _ ?_ (stays_pure _) client
        exact stays_modify fun _ ↦ leaves_of_eq rfl rfl
      · apply succeeds_get_bind
        intro client
        exact succeeds_ite _ (succeeds_modify _) (succeeds_pure _) client
    | false =>
      have hdropped := @Intact.drop (c.Removed (.frame now (.pairDecision false))) c h hcoherent
        (hcareful rfl) now
      apply wp_tryCatch_of hdropped
      · exact fun _ _ hraises ↦ (nomatch hraises.1)
      · rintro _ c' ⟨-, hsecures, hkept⟩
        refine ⟨hsecures, fun last hlast ↦ ?_⟩
        obtain rfl := Option.some.inj hlast
        exact hkept

/-- An event that does not end the session. -/
theorem sound_of_secures {event : ControlEvent} {c' : FerryControlClient} (hnone : c.dropped event = none)
    (hsecures : Secures (c.Removed event) c c') : c.Sound event c' :=
  ⟨hsecures, fun _ hlast ↦ nomatch hnone.symm.trans hlast⟩

/-- Every event that meets the condition. -/
theorem sound_act (h : c.Intact) (hcoherent : c.receiving.Coherent) {event : ControlEvent}
    (hcareful : c.Careful event) : wp (act event) (fun _ c' ↦ c.Sound event c') c := by
  have hstill {removed : Text → Prop} {t : TransferClient} (hstill : Still c.receiving t) :
      Secures removed c { c with receiving := t } := h.still hstill (forgets_of_eq rfl)
  have hends {removed : Text → Prop} {t : TransferClient} (hends : Ends c.receiving t)
      (hstake : ¬c.AtStake) : Secures removed c { c with receiving := t } :=
    h.ends hends (forgets_of_eq rfl) hstake
  cases event with
  | startSession remoteStaticB64 isTrusted =>
    exact sound_of_secures rfl (h.still (still_of_eq rfl rfl rfl) (forgets_of_eq rfl))
  | frame now frame => exact sound_frame h hcoherent hcareful
  | loopEnd now =>
    apply wp_mono (@Intact.drop (c.Removed (.loopEnd now)) c h hcoherent hcareful now)
    rintro _ c' ⟨-, hsecures, hkept⟩
    refine ⟨hsecures, fun last hlast ↦ ?_⟩
    obtain rfl := Option.some.inj hlast
    exact hkept
  | acceptPairing | rejectPairing => exact sound_of_secures rfl (h.leaves (leaves_of_eq rfl rfl))
  | setAutoAcceptTransfers value => exact sound_of_secures rfl (hstill (still_of_eq rfl rfl rfl))
  | acceptIncomingTransfer | rejectIncomingTransfer => exact sound_of_secures rfl (hstill (still_decided _ _))
  | cancelIncomingTransfer transferId =>
    exact sound_of_secures rfl (hends (ends_cancelIncomingTransfer transferId c.receiving) hcareful)
  | cancelOutgoingTransfer => exact sound_of_secures rfl (h.leaves (leaves_of_eq rfl rfl))
  | requestResume now record =>
    apply wp_mono (secures_requestResume h hcareful)
    exact fun _ _ ↦ sound_of_secures rfl
  | discardInterrupted transferId =>
    apply wp_mono (secures_discardInterrupted h hcareful)
    exact fun _ _ ↦ sound_of_secures rfl
  | sendFile now uri transferId source =>
    apply wp_mono (leaves_sendFile now uri transferId source c)
    exact fun _ _ hleaves ↦ sound_of_secures rfl (h.leaves hleaves)
  | sendBatch now uris batchId batchName totalBytes =>
    apply wp_mono (leaves_sendBatch now uris batchId batchName totalBytes c)
    exact fun _ _ hleaves ↦ sound_of_secures rfl (h.leaves hleaves)
  | decideIncoming index timedOut =>
    apply sound_of_secures rfl
    by_cases hrefuses : c.receiving.Refuses index timedOut
    · exact hends (ends_runWaiting c.receiving index timedOut) (hcareful hrefuses)
    · exact hstill (still_runWaiting hrefuses)
  | awaitResume index timedOut =>
    apply sound_of_secures rfl
    cases timedOut with
    | false => exact hstill (still_runResuming index)
    | true =>
      by_cases hwaiting : c.receiving.resuming[index]? = none
      · have hsame : Still c.receiving (c.receiving.runResuming index true) := by
          unfold runResuming
          rw [hwaiting]
          exact refl_of Still _
        exact hstill hsame
      · exact hends (ends_runResuming c.receiving index true) (hcareful rfl hwaiting)
  | goOn now index input =>
    apply wp_mono (secures_goOn h hcareful)
    exact fun _ _ ↦ sound_of_secures rfl
  | goOnResuming now index input =>
    apply wp_mono (secures_goOnResuming h hcareful)
    exact fun _ _ ↦ sound_of_secures rfl
  | disk disk => exact sound_of_secures rfl (secures_disk h hcareful)

/-- One event of a run. -/
theorem keepsDownloads_step (h : c.Intact) (hcoherent : c.receiving.Coherent) {event : ControlEvent}
    (hcareful : c.Careful event) : c.KeepsDownloads event ∧ (c.step event).Intact := by
  by_cases henabled : c.Enabled event
  · have hstep : c.step event = (act event c).2 := if_pos henabled
    obtain ⟨⟨hintact, hheld⟩, hdropped⟩ := sound_act h hcoherent hcareful
    rw [← hstep] at hintact hheld hdropped
    exact ⟨⟨hintact.recorded, fun _ ↦ hdropped, hheld⟩, hintact⟩
  · have hstep : c.step event = c := if_neg henabled
    refine ⟨⟨?_, fun hcan ↦ absurd hcan henabled, fun _ hheld ↦ .inl ?_⟩, ?_⟩
    · rw [hstep]
      exact h.recorded
    · rwa [hstep]
    · rwa [hstep]

/-- Interrupted downloads are kept in every run whose events meet the condition. -/
theorem along_keepsDownloads {events : List ControlEvent} (h : c.Intact)
    (hcoherent : c.receiving.Coherent) (hcareful : c.Along Careful events) :
    c.Along KeepsDownloads events := by
  induction events generalizing c with
  | nil => trivial
  | cons event events ih =>
    obtain ⟨hevent, hrest⟩ := hcareful
    obtain ⟨hkeeps, hintact⟩ := keepsDownloads_step h hcoherent hevent
    exact ⟨hkeeps, ih hintact (coherent_step hcoherent event) hrest⟩

end Events

/-! ## A request for the rest that times out -/

/-- The fields of a request for a file of two chunks. -/
def sampleDownload : String → Kotlin.MapValue
  | "file_size" => .number 2 2
  | "chunk_size" => .number 1 1
  | "chunk_count" => .number 2 2
  | key => TransferClient.sampleFields [] key

/-- The session ends after the first chunk. -/
def sampleInterrupted : List ControlEvent :=
  [.startSession (Text.lit "peer") true, .frame 0 (.message (.transferRequest sampleDownload)),
    .frame 0 (.chunk TransferClient.sampleChunk), .loopEnd 0]

/-- Its metadata. -/
def sampleMetadata : Kotlin.TransferMetadata where
  transferId := TransferClient.sampleTransferId
  fileName := Text.lit "a.txt"
  fileSize := 2
  mimeType := Text.lit "application/octet-stream"
  sha256 := Text.lit "6e340b9cffb37a989ca544e6bb780a2c78901d3fb33738768511a30617afa01d"
  chunkSize := 1
  chunkCount := 2
  senderIdentity := []
  createdAt := 0
  protocolVersion := 1
  batchId := []
  relativePath := []

theorem fromMap_sampleDownload :
    Kotlin.TransferMetadata.fromMap 0 sampleDownload = .ok sampleMetadata := by decide +kernel

/-- The record that the session leaves. -/
def sampleRecord : InterruptedRecord :=
  (sampleClient.run [.startSession (Text.lit "peer") true]).incomingRecord 0 sampleMetadata 1

/-- The next session, in which the client asks for the rest. -/
def sampleAsked : List ControlEvent :=
  sampleInterrupted ++ [.startSession (Text.lit "peer") true, .requestResume 0 sampleRecord]

/-- A chunk while no download is at stake. -/
theorem carefulChunk_of_free {c : FerryControlClient} {plaintext data : Bytes} {transferId : Text} {seq : ℤ}
    (hchunk : Kotlin.decodeChunkFrame plaintext = .ok (transferId, seq, data)) (hstake : ¬c.AtStake)
    (hcount : ∀ receiver ∈ c.receiving.activeReceiver, receiver.bytesReceived + data.length < 2 ^ 63) :
    c.CarefulChunk plaintext := by
  unfold CarefulChunk
  rw [hchunk]
  cases hactive : c.receiving.activeReceiver with
  | none => trivial
  | some receiver => exact ⟨hcount receiver hactive, fun hlose ↦ absurd hlose hstake⟩

/-- The peer accepts, and the session ends again. -/
def sampleResumed : List ControlEvent :=
  sampleAsked ++ [.frame 0 (.message (.transferResumeAccept TransferClient.sampleTransferId 1)), .loopEnd 0]

theorem along_keepsDownloads_sample :
    sampleClient.Along KeepsDownloads sampleResumed ∧
      (sampleClient.run sampleResumed).Kept TransferClient.sampleTransferId := by
  have hnone : sampleClient.receiving.activeReceiver = none := rfl
  have hempty (transferId : Text) : sampleClient.download transferId = none := rfl
  have hintact : sampleClient.Intact :=
    intact_new hnone fun transferId _ hrecord ↦ nomatch (hempty transferId).symm.trans hrecord
  have hcoherent : sampleClient.receiving.Coherent :=
    ⟨rfl, fun _ hreceiver ↦ nomatch hnone.symm.trans hreceiver⟩
  have hopens : ∀ metadata, Kotlin.TransferMetadata.fromMap 0 sampleDownload = .ok metadata →
      (sampleClient.run (sampleResumed.take 1)).OpensApart metadata := by
    intro metadata hmetadata
    obtain rfl : sampleMetadata = metadata := Except.ok.inj (fromMap_sampleDownload.symm.trans hmetadata)
    exact ⟨by decide +kernel, .inl (by decide +kernel), by decide +kernel⟩
  have hchunk : (sampleClient.run (sampleResumed.take 2)).CarefulChunk TransferClient.sampleChunk.1 := by
    have hdecoded : Kotlin.decodeChunkFrame TransferClient.sampleChunk.1 =
        .ok (TransferClient.sampleTransferId, 0, [0]) := by decide +kernel
    exact carefulChunk_of_free hdecoded (by decide +kernel) (by decide +kernel)
  have hdrop : (sampleClient.run (sampleResumed.take 3)).DropSafe :=
    ⟨by decide +kernel, fun hblank ↦ absurd hblank (by decide +kernel)⟩
  have hasked : (sampleClient.run (sampleResumed.take 5)).Careful (.requestResume 0 sampleRecord) := by
    refine fun _ ↦ ⟨fun _ ↦ by decide +kernel, by decide +kernel, fun hfault ↦ ?_⟩
    exact absurd hfault (by decide +kernel)
  have haccept : ∀ receiver ∈ (sampleClient.run (sampleResumed.take 6)).receiving.activeReceiver,
      (sampleClient.run (sampleResumed.take 6)).CarefulAccept receiver := by
    have hwaits : ∀ receiver ∈ (sampleClient.run (sampleResumed.take 6)).receiving.activeReceiver,
        receiver.state.Waits ∧ (sampleClient.run (sampleResumed.take 6)).receiving.disk.nodes
          receiver.tempFile ≠ some .directory := by decide +kernel
    have hstat : (sampleClient.run (sampleResumed.take 6)).receiving.disk.Reliable .stat := by
      unfold Disk.Reliable
      decide +kernel
    intro receiver hreceiver
    obtain ⟨hstate, hnode⟩ := hwaits receiver hreceiver
    exact ⟨fun _ ↦ hstate, fun _ ↦ ⟨hstat, hnode⟩⟩
  have hagain : (sampleClient.run (sampleResumed.take 7)).DropSafe :=
    ⟨by decide +kernel, fun hblank ↦ absurd hblank (by decide +kernel)⟩
  refine ⟨along_keepsDownloads hintact hcoherent ?_, by decide +kernel⟩
  refine ⟨trivial, ⟨fun hfault ↦ absurd hfault (by decide +kernel), fun _ ↦ hopens⟩, hchunk, hdrop, trivial,
    hasked, fun receiver hreceiver _ ↦ haccept receiver hreceiver, hagain, trivial⟩

/-- A request for the rest that times out removes the staging file and leaves the record. -/
theorem timedOut_resume_loses_file :
    (sampleClient.run sampleAsked).Kept TransferClient.sampleTransferId ∧
      (sampleClient.run (sampleAsked ++ [.awaitResume 0 true])).Recorded TransferClient.sampleTransferId ∧
      (sampleClient.run (sampleAsked ++ [.awaitResume 0 true])).receiving.partSize
        TransferClient.sampleTransferId = none ∧
      ¬sampleClient.Along KeepsDownloads (sampleAsked ++ [.awaitResume 0 true]) := by
  have hrecorded : (sampleClient.run (sampleAsked ++ [.awaitResume 0 true])).Recorded
      TransferClient.sampleTransferId := by decide +kernel
  have hlost : (sampleClient.run (sampleAsked ++ [.awaitResume 0 true])).receiving.partSize
      TransferClient.sampleTransferId = none := by decide +kernel
  refine ⟨by decide +kernel, hrecorded, hlost, ?_⟩
  rintro ⟨-, -, -, -, -, -, hlast, -⟩
  obtain ⟨record, hrecord⟩ := Option.ne_none_iff_exists'.mp hrecorded
  exact nomatch hlost.symm.trans (hlast.recorded _ record hrecord)

end FerryControlClient

end Ferry
