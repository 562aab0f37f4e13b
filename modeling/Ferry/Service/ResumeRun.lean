import Ferry.Service.Incoming
import Ferry.Transfer.ResumeRoundTrip

/-!
# A resume that never completes

`request_resume` builds the transfer again from its record, but the final path is only set by `begin`,
which is not called again.  TRANSFER_COMPLETE of a resumed transfer therefore ends in a failed
assertion, and no successful TRANSFER_RESULT is sent, whatever the record, the file and the frames.
-/

namespace Ferry

open Exec Text

namespace IncomingTransfer

/-! ## Methods that leave the final path -/

/-- The final path stays. -/
def KeepsFinalPath (w w' : World) : Prop := w'.self.finalPath = w.self.finalPath

instance : IsPreorder World KeepsFinalPath where
  refl := fun _ ↦ rfl
  trans := fun _ _ _ h h' ↦ Eq.trans h' h

theorem keepsFinalPath_onDisk {α : Type} (m : Exec IoError Disk α) :
    Stays KeepsFinalPath (onDisk m) := fun _ ↦ rfl

theorem keepsFinalPath_update {f : IncomingTransfer → IncomingTransfer}
    (h : ∀ self, (f self).finalPath = self.finalPath) : Stays KeepsFinalPath (update f) :=
  fun w ↦ h w.self

theorem keepsFinalPath_setState (state : TransferState) : Stays KeepsFinalPath (setState state) :=
  keepsFinalPath_update fun _ ↦ rfl

theorem keepsFinalPath_transition (new : TransferState) : Stays KeepsFinalPath (transition new) := by
  apply stays_get_bind
  intro w
  exact stays_bind (stays_ofResult _) keepsFinalPath_setState w

theorem keepsFinalPath_onTempFh {α : Type} (m : Exec IoError (Disk × Handle) α) :
    Stays KeepsFinalPath (onTempFh m) := by
  apply stays_get_bind
  intro w
  cases w.self.tempFh with
  | none => exact stays_throw (R := KeepsFinalPath) _ w
  | some handle => exact rfl

theorem keepsFinalPath_assignTempFh (fh : Option Handle) :
    Stays KeepsFinalPath (assignTempFh fh) := by
  apply stays_get_bind
  intro w
  have hassign : Stays KeepsFinalPath (update fun self ↦ { self with tempFh := fh }) :=
    keepsFinalPath_update fun _ ↦ rfl
  apply stays_bind hassign
  intro _
  cases w.self.tempFh with
  | none => exact stays_pure _
  | some handle => exact keepsFinalPath_onDisk _

theorem keepsFinalPath_cleanupTemp : Stays KeepsFinalPath cleanupTemp := by
  apply stays_get_bind
  intro w
  cases w.self.tempPath with
  | none => exact stays_pure (R := KeepsFinalPath) _ w
  | some temp =>
    exact stays_ite _ (stays_tryCatch (keepsFinalPath_onDisk _) fun _ ↦ stays_pure _) (stays_pure _) w

theorem keepsFinalPath_closeTempFh : Stays KeepsFinalPath closeTempFh := by
  apply stays_get_bind
  intro w
  have hclose : Stays KeepsFinalPath
      (tryCatch (onTempFh Handle.close) fun _ ↦ pure () : Method Unit) :=
    stays_tryCatch (keepsFinalPath_onTempFh _) fun _ ↦ stays_pure _
  exact stays_ite _ (stays_bind hclose fun _ ↦ keepsFinalPath_assignTempFh none) (stays_pure _) w

theorem keepsFinalPath_cancel : Stays KeepsFinalPath cancel :=
  stays_bind keepsFinalPath_closeTempFh fun _ ↦
    stays_bind keepsFinalPath_cleanupTemp fun _ ↦ keepsFinalPath_setState _

theorem keepsFinalPath_cleanupOnIoError : Stays KeepsFinalPath cleanupOnIoError :=
  stays_bind keepsFinalPath_closeTempFh fun _ ↦
    stays_bind keepsFinalPath_cleanupTemp fun _ ↦ keepsFinalPath_setState _

theorem keepsFinalPath_flushTempFh : Stays KeepsFinalPath flushTempFh := by
  apply stays_get_bind
  intro w
  exact stays_ite _
    (stays_bind (keepsFinalPath_onTempFh _) fun _ ↦
      stays_bind (keepsFinalPath_onTempFh _) fun _ ↦ keepsFinalPath_assignTempFh none)
    (stays_pure _) w

/-- A handler that cleans up after an `OSError` and raises. -/
theorem keepsFinalPath_onOsError {α : Type} {handler : Method α}
    (hhandler : Stays KeepsFinalPath handler) (e : PyError) :
    Stays KeepsFinalPath (if e.IsOsError then handler else throw e) :=
  stays_ite _ hhandler (stays_throw e)

theorem keepsFinalPath_receiveChunk (frame : ChunkFrame) :
    Stays KeepsFinalPath (receiveChunk frame) := by
  apply stays_get_bind
  intro w
  apply stays_bind (stays_raiseIf _ _)
  intro _
  apply stays_bind (stays_raiseIf _ _)
  intro _
  apply stays_bind (stays_raiseIf _ _)
  intro _
  apply stays_bind (stays_raiseIf _ _)
  intro _
  apply stays_bind
  · apply stays_tryCatch (keepsFinalPath_onTempFh _)
    intro e
    exact keepsFinalPath_onOsError (stays_bind keepsFinalPath_cleanupOnIoError fun _ ↦ stays_throw _) e
  · intro _
    exact keepsFinalPath_update fun _ ↦ rfl

theorem keepsFinalPath_prepareResumeRequest (expectedBytes expectedChunkIndex : Option ℤ) :
    Stays KeepsFinalPath (prepareResumeRequest expectedBytes expectedChunkIndex) := by
  have hcheck : ∀ metadata size, Stays KeepsFinalPath
      (checkPartial metadata size expectedBytes expectedChunkIndex) := by
    intro metadata size
    iterate 6
      apply stays_bind (stays_raiseIf _ _)
      intro _
    exact stays_raiseIf _ _
  have hread : ∀ temp, Stays KeepsFinalPath (readPart temp) := by
    intro temp
    apply stays_bind (keepsFinalPath_onDisk _)
    intro result
    obtain ⟨data, error⟩ := result
    cases error with
    | none => exact stays_pure _
    | some e => exact stays_throw _
  apply stays_get_bind
  intro w
  apply stays_bind (stays_raiseIf _ _)
  intro _
  cases w.self.tempPath with
  | none => exact stays_throw _
  | some temp =>
    apply stays_bind (stays_raiseIf _ _)
    intro _
    apply stays_bind (keepsFinalPath_onDisk _)
    intro size
    apply stays_bind (hcheck _ size)
    intro _
    apply stays_bind (hread temp)
    intro data
    apply stays_bind
    · exact keepsFinalPath_update fun _ ↦ rfl
    · intro _
      exact stays_ofResult _

theorem keepsFinalPath_reopenPart (chunkIndex : ℤ) (temp : Path) :
    Stays KeepsFinalPath (reopenPart chunkIndex temp) := by
  apply stays_bind
  · apply stays_tryCatch
    · exact stays_bind (keepsFinalPath_onDisk _) fun _ ↦ keepsFinalPath_assignTempFh _
    · intro e
      exact keepsFinalPath_onOsError (stays_bind (keepsFinalPath_setState _) fun _ ↦ stays_throw _) e
  · intro _
    apply stays_bind (keepsFinalPath_onDisk _)
    intro result
    apply stays_bind
    · exact keepsFinalPath_update fun _ ↦ rfl
    · intro _
      apply stays_bind (keepsFinalPath_onDisk _)
      intro size
      apply stays_bind
      · exact keepsFinalPath_update fun _ ↦ rfl
      · intro _
        exact keepsFinalPath_transition _

theorem keepsFinalPath_resume (chunkIndex : ℤ) : Stays KeepsFinalPath (resume chunkIndex) := by
  apply stays_get_bind
  intro w
  apply stays_bind (stays_raiseIf _ _)
  intro _
  apply stays_bind (keepsFinalPath_setState _)
  intro _
  cases w.self.tempPath with
  | none => exact stays_bind (keepsFinalPath_setState _) fun _ ↦ stays_throw _
  | some temp =>
    exact stays_ite _ (keepsFinalPath_reopenPart chunkIndex temp)
      (stays_bind (keepsFinalPath_setState _) fun _ ↦ stays_throw _)

/-- Without a final path, `finalise` does not return `True`. -/
theorem finalise_of_finalPath_eq_none {w : World} (h : w.self.finalPath = none) :
    wp finalise (fun r _ ↦ r ≠ .ok true) w := by
  unfold finalise
  apply wp_bind_of (keepsFinalPath_flushTempFh w)
  · intro e t _
    simp
  · intro _ t ht
    have hnone : t.self.finalPath = none := Eq.trans ht h
    rw [wp_get_bind, wp_ite]
    constructor
    · intro _
      rw [wp_bind_iff]
      constructor
      · simp
      · intro _ _
        rw [wp_bind_iff]
        exact ⟨fun _ _ ↦ by simp, fun _ _ ↦ by simp⟩
    · intro _
      unfold deliver
      rw [wp_get_bind, hnone]
      cases t.self.tempPath <;> simp

end IncomingTransfer

namespace FerryService

open IncomingTransfer

/-! ## The run of a resume -/

/-- The frames arrive in order. -/
def onChunksReceived (now : ℤ) : List Bytes → Handler Unit
  | [] => pure ()
  | plaintext :: rest => do
    onChunkReceived now plaintext
    onChunksReceived now rest

/-- `request_resume` is called, the sender answers TRANSFER_RESUME_ACCEPT and sends the frames and
TRANSFER_COMPLETE. -/
def resumeRun (now : ℤ) (ps : ℕ) (remoteAddr transferId : Text) (frames : List Bytes) :
    Handler Unit := do
  let request ← requestResume now remoteAddr transferId
  match request with
  | none => pure ()
  | some payload => do
    let _ ← resumeAnswered transferId payload.resumeChunkIndex true
    onChunksReceived now frames
    onTransferComplete ps transferId

/-- The resume completed: a successful TRANSFER_RESULT was sent since `s`, the source file is at a
destination of the transfer, and the record is no longer INTERRUPTED. -/
structure ResumeCompletes (ps : ℕ) (transferId : Text) (metadata : TransferMetadata) (source : Bytes)
    (s s' : FerryService) : Prop where
  result : ∃ sha256, ControlMessage.transferResult transferId true sha256 ∈
    (s'.sessions ps).sent.drop (s.sessions ps).sent.length
  stored : ∃ target, IsDestination metadata s.downloadDir target ∧
    s'.disk.nodes target = some (.file source)
  listed : s'.db.interrupted transferId = none

/-- A resume as it should be possible: the session is ESTABLISHED, the record is INTERRUPTED and agrees
with its `.part` file, which is a prefix of the source file, the frames are the remaining chunks, and
nothing fails. -/
structure Resumable (now : ℤ) (ps : ℕ) (remoteAddr transferId : Text) (metadata : TransferMetadata)
    (info : InterruptedTransferInfo) (source part : Bytes) (frames : List Bytes) (s : FerryService) :
    Prop where
  session : s.activeSessions.get remoteAddr = some ps
  established : (s.sessions ps).state = .established
  interrupted : s.db.interrupted transferId = some info
  parsed : TransferMetadata.fromDict now info.originalMetadata = .ok metadata
  key : metadata.transferId = transferId
  isPart : s.disk.nodes (metadata.partPath s.downloadDir) = some (.file part)
  isPrefix : part <+: source
  pos : 0 < part.length
  bytesReceived : info.bytesReceived = part.length
  chunkIndex : info.resumeChunkIndex * metadata.chunkSize = part.length
  partialSha256 : info.partialSha256 = Sha256.hexdigest part
  fileSize : metadata.fileSize = source.length
  sha256 : metadata.sha256 = Sha256.hexdigest source
  frames : (Chunks.segment metadata.chunkSize.toNat source info.resumeChunkIndex.toNat
    source.length).mapM (fun chunk ↦ encodeChunkFrame transferId chunk.1 chunk.2) = .ok frames
  reliable : ∀ call, s.disk.Reliable call
  database : s.db.faults = []
  drains : (s.sessions ps).drains = []

/-! ## What is sent, and what stays without a final path -/

/-- Along `s` to `s'` the session is sent no successful result for the transfer. -/
def Unsuccessful (ps : ℕ) (transferId : Text) (s s' : FerryService) : Prop :=
  ∃ messages, (s'.sessions ps).sent = (s.sessions ps).sent ++ messages ∧
    ∀ sha256, ControlMessage.transferResult transferId true sha256 ∉ messages

/-- The transfer registered under the id has no final path. -/
def LacksFinalPath (transferId : Text) (s : FerryService) : Prop :=
  ∀ incoming, s.incomingTransfers.get transferId = some incoming → incoming.finalPath = none

/-- No successful result is sent, and a transfer without final path stays so. -/
structure Unfinished (ps : ℕ) (transferId : Text) (s s' : FerryService) : Prop where
  sent : Unsuccessful ps transferId s s'
  lacks : LacksFinalPath transferId s → LacksFinalPath transferId s'

section Run

variable {ps : ℕ} {transferId : Text}

theorem unsuccessful_of_eq {s s' : FerryService} (h : s'.sessions = s.sessions) :
    Unsuccessful ps transferId s s' :=
  ⟨[], by rw [h, List.append_nil], fun _ ↦ List.not_mem_nil⟩

theorem Unsuccessful.trans {s s' s'' : FerryService} (h : Unsuccessful ps transferId s s')
    (h' : Unsuccessful ps transferId s' s'') : Unsuccessful ps transferId s s'' := by
  obtain ⟨messages, hsent, hnone⟩ := h
  obtain ⟨messages', hsent', hnone'⟩ := h'
  refine ⟨messages ++ messages', ?_, fun sha256 hmem ↦ ?_⟩
  · rw [hsent', hsent, List.append_assoc]
  · rcases List.mem_append.mp hmem with hmem | hmem
    · exact hnone sha256 hmem
    · exact hnone' sha256 hmem

instance : IsPreorder FerryService (Unsuccessful ps transferId) where
  refl := fun _ ↦ unsuccessful_of_eq rfl
  trans := fun _ _ _ ↦ Unsuccessful.trans

instance : IsPreorder FerryService (Unfinished ps transferId) where
  refl := fun _ ↦ ⟨unsuccessful_of_eq rfl, id⟩
  trans := fun _ _ _ h h' ↦ ⟨h.sent.trans h'.sent, h'.lacks ∘ h.lacks⟩

/-- A step that sends nothing and leaves the transfers. -/
theorem unfinished_of_eq {s s' : FerryService} (hsessions : s'.sessions = s.sessions)
    (htransfers : s'.incomingTransfers = s.incomingTransfers) : Unfinished ps transferId s s' where
  sent := unsuccessful_of_eq hsessions
  lacks := by
    unfold LacksFinalPath
    rw [htransfers]
    exact id

theorem unfinished_onDb {α : Type} (m : Exec PyError Database α) :
    Stays (Unfinished ps transferId) (onDb m) := fun _ ↦ unfinished_of_eq rfl rfl

theorem unfinished_popPeer (key : Text) : Stays (Unfinished ps transferId) (popPeer key) :=
  fun _ ↦ unfinished_of_eq rfl rfl

theorem unfinished_popTimers (key : Text) : Stays (Unfinished ps transferId) (popTimers key) :=
  fun _ ↦ unfinished_of_eq rfl rfl

theorem unfinished_notify (key : Text) (success : Bool) (fileName : Text) (direction : Direction) :
    Stays (Unfinished ps transferId) (notifyTransferComplete key success fileName direction) :=
  fun _ ↦ unfinished_of_eq rfl rfl

theorem lacksFinalPath_pop {s : FerryService} (key : Text) (h : LacksFinalPath transferId s) :
    ∀ incoming, (s.incomingTransfers.pop key).get transferId = some incoming →
      incoming.finalPath = none := by
  intro incoming hget
  rw [Dict.get_pop] at hget
  by_cases hkey : transferId = key
  · simp [hkey] at hget
  · rw [if_neg hkey] at hget
    exact h incoming hget

theorem unfinished_popIncoming (key : Text) : Stays (Unfinished ps transferId) (popIncoming key) :=
  fun _ ↦ ⟨unsuccessful_of_eq rfl, lacksFinalPath_pop key⟩

theorem unfinished_recordTransferOnce (key : Text) (record : TransferRecord) :
    Stays (Unfinished ps transferId) (recordTransferOnce key record) := by
  apply stays_get_bind
  intro s
  apply stays_ite _ (stays_pure _)
  apply stays_tryCatch
  · apply stays_bind (unfinished_onDb _)
    intro _
    exact stays_modify fun _ ↦ unfinished_of_eq rfl rfl
  · exact fun _ ↦ stays_pure _

/-- A message other than a successful result of the transfer. -/
theorem unfinished_sendEncrypted (peer : ℕ) {message : ControlMessage}
    (h : ∀ sha256, message ≠ .transferResult transferId true sha256) :
    Stays (Unfinished ps transferId) (sendEncrypted peer message) := by
  intro s
  have hsent : Unfinished ps transferId s { s with
      sessions := Function.update s.sessions peer
        { s.sessions peer with
          drains := (s.sessions peer).drains.tail
          sent := (s.sessions peer).sent ++ [message] } } := by
    refine ⟨?_, id⟩
    by_cases hpeer : ps = peer
    · subst hpeer
      refine ⟨[message], by simp, fun sha256 hmem ↦ ?_⟩
      exact h sha256 (List.mem_singleton.mp hmem).symm
    · exact ⟨[], by simp [hpeer], fun _ ↦ List.not_mem_nil⟩
  unfold sendEncrypted
  rw [wp_get_bind, wp_raiseIf_bind]
  refine ⟨fun _ ↦ refl_of (Unfinished ps transferId) s, fun _ ↦ ?_⟩
  rw [wp_modify_bind, wp_raiseIf]
  exact ⟨fun _ ↦ hsent, fun _ ↦ hsent⟩

theorem unfinished_onIncoming {α : Type} (key : Text) {m : Method α} (hm : Stays KeepsFinalPath m) :
    Stays (Unfinished ps transferId) (onIncoming key m) := by
  apply stays_get_bind
  intro s
  cases hget : s.incomingTransfers.get key with
  | none => exact stays_throw (R := Unfinished ps transferId) _ s
  | some incoming =>
    rw [wp_zoom]
    apply wp_mono (hm ⟨s.disk, incoming⟩)
    intro _ w hw
    refine ⟨unsuccessful_of_eq rfl, fun hlacks found hfound ↦ ?_⟩
    by_cases hkey : transferId = key
    · subst hkey
      have hself : w.self = found := by simpa using hfound
      rw [← hself]
      exact Eq.trans hw (hlacks incoming hget)
    · exact hlacks found ((Dict.get_set_of_ne _ _ hkey).symm.trans hfound)

/-! ## The handlers -/

theorem unfinished_countBatchBytes (batchId : Text) (length : ℕ) :
    Stays (Unfinished ps transferId) (countBatchBytes batchId length) := by
  apply stays_modify
  intro s
  cases s.activeBatches.get batchId with
  | none => exact refl_of (Unfinished ps transferId) s
  | some batch => exact unfinished_of_eq rfl rfl

theorem unfinished_reportIoError (key : Text) (metadata : TransferMetadata) (e : PyError)
    (peer : Option ℕ) : Stays (Unfinished ps transferId) (reportIoError key metadata e peer) := by
  cases peer with
  | none => exact stays_pure _
  | some peer =>
    have hsend : Stays (Unfinished ps transferId) (sendEncrypted peer (.transferError key e)) :=
      unfinished_sendEncrypted peer (by simp)
    apply stays_get_bind
    intro s
    apply stays_bind (stays_tryCatch hsend fun _ ↦ stays_pure _)
    intro _
    exact unfinished_recordTransferOnce key _

theorem unfinished_chunkFailed (key : Text) (metadata : TransferMetadata) (e : PyError) :
    Stays (Unfinished ps transferId) (chunkFailed key metadata e) := by
  apply stays_ite
  · apply stays_get_bind
    intro s
    apply stays_bind (unfinished_popPeer key)
    intro _
    apply stays_bind (unfinished_popIncoming key)
    intro _
    apply stays_bind (unfinished_popTimers key)
    intro _
    apply stays_bind (unfinished_reportIoError key metadata e _)
    intro _
    exact unfinished_notify key false metadata.fileName .incoming
  · apply stays_ite _ _ (stays_throw e)
    apply stays_bind (unfinished_onIncoming key keepsFinalPath_cancel)
    intro _
    exact stays_modify fun _ ↦ ⟨unsuccessful_of_eq rfl, lacksFinalPath_pop key⟩

theorem unfinished_onChunkReceived (now : ℤ) (plaintext : Bytes) :
    Stays (Unfinished ps transferId) (onChunkReceived now plaintext) := by
  apply stays_get_bind
  intro s
  cases decodeChunkFrame plaintext with
  | error e => exact stays_raiseIf (R := Unfinished ps transferId) _ _ s
  | ok chunk =>
    dsimp only
    cases s.incomingTransfers.get chunk.transferId with
    | none => exact stays_pure (R := Unfinished ps transferId) _ s
    | some incoming =>
      have hreceive := @unfinished_onIncoming ps transferId _ chunk.transferId _
        (keepsFinalPath_receiveChunk chunk)
      apply stays_bind
      · exact stays_modify fun _ ↦ unfinished_of_eq rfl rfl
      · intro _
        apply stays_tryCatch
        · apply stays_bind hreceive
          intro _
          exact stays_ite _ (unfinished_countBatchBytes _ _) (stays_pure _)
        · exact unfinished_chunkFailed chunk.transferId incoming.metadata

theorem unfinished_onChunksReceived (now : ℤ) (frames : List Bytes) :
    Stays (Unfinished ps transferId) (onChunksReceived now frames) := by
  induction frames with
  | nil => exact stays_pure _
  | cons plaintext rest ih =>
    apply stays_bind (unfinished_onChunkReceived now plaintext)
    intro _
    exact ih

theorem unfinished_resumeAnswered (key : Text) (chunkIndex : ℤ) (accepted : Bool) :
    Stays (Unfinished ps transferId) (resumeAnswered key chunkIndex accepted) := by
  have habandon : Stays (Unfinished ps transferId) (abandonResume key) := by
    apply stays_bind (unfinished_popIncoming key)
    intro _
    apply stays_bind (unfinished_popPeer key)
    intro _
    exact stays_pure _
  apply stays_ite _ _ habandon
  apply stays_tryCatch _ fun _ ↦ habandon
  apply stays_bind (unfinished_onIncoming key (keepsFinalPath_resume chunkIndex))
  intro _
  exact stays_pure _

theorem unfinished_finishBatch (peer : PeerSession) (batchId : Text) (batch : BatchTransfer)
    (startedAt : ℤ) : Stays (Unfinished ps transferId) (finishBatch peer batchId batch startedAt) := by
  apply stays_bind
  · exact stays_modify fun _ ↦ unfinished_of_eq rfl rfl
  · intro _
    apply stays_bind (unfinished_recordTransferOnce batchId _)
    intro _
    exact unfinished_notify batchId _ batch.batchName .incoming

theorem unfinished_recordResult (peer : PeerSession) (metadata : TransferMetadata) (key : Text)
    (success : Bool) (sha256 : Text) :
    Stays (Unfinished ps transferId) (recordResult peer metadata key success sha256) := by
  apply stays_bind (unfinished_popIncoming key)
  intro _
  apply stays_bind (unfinished_popPeer key)
  intro _
  apply stays_ite
  · apply stays_bind (unfinished_recordTransferOnce key _)
    intro _
    exact unfinished_notify key success metadata.fileName .incoming
  · apply stays_get_bind
    intro s
    cases s.activeBatches.get metadata.batchId with
    | none => exact stays_pure (R := Unfinished ps transferId) _ s
    | some batch =>
      apply stays_bind
      · exact stays_modify fun _ ↦ unfinished_of_eq rfl rfl
      · intro _
        exact stays_ite _ (unfinished_finishBatch peer metadata.batchId _ metadata.createdAt)
          (stays_pure _)

/-- The finalisation of a transfer without final path does not return `True`. -/
theorem onIncoming_finalise {s : FerryService} (h : LacksFinalPath transferId s) :
    wp (onIncoming transferId finalise) (fun r s' ↦ r ≠ .ok true ∧ s'.sessions = s.sessions) s := by
  unfold onIncoming
  rw [wp_get_bind]
  cases hget : s.incomingTransfers.get transferId with
  | none => exact ⟨by simp, rfl⟩
  | some incoming =>
    rw [wp_zoom]
    exact wp_mono (finalise_of_finalPath_eq_none (h incoming hget)) fun _ _ hr ↦ ⟨hr, rfl⟩

/-- TRANSFER_COMPLETE of a transfer without final path has no successful result. -/
theorem onTransferComplete_unsuccessful {s : FerryService} (h : LacksFinalPath transferId s) :
    wp (onTransferComplete ps transferId) (fun _ s' ↦ Unsuccessful ps transferId s s') s := by
  unfold onTransferComplete
  rw [wp_get_bind]
  cases s.incomingTransfers.get transferId with
  | none => exact unsuccessful_of_eq rfl
  | some incoming =>
    apply wp_bind_of (P := fun _ s' ↦ Unfinished ps transferId s s') (unfinished_popTimers transferId s)
    · exact fun _ _ ht ↦ ht.sent
    · intro _ t ht
      apply wp_bind_of (onIncoming_finalise (ht.lacks h))
      · exact fun _ u hu ↦ ht.sent.trans (unsuccessful_of_eq hu.2)
      · intro success u hu
        have hfalse : success = false := by
          cases success with
          | false => rfl
          | true => exact absurd rfl hu.1
        subst hfalse
        have hsend : Stays (Unfinished ps transferId)
            (sendEncrypted ps (.transferResult transferId false [])) :=
          unfinished_sendEncrypted ps (by simp)
        have hrest := stays_bind hsend fun _ ↦
          unfinished_recordResult (s.sessions ps) incoming.metadata transferId false []
        have hsame : Unsuccessful ps transferId s u := ht.sent.trans (unsuccessful_of_eq hu.2)
        exact wp_mono (hrest u) fun _ v hv ↦ hsame.trans hv.sent

/-! ## The run -/

/-- A method called on a new object sends nothing and leaves the final path. -/
theorem onDetached_keeps {α : Type} {m : Method α} (hm : Stays KeepsFinalPath m)
    (incoming : IncomingTransfer) (s : FerryService) :
    wp (onDetached incoming m) (fun r s' ↦ s'.sessions = s.sessions ∧
      ∀ prepared, r = .ok prepared → prepared.2.finalPath = incoming.finalPath) s := by
  refine ⟨rfl, fun prepared hprepared ↦ ?_⟩
  have hkept : (m ⟨s.disk, incoming⟩).2.self.finalPath = incoming.finalPath := hm ⟨s.disk, incoming⟩
  cases hrun : (m ⟨s.disk, incoming⟩).1 with
  | error e => simp [onDetached, hrun, Except.map] at hprepared
  | ok a =>
    have hpair : prepared = (a, (m ⟨s.disk, incoming⟩).2.self) := by
      simpa [onDetached, hrun, Except.map] using hprepared.symm
    rw [hpair]
    exact hkept

/-- No successful result was sent since `s`, and a transfer whose request was sent has no final path. -/
def Registers (ps : ℕ) (transferId : Text) (s : FerryService)
    (r : Except PyError (Option TransferResumeRequestPayload)) (s' : FerryService) : Prop :=
  Unsuccessful ps transferId s s' ∧ ∀ payload, r = .ok (some payload) → LacksFinalPath transferId s'

theorem registers_error {s t : FerryService} (e : PyError) (h : Unsuccessful ps transferId s t) :
    Registers ps transferId s (.error e) t :=
  ⟨h, fun _ hr ↦ by simp at hr⟩

theorem registers_none {s t : FerryService} (h : Unsuccessful ps transferId s t) :
    wp (pure none : Handler _) (Registers ps transferId s) t := by
  rw [wp_pure]
  exact ⟨h, fun _ hr ↦ by simp at hr⟩

theorem sendResumeRequest_registers (peer : ℕ) (info : InterruptedTransferInfo)
    (metadata : TransferMetadata) (s : FerryService) :
    wp (sendResumeRequest peer transferId info metadata) (Registers ps transferId s) s := by
  have hprepare := onDetached_keeps
    (keepsFinalPath_prepareResumeRequest (some info.bytesReceived) (some info.resumeChunkIndex))
    (restored metadata s.downloadDir) s
  have hprepared : wp (tryCatch (do
      let prepared ← onDetached (restored metadata s.downloadDir)
        (prepareResumeRequest (some info.bytesReceived) (some info.resumeChunkIndex))
      pure (some prepared)) fun _ ↦ pure none : Handler _)
      (fun r s' ↦ s'.sessions = s.sessions ∧ ∀ payload incoming,
        r = .ok (some (payload, incoming)) → incoming.finalPath = none) s := by
    apply wp_tryCatch_of (P := fun r s' ↦ s'.sessions = s.sessions ∧ ∀ payload incoming,
      r = .ok (some (payload, incoming)) → incoming.finalPath = none)
    · apply wp_bind_of hprepare
      · exact fun _ _ ht ↦ ⟨ht.1, by simp⟩
      · intro prepared t ht
        refine ⟨ht.1, fun payload incoming hsome ↦ ?_⟩
        obtain rfl := Option.some.inj (Except.ok.inj hsome)
        exact ht.2 _ rfl
    · intro e t ht
      rw [wp_pure]
      exact ⟨ht.1, by simp⟩
    · exact fun _ _ ht ↦ ht
  unfold sendResumeRequest
  rw [wp_get_bind]
  apply wp_bind_of hprepared
  · exact fun e _ ht ↦ registers_error e (unsuccessful_of_eq ht.1)
  · intro prepared t ht
    cases prepared with
    | none => exact registers_none (unsuccessful_of_eq ht.1)
    | some prepared =>
      have hnone : prepared.2.finalPath = none := ht.2 prepared.1 prepared.2 rfl
      have hsend : Stays (Unfinished ps transferId)
          (sendEncrypted peer (.transferResumeRequest prepared.1)) :=
        unfinished_sendEncrypted peer (by simp)
      dsimp only
      rw [wp_modify_bind]
      apply wp_bind_of (hsend _)
      · exact fun e _ hu ↦ registers_error e ((unsuccessful_of_eq ht.1).trans hu.sent)
      · intro _ u hu
        rw [wp_pure]
        refine ⟨(unsuccessful_of_eq ht.1).trans hu.sent, fun _ _ ↦ hu.lacks ?_⟩
        intro incoming hget
        have hsame : prepared.2 = incoming := by simpa using hget
        rw [← hsame]
        exact hnone

/-- `request_resume` sends no successful result, and what it registers has no final path. -/
theorem requestResume_registers (now : ℤ) (remoteAddr : Text) (s : FerryService) :
    wp (requestResume now remoteAddr transferId) (Registers ps transferId s) s := by
  have hdb : Stays (Unfinished ps transferId) (onDb (Database.getInterruptedTransfer transferId)) :=
    unfinished_onDb _
  unfold requestResume
  rw [wp_get_bind]
  cases s.activeSessions.get remoteAddr with
  | none => exact registers_none (unsuccessful_of_eq rfl)
  | some peer =>
    apply wp_bind_of (hdb s)
    · exact fun e _ ht ↦ registers_error e ht.sent
    · intro info t ht
      cases info with
      | none => exact registers_none ht.sent
      | some info =>
        dsimp only
        cases TransferMetadata.fromDict now info.originalMetadata with
        | error e => exact registers_none ht.sent
        | ok metadata =>
          apply wp_mono (@sendResumeRequest_registers ps transferId peer info metadata t)
          exact fun _ _ hu ↦ ⟨ht.sent.trans hu.1, hu.2⟩

/-- No successful result is sent in the run of a resume. -/
theorem resumeRun_unsuccessful (now : ℤ) (remoteAddr : Text) (frames : List Bytes)
    (s : FerryService) :
    wp (resumeRun now ps remoteAddr transferId frames) (fun _ s' ↦ Unsuccessful ps transferId s s')
      s := by
  unfold resumeRun
  apply wp_bind_of (@requestResume_registers ps transferId now remoteAddr s)
  · exact fun _ _ ht ↦ ht.1
  · intro request t ht
    cases request with
    | none => exact ht.1
    | some payload =>
      have hlacks : LacksFinalPath transferId t := ht.2 payload rfl
      have hanswered := @unfinished_resumeAnswered ps transferId transferId
        payload.resumeChunkIndex true
      have hreceived := @unfinished_onChunksReceived ps transferId now frames
      apply wp_bind_of (hanswered t)
      · exact fun _ _ hu ↦ ht.1.trans hu.sent
      · intro _ u hu
        apply wp_bind_of (hreceived u)
        · exact fun _ _ hv ↦ ht.1.trans (hu.sent.trans hv.sent)
        · intro _ v hv
          have hsame : Unsuccessful ps transferId s v := ht.1.trans (hu.sent.trans hv.sent)
          apply wp_mono (@onTransferComplete_unsuccessful ps transferId _ (hv.lacks (hu.lacks hlacks)))
          exact fun _ _ hw ↦ hsame.trans hw

theorem not_completes_of_unsuccessful {metadata : TransferMetadata} {source : Bytes}
    {s s' : FerryService} (h : Unsuccessful ps transferId s s') :
    ¬ResumeCompletes ps transferId metadata source s s' := by
  intro hcompletes
  obtain ⟨sha256, hresult⟩ := hcompletes.result
  obtain ⟨messages, hsent, hnone⟩ := h
  rw [hsent, List.drop_left] at hresult
  exact hnone sha256 hresult

/-- No resume completes: whatever the record, the `.part` file, the source file and the frames are, the
answer to TRANSFER_COMPLETE is not a successful result. -/
theorem resume_never_completes (now : ℤ) (s : FerryService) (ps : ℕ) (remoteAddr transferId : Text)
    (metadata : TransferMetadata) (source : Bytes) (frames : List Bytes) :
    ¬ResumeCompletes ps transferId metadata source s
      (resumeRun now ps remoteAddr transferId frames s).2 :=
  not_completes_of_unsuccessful (resumeRun_unsuccessful now remoteAddr frames s)

end Run

/-! ## One whole chunk on the disk and one byte to come -/

def resumeMetadata : TransferMetadata :=
  { sampleMetadata "" with
    fileSize := 65537
    chunkCount := 2
    sha256 := Sha256.hexdigest sampleFile }

/-- The first chunk of the file. -/
def samplePart : Bytes := List.replicate 65536 7

theorem length_samplePart : samplePart.length = 65536 := List.length_replicate

def sampleInfo : InterruptedTransferInfo where
  bytesReceived := 65536
  resumeChunkIndex := 1
  partialSha256 := Sha256.hexdigest samplePart
  senderIdentity := []
  originalMetadata := resumeMetadata.toDict
  interruptedAt := 0
  expireAt := 0

/-- A service with the record, the `.part` file and one ESTABLISHED session. -/
def sampleService : FerryService where
  downloadDir := sampleDir
  disk := {
    nodes := fun p ↦ if p = resumeMetadata.partPath sampleDir then some (.file samplePart) else
      if p <+: sampleDir.staging then some .directory else none
    faults := fun _ ↦ [] }
  db := {
    devices := ⟨[], .nil⟩
    transfers := Dict.set ∅ resumeMetadata.transferId
      ⟨⟨.str (lit "phone"), lit "f.txt", 65537, .incoming, .interrupted, 0, []⟩, sampleInfo⟩
    faults := [] }
  sessions := fun _ ↦ ⟨.established, lit "10.0.0.2:4000", .str (lit "phone"), [], []⟩
  activeSessions := Dict.set ∅ (lit "10.0.0.2:4000") 0
  incomingTransfers := ∅
  incomingPeers := ∅
  activeBatches := ∅
  acceptTimeoutTasks := ∅
  lastChunkTime := ∅
  recordedTransferIds := []
  completions := []

/-- The frame of the last byte. -/
def sampleFrame : Bytes :=
  chunkMagic ++ toBigEndian 16 0x0123456789ab4def8123456789abcdef ++ toBigEndian 4 1 ++ toBigEndian 4 1 ++
    [7]

theorem segment_sampleFile :
    Chunks.segment 65536 sampleFile 1 sampleFile.length = [(1, [7])] := by
  have htotal : Chunks.total 65536 sampleFile = 2 := by
    rw [Chunks.total, length_sampleFile]
  have hchunk : Chunks.chunkAt 65536 sampleFile 1 = [7] := by
    rw [Chunks.chunkAt, sampleFile, List.drop_replicate, List.take_replicate]
    rfl
  rw [Chunks.segment, htotal, length_sampleFile]
  simp [hchunk]

theorem canonical_resumeMetadata : resumeMetadata.Canonical where
  uuid := ⟨0x0123456789ab4def8123456789abcdef, by decide +kernel⟩
  fileName := by decide +kernel
  named := by decide
  relativePath := by decide
  fileSize := by decide
  chunkSize := by decide
  chunkCount := by decide
  sha256 := by
    refine ⟨Sha256.length_hexdigest sampleFile, List.all_eq_true.mpr fun c hc ↦ ?_⟩
    have hall : Sha256.lowerHex.all TransferMetadata.isHexDigit = true := by decide +kernel
    exact List.all_eq_true.mp hall c (Sha256.mem_lowerHex_of_mem_hexdigest hc)
  lower := Sha256.asciiLower_hexdigest sampleFile

theorem resumable_sample : Resumable 0 0 (lit "10.0.0.2:4000") resumeMetadata.transferId resumeMetadata
    sampleInfo sampleFile samplePart [sampleFrame] sampleService where
  session := by decide +kernel
  established := rfl
  interrupted := by
    simp [Database.interrupted, TransferRow.resume, sampleService]
  parsed := TransferMetadata.fromDict_toDict 0 canonical_resumeMetadata
  key := rfl
  isPart := by simp [sampleService]
  isPrefix := ⟨[7], List.replicate_succ'.symm⟩
  pos := by
    rw [length_samplePart]
    decide
  bytesReceived := by
    rw [length_samplePart]
    rfl
  chunkIndex := by
    rw [length_samplePart]
    rfl
  partialSha256 := rfl
  fileSize := by
    rw [length_sampleFile]
    rfl
  sha256 := rfl
  frames := by
    have hsegment : Chunks.segment resumeMetadata.chunkSize.toNat sampleFile
        sampleInfo.resumeChunkIndex.toNat sampleFile.length = [(1, [7])] := segment_sampleFile
    rw [hsegment]
    decide +kernel
  reliable := by simp [Disk.Reliable, sampleService]
  database := rfl
  drains := rfl

/-- The first chunk is on the disk, its record is consistent, and the sender delivers the last byte: the
resume does not complete. -/
theorem consistent_resume_fails :
    ¬∀ (now : ℤ) (s : FerryService) (ps : ℕ) (remoteAddr transferId : Text) (metadata : TransferMetadata)
      (info : InterruptedTransferInfo) (source part : Bytes) (frames : List Bytes),
      Resumable now ps remoteAddr transferId metadata info source part frames s →
        ResumeCompletes ps transferId metadata source s
          (resumeRun now ps remoteAddr transferId frames s).2 := by
  intro h
  have hcompletes := h 0 sampleService 0 (lit "10.0.0.2:4000") resumeMetadata.transferId resumeMetadata
    sampleInfo sampleFile samplePart [sampleFrame] resumable_sample
  exact not_completes_of_unsuccessful (resumeRun_unsuccessful 0 _ _ sampleService) hcompletes

end FerryService

end Ferry
