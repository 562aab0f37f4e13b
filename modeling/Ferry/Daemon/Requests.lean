import Ferry.Daemon.Busy
import Ferry.Transfer.Atomicity

/-!
# Requests that are contained

When `_on_transfer_request` returns for whatever a peer sends: `from_dict` may raise more than the handler
catches, and the transfer is registered before `begin` and before the notification.
-/

namespace Ferry

open Exec Text

namespace IncomingTransfer

open Disk

variable {metadata : TransferMetadata} {dir : DownloadDir}

/-! ## Transfers that begin -/

/-- The calls of `begin` on the disk, for the destination that its path check returned. -/
def stagingCalls (metadata : TransferMetadata) (dir : DownloadDir) (dest : Path) :
    Exec IoError Disk Handle := do
  mkdir dir.staging
  mkdir dir.path
  mkdir dest.parent
  Handle.openTruncate (metadata.partPath dir)

/-- The path check of `begin` passes, and none of its calls fails. -/
def Stages (metadata : TransferMetadata) (dir : DownloadDir) (disk : Disk) : Prop :=
  ∃ dest, resolveSafeDestination dir.path metadata.fileName metadata.relativePath = .ok dest ∧
    ∃ fh, (stagingCalls metadata dir dest disk).1 = .ok fh

theorem openStaging_returns_iff {w : World} (hown : Owns metadata dir w) :
    wp openStaging (fun r _ ↦ (∃ u, r = .ok u) ↔ Stages metadata dir w.disk) w := by
  have hrun {α : Type} (m : Exec IoError Disk α) (d : Disk) : wp m (fun r d' ↦ m d = (r, d')) d := rfl
  have herror {e : PyError} {P : Prop} (h : ¬P) : (∃ u : Unit, Except.error e = .ok u) ↔ P :=
    iff_of_false nofun h
  unfold openStaging
  rw [wp_get_bind, hown.metadata_eq, hown.downloadDir_eq]
  refine wp_onDisk_bind (hrun _ _) (fun e d h₁ ↦ herror ?_) fun _ d₁ h₁ ↦ ?_
  · rintro ⟨dest, -, hcalls⟩
    obtain ⟨_, h, -⟩ := bind_returns_iff.mp hcalls
    rw [h₁] at h
    exact nomatch h
  refine wp_onDisk_bind (hrun _ _) (fun e d h₂ ↦ herror ?_) fun _ d₂ h₂ ↦ ?_
  · rintro ⟨dest, -, hcalls⟩
    obtain ⟨_, -, hcalls⟩ := bind_returns_iff.mp hcalls
    obtain ⟨_, h, -⟩ := bind_returns_iff.mp hcalls
    rw [h₁, h₂] at h
    exact nomatch h
  rw [wp_update_bind, wp_ofResult_bind]
  refine ⟨fun e hcheck ↦ herror ?_, fun dest hdest ↦ ?_⟩
  · rintro ⟨dest, hdest, -⟩
    exact nomatch hcheck.symm.trans hdest
  have hcalls : Stages metadata dir w.disk ↔ ∃ fh, ((do
      mkdir dest.parent
      Handle.openTruncate (metadata.partPath dir) : Exec IoError Disk Handle) d₂).1 = .ok fh := by
    have hall : stagingCalls metadata dir dest w.disk = (do
        mkdir dest.parent
        Handle.openTruncate (metadata.partPath dir) : Exec IoError Disk Handle) d₂ :=
      (bind_run_of_ok h₁).trans (bind_run_of_ok h₂)
    rw [← hall]
    constructor
    · rintro ⟨dest', hdest', hcalls⟩
      obtain rfl : dest = dest' := Except.ok.inj (hdest.symm.trans hdest')
      exact hcalls
    · exact fun hcalls ↦ ⟨dest, hdest, hcalls⟩
  rw [wp_update_bind]
  refine wp_onDisk_bind (hrun _ _) (fun e d h₃ ↦ herror ?_) fun _ d₃ h₃ ↦ ?_
  · rw [hcalls]
    intro h
    obtain ⟨_, h, -⟩ := bind_returns_iff.mp h
    rw [h₃] at h
    exact nomatch h
  refine wp_onDisk_bind (hrun _ _) (fun e d h₄ ↦ herror ?_) fun fh d₄ h₄ ↦ ?_
  · rw [hcalls]
    intro h
    obtain ⟨_, -, fh, h⟩ := bind_returns_iff.mp h
    rw [h₃, h₄] at h
    exact nomatch h
  · apply wp_mono (succeeds_assignTempFh (some fh) _)
    intro r _ hr
    refine iff_of_true hr (hcalls.mpr (bind_returns_iff.mpr ⟨(), by rw [h₃], fh, ?_⟩))
    rw [h₃, h₄]

/-- A fresh transfer begins exactly when it can be staged. -/
theorem begin_returns_iff (disk : Disk) :
    wp begin (fun r _ ↦ (∃ u, r = .ok u) ↔ Stages metadata dir disk) ⟨disk, .new metadata dir⟩ := by
  have hown : Owns metadata dir ⟨disk, { IncomingTransfer.new metadata dir with state := .accepted }⟩ :=
    ⟨rfl, rfl, fun _ hp ↦ (nomatch hp), fun _ hfh ↦ (nomatch hfh)⟩
  unfold begin
  rw [wp_transition_bind]
  refine ⟨fun _ ↦ ?_, fun hrefused ↦ absurd ?_ hrefused⟩
  · refine wp_bind_of (P := fun r w' ↦ ((∃ u, r = .ok u) ↔ Stages metadata dir disk) ∧
      (r = .ok () → w'.self.state = .accepted)) ?_
      (fun e _ ht ↦ iff_of_false nofun fun h ↦ (nomatch (ht.1.mpr h).choose_spec)) fun _ t ht ↦ ?_
    · refine wp_tryCatch_of (wp_and (openStaging_returns_iff hown)
        (wp_same_state assigns_openStaging (by decide) _)) ?_ fun _ t ht ↦ ⟨ht.1, fun _ ↦ ht.2⟩
      rintro e t ⟨hiff, -⟩
      have hnot : ¬Stages metadata dir disk := fun h ↦ (nomatch (hiff.mpr h).choose_spec)
      rw [wp_ite, wp_transition_bind, wp_throw, wp_throw]
      exact ⟨fun _ ↦ ⟨fun _ ↦ ⟨iff_of_false nofun hnot, nofun⟩, fun _ ↦ ⟨iff_of_false nofun hnot, nofun⟩⟩,
        fun _ ↦ ⟨iff_of_false nofun hnot, nofun⟩⟩
    · rw [wp_transition]
      refine ⟨fun _ ↦ ht.1, fun hinvalid ↦ absurd ?_ hinvalid⟩
      simp [ht.2 rfl, TransferState.validTransitions]
  · change TransferState.accepted ∈ TransferState.idle.validTransitions
    decide

end IncomingTransfer

namespace Daemon

variable {s t : Daemon} {ps : ℕ}

/-! ## What a contained request does -/

/-- The frames that refuse a request. -/
def Frame.isRefusal : Frame → Bool
  | .invalidRequest _ _ | .transferReject _ _ => true
  | _ => false

/-- Everything that belongs to other transfers and other sessions is as it was. -/
structure LeavesRest (ps : ℕ) (s t : Daemon) : Prop where
  objects : ∀ object < s.next, t.objects object = s.objects object
  sessions : ∀ other ≠ ps, t.sessions other = s.sessions other
  outgoing : t.outgoing = s.outgoing
  activeOutgoing : t.activeOutgoingTransfers = s.activeOutgoingTransfers
  batches : t.batches = s.batches
  activeBatches : t.activeBatches = s.activeBatches
  tasks : t.tasks = s.tasks
  lastChunkTime : t.ledger.lastChunkTime = s.ledger.lastChunkTime

/-- One new transfer is registered under its id, in the state and with the timeouts and frames given. -/
structure Registers (ps : ℕ) (s t : Daemon) (metadata : TransferMetadata) (state : TransferState)
    (timeouts : Dict Text ℕ) (frames : List Frame) : Prop where
  object : (t.objects s.next).metadata = metadata ∧ (t.objects s.next).state = state
  transfers : t.ledger.incomingTransfers = s.ledger.incomingTransfers.set metadata.transferId s.next
  peers : t.ledger.incomingPeers = s.ledger.incomingPeers.set metadata.transferId ps
  timeouts : t.ledger.acceptTimeoutTasks = timeouts
  sent : (t.sessions ps).sent = (s.sessions ps).sent ++ frames
  disk : Disk.OnlyAt (metadata.partPath s.downloadDir) s.disk t.disk

/-- A transfer waits for the user, with its acceptance timeout. -/
def RegistersPending (ps : ℕ) (s t : Daemon) : Prop :=
  ∃ metadata timer, Registers ps s t metadata .idle
    (s.ledger.acceptTimeoutTasks.set metadata.transferId timer) []

/-- A transfer has begun, and the peer knows. -/
def RegistersBegun (ps : ℕ) (s t : Daemon) : Prop :=
  ∃ metadata, Registers ps s t metadata .transferring s.ledger.acceptTimeoutTasks
    [.transferAccept metadata.transferId]

/-- The peer gets one refusal, and nothing is registered. -/
def Refuses (ps : ℕ) (s t : Daemon) : Prop :=
  t.ledger = s.ledger ∧ t.disk = s.disk ∧
    ∃ frame : Frame, frame.isRefusal = true ∧ (t.sessions ps).sent = (s.sessions ps).sent ++ [frame]

/-- A handler returns, at once or after the `drain` of its answer, and has done one of the three. -/
structure Contains (ps : ℕ) (s : Daemon) (r : Except PyError LoopFlow) (t : Daemon) : Prop where
  returns : r = .ok .next ∨ r = .ok (.await .reply)
  rest : LeavesRest ps s t
  outcome : RegistersPending ps s t ∨ RegistersBegun ps s t ∨ Refuses ps s t

/-- The effect of a TRANSFER_REQUEST is contained. -/
def Contained (s : Daemon) (ps : ℕ) (payload : JsonValue) (now : ℤ) : Prop :=
  wp (handleTransferMessage ps (some .transferRequest) payload now) (Contains ps s) s

/-! ## When a request is contained -/

/-- What a request with these fields needs so that its handler returns. -/
def AnswersFields (s : Daemon) (ps : ℕ) (fields : Payload) (now : ℤ) : Prop :=
  match TransferMetadata.fromDict now fields with
  | .error e => e.isValueOrKeyError = true ∧ s.canSend ps = true
  | .ok metadata =>
    if metadata.batchId = [] ∧ s.ledger.incomingTransfers.keys = [] then
      isText ((s.sessions ps).remote.deviceName.or (.str (s.sessions ps).remoteAddr)) = true
    else s.canSend ps = true ∧ (metadata.batchId ≠ [] → s.acceptedBatch metadata.batchId = true →
      IncomingTransfer.Stages metadata s.downloadDir s.disk)

/-- The payload is an object, and its fields are answered. -/
def AnswersRequest (s : Daemon) (ps : ℕ) (payload : JsonValue) (now : ℤ) : Prop :=
  ∃ fields, payload.fields = .ok fields ∧ s.AnswersFields ps fields now

/-! ## Answers -/

/-- The frame is written. -/
def sentTo (s : Daemon) (ps : ℕ) (frame : Frame) : Daemon :=
  { s with sessions := Function.update s.sessions ps { s.sessions ps with
      sendFaults := (s.sessions ps).sendFaults.tail, sent := (s.sessions ps).sent ++ [frame] } }

theorem sentTo_sent (s : Daemon) (ps : ℕ) (frame : Frame) :
    ((s.sentTo ps frame).sessions ps).sent = (s.sessions ps).sent ++ [frame] := by
  simp [sentTo]

theorem leavesRest_sentTo (s : Daemon) (ps : ℕ) (frame : Frame) : LeavesRest ps s (s.sentTo ps frame) :=
  ⟨fun _ _ ↦ rfl, fun _ hother ↦ Function.update_of_ne hother .., rfl, rfl, rfl, rfl, rfl, rfl⟩

/-- An answer is written and awaited, or refused by the session. -/
theorem reply_spec (ps : ℕ) (frame : Frame) (s : Daemon) :
    wp (reply ps frame) (fun r t ↦ (s.canSend ps = true ∧ r = .ok (.await .reply) ∧ t = s.sentTo ps frame) ∨
      (s.canSend ps = false ∧ ∃ e, r = .error e)) s := by
  unfold reply sendEncrypted
  rw [wp_bind_assoc, wp_get_bind, wp_bind_assoc, wp_raiseIf_bind]
  refine ⟨fun hstate ↦ .inr ⟨by simp [canSend, hstate], _, rfl⟩, fun hstate ↦ ?_⟩
  unfold writeFrame onSession
  rw [wp_bind_assoc, wp_get_bind, wp_bind_assoc, wp_modify_bind]
  cases hfault : (s.sessions ps).sendFaults.headD none with
  | some length => exact .inr ⟨by simp only [canSend, hfault]; simp, _, rfl⟩
  | none =>
    rw [wp_modify_bind, wp_pure]
    refine .inl ⟨by simp only [canSend, hfault, hstate]; simp, rfl, ?_⟩
    simp only [sentTo, Function.update_idem, Function.update_self]

/-- A refusal that is written. -/
theorem refuses_sentTo {frame : Frame} (h : frame.isRefusal = true) : Refuses ps s (s.sentTo ps frame) :=
  ⟨rfl, rfl, frame, h, sentTo_sent s ps frame⟩

theorem not_contains_error {e : PyError} : ¬Contains ps s (.error e) t := by
  rintro ⟨h | h, -, -⟩
  · exact nomatch h
  · exact nomatch h

/-- An answer that refuses is all that is asked of a handler, if it can be written. -/
theorem reply_refusal {frame : Frame} (hframe : frame.isRefusal = true) (s : Daemon) :
    wp (reply ps frame) (fun r t ↦ Contains ps s r t ↔ s.canSend ps = true) s := by
  apply wp_mono (reply_spec ps frame s)
  rintro r t (⟨hsend, rfl, rfl⟩ | ⟨hsend, e, rfl⟩)
  · exact iff_of_true ⟨.inr rfl, leavesRest_sentTo s ps frame, .inr (.inr (refuses_sentTo hframe))⟩ hsend
  · exact iff_of_false not_contains_error fun h ↦ (nomatch hsend.symm.trans h)

/-! ## Registrations -/

/-- An item of an accepted batch is begun and answered. -/
theorem registerItem_contains (metadata : TransferMetadata) (s : Daemon) :
    wp (registerItem ps metadata) (fun r t ↦ Contains ps s r t ↔
      s.canSend ps = true ∧ IncomingTransfer.Stages metadata s.downloadDir s.disk) s := by
  unfold registerItem
  rw [wp_registerTransfer_bind]
  have hbegin : wp IncomingTransfer.begin (fun r w ↦
      ((∃ u, r = .ok u) ↔ IncomingTransfer.Stages metadata s.downloadDir s.disk) ∧
      (r = .ok () → w.self.metadata = metadata ∧ w.self.state = .transferring ∧
        Disk.OnlyAt (metadata.partPath s.downloadDir) s.disk w.disk))
      ⟨s.disk, .new metadata s.downloadDir⟩ := by
    have hown : IncomingTransfer.Owns metadata s.downloadDir ⟨s.disk, .new metadata s.downloadDir⟩ :=
      ⟨rfl, rfl, fun _ hp ↦ (nomatch hp), fun _ hfh ↦ (nomatch hfh)⟩
    apply wp_mono (wp_and (IncomingTransfer.begin_returns_iff s.disk)
      (wp_and (IncomingTransfer.begin_state _) (IncomingTransfer.stays_begin _)))
    rintro r w ⟨hiff, hstate, hkept⟩
    refine ⟨hiff, fun hr ↦ ⟨(hkept hown).owns.metadata_eq, ?_, (hkept hown).disk⟩⟩
    rcases hstate with ⟨-, hstate⟩ | ⟨⟨e, he, -⟩, -⟩ | ⟨⟨e, he⟩, -⟩
    · exact hstate
    · exact nomatch hr.symm.trans he
    · exact nomatch hr.symm.trans he
  have hself : ((s.addObject (IncomingTransfer.new metadata s.downloadDir)).mapLedger fun ledger ↦
      ledger.register metadata.transferId s.next ps).objects s.next = .new metadata s.downloadDir :=
    addObject_self _
  rw [wp_bind]
  unfold onObject
  rw [wp_zoom, hself]
  apply wp_mono hbegin
  rintro r w ⟨hiff, hok⟩
  cases r with
  | error e =>
    exact iff_of_false not_contains_error fun h ↦ (nomatch (hiff.mpr h.2).choose_spec)
  | ok _ =>
    obtain ⟨hmetadata, hstate, hdisk⟩ := hok rfl
    have hstages := hiff.mp ⟨(), rfl⟩
    refine wp_mono (reply_spec ps (.transferAccept metadata.transferId) _) ?_
    rintro r t (⟨hsend, rfl, rfl⟩ | ⟨hsend, e, rfl⟩)
    · refine iff_of_true ⟨.inr rfl, ⟨fun object hobject ↦ ?_, fun other hother ↦ ?_, rfl, rfl, rfl, rfl,
        rfl, rfl⟩, .inr (.inl ⟨metadata, ?_, rfl, rfl, rfl, sentTo_sent _ ps _, hdisk⟩)⟩ ⟨hsend, hstages⟩
      · exact (Function.update_of_ne hobject.ne ..).trans (addObject_of_ne _ hobject.ne)
      · exact Function.update_of_ne hother ..
      · have hobject {objects : ℕ → IncomingTransfer} :
            Function.update objects s.next w.self s.next = w.self :=
          Function.update_self ..
        exact ⟨(congrArg _ hobject).trans hmetadata, (congrArg _ hobject).trans hstate⟩
    · exact iff_of_false not_contains_error fun h ↦ (nomatch hsend.symm.trans h.1)

/-- A transfer outside a batch waits for the user, if the user can be notified. -/
theorem registerPending_contains (metadata : TransferMetadata) (s : Daemon) :
    wp (registerPending ps metadata) (fun r t ↦ Contains ps s r t ↔
      isText ((s.sessions ps).remote.deviceName.or (.str (s.sessions ps).remoteAddr)) = true) s := by
  unfold registerPending
  rw [wp_registerTransfer_bind, wp_get_bind]
  dsimp only
  rw [wp_raiseIf_bind]
  refine ⟨fun hname ↦ iff_of_false not_contains_error hname, fun hname ↦ ?_⟩
  refine iff_of_true ⟨.inl rfl, ⟨fun object hobject ↦ addObject_of_ne _ hobject.ne, fun _ _ ↦ rfl, rfl, rfl,
    rfl, rfl, rfl, rfl⟩, .inl ⟨metadata, s.next + 1, ?_, rfl, rfl, rfl, (List.append_nil _).symm,
    Disk.OnlyAt.refl _ _⟩⟩ (not_not.mp hname)
  exact ⟨congrArg _ (addObject_self _), congrArg _ (addObject_self _)⟩

theorem not_contained_of_raises {payload : JsonValue} {now : ℤ}
    (h : (handleTransferMessage ps (some .transferRequest) payload now s).1.isOk = false) :
    ¬s.Contained ps payload now := by
  intro hcontained
  have hreturns : (handleTransferMessage ps (some .transferRequest) payload now s).1 = .ok .next ∨
      (handleTransferMessage ps (some .transferRequest) payload now s).1 = .ok (.await .reply) :=
    Contains.returns hcontained
  rcases hreturns with hreturns | hreturns
  · rw [hreturns] at h
    exact nomatch h
  · rw [hreturns] at h
    exact nomatch h

/-- A request whose size is null. -/
def nullSizeRequest : Payload :=
  [(lit "transfer_id", .str (IncomingTransfer.sampleMetadata "").transferId),
    (lit "file_name", .str (lit "f.txt")), (lit "file_size", .null)]

/-- An item of a batch whose relative path has a NUL. -/
def nulItemRequest : Payload := { IncomingTransfer.sampleMetadata "a\u0000" with batchId := lit "b" }.toDict

def acceptedBatchRun : List Event := [phoneConnects, sampleBatchRequest, .acceptBatch samplePhone (lit "b")]

end Daemon

end Ferry
