import Ferry.Android.Transfers

/-!
# Consent to incoming files

Every file that the client places belongs to a request that was accepted automatically, that is part
of an open batch of the session, or that the user accepted before a chunk was written.  The receiver is
active before the user answers, so this holds in the runs in which no chunk and no TRANSFER_COMPLETE
arrives for a request that waits for its answer, and no session starts with the batch of an earlier one.
-/

namespace Ferry

open Exec

/-- The request was accepted automatically, as part of an open batch, or by the user in time. -/
def RequestRecord.Consented (r : RequestRecord) : Prop :=
  r.autoAccepted = true ∨ r.batchOpen = true ∨ r.accepted = true ∧ r.rejected = false

instance (r : RequestRecord) : Decidable r.Consented := inferInstanceAs (Decidable (_ ∨ _))

namespace TransferClient

/-! ## The condition -/

/-- The request of the active receiver does not wait for the user, or the user's deferred has been
completed with `true`. -/
def Answered (client : TransferClient) : Prop :=
  (client.request.bind RequestRecord.deferred).all
    (fun k ↦ client.decisions[k]? = some (some true)) = true

instance (client : TransferClient) : Decidable client.Answered := inferInstanceAs (Decidable (_ = true))

/-- Chunks and TRANSFER_COMPLETE wait for the answer, and a session starts without a batch. -/
def Orderly (client : TransferClient) : TransferEvent → Prop
  | .startLoop _ => client.activeBatchId = none
  | .frame _ (.chunk _) => client.Answered
  | .frame _ (.message (.transferComplete _)) => client.Answered
  | _ => True

instance (client : TransferClient) (event : TransferEvent) : Decidable (client.Orderly event) := by
  unfold Orderly
  split <;> infer_instance

/-- Every event of a run is orderly in the state in which it happens. -/
def OrderlyRun (client : TransferClient) : List TransferEvent → Prop
  | [] => True
  | event :: events => client.Orderly event ∧ (client.step event).OrderlyRun events

instance decidableOrderlyRun :
    ∀ (client : TransferClient) (events : List TransferEvent), Decidable (client.OrderlyRun events)
  | _, [] => .isTrue trivial
  | client, event :: events =>
    @instDecidableAnd _ _ inferInstance (decidableOrderlyRun (client.step event) events)

/-! ## Functions that leave requests and batches alone -/

/-- The request may be dropped; decisions, batches and placed files stay. -/
structure Quiet (c c' : TransferClient) : Prop where
  request : c'.request = c.request ∨ c'.request = none
  placed : c'.placed = c.placed
  decisions : c'.decisions = c.decisions
  activeBatchId : c'.activeBatchId = c.activeBatchId
  announced : c'.announced = c.announced

theorem Quiet.refl (c : TransferClient) : Quiet c c := ⟨.inl rfl, rfl, rfl, rfl, rfl⟩

theorem Quiet.trans {c c' c'' : TransferClient} (h : Quiet c c') (h' : Quiet c' c'') : Quiet c c'' where
  request := by
    rcases h'.request with hsame | hnone
    · rw [hsame]
      exact h.request
    · exact .inr hnone
  placed := h'.placed.trans h.placed
  decisions := h'.decisions.trans h.decisions
  activeBatchId := h'.activeBatchId.trans h.activeBatchId
  announced := h'.announced.trans h.announced

instance : IsPreorder TransferClient Quiet where
  refl := Quiet.refl
  trans := fun _ _ _ ↦ Quiet.trans

theorem quiet_update {f : TransferClient → TransferClient} (h : ∀ c, Quiet c (f c)) :
    Stays Quiet (update f) := stays_modify h

theorem quiet_sendEncryptedMessage (reply : ClientReply) : Stays Quiet (sendEncryptedMessage reply) := by
  apply stays_get_bind
  intro client
  exact stays_bind (stays_modify fun c ↦ ⟨.inl rfl, rfl, rfl, rfl, rfl⟩)
    (fun _ ↦ stays_bind (stays_raiseIf _ _) fun _ ↦
      stays_modify fun c ↦ ⟨.inl rfl, rfl, rfl, rfl, rfl⟩) client

theorem quiet_onDisk {α : Type} (m : Exec IoError Disk α) : Stays Quiet (onDisk m) :=
  fun _ ↦ ⟨.inl rfl, rfl, rfl, rfl, rfl⟩

theorem quiet_onReceiver {α : Type} (receiver : FerryTransferReceiver)
    (m : FerryTransferReceiver.Method α) : Stays Quiet (onReceiver receiver m) :=
  fun _ ↦ ⟨.inl rfl, rfl, rfl, rfl, rfl⟩

theorem quiet_onNewReceiver {α : Type} (receiver : FerryTransferReceiver)
    (m : FerryTransferReceiver.Method α) : Stays Quiet (onNewReceiver receiver m) :=
  fun _ ↦ ⟨.inl rfl, rfl, rfl, rfl, rfl⟩

theorem quiet_dropReceiver : Stays Quiet dropReceiver :=
  stays_modify fun _ ↦ ⟨.inr rfl, rfl, rfl, rfl, rfl⟩

theorem quiet_cancelActive : Stays Quiet cancelActive := by
  apply stays_get_bind
  intro client
  cases client.activeReceiver with
  | none => exact stays_pure () client
  | some receiver => exact quiet_onReceiver receiver _ client

theorem quiet_cancelReceiver : Stays Quiet cancelReceiver :=
  stays_bind quiet_cancelActive fun _ ↦ quiet_dropReceiver

theorem quiet_markHandled (transferId : Text) : Stays Quiet (markHandled transferId) :=
  stays_modify fun _ ↦ ⟨.inl rfl, rfl, rfl, rfl, rfl⟩

theorem quiet_completeResume (value : Bool) : Stays Quiet (completeResume value) :=
  stays_modify fun _ ↦ ⟨.inl rfl, rfl, rfl, rfl, rfl⟩

theorem quiet_onTransferCancel (transferId : Text) : Stays Quiet (onTransferCancel transferId) := by
  apply stays_get_bind
  intro client
  exact stays_ite _ (stays_pure ())
    (stays_bind (quiet_markHandled transferId) fun _ ↦ quiet_cancelReceiver) client

theorem quiet_onResumeAccept (transferId : Text) (resumeChunkIndex : ℤ) :
    Stays Quiet (onResumeAccept transferId resumeChunkIndex) := by
  apply stays_get_bind
  intro client
  cases client.activeReceiver with
  | none => exact quiet_completeResume true client
  | some receiver =>
    exact stays_ite _
      (stays_tryCatch
        (stays_bind (quiet_onReceiver receiver _) fun _ ↦ quiet_completeResume true)
        fun _ ↦ stays_bind quiet_cancelReceiver fun _ ↦ quiet_completeResume false)
      (quiet_completeResume true) client

theorem quiet_onResumeReject : Stays Quiet onResumeReject :=
  stays_bind quiet_cancelReceiver fun _ ↦ quiet_completeResume false

theorem quiet_askPeer (record : InterruptedRecord) (partialSha256 : Text) :
    Stays Quiet (askPeer record partialSha256) := by
  unfold askPeer
  apply stays_bind
  · exact quiet_update fun c ↦ ⟨.inl rfl, rfl, rfl, rfl, rfl⟩
  intro _
  apply stays_tryCatch
  · apply stays_bind (quiet_sendEncryptedMessage _)
    intro _
    exact quiet_update fun c ↦ ⟨.inl rfl, rfl, rfl, rfl, rfl⟩
  · intro _
    apply stays_bind quiet_cancelReceiver
    intro _
    exact quiet_update fun c ↦ ⟨.inl rfl, rfl, rfl, rfl, rfl⟩

theorem quiet_rebuildReceiver (record : InterruptedRecord) (metadata : Kotlin.TransferMetadata)
    (partialSha256 : Text) : Stays Quiet (rebuildReceiver record metadata partialSha256) := by
  apply stays_get_bind
  intro client
  have hinstall (receiver : FerryTransferReceiver) : Stays Quiet (do
      update fun client ↦ { client with
        activeReceiver := some receiver
        activeReceiverMeta := some metadata
        request := none }
      askPeer record partialSha256 : Action Unit) := by
    apply stays_bind
    · exact quiet_update fun c ↦ ⟨.inr rfl, rfl, rfl, rfl, rfl⟩
    · exact fun _ ↦ quiet_askPeer record partialSha256
  exact stays_bind (quiet_onNewReceiver _ _) (fun _ ↦ stays_bind (quiet_onNewReceiver _ _) fun _ ↦
    hinstall _) client

theorem quiet_requestResume (now : ℤ) (record : InterruptedRecord) :
    Stays Quiet (requestResume now record) := by
  refine stays_bind (stays_ofResult _) fun metadata ↦ stays_get_bind fun client ↦ ?_
  exact stays_bind (quiet_onDisk _) (fun _ ↦ stays_bind (stays_raiseIf _ _) fun _ ↦
    stays_bind (quiet_onDisk _) fun _ ↦ stays_bind (stays_raiseIf _ _) fun _ ↦
      quiet_rebuildReceiver record metadata _) client

theorem quiet_decideIncoming (metadata : Kotlin.TransferMetadata) (accepted : Bool) :
    Stays Quiet (decideIncoming metadata accepted) :=
  stays_bind (stays_modify fun _ ↦ ⟨.inl rfl, rfl, rfl, rfl, rfl⟩) fun _ ↦
    stays_ite _ (quiet_sendEncryptedMessage _)
      (stays_bind quiet_cancelReceiver fun _ ↦ quiet_sendEncryptedMessage _)

theorem quiet_cancelIncomingTransfer (transferId : Option Text) :
    Stays Quiet (cancelIncomingTransfer transferId) := by
  apply stays_get_bind
  intro client
  cases (client.activeReceiverMeta.map Kotlin.TransferMetadata.transferId).or transferId with
  | none => exact stays_pure () client
  | some currentId =>
    exact stays_bind quiet_cancelReceiver
      (fun _ ↦ stays_tryCatch (quiet_sendEncryptedMessage _) fun _ ↦ stays_pure ()) client

theorem quiet_abandonResume : Stays Quiet abandonResume :=
  stays_bind (stays_modify fun _ ↦ ⟨.inl rfl, rfl, rfl, rfl, rfl⟩) fun _ ↦ quiet_cancelReceiver

theorem quiet_interruptActive : Stays Quiet interruptActive := by
  apply stays_get_bind
  intro client
  cases client.activeReceiver with
  | none => exact quiet_cancelActive client
  | some receiver =>
    cases client.activeReceiverMeta with
    | none => exact quiet_cancelActive client
    | some metadata =>
      exact stays_bind (quiet_onReceiver receiver _)
        (fun _ ↦ stays_ite _ (stays_pure ()) quiet_cancelActive) client

theorem quiet_endLoop : Stays Quiet endLoop :=
  stays_bind (stays_modify fun _ ↦ ⟨.inl rfl, rfl, rfl, rfl, rfl⟩) fun _ ↦
    stays_bind quiet_interruptActive fun _ ↦ stays_bind quiet_dropReceiver fun _ ↦
      stays_bind (quiet_completeResume false) fun _ ↦
        stays_modify fun _ ↦ ⟨.inl rfl, rfl, rfl, rfl, rfl⟩

/-! ## The invariant -/

/-- Placed files have consent, a request that was not put to the user has it already, the deferred of
the other requests says what the record says, and the active batch is open. -/
structure Respects (c : TransferClient) : Prop where
  placed : ∀ r ∈ c.placed, r.Consented
  direct : ∀ r, c.request = some r → r.deferred = none → r.Consented
  accepted : ∀ r k, c.request = some r → r.deferred = some k → c.decisions[k]? = some (some true) →
    r.Consented
  undecided : ∀ r k, c.request = some r → r.deferred = some k → c.decisions[k]? = some none →
    r.written = false ∧ r.rejected = false
  batch : ∀ b, c.activeBatchId = some b → b ∈ c.announced

theorem Quiet.respects {c c' : TransferClient} (h : Quiet c c') (hc : c.Respects) : c'.Respects where
  placed := by
    rw [h.placed]
    exact hc.placed
  direct := by
    intro r hr
    rcases h.request with hsame | hnone
    · exact hc.direct r (hsame ▸ hr)
    · simp [hnone] at hr
  accepted := by
    intro r k hr
    rw [h.decisions]
    rcases h.request with hsame | hnone
    · exact hc.accepted r k (hsame ▸ hr)
    · simp [hnone] at hr
  undecided := by
    intro r k hr
    rw [h.decisions]
    rcases h.request with hsame | hnone
    · exact hc.undecided r k (hsame ▸ hr)
    · simp [hnone] at hr
  batch := by
    rw [h.activeBatchId, h.announced]
    exact hc.batch

/-- A function that keeps quiet keeps the invariant. -/
theorem respects_of_quiet {α : Type} {m : Action α} {c : TransferClient} (hm : Stays Quiet m)
    (hc : c.Respects) : wp m (fun _ c' ↦ c'.Respects) c :=
  wp_mono (hm c) fun _ _ hquiet ↦ hquiet.respects hc

/-- The request of an active receiver that may go on has consent. -/
theorem Respects.consented {c : TransferClient} (hc : c.Respects) (hanswered : c.Answered)
    {r : RequestRecord} (hr : c.request = some r) : r.Consented := by
  cases hdeferred : r.deferred with
  | none => exact hc.direct r hr hdeferred
  | some k =>
    apply hc.accepted r k hr hdeferred
    simpa [Answered, hr, hdeferred] using hanswered

theorem wp_update_bind {α : Type} (f : TransferClient → TransferClient) (m : PUnit → Action α)
    (Q : Except KotlinException α → TransferClient → Prop) (c : TransferClient) :
    wp (update f >>= m) Q c ↔ wp (m ()) Q (f c) := Iff.rfl

/-! ## Chunks and the end of a transfer -/

/-- A chunk that was written for a request that may go on. -/
theorem Respects.written {c c' : TransferClient} (hc : c.Respects) (hanswered : c.Answered)
    (hquiet : Quiet c c') :
    ({ c' with request := c'.request.map fun r ↦ { r with written := true } } : TransferClient).Respects := by
  have hc' := hquiet.respects hc
  have hbefore {old : RequestRecord} (hold : c'.request = some old) : c.request = some old := by
    rcases hquiet.request with hsame | hnone
    · exact hsame ▸ hold
    · simp [hnone] at hold
  have hmarked : ∀ r, c'.request.map (fun r ↦ { r with written := true }) = some r → r.Consented := by
    intro r hr
    obtain ⟨old, hold, rfl⟩ := Option.map_eq_some_iff.mp hr
    have hconsented : old.Consented := hc.consented hanswered (hbefore hold)
    exact hconsented
  refine ⟨hc'.placed, fun r hr _ ↦ hmarked r hr, fun r k hr _ _ ↦ hmarked r hr, ?_, hc'.batch⟩
  intro r k hr hdeferred hundecided
  obtain ⟨old, hold, rfl⟩ := Option.map_eq_some_iff.mp hr
  have hk : old.deferred = some k := hdeferred
  have htrue : c.decisions[k]? = some (some true) := by
    simpa [Answered, hbefore hold, hk] using hanswered
  have hsame : c'.decisions = c.decisions := hquiet.decisions
  rw [hsame, htrue] at hundecided
  simp at hundecided

theorem Respects.onChunkReceived {c : TransferClient} (hc : c.Respects) (hanswered : c.Answered)
    (plaintext : Bytes) : wp (onChunkReceived plaintext) (fun _ c' ↦ c'.Respects) c := by
  unfold TransferClient.onChunkReceived
  apply wp_tryCatch_of (P := fun _ c' ↦ c'.Respects)
  · unfold writeChunk
    rw [wp_ofResult_bind]
    refine ⟨fun _ _ ↦ hc, fun chunk _ ↦ ?_⟩
    rw [wp_get_bind]
    cases c.activeReceiver with
    | none => exact hc
    | some receiver =>
      dsimp only
      apply wp_bind_of (quiet_onReceiver receiver _ c)
      · exact fun _ _ hquiet ↦ hquiet.respects hc
      · exact fun _ _ hquiet ↦ hc.written hanswered hquiet
  · exact fun _ _ hc' ↦ respects_of_quiet quiet_cancelReceiver hc'
  · exact fun _ _ hc' ↦ hc'

theorem Respects.onTransferComplete {c : TransferClient} (hc : c.Respects) (hanswered : c.Answered)
    (transferId : Text) : wp (onTransferComplete transferId) (fun _ c' ↦ c'.Respects) c := by
  unfold TransferClient.onTransferComplete
  rw [wp_get_bind]
  cases c.activeReceiver with
  | none => exact hc
  | some receiver =>
    dsimp only
    rw [wp_ite]
    refine ⟨fun _ ↦ hc, fun _ ↦ ?_⟩
    unfold completeTransfer
    apply wp_bind_of (quiet_markHandled transferId c) (fun _ _ hquiet ↦ hquiet.respects hc)
    intro _ c₁ hquiet₁
    apply wp_bind_of (quiet_onReceiver receiver _ c₁)
      (fun _ _ hquiet ↦ (hquiet₁.trans hquiet).respects hc)
    intro success c₂ hquiet₂
    have hquiet := hquiet₁.trans hquiet₂
    have hc₂ := hquiet.respects hc
    have hplaced : ∀ r ∈ (if success then c₂.placed ++ c₂.request.toList else c₂.placed), r.Consented := by
      intro r hr
      cases success with
      | false => exact hc₂.placed r hr
      | true =>
        rcases List.mem_append.mp hr with hold | hnew
        · exact hc₂.placed r hold
        · rcases hquiet.request with hsame | hnone
          · exact hc.consented hanswered (by simpa [hsame] using hnew)
          · simp [hnone] at hnew
    have hadded : ({ c₂ with placed := if success then c₂.placed ++ c₂.request.toList else c₂.placed } :
        TransferClient).Respects := ⟨hplaced, hc₂.direct, hc₂.accepted, hc₂.undecided, hc₂.batch⟩
    rw [wp_update_bind]
    exact respects_of_quiet
      (stays_bind quiet_dropReceiver fun _ ↦ quiet_sendEncryptedMessage _) hadded

/-! ## Requests and batches -/

/-- A request that is accepted at once has consent, whatever comes of the message. -/
theorem Respects.acceptAtOnce {c : TransferClient} (hc : c.Respects)
    (metadata : Kotlin.TransferMetadata)
    (hconsented : c.autoAcceptTransfers = true ∨ metadata.batchId ∈ c.announced) :
    wp (acceptAtOnce metadata) (fun _ c' ↦ c'.Respects) c := by
  have hrecord : (c.newRecord metadata none).Consented := by
    rcases hconsented with hauto | hopen
    · exact .inl hauto
    · exact .inr (.inl (decide_eq_true hopen))
  unfold TransferClient.acceptAtOnce
  rw [wp_update_bind]
  apply respects_of_quiet (quiet_sendEncryptedMessage _)
  refine ⟨hc.placed, fun r hr _ ↦ ?_, fun r k hr hdeferred ↦ ?_, fun r k hr hdeferred ↦ ?_, hc.batch⟩
  · obtain rfl := Option.some.inj hr
    exact hrecord
  · obtain rfl := Option.some.inj hr
    simp [newRecord] at hdeferred
  · obtain rfl := Option.some.inj hr
    simp [newRecord] at hdeferred

/-- The new deferred has not been completed. -/
theorem Respects.askUser {c : TransferClient} (hc : c.Respects) (metadata : Kotlin.TransferMetadata) :
    wp (askUser metadata) (fun _ c' ↦ c'.Respects) c := by
  have hnone : (c.decisions ++ [none])[c.decisions.length]? = some none := by simp
  refine ⟨hc.placed, fun r hr hdeferred ↦ ?_, fun r k hr hdeferred hcompleted ↦ ?_,
    fun r k hr hdeferred _ ↦ ?_, hc.batch⟩
  · obtain rfl := Option.some.inj hr
    simp [newRecord] at hdeferred
  · obtain rfl := Option.some.inj hr
    obtain rfl := Option.some.inj hdeferred
    exact absurd (hnone.symm.trans hcompleted) (by simp)
  · obtain rfl := Option.some.inj hr
    exact ⟨rfl, rfl⟩

theorem Respects.beginTransfer {c : TransferClient} (hc : c.Respects) (now : ℤ)
    (fields : String → Kotlin.MapValue) {isBatched : Bool}
    (hbatched : isBatched = true → c.activeBatchId = some ((fields "batch_id").textOr [])) :
    wp (beginTransfer now fields isBatched) (fun _ c' ↦ c'.Respects) c := by
  unfold TransferClient.beginTransfer
  rw [wp_ofResult_bind]
  refine ⟨fun _ _ ↦ hc, fun metadata hmetadata ↦ ?_⟩
  have hbatchId := Kotlin.TransferMetadata.fromMap_batchId hmetadata
  rw [wp_get_bind]
  apply wp_bind_of (quiet_onDisk _ c) (fun _ _ hquiet ↦ hquiet.respects hc)
  intro _ c₁ hquiet₁
  apply wp_bind_of (quiet_onNewReceiver _ _ c₁) (fun _ _ hquiet ↦ (hquiet₁.trans hquiet).respects hc)
  rintro ⟨outcome, receiver⟩ c₂ hquiet₂
  have hquiet := hquiet₁.trans hquiet₂
  cases outcome with
  | error e =>
    exact respects_of_quiet (stays_ite _ (quiet_sendEncryptedMessage _) (stays_throw _))
      (hquiet.respects hc)
  | ok u =>
    dsimp only
    unfold installReceiver
    rw [wp_update_bind, wp_get_bind, wp_ite]
    have hc₂ := hquiet.respects hc
    have hinstalled : ({ c₂ with
        activeReceiver := some receiver
        activeReceiverMeta := some metadata } : TransferClient).Respects :=
      ⟨hc₂.placed, hc₂.direct, hc₂.accepted, hc₂.undecided, hc₂.batch⟩
    refine ⟨fun haccepts ↦ hinstalled.acceptAtOnce metadata ?_, fun _ ↦ hinstalled.askUser metadata⟩
    rcases (Bool.or_eq_true _ _).mp haccepts with hisBatched | hauto
    · right
      rw [hbatchId]
      exact hc₂.batch _ (hquiet.activeBatchId.trans (hbatched hisBatched))
    · exact .inl hauto

theorem Respects.onTransferRequest {c : TransferClient} (hc : c.Respects) (now : ℤ)
    (fields : String → Kotlin.MapValue) :
    wp (onTransferRequest now fields) (fun _ c' ↦ c'.Respects) c := by
  unfold TransferClient.onTransferRequest
  rw [wp_get_bind, wp_ite]
  refine ⟨fun _ ↦ respects_of_quiet (quiet_sendEncryptedMessage _) hc, fun _ ↦ ?_⟩
  rw [wp_ite]
  refine ⟨fun _ ↦ respects_of_quiet (quiet_sendEncryptedMessage _) hc, fun _ ↦ ?_⟩
  apply wp_tryCatch_of (hc.beginTransfer now fields fun h ↦ (of_decide_eq_true h).2)
  · exact fun _ _ hc' ↦ respects_of_quiet (quiet_sendEncryptedMessage _) hc'
  · exact fun _ _ hc' ↦ hc'

theorem Respects.onBatchRequest {c : TransferClient} (hc : c.Respects) (batchId : Text) (totalItems : ℤ) :
    wp (onBatchRequest batchId totalItems) (fun _ c' ↦ c'.Respects) c := by
  unfold TransferClient.onBatchRequest
  rw [wp_ite]
  refine ⟨fun _ ↦ respects_of_quiet (quiet_sendEncryptedMessage _) hc, fun _ ↦ ?_⟩
  rw [wp_update_bind]
  apply respects_of_quiet (quiet_sendEncryptedMessage _)
  refine ⟨hc.placed, hc.direct, hc.accepted, hc.undecided, fun b hb ↦ ?_⟩
  obtain rfl := Option.some.inj hb
  exact List.mem_cons_self

theorem Respects.closeBatch {c : TransferClient} (hc : c.Respects) (batchId : Text) :
    wp (closeBatch batchId) (fun _ c' ↦ c'.Respects) c := by
  refine ⟨hc.placed, hc.direct, hc.accepted, hc.undecided, fun b hb ↦ ?_⟩
  change (if c.activeBatchId = some batchId then none else c.activeBatchId) = some b at hb
  by_cases hactive : c.activeBatchId = some batchId
  · simp [hactive] at hb
  · rw [if_neg hactive] at hb
    apply List.mem_filter.mpr
    refine ⟨hc.batch b hb, decide_eq_true fun heq ↦ hactive ?_⟩
    rw [hb, heq]

/-! ## The user's answer -/

/-- The request after an answer: its own record is noted, another one stays. -/
theorem noted_cases {request : Option RequestRecord} {k : ℕ} {note : RequestRecord → RequestRecord}
    {r : RequestRecord}
    (h : request.map (fun r ↦ if r.deferred = some k then note r else r) = some r) :
    (∃ old, request = some old ∧ old.deferred = some k ∧ r = note old) ∨
      request = some r ∧ r.deferred ≠ some k := by
  obtain ⟨old, hold, hsame⟩ := Option.map_eq_some_iff.mp h
  by_cases hk : old.deferred = some k
  · rw [if_pos hk] at hsame
    exact .inl ⟨old, hold, hk, hsame.symm⟩
  · rw [if_neg hk] at hsame
    exact .inr ⟨hsame ▸ hold, hsame ▸ hk⟩

/-- The first answer completes the deferred, and the record of the request notes it. -/
theorem Respects.decided {c : TransferClient} (hc : c.Respects) (value : Bool)
    (note : RequestRecord → RequestRecord) (hdeferred : ∀ r, (note r).deferred = r.deferred)
    (haccepts : ∀ r, r.written = false → r.rejected = false → value = true → (note r).Consented) :
    (c.decided value note).Respects := by
  unfold TransferClient.decided
  cases c.pendingIncomingTransferAccept with
  | none => exact hc
  | some k =>
    dsimp only
    by_cases hundecided : c.decisions[k]? = some none
    · rw [if_pos hundecided]
      have hset : (c.decisions.set k (some value))[k]? = some (some value) := by
        have hlt := (List.getElem?_eq_some_iff.mp hundecided).1
        simp [hlt]
      have hother {r : RequestRecord} {k' : ℕ} (hk' : r.deferred = some k') (hne : r.deferred ≠ some k) :
          (c.decisions.set k (some value))[k']? = c.decisions[k']? := by
        apply List.getElem?_set_ne
        rintro rfl
        exact hne hk'
      refine ⟨hc.placed, fun r hr hnone ↦ ?_, fun r k' hr hk' hcompleted ↦ ?_,
        fun r k' hr hk' hopen ↦ ?_, hc.batch⟩
      · rcases noted_cases hr with ⟨old, -, hk, rfl⟩ | ⟨hsame, -⟩
        · rw [hdeferred, hk] at hnone
          simp at hnone
        · exact hc.direct r hsame hnone
      · rcases noted_cases hr with ⟨old, hold, hk, rfl⟩ | ⟨hsame, hne⟩
        · rw [hdeferred, hk] at hk'
          obtain rfl := Option.some.inj hk'
          have hbefore := hc.undecided old k hold hk hundecided
          rw [hset] at hcompleted
          exact haccepts old hbefore.1 hbefore.2 (by simpa using hcompleted)
        · rw [hother hk' hne] at hcompleted
          exact hc.accepted r k' hsame hk' hcompleted
      · rcases noted_cases hr with ⟨old, -, hk, rfl⟩ | ⟨hsame, hne⟩
        · rw [hdeferred, hk] at hk'
          obtain rfl := Option.some.inj hk'
          rw [hset] at hopen
          simp at hopen
        · rw [hother hk' hne] at hopen
          exact hc.undecided r k' hsame hk' hopen
    · rw [if_neg hundecided]
      exact hc

theorem Respects.acceptIncomingTransfer {c : TransferClient} (hc : c.Respects) :
    (acceptIncomingTransfer c).2.Respects :=
  hc.decided true _ (fun _ ↦ rfl) fun r hwritten hrejected _ ↦
    .inr (.inr ⟨by simp [hwritten], hrejected⟩)

theorem Respects.rejectIncomingTransfer {c : TransferClient} (hc : c.Respects) :
    (rejectIncomingTransfer c).2.Respects :=
  hc.decided false _ (fun _ ↦ rfl) fun _ _ _ hvalue ↦ by simp at hvalue

/-! ## Runs -/

theorem Respects.receiveFrame {c : TransferClient} (hc : c.Respects) (now : ℤ) (frame : PeerFrame)
    (horderly : c.Orderly (.frame now frame)) : (receiveFrame now frame c).2.Respects := by
  have hprocess : wp (processFrame now frame) (fun _ c' ↦ c'.Respects) c := by
    cases frame with
    | chunk plaintext => exact hc.onChunkReceived horderly plaintext
    | message message =>
      cases message with
      | transferRequest fields => exact hc.onTransferRequest now fields
      | transferComplete transferId => exact hc.onTransferComplete horderly transferId
      | transferCancel transferId => exact respects_of_quiet (quiet_onTransferCancel transferId) hc
      | transferError => exact respects_of_quiet quiet_cancelReceiver hc
      | transferAccept transferId => exact respects_of_quiet (quiet_markHandled transferId) hc
      | transferReject transferId => exact respects_of_quiet (quiet_markHandled transferId) hc
      | transferResumeAccept transferId resumeChunkIndex =>
        exact respects_of_quiet (quiet_onResumeAccept transferId resumeChunkIndex) hc
      | transferResumeReject => exact respects_of_quiet quiet_onResumeReject hc
      | batchRequest batchId totalItems => exact hc.onBatchRequest batchId totalItems
      | batchCancel batchId => exact hc.closeBatch batchId
      | batchComplete batchId => exact hc.closeBatch batchId
      | other => exact hc
  exact wp_tryCatch_of hprocess (fun _ _ hc' ↦ respects_of_quiet quiet_endLoop hc') fun _ _ hc' ↦ hc'

/-- The coroutine of a request that is decided keeps quiet. -/
theorem quiet_runWaiting (c : TransferClient) (index : ℕ) (timedOut : Bool) :
    Quiet c (c.runWaiting index timedOut) := by
  unfold runWaiting
  cases c.waiting[index]? with
  | none => exact .refl c
  | some task =>
    obtain ⟨k, metadata⟩ := task
    have hresumed : Quiet c { c with waiting := c.waiting.eraseIdx index } :=
      ⟨.inl rfl, rfl, rfl, rfl, rfl⟩
    dsimp only
    cases timedOut with
    | true => exact hresumed.trans (quiet_decideIncoming metadata false _)
    | false =>
      cases c.decisions[k]? with
      | none => exact .refl c
      | some decision =>
        cases decision with
        | none => exact .refl c
        | some value => exact hresumed.trans (quiet_decideIncoming metadata value _)

theorem quiet_runResuming (c : TransferClient) (index : ℕ) (timedOut : Bool) :
    Quiet c (c.runResuming index timedOut) := by
  unfold runResuming
  cases c.resuming[index]? with
  | none => exact .refl c
  | some k =>
    have hresumed : Quiet c { c with resuming := c.resuming.eraseIdx index } :=
      ⟨.inl rfl, rfl, rfl, rfl, rfl⟩
    dsimp only
    cases timedOut with
    | true => exact hresumed.trans (quiet_abandonResume _)
    | false =>
      cases c.resumeAnswers[k]? with
      | none => exact .refl c
      | some answer =>
        cases answer with
        | none => exact .refl c
        | some value => exact hresumed

theorem Respects.step {c : TransferClient} (hc : c.Respects) (event : TransferEvent)
    (horderly : c.Orderly event) : (c.step event).Respects := by
  cases event with
  | startLoop peerKey =>
    unfold TransferClient.step
    dsimp only
    split
    · exact hc
    · refine ⟨hc.placed, hc.direct, hc.accepted, hc.undecided, fun b hb ↦ ?_⟩
      have hnone : c.activeBatchId = none := horderly
      exact absurd (hnone.symm.trans hb) (by simp)
  | frame now frame =>
    unfold TransferClient.step
    dsimp only
    split
    · exact hc.receiveFrame now frame horderly
    · exact hc
  | loopEnd =>
    unfold TransferClient.step
    dsimp only
    split
    · exact (quiet_endLoop c).respects hc
    · exact hc
  | setAutoAcceptTransfers value =>
    exact ⟨hc.placed, hc.direct, hc.accepted, hc.undecided, hc.batch⟩
  | acceptIncomingTransfer => exact hc.acceptIncomingTransfer
  | rejectIncomingTransfer => exact hc.rejectIncomingTransfer
  | cancelIncomingTransfer transferId => exact (quiet_cancelIncomingTransfer transferId c).respects hc
  | requestResume now record =>
    unfold TransferClient.step
    dsimp only
    split
    · exact (quiet_requestResume now record c).respects hc
    · exact hc
  | decideIncoming index timedOut => exact (quiet_runWaiting c index timedOut).respects hc
  | awaitResume index timedOut => exact (quiet_runResuming c index timedOut).respects hc
  | disk disk => exact ⟨hc.placed, hc.direct, hc.accepted, hc.undecided, hc.batch⟩

theorem respects_new (stagingDir : Path) (disk : Disk) (autoAcceptTransfers : Bool)
    (sendFaults : List Bool) : (new stagingDir disk autoAcceptTransfers sendFaults).Respects where
  placed := by simp [new]
  direct := by simp [new]
  accepted := by simp [new]
  undecided := by simp [new]
  batch := by simp [new]

theorem Respects.run {c : TransferClient} (hc : c.Respects) (events : List TransferEvent)
    (horderly : c.OrderlyRun events) : (c.run events).Respects := by
  induction events generalizing c with
  | nil => exact hc
  | cons event events ih => exact ih (hc.step event horderly.1) horderly.2

/-- In every run in which no chunk and no TRANSFER_COMPLETE arrives for a request that waits for the
user, and in which no session starts with a batch, every file that was placed has consent. -/
theorem consent_of_orderly (stagingDir : Path) (disk : Disk) (autoAcceptTransfers : Bool)
    (sendFaults : List Bool) (events : List TransferEvent)
    (horderly : (new stagingDir disk autoAcceptTransfers sendFaults).OrderlyRun events) :
    ∀ r ∈ ((new stagingDir disk autoAcceptTransfers sendFaults).run events).placed, r.Consented :=
  ((respects_new stagingDir disk autoAcceptTransfers sendFaults).run events horderly).placed

/-! ## A request that nobody accepted -/

def sampleTransferId : Text := Text.lit "00000000-0000-0000-0000-000000000001"

/-- The fields of a request for a file of one byte, in a batch. -/
def sampleFields (batchId : Text) : String → Kotlin.MapValue
  | "transfer_id" => .string sampleTransferId
  | "file_name" => .string (Text.lit "a.txt")
  | "file_size" => .number 1 1
  | "sha256" =>
    .string (Text.lit "6e340b9cffb37a989ca544e6bb780a2c78901d3fb33738768511a30617afa01d")
  | "chunk_count" => .number 1 1
  | "batch_id" => .string batchId
  | _ => .other

/-- The frame of its only chunk. -/
def sampleChunk : { plaintext : Bytes // isChunkFrame plaintext = true } where
  val := chunkMagic ++ toBigEndian 16 1 ++ toBigEndian 4 0 ++ toBigEndian 4 1 ++ [0]
  property := by decide

def sampleStagingDir : Path := [Text.lit "staging"]

/-- A disk with an empty staging directory. -/
def sampleDisk : Disk where
  nodes := fun p ↦ if p = [] ∨ p = sampleStagingDir then some .directory else none
  faults := fun _ ↦ []

def sampleClient : TransferClient := new sampleStagingDir sampleDisk false []

/-- The peer sends the chunk and TRANSFER_COMPLETE. -/
def sampleUpload : List TransferEvent :=
  [.frame 0 (.chunk sampleChunk), .frame 0 (.message (.transferComplete sampleTransferId))]

/-- A session with a request that is not part of a batch. -/
def sampleRequested : List TransferEvent :=
  [.startLoop [], .frame 0 (.message (.transferRequest (sampleFields [])))]

def sampleAccepted : List TransferEvent :=
  sampleRequested ++ [.acceptIncomingTransfer] ++ sampleUpload

/-- The file of a request that the user accepted is placed. -/
theorem consent_of_orderly_sample :
    (sampleClient.run sampleAccepted).placed.length = 1 ∧
      ∀ r ∈ (sampleClient.run sampleAccepted).placed, r.Consented :=
  ⟨by decide +kernel,
    consent_of_orderly sampleStagingDir sampleDisk false [] sampleAccepted (by decide +kernel)⟩

/-- The file of a request that waits for the user is placed when the peer does not wait. -/
theorem placed_without_consent :
    ∃ stagingDir disk autoAcceptTransfers sendFaults events,
      ∃ r ∈ ((new stagingDir disk autoAcceptTransfers sendFaults).run events).placed, ¬r.Consented := by
  refine ⟨sampleStagingDir, sampleDisk, false, [], sampleRequested ++ sampleUpload,
    ⟨false, false, some 0, false, false, true⟩, ?_, by decide⟩
  have hplaced : (sampleClient.run (sampleRequested ++ sampleUpload)).placed =
      [⟨false, false, some 0, false, false, true⟩] := by
    decide +kernel
  exact List.mem_of_mem_head? (congrArg List.head? hplaced)

/-- A batch of one session lets a request of the next one through without a question. -/
theorem placed_from_stale_batch :
    ¬∀ r ∈ (sampleClient.run ([.startLoop [], .frame 0 (.message (.batchRequest sampleTransferId 1)),
        .loopEnd, .startLoop [], .frame 0 (.message (.transferRequest (sampleFields sampleTransferId)))] ++
          sampleUpload)).placed, r.Consented := by
  decide +kernel

end TransferClient

end Ferry
