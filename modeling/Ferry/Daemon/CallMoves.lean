import Ferry.Daemon.Awaits
import Ferry.Daemon.Moves

/-!
# What the other coroutines do to the incoming transfers

The ways of the calls of the user, of the timers, and of a session loop that resumes or ends; and with
those of a frame, the ways of a step.
-/

namespace Ferry

open Exec Text

namespace Daemon

variable {s t u : Daemon}

/-! ## The calls of the user -/

/-- `prepare_resume_request` succeeds on the transfer of an INTERRUPTED record. -/
def preparesResume (s : Daemon) (now : ℤ) (info : InterruptedTransferInfo) : Bool :=
  match TransferMetadata.fromDict now info.originalMetadata with
  | .error _ => false
  | .ok metadata => (IncomingTransfer.prepareResumeRequest (some info.bytesReceived)
      (some info.resumeChunkIndex) ⟨s.disk, restored metadata s.downloadDir⟩).1.isOk

/-- What the first segment of a call does to the incoming transfers. -/
inductive CallMove (s : Daemon) : Event → Daemon → Prop
  | quiet {event t} (h : Quiet s t) : CallMove s event t
  | paired {remoteAddr now uuid ps t} (hactive : s.activeSessions.get remoteAddr = some ps)
      (hstate : (s.sessions ps).state = .waitingForLocalDecision)
      (h : Quiet (s.pairWith ps now uuid) t) : CallMove s (.acceptPairing remoteAddr now uuid) t
  | accepted {remoteAddr transferId object ps incoming t}
      (hregistered : s.ledger.incomingTransfers.get transferId = some object)
      (hactive : s.activeSessions.get remoteAddr = some ps)
      (hstate : (∃ w, IncomingTransfer.begin ⟨s.disk, s.objects object⟩ = (.ok (), w)) ∧
          incoming.state = .transferring ∨
        (∃ e w, IncomingTransfer.begin ⟨s.disk, s.objects object⟩ = (.error e, w) ∧
          e.isTransferError = true) ∧ incoming.state = .failed ∨
        incoming.state = .accepted ∨ incoming.state = (s.objects object).state)
      (h : Quiet ((s.mapLedger fun ledger ↦ ledger.accept transferId object).setObject object
        incoming) t) :
      CallMove s (.acceptTransfer remoteAddr transferId) t
  | rejectedAway {remoteAddr transferId object t}
      (hregistered : s.ledger.incomingTransfers.get transferId = some object)
      (h : Quiet (s.mapLedger fun ledger ↦ ledger.popIncoming transferId) t) :
      CallMove s (.rejectTransfer remoteAddr transferId) t
  | rejected {remoteAddr transferId object incoming t}
      (hregistered : s.ledger.incomingTransfers.get transferId = some object)
      (h : Quiet ((s.mapLedger fun ledger ↦
        (ledger.popIncoming transferId).cancelTimeout transferId).setObject object incoming) t) :
      CallMove s (.rejectTransfer remoteAddr transferId) t
  | cancelled {transferId reason now object incoming t}
      (hregistered : s.ledger.incomingTransfers.get transferId = some object)
      (h : Quiet ((s.mapLedger fun ledger ↦ ledger.drop transferId).setObject object incoming) t) :
      CallMove s (.cancelTransfer transferId reason now) t
  | discarded {transferId t} (h : Quiet (s.mapLedger fun ledger ↦ ledger.forget transferId) t) :
      CallMove s (.discard transferId) t
  | requested {remoteAddr transferId now ps info incoming t}
      (hactive : s.activeSessions.get remoteAddr = some ps)
      (hrecord : s.db.interrupted transferId = some info)
      (hprepared : s.preparesResume now info = true)
      (hstate : incoming.state = .interrupted)
      (h : Quiet ((s.addObject incoming).mapLedger fun ledger ↦
        ledger.register transferId s.next ps) t) :
      CallMove s (.requestResume remoteAddr transferId now) t

theorem acceptPairing_move (remoteAddr : Text) (now : ℤ) (uuid : Text) (s : Daemon) :
    wp (acceptPairing remoteAddr now uuid)
      (fun _ t ↦ CallMove s (.acceptPairing remoteAddr now uuid) t) s := by
  unfold acceptPairing
  rw [wp_get_bind]
  split
  · exact .quiet (within_refl s)
  · next ps hactive =>
    have hsent : Keeps [] (do
        sendEncrypted ps (.pairDecision true)
        pure (none : Option Await)) :=
      touches_bind (keeps_sendEncrypted _ _) fun _ ↦ touches_pure _
    dsimp only
    split
    · exact wp_quiet (touches_bind (keeps_transitionSession _ _) fun _ ↦ hsent.mono (by simp))
        (by decide) fun _ _ h ↦ .quiet h
    · split
      · next hstate =>
        have hmove : ∀ {t}, Quiet s t ∨ Quiet (s.pairWith ps now uuid) t →
            CallMove s (.acceptPairing remoteAddr now uuid) t := fun h ↦
          h.elim .quiet (.paired hactive hstate)
        apply wp_bind_of (establish_paired ps now uuid s)
        · exact fun _ _ h ↦ hmove h
        · exact fun _ t h ↦ wp_quiet hsent (by decide) fun _ _ hu ↦
            hmove (h.imp (fun h ↦ Within.trans h hu) fun h ↦ Within.trans h hu)
      · exact wp_quiet hsent (by decide) fun _ _ h ↦ .quiet h

theorem acceptTransfer_move (remoteAddr transferId : Text) (s : Daemon) :
    wp (acceptTransfer remoteAddr transferId)
      (fun _ t ↦ CallMove s (.acceptTransfer remoteAddr transferId) t) s := by
  unfold acceptTransfer
  rw [wp_get_bind]
  split
  · exact wp_quiet (keeps_acceptBatch _ _) (by decide) fun _ _ h ↦ .quiet h
  · next object hregistered =>
    split
    · exact .quiet (within_refl s)
    · next ps hactive =>
      rw [wp_onLedger_bind, wp_bind]
      apply wp_onObject_quiet (IncomingTransfer.begin_state _)
      intro r w t hr hstate hquiet
      have hmove : ∀ {u}, Quiet t u → CallMove s (.acceptTransfer remoteAddr transferId) u := by
        refine fun hu ↦ .accepted hregistered hactive ?_ (hquiet.trans hu)
        rcases hstate with ⟨⟨⟨⟩, hok⟩, hstate⟩ | ⟨⟨e, he, htransfer⟩, hstate⟩ | ⟨-, hstate⟩
        · exact .inl ⟨⟨_, Prod.ext (hr.symm.trans hok) rfl⟩, hstate⟩
        · exact .inr (.inl ⟨⟨e, _, Prod.ext (hr.symm.trans he) rfl, htransfer⟩, hstate⟩)
        · exact .inr (.inr hstate)
      cases r with
      | error e => exact hmove (within_refl t)
      | ok _ =>
        exact wp_quiet (touches_bind (keeps_sendEncrypted _ _) fun _ ↦ touches_pure _) (by decide)
          fun _ _ hu ↦ hmove hu

theorem rejectTransfer_move (remoteAddr transferId : Text) (s : Daemon) :
    wp (rejectTransfer remoteAddr transferId)
      (fun _ t ↦ CallMove s (.rejectTransfer remoteAddr transferId) t) s := by
  unfold rejectTransfer
  rw [wp_get_bind]
  split
  · exact wp_quiet (keeps_rejectBatch _ _) (by decide) fun _ _ h ↦ .quiet h
  · next object hregistered =>
    rw [wp_onLedger_bind]
    split
    · exact .rejectedAway hregistered (within_refl _)
    · rw [wp_onLedger_bind]
      apply wp_cancelObject_bind
      intro incoming t _ hquiet
      exact wp_quiet (touches_bind (keeps_sendEncrypted _ _) fun _ ↦ touches_pure _) (by decide)
        fun _ _ hu ↦ .rejected hregistered (hquiet.trans hu)

theorem cancelIncoming_quiet (transferId reason : Text) (object : ℕ) (now : ℤ) (s : Daemon) :
    wp (cancelIncoming transferId reason object now) (fun _ t ↦ ∃ incoming,
      Quiet ((s.mapLedger fun ledger ↦ ledger.drop transferId).setObject object incoming) t) s := by
  unfold cancelIncoming
  rw [wp_get_bind, wp_onLedger_bind]
  apply wp_cancelObject_bind
  intro incoming t _ hquiet
  split
  · exact wp_quiet (keeps_incomingCancelled _ _ _ _) (by decide) fun _ _ hu ↦
      ⟨incoming, hquiet.trans hu⟩
  · exact wp_quiet (keeps_sendQuietly _ _ _ (keeps_incomingCancelled _ _ _ _)) (by decide)
      fun _ _ hu ↦ ⟨incoming, hquiet.trans hu⟩

theorem cancelTransfer_move (transferId reason : Text) (now : ℤ) (s : Daemon) :
    wp (cancelTransfer transferId reason now)
      (fun _ t ↦ CallMove s (.cancelTransfer transferId reason now) t) s := by
  unfold cancelTransfer
  rw [wp_get_bind]
  split
  · exact wp_quiet (touches_bind ((keeps_popBatch _).mono (by decide)) fun _ ↦
      (keeps_broadcastCancel _ _ _ _ _).mono (by decide) : Keeps [.activeBatches, .database, .outcomes] _)
      (by decide) fun _ _ h ↦ .quiet h
  · split
    · exact wp_quiet (touches_bind ((keeps_onOutgoing _ _).mono (by decide)) fun _ ↦
        touches_bind ((keeps_signalCancel _ _).mono (by decide)) fun _ ↦ touches_pure _ :
        Keeps [.disk, .outgoing, .waits] _) (by decide) fun _ _ h ↦ .quiet h
    · split
      · next object hregistered =>
        apply wp_mono (cancelIncoming_quiet transferId reason object now s)
        rintro r t ⟨incoming, h⟩
        exact .cancelled hregistered h
      · exact .quiet (within_refl s)

theorem discardInterruptedTransfer_move (transferId : Text) (s : Daemon) :
    wp (discardInterruptedTransfer transferId) (fun _ t ↦ CallMove s (.discard transferId) t) s := by
  have hdisk : ∀ m : Exec PyError Disk Unit,
      Keeps [.disk] (zoom Daemon.disk (fun disk s ↦ { s with disk }) m) := by
    intro m s p hp
    cases p <;> simp_all [Same, zoom]
  have hrest : ∀ u, Quiet s u → wp (do
      onLedger fun ledger ↦ ledger.forget transferId
      tryCatch (onDb (Database.deleteInterruptedTransfer transferId)) fun _ ↦ pure ()
      pure (none : Option Await)) (fun _ t ↦ CallMove s (.discard transferId) t) u := by
    intro u hu
    rw [wp_onLedger_bind]
    exact wp_quiet (touches_bind (touches_tryCatch
      (keeps_onDb (Database.bookkeeps_deleteInterruptedTransfer transferId)) fun _ ↦ touches_pure _)
      fun _ ↦ touches_pure _) (by decide) fun _ _ hv ↦
        .discarded (Within.trans (Quiet.mapLedger hu _) hv)
  unfold discardInterruptedTransfer
  rw [wp_get_bind]
  dsimp only
  rw [wp_ite]
  refine ⟨fun _ ↦ ?_, fun _ ↦ hrest s (within_refl s)⟩
  refine wp_quiet_bind (touches_tryCatch (hdisk _) fun e ↦
    touches_ite _ (touches_pure _) (touches_throw _)) (by decide) (fun e t ht ↦ .quiet ht)
    fun _ t ht ↦ hrest t ht

theorem prepareResumeRequest_state (expectedBytes expectedChunkIndex : Option ℤ) (w : World) :
    wp (IncomingTransfer.prepareResumeRequest expectedBytes expectedChunkIndex)
      (fun _ w' ↦ w'.self.state = w.self.state) w :=
  IncomingTransfer.wp_same_state (IncomingTransfer.assigns_prepareResumeRequest _ _) (by decide) w

/-- A suspended `request_resume` has just registered a new object. -/
def LeavesNew (s t : Daemon) (left : Await) : Prop :=
  ∀ transferId object, left.resuming = some (transferId, object) →
    object = s.next ∧ s.next < t.next ∧ t.ledger.incomingTransfers.get transferId = some object

/-- What a call does, and what it leaves behind. -/
def CallMoved (s : Daemon) (event : Event) (r : Except PyError (Option Await)) (t : Daemon) : Prop :=
  CallMove s event t ∧ ∀ left, r = .ok (some left) → LeavesNew s t left

theorem callMoved_of_resumesNothing {m : Call} {event : Event} (hm : ResumesNothing m)
    (h : wp m (fun _ t ↦ CallMove s event t) s) : wp m (CallMoved s event) s := by
  apply wp_mono (wp_and h (hm s))
  rintro r t ⟨hmove, hleft⟩
  refine ⟨hmove, fun left hr transferId object hresuming ↦ ?_⟩
  rw [hleft (some left) hr left rfl] at hresuming
  exact (nomatch hresuming)

theorem sendResumeRequest_move {remoteAddr transferId : Text} {now : ℤ} {ps : ℕ}
    {info : InterruptedTransferInfo} {metadata : TransferMetadata}
    (hactive : s.activeSessions.get remoteAddr = some ps)
    (hrecord : s.db.interrupted transferId = some info)
    (hmetadata : TransferMetadata.fromDict now info.originalMetadata = .ok metadata)
    (ht : s.Queried t) :
    wp (sendResumeRequest ps transferId info metadata)
      (CallMoved s (.requestResume remoteAddr transferId now)) t := by
  have hquiet : Quiet s t := ht.quiet
  have hnext : t.next = s.next := by
    obtain ⟨faults, rfl⟩ := ht
    rfl
  have hdisk : t.disk = s.disk ∧ t.downloadDir = s.downloadDir := by
    obtain ⟨faults, rfl⟩ := ht
    exact ⟨rfl, rfl⟩
  have hprepared : wp (tryCatch (do
      let payload ← onObject t.next
        (IncomingTransfer.prepareResumeRequest (some info.bytesReceived) (some info.resumeChunkIndex))
      pure (some payload)) fun _ ↦ pure none) (fun r u ↦ ∃ incoming, incoming.state = .interrupted ∧
        Quiet (s.addObject incoming) u ∧
        ∀ payload, r = .ok (some payload) → s.preparesResume now info = true)
      (t.addObject (restored metadata t.downloadDir)) := by
    have hcall : wp (do
        let payload ← onObject t.next
          (IncomingTransfer.prepareResumeRequest (some info.bytesReceived)
            (some info.resumeChunkIndex))
        pure (some payload)) (fun r u ↦ ∃ incoming, incoming.state = .interrupted ∧
          Quiet (s.addObject incoming) u ∧
          ∀ payload, r = .ok (some payload) → s.preparesResume now info = true)
        (t.addObject (restored metadata t.downloadDir)) := by
      rw [wp_bind]
      apply wp_onObject_quiet (prepareResumeRequest_state _ _ _)
      intro r w u hr hstate hu
      rw [setObject_addObject_self] at hu
      rw [addObject_self] at hstate hr
      have hadded := (Quiet.addObject hquiet hnext w.self).trans hu
      cases r with
      | error e => exact ⟨w.self, hstate, hadded, fun _ h ↦ nomatch h⟩
      | ok payload =>
        refine ⟨w.self, hstate, hadded, fun _ _ ↦ ?_⟩
        have hok := congrArg Except.isOk hr.symm
        change (IncomingTransfer.prepareResumeRequest (some info.bytesReceived)
          (some info.resumeChunkIndex) ⟨t.disk, restored metadata t.downloadDir⟩).1.isOk = true at hok
        rw [hdisk.1, hdisk.2] at hok
        simp only [preparesResume, hmetadata, hok]
    exact wp_tryCatch_of hcall (fun _ _ ⟨incoming, hstate, hu, _⟩ ↦
      ⟨incoming, hstate, hu, fun _ h ↦ nomatch h⟩) fun _ _ h ↦ h
  unfold sendResumeRequest
  rw [wp_get_bind, wp_newObject_bind]
  apply wp_bind_of hprepared
  · rintro e u ⟨incoming, -, hu, -⟩
    exact ⟨.quiet ((quiet_addObject s incoming).trans hu), fun _ h ↦ nomatch h⟩
  · rintro prepared u ⟨incoming, hstate, hu, hpayload⟩
    cases prepared with
    | none => exact ⟨.quiet ((quiet_addObject s incoming).trans hu), fun _ h ↦ nomatch h⟩
    | some payload =>
      dsimp only
      rw [wp_onLedger_bind, hnext]
      have hregistered := Quiet.mapLedger hu fun ledger ↦ ledger.register transferId s.next ps
      have hmove : ∀ {v}, Quiet (u.mapLedger fun ledger ↦ ledger.register transferId s.next ps) v →
          CallMove s (.requestResume remoteAddr transferId now) v := fun hv ↦
        .requested hactive hrecord (hpayload payload rfl) hstate (Within.trans hregistered hv)
      refine wp_quiet_bind (keeps_sendEncrypted _ _) (by decide)
        (fun _ _ hv ↦ ⟨hmove hv, fun _ h ↦ nomatch h⟩) fun _ v hv ↦ ⟨hmove hv, ?_⟩
      have hadded : s.next + 1 ≤ u.next := Quiet.next hu
      have hkept : u.next ≤ v.next := Quiet.next (s := u.mapLedger _) hv
      have hget : v.ledger.incomingTransfers.get transferId = some s.next := by
        rw [Quiet.ledger hv, mapLedger_ledger]
        exact Dict.get_set_self _ _ _
      rintro left ⟨⟩ _ _ ⟨⟩
      exact ⟨rfl, hadded.trans hkept, hget⟩

theorem requestResume_move (remoteAddr transferId : Text) (now : ℤ) (s : Daemon) :
    wp (requestResume remoteAddr transferId now)
      (CallMoved s (.requestResume remoteAddr transferId now)) s := by
  unfold requestResume
  rw [wp_get_bind]
  split
  · exact ⟨.quiet (within_refl s), fun _ h ↦ nomatch h⟩
  · next ps hactive =>
    apply wp_bind_of (queried_interrupted transferId s)
    · exact fun e t ht ↦ ⟨.quiet ht.1.quiet, fun _ h ↦ nomatch h⟩
    · rintro found t ⟨ht, hfound⟩
      cases found with
      | none => exact ⟨.quiet ht.quiet, fun _ h ↦ nomatch h⟩
      | some info =>
        dsimp only
        split
        · exact ⟨.quiet ht.quiet, fun _ h ↦ nomatch h⟩
        · next metadata hmetadata =>
          exact sendResumeRequest_move hactive (hfound (some info) rfl).symm hmetadata ht

/-! ## Coroutines after an await -/

/-- `request_resume` gives up after the answer. -/
def abandonsResume (s : Daemon) (failed : Bool) (object : ℕ) (resumeChunkIndex : ℤ) (waiter : ℕ) :
    Bool :=
  failed || (s.responses waiter).headD .reject ≠ .accept ||
    !(IncomingTransfer.resume resumeChunkIndex ⟨s.disk, s.objects object⟩).1.isOk

/-- What a suspended coroutine does to the incoming transfers when it is resumed. -/
inductive AwaitMove (s : Daemon) : Bool → Await → Daemon → Prop
  | quiet {failed await t} (h : Quiet s t) : AwaitMove s failed await t
  | resumed {failed transferId object ps resumeChunkIndex waiter incoming t}
      (hstate : incoming.state = .resuming) (h : Quiet (s.setObject object incoming) t) :
      AwaitMove s failed (.resumeResponse transferId object ps resumeChunkIndex waiter) t
  | abandoned {failed transferId object ps resumeChunkIndex waiter incoming t}
      (habandons : s.abandonsResume failed object resumeChunkIndex waiter = true)
      (h : Quiet ((s.setObject object incoming).mapLedger fun ledger ↦ ledger.forget transferId) t) :
      AwaitMove s failed (.resumeResponse transferId object ps resumeChunkIndex waiter) t

theorem setObject_objects_self (s : Daemon) (object : ℕ) :
    s.setObject object (s.objects object) = s := by
  simp [setObject]

theorem resumeAnswered_move {failed : Bool} {transferId : Text} {object ps : ℕ}
    {resumeChunkIndex : ℤ} {waiter : ℕ} {response : Response} {t : Daemon} (hquiet : Quiet s t)
    (hworld : t.disk = s.disk ∧ t.objects = s.objects)
    (hresponse : failed = true ∧ response = .reject ∨
      response = (s.responses waiter).headD .reject) :
    wp (resumeAnswered transferId object resumeChunkIndex response)
      (fun _ u ↦ AwaitMove s failed (.resumeResponse transferId object ps resumeChunkIndex waiter) u)
      t := by
  have habandoned : ∀ u incoming, s.abandonsResume failed object resumeChunkIndex waiter = true →
      Quiet (s.setObject object incoming) u → wp (abandonResume transferId) (fun _ u ↦
        AwaitMove s failed (.resumeResponse transferId object ps resumeChunkIndex waiter) u) u :=
    fun u incoming habandons hu ↦ .abandoned habandons (Quiet.mapLedger hu _)
  unfold resumeAnswered
  rw [wp_ite]
  constructor
  · intro _
    have hresume : wp (do
        onObject object (IncomingTransfer.resume resumeChunkIndex)
        pure (none : Option Await)) (fun r u ↦ ∃ incoming, Quiet (s.setObject object incoming) u ∧
          (∀ a, r = .ok a → incoming.state = .resuming) ∧
          ∀ e, r = .error e → s.abandonsResume failed object resumeChunkIndex waiter = true) t := by
      rw [wp_bind]
      apply wp_onObject_quiet (IncomingTransfer.resume_state _ _)
      intro r w u hr hstate hu
      have hset := (hquiet.setObject object w.self).trans hu
      rw [hworld.1, hworld.2] at hr
      cases r with
      | error e =>
        refine ⟨w.self, hset, fun a ha ↦ (nomatch ha), fun _ _ ↦ ?_⟩
        simp [abandonsResume, ← hr, Except.isOk, Except.toBool]
      | ok _ => exact ⟨w.self, hset, fun a _ ↦ hstate _ rfl, fun e he ↦ (nomatch he)⟩
    apply wp_tryCatch_of hresume
    · rintro e u ⟨incoming, hu, -, habandons⟩
      exact habandoned u incoming (habandons e rfl) hu
    · rintro a u ⟨incoming, hu, hstate, -⟩
      exact .resumed (hstate a rfl) hu
  · intro hrejected
    have habandons : s.abandonsResume failed object resumeChunkIndex waiter = true := by
      rcases hresponse with ⟨hfailed, -⟩ | hresponse
      · simp [abandonsResume, hfailed]
      · simp only [abandonsResume, ← hresponse]
        simp [hrejected]
    exact habandoned t (s.objects object) habandons (by rwa [setObject_objects_self])

theorem transferResponse_response (ps : ℕ) (transferId : Text) (waiter : ℕ) (s : Daemon) :
    wp (transferResponse ps transferId waiter) (fun r t ↦ (t.disk = s.disk ∧ t.objects = s.objects) ∧
      ∀ response, r = .ok response → response = (s.responses waiter).headD .reject) s := by
  unfold transferResponse
  rw [wp_get_bind, wp_raiseIf_bind]
  refine ⟨fun _ ↦ ⟨⟨rfl, rfl⟩, fun _ h ↦ nomatch h⟩, fun _ ↦ ?_⟩
  exact ⟨⟨rfl, rfl⟩, fun _ h ↦ (Except.ok.inj h).symm⟩

theorem resumeCall_move (failed : Bool) (now : Clock) (await : Await) (s : Daemon) :
    wp (resumeCall failed now await) (fun _ t ↦ AwaitMove s failed await t) s := by
  unfold resumeCall
  split
  · exact wp_quiet (keeps_rejectionSent _) (by decide) fun _ _ h ↦ .quiet h
  · exact wp_quiet (keeps_disconnectSession _) (by decide) fun _ _ h ↦ .quiet h
  · exact wp_quiet (keeps_broadcastCancel _ _ _ _ _) (by decide) fun _ _ h ↦ .quiet h
  · exact wp_quiet (touches_get_bind fun _ ↦ keeps_incomingCancelled _ _ _ _) (by decide)
      fun _ _ h ↦ .quiet h
  · exact wp_quiet (touches_bind ((keeps_drained _).mono (by simp)) fun _ ↦
      touches_bind (keeps_waitForTransferResponse _ _) fun _ ↦ touches_pure _) (by decide)
      fun _ _ h ↦ .quiet h
  · rw [wp_ite]
    refine ⟨fun hfailed ↦ ?_, fun _ ↦ ?_⟩
    · rw [wp_bind, wp_pure]
      exact resumeAnswered_move (within_refl s) ⟨rfl, rfl⟩ (.inl ⟨hfailed, rfl⟩)
    · apply wp_bind_of (wp_and (quiet_of_keeps (keeps_transferResponse _ _ _) (by decide) s)
        (transferResponse_response _ _ _ s))
      · exact fun _ _ h ↦ .quiet h.1
      · exact fun _ _ h ↦ resumeAnswered_move h.1 h.2.1 (.inr (h.2.2 _ rfl))
  · exact wp_quiet (keeps_resumeSend _ _ _ _) (by decide) fun _ _ h ↦ .quiet h
  · exact wp_quiet (keeps_resumeBatch _ _ _ _) (by decide) fun _ _ h ↦ .quiet h

/-- What a firing acceptance timeout does to the incoming transfers. -/
inductive ExpiryMove (s : Daemon) (timer : AcceptanceTimer) : Daemon → Prop
  | quiet {t : Daemon} (hnone : s.ledger.incomingTransfers.get timer.transferId = none) (h : Quiet s t) :
      ExpiryMove s timer t
  | expired {object incoming t}
      (hregistered : s.ledger.incomingTransfers.get timer.transferId = some object)
      (h : Quiet ((s.mapLedger fun ledger ↦
        (ledger.forget timer.transferId).popTimeout timer.transferId).setObject object incoming) t) :
      ExpiryMove s timer t

theorem acceptanceTimeout_move (timer : AcceptanceTimer) (s : Daemon) :
    wp (acceptanceTimeout timer) (fun _ t ↦ ExpiryMove s timer t) s := by
  unfold acceptanceTimeout
  rw [wp_get_bind]
  split
  · next hnone => exact .quiet hnone (within_refl s)
  · next object hregistered =>
    rw [wp_onLedger_bind]
    apply wp_cancelObject_bind
    intro incoming t _ hquiet
    exact wp_quiet (keeps_sendQuietly _ _ _ (keeps_rejectionSent _)) (by decide) fun _ _ hu ↦
      .expired hregistered (hquiet.trans hu)

/-! ## Session loops after an await -/

/-- A handler awaits no TRANSFER_RESULT. -/
def AwaitsNoResult (r : Except PyError LoopFlow) : Prop :=
  ∀ transferId object success sha256, r ≠ .ok (.await (.transferResult transferId object success sha256))

/-- What a handler does to the incoming transfers when it is resumed. -/
inductive HandlerMove (s : Daemon) : Bool → LoopAwait → Except PyError LoopFlow → Daemon → Prop
  | quiet {failed await r t} (hr : AwaitsNoResult r) (h : Quiet s t)
      (hawait : ∀ transferId object success sha256,
        await = .transferResult transferId object success sha256 → failed = true ∧ ∃ e, r = .error e) :
      HandlerMove s failed await r t
  | forgotten {transferId object success sha256 r t} (hr : AwaitsNoResult r)
      (h : Quiet (s.mapLedger fun ledger ↦ ledger.forget transferId) t) :
      HandlerMove s false (.transferResult transferId object success sha256) r t

theorem awaitsNoResult_next : AwaitsNoResult (.ok .next) := fun _ _ _ _ h ↦ nomatch h

theorem awaitsNoResult_error (e : PyError) : AwaitsNoResult (.error e) := fun _ _ _ _ h ↦ nomatch h

/-- A quiet answer is awaited as one. -/
theorem replyQuietly_awaits (ps : ℕ) (frame : Frame) (s : Daemon) :
    wp (replyQuietly ps frame) (fun r t ↦ AwaitsNoResult r ∧ Quiet s t) s := by
  apply wp_and
  · unfold replyQuietly sendQuietly
    apply wp_bind_of (P := fun _ _ ↦ True) trivial
    · exact fun e _ _ ↦ awaitsNoResult_error e
    · intro written t _
      cases written
      · exact awaitsNoResult_next
      · exact fun _ _ _ _ h ↦ nomatch h
  · exact quiet_of_keeps (keeps_replyQuietly _ _) (by decide) s

/-- The end of a handler whose TRANSFER_RESULT is sent. -/
theorem resultSent_quiet (ps : ℕ) (transferId : Text) (object : ℕ) (success : Bool) (sha256 : Text)
    (s : Daemon) :
    wp (resultSent ps transferId object success sha256) (fun r t ↦ AwaitsNoResult r ∧
      Quiet (s.mapLedger fun ledger ↦ ledger.forget transferId) t) s := by
  unfold resultSent
  rw [wp_onLedger_bind, wp_get_bind]
  dsimp only
  rw [wp_ite]
  constructor
  · intro _
    exact wp_quiet_bind (keeps_reportIncoming _ _ _ (by split <;> decide) _ _) (by decide)
      (fun e _ h ↦ ⟨awaitsNoResult_error e, h⟩) fun _ _ h ↦ ⟨awaitsNoResult_next, h⟩
  · intro _
    exact wp_quiet_bind (keeps_countBatchItem _ _ _) (by decide)
      (fun e _ h ↦ ⟨awaitsNoResult_error e, h⟩) fun _ _ h ↦ ⟨awaitsNoResult_next, h⟩

theorem resumeHandler_move (ps : ℕ) (failed : Bool) (await : LoopAwait) (s : Daemon) :
    wp (resumeHandler ps failed await) (HandlerMove s failed await) s := by
  unfold resumeHandler
  split
  · refine wp_quiet_bind (keeps_drained _) (by decide) (fun e _ h ↦ ?_) fun _ _ h ↦ ?_
    · exact .quiet (awaitsNoResult_error e) h fun _ _ _ _ h ↦ nomatch h
    · exact .quiet awaitsNoResult_next h fun _ _ _ _ h ↦ nomatch h
  · exact .quiet awaitsNoResult_next (within_refl s) fun _ _ _ _ h ↦ nomatch h
  · rw [wp_ite]
    refine ⟨fun _ ↦ ?_, fun _ ↦ ?_⟩
    · exact wp_mono (replyQuietly_awaits _ _ s) fun _ _ h ↦ .quiet h.1 h.2 fun _ _ _ _ h ↦ nomatch h
    · exact .quiet awaitsNoResult_next (within_refl s) fun _ _ _ _ h ↦ nomatch h
  · refine wp_quiet_bind (keeps_reportIncoming _ _ _ (by decide) _ _) (by decide) (fun e _ h ↦ ?_)
      fun _ _ h ↦ ?_
    · exact .quiet (awaitsNoResult_error e) h fun _ _ _ _ h ↦ nomatch h
    · exact .quiet awaitsNoResult_next h fun _ _ _ _ h ↦ nomatch h
  · unfold drained
    rw [wp_raiseIf_bind]
    refine ⟨fun hfailed ↦ ?_, fun hfailed ↦ ?_⟩
    · exact .quiet (awaitsNoResult_error _) (within_refl s) fun _ _ _ _ _ ↦ ⟨hfailed, _, rfl⟩
    · rw [Bool.not_eq_true] at hfailed
      subst hfailed
      exact wp_mono (resultSent_quiet _ _ _ _ _ s) fun _ _ h ↦ .forgotten h.1 h.2

/-! ## The end of a session loop -/

/-- Every transfer of a list is dropped from the four dictionaries. -/
def Ledger.dropAll (ledger : Ledger) (items : List (Text × ℕ)) : Ledger :=
  items.foldl (fun ledger item ↦ ledger.drop item.1) ledger

/-- The transfers of a list are dropped, and nothing but their objects changes with them. -/
structure DroppedAll (s : Daemon) (items : List (Text × ℕ)) (t : Daemon) : Prop where
  ledger : t.ledger = s.ledger.dropAll items
  next : s.next ≤ t.next
  objects : ∀ object < s.next, object ∉ items.map Prod.snd → t.objects object = s.objects object
  rest : Within Same (.objects :: .ledger :: quietParts) s t

theorem DroppedAll.quiet {items : List (Text × ℕ)} (h : s.DroppedAll items t) (hquiet : Quiet t u) :
    s.DroppedAll items u where
  ledger := hquiet.ledger.trans h.ledger
  next := h.next.trans hquiet.next
  objects object hlt hmem := by
    rw [hquiet.objects (hlt.trans_le h.next)]
    exact h.objects object hlt hmem
  rest := h.rest.trans (hquiet.mono fun _ hp ↦ by simp [hp])

theorem succeeds_recordTransferOnce (transferId : Text) (record : TransferRecord) :
    Succeeds (recordTransferOnce transferId record) := by
  refine succeeds_get_bind fun s ↦ ?_
  split
  · exact succeeds_pure () s
  · exact succeeds_tryCatch _ (fun _ ↦ succeeds_pure ()) s

theorem succeeds_reportIncoming (transferId : Text) (ps : ℕ) (metadata : TransferMetadata)
    (status : TransferStatus) (startedAt : ℤ) (sha256 : Text) :
    Succeeds (reportIncoming transferId ps metadata status startedAt sha256) :=
  succeeds_get_bind fun s ↦ succeeds_bind (succeeds_recordTransferOnce _ _)
    (fun _ ↦ succeeds_modify _) s

theorem cancelIncomingForPeer_quiet (ps : ℕ) (transferId : Text) (object : ℕ) (s : Daemon) :
    wp (cancelIncomingForPeer ps transferId object) (fun r t ↦ r = .ok () ∧ ∃ incoming,
      Quiet ((s.mapLedger fun ledger ↦ ledger.drop transferId).setObject object incoming) t) s := by
  unfold cancelIncomingForPeer
  rw [wp_onLedger_bind]
  apply wp_bind_of (cancelObject_quiet object _)
  · exact fun _ _ h ↦ nomatch h.1
  rintro _ t ⟨-, hstate, hquiet⟩
  rw [wp_get_bind]
  dsimp only
  rw [hstate]
  apply wp_mono (wp_and (succeeds_reportIncoming _ _ _ _ _ _ t)
    (quiet_of_keeps (keeps_reportIncoming _ _ _ (by decide) _ _) (by decide) t))
  rintro r u ⟨⟨⟨⟩, hr⟩, hu⟩
  exact ⟨hr, _, hquiet.trans hu⟩

theorem cancelIncoming_droppedAll (ps : ℕ) (items : List (Text × ℕ)) (s : Daemon) :
    wp (forEach (fun item ↦ cancelIncomingForPeer ps item.1 item.2) items)
      (fun r t ↦ r = .ok () ∧ s.DroppedAll items t) s := by
  induction items generalizing s with
  | nil => exact ⟨rfl, rfl, le_rfl, fun _ _ _ ↦ rfl, within_refl s⟩
  | cons item rest ih =>
    apply wp_bind_of (cancelIncomingForPeer_quiet ps item.1 item.2 s)
    · exact fun _ _ h ↦ nomatch h.1
    · rintro _ t ⟨-, incoming, hquiet⟩
      apply wp_mono (ih t)
      rintro r u ⟨hr, hu⟩
      refine ⟨hr, ?_, hquiet.next.trans hu.next, fun object hlt hmem ↦ ?_, ?_⟩
      · rw [hu.ledger, hquiet.ledger]
        rfl
      · rw [List.map_cons, List.mem_cons, not_or] at hmem
        rw [hu.objects object (hlt.trans_le hquiet.next) hmem.2, hquiet.objects hlt,
          setObject_of_ne _ _ hmem.1, mapLedger_objects]
      · have hfirst : Within Same (.objects :: .ledger :: quietParts) s t := by
          intro p hp
          simp only [List.mem_cons, not_or] at hp
          have hsame := hquiet p hp.2.2
          cases p <;> simp_all [Same, mapLedger, setObject]
        exact hfirst.trans hu.rest

theorem succeeds_cancelOutgoingForPeer (ps : ℕ) (transferId : Text) (xfer : ℕ) :
    Succeeds (cancelOutgoingForPeer ps transferId xfer) :=
  succeeds_bind (fun _ ↦ ⟨(), rfl⟩) fun _ ↦ succeeds_bind (succeeds_modify _) fun _ ↦ succeeds_modify _

theorem succeeds_forEach {β : Type} {f : β → Segment Unit} (h : ∀ b, Succeeds (f b))
    (items : List β) : Succeeds (forEach f items) := by
  induction items with
  | nil => exact succeeds_pure ()
  | cons b rest ih => exact succeeds_bind (h b) fun _ ↦ ih

theorem succeeds_closeStates (ps : ℕ) : Succeeds (closeStates ps) := by
  refine succeeds_bind (succeeds_tryCatch _ fun _ ↦ succeeds_get_bind fun s ↦ ?_) fun _ ↦
    succeeds_get_bind fun s ↦ ?_
  · exact succeeds_ite _ (succeeds_tryCatch _ fun _ ↦ succeeds_pure ()) (succeeds_pure ()) s
  · exact succeeds_ite _ (succeeds_tryCatch _ fun _ ↦ succeeds_pure ()) (succeeds_pure ()) s

/-- What the end of a session loop leaves behind. -/
structure LoopEnded (s : Daemon) (ps : ℕ) (t : Daemon) : Prop where
  ledger : t.ledger = s.ledger.dropAll (s.incomingOf ps)
  next : s.next ≤ t.next
  objects : ∀ object < s.next, object ∉ (s.incomingOf ps).map Prod.snd →
    t.objects object = s.objects object
  tasks : t.tasks = s.tasks
  activeSessions : t.activeSessions = s.activeSessions.pop (s.sessions ps).remoteAddr
  loop_self : (t.sessions ps).loop = .ended
  loop_of_ne : ∀ other, other ≠ ps → (t.sessions other).loop = (s.sessions other).loop
  remoteAddr : ∀ other, (t.sessions other).remoteAddr = (s.sessions other).remoteAddr
  database : s.db.Bookkeeps t.db

theorem endLoop_ended (ps : ℕ) (s : Daemon) :
    wp (endLoop ps) (fun _ t ↦ s.LoopEnded ps t) s := by
  have hcancelled : wp (cancelForPeer ps) (fun r t ↦ r = .ok () ∧ s.DroppedAll (s.incomingOf ps) t)
      s := by
    unfold cancelForPeer
    rw [wp_get_bind]
    apply wp_bind_of (cancelIncoming_droppedAll ps (s.incomingOf ps) s)
    · exact fun _ _ h ↦ nomatch h.1
    · rintro _ t ⟨-, ht⟩
      apply wp_mono (wp_and (succeeds_forEach (fun _ ↦ succeeds_cancelOutgoingForPeer _ _ _) _ t)
        (quiet_of_keeps (keeps_forEach (fun _ ↦ keeps_cancelOutgoingForPeer _ _ _) _) (by decide) t))
      rintro r u ⟨⟨⟨⟩, hr⟩, hu⟩
      exact ⟨hr, ht.quiet hu⟩
  unfold endLoop
  apply wp_bind_of hcancelled
  · exact fun _ _ h ↦ nomatch h.1
  rintro _ t ⟨-, ht⟩
  refine wp_quiet_bind_of_succeeds (succeeds_closeStates ps) (keeps_closeStates ps) (by decide)
    fun _ u hu ↦ ?_
  have hdropped := ht.quiet hu
  have hloops := hdropped.rest .loops (by decide)
  rw [wp_modify_bind]
  unfold onSession
  rw [wp_modify]
  refine ⟨hdropped.ledger, hdropped.next, hdropped.objects, hdropped.rest .tasks (by decide), ?_, ?_,
    fun other hother ↦ ?_, fun other ↦ ?_,
    ⟨hdropped.rest .devices (by decide), hdropped.rest .rows (by decide)⟩⟩
  · dsimp only
    rw [hloops.1, (hloops.2 ps).2.1]
  · dsimp only
    rw [Function.update_self]
  · dsimp only
    rw [Function.update_of_ne hother]
    exact (hloops.2 other).1
  · dsimp only
    by_cases hother : other = ps
    · subst hother
      rw [Function.update_self]
      exact (hloops.2 other).2.1
    · rw [Function.update_of_ne hother]
      exact (hloops.2 other).2.1

/-! ## Steps -/

/-- What becomes of a session loop after a segment. -/
inductive Settled (ps : ℕ) : Except PyError LoopFlow → Daemon → Daemon → Prop
  | reads (t : Daemon) : Settled ps (.ok .next) t (t.setLoop ps .reading)
  | awaits (await : LoopAwait) (t : Daemon) :
      Settled ps (.ok (.await await)) t (t.setLoop ps (.handling await))
  | ends {r t u} (hr : r = .ok .stop ∨ ∃ e, r = .error e) (h : t.LoopEnded ps u) : Settled ps r t u

/-- A call has returned, or has left a coroutine of some kind behind. -/
inductive Suspended (kind : Await → Prop) (t : Daemon) : Daemon → Prop
  | returned : Suspended kind t t
  | awaits (await : Await) (h : kind await) : Suspended kind t (t.suspend await)

theorem Suspended.ledger {kind : Await → Prop} (h : Suspended kind t u) : u.ledger = t.ledger := by
  cases h with
  | returned | awaits => rfl

/-- What a step does to the incoming transfers. -/
inductive StepMove (s : Daemon) : Event → Daemon → Prop
  | idle (event : Event) : StepMove s event s
  | connected (remoteAddr : Text) (remote : RemotePeer) (paired : Bool)
      (sendFaults : List (Option ℕ)) :
      StepMove s (.connect remoteAddr remote paired sendFaults)
        (s.connect (newSession remoteAddr remote paired sendFaults))
  | framed {ps plaintext now uuid r t u} (hreading : (s.sessions ps).loop = .reading)
      (h : FrameMove s ps now uuid plaintext r t) (hend : Settled ps r t u) :
      StepMove s (.frame ps plaintext now uuid) u
  | handled {ps failed await r t u} (hawait : (s.sessions ps).loop = .handling await)
      (h : HandlerMove s failed await r t) (hend : Settled ps r t u) :
      StepMove s (.loopResumes ps failed) u
  | ended {ps u} (hreading : (s.sessions ps).loop = .reading) (h : s.LoopEnded ps u) :
      StepMove s (.loopEnds ps) u
  | resumed {task failed now await t u} (htask : s.tasks.get task = some await)
      (h : AwaitMove { s with tasks := s.tasks.pop task } failed await t)
      (hleft : Suspended (fun left ↦ left.resuming = none ∨ left.resuming = await.resuming) t u) :
      StepMove s (.resume task failed now) u
  | expired {timer sleeping t u} (htimer : s.ledger.timers.get timer = some sleeping)
      (h : ExpiryMove (s.mapLedger fun ledger ↦ { ledger with timers := ledger.timers.pop timer })
        sleeping t) (hleft : Suspended (fun left ↦ left.resuming = none) t u) :
      StepMove s (.expire timer) u
  | called {event t u} (h : CallMove s event t) (hleft : Suspended (LeavesNew s t) t u) :
      StepMove s event u

theorem runLoop_settled (ps : ℕ) {m : Segment LoopFlow} {P : Except PyError LoopFlow → Daemon → Prop}
    (h : wp m P s) : ∃ r t, P r t ∧ Settled ps r t (runLoop ps m s) := by
  refine ⟨(m s).1, (m s).2, h, ?_⟩
  unfold runLoop
  cases hm : m s with
  | mk r t =>
    cases r with
    | error e => exact .ends (.inr ⟨e, rfl⟩) (endLoop_ended ps t)
    | ok flow =>
      cases flow with
      | next => exact .reads t
      | stop => exact .ends (.inl rfl) (endLoop_ended ps t)
      | await await => exact .awaits await t

theorem runCall_suspended {m : Call} {P : Daemon → Prop} {kind : Daemon → Await → Prop}
    (h : wp m (fun r t ↦ P t ∧ ∀ left, r = .ok (some left) → kind t left) s) :
    ∃ t, P t ∧ Suspended (kind t) t (runCall m s) := by
  refine ⟨(m s).2, h.1, ?_⟩
  have hleft := h.2
  unfold runCall
  cases hm : m s with
  | mk r t =>
    rw [hm] at hleft
    cases r with
    | error e => exact .returned
    | ok left =>
      cases left with
      | none => exact .returned
      | some await => exact .awaits await (hleft await rfl)

/-- A quiet call that leaves no `request_resume` behind. -/
theorem called_quiet {m : Call} {parts : List Part} (event : Event) (hm : ResumesNothing m)
    (h : Keeps parts m) (hsub : ∀ p ∈ parts, p ∈ quietParts) : StepMove s event (runCall m s) := by
  have hquiet : wp m (fun _ t ↦ CallMove s event t) s :=
    wp_quiet h hsub fun _ _ ht ↦ .quiet ht
  obtain ⟨t, ht, hleft⟩ := runCall_suspended (callMoved_of_resumesNothing hm hquiet)
  exact .called ht hleft

theorem acceptanceTimeout_suspended (sleeping : AcceptanceTimer) (s : Daemon) :
    ∃ t, ExpiryMove s sleeping t ∧
      Suspended (fun left ↦ left.resuming = none) t (runCall (acceptanceTimeout sleeping) s) := by
  have hmove : wp (acceptanceTimeout sleeping) (fun r t ↦ ExpiryMove s sleeping t ∧
      ∀ left, r = .ok (some left) → left.resuming = none) s :=
    wp_mono (wp_and (acceptanceTimeout_move sleeping s) (resumesNothing_acceptanceTimeout sleeping s))
      fun _ _ h ↦ ⟨h.1, fun left hr ↦ h.2 _ hr left rfl⟩
  exact runCall_suspended hmove

/-- Every step goes one of the ways. -/
theorem step_move (s : Daemon) (event : Event) : StepMove s event (s.step event) := by
  have hcalled : ∀ {m : Call}, wp m (CallMoved s event) s → StepMove s event (runCall m s) := by
    intro m h
    obtain ⟨t, ht, hleft⟩ := runCall_suspended h
    exact .called ht hleft
  cases event with
  | connect remoteAddr remote paired sendFaults => exact .connected remoteAddr remote paired sendFaults
  | frame ps plaintext now uuid =>
    dsimp only [step]
    split
    · next hreading =>
      obtain ⟨r, t, h, hend⟩ := runLoop_settled ps (processFrame_move s ps plaintext now uuid)
      exact .framed hreading h hend
    · exact .idle _
  | loopEnds ps =>
    dsimp only [step]
    split
    · next hreading => exact .ended hreading (endLoop_ended ps s)
    · exact .idle _
  | loopResumes ps failed =>
    dsimp only [step]
    split
    · next await hawait =>
      obtain ⟨r, t, h, hend⟩ := runLoop_settled ps (resumeHandler_move ps failed await s)
      exact .handled hawait h hend
    · exact .idle _
  | resume task failed now =>
    dsimp only [step]
    split
    · exact .idle _
    · next await htask =>
      split
      · obtain ⟨t, ht, hleft⟩ := runCall_suspended (wp_mono
          (wp_and (resumeCall_move failed now await { s with tasks := s.tasks.pop task })
            (resumeCall_resuming failed now await { s with tasks := s.tasks.pop task }))
          fun _ _ h ↦ ⟨h.1, fun left hr ↦ h.2 _ hr left rfl⟩)
        exact .resumed htask ht hleft
      · exact .idle _
  | expire timer =>
    dsimp only [step]
    split
    · exact .idle _
    · next sleeping htimer =>
      obtain ⟨t, ht, hleft⟩ := acceptanceTimeout_suspended sleeping
        (s.mapLedger fun ledger ↦ { ledger with timers := ledger.timers.pop timer })
      exact .expired htimer ht hleft
  | stall now =>
    exact .called (.quiet (quiet_of_keeps (keeps_monitorStallTimeouts now) (by decide) s)) .returned
  | acceptPairing remoteAddr now uuid =>
    exact hcalled (callMoved_of_resumesNothing (resumesNothing_acceptPairing _ _ _)
      (acceptPairing_move remoteAddr now uuid s))
  | rejectPairing remoteAddr =>
    exact called_quiet _ (resumesNothing_rejectPairing _) (keeps_rejectPairing _) (by decide)
  | acceptTransfer remoteAddr transferId =>
    exact hcalled (callMoved_of_resumesNothing (resumesNothing_acceptTransfer _ _)
      (acceptTransfer_move remoteAddr transferId s))
  | rejectTransfer remoteAddr transferId =>
    exact hcalled (callMoved_of_resumesNothing (resumesNothing_rejectTransfer _ _)
      (rejectTransfer_move remoteAddr transferId s))
  | acceptBatch remoteAddr batchId =>
    exact called_quiet _ (resumesNothing_acceptBatch _ _) (keeps_acceptBatch _ _) (by decide)
  | rejectBatch remoteAddr batchId =>
    exact called_quiet _ (resumesNothing_rejectBatch _ _) (keeps_rejectBatch _ _) (by decide)
  | cancelTransfer transferId reason now =>
    exact hcalled (callMoved_of_resumesNothing (resumesNothing_cancelTransfer _ _ _)
      (cancelTransfer_move transferId reason now s))
  | discard transferId =>
    exact hcalled (callMoved_of_resumesNothing (resumesNothing_discardInterruptedTransfer _)
      (discardInterruptedTransfer_move transferId s))
  | requestResume remoteAddr transferId now =>
    exact hcalled (requestResume_move remoteAddr transferId now s)
  | sendFile remoteAddr item now =>
    exact called_quiet _ (resumesNothing_startFile _ _ _) (keeps_startFile _ _ _) (by decide)
  | sendBatch remoteAddr files totalBytes batchName batchId now =>
    exact called_quiet _ (resumesNothing_sendBatch _ _ _ _ _ _) (keeps_sendBatch _ _ _ _ _ _) (by decide)

end Daemon

end Ferry
