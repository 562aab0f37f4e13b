import Ferry.Android.ClientSteps

/-!
# Isolation of the transfers of the Android client

A message that names one transfer, or a coroutine that waits for it, leaves every other transfer alone:
the deferred that another transfer waits for, its receiver, its staging file and the flags that cancel
it.  The slots of the client are not looked up by the identifier, so this holds in the runs in which
what is in the slot that a step uses belongs to the transfer that the step names.
-/

namespace Ferry

open Exec

/-- The transfer that a message names. -/
def ClientMessage.named : ClientMessage → Option Text
  | transferComplete transferId | transferCancel transferId | transferError transferId
  | transferAccept transferId | transferReject transferId | transferResumeAccept transferId _
  | transferResumeReject transferId => some transferId
  | _ => none

namespace FerryControlClient

open TransferClient (Apart Within SameResumes OtherResumes SparesParts)

/-! ## The property -/

/-- The transfer that an event names: that of a message or a chunk, and that of a coroutine that waits
for an answer to it. -/
def names (c : FerryControlClient) : ControlEvent → Option Text
  | .frame _ (.chunk plaintext) => (Kotlin.decodeChunkFrame plaintext.1).toOption.map Prod.fst
  | .frame _ (.message message) => message.named
  | .decideIncoming index _ => c.receiving.waiting[index]?.map fun waiting ↦ waiting.2.transferId
  | .awaitResume index _ => c.receiving.resuming[index]?.bind fun k ↦ c.resumeIds[k]?
  | .goOn _ index _ =>
    (c.jobs[index]?.bind SendJob.file).map fun file ↦ file.payload.transferId
  | _ => none

/-- A transfer is being sent, by `sendFile` or after a resume request. -/
def Sends (c : FerryControlClient) (b : Text) : Prop :=
  (∃ job ∈ c.jobs, ∃ file ∈ job.file, file.payload.transferId = b) ∨
    ∃ resume ∈ c.resumeSends, resume.transferId = b

/-- The receiver, the staging file and the deferreds of `requestResume` of the transfer `b` stay. -/
structure SparesReceiving (b : Text) (c : FerryControlClient) (receiving : TransferClient) : Prop where
  receiver : ∀ receiver, c.receiving.activeReceiver = some receiver →
    receiver.metadata.transferId = b → receiving.activeReceiver = some receiver
  part : receiving.disk.nodes (c.receiving.partFile b) = c.receiving.disk.nodes (c.receiving.partFile b)
  resumes : ∀ k : ℕ, c.resumeIds[k]? = some b → c.receiving.resumeAnswers[k]? = some none →
    receiving.resumeAnswers[k]? = some none

/-- What the step from `c` to `c'` leaves of the transfer `b`: no deferred that it waits for is
completed, its receiver is neither cancelled nor finalised nor cleared, nothing is written to its
staging file, and no flag is set while it is being sent. -/
structure Spares (b : Text) (c c' : FerryControlClient) : Prop
    extends SparesReceiving b c c'.receiving where
  accepts : ∀ k : ℕ, c.transferAnswers[k]? = some (b, none) → c'.transferAnswers[k]? = some (b, none)
  flags : c.Sends b → (c'.outgoingCancelled = true → c.outgoingCancelled = true) ∧
    (c'.outgoingCancelledByPeer = true → c.outgoingCancelledByPeer = true)

/-- An event that names a transfer spares every other. -/
def Isolates (c : FerryControlClient) (event : ControlEvent) : Prop :=
  ∀ a, c.names event = some a → ∀ b, b ≠ a → Spares b c (c.step event)

/-- Every event of a run isolates the transfers in the state in which it happens. -/
def IsolatesRun (c : FerryControlClient) : List ControlEvent → Prop
  | [] => True
  | event :: events => c.Isolates event ∧ (c.step event).IsolatesRun events

/-! ## The condition -/

/-- The deferred in the slot of `sendFile`, if it waits, is that of `a`. -/
def AcceptOf (c : FerryControlClient) (a : Text) : Prop :=
  ∀ k ∈ c.pendingTransferAccept, ∀ answer ∈ c.transferAnswers[k]?, answer.2 = none → answer.1 = a

/-- The deferred in the slot of `requestResume`, if it waits, is that of `a`. -/
def ResumeOf (c : FerryControlClient) (a : Text) : Prop :=
  ∀ k ∈ c.receiving.pendingResumeAccept, c.receiving.resumeAnswers[k]? = some none →
    ∀ b ∈ c.resumeIds[k]?, b = a

/-- Nothing but `a` is being sent. -/
def SendsOnly (c : FerryControlClient) (a : Text) : Prop :=
  (∀ job ∈ c.jobs, ∀ file ∈ job.file, file.payload.transferId = a) ∧
    ∀ resume ∈ c.resumeSends, resume.transferId = a

/-- Both flags are set. -/
def Cancelled (c : FerryControlClient) : Prop :=
  c.outgoingCancelled = true ∧ c.outgoingCancelledByPeer = true

section Decidability

variable (c : FerryControlClient) (a : Text)

instance : Decidable (c.AcceptOf a) :=
  inferInstanceAs (Decidable (∀ k ∈ c.pendingTransferAccept, _))

instance : Decidable (c.ResumeOf a) :=
  inferInstanceAs (Decidable (∀ k ∈ c.receiving.pendingResumeAccept, _))

instance : Decidable (c.SendsOnly a) := inferInstanceAs (Decidable (_ ∧ _))

instance : Decidable c.Cancelled := inferInstanceAs (Decidable (_ ∧ _))

end Decidability

/-- What a message that names `a` finds in the slots that it uses belongs to `a`.  A message for an
identifier that was handled uses fewer slots, and a TRANSFER_COMPLETE whose result cannot be written
ends the session. -/
def AlignedMessage (c : FerryControlClient) : ClientMessage → Prop
  | .transferComplete a => c.receiving.Handled a ∨ c.receiving.activeReceiver = none ∨
      c.receiving.ReceiverOf a ∧ c.receiving.FinalClear a ∧
        (c.receiving.sendFaults.headD false = true → c.AcceptOf a ∧ c.ResumeOf a)
  | .transferCancel a => c.AcceptOf a ∧
      (c.receiving.Handled a ∨ c.receiving.ReceiverOf a ∧ (c.Cancelled ∨ c.SendsOnly a))
  | .transferError a => c.AcceptOf a ∧ c.receiving.ReceiverOf a
  | .transferAccept a | .transferReject a => c.receiving.Handled a ∨ c.AcceptOf a
  | .transferResumeAccept a _ => c.ResumeOf a
  | .transferResumeReject a => c.receiving.ReceiverOf a ∧ c.ResumeOf a
  | _ => True

/-- A coroutine that waits for the user and goes on with a refusal finds its own receiver. -/
def AlignedDecision (c : FerryControlClient) (index : ℕ) (timedOut : Bool) : Prop :=
  ∀ waiting ∈ c.receiving.waiting[index]?,
    timedOut = true ∨ c.receiving.decisions[waiting.1]? = some (some false) →
      c.receiving.ReceiverOf waiting.2.transferId

/-- What an event finds in the slots that it uses belongs to the transfer that it names. -/
def Aligned (c : FerryControlClient) : ControlEvent → Prop
  | .frame _ (.chunk plaintext) =>
    ∀ chunk ∈ (Kotlin.decodeChunkFrame plaintext.1).toOption, c.receiving.ReceiverOf chunk.1
  | .frame _ (.message message) => c.AlignedMessage message
  | .decideIncoming index timedOut => c.AlignedDecision index timedOut
  | .awaitResume index timedOut =>
    timedOut = true → ∀ k ∈ c.receiving.resuming[index]?, ∀ a ∈ c.resumeIds[k]?,
      c.receiving.ReceiverOf a
  | _ => True

/-- Every event of a run is aligned in the state in which it happens. -/
def AlignedRun (c : FerryControlClient) : List ControlEvent → Prop
  | [] => True
  | event :: events => c.Aligned event ∧ (c.step event).AlignedRun events

/-! ## One step -/

section Step

variable {c : FerryControlClient} {a b : Text}

theorem sparesReceiving_refl (b : Text) (c : FerryControlClient) : SparesReceiving b c c.receiving :=
  ⟨fun _ h _ ↦ h, rfl, fun _ _ h ↦ h⟩

theorem Spares.refl (b : Text) (c : FerryControlClient) : Spares b c c :=
  ⟨sparesReceiving_refl b c, fun _ h ↦ h, fun _ ↦ ⟨id, id⟩⟩

/-- The active receiver is not that of another transfer. -/
theorem not_receiver (hb : b ≠ a) (hof : c.receiving.ReceiverOf a) (receiver : FerryTransferReceiver)
    (hactive : c.receiving.activeReceiver = some receiver) : receiver.metadata.transferId ≠ b := by
  rw [hof receiver hactive]
  exact hb.symm

/-- A function that works on the receiver of `a`. -/
theorem sparesReceiving_of_parts {t : TransferClient} (hb : b ≠ a) (hof : c.receiving.ReceiverOf a)
    (hparts : SparesParts a c.receiving t) (hsame : SameResumes c.receiving t) :
    SparesReceiving b c t where
  receiver := fun receiver hactive hid ↦ absurd hid (not_receiver hb hof receiver hactive)
  part := hparts.nodes b hb
  resumes := fun k _ hk ↦ by rw [hsame, hk]

/-- The deferred of another transfer is not in the slot of `requestResume`. -/
theorem resumes_of_other {t : TransferClient} (hb : b ≠ a) (hresume : c.ResumeOf a)
    (hother : OtherResumes c.receiving t) (k : ℕ) (hk : c.resumeIds[k]? = some b)
    (hanswer : c.receiving.resumeAnswers[k]? = some none) : t.resumeAnswers[k]? = some none := by
  rw [hother.answers k, hanswer]
  intro hslot
  exact hb (hresume k hslot hanswer b hk)

/-- A function that leaves the receiver alone. -/
theorem sparesReceiving_of_apart {t : TransferClient} (h : Apart c.receiving t) :
    SparesReceiving b c t where
  receiver := fun receiver hactive _ ↦ by rw [h.activeReceiver, hactive]
  part := by rw [h.disk]
  resumes := fun k _ hk ↦ by rw [h.resumeAnswers, hk]

/-- Completing the deferred in the slot leaves that of another transfer as it is. -/
theorem accepts_completed (hb : b ≠ a) (haccept : c.AcceptOf a) (value : Bool) (k : ℕ)
    (hk : c.transferAnswers[k]? = some (b, none)) :
    (completed c.transferAnswers value c.pendingTransferAccept)[k]? = some (b, none) := by
  cases hslot : c.pendingTransferAccept with
  | none => exact hk
  | some slot =>
    have hne : slot ≠ k := by
      rintro rfl
      exact hb (haccept slot hslot (b, none) hk rfl)
    rw [completed, List.getElem?_modify_ne _ _ hne]
    exact hk

theorem not_sends (hb : b ≠ a) (honly : c.SendsOnly a) : ¬c.Sends b := by
  rintro (⟨job, hjob, file, hfile, hid⟩ | ⟨resume, hresume, hid⟩)
  · exact hb (hid.symm.trans (honly.1 job hjob file hfile))
  · exact hb (hid.symm.trans (honly.2 resume hresume))

/-- A call of the receiving part, and what it does to the rest. -/
theorem wp_onReceiving {α : Type} {m : TransferClient.Action α}
    {Q : Except KotlinException α → TransferClient → Prop} (h : wp m Q c.receiving) :
    wp (onReceiving m) (fun r c' ↦ ∃ t, c' = { c with receiving := t } ∧ Q r t) c :=
  ⟨_, rfl, h⟩

/-- A frame whose processing does not raise. -/
theorem wp_receiveFrame {now : ℤ} {frame : ClientFrame} {P : FerryControlClient → Prop}
    (h : wp (processFrame now frame) (fun r c' ↦ (∃ u, r = .ok u) ∧ P c') c) :
    wp (receiveFrame now frame) (fun _ c' ↦ P c') c := by
  apply wp_tryCatch_of h
  · rintro e c' ⟨⟨u, hu⟩, -⟩
    exact absurd hu (by simp)
  · exact fun _ _ h' ↦ h'.2

theorem spares_chunk (hb : b ≠ a) (hof : c.receiving.ReceiverOf a) (now : ℤ)
    (plaintext : { plaintext : Bytes // isChunkFrame plaintext = true }) :
    wp (receiveFrame now (.chunk plaintext)) (fun _ c' ↦ Spares b c c') c := by
  apply wp_receiveFrame
  apply wp_mono (wp_onReceiving (wp_and (TransferClient.succeeds_onChunkReceived plaintext.1 c.receiving)
    (wp_and (TransferClient.within_onChunkReceived plaintext.1 c.receiving)
      (TransferClient.sameResumes_onChunkReceived plaintext.1 c.receiving))))
  rintro r c' ⟨t, rfl, hok, hwithin, hsame⟩
  exact ⟨hok, sparesReceiving_of_parts hb hof (hwithin hof).2 hsame, fun _ h ↦ h, fun _ ↦ ⟨id, id⟩⟩

theorem spares_answer (hb : b ≠ a) (haccept : c.receiving.Handled a ∨ c.AcceptOf a) (value : Bool) :
    wp (onTransferAnswer a value) (fun r c' ↦ (∃ u, r = .ok u) ∧ Spares b c c') c := by
  unfold onTransferAnswer
  rw [wp_get_bind, wp_ite]
  refine ⟨fun _ ↦ ⟨⟨(), rfl⟩, Spares.refl b c⟩, fun hfresh ↦ ?_⟩
  have hmarked := wp_onReceiving (c := c) (wp_and (TransferClient.succeeds_markHandled a c.receiving)
    (TransferClient.apart_markHandled a c.receiving))
  apply wp_bind_of hmarked
  · rintro e c' ⟨t, -, ⟨u, hu⟩, -⟩
    exact absurd hu (by simp)
  · rintro u c' ⟨t, rfl, -, hapart⟩
    exact ⟨⟨(), rfl⟩, sparesReceiving_of_apart hapart,
      accepts_completed hb (haccept.resolve_left hfresh) value, fun _ ↦ ⟨id, id⟩⟩

theorem spares_error (hb : b ≠ a) (haccept : c.AcceptOf a) (hof : c.receiving.ReceiverOf a) :
    wp (do onReceiving TransferClient.cancelReceiver; completeAccept false : Action Unit)
      (fun r c' ↦ (∃ u, r = .ok u) ∧ Spares b c c') c := by
  have hcancel := wp_onReceiving (c := c) (wp_and (TransferClient.succeeds_cancelReceiver c.receiving)
    (wp_and (TransferClient.within_cancelReceiver (a := a) c.receiving)
      (TransferClient.sameResumes_cancelReceiver c.receiving)))
  apply wp_bind_of hcancel
  · rintro e c' ⟨t, -, ⟨u, hu⟩, -⟩
    exact absurd hu (by simp)
  · rintro u c' ⟨t, rfl, -, hwithin, hsame⟩
    exact ⟨⟨(), rfl⟩, sparesReceiving_of_parts hb hof (hwithin hof).2 hsame,
      accepts_completed hb haccept false, fun _ ↦ ⟨id, id⟩⟩

/-- A TRANSFER_CANCEL for an identifier that was handled leaves the receiving part as it is. -/
theorem onTransferCancel_handled {t : TransferClient} (h : t.Handled a) :
    TransferClient.onTransferCancel a t = (.ok (), t) := by
  unfold TransferClient.onTransferCancel
  rw [get_bind_run, if_pos h]
  rfl

theorem spares_cancel (hb : b ≠ a) (haccept : c.AcceptOf a)
    (h : c.receiving.Handled a ∨ c.receiving.ReceiverOf a ∧ (c.Cancelled ∨ c.SendsOnly a)) :
    wp (onTransferCancel a) (fun r c' ↦ (∃ u, r = .ok u) ∧ Spares b c c') c := by
  unfold onTransferCancel
  rw [wp_get_bind]
  have hcancel := wp_onReceiving (c := c) (m := TransferClient.onTransferCancel a)
    (wp_and (TransferClient.succeeds_onTransferCancel a c.receiving)
      (wp_and (TransferClient.within_onTransferCancel (a := a) a c.receiving)
        (TransferClient.sameResumes_onTransferCancel a c.receiving)))
  by_cases hhandled : c.receiving.Handled a
  · have hsame : wp (onReceiving (TransferClient.onTransferCancel a))
        (fun r c' ↦ r = .ok () ∧ c' = c) c := by
      change ((TransferClient.onTransferCancel a c.receiving).1 = _ ∧
        { c with receiving := (TransferClient.onTransferCancel a c.receiving).2 } = c)
      rw [onTransferCancel_handled hhandled]
      exact ⟨rfl, rfl⟩
    apply wp_bind_of hsame (fun _ _ h ↦ absurd h.1 (by simp))
    rintro u c' ⟨-, rfl⟩
    rw [if_pos hhandled]
    exact ⟨⟨(), rfl⟩, sparesReceiving_refl b c', accepts_completed hb haccept false, fun _ ↦ ⟨id, id⟩⟩
  · obtain ⟨hof, hflags⟩ := h.resolve_left hhandled
    apply wp_bind_of hcancel
    · rintro e c' ⟨t, -, ⟨u, hu⟩, -⟩
      exact absurd hu (by simp)
    · rintro u c' ⟨t, rfl, -, hwithin, hsame⟩
      rw [if_neg hhandled]
      refine ⟨⟨(), rfl⟩, sparesReceiving_of_parts hb hof (hwithin hof).2 hsame,
        accepts_completed hb haccept false, fun hsends ↦ ?_⟩
      rcases hflags with hcancelled | honly
      · exact ⟨fun _ ↦ hcancelled.1, fun _ ↦ hcancelled.2⟩
      · exact absurd hsends (not_sends hb honly)

theorem spares_resumeReject (hb : b ≠ a) (hof : c.receiving.ReceiverOf a) (hresume : c.ResumeOf a)
    (now : ℤ) :
    wp (onResumeReject now a) (fun r c' ↦ (∃ u, r = .ok u) ∧ Spares b c c') c := by
  unfold onResumeReject
  rw [wp_get_bind]
  have hreject := wp_onReceiving (c := c) (wp_and (TransferClient.succeeds_onResumeReject c.receiving)
    (wp_and (TransferClient.within_onResumeReject (a := a) c.receiving)
      (TransferClient.otherResumes_onResumeReject c.receiving)))
  apply wp_bind_of hreject
  · rintro e c' ⟨t, -, ⟨u, hu⟩, -⟩
    exact absurd hu (by simp)
  · rintro u c' ⟨t, rfl, -, hwithin, hother⟩
    have hspares : SparesReceiving b c t :=
      ⟨fun receiver hactive hid ↦ absurd hid (not_receiver hb hof receiver hactive),
        (hwithin hof).2.nodes b hb, resumes_of_other hb hresume hother⟩
    cases c.receiving.activeReceiverMeta with
    | none => exact ⟨⟨(), rfl⟩, hspares, fun _ h ↦ h, fun _ ↦ ⟨id, id⟩⟩
    | some metadata => exact ⟨⟨(), rfl⟩, hspares, fun _ h ↦ h, fun _ ↦ ⟨id, id⟩⟩

theorem spares_resumeAccept (hb : b ≠ a) (hc : c.receiving.Coherent) (hresume : c.ResumeOf a)
    (resumeChunkIndex : ℤ) :
    wp (onResumeAccept a resumeChunkIndex) (fun r c' ↦ (∃ u, r = .ok u) ∧ Spares b c c') c := by
  unfold onResumeAccept
  have hspares : wp (TransferClient.onResumeAccept a resumeChunkIndex)
      (fun _ t ↦ SparesReceiving b c t) c.receiving := by
    by_cases hmeta : c.receiving.activeReceiverMeta.map Kotlin.TransferMetadata.transferId = some a
    · have hof : c.receiving.ReceiverOf a := by
        intro receiver hactive
        have hactive' : c.receiving.activeReceiver = some receiver := hactive
        rw [hc.metadata, hactive'] at hmeta
        simpa using hmeta
      apply wp_mono (wp_and (TransferClient.within_onResumeAccept (a := a) a resumeChunkIndex c.receiving)
        (TransferClient.otherResumes_onResumeAccept a resumeChunkIndex c.receiving))
      rintro r t ⟨hwithin, hother⟩
      exact ⟨fun receiver hactive hid ↦ absurd hid (not_receiver hb hof receiver hactive),
        (hwithin hof).2.nodes b hb, resumes_of_other hb hresume hother⟩
    · apply wp_mono (wp_and (TransferClient.onResumeAccept_elsewhere hmeta)
        (TransferClient.otherResumes_onResumeAccept a resumeChunkIndex c.receiving))
      rintro r t ⟨⟨hactive, -, hdisk⟩, hother⟩
      exact ⟨fun receiver h _ ↦ by rw [hactive, h], by rw [hdisk],
        resumes_of_other hb hresume hother⟩
  apply wp_bind_of (wp_onReceiving (wp_and
    (TransferClient.succeeds_onResumeAccept a resumeChunkIndex c.receiving) hspares))
  · rintro e c' ⟨t, -, ⟨u, hu⟩, -⟩
    exact absurd hu (by simp)
  · rintro u c' ⟨t, rfl, -, ht⟩
    exact ⟨⟨(), rfl⟩, ht, fun _ h ↦ h, fun _ ↦ ⟨id, id⟩⟩

/-- The end of a loop without a receiver. -/
theorem endLoop_idle (h : c.receiving.activeReceiver = none) (now : ℤ) :
    wp (endLoop now) (fun _ c' ↦ Within a c.receiving c'.receiving ∧
      OtherResumes c.receiving c'.receiving ∧
      (c'.transferAnswers = c.transferAnswers ∨
        c'.transferAnswers = completed c.transferAnswers false c.pendingTransferAccept) ∧
      c'.outgoingCancelled = c.outgoingCancelled ∧
      c'.outgoingCancelledByPeer = c.outgoingCancelledByPeer) c := by
  have hnote : noteInterrupted now c = (.ok (), c) := by
    unfold noteInterrupted
    rw [get_bind_run]
    simp only [h]
    rfl
  have hnoted : wp (noteInterrupted now) (fun r c' ↦ r = .ok () ∧ c' = c) c := by
    rw [wp, hnote]
    exact ⟨rfl, rfl⟩
  unfold endLoop
  apply wp_bind_of hnoted (fun _ _ h ↦ absurd h.1 (by simp))
  rintro u c' ⟨-, rfl⟩
  apply wp_bind_of (wp_onReceiving (wp_and (TransferClient.within_endLoop (a := a) c'.receiving)
    (TransferClient.otherResumes_endLoop c'.receiving)))
  · rintro e c₂ ⟨t, rfl, hwithin, hother⟩
    exact ⟨hwithin, hother, .inl rfl, rfl, rfl⟩
  · rintro u c₂ ⟨t, rfl, hwithin, hother⟩
    exact ⟨hwithin, hother, .inr rfl, rfl, rfl⟩

/-- A TRANSFER_COMPLETE that is not looked at. -/
theorem onTransferComplete_ignored {t : TransferClient} (h : t.Handled a ∨ t.activeReceiver = none) :
    TransferClient.onTransferComplete a t = (.ok (), t) := by
  unfold TransferClient.onTransferComplete
  rw [get_bind_run]
  cases hactive : t.activeReceiver with
  | none => rfl
  | some receiver =>
    rcases h with hhandled | hnone
    · dsimp only
      rw [if_pos hhandled]
      rfl
    · simp [hactive] at hnone

theorem spares_ignored (h : c.receiving.Handled a ∨ c.receiving.activeReceiver = none) (now : ℤ) :
    wp (onTransferComplete now a) (fun r c' ↦ (∃ u, r = .ok u) ∧ Spares b c c') c := by
  have hsame : wp (onReceiving (TransferClient.onTransferComplete a))
      (fun r c' ↦ r = .ok () ∧ c' = c) c := by
    change ((TransferClient.onTransferComplete a c.receiving).1 = _ ∧
      { c with receiving := (TransferClient.onTransferComplete a c.receiving).2 } = c)
    rw [onTransferComplete_ignored h]
    exact ⟨rfl, rfl⟩
  unfold onTransferComplete
  rw [wp_get_bind]
  apply wp_bind_of hsame (fun _ _ h ↦ absurd h.1 (by simp))
  rintro u c' ⟨-, rfl⟩
  split
  · next receiver _ hactive _ =>
    rw [if_pos (h.resolve_right (by simp [hactive]))]
    exact ⟨⟨(), rfl⟩, Spares.refl b c'⟩
  · exact ⟨⟨(), rfl⟩, Spares.refl b c'⟩

/-- A TRANSFER_COMPLETE for the transfer of the active receiver, and the end of the session when the
result cannot be written. -/
theorem spares_complete (hb : b ≠ a) (hc : c.receiving.Coherent) (hof : c.receiving.ReceiverOf a)
    (hclear : c.receiving.FinalClear a)
    (hfault : c.receiving.sendFaults.headD false = true → c.AcceptOf a ∧ c.ResumeOf a) (now : ℤ) :
    wp (receiveFrame now (.message (.transferComplete a))) (fun _ c' ↦ Spares b c c') c := by
  have hcomplete : wp (onTransferComplete now a) (fun r c' ↦ ∃ t, c'.receiving = t ∧
      c'.transferAnswers = c.transferAnswers ∧ c'.pendingTransferAccept = c.pendingTransferAccept ∧
      c'.outgoingCancelled = c.outgoingCancelled ∧
      c'.outgoingCancelledByPeer = c.outgoingCancelledByPeer ∧
      SparesParts a c.receiving t ∧ SameResumes c.receiving t ∧
      t.pendingResumeAccept = c.receiving.pendingResumeAccept ∧
      ∀ e, r = .error e → c.receiving.sendFaults.headD false = true ∧ t.activeReceiver = none) c := by
    unfold onTransferComplete
    rw [wp_get_bind]
    apply wp_bind_of (wp_onReceiving (TransferClient.onTransferComplete_spec hc hof hclear a))
    · rintro e c₁ ⟨t, rfl, hparts, hsame, hpending, herror⟩
      exact ⟨t, rfl, rfl, rfl, rfl, rfl, hparts, hsame, hpending, herror⟩
    · rintro u c₁ ⟨t, rfl, hparts, hsame, hpending, -⟩
      split
      · rw [wp_ite]
        exact ⟨fun _ ↦ ⟨t, rfl, rfl, rfl, rfl, rfl, hparts, hsame, hpending, nofun⟩,
          fun _ ↦ ⟨t, rfl, rfl, rfl, rfl, rfl, hparts, hsame, hpending, nofun⟩⟩
      · exact ⟨t, rfl, rfl, rfl, rfl, rfl, hparts, hsame, hpending, nofun⟩
  apply wp_tryCatch_of hcomplete
  · rintro e c₁ ⟨t, rfl, hanswers, hslot, hcancelled, hpeer, hparts, hsame, hpending, herror⟩
    obtain ⟨hfaulty, hidle⟩ := herror e rfl
    obtain ⟨haccept, hresume⟩ := hfault hfaulty
    apply wp_mono (endLoop_idle (a := a) hidle now)
    rintro r c' ⟨hwithin, hother, hcompleted, hcancelled', hpeer'⟩
    have hrest := (hwithin fun receiver hactive ↦ by simp [hidle] at hactive).2
    refine ⟨⟨fun receiver hactive hid ↦ absurd hid (not_receiver hb hof receiver hactive),
      (hparts.trans hrest).nodes b hb, fun k hk hanswer ↦ ?_⟩, fun k hk ↦ ?_, fun _ ↦ ?_⟩
    · rw [hother.answers k, hsame, hanswer]
      rw [hpending]
      exact fun hslot ↦ hb (hresume k hslot hanswer b hk)
    · rcases hcompleted with hsame' | hsame'
      · rw [hsame', hanswers, hk]
      · rw [hsame', hanswers, hslot]
        exact accepts_completed hb haccept false k hk
    · rw [hcancelled', hcancelled, hpeer', hpeer]
      exact ⟨id, id⟩
  · rintro u c' ⟨t, rfl, hanswers, -, hcancelled, hpeer, hparts, hsame, -⟩
    refine ⟨sparesReceiving_of_parts hb hof hparts hsame, fun k hk ↦ by rw [hanswers, hk], fun _ ↦ ?_⟩
    rw [hcancelled, hpeer]
    exact ⟨id, id⟩

theorem spares_message (hb : b ≠ a) (hc : c.receiving.Coherent) {message : ClientMessage}
    (hnamed : message.named = some a) (haligned : c.AlignedMessage message) (now : ℤ) :
    wp (receiveFrame now (.message message)) (fun _ c' ↦ Spares b c c') c := by
  cases message with
  | transferComplete transferId =>
    obtain rfl : transferId = a := Option.some.inj hnamed
    rcases haligned with hhandled | hidle | ⟨hof, hclear, hfault⟩
    · exact wp_receiveFrame (spares_ignored (.inl hhandled) now)
    · exact wp_receiveFrame (spares_ignored (.inr hidle) now)
    · exact spares_complete hb hc hof hclear hfault now
  | transferCancel transferId =>
    obtain rfl : transferId = a := Option.some.inj hnamed
    exact wp_receiveFrame (spares_cancel hb haligned.1 haligned.2)
  | transferError transferId =>
    obtain rfl : transferId = a := Option.some.inj hnamed
    exact wp_receiveFrame (spares_error hb haligned.1 haligned.2)
  | transferAccept transferId =>
    obtain rfl : transferId = a := Option.some.inj hnamed
    exact wp_receiveFrame (spares_answer hb haligned true)
  | transferReject transferId =>
    obtain rfl : transferId = a := Option.some.inj hnamed
    exact wp_receiveFrame (spares_answer hb haligned false)
  | transferResumeAccept transferId resumeChunkIndex =>
    obtain rfl : transferId = a := Option.some.inj hnamed
    exact wp_receiveFrame (spares_resumeAccept hb hc haligned resumeChunkIndex)
  | transferResumeReject transferId =>
    obtain rfl : transferId = a := Option.some.inj hnamed
    exact wp_receiveFrame (spares_resumeReject hb haligned.1 haligned.2 now)
  | transferRequest _ | transferResumeRequest _ _ _ _ | transferResult _ _ | batchRequest _ _
  | batchAccept _ | batchReject _ | batchCancel _ | batchComplete _ | other =>
    simp [ClientMessage.named] at hnamed

/-- A step of the receiving part only. -/
theorem spares_of_receiving {t : TransferClient} (h : SparesReceiving b c t) :
    Spares b c { c with receiving := t } :=
  ⟨h, fun _ h ↦ h, fun _ ↦ ⟨id, id⟩⟩

/-- A coroutine leaves its list before it works on the receiver of `a`. -/
theorem sparesReceiving_after {t t' : TransferClient} (hb : b ≠ a) (hof : c.receiving.ReceiverOf a)
    (hleft : Apart c.receiving t) (hwithin : Within a t t') (hsame : SameResumes t t') :
    SparesReceiving b c t' :=
  sparesReceiving_of_parts hb hof (trans_of (Within a) hleft.within hwithin hof).2
    (trans_of SameResumes hleft.resumeAnswers hsame)

theorem spares_decideIncoming (hb : b ≠ a) {index : ℕ} {timedOut : Bool}
    (hnamed : c.names (.decideIncoming index timedOut) = some a)
    (haligned : c.AlignedDecision index timedOut) :
    SparesReceiving b c (c.receiving.runWaiting index timedOut) := by
  obtain ⟨⟨k, metadata⟩, hwaiting, rfl⟩ := Option.map_eq_some_iff.mp hnamed
  have hleft : Apart c.receiving { c.receiving with waiting := c.receiving.waiting.eraseIdx index } :=
    ⟨rfl, rfl, rfl, rfl, rfl, rfl⟩
  have hrefused (hof : c.receiving.ReceiverOf metadata.transferId) : SparesReceiving b c
      (TransferClient.decideIncoming metadata false
        { c.receiving with waiting := c.receiving.waiting.eraseIdx index }).2 :=
    sparesReceiving_after hb hof hleft (TransferClient.within_decideIncoming metadata false _)
      (TransferClient.sameResumes_decideIncoming metadata false _)
  have haccepted : SparesReceiving b c
      (TransferClient.decideIncoming metadata true
        { c.receiving with waiting := c.receiving.waiting.eraseIdx index }).2 := by
    obtain ⟨hactive, -, hdisk⟩ := TransferClient.decideIncoming_accepted metadata
      { c.receiving with waiting := c.receiving.waiting.eraseIdx index }
    have hsame := trans_of SameResumes (a := c.receiving) hleft.resumeAnswers
      (TransferClient.sameResumes_decideIncoming metadata true _)
    exact ⟨fun receiver h _ ↦ hactive.trans h, by rw [hdisk], fun k _ hk ↦ by rw [hsame, hk]⟩
  unfold TransferClient.runWaiting
  rw [hwaiting]
  dsimp only
  split
  · exact hrefused (haligned _ hwaiting (.inl rfl))
  · next value hdecision =>
    cases value with
    | true => exact haccepted
    | false => exact hrefused (haligned _ hwaiting (.inr hdecision))
  · exact sparesReceiving_refl b c

theorem spares_awaitResume (hb : b ≠ a) {index : ℕ} {timedOut : Bool}
    (hnamed : c.names (.awaitResume index timedOut) = some a)
    (haligned : c.Aligned (.awaitResume index timedOut)) :
    SparesReceiving b c (c.receiving.runResuming index timedOut) := by
  obtain ⟨k, hresuming, hid⟩ := Option.bind_eq_some_iff.mp hnamed
  have hleft : Apart c.receiving { c.receiving with resuming := c.receiving.resuming.eraseIdx index } :=
    ⟨rfl, rfl, rfl, rfl, rfl, rfl⟩
  unfold TransferClient.runResuming
  rw [hresuming]
  dsimp only
  split
  · exact sparesReceiving_after hb (haligned rfl k hresuming a hid) hleft
      (TransferClient.within_abandonResume _) (TransferClient.sameResumes_abandonResume _)
  · exact sparesReceiving_of_apart hleft
  · exact sparesReceiving_refl b c

/-- A coroutine that sends spares every transfer. -/
theorem SendSide.spares {c' : FerryControlClient} (h : SendSide c c') (b : Text) : Spares b c c' where
  toSparesReceiving := sparesReceiving_of_apart h.apart
  accepts := by
    intro k hk
    obtain ⟨rest, hrest⟩ := h.answers
    obtain ⟨hlt, -⟩ := List.getElem?_eq_some_iff.mp hk
    rw [← hrest, List.getElem?_append_left hlt, hk]
  flags := fun _ ↦ ⟨h.cancelled, h.cancelledByPeer⟩

/-- An aligned event isolates the transfers. -/
theorem isolates_of_aligned (hc : c.receiving.Coherent) {event : ControlEvent} (haligned : c.Aligned event) :
    c.Isolates event := by
  intro a hnamed b hb
  unfold step
  split
  · cases event with
    | frame now frame =>
      cases frame with
      | chunk plaintext =>
        obtain ⟨chunk, hchunk, rfl⟩ := Option.map_eq_some_iff.mp hnamed
        exact spares_chunk hb (haligned chunk hchunk) now plaintext
      | message message => exact spares_message hb hc hnamed haligned now
      | pairDecision accept => simp [names] at hnamed
    | decideIncoming index timedOut =>
      exact spares_of_receiving (spares_decideIncoming hb hnamed haligned)
    | awaitResume index timedOut => exact spares_of_receiving (spares_awaitResume hb hnamed haligned)
    | goOn now index input => exact SendSide.spares (sendSide_goOn now index input c) b
    | startSession _ _ | loopEnd _ | acceptPairing | rejectPairing | setAutoAcceptTransfers _
    | acceptIncomingTransfer | rejectIncomingTransfer | cancelIncomingTransfer _ | cancelOutgoingTransfer
    | requestResume _ _ | discardInterrupted _ | sendFile _ _ _ _ | sendBatch _ _ _ _ _
    | goOnResuming _ _ _ | disk _ => simp [names] at hnamed
  · exact Spares.refl b c

end Step

/-! ## Every run -/

/-- In a run whose events are aligned, every event that names a transfer spares all others. -/
theorem isolation_of_aligned (stagingDir : Path) (disk : Disk) (autoAcceptTransfers : Bool)
    (sendFaults : List Bool) (publicKeyB64 : Text) (store : InterruptedTransferStore)
    (events : List ControlEvent)
    (h : (new (TransferClient.new stagingDir disk autoAcceptTransfers sendFaults) publicKeyB64
      store).AlignedRun events) :
    (new (TransferClient.new stagingDir disk autoAcceptTransfers sendFaults) publicKeyB64
      store).IsolatesRun events := by
  have hrun : ∀ (events : List ControlEvent) (c : FerryControlClient), c.receiving.Coherent →
      c.AlignedRun events → c.IsolatesRun events := by
    intro events
    induction events with
    | nil => exact fun _ _ _ ↦ trivial
    | cons event events ih =>
      rintro c hc ⟨haligned, hrest⟩
      exact ⟨isolates_of_aligned hc haligned, ih _ (coherent_step hc event) hrest⟩
  exact hrun events _ ⟨rfl, fun receiver hactive ↦ by simp [new, TransferClient.new] at hactive⟩ h

/-! ## A late message -/

/-- The transfer that the client sends, and one that is over. -/
def sampleOutgoingId : Text := Text.lit "00000000-0000-0000-0000-000000000002"
def sampleOldId : Text := Text.lit "00000000-0000-0000-0000-000000000003"

def sampleSource : SourceFile where
  fileName := Text.lit "b.txt"
  fileSize := 1
  mimeType := Text.lit "text/plain"
  opens := true
  content := some [0]

def sampleClient : FerryControlClient :=
  new (TransferClient.new TransferClient.sampleStagingDir TransferClient.sampleDisk true []) [] ∅

/-- The client receives a file and waits for the answer to a request of its own. -/
def sampleBusy : List ControlEvent :=
  [.startSession (Text.lit "peer") true,
    .frame 0 (.message (.transferRequest (TransferClient.sampleFields []))),
    .sendFile 0 (Text.lit "content://b") sampleOutgoingId sampleSource, .goOn 0 0 .turn]

/-- The peer accepts, and the transfer that it sends is cancelled when the other one is over. -/
def sampleOrderly : List ControlEvent :=
  sampleBusy ++ [.frame 0 (.chunk TransferClient.sampleChunk),
    .frame 0 (.message (.transferAccept sampleOutgoingId)), .goOn 0 0 .turn, .goOn 0 0 .eof,
    .goOn 0 0 .turn, .goOn 0 0 .turn,
    .frame 0 (.message (.transferCancel TransferClient.sampleTransferId))]

theorem isolation_of_aligned_sample : sampleClient.IsolatesRun sampleOrderly := by
  have hchunk : ∀ chunk ∈ (Kotlin.decodeChunkFrame TransferClient.sampleChunk.1).toOption,
      (sampleClient.run sampleBusy).receiving.ReceiverOf chunk.1 := by
    decide +kernel
  have haccept : (sampleClient.run (sampleOrderly.take 5)).AcceptOf sampleOutgoingId := by
    decide +kernel
  have hcancel : (sampleClient.run (sampleOrderly.take 10)).AcceptOf TransferClient.sampleTransferId ∧
      (sampleClient.run (sampleOrderly.take 10)).receiving.ReceiverOf TransferClient.sampleTransferId ∧
      (sampleClient.run (sampleOrderly.take 10)).SendsOnly TransferClient.sampleTransferId := by
    decide +kernel
  refine isolation_of_aligned TransferClient.sampleStagingDir TransferClient.sampleDisk true [] [] ∅
    sampleOrderly ?_
  exact ⟨trivial, trivial, trivial, trivial, hchunk, .inr haccept, trivial, trivial, trivial, trivial,
    ⟨hcancel.1, .inr ⟨hcancel.2.1, .inr hcancel.2.2⟩⟩, trivial⟩

/-- A TRANSFER_CANCEL for a transfer that is over cancels the receiver of another transfer, and the
request of a third one. -/
theorem late_cancel_meets_others :
    ¬sampleClient.IsolatesRun (sampleBusy ++ [.frame 0 (.message (.transferCancel sampleOldId))]) := by
  rintro ⟨-, -, -, -, hlast, -⟩
  have hspares := hlast sampleOldId rfl sampleOutgoingId (by decide)
  have hkept := hspares.accepts 0 (by decide +kernel)
  exact absurd hkept (by decide +kernel)

end FerryControlClient

end Ferry
