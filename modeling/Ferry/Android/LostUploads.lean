import Ferry.Android.Cancelling
import Ferry.Android.ResumeSuffix

/-!
# Uploads whose connection drops

`sendFile` saves the record of an upload where its stream has returned `false`, and a write that fails raises
past it.  The `finally` of `onResumeRequest` deletes the record however its stream has ended.
-/

namespace Ferry

open Exec

namespace FerryControlClient

/-! ## The property -/

/-- The next thing that a call of `sendFile` does is to write a frame. -/
def WritesNext : SendPhase → SendInput → Prop
  | .streaming, .data _ | .streamed true, .turn => True
  | _, _ => False

/-- A coroutine of `onResumeRequest` that streams cannot write its frame, or not read its content. -/
def ResumeFails (c : FerryControlClient) (session : ℕ) : ResumePhase → SendInput → Prop
  | .streaming, .data _ | .streamed, .turn => c.WriteFails session
  | .streaming, .readError => True
  | _, _ => False

/-- The connection drops in the turn of a call of `sendFile`, after at least one chunk was sent, or a
coroutine of `onResumeRequest` fails in its turn.  Nobody has cancelled. -/
inductive Drops (c : FerryControlClient) : ControlEvent → Text → Prop
  | upload {now : ℤ} {index : ℕ} {input : SendInput} {file : FileSend}
      (hturn : c.turnOf (.goOn now index input) = some file) (hwrites : WritesNext file.phase input)
      (hsent : file.digest ≠ []) (hown : c.outgoingCancelled = false)
      (hpeer : c.outgoingCancelledByPeer = false) (hfails : c.WriteFails file.session) :
      c.Drops (.goOn now index input) file.payload.transferId
  | resumed {now : ℤ} {index : ℕ} {input : SendInput} {resume : ResumeSend}
      (hturn : c.resumeSends[index]? = some resume) (hown : c.outgoingCancelled = false)
      (hpeer : c.outgoingCancelledByPeer = false)
      (hfails : c.ResumeFails resume.session resume.phase input) :
      c.Drops (.goOnResuming now index input) resume.transferId

/-- The store holds the record of an upload to the peer with a key, with the URI of its content. -/
def KeepsUpload (c : FerryControlClient) (transferId uri key : Text) : Prop :=
  ∃ record ∈ c.interruptedStore.get transferId, record.direction = .outgoing ∧
    record.receiverIdentity = key ∧ record.contentUriString = some uri

/-- The upload is over and cannot be resumed: there is no record for it, and a coroutine that a resume
request launches answers TRANSFER_NOT_FOUND. -/
structure Forgotten (c : FerryControlClient) (transferId : Text) : Prop where
  ended : ∀ file ∈ c.files, file.payload.transferId = transferId → file.phase = .ending false
  unkept : ∀ uri key, ¬c.KeepsUpload transferId uri key
  answered : ∀ (now : ℤ) (item : Text) (source : SourceFile) (resume : ResumeSend),
    resume.transferId = transferId → resume.phase = .launched → ¬c.WriteFails resume.session →
      Says ⟨c, now, .item item source⟩ resume (.returns false)
        [.transferResumeReject transferId "TRANSFER_NOT_FOUND"]

/-! ## Transfers that are lost -/

/-- The invariant: no new call may use the identifier, and no call for it can save a record. -/
structure Lost (c : FerryControlClient) (transferId : Text) : Prop where
  used : c.Requested transferId ∨ c.Accepted transferId
  unresumable : ¬c.Resumable transferId
  ended : ∀ file ∈ c.files, file.payload.transferId = transferId → file.phase = .ending false

section Lost

variable {c c' : FerryControlClient} {frames : List OutgoingFrame} {transferId : Text}

/-- A record that cannot be resumed has no URI when it is read. -/
theorem load_uri_eq_none (h : ¬c.Resumable transferId) (now : ℤ) :
    (c.interruptedStore.load now transferId).1.bind InterruptedRecord.contentUriString = none := by
  unfold InterruptedTransferStore.load
  cases hrecord : c.interruptedStore.get transferId with
  | none => rfl
  | some record =>
    have huri : record.contentUriString = none := by
      by_contra hne
      exact h ⟨record, hrecord, hne⟩
    dsimp only
    split
    · rfl
    · exact huri

theorem Lost.forgotten (h : c.Lost transferId) : c.Forgotten transferId where
  ended := h.ended
  unkept := by
    rintro uri key ⟨record, hrecord, -, -, huri⟩
    exact h.unresumable ⟨record, hrecord, huri ▸ nofun⟩
  answered := by
    rintro now item source resume rfl hphase hcalm
    exact says_notFound hcalm hphase rfl (load_uri_eq_none h.unresumable now)

/-- A step whose calls for the transfer are those of before. -/
theorem Lost.later (h : c.Lost transferId) (hwritten : c'.written = c.written ++ frames)
    (hresumable : c'.Resumable transferId → c.Resumable transferId)
    (hfiles : ∀ file ∈ c'.files, file.payload.transferId = transferId → file.phase ≠ .ending false →
      file ∈ c.files) : c'.Lost transferId where
  used := h.used.imp (·.later hwritten) (·.later hwritten)
  unresumable := h.unresumable ∘ hresumable
  ended := by
    intro file hfile hid
    by_contra hphase
    exact hphase (h.ended file (hfiles file hfile hid hphase) hid)

/-- A call whose stream was broken off only returns. -/
theorem FileMove.ending {file next : FileSend} (h : FileMove file (some next) frames)
    (hphase : file.phase = .ending false) : next.phase = .ending false := by
  cases h with
  | moves phase hwhole _ =>
    by_contra hne
    have hlive := hwhole hne
    rw [hphase] at hlive
    exact hlive
  | chunk _ hstreaming => exact nomatch hphase.symm.trans hstreaming
  | completes hstreamed => exact nomatch hphase.symm.trans hstreamed
  | cancels _ hstreamed => exact nomatch hphase.symm.trans hstreamed

/-- Every event with a fresh identifier leaves a lost transfer lost. -/
theorem lost_step (h : c.Lost transferId) {event : ControlEvent} (hfresh : c.Fresh event) :
    (c.step event).Lost transferId := by
  cases turn_step c event with
  | batch _ hfiles hwrites =>
    exact h.later hwrites.written (hwrites.resumable _) fun file hfile _ _ ↦ hfiles.mem_iff.mp hfile
  | begins hid hfiles hbegins =>
    refine h.later hbegins.written (hbegins.resumable _) fun file hfile hown _ ↦ ?_
    rcases List.mem_cons.mp (hfiles.mem_iff.mp hfile) with rfl | hold
    · obtain ⟨hrequested, haccepted, -⟩ := hfresh _ (hid.trans (congrArg some
        (hbegins.transferId_eq.symm.trans hown)))
      exact (h.used.elim hrequested haccepted).elim
    · exact hold
  | @file file new _ rest hturn hbefore hafter hfile =>
    have hmem : file ∈ c.files := hbefore.mem_iff.mpr List.mem_cons_self
    refine h.later hfile.written (fun hresumable ↦ ?_) fun current hcurrent hid hphase ↦ ?_
    · rcases hfile.resumable _ hresumable with hold | ⟨hid, hlost⟩
      · exact hold
      · exact nomatch hlost.symm.trans (h.ended file hmem hid.symm)
    · rcases hfile.cases hafter hcurrent with hmove | hother
      · have hown : file.payload.transferId = transferId := hmove.payload ▸ hid
        exact absurd (hmove.ending (h.ended file hmem hown)) hphase
      · exact hbefore.mem_iff.mpr (List.mem_cons_of_mem _ hother)
  | launches _ _ hidle =>
    have hfiles : (c.step event).files = c.files := congrArg (List.filterMap SendJob.file) hidle.jobs
    exact h.later hidle.written (hidle.resumable _) fun file hfile _ _ ↦ hfiles ▸ hfile
  | resume _ _ _ hturn =>
    obtain ⟨frames, -, hwrites⟩ := hturn
    have hfiles : (c.step event).files = c.files := congrArg (List.filterMap SendJob.file) hwrites.jobs
    exact h.later hwrites.written (hwrites.resumable _) fun file hfile _ _ ↦ hfiles ▸ hfile

end Lost

/-! ## The turn in which the connection drops -/

section Turn

variable {c : FerryControlClient}

theorem wp_write_fails {session : ℕ} (h : c.WriteFails session) (frame : OutgoingFrame) :
    wp (write session frame) (fun r c' ↦ (∃ e, r = .error e) ∧ Idle c c') c := by
  unfold write
  rw [wp_get_bind, wp_raiseIf_bind]
  refine ⟨fun _ ↦ ⟨⟨_, rfl⟩, Idle.refl c⟩, fun hlive ↦ ?_⟩
  unfold update
  rw [wp_modify_bind, wp_raiseIf_bind]
  refine ⟨fun _ ↦ ⟨⟨_, rfl⟩, idle_of_eq rfl rfl rfl rfl rfl rfl⟩, fun hwhole ↦ ?_⟩
  exact absurd (h.resolve_left hlive) hwhole

/-- A turn that begins with the write raises with it. -/
theorem wp_write_bind_fails {α : Type} {session : ℕ} (h : c.WriteFails session) (frame : OutgoingFrame)
    (rest : Unit → Action α) :
    wp (write session frame >>= rest) (fun r c' ↦ (∃ e, r = .error e) ∧ Idle c c') c := by
  apply wp_bind_of (wp_write_fails h frame)
  · exact fun e c' hraised ↦ ⟨⟨e, rfl⟩, hraised.2⟩
  · rintro u c' ⟨⟨e, he⟩, -⟩
    exact nomatch he

theorem wp_goOnFile_fails (now : ℤ) {input : SendInput} {file : FileSend}
    (hwrites : WritesNext file.phase input) (hown : c.outgoingCancelled = false)
    (hfails : c.WriteFails file.session) :
    wp (goOnFile now input file) (fun r c' ↦ (∃ e, r = .error e) ∧ Idle c c') c := by
  unfold goOnFile
  rw [wp_get_bind]
  cases hphase : file.phase with
  | requested | awaiting _ | ending _ =>
    rw [hphase] at hwrites
    exact hwrites.elim
  | streaming =>
    rw [hphase] at hwrites
    cases input with
    | data data =>
      rw [hown]
      exact wp_write_bind_fails hfails _ _
    | _ => exact hwrites.elim
  | streamed streamSuccess =>
    rw [hphase] at hwrites
    cases streamSuccess with
    | false => exact hwrites.elim
    | true => exact wp_write_bind_fails hfails _ _

/-- The call that meets the drop is over, and its record is not saved. -/
theorem step_upload {now : ℤ} {index : ℕ} {input : SendInput} {file : FileSend}
    (hturn : c.turnOf (.goOn now index input) = some file) (hwrites : WritesNext file.phase input)
    (hown : c.outgoingCancelled = false) (hfails : c.WriteFails file.session) :
    ∃ c', Idle c c' ∧
      c.step (.goOn now index input) = { c' with jobs := c.jobs.eraseIdx index } := by
  obtain ⟨job, hjob, hfile⟩ := Option.bind_eq_some_iff.mp hturn
  have hjobTurn : wp (goOnJob now input job) (fun r c' ↦ (∃ e, r = .error e) ∧ Idle c c') c := by
    unfold goOnJob
    rw [hfile]
    apply wp_bind_of (wp_goOnFile_fails now hwrites hown hfails)
    · exact fun e c' hraised ↦ ⟨⟨e, rfl⟩, hraised.2⟩
    · rintro progress c' ⟨⟨e, he⟩, -⟩
      exact nomatch he
  have hsettled : wp (settle (goOnJob now input job))
      (fun r c' ↦ r = .ok (.returns false) ∧ Idle c c') c := by
    apply wp_tryCatch_of hjobTurn
    · exact fun e c' hraised ↦ ⟨rfl, hraised.2⟩
    · rintro progress c' ⟨⟨e, he⟩, -⟩
      exact nomatch he
  have hact : wp (goOn now index input) (fun _ c' ↦ ∃ c₀, Idle c c₀ ∧
      c' = { c₀ with jobs := c.jobs.eraseIdx index }) c := by
    unfold goOn
    rw [wp_get_bind, hjob]
    apply wp_bind_of hsettled
    · exact fun e c' he ↦ (nomatch he.1)
    · rintro progress c' ⟨⟨⟩, hidle⟩
      exact ⟨c', hidle, by rw [← hidle.jobs]; rfl⟩
  exact hact

theorem wp_forgetRecord_fails {resume : ResumeSend} {m : Action (Progress ResumeSend)}
    (h : wp m (fun r c' ↦ (∃ e, r = .error e) ∧ Idle c c') c) :
    wp (forgetRecord resume m) (fun r c' ↦ r = .ok (.returns false) ∧ Idle c c' ∧
      c'.interruptedStore.get resume.transferId = none) c := by
  unfold forgetRecord
  apply wp_bind_of (P := fun r c' ↦ r = .ok (.returns false) ∧ Idle c c')
  · apply wp_tryCatch_of h
    · exact fun e c' hraised ↦ ⟨rfl, hraised.2⟩
    · rintro progress c' ⟨⟨e, he⟩, -⟩
      exact nomatch he
  · exact fun e c' he ↦ (nomatch he.1)
  · rintro progress c' ⟨⟨⟩, hidle⟩
    exact ⟨rfl, hidle.trans (idle_pop c' resume.transferId), Dict.get_pop_self _ _⟩

theorem wp_goOnResume_fails (now : ℤ) {input : SendInput} {resume : ResumeSend}
    (hown : c.outgoingCancelled = false) (hfails : c.ResumeFails resume.session resume.phase input) :
    wp (goOnResume now input resume) (fun r c' ↦ r = .ok (.returns false) ∧ Idle c c' ∧
      c'.interruptedStore.get resume.transferId = none) c := by
  cases hphase : resume.phase with
  | launched | accepted _ =>
    rw [hphase] at hfails
    exact hfails.elim
  | streaming =>
    rw [hphase] at hfails
    rw [goOnResume_streaming hphase]
    cases input with
    | data data =>
      apply wp_forgetRecord_fails
      unfold streamResumed
      rw [wp_get_bind, hown]
      exact wp_write_bind_fails hfails _ _
    | readError =>
      apply wp_forgetRecord_fails
      unfold streamResumed
      rw [wp_get_bind, hown]
      exact ⟨⟨_, rfl⟩, Idle.refl c⟩
    | _ => exact hfails.elim
  | streamed =>
    rw [hphase] at hfails
    cases input with
    | turn =>
      unfold goOnResume
      rw [hphase]
      exact wp_forgetRecord_fails (wp_write_bind_fails hfails _ _)
    | _ => exact hfails.elim

/-- The coroutine that meets the drop deletes the record. -/
theorem step_resumed {now : ℤ} {index : ℕ} {input : SendInput} {resume : ResumeSend}
    (hturn : c.resumeSends[index]? = some resume) (hown : c.outgoingCancelled = false)
    (hfails : c.ResumeFails resume.session resume.phase input) :
    ∃ c', Idle c c' ∧ c'.interruptedStore.get resume.transferId = none ∧
      c.step (.goOnResuming now index input) = { c' with resumeSends := c.resumeSends.eraseIdx index } := by
  have hact : wp (goOnResuming now index input) (fun _ c' ↦ ∃ c₀, Idle c c₀ ∧
      c₀.interruptedStore.get resume.transferId = none ∧
      c' = { c₀ with resumeSends := c.resumeSends.eraseIdx index }) c := by
    unfold goOnResuming
    rw [wp_get_bind, hturn]
    apply wp_bind_of (P := fun r c' ↦ r = .ok (.returns false) ∧ Idle c c' ∧
      c'.interruptedStore.get resume.transferId = none)
    · apply wp_tryCatch_of (wp_goOnResume_fails now hown hfails)
      · exact fun e c' he ↦ (nomatch he.1)
      · exact fun progress c' h ↦ h
    · exact fun e c' he ↦ (nomatch he.1)
    · rintro progress c' ⟨⟨⟩, hidle, hstore⟩
      exact ⟨c', hidle, hstore, by rw [← hidle.resumeSends]; rfl⟩
  exact hact

/-- A dropped upload is lost: its call is over, and no record was made before. -/
theorem lost_upload (h : c.Separate) {now : ℤ} {index : ℕ} {input : SendInput} {file : FileSend}
    (hturn : c.turnOf (.goOn now index input) = some file) (hwrites : WritesNext file.phase input)
    (hown : c.outgoingCancelled = false) (hfails : c.WriteFails file.session) :
    (c.step (.goOn now index input)).Lost file.payload.transferId := by
  obtain ⟨c', hidle, hstep⟩ := step_upload hturn hwrites hown hfails
  obtain ⟨job, hjob, hfile⟩ := Option.bind_eq_some_iff.mp hturn
  have hbefore : c.files.Perm (file :: (c.jobs.eraseIdx index).filterMap SendJob.file) := by
    have hperm := @filterMap_cons_perm _ _ (some job) (afterTurn_perm hjob .waits).1
    rwa [Option.bind_some, hfile] at hperm
  obtain ⟨hmem, -, hothers⟩ := h.others hbefore
  have howned := h.owned file hmem
  have hphase : file.phase ≠ .ending false := by
    intro hending
    rw [hending] at hwrites
    exact hwrites
  rw [hstep]
  refine ⟨.inl (howned.requested.later hidle.written), fun hresumable ↦ ?_, fun other hother hid ↦ ?_⟩
  · exact (howned.untouched hphase).2 (hidle.resumable _ hresumable)
  · exact absurd hid (hothers other hother).2

/-- A dropped resume is lost: the record is deleted, and no call that sends the transfer makes a new one. -/
theorem lost_resumed (h : c.Separate) {now : ℤ} {index : ℕ} {input : SendInput} {resume : ResumeSend}
    (hturn : c.resumeSends[index]? = some resume) (hown : c.outgoingCancelled = false)
    (hfails : c.ResumeFails resume.session resume.phase input) :
    (c.step (.goOnResuming now index input)).Lost resume.transferId := by
  obtain ⟨c', hidle, hstore, hstep⟩ := step_resumed hturn hown hfails
  have haccepted : c.Accepted resume.transferId := by
    refine h.resumes resume (List.mem_of_getElem? hturn) fun hphase ↦ ?_
    rw [hphase] at hfails
    exact hfails
  rw [hstep]
  refine ⟨.inr (haccepted.later hidle.written), ?_, fun file hfile hid ↦ ?_⟩
  · rintro ⟨record, hrecord, -⟩
    exact nomatch hstore.symm.trans hrecord
  · by_contra hphase
    have hbefore : file ∈ c.files := by
      have hfiles : c'.files = c.files := congrArg (List.filterMap SendJob.file) hidle.jobs
      exact hfiles ▸ hfile
    exact ((h.owned file hbefore).untouched hphase).1 (hid ▸ haccepted)

end Turn

/-! ## Every run -/

theorem Drops.lost {c : FerryControlClient} {event : ControlEvent} {transferId : Text}
    (hdrops : c.Drops event transferId) (h : c.Separate) : (c.step event).Lost transferId := by
  cases hdrops with
  | upload hturn hwrites _ hown _ hfails => exact lost_upload h hturn hwrites hown hfails
  | resumed hturn hown _ hfails => exact lost_resumed h hturn hown hfails

/-- In no run does an upload whose connection drops stay resumable, the first time or in a resume: at no
later time is there a record for it, and every further resume request is answered TRANSFER_NOT_FOUND. -/
theorem forgotten_after_drop (receiving : TransferClient) (publicKeyB64 : Text)
    (store : InterruptedTransferStore) (earlier later : List ControlEvent) (event : ControlEvent)
    (transferId : Text) (hearlier : (new receiving publicKeyB64 store).Along Fresh earlier)
    (hdrops : ((new receiving publicKeyB64 store).run earlier).Drops event transferId)
    (hlater : (((new receiving publicKeyB64 store).run earlier).step event).Along Fresh later) :
    ((new receiving publicKeyB64 store).run (earlier ++ event :: later)).Forgotten transferId := by
  have hseparate : ((new receiving publicKeyB64 store).run earlier).Separate :=
    Along.induction (P := Separate) (fun _ _ hc hfresh ↦ separate_step hc hfresh)
      (accounted_new receiving publicKeyB64 store).toSeparate hearlier
  have hlost := Along.induction (P := fun c ↦ c.Lost transferId)
    (fun _ _ hc hfresh ↦ lost_step hc hfresh) (hdrops.lost hseparate) hlater
  unfold run
  rw [List.foldl_append]
  exact hlost.forgotten

/-! ## A drop in an upload and one in its resume -/

/-- An upload of two bytes in two pieces, whose session ends after the first. -/
def droppedUpload : List ControlEvent :=
  [.startSession (Text.lit "peer") true,
    .sendFile 0 (Text.lit "content://b") sampleOutgoingId
      { sampleSource with fileSize := 2, content := some [0, 1] },
    .goOn 0 0 .turn, .frame 0 (.message (.transferAccept sampleOutgoingId)), .goOn 0 0 .turn,
    .goOn 0 0 (.data [0]), .loopEnd 0]

/-- The peer asks to resume from the start. -/
def resumeRequested : ControlEvent :=
  .frame 0 (.message (.transferResumeRequest servedRecord.transferId 0 0 (Sha256.hexdigest [])))

/-- The resume of an upload of which there is a record, and the session ends after the first byte. -/
def droppedResume : List ControlEvent :=
  [.startSession (Text.lit "peer") true, resumeRequested,
    .goOnResuming 0 0 (.item [] ⟨[], 3, [], true, some servedContent⟩),
    .goOnResuming 0 0 (.opened (some 0)), .goOnResuming 0 0 (.data [1]), .loopEnd 0]

/-- The next session, in which the peer asks again. -/
def resumedAgain : List ControlEvent :=
  [.startSession (Text.lit "peer") true, resumeRequested,
    .goOnResuming 0 0 (.item [] ⟨[], 3, [], true, some servedContent⟩)]

def recordedClient : FerryControlClient :=
  new (TransferClient.new TransferClient.sampleStagingDir TransferClient.sampleDisk true []) []
    (Dict.set ∅ servedRecord.transferId servedRecord)

theorem drops_droppedUpload :
    (sampleClient.run droppedUpload).Drops (.goOn 0 0 (.data [1])) sampleOutgoingId := by
  obtain ⟨file, hturn, hphase, hdigest, hid⟩ : ∃ file,
      (sampleClient.run droppedUpload).turnOf (.goOn 0 0 (.data [1])) = some file ∧
        file.phase = .streaming ∧ file.digest = [0] ∧ file.payload.transferId = sampleOutgoingId :=
    ⟨_, rfl, by decide +kernel, by decide +kernel, by decide +kernel⟩
  rw [← hid]
  refine .upload hturn (hphase ▸ trivial) (hdigest ▸ nofun) ?_ ?_ (.inl (.inl ?_)) <;> decide +kernel

theorem drops_droppedResume :
    (recordedClient.run droppedResume).Drops (.goOnResuming 0 0 (.data [2])) servedRecord.transferId := by
  have hturn : (recordedClient.run droppedResume).resumeSends[0]? =
      some { startRequest.launched 1 with seq := 1, phase := .streaming } := by decide +kernel
  have hfails : (recordedClient.run droppedResume).WriteFails 1 := .inl (.inl (by decide +kernel))
  exact .resumed hturn (by decide +kernel) (by decide +kernel) hfails

theorem forgotten_droppedResume :
    (recordedClient.run (droppedResume ++ .goOnResuming 0 0 (.data [2]) :: resumedAgain)).Forgotten
      servedRecord.transferId :=
  forgotten_after_drop _ _ _ droppedResume resumedAgain _ _
    ⟨nofun, nofun, by decide +kernel, nofun, nofun, nofun, trivial⟩ drops_droppedResume
    ⟨nofun, nofun, by decide +kernel, trivial⟩

/-- No record is left of the upload that was dropped, nor of the one whose resume was, and the next
request for the second is refused. -/
theorem dropped_not_kept :
    (sampleClient.run droppedUpload).Drops (.goOn 0 0 (.data [1])) sampleOutgoingId ∧
      (∀ uri key, ¬(sampleClient.run (droppedUpload ++ [.goOn 0 0 (.data [1])])).KeepsUpload
        sampleOutgoingId uri key) ∧
      (recordedClient.run droppedResume).Drops (.goOnResuming 0 0 (.data [2])) servedRecord.transferId ∧
      (recordedClient.run (droppedResume ++ .goOnResuming 0 0 (.data [2]) :: resumedAgain)).written.getLast? =
        some (.transferResumeReject servedRecord.transferId "TRANSFER_NOT_FOUND") := by
  refine ⟨drops_droppedUpload, ?_, drops_droppedResume, by decide +kernel⟩
  rintro uri key ⟨record, hrecord, -⟩
  have hstore : (sampleClient.run (droppedUpload ++ [.goOn 0 0 (.data [1])])).interruptedStore.get
      sampleOutgoingId = none := by decide +kernel
  exact nomatch hstore.symm.trans hrecord

end FerryControlClient

end Ferry
