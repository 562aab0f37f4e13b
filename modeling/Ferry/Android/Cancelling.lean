import Ferry.Android.Lasting
import Ferry.Android.Ownership

/-!
# Uploads that the peer cancels

The branch TRANSFER_CANCEL ignores identifiers that were handled, and TRANSFER_ACCEPT puts the identifier
of an upload among them.  A cancellation that is processed first sets two flags which every upload that
starts takes back, so it stops the call of `sendFile` as long as no other upload starts meanwhile.
-/

namespace Ferry

open Exec

namespace FerryControlClient

/-! ## The property -/

/-- TRANSFER_CANCEL for a transfer. -/
def cancelled (now : ℤ) (transferId : Text) : ControlEvent :=
  .frame now (.message (.transferCancel transferId))

/-- A call of `sendFile` sends the transfer. -/
def Uploads (c : FerryControlClient) (transferId : Text) : Prop :=
  ∃ file ∈ c.files, file.payload.transferId = transferId

/-- An upload that was cancelled in `before` is stopped: no part of it has been written since, its
success is not reported, its call returns `false`, and another cancellation changes nothing unless it
finds the deferred of an upload. -/
structure Stopped (transferId : Text) (before c : FerryControlClient) : Prop where
  written : ∃ frames, c.written = before.written ++ frames ∧
    ∀ frame ∈ frames, frame.transfer ≠ some transferId
  unreported : ¬c.Reports transferId
  returned : ¬c.Uploads transferId → (transferId, false) ∈ c.returned
  returns : ∀ now index file, c.turnOf (.goOn now index .timeout) = some file →
    file.payload.transferId = transferId → ∃ n ≤ 3,
      (transferId, false) ∈ (c.run (List.replicate n (.goOn now index .timeout))).returned
  repeated : ∀ now, c.step (cancelled now transferId) = c ↔
    (c.receiving.running = true → c.pendingTransferAccept = none)

/-! ## The condition -/

/-- The call has not reached the end of its content. -/
def Unfinished (phase : SendPhase) : Prop := phase ≠ .streamed true ∧ phase ≠ .ending true

/-- The cancellation is processed before TRANSFER_ACCEPT, while the call of `sendFile` has not reached
the end of its content. -/
structure Cancellable (c : FerryControlClient) (transferId : Text) : Prop where
  running : c.receiving.running = true
  nonempty : transferId ≠ []
  unhandled : ¬c.receiving.Handled transferId
  untouched : c.Untouched transferId
  uploads : c.Uploads transferId
  unfinished : ∀ file ∈ c.files, file.payload.transferId = transferId → Unfinished file.phase

/-- The calls that send the transfer have been refused. -/
def Refused (c : FerryControlClient) (transferId : Text) : Prop :=
  ∀ file ∈ c.files, file.payload.transferId = transferId → ∃ k, file.phase = .awaiting k ∧ c.Declined k

/-- No other upload starts before the call has been refused or has returned. -/
def Waits (transferId : Text) (c : FerryControlClient) (event : ControlEvent) : Prop :=
  c.Fresh event ∧ (c.Resets event → c.Refused transferId)

/-- Every event of a run meets a condition in the state in which it happens. -/
def Along (condition : FerryControlClient → ControlEvent → Prop) (c : FerryControlClient) :
    List ControlEvent → Prop
  | [] => True
  | event :: events => condition c event ∧ (c.step event).Along condition events

/-! ## Turns of a call that was cancelled -/

/-- The call has been refused, or finds the flags. -/
def Stops (c : FerryControlClient) (file : FileSend) : Prop :=
  (∃ k, file.phase = .awaiting k ∧ c.Declined k) ∨ c.Cancelled

/-- How many turns a call has left at most when its timeouts pass. -/
def turnsLeft : SendPhase → ℕ
  | .streaming => 3
  | .requested | .streamed _ => 2
  | .awaiting _ | .ending _ => 1

/-- What a turn makes of a call that was cancelled. -/
structure StoppedTurn (file : FileSend) (input : SendInput) (new : Option FileSend)
    (c c' : FerryControlClient) : Prop where
  written : c'.written = c.written
  resumable : ∀ transferId, c'.Resumable transferId → c.Resumable transferId
  goesOn : ∀ next ∈ new, next.payload = file.payload ∧ Unfinished next.phase ∧ c'.Stops next ∧
    (input = .timeout → turnsLeft next.phase < turnsLeft file.phase)
  returns : new = none → (file.payload.transferId, false) ∈ c'.returned

section Turn

variable {c : FerryControlClient} {file : FileSend} {input : SendInput}

theorem stoppedTurn_returnFile (now : ℤ) :
    wp (returnFile now file false) (fun r c' ↦ StoppedTurn file input (remaining file r) c c') c where
  written := rfl
  resumable := fun _ ↦ id
  goesOn := nofun
  returns := fun _ ↦ List.mem_cons_self

/-- A turn that only moves the phase. -/
theorem stoppedTurn_moves {phase : SendPhase} (hflags : c.Cancelled) (hphase : Unfinished phase)
    (hleft : turnsLeft phase < turnsLeft file.phase) :
    wp (return .goesOn { file with phase } : Action (Progress FileSend))
      (fun r c' ↦ StoppedTurn file input (remaining file r) c c') c where
  written := rfl
  resumable := fun _ ↦ id
  goesOn := by
    intro next hnext
    obtain rfl : _ = next := Option.some.inj hnext
    exact ⟨rfl, hphase, .inr hflags, fun _ ↦ hleft⟩
  returns := nofun

/-- Both flags stop a call at its next turn, wherever it is. -/
theorem stoppedTurn_goOnFile (now : ℤ) (hphase : Unfinished file.phase) (hstops : c.Stops file) :
    wp (goOnFile now input file) (fun r c' ↦ StoppedTurn file input (remaining file r) c c') c := by
  have hflags (h : ∀ k, file.phase ≠ .awaiting k) : c.Cancelled :=
    hstops.resolve_left fun ⟨k, hawaiting, _⟩ ↦ h k hawaiting
  unfold goOnFile
  rw [wp_get_bind]
  split
  · next hrequested =>
    have hset := hflags (by simp [hrequested])
    refine ⟨rfl, fun _ ↦ id, fun next hnext ↦ ?_, nofun⟩
    obtain rfl : _ = next := Option.some.inj hnext
    exact ⟨rfl, ⟨nofun, nofun⟩, .inr hset, fun _ ↦ by simp [hrequested, turnsLeft]⟩
  · next k hawaiting =>
    split
    · exact ⟨rfl, fun _ ↦ id, nofun, fun _ ↦ List.mem_cons_self⟩
    · next hinput =>
      cases hanswer : c.transferAnswers[k]?.bind Prod.snd with
      | none =>
        refine ⟨rfl, fun _ ↦ id, fun next hnext ↦ ?_, nofun⟩
        obtain rfl : _ = next := Option.some.inj hnext
        exact ⟨rfl, hphase, hstops, fun h ↦ absurd h hinput⟩
      | some accepted =>
        cases accepted with
        | true =>
          have hset : c.Cancelled := by
            refine hstops.resolve_left ?_
            rintro ⟨k', hawaiting', hdeclined⟩
            obtain rfl : k = k' := SendPhase.awaiting.inj (hawaiting.symm.trans hawaiting')
            exact absurd (hdeclined.symm.trans hanswer) (by simp)
          refine ⟨rfl, fun _ ↦ id, fun next hnext ↦ ?_, nofun⟩
          obtain rfl : _ = next := Option.some.inj hnext
          exact ⟨rfl, ⟨nofun, nofun⟩, .inr hset, fun h ↦ absurd h hinput⟩
        | false => exact stoppedTurn_returnFile now
  · next hstreaming =>
    have hset := hflags (by simp [hstreaming])
    rw [if_pos hset.1]
    exact stoppedTurn_moves hset ⟨nofun, nofun⟩ (by simp [hstreaming, turnsLeft])
  · next hstreamed => exact absurd hstreamed hphase.1
  · next hstreamed =>
    have hset := hflags (by simp [hstreamed])
    unfold abortStream
    rw [wp_bind_assoc, wp_get_bind, if_neg (by simp [hset.1]), if_neg (by simp [hset.2])]
    exact stoppedTurn_moves hset ⟨nofun, nofun⟩ (by simp [hstreamed, turnsLeft])
  · next success hending =>
    obtain rfl : success = false := by
      cases success with
      | false => rfl
      | true => exact absurd hending hphase.2
    exact stoppedTurn_returnFile now

end Turn

/-- A turn of a call among the coroutines. -/
theorem wp_goOn_file {c : FerryControlClient} {now : ℤ} {index : ℕ} {input : SendInput} {job : SendJob}
    {file : FileSend} {P : Except KotlinException (Progress FileSend) → FerryControlClient → Prop}
    (hjob : c.jobs[index]? = some job) (hfile : job.file = some file)
    (h : wp (goOnFile now input file) P c) :
    wp (goOn now index input) (fun _ c' ↦ ∃ r c₁ progress, P r c₁ ∧
      c' = { c₁ with jobs := afterTurn c₁.jobs index progress } ∧
      (remaining job (.ok progress)).bind SendJob.file = remaining file r ∧
      ∀ next ∈ remaining file r, progress = .waits ∧ next = file ∨
        progress = .goesOn { job with file := some next }) c := by
  have hturn : wp (goOnJob now input job) (fun r' c₁ ↦ ∃ r, P r c₁ ∧
      (remaining job r').bind SendJob.file = remaining file r ∧
      ∀ next ∈ remaining file r, r' = .ok .waits ∧ next = file ∨
        r' = .ok (.goesOn { job with file := some next })) c := by
    have hgoes : goOnJob now input job = (do
        let progress ← goOnFile now input file
        return afterFile job progress) := by
      unfold goOnJob
      rw [hfile]
    rw [hgoes]
    apply wp_bind_of h
    · exact fun e c₁ hP ↦ ⟨.error e, hP, rfl, by simp [remaining]⟩
    · intro progress c₁ hP
      refine ⟨.ok progress, hP, ?_⟩
      cases progress with
      | waits => exact ⟨hfile, fun next hnext ↦ .inl ⟨rfl, (Option.some.inj hnext).symm⟩⟩
      | goesOn next =>
        refine ⟨rfl, fun other hother ↦ .inr ?_⟩
        obtain rfl : next = other := Option.some.inj hother
        rfl
      | returns value =>
        refine ⟨?_, by simp [remaining]⟩
        unfold afterFile
        dsimp only
        cases job.batch <;> rfl
  unfold goOn
  rw [wp_get_bind, hjob]
  apply wp_bind_of (wp_settle hturn ?_)
  · rintro e c' ⟨progress, hprogress, -⟩
    cases hprogress
  · rintro progress c₁ ⟨_, hprogress, r, hP, hremaining, hnext⟩
    obtain rfl := Except.ok.inj hprogress
    refine ⟨r, c₁, progress, hP, rfl, hremaining, fun next hmem ↦ ?_⟩
    exact (hnext next hmem).imp (fun h ↦ ⟨Except.ok.inj h.1, h.2⟩) Except.ok.inj
  · rintro e c₁ ⟨r, hP, hremaining, hnext⟩
    refine ⟨r, hP, hremaining, fun next hmem ↦ ?_⟩
    rcases hnext next hmem with ⟨h, -⟩ | h <;> cases h

/-- A turn of a call that was cancelled, as a step of the client. -/
theorem stoppedTurn_step {c : FerryControlClient} {now : ℤ} {index : ℕ} {input : SendInput}
    {job : SendJob} {file : FileSend} (hjob : c.jobs[index]? = some job) (hfile : job.file = some file)
    (hphase : Unfinished file.phase) (hstops : c.Stops file) :
    ∃ new rest, c.files.Perm (file :: rest) ∧
      (c.step (.goOn now index input)).files.Perm (new.toList ++ rest) ∧
      StoppedTurn file input new c (c.step (.goOn now index input)) ∧
      FileTurn file new [] c { c.step (.goOn now index input) with jobs := c.jobs } ∧
      ∀ next ∈ new,
        (c.step (.goOn now index input)).jobs[index]? = some { job with file := some next } := by
  have hboth := wp_and (fileTurn_goOnFile now input file c)
    (@stoppedTurn_goOnFile c file input now hphase hstops)
  obtain ⟨r, c₁, progress, ⟨⟨frames, hturn⟩, hstopped⟩, hstep, hremaining, hnext⟩ :=
    wp_goOn_file hjob hfile hboth
  have hc : c.step (.goOn now index input) = { c₁ with jobs := afterTurn c₁.jobs index progress } := hstep
  obtain rfl : frames = [] := by simpa [hstopped.written] using hturn.written
  obtain ⟨hbefore, hafter⟩ := afterTurn_perm hjob progress
  have hfilesBefore := @filterMap_cons_perm _ _ (some job) hbefore
  have hfilesAfter := filterMap_cons_perm hafter
  rw [Option.bind_some, hfile] at hfilesBefore
  rw [hremaining] at hfilesAfter
  have hfiles : (FerryControlClient.files { c₁ with jobs := afterTurn c₁.jobs index progress }) =
      (afterTurn c.jobs index progress).filterMap SendJob.file := by rw [← hturn.jobs]; rfl
  rw [hc]
  refine ⟨remaining file r, _, hfilesBefore, hfiles ▸ hfilesAfter,
    ⟨hstopped.written, hstopped.resumable, hstopped.goesOn, hstopped.returns⟩,
    ⟨hturn.move, rfl, hturn.resumeSends, hturn.written, hturn.resumable, hturn.reports⟩, ?_⟩
  intro next hmem
  obtain ⟨hlt, -⟩ := List.getElem?_eq_some_iff.mp hjob
  change (afterTurn c₁.jobs index progress)[index]? = _
  rw [hturn.jobs]
  rcases hnext next hmem with ⟨rfl, rfl⟩ | rfl
  · rw [afterTurn, hjob, ← hfile]
  · rw [afterTurn, List.getElem?_set_self hlt]

/-! ## One step -/

/-- What a run that began with the cancellation of a transfer in `before` keeps. -/
structure Stopping (transferId : Text) (before c : FerryControlClient) : Prop extends Separate c where
  requested : c.Requested transferId
  untouched : c.Untouched transferId
  handled : c.receiving.Handled transferId
  calls : ∀ file ∈ c.files, file.payload.transferId = transferId → Unfinished file.phase ∧ c.Stops file
  unreported : ¬c.Reports transferId
  returned : ¬c.Uploads transferId → (transferId, false) ∈ c.returned
  written : ∃ frames, c.written = before.written ++ frames ∧
    ∀ frame ∈ frames, frame.transfer ≠ some transferId

section Step

variable {transferId : Text} {before c c' : FerryControlClient} {frames : List OutgoingFrame}
  {resets : Prop}

theorem Stops.later {file : FileSend} (h : c.Stops file) (hlasts : Lasts resets c c')
    (hresets : resets → ∃ k, file.phase = .awaiting k ∧ c.Declined k) : c'.Stops file := by
  have hdeclined : (∃ k, file.phase = .awaiting k ∧ c.Declined k) → c'.Stops file := by
    rintro ⟨k, hphase, hdeclined⟩
    exact .inl ⟨k, hphase, hlasts.declined k hdeclined⟩
  rcases h with hrefused | hflags
  · exact hdeclined hrefused
  · exact (hlasts.cancelled hflags).elim (hdeclined ∘ hresets) .inr

/-- What has been written since, after more frames of other transfers. -/
theorem Stopping.written_later (h : Stopping transferId before c)
    (hwritten : c'.written = c.written ++ frames)
    (hother : ∀ frame ∈ frames, frame.transfer ≠ some transferId) :
    ∃ frames, c'.written = before.written ++ frames ∧
      ∀ frame ∈ frames, frame.transfer ≠ some transferId := by
  obtain ⟨earlier, hearlier, hframes⟩ := h.written
  refine ⟨earlier ++ frames, by rw [hwritten, hearlier, List.append_assoc], fun frame hframe ↦ ?_⟩
  rcases List.mem_append.mp hframe with hold | hnew
  · exact hframes frame hold
  · exact hother frame hnew

/-- A step in which no call of the transfer takes a turn. -/
theorem Stopping.of_frames (h : Stopping transferId before c) (hseparate : c'.Separate)
    (hlasts : Lasts resets c c') (hresets : resets → c.Refused transferId)
    (hwritten : c'.written = c.written ++ frames)
    (hother : ∀ frame ∈ frames, frame.transfer ≠ some transferId)
    (hresumable : c'.Resumable transferId → c.Resumable transferId)
    (hreports : c'.Reports transferId → c.Reports transferId)
    (hfiles : ∀ file, file.payload.transferId = transferId → (file ∈ c'.files ↔ file ∈ c.files)) :
    Stopping transferId before c' where
  toSeparate := hseparate
  requested := h.requested.later hwritten
  untouched := h.untouched.later hwritten
    (fun frame hframe ↦ OutgoingFrame.accepts_of_transfer_ne (hother frame hframe)) hresumable
  handled := hlasts.handled.handled h.handled
  calls := by
    intro file hfile hid
    have hold := (hfiles file hid).mp hfile
    obtain ⟨hphase, hstops⟩ := h.calls file hold hid
    exact ⟨hphase, hstops.later hlasts fun hr ↦ hresets hr file hold hid⟩
  unreported := h.unreported ∘ hreports
  returned := by
    intro hgone
    apply hlasts.returned
    refine h.returned fun ⟨file, hfile, hid⟩ ↦ hgone ⟨file, ?_, hid⟩
    exact (hfiles file hid).mpr hfile
  written := h.written_later hwritten hother

/-- A turn of the call of the transfer. -/
theorem Stopping.of_turn (h : Stopping transferId before c) (hseparate : c'.Separate)
    (hlasts : Lasts resets c c') {file : FileSend} {input : SendInput} {new : Option FileSend}
    {rest : List FileSend} (hid : file.payload.transferId = transferId)
    (hbefore : c.files.Perm (file :: rest)) (hafter : c'.files.Perm (new.toList ++ rest))
    (hstopped : StoppedTurn file input new c c')
    (hturn : FileTurn file new [] c { c' with jobs := c.jobs }) :
    Stopping transferId before c' := by
  obtain ⟨hmem, -, hrest⟩ := h.toSeparate.others hbefore
  have hwritten : c'.written = c.written ++ [] := hturn.written
  have hcall {current : FileSend} (hcurrent : current ∈ c'.files)
      (hown : current.payload.transferId = transferId) : current ∈ new := by
    rcases List.mem_append.mp (hafter.mem_iff.mp hcurrent) with hnew | hother
    · exact Option.mem_toList.mp hnew
    · exact absurd (hown.trans hid.symm) (hrest current hother).2
  refine ⟨hseparate, h.requested.later hwritten, ?_, hlasts.handled.handled h.handled, ?_, ?_, ?_, ?_⟩
  · exact h.untouched.later hwritten (by simp) (hstopped.resumable transferId)
  · intro current hcurrent hown
    obtain ⟨-, hphase, hstops, -⟩ := hstopped.goesOn current (hcall hcurrent hown)
    exact ⟨hphase, hstops⟩
  · intro hreports
    rcases hturn.reports transferId hreports with hold | ⟨-, hending, -⟩
    · exact h.unreported hold
    · exact (h.calls file hmem hid).1.2 hending
  · intro hgone
    cases hnew : new with
    | none => exact hid ▸ hstopped.returns hnew
    | some next =>
      refine absurd ⟨next, hafter.mem_iff.mpr ?_, ?_⟩ hgone
      · simp [hnew]
      · rw [(hstopped.goesOn next hnew).1, hid]
  · exact h.written_later hwritten (by simp)

/-- Every event that meets the condition. -/
theorem Stopping.step (h : Stopping transferId before c) {event : ControlEvent}
    (hwaits : Waits transferId c event) : Stopping transferId before (c.step event) := by
  have hseparate := separate_step h.toSeparate hwaits.1
  have hlasts := lasts_step c event
  cases turn_step c event with
  | batch hframes hfiles hwrites =>
    refine h.of_frames hseparate hlasts hwaits.2 hwrites.written (fun frame hframe ↦ ?_)
      (hwrites.resumable _) (hwrites.reports _) fun file _ ↦ hfiles.mem_iff
    simp [hframes frame hframe]
  | @begins _ file hnew hfiles hbegins =>
    have hne : file.payload.transferId ≠ transferId := by
      intro heq
      exact (hwaits.1 _ hnew).1 (hbegins.transferId_eq ▸ heq ▸ h.requested)
    refine h.of_frames hseparate hlasts hwaits.2 hbegins.written ?_ (hbegins.resumable _)
      (hbegins.reports _) fun current hid ↦ ?_
    · simpa [OutgoingFrame.transfer] using hne
    · rw [hfiles.mem_iff, List.mem_cons, or_iff_right]
      rintro rfl
      exact hne hid
  | @file file _ _ _ hcall hbefore hafter hturn =>
    by_cases hid : file.payload.transferId = transferId
    · cases event with
      | goOn now index input =>
        obtain ⟨job, hjob, hfile⟩ := Option.bind_eq_some_iff.mp hcall
        obtain ⟨hphase, hstops⟩ := h.calls file (hbefore.mem_iff.mpr List.mem_cons_self) hid
        obtain ⟨_, _, hbefore', hafter', hstopped, hturn', -⟩ := stoppedTurn_step hjob hfile hphase hstops
        exact h.of_turn hseparate hlasts hid hbefore' hafter' hstopped hturn'
      | startSession | frame | loopEnd | acceptPairing | rejectPairing | setAutoAcceptTransfers
      | acceptIncomingTransfer | rejectIncomingTransfer | cancelIncomingTransfer | cancelOutgoingTransfer
      | requestResume | discardInterrupted | sendFile | sendBatch | decideIncoming | awaitResume
      | goOnResuming | disk => simp [turnOf] at hcall
    · refine h.of_frames hseparate hlasts hwaits.2 hturn.written ?_ ?_ ?_ ?_
      · intro frame hframe heq
        rw [(hturn.move.transfer frame hframe).1] at heq
        exact hid (Option.some.inj heq)
      · exact fun hresumable ↦ (hturn.resumable _ hresumable).resolve_right fun hown ↦ hid hown.1.symm
      · exact fun hreports ↦ (hturn.reports _ hreports).resolve_right fun hown ↦ hid hown.1.symm
      · intro current hown
        have hcurrent : current ≠ file := by
          rintro rfl
          exact hid hown
        rw [hafter.mem_iff, hbefore.mem_iff, List.mem_append, List.mem_cons, or_iff_right hcurrent,
          or_iff_right]
        intro hnew
        have hmove := Option.mem_toList.mp hnew ▸ hturn.move
        exact hid (hmove.payload ▸ hown)
  | launches _ _ hidle =>
    have hfiles : (c.step event).files = c.files := congrArg (List.filterMap SendJob.file) hidle.jobs
    exact h.of_frames hseparate hlasts hwaits.2 hidle.written (by simp) (hidle.resumable _)
      (hidle.reports _) fun file _ ↦ by rw [hfiles]
  | resume _ hbefore _ hturn =>
    obtain ⟨frames, hmove, hwrites⟩ := hturn
    have hfiles : (c.step event).files = c.files := congrArg (List.filterMap SendJob.file) hwrites.jobs
    have hmem := hbefore.mem_iff.mpr List.mem_cons_self
    exact h.of_frames hseparate hlasts hwaits.2 hwrites.written
      (h.toSeparate.resume_frames hmem hmove h.untouched) (hwrites.resumable _) (hwrites.reports _)
      fun file _ ↦ by rw [hfiles]

end Step

/-! ## The cancellation -/

/-- A transfer whose success is reported was requested, and no call sends it any more. -/
structure Accounted (c : FerryControlClient) : Prop extends Separate c where
  requested : ∀ transferId, c.Reports transferId → c.Requested transferId
  unreported : ∀ file ∈ c.files, ¬c.Reports file.payload.transferId

section Cancellation

variable {transferId : Text} {c c' : FerryControlClient} {frames : List OutgoingFrame}

theorem Accounted.of_frames (h : c.Accounted) (hseparate : c'.Separate)
    (hwritten : c'.written = c.written ++ frames) (hfiles : ∀ file ∈ c'.files, file ∈ c.files)
    (hreports : ∀ transferId, c'.Reports transferId → c.Reports transferId) : c'.Accounted where
  toSeparate := hseparate
  requested := fun transferId hreported ↦ (h.requested transferId (hreports _ hreported)).later hwritten
  unreported := fun file hfile hreported ↦ h.unreported file (hfiles file hfile) (hreports _ hreported)

theorem accounted_step (h : c.Accounted) {event : ControlEvent} (hfresh : c.Fresh event) :
    (c.step event).Accounted := by
  have hseparate := separate_step h.toSeparate hfresh
  cases turn_step c event with
  | batch _ hfiles hwrites =>
    exact h.of_frames hseparate hwrites.written (fun file ↦ hfiles.mem_iff.mp) hwrites.reports
  | begins hid hfiles hbegins =>
    refine ⟨hseparate, fun other hreported ↦ ?_, fun file hfile hreported ↦ ?_⟩
    · exact (h.requested other (hbegins.reports other hreported)).later hbegins.written
    · have hold := hbegins.reports _ hreported
      rcases List.mem_cons.mp (hfiles.mem_iff.mp hfile) with rfl | hbefore
      · exact (hfresh _ hid).1 (hbegins.transferId_eq ▸ h.requested _ hold)
      · exact h.unreported file hbefore hold
  | @file file _ _ _ _ hbefore hafter hturn =>
    obtain ⟨hmem, -, hrest⟩ := h.toSeparate.others hbefore
    refine ⟨hseparate, fun other hreported ↦ ?_, fun current hcurrent hreported ↦ ?_⟩
    · rcases hturn.reports other hreported with hold | ⟨rfl, -⟩
      · exact (h.requested other hold).later hturn.written
      · exact ((h.owned file hmem).requested).later hturn.written
    · rcases hturn.reports _ hreported with hold | ⟨hown, -, hgone⟩
      · rcases hturn.cases hafter hcurrent with hmove | hother
        · exact h.unreported file hmem (hmove.payload ▸ hold)
        · exact h.unreported current (hrest current hother).1 hold
      · rw [hgone] at hafter
        exact (hrest current (hafter.mem_iff.mp hcurrent)).2 hown
  | launches _ _ hidle =>
    have hfiles : (c.step event).files = c.files := congrArg (List.filterMap SendJob.file) hidle.jobs
    exact h.of_frames hseparate hidle.written (fun file hfile ↦ hfiles ▸ hfile) hidle.reports
  | resume _ _ _ hturn =>
    obtain ⟨frames, -, hwrites⟩ := hturn
    have hfiles : (c.step event).files = c.files := congrArg (List.filterMap SendJob.file) hwrites.jobs
    exact h.of_frames hseparate hwrites.written (fun file hfile ↦ hfiles ▸ hfile) hwrites.reports

/-- A cancellation of an identifier that was not handled sets both flags. -/
theorem onTransferCancel_unhandled (hid : transferId ≠ []) (hunhandled : ¬c.receiving.Handled transferId) :
    wp (onTransferCancel transferId) (fun r c' ↦ (∃ u, r = .ok u) ∧ c'.Cancelled ∧
      c'.receiving.Handled transferId) c := by
  unfold onTransferCancel
  rw [wp_get_bind]
  have hreceiving : wp (onReceiving (TransferClient.onTransferCancel transferId))
      (fun r c' ↦ (∃ u, r = .ok u) ∧ c'.receiving.Handled transferId) c :=
    ⟨TransferClient.succeeds_onTransferCancel transferId c.receiving,
      TransferClient.handled_onTransferCancel hid c.receiving⟩
  apply wp_bind_of hreceiving
  · rintro e c' ⟨⟨u, hu⟩, -⟩
    exact nomatch hu
  · rintro u c' ⟨-, hhandled⟩
    rw [if_neg hunhandled]
    exact ⟨⟨(), rfl⟩, ⟨rfl, rfl⟩, hhandled⟩

/-- The cancellation stops the call. -/
theorem Cancellable.stopping (h : c.Cancellable transferId) (hc : c.Accounted) (now : ℤ) :
    Stopping transferId c (c.step (cancelled now transferId)) := by
  have hstep : c.step (cancelled now transferId) =
      (receiveFrame now (.message (.transferCancel transferId)) c).2 := if_pos h.running
  have hidle : Idle c (c.step (cancelled now transferId)) := by
    rw [hstep]
    exact stays_tryCatch (idle_onTransferCancel transferId) (fun _ ↦ idle_endLoop now) c
  have hset : (c.step (cancelled now transferId)).Cancelled ∧
      (c.step (cancelled now transferId)).receiving.Handled transferId := by
    rw [hstep]
    change wp (receiveFrame now (.message (.transferCancel transferId)))
      (fun _ c' ↦ c'.Cancelled ∧ c'.receiving.Handled transferId) c
    apply wp_tryCatch_of (onTransferCancel_unhandled h.nonempty h.unhandled)
    · rintro e c' ⟨⟨u, hu⟩, -⟩
      exact nomatch hu
    · exact fun _ _ hset ↦ hset.2
  have hfiles : (c.step (cancelled now transferId)).files = c.files :=
    congrArg (List.filterMap SendJob.file) hidle.jobs
  obtain ⟨file, hfile, hid⟩ := h.uploads
  refine ⟨separate_step hc.toSeparate nofun, ?_, ?_, hset.2, ?_, ?_, ?_, ?_⟩
  · exact (hid ▸ (hc.owned file hfile).requested).later hidle.written
  · exact h.untouched.later hidle.written (by simp) (hidle.resumable transferId)
  · intro current hcurrent hown
    exact ⟨h.unfinished current (hfiles ▸ hcurrent) hown, .inr hset.1⟩
  · exact fun hreported ↦ hc.unreported file hfile (hid ▸ hidle.reports _ hreported)
  · exact fun hgone ↦ absurd ⟨file, hfiles ▸ hfile, hid⟩ hgone
  · exact ⟨[], hidle.written, by simp⟩

/-- Another cancellation for a handled identifier completes the deferred in the slot, and does nothing
else. -/
theorem repeated_iff (h : c.receiving.Handled transferId) (now : ℤ) :
    c.step (cancelled now transferId) = c ↔
      (c.receiving.running = true → c.pendingTransferAccept = none) := by
  by_cases hrunning : c.receiving.running = true
  · have hstep : c.step (cancelled now transferId) = (completeAccept false c).2 := by
      have hsame : onReceiving (TransferClient.onTransferCancel transferId) c = (.ok (), c) := by
        change ((TransferClient.onTransferCancel transferId c.receiving).1,
          { c with receiving := (TransferClient.onTransferCancel transferId c.receiving).2 }) = _
        rw [onTransferCancel_handled h]
      have hcancel : onTransferCancel transferId c = completeAccept false c := by
        change (onReceiving (TransferClient.onTransferCancel transferId) >>= fun _ ↦ _) c = _
        rw [bind_run_of_ok hsame, if_pos h]
      have hframe : c.step (cancelled now transferId) =
          (handle (onTransferCancel transferId) (fun _ ↦ endLoop now) c).2 := if_pos hrunning
      rw [hframe, handle, hcancel]
      rfl
    rw [hstep]
    constructor
    · intro heq _
      exact (congrArg FerryControlClient.pendingTransferAccept heq).symm
    · intro hnone
      have hslot := hnone hrunning
      change { c with
        transferAnswers := completed c.transferAnswers false c.pendingTransferAccept
        pendingTransferAccept := none } = c
      rw [hslot, completed, ← hslot]
  · have hdisabled : c.step (cancelled now transferId) = c := if_neg hrunning
    exact ⟨fun _ hr ↦ absurd hr hrunning, fun _ ↦ hdisabled⟩

end Cancellation

/-! ## Every run -/

section Run

variable {transferId : Text} {before c : FerryControlClient}

theorem run_cons (c : FerryControlClient) (event : ControlEvent) (events : List ControlEvent) :
    c.run (event :: events) = (c.step event).run events := rfl

theorem Along.induction {condition : FerryControlClient → ControlEvent → Prop}
    {P : FerryControlClient → Prop}
    (hstep : ∀ c event, P c → condition c event → P (c.step event)) {events : List ControlEvent} :
    ∀ {c : FerryControlClient}, P c → c.Along condition events → P (c.run events) := by
  induction events with
  | nil => exact fun hc _ ↦ hc
  | cons event events ih => exact fun hc h ↦ ih (hstep _ event hc h.1) h.2

/-- A turn of a coroutine that starts nothing. -/
theorem waits_goOn (c : FerryControlClient) (now : ℤ) (index : ℕ) :
    Waits transferId c (.goOn now index .timeout) := ⟨nofun, False.elim⟩

/-- The call returns after its remaining turns. -/
theorem Stopping.returns (h : Stopping transferId before c) {now : ℤ} {index : ℕ} {job : SendJob}
    {file : FileSend} (hjob : c.jobs[index]? = some job) (hfile : job.file = some file)
    (hid : file.payload.transferId = transferId) : ∃ n ≤ turnsLeft file.phase,
      (transferId, false) ∈ (c.run (List.replicate n (.goOn now index .timeout))).returned := by
  induction hturns : turnsLeft file.phase using Nat.strong_induction_on generalizing c job file with
  | _ turns ih =>
  have hmem : file ∈ c.files := List.mem_filterMap.mpr ⟨job, List.mem_of_getElem? hjob, hfile⟩
  obtain ⟨hphase, hstops⟩ := h.calls file hmem hid
  obtain ⟨new, rest, -, -, hstopped, -, hjobs⟩ :=
    @stoppedTurn_step c now index .timeout _ _ hjob hfile hphase hstops
  cases hnew : new with
  | none =>
    refine ⟨1, ?_, hid ▸ hstopped.returns hnew⟩
    rw [← hturns]
    cases file.phase <;> simp [turnsLeft]
  | some next =>
    obtain ⟨hpayload, -, -, hleft⟩ := hstopped.goesOn next hnew
    have hlater := h.step (waits_goOn c now index)
    have hlt := hturns ▸ hleft rfl
    obtain ⟨n, hn, hreturned⟩ := ih _ hlt hlater (hjobs next hnew) rfl (hpayload ▸ hid) rfl
    exact ⟨n + 1, hn.trans_lt hlt, hreturned⟩

theorem Stopping.stopped (h : Stopping transferId before c) : Stopped transferId before c where
  written := h.written
  unreported := h.unreported
  returned := h.returned
  returns := by
    intro now index file hcall hid
    obtain ⟨job, hjob, hfile⟩ := Option.bind_eq_some_iff.mp hcall
    obtain ⟨n, hn, hreturned⟩ := h.returns hjob hfile hid
    refine ⟨n, hn.trans ?_, hreturned⟩
    cases file.phase <;> simp [turnsLeft]
  repeated := repeated_iff h.handled

/-- Nothing has been sent. -/
theorem accounted_new (receiving : TransferClient) (publicKeyB64 : Text)
    (store : InterruptedTransferStore) : (new receiving publicKeyB64 store).Accounted := by
  refine ⟨⟨?_, ?_, ?_⟩, ?_, ?_⟩ <;> simp [new, files, Reports]

end Run

/-- The cancellation of an upload that was not accepted before and whose stream has not ended stops it in
every run in which no other upload starts before the call is refused or has returned. -/
theorem cancel_stops_upload (receiving : TransferClient) (publicKeyB64 : Text)
    (store : InterruptedTransferStore) (transferId : Text) (now : ℤ) (earlier later : List ControlEvent)
    (hearlier : (new receiving publicKeyB64 store).Along Fresh earlier)
    (hcancel : ((new receiving publicKeyB64 store).run earlier).Cancellable transferId)
    (hlater : (((new receiving publicKeyB64 store).run earlier).step (cancelled now transferId)).Along
      (Waits transferId) later) :
    Stopped transferId ((new receiving publicKeyB64 store).run earlier)
      ((new receiving publicKeyB64 store).run (earlier ++ cancelled now transferId :: later)) := by
  have haccounted : ((new receiving publicKeyB64 store).run earlier).Accounted :=
    Along.induction (P := Accounted) (fun _ _ hc hfresh ↦ accounted_step hc hfresh)
      (accounted_new receiving publicKeyB64 store) hearlier
  have hstopping := Along.induction (P := Stopping transferId _) (fun _ _ hc hwaits ↦ hc.step hwaits)
    (hcancel.stopping haccounted now) hlater
  unfold run
  rw [List.foldl_append]
  exact hstopping.stopped

/-- An upload that waits for its answer. -/
def sampleWaiting : List ControlEvent :=
  [.startSession (Text.lit "peer") true,
    .sendFile 0 (Text.lit "content://b") sampleOutgoingId sampleSource, .goOn 0 0 .turn]

theorem cancel_stops_upload_sample :
    Stopped sampleOutgoingId (sampleClient.run sampleWaiting)
      (sampleClient.run (sampleWaiting ++ [cancelled 0 sampleOutgoingId, .goOn 0 0 .turn])) ∧
      (sampleOutgoingId, false) ∈
        (sampleClient.run (sampleWaiting ++ [cancelled 0 sampleOutgoingId, .goOn 0 0 .turn])).returned := by
  have huploads : (sampleClient.run sampleWaiting).Uploads sampleOutgoingId := by
    unfold Uploads
    decide +kernel
  have hunfinished : ∀ file ∈ (sampleClient.run sampleWaiting).files,
      file.payload.transferId = sampleOutgoingId →
        file.phase ≠ .streamed true ∧ file.phase ≠ .ending true := by decide +kernel
  have hcancel : (sampleClient.run sampleWaiting).Cancellable sampleOutgoingId :=
    ⟨by decide +kernel, by decide, by decide +kernel, by decide +kernel, huploads, hunfinished⟩
  have hearlier : sampleClient.Along Fresh sampleWaiting :=
    ⟨by decide +kernel, by decide +kernel, by decide +kernel, trivial⟩
  refine ⟨cancel_stops_upload (TransferClient.new TransferClient.sampleStagingDir
    TransferClient.sampleDisk true []) [] ∅ sampleOutgoingId 0 sampleWaiting [.goOn 0 0 .turn] hearlier
    hcancel ⟨⟨nofun, False.elim⟩, trivial⟩, by decide +kernel⟩

/-- What happens to an upload that was accepted: a chunk, the end of the content, TRANSFER_COMPLETE. -/
def sampleStreaming : List ControlEvent :=
  [.goOn 0 0 .turn, .goOn 0 0 (.data [0]), .goOn 0 0 .eof, .goOn 0 0 .turn, .goOn 0 0 .turn]

/-- A second upload starts before the cancelled one waits for its answer, and its TRANSFER_ACCEPT
completes the deferred of the first. -/
def sampleSecond : List ControlEvent :=
  [.sendFile 0 (Text.lit "content://c") sampleOldId sampleSource, .goOn 0 1 .turn, .goOn 0 0 .turn,
    .frame 0 (.message (.transferAccept sampleOldId))]

/-- After TRANSFER_ACCEPT the cancellation is ignored, a second upload takes the flags of the first back,
and a repeated cancellation refuses the second. -/
theorem cancelled_upload_goes_on :
    ¬Stopped sampleOutgoingId
        (sampleClient.run (sampleWaiting ++ [.frame 0 (.message (.transferAccept sampleOutgoingId))]))
        (sampleClient.run (sampleWaiting ++ [.frame 0 (.message (.transferAccept sampleOutgoingId)),
          cancelled 0 sampleOutgoingId] ++ sampleStreaming)) ∧
      ¬Stopped sampleOutgoingId (sampleClient.run (sampleWaiting.take 2))
        (sampleClient.run (sampleWaiting.take 2 ++ [cancelled 0 sampleOutgoingId] ++ sampleSecond ++
          sampleStreaming)) ∧
      (sampleClient.run (sampleWaiting ++ [cancelled 0 sampleOutgoingId] ++ sampleSecond.take 2)).step
          (cancelled 0 sampleOutgoingId) ≠
        sampleClient.run (sampleWaiting ++ [cancelled 0 sampleOutgoingId] ++ sampleSecond.take 2) := by
  refine ⟨fun h ↦ h.unreported (.inl (by decide +kernel)),
    fun h ↦ h.unreported (.inl (by decide +kernel)), fun h ↦ ?_⟩
  exact absurd (congrArg FerryControlClient.pendingTransferAccept h) (by decide +kernel)

end FerryControlClient

end Ferry
