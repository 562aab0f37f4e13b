import Ferry.Transfer.StateAfter

/-!
# The snapshot of an interrupted transfer

`interrupt` keeps the whole chunks of the `.part` file and the digest of all bytes that were received.
It preserves a transfer that is TRANSFERRING, and fails one that is RESUMING.
-/

namespace Ferry

namespace IncomingTransfer

open Exec Disk

variable {metadata : TransferMetadata} {dir : DownloadDir}

/-! ## Open files in a run -/

/-- A closed file has nothing pending. -/
def Sealed (w : World) : Prop := ∀ fh ∈ w.self.tempFh, fh.closed = true → fh.buffer = []

def Seals (w w' : World) : Prop := Sealed w → Sealed w'

instance : IsPreorder World Seals where
  refl := fun _ h ↦ h
  trans := fun _ _ _ h h' ↦ h' ∘ h

theorem seals_of_assigns {α : Type} {fields : List Field} {m : Method α} (h : Assigns fields m)
    (hfh : Field.tempFh ∉ fields) : Stays Seals m := by
  intro w
  apply wp_mono (h.wp_same hfh w)
  intro r w' hsame hsealed fh hmem
  exact hsealed fh (hsame ▸ hmem)

theorem seals_onTempFh {α : Type} {m : Exec IoError (Disk × Handle) α}
    (hm : Stays (fun s s' ↦ (s.2.closed = true → s.2.buffer = []) → s'.2.closed = true → s'.2.buffer = []) m) :
    Stays Seals (onTempFh m) := by
  refine stays_get_bind fun w ↦ ?_
  cases hfh : w.self.tempFh with
  | none => exact stays_throw (R := Seals) _ w
  | some handle =>
    intro hsealed fh hmem
    rw [← Option.some.inj hmem]
    exact hm (w.disk, handle) (hsealed handle hfh)

theorem seals_write (data : Bytes) : Stays Seals (onTempFh (Handle.write data)) := by
  refine seals_onTempFh fun s ↦ ?_
  rw [Handle.wp_write]
  refine ⟨fun _ ↦ id, fun hopen ↦ ⟨fun _ _ hclosed ↦ ?_, fun _ _ hclosed ↦ ?_⟩⟩ <;>
    exact absurd hclosed hopen

theorem seals_flush : Stays Seals (onTempFh Handle.flush) := by
  refine seals_onTempFh fun s ↦ ?_
  rw [Handle.wp_flush]
  refine ⟨fun _ ↦ id, fun hopen ↦ ⟨fun _ _ hclosed ↦ ?_, fun _ _ hclosed ↦ ?_⟩⟩ <;>
    exact absurd hclosed hopen

theorem seals_close : Stays Seals (onTempFh Handle.close) := by
  refine seals_onTempFh fun s ↦ ?_
  rw [Handle.wp_close]
  exact ⟨fun _ ↦ id, fun _ ↦ ⟨fun _ _ _ ↦ rfl, fun _ _ _ ↦ rfl⟩⟩

theorem seals_assignTempFh {fh : Option Handle} (h : ∀ handle ∈ fh, handle.closed = false) :
    Stays Seals (assignTempFh fh) := by
  refine stays_get_bind fun w ↦ ?_
  refine stays_bind (R := Seals) (stays_modify fun _ _ ↦ ?_) (fun _ ↦ ?_) w
  · intro handle hmem hclosed
    exact absurd ((h handle hmem).symm.trans hclosed) Bool.false_ne_true
  · cases w.self.tempFh with
    | none => exact stays_pure _
    | some handle => exact seals_of_assigns (assigns_onDisk _) (by decide)

theorem seals_closeTempFh : Stays Seals closeTempFh :=
  stays_get_bind fun w ↦ stays_ite _
    (stays_bind (stays_tryCatch seals_close fun _ ↦ stays_pure _) fun _ ↦ seals_assignTempFh (by simp))
    (stays_pure _) w

theorem seals_cleanup {state : TransferState} (h : state ≠ .idle) :
    Stays Seals (do
      closeTempFh
      cleanupTemp
      setState state) :=
  stays_bind seals_closeTempFh fun _ ↦ stays_bind (seals_of_assigns assigns_cleanupTemp (by decide))
    fun _ ↦ seals_of_assigns (assigns_setState h) (by decide)

theorem seals_openStaging : Stays Seals openStaging := by
  have hdisk {α : Type} (m : Exec IoError Disk α) : Stays Seals (onDisk m) :=
    seals_of_assigns (assigns_onDisk m) (by decide)
  refine stays_get_bind fun w ↦ stays_bind (hdisk _) (fun _ ↦ ?_) w
  refine stays_bind (hdisk _) fun _ ↦ stays_bind (stays_modify fun _ h ↦ h) fun _ ↦ ?_
  refine stays_bind (stays_ofResult _) fun dest ↦ stays_bind (stays_modify fun _ h ↦ h) fun _ ↦ ?_
  refine stays_bind (hdisk _) fun _ ↦ stays_bind_of (hdisk _) ?_ fun fh hfh ↦
    seals_assignTempFh (by simpa using hfh)
  intro w fh hfh
  exact (((Handle.openTruncate_spec _ w.disk).1 fh (onDisk_ok.mp hfh)).1 ▸ rfl : fh.closed = false)

theorem seals_begin : Stays Seals begin := by
  have htransition {new : TransferState} (h : new ≠ .idle) : Stays Seals (transition new) :=
    seals_of_assigns (assigns_transition h) (by decide)
  refine stays_bind (htransition (by decide)) fun _ ↦ stays_bind ?_ fun _ ↦ htransition (by decide)
  refine stays_tryCatch seals_openStaging fun e ↦ stays_ite _ ?_ (stays_throw _)
  exact stays_bind (htransition (by decide)) fun _ ↦ stays_throw _

theorem seals_receiveChunk (frame : ChunkFrame) : Stays Seals (receiveChunk frame) := by
  refine stays_get_bind fun w ↦ ?_
  refine stays_bind (stays_raiseIf _ _) (fun _ ↦ ?_) w
  iterate 3 refine stays_bind (stays_raiseIf _ _) fun _ ↦ ?_
  refine stays_bind (stays_tryCatch (seals_write _) fun e ↦ stays_ite _ ?_ (stays_throw _)) fun _ ↦
    stays_modify fun _ h ↦ h
  exact stays_bind (seals_cleanup (by decide)) fun _ ↦ stays_throw _

theorem seals_finalise : Stays Seals finalise := by
  have hflush : Stays Seals flushTempFh :=
    stays_get_bind fun w ↦ stays_ite _
      (stays_bind seals_flush fun _ ↦ stays_bind seals_close fun _ ↦ seals_assignTempFh (by simp))
      (stays_pure _) w
  refine stays_bind hflush fun _ ↦ stays_get_bind fun w ↦ stays_ite _ ?_ ?_ w
  · refine stays_bind (seals_of_assigns assigns_cleanupTemp (by decide)) fun _ ↦ ?_
    exact stays_bind (seals_of_assigns (assigns_transition (by decide)) (by decide)) fun _ ↦ stays_pure _
  · exact seals_of_assigns assigns_deliver (by decide)

theorem seals_interrupt : Stays Seals interrupt := by
  have hsetState : Stays Seals (setState .failed) :=
    seals_of_assigns (assigns_setState (by decide)) (by decide)
  refine stays_get_bind fun w ↦ stays_ite _ (stays_pure _) (stays_ite _ hsetState
    (stays_ite _ hsetState ?_)) w
  have hrelease : Stays Seals releaseTempFh := by
    refine stays_get_bind fun w ↦ stays_ite _ ?_ (stays_pure _) w
    refine stays_bind (stays_tryCatch ?_ fun _ ↦ stays_pure _) fun _ ↦ seals_assignTempFh (by simp)
    exact stays_bind seals_flush fun _ ↦ seals_close
  have hcounters {α : Type} {m : Method α} (h : Stays OnlyCounters m) : Stays Seals m := by
    refine h.mono fun w w' hcounters hsealed ↦ ?_
    obtain ⟨count, seq, hself⟩ := hcounters
    unfold Sealed
    rw [hself]
    exact hsealed
  refine stays_bind hrelease fun _ ↦ stays_bind (hcounters onlyCounters_bytesOnDisk) fun actual ↦ ?_
  refine stays_get_bind fun w ↦ stays_ite _ hsetState ?_ w
  refine stays_bind (stays_modify fun _ h ↦ h) fun _ ↦ ?_
  exact stays_bind (hcounters (onlyCounters_truncateToChunk actual)) fun _ ↦
    seals_of_assigns (assigns_transition (by decide)) (by decide)

theorem seals_resume (chunkIndex : ℤ) : Stays Seals (resume chunkIndex) := by
  have hsetState {state : TransferState} (h : state ≠ .idle) : Stays Seals (setState state) :=
    seals_of_assigns (assigns_setState h) (by decide)
  have hdisk {α : Type} (m : Exec IoError Disk α) : Stays Seals (onDisk m) :=
    seals_of_assigns (assigns_onDisk m) (by decide)
  refine stays_get_bind fun w ↦ stays_bind (stays_raiseIf _ _) (fun _ ↦ ?_) w
  refine stays_bind (hsetState (by decide)) fun _ ↦ ?_
  have hmissing : Stays Seals (do setState .failed; throw .fileNotFound : Method Unit) :=
    stays_bind (hsetState (by decide)) fun _ ↦ stays_throw _
  cases w.self.tempPath with
  | none => exact hmissing
  | some temp =>
    refine stays_ite _ (stays_bind (stays_tryCatch ?_ fun e ↦ ?_) fun _ ↦ ?_) hmissing
    · refine stays_bind_of (hdisk _) ?_ fun fh hfh ↦ seals_assignTempFh (by simpa using hfh)
      intro w fh hfh
      exact (((Handle.openAppend_spec _ w.disk).1 fh (onDisk_ok.mp hfh)).1 ▸ rfl : fh.closed = false)
    · exact stays_ite _ (stays_bind (hsetState (by decide)) fun _ ↦ stays_throw _) (stays_throw _)
    · refine stays_bind (hdisk _) fun result ↦ stays_bind (stays_modify fun _ h ↦ h) fun _ ↦ ?_
      refine stays_bind (hdisk _) fun size ↦ stays_bind (stays_modify fun _ h ↦ h) fun _ ↦ ?_
      exact seals_of_assigns (assigns_transition (by decide)) (by decide)

theorem Call.seals_run (c : Call) : Stays Seals c.run := by
  cases c with
  | begin => exact stays_bind seals_begin fun _ ↦ stays_pure _
  | receiveChunk frame => exact stays_bind (seals_receiveChunk frame) fun _ ↦ stays_pure _
  | interrupt => exact stays_bind seals_interrupt fun _ ↦ stays_pure _
  | prepareResumeRequest _ _ =>
    exact stays_bind (seals_of_assigns (assigns_prepareResumeRequest _ _) (by decide)) fun _ ↦ stays_pure _
  | resume i => exact stays_bind (seals_resume i) fun _ ↦ stays_pure _
  | cancel => exact stays_bind (seals_cleanup (by decide)) fun _ ↦ stays_pure _
  | finalise => exact seals_finalise

/-! ## The temporary path in a run -/

/-- Chunks flow. -/
def Flowing (w : World) : Prop := w.self.state = .transferring ∨ w.self.state = .resuming

/-- A transfer whose chunks flow has its temporary path. -/
def Located (w : World) : Prop := Flowing w → w.self.tempPath ≠ none

/-- A call that keeps the path, and lets no chunks flow that did not before. -/
theorem Located.later {w w' : World} (h : Located w) (hpath : w'.self.tempPath = w.self.tempPath)
    (hstate : Flowing w' → Flowing w) : Located w' := by
  intro hflowing
  rw [hpath]
  exact h (hstate hflowing)

theorem openStaging_tempPath (w : World) :
    wp openStaging (fun r w' ↦ (∀ u, r = .ok u → w'.self.tempPath ≠ none) ∧
      (w.self.tempPath ≠ none → w'.self.tempPath ≠ none)) w := by
  have hany {p : Path} {d : Disk} : wp (mkdir p) (fun _ _ ↦ True) d := trivial
  unfold openStaging
  rw [wp_get_bind]
  refine wp_onDisk_bind hany (fun _ _ _ ↦ ⟨nofun, id⟩) fun _ d₁ _ ↦ ?_
  refine wp_onDisk_bind hany (fun _ _ _ ↦ ⟨nofun, id⟩) fun _ d₂ _ ↦ ?_
  rw [wp_update_bind, wp_ofResult_bind]
  refine ⟨fun _ _ ↦ ⟨fun _ _ ↦ by simp, fun _ ↦ by simp⟩, fun dest _ ↦ ?_⟩
  rw [wp_update_bind]
  have hrest : Assigns [.disk, .tempFh] (do
      onDisk (Disk.mkdir dest.parent)
      let fh ← onDisk (Handle.openTruncate (w.self.metadata.partPath w.self.downloadDir))
      assignTempFh (some fh)) := by
    refine touches_bind ((assigns_onDisk _).mono (by decide)) fun _ ↦ ?_
    exact touches_bind ((assigns_onDisk _).mono (by decide)) fun _ ↦ assigns_assignTempFh _
  apply wp_mono (hrest.wp_same (p := .tempPath) (by decide) _)
  intro r w' hsame
  rw [hsame]
  exact ⟨fun _ _ ↦ by simp, fun _ ↦ by simp⟩

theorem located_begin {w : World} (h : Located w) : wp begin (fun _ w' ↦ Located w') w := by
  have hpath : wp begin (fun r w' ↦ (∀ u, r = .ok u → w'.self.tempPath ≠ none) ∧
      (w.self.tempPath ≠ none → w'.self.tempPath ≠ none)) w := by
    unfold begin
    rw [wp_transition_bind]
    refine ⟨fun _ ↦ ?_, fun _ ↦ ⟨nofun, id⟩⟩
    apply wp_bind_of (P := fun r w' ↦ (∀ u, r = .ok u → w'.self.tempPath ≠ none) ∧
      (w.self.tempPath ≠ none → w'.self.tempPath ≠ none))
    · refine wp_tryCatch_of (openStaging_tempPath _) (fun e t ht ↦ ?_) fun _ _ ht ↦ ht
      rw [wp_ite, wp_transition_bind]
      exact ⟨fun _ ↦ ⟨fun _ ↦ ⟨nofun, ht.2⟩, fun _ ↦ ⟨nofun, ht.2⟩⟩, fun _ ↦ ⟨nofun, ht.2⟩⟩
    · exact fun _ _ ht ↦ ⟨nofun, ht.2⟩
    · intro _ t ht
      rw [wp_transition]
      exact ⟨fun _ ↦ ⟨fun _ _ ↦ ht.1 _ rfl, ht.2⟩, fun _ ↦ ⟨nofun, ht.2⟩⟩
  apply wp_mono (wp_and hpath (begin_state w))
  rintro r w' ⟨⟨hok, hkept⟩, ⟨⟨u, hr⟩, -⟩ | ⟨-, hfailed⟩ | ⟨-, haccepted | hsame⟩⟩ hflowing
  · exact hok u hr
  · simp [Flowing, hfailed] at hflowing
  · simp [Flowing, haccepted] at hflowing
  · rw [Flowing, hsame] at hflowing
    exact hkept (h hflowing)

/-- The path stays, and no chunks flow that did not before. -/
def Calms (w w' : World) : Prop := w'.self.tempPath = w.self.tempPath ∧ (Flowing w' → Flowing w)

instance : IsPreorder World Calms where
  refl := fun _ ↦ ⟨rfl, id⟩
  trans := fun _ _ _ h h' ↦ ⟨h'.1.trans h.1, h.2 ∘ h'.2⟩

theorem calms_interrupt : Stays Calms interrupt := by
  have hsetState : Stays Calms (setState .failed) :=
    stays_modify fun w ↦ ⟨rfl, fun hflowing ↦ by simp [Flowing] at hflowing⟩
  have hcounters {α : Type} {m : Method α} (h : Stays OnlyCounters m) : Stays Calms m := by
    refine h.mono fun w w' hcounters ↦ ?_
    obtain ⟨count, seq, hself⟩ := hcounters
    unfold Calms Flowing
    rw [hself]
    exact ⟨rfl, id⟩
  have hrelease : Stays Calms releaseTempFh := by
    have hassigns : Assigns [.disk, .tempFh] releaseTempFh := by
      refine touches_get_bind fun w ↦ touches_ite _ (touches_bind ?_ fun _ ↦ ?_) (touches_pure _)
      · exact touches_tryCatch (touches_bind (assigns_onTempFh _) fun _ ↦ assigns_onTempFh _) fun _ ↦
          touches_pure _
      · exact assigns_assignTempFh _
    intro w
    apply wp_mono (wp_and (hassigns.wp_same (p := .tempPath) (by decide) w)
      (hassigns.wp_same (p := .state) (by decide) w))
    rintro r w' ⟨hpath, hstate⟩
    refine ⟨hpath, ?_⟩
    rw [Flowing, hstate]
    exact id
  refine stays_get_bind fun w ↦ stays_ite _ (stays_pure _) (stays_ite _ hsetState
    (stays_ite _ hsetState ?_)) w
  refine stays_bind hrelease fun _ ↦ stays_bind (hcounters onlyCounters_bytesOnDisk) fun actual ↦ ?_
  refine stays_get_bind fun w ↦ stays_ite _ hsetState ?_ w
  refine stays_bind (stays_modify fun _ ↦ ⟨rfl, id⟩) fun _ ↦ ?_
  refine stays_bind (hcounters (onlyCounters_truncateToChunk actual)) fun _ w ↦ ?_
  rw [wp_transition]
  exact ⟨fun _ ↦ ⟨rfl, fun hflowing ↦ by simp [Flowing] at hflowing⟩, fun _ ↦ ⟨rfl, id⟩⟩

theorem flowing_of_same {w w' : World} (hstate : w'.self.state = w.self.state) :
    Flowing w' → Flowing w := by
  rw [Flowing, hstate]
  exact id

theorem flowing_of_ended {w w' : World} {state : TransferState} (hstate : w'.self.state = state)
    (hended : state ≠ .transferring ∧ state ≠ .resuming) : Flowing w' → Flowing w := by
  rintro (hflowing | hflowing)
  · exact absurd (hstate.symm.trans hflowing) hended.1
  · exact absurd (hstate.symm.trans hflowing) hended.2

section Located

variable {w : World} (h : Located w)

include h

theorem located_receiveChunk (frame : ChunkFrame) :
    wp (receiveChunk frame) (fun _ w' ↦ Located w') w := by
  apply wp_mono (wp_and (receiveChunk_state frame w)
    ((assigns_receiveChunk frame).wp_same (p := .tempPath) (by decide) w))
  rintro r w' ⟨⟨hstate, -⟩ | ⟨e, -, -, hstate⟩, hpath⟩
  · exact h.later hpath (flowing_of_same hstate)
  · exact h.later hpath (flowing_of_ended hstate (by decide))

theorem located_prepareResumeRequest (expectedBytes expectedChunkIndex : Option ℤ) :
    wp (prepareResumeRequest expectedBytes expectedChunkIndex) (fun _ w' ↦ Located w') w := by
  have hassigns := assigns_prepareResumeRequest expectedBytes expectedChunkIndex w
  exact h.later (hassigns .tempPath (by decide)) (flowing_of_same (hassigns .state (by decide)))

theorem located_resume (chunkIndex : ℤ) : wp (resume chunkIndex) (fun _ w' ↦ Located w') w := by
  cases hpath : w.self.tempPath with
  | some temp =>
    apply wp_mono ((assigns_resume chunkIndex).wp_same (p := .tempPath) (by decide) w)
    intro r w' hsame _ hnone
    rw [hsame, hpath] at hnone
    exact nomatch hnone
  | none =>
    unfold resume
    rw [wp_get_bind, wp_raiseIf_bind]
    refine ⟨fun _ ↦ h, fun _ ↦ ?_⟩
    rw [wp_setState_bind, hpath]
    dsimp only
    rw [wp_setState_bind]
    exact h.later rfl (@flowing_of_ended w _ .failed rfl (by decide))

theorem located_cancel : wp cancel (fun _ w' ↦ Located w') w := by
  apply wp_mono (wp_and (cancel_spec w) (assigns_cancel.wp_same (p := .tempPath) (by decide) w))
  rintro r w' ⟨⟨-, hstate⟩, hpath⟩
  exact h.later hpath (flowing_of_ended hstate (by decide))

theorem located_finalise : wp finalise (fun _ w' ↦ Located w') w := by
  apply wp_mono (wp_and (finalise_state w) (assigns_finalise.wp_same (p := .tempPath) (by decide) w))
  rintro r w' ⟨⟨success, -, hstate⟩ | ⟨-, hstate⟩, hpath⟩
  · refine h.later hpath (flowing_of_ended hstate ?_)
    cases success <;> decide
  · exact h.later hpath (flowing_of_same hstate)

theorem Call.located_run (c : Call) : wp c.run (fun _ w' ↦ Located w') w := by
  cases c with
  | begin => exact wp_bind_of (located_begin h) (fun _ _ ht ↦ ht) fun _ _ ht ↦ ht
  | receiveChunk frame =>
    exact wp_bind_of (located_receiveChunk h frame) (fun _ _ ht ↦ ht) fun _ _ ht ↦ ht
  | interrupt =>
    refine wp_bind_of (calms_interrupt w) (fun _ _ ht ↦ ?_) fun _ _ ht ↦ ?_ <;>
      exact h.later ht.1 ht.2
  | prepareResumeRequest bytes index =>
    exact wp_bind_of (located_prepareResumeRequest h bytes index) (fun _ _ ht ↦ ht) fun _ _ ht ↦ ht
  | resume i => exact wp_bind_of (located_resume h i) (fun _ _ ht ↦ ht) fun _ _ ht ↦ ht
  | cancel => exact wp_bind_of (located_cancel h) (fun _ _ ht ↦ ht) fun _ _ ht ↦ ht
  | finalise => exact located_finalise h

end Located

/-- What holds in every state of a run on a disk that does not fail. -/
structure Ready (metadata : TransferMetadata) (dir : DownloadDir) (w : World) : Prop
    extends Intact metadata dir w where
  sealed : Sealed w
  located : Located w
  reliable : ∀ call, w.disk.Reliable call

theorem Run.ready {disk : Disk} {w : World} (h : Run metadata dir disk w)
    (hreliable : ∀ call, disk.Reliable call) : Ready metadata dir w := by
  induction h with
  | refl =>
    refine ⟨Run.intact .refl (hreliable .read), ?_, ?_, hreliable⟩
    · simp [Sealed, new]
    · simp [Located, Flowing, new]
  | tail _ hstep ih =>
    refine ⟨ih.toIntact.step hstep, ?_, ?_, ?_⟩
    · cases hstep with
      | call c => exact c.seals_run _ ih.sealed
      | other _ _ _ => exact ih.sealed
    · cases hstep with
      | call c => exact Call.located_run ih.located c
      | other _ _ _ => exact ih.located
    · cases hstep with
      | call c => exact fun call ↦ (ih.reliable call).later (c.faults_run ih.sound.owns call)
      | other _ _ _ => exact ih.reliable

/-! ## The call -/

/-- The number of whole chunks. -/
def wholeCount (metadata : TransferMetadata) (bytes : Bytes) : ℕ :=
  bytes.length / metadata.chunkSize.toNat

/-- The whole chunks of a list of bytes. -/
def wholePart (metadata : TransferMetadata) (bytes : Bytes) : Bytes :=
  bytes.take (wholeCount metadata bytes * metadata.chunkSize.toNat)

theorem length_wholePart (metadata : TransferMetadata) (bytes : Bytes) :
    (wholePart metadata bytes).length = wholeCount metadata bytes * metadata.chunkSize.toNat := by
  rw [wholePart, List.length_take]
  exact min_eq_left (Nat.div_mul_le_self _ _)

/-- No file is open, and the `.part` file holds what was written. -/
structure Shut (metadata : TransferMetadata) (dir : DownloadDir) (w w' : World) : Prop where
  self : w'.self = { w.self with tempFh := none }
  file : w'.disk.nodes (metadata.partPath dir) = some (.file w.self.hasher)
  reliable : ∀ call, w'.disk.Reliable call

/-- Everything that was written is in the `.part` file. -/
structure Settled (metadata : TransferMetadata) (dir : DownloadDir) (w w' : World) : Prop where
  only : OnlyTempFh w w'
  synced : Synced (metadata.partPath dir) w'
  quiet : Quiet w'
  kept : Kept metadata dir w w'

theorem settled_flush {w : World} (h : Ready metadata dir w) (hflowing : Flowing w) :
    wp (onTempFh Handle.flush) (fun _ w' ↦ Settled metadata dir w w') w := by
  have hsynced := synced_of_phase h.phase hflowing
  have hframed : Stays (Framed metadata dir) (onTempFh Handle.flush) := stays_onTempFh Handle.stays_flush
  have hquiet : wp (onTempFh Handle.flush) (fun _ w' ↦ Quiet w') w := by
    cases hfh : w.self.tempFh with
    | none =>
      rw [wp_onTempFh_none hfh]
      simp [Quiet, buffered, hfh]
    | some fh =>
      by_cases hclosed : fh.closed = true
      · refine onTempFh_quiet ?_ flush_quiet
        rw [Quiet, buffered, hfh]
        exact h.sealed fh hfh hclosed
      · rw [wp_onTempFh_some hfh]
        have hpath := h.sound.owns.tempFh fh hfh
        apply wp_mono (Handle.flush_spec (w.disk, fh) (hpath ▸ hsynced.isFile))
        rintro r ⟨d, fh'⟩ ⟨-, -, -, -, hbuffer, hok⟩
        exact hbuffer (hok (h.reliable .flush) (Bool.eq_false_iff.mpr hclosed))
  apply wp_mono (wp_and (wp_and (onTempFh_flush_synced h.sound.owns hsynced) hquiet)
    (wp_and (onlyTempFh_onTempFh Handle.flush w) (hframed w)))
  rintro r w' ⟨⟨hsynced', hquiet'⟩, honly, hkept⟩
  exact ⟨honly, hsynced'.1, hquiet', hkept h.sound.owns⟩

theorem Settled.close {w w₁ : World} (h : Settled metadata dir w w₁) (hown : Owns metadata dir w) :
    wp (onTempFh Handle.close) (fun _ w' ↦ Settled metadata dir w w') w₁ := by
  have hframed : Stays (Framed metadata dir) (onTempFh Handle.close) := stays_onTempFh Handle.stays_close
  apply wp_mono (wp_and (onTempFh_close_synced h.kept.owns h.synced h.quiet)
    (wp_and (onlyTempFh_onTempFh Handle.close w₁) (hframed w₁)))
  rintro r w' ⟨⟨hsynced, hquiet⟩, honly, hkept⟩
  refine ⟨trans_of OnlyTempFh h.only honly, hsynced, hquiet, ?_⟩
  exact trans_of (Framed metadata dir) (fun _ ↦ h.kept) hkept hown

/-- Flushing and closing a file that belongs to the transfer, whether it is still open or not. -/
theorem releaseTempFh_ready {w : World} (h : Ready metadata dir w) (hflowing : Flowing w) :
    wp releaseTempFh (fun r w' ↦ r = .ok () ∧ Shut metadata dir w w') w := by
  have hown := h.sound.owns
  unfold releaseTempFh
  rw [wp_get_bind, wp_ite]
  constructor
  · intro _
    have hclose : wp (do onTempFh Handle.flush; onTempFh Handle.close)
        (fun _ w' ↦ Settled metadata dir w w') w :=
      wp_bind_of (settled_flush h hflowing) (fun _ _ ht ↦ ht) fun _ _ ht ↦ ht.close hown
    refine wp_bind_of (wp_tryCatch_of (Q := fun r w' ↦ r = .ok () ∧ Settled metadata dir w w') hclose
      (fun _ _ ht ↦ ⟨rfl, ht⟩) fun _ _ ht ↦ ⟨rfl, ht⟩) (fun _ _ ht ↦ by simp at ht) fun _ w₁ ⟨_, hw₁⟩ ↦ ?_
    have hassign : Stays (Framed metadata dir) (assignTempFh none) := stays_assignTempFh (by simp)
    apply wp_mono (wp_and (assignTempFh_spec _ hw₁.kept.owns.tempFh hw₁.quiet hw₁.synced.isFile none)
      (hassign w₁))
    rintro r w' ⟨⟨rfl, hself, hfile, hcontent⟩, hkept⟩
    obtain ⟨fh, honly⟩ := hw₁.only
    have hhasher := hw₁.synced.hasher
    rw [hw₁.quiet, List.append_nil] at hhasher
    refine ⟨rfl, by rw [hself, honly], ?_, fun call ↦ ?_⟩
    · rw [hfile.nodes, hcontent, ← hhasher, honly]
    · exact ((h.reliable call).later (hw₁.kept.disk.faults call)).later
        ((hkept hw₁.kept.owns).disk.faults call)
  · intro hnone
    have hfh : w.self.tempFh = none := by simpa using hnone
    have hsynced := synced_of_phase h.phase hflowing
    refine ⟨rfl, ?_, ?_, h.reliable⟩
    · change w.self = _
      rw [← hfh]
    · change w.disk.nodes _ = _
      rw [hsynced.isFile.nodes, hsynced.hasher]
      simp [buffered, hfh]

/-- The size of the file that holds what was received. -/
theorem bytesOnDisk_file {w : World} {temp : Path} {data : Bytes} (htemp : w.self.tempPath = some temp)
    (hfile : w.disk.nodes temp = some (.file data)) (hstat : w.disk.Reliable .stat) :
    wp bytesOnDisk (fun r w' ↦ r = .ok data.length ∧ w' = { w with disk := w.disk.advance .stat }) w := by
  have hmeasure : wp (onDisk (stat temp)) (fun r w' ↦ r = .ok data.length ∧
      w' = { w with disk := w.disk.advance .stat }) w := by
    rw [wp_onDisk]
    apply wp_mono (stat_file hfile)
    rintro r d ⟨rfl, hr⟩
    rw [hstat.outcome] at hr
    rw [hr]
    exact ⟨rfl, rfl⟩
  unfold bytesOnDisk
  rw [wp_get_bind, htemp]
  dsimp only
  rw [if_pos (by simp [Disk.Exists, hfile])]
  exact wp_tryCatch_of hmeasure (fun _ _ ht ↦ by simp at ht) fun _ _ ht ↦ ht

/-- Truncation to the chunk boundary keeps the whole chunks. -/
theorem truncateToChunk_file {w : World} {temp : Path} {data : Bytes} (htemp : w.self.tempPath = some temp)
    (hfile : w.disk.nodes temp = some (.file data)) (htruncate : w.disk.Reliable .truncate)
    (hchunk : 0 < w.self.metadata.chunkSize) (hcount : w.self.bytesReceived = data.length)
    (hseq : w.self.nextSeq = wholeCount w.self.metadata data) :
    wp (truncateToChunk data.length) (fun r w' ↦ r = .ok () ∧
      w'.self = { w.self with bytesReceived := (wholePart w.self.metadata data).length } ∧
      w'.disk.nodes temp = some (.file (wholePart w.self.metadata data))) w := by
  have haligned : w.self.nextSeq * w.self.metadata.chunkSize =
      ((wholePart w.self.metadata data).length : ℕ) := by
    rw [hseq, length_wholePart, Nat.cast_mul, Int.toNat_of_nonneg hchunk.le]
  have hle : (wholePart w.self.metadata data).length ≤ data.length := by
    rw [wholePart, List.length_take]
    exact min_le_right _ _
  have htake : data.take (wholePart w.self.metadata data).length = wholePart w.self.metadata data := by
    rw [length_wholePart]
    rfl
  unfold truncateToChunk
  rw [wp_get_bind, htemp, haligned]
  dsimp only
  rw [Int.toNat_natCast, wp_ite]
  constructor
  · intro _
    have hcut : wp (do
        raiseIf (((wholePart w.self.metadata data).length : ℤ) < 0) .osError
        onDisk (truncate temp (wholePart w.self.metadata data).length)
        update fun self ↦ { self with bytesReceived := (wholePart w.self.metadata data).length })
        (fun r w' ↦ r = .ok () ∧
          w'.self = { w.self with bytesReceived := (wholePart w.self.metadata data).length } ∧
          w'.disk.nodes temp = some (.file (wholePart w.self.metadata data))) w := by
      have hcontent := content_of_nodes hfile
      rw [wp_raiseIf_bind]
      refine ⟨fun hneg ↦ absurd hneg (by omega), fun _ ↦ ?_⟩
      refine wp_onDisk_bind (truncate_spec temp _ w.disk ⟨data, hfile⟩ (by rw [hcontent]; exact hle))
        (fun e d h ↦ nomatch (h htruncate).1) fun _ d h ↦ ?_
      obtain ⟨-, hfile', hcut⟩ := h htruncate
      rw [wp_update]
      refine ⟨rfl, rfl, ?_⟩
      rw [hfile'.nodes, hcut, hcontent, htake]
    exact wp_tryCatch_of hcut (fun _ _ ht ↦ by simp at ht) fun _ _ ht ↦ ht
  · intro hnot
    have hlength : (wholePart w.self.metadata data).length = data.length := by omega
    rw [hlength, List.take_length] at htake
    refine ⟨rfl, ?_, ?_⟩
    · change w.self = _
      rw [hlength, ← hcount]
    · change w.disk.nodes temp = _
      rw [← htake, hfile]

/-- The object after an interrupt that preserves its `.part` file. -/
theorem interrupt_transferring {w : World} (h : Ready metadata dir w) (hstate : w.self.state = .transferring)
    (hchunk : 0 < metadata.chunkSize) (hsize : metadata.fileSize ≠ 0) (hwritten : w.self.hasher ≠ []) :
    wp interrupt (fun r w' ↦ r = .ok () ∧
      w'.self = { w.self with
        state := .interrupted
        tempFh := none
        bytesReceived := (wholePart metadata w.self.hasher).length
        nextSeq := wholeCount metadata w.self.hasher } ∧
      w'.disk.nodes (metadata.partPath dir) = some (.file (wholePart metadata w.self.hasher))) w := by
  have hmetadata := h.sound.owns.metadata_eq
  have htemp : w.self.tempPath = some (metadata.partPath dir) := by
    obtain ⟨temp, htemp⟩ := Option.ne_none_iff_exists'.mp (h.located (.inl hstate))
    rw [htemp, h.sound.owns.tempPath temp htemp]
  have hlength : w.self.hasher.length ≠ 0 := by simpa using hwritten
  unfold interrupt
  rw [wp_get_bind, if_neg (by simp [hstate]), if_neg (by simp [hstate]), if_neg (by rwa [hmetadata])]
  unfold preservePart
  refine wp_bind_of (releaseTempFh_ready h (.inl hstate)) (fun _ _ ht ↦ by simp at ht)
    fun _ w₁ ⟨_, hshut⟩ ↦ ?_
  have htemp₁ : w₁.self.tempPath = some (metadata.partPath dir) := by rw [hshut.self]; exact htemp
  refine wp_bind_of (bytesOnDisk_file htemp₁ hshut.file (hshut.reliable .stat)) (fun _ _ ht ↦ by simp at ht)
    fun actual w₂ ⟨hactual, hw₂⟩ ↦ ?_
  obtain rfl := Except.ok.inj hactual
  subst hw₂
  rw [wp_get_bind, if_neg fun hzero ↦ hlength hzero.1, wp_update_bind]
  have hnext : (if 0 < w₁.self.metadata.chunkSize then
      (w.self.hasher.length : ℤ) / w₁.self.metadata.chunkSize else w₁.self.nextSeq) =
        wholeCount metadata w.self.hasher := by
    rw [hshut.self, hmetadata, if_pos hchunk, wholeCount, Int.natCast_ediv, Int.toNat_of_nonneg hchunk.le]
  rw [hnext]
  have hmetadata₁ : w₁.self.metadata = metadata := by rw [hshut.self]; exact hmetadata
  set w₃ : World := ⟨w₁.disk.advance .stat, { w₁.self with
    bytesReceived := w.self.hasher.length, nextSeq := wholeCount metadata w.self.hasher }⟩ with hw₃
  refine wp_bind_of (@truncateToChunk_file w₃ _ w.self.hasher htemp₁ hshut.file (hshut.reliable .truncate)
    (hmetadata₁ ▸ hchunk) rfl (hmetadata₁ ▸ rfl)) (fun _ _ ht ↦ by simp at ht)
    fun _ w₄ ⟨_, hself, hfile⟩ ↦ ?_
  have hmetadata₃ : w₃.self.metadata = metadata := hmetadata₁
  rw [hmetadata₃] at hself hfile
  have hstate₄ : w₄.self.state = .transferring := by
    rw [hself, hw₃]
    exact (congrArg IncomingTransfer.state hshut.self).trans hstate
  rw [wp_transition, hstate₄]
  refine ⟨fun _ ↦ ⟨rfl, ?_, hfile⟩, fun hinvalid ↦ absurd (by decide) hinvalid⟩
  rw [hself, hw₃, hshut.self]

/-- An interrupt of an interrupted object changes nothing. -/
theorem interrupt_interrupted {w : World} (hstate : w.self.state = .interrupted) :
    interrupt w = (.ok (), w) := by
  unfold interrupt
  rw [get_bind_run, if_pos (by simp [hstate])]
  rfl

/-- While chunks flow, an interrupt fails the transfer without writing anything when it was resumed or
has size zero. -/
theorem interrupt_fails {w : World} (hflowing : Flowing w)
    (h : w.self.state = .resuming ∨ w.self.metadata.fileSize = 0) :
    interrupt w = (.ok (), { w with self := { w.self with state := .failed } }) := by
  unfold interrupt
  by_cases hstate : w.self.state = .transferring
  · rw [get_bind_run, if_neg (by simp [hstate]), if_neg (by simp [hstate]),
      if_pos (h.resolve_left (by simp [hstate]))]
    rfl
  · have hresuming := hflowing.resolve_left hstate
    rw [get_bind_run, if_neg (by simp [hresuming]), if_pos (by simp [hresuming])]
    rfl

/-! ## What is promised -/

/-- The snapshot after an interrupt: the file is closed, the `.part` file holds the whole chunks of what
was received, `interrupt_info` describes it, and a second interrupt changes nothing. -/
structure Snapshot (metadata : TransferMetadata) (dir : DownloadDir) (received : Bytes) (w : World) :
    Prop where
  state : w.self.state = .interrupted
  tempFh : w.self.tempFh = none
  file : w.disk.nodes (metadata.partPath dir) = some (.file (wholePart metadata received))
  info : ∃ info, w.self.interruptInfo = some info ∧
    info.bytesReceived = (wholePart metadata received).length ∧
    info.resumeChunkIndex * metadata.chunkSize = info.bytesReceived ∧
    info.partialSha256 = Sha256.hexdigest (wholePart metadata received)
  again : interrupt w = (.ok (), w)

/-- An interrupt leaves the snapshot. -/
def Preserves (metadata : TransferMetadata) (dir : DownloadDir) (w : World) : Prop :=
  wp interrupt (fun r w' ↦ r = .ok () ∧ Snapshot metadata dir (writtenBytes w) w') w

/-- Nothing is left over behind the whole chunks. -/
def Aligned (metadata : TransferMetadata) (bytes : Bytes) : Prop :=
  (bytes.length : ℤ) % metadata.chunkSize = 0

/-- The bytes and their whole chunks are a SHA-256 collision. -/
def WholeCollides (metadata : TransferMetadata) (bytes : Bytes) : Prop :=
  wholePart metadata bytes ≠ bytes ∧
    Sha256.hexdigest bytes = Sha256.hexdigest (wholePart metadata bytes)

theorem wholePart_eq_iff {bytes : Bytes} (hchunk : 0 < metadata.chunkSize) :
    wholePart metadata bytes = bytes ↔ Aligned metadata bytes := by
  obtain ⟨size, hsize⟩ := Int.eq_ofNat_of_zero_le hchunk.le
  have hpos : 0 < size := by omega
  have hmod : Aligned metadata bytes ↔ bytes.length % size = 0 := by
    rw [Aligned, hsize]
    norm_cast
  have hdiv := Nat.div_add_mod' bytes.length size
  rw [hmod, wholePart, List.take_eq_self_iff, wholeCount, hsize, Int.toNat_natCast]
  omega

/-- The digests agree exactly when nothing is left over, or on a collision. -/
theorem hexdigest_wholePart_iff {bytes : Bytes} (hchunk : 0 < metadata.chunkSize) :
    Sha256.hexdigest bytes = Sha256.hexdigest (wholePart metadata bytes) ↔
      Aligned metadata bytes ∨ WholeCollides metadata bytes := by
  rw [← wholePart_eq_iff hchunk]
  constructor
  · intro hdigest
    by_cases hwhole : wholePart metadata bytes = bytes
    · exact .inl hwhole
    · exact .inr ⟨hwhole, hdigest⟩
  · rintro (hwhole | hcollides)
    · rw [hwhole]
    · exact hcollides.2

/-- In every state of a run on a disk that does not fail, in which chunks flow and a whole chunk has been
received: the interrupt leaves the snapshot exactly when the transfer was not resumed, its size is not
zero, and the last chunk is not short, or its loss goes unnoticed by SHA-256. -/
theorem preserves_iff {now : ℤ} {payload : Payload} {disk : Disk} {w : World}
    (hmetadata : TransferMetadata.fromDict now payload = .ok metadata)
    (hreliable : ∀ call, disk.Reliable call) (hrun : Run metadata dir disk w) (hflowing : Flowing w)
    (hwhole : metadata.chunkSize ≤ (writtenBytes w).length) :
    Preserves metadata dir w ↔ w.self.state = .transferring ∧ metadata.fileSize ≠ 0 ∧
      (Aligned metadata (writtenBytes w) ∨ WholeCollides metadata (writtenBytes w)) := by
  have hready := hrun.ready hreliable
  have hchunk := (accepted_of_fromDict hmetadata).chunkSize.1
  have hwritten : w.self.hasher = writtenBytes w :=
    ((integrity metadata dir disk w (hreliable .read) hrun).1 hflowing).1
  have hsame := hready.sound.owns.metadata_eq
  rw [← hexdigest_wholePart_iff hchunk]
  by_cases hkeeps : w.self.state = .transferring ∧ metadata.fileSize ≠ 0
  · obtain ⟨hstate, hsize⟩ := hkeeps
    have hnonempty : w.self.hasher ≠ [] := by
      intro hnil
      rw [← hwritten, hnil, List.length_nil] at hwhole
      omega
    have hinterrupt := interrupt_transferring hready hstate hchunk hsize hnonempty
    rw [hwritten] at hinterrupt
    obtain ⟨hok, hself, hfile⟩ := hinterrupt
    have hinterrupted : (interrupt w).2.self.state = .interrupted := by rw [hself]
    have hinfo : (interrupt w).2.self.interruptInfo = some
        ⟨w.self.metadata.transferId, (wholePart metadata (writtenBytes w)).length,
          wholeCount metadata (writtenBytes w), Sha256.hexdigest (writtenBytes w),
          w.self.metadata.senderIdentity, w.self.metadata.toDict⟩ := by
      rw [hself, ← hwritten]
      rfl
    constructor
    · intro h
      obtain ⟨info, hsome, -, -, hdigest⟩ := h.2.info
      rw [hinfo] at hsome
      obtain rfl := Option.some.inj hsome
      exact ⟨hstate, hsize, hdigest⟩
    · rintro ⟨-, -, hdigest⟩
      refine ⟨hok, hinterrupted, ?_, hfile, ⟨_, hinfo, rfl, ?_, hdigest⟩, interrupt_interrupted hinterrupted⟩
      · rw [hself]
      · rw [length_wholePart, Nat.cast_mul, Int.toNat_of_nonneg hchunk.le]
  · have hfails := interrupt_fails hflowing (by
      rw [hsame]
      by_cases hstate : w.self.state = .transferring
      · exact .inr (not_not.mp fun hsize ↦ hkeeps ⟨hstate, hsize⟩)
      · exact .inl (hflowing.resolve_left hstate))
    refine ⟨fun h ↦ ?_, fun h ↦ absurd ⟨h.1, h.2.1⟩ hkeeps⟩
    have hinterrupted := h.2.state
    rw [hfails] at hinterrupted
    exact nomatch hinterrupted

/-- Two chunks of at most two bytes. -/
def pairMetadata : TransferMetadata :=
  { sampleMetadata "photos/f.txt" with chunkSize := 2, chunkCount := 2 }

def pairFrame (seq : ℕ) (data : Bytes) : ChunkFrame := ⟨pairMetadata.transferId, seq, data⟩

/-- The state after some calls on a fresh object. -/
def afterCalls (calls : List Call) : World :=
  calls.foldl (fun w c ↦ (c.run w).2) ⟨rootDisk, .new pairMetadata sampleDir⟩

theorem run_afterCalls (calls : List Call) : Run pairMetadata sampleDir rootDisk (afterCalls calls) :=
  run_calls rootDisk calls

theorem preserves_iff_sample :
    Preserves pairMetadata sampleDir (afterCalls [.begin, .receiveChunk (pairFrame 0 [1, 2])]) :=
  (preserves_iff (show TransferMetadata.fromDict 0 pairMetadata.toDict = .ok pairMetadata by decide +kernel)
    (by simp [Disk.Reliable, rootDisk]) (run_afterCalls _) (.inl (by decide +kernel))
    (by decide +kernel)).mpr ⟨by decide +kernel, by decide, .inl (by unfold Aligned; decide +kernel)⟩

/-- A resumed transfer, and one with a short chunk before a full one: neither leaves the snapshot. -/
theorem resumed_or_short_lost :
    TransferMetadata.fromDict 0 pairMetadata.toDict = .ok pairMetadata ∧
      ∀ calls ∈ [[Call.begin, .receiveChunk (pairFrame 0 [1, 2]), .interrupt, .resume 1,
            .receiveChunk (pairFrame 1 [3])],
          [.begin, .receiveChunk (pairFrame 0 [1]), .receiveChunk (pairFrame 1 [2, 3])]],
        Run pairMetadata sampleDir rootDisk (afterCalls calls) ∧ Flowing (afterCalls calls) ∧
        pairMetadata.chunkSize ≤ (writtenBytes (afterCalls calls)).length ∧
        ¬Preserves pairMetadata sampleDir (afterCalls calls) := by
  refine ⟨by decide +kernel, ?_⟩
  simp only [List.forall_mem_cons, List.not_mem_nil, false_implies, implies_true, and_true]
  refine ⟨⟨run_afterCalls _, .inr (by decide +kernel), by decide +kernel, fun h ↦ ?_⟩,
    run_afterCalls _, .inl (by decide +kernel), by decide +kernel, fun h ↦ ?_⟩
  · have hfailed : (interrupt (afterCalls [.begin, .receiveChunk (pairFrame 0 [1, 2]), .interrupt,
        .resume 1, .receiveChunk (pairFrame 1 [3])])).2.self.state = .failed := by decide +kernel
    cases hfailed.symm.trans h.2.state
  · obtain ⟨info, hinfo, -, -, hdigest⟩ := h.2.info
    have hshort : (interrupt (afterCalls [.begin, .receiveChunk (pairFrame 0 [1]),
        .receiveChunk (pairFrame 1 [2, 3])])).2.self.interruptInfo.map InterruptInfo.partialSha256 ≠
        some (Sha256.hexdigest (wholePart pairMetadata [1, 2, 3])) := by decide +kernel
    refine hshort ?_
    rw [hinfo, Option.map_some, hdigest]
    congr 2

end IncomingTransfer

end Ferry
