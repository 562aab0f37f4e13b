import Ferry.Transfer.Confinement

/-!
# Integrity of a received file

While chunks flow, the bytes fed to the hasher are the bytes in the `.part` file followed by those
still in the buffer of the open file.  The operations that break this tie (a failed write, an
interrupt, a failed flush of an interrupt) leave the state in which chunks flow, and `resume` ties
the two again by reading the file.
-/

namespace Ferry

namespace IncomingTransfer

open Exec Disk

/-- The bytes in the buffer of the open file. -/
def buffered (self : IncomingTransfer) : Bytes :=
  match self.tempFh with
  | none => []
  | some fh => fh.buffer

/-- The bytes written to the `.part` file, including the buffered ones. -/
def writtenBytes (w : World) : Bytes :=
  w.disk.content (w.self.metadata.partPath w.self.downloadDir) ++ w.self.buffered

/-- The hasher and the counter agree with the bytes written to the file at `part`. -/
structure Synced (part : Path) (w : World) : Prop where
  isFile : w.disk.IsFile part
  hasher : w.self.hasher = w.disk.content part ++ w.self.buffered
  count : w.self.bytesReceived = w.self.hasher.length

/-- The file at `part` is there, and these are the bytes written to it, with the buffered ones. -/
structure Written (part : Path) (bytes : Bytes) (w : World) : Prop where
  isFile : w.disk.IsFile part
  staged : w.disk.content part ++ w.self.buffered = bytes

/-- Nothing is buffered. -/
def Quiet (w : World) : Prop := w.self.buffered = []

theorem Synced.written {part : Path} {w : World} (h : Synced part w) : Written part w.self.hasher w :=
  ⟨h.isFile, h.hasher.symm⟩

/-- The bytes written stay those fed to the hasher. -/
theorem Synced.of_written {part : Path} {w w' : World} (h : Synced part w) (honly : OnlyTempFh w w')
    (hwritten : Written part w.self.hasher w') : Synced part w' := by
  obtain ⟨fh, hself⟩ := honly
  refine ⟨hwritten.isFile, ?_, ?_⟩
  · rw [hwritten.staged, hself]
  · rw [hself]
    exact h.count

theorem Written.content {part : Path} {bytes : Bytes} {w : World} (h : Written part bytes w)
    (hquiet : Quiet w) : w.disk.content part = bytes := by
  rw [← h.staged, hquiet, List.append_nil]

/-- What each state promises about the hasher and the `.part` file. -/
def Phase (part : Path) (w : World) : Prop :=
  match w.self.state with
  | .idle | .requested => Quiet w ∧ w.self.hasher = [] ∧ w.self.bytesReceived = 0
  | .accepted | .interrupted | .resumeRequested => Quiet w
  | .transferring | .resuming => Synced part w
  | .cancelling | .completed | .failed | .cancelled => True

section Integrity

variable {metadata : TransferMetadata} {dir : DownloadDir}

/-! ## Methods that never raise -/

theorem succeeds_assignTempFh (fh : Option Handle) : Succeeds (assignTempFh fh) := by
  refine succeeds_get_bind fun w ↦ succeeds_bind (succeeds_modify _) (fun _ ↦ ?_) w
  cases w.self.tempFh with
  | none => exact succeeds_pure _
  | some handle => exact fun w ↦ ⟨(), rfl⟩

theorem succeeds_closeTempFh : Succeeds closeTempFh :=
  succeeds_get_bind fun w ↦ succeeds_ite _
    (succeeds_bind (succeeds_tryCatch _ fun _ ↦ succeeds_pure _) fun _ ↦ succeeds_assignTempFh _)
    (succeeds_pure _) w

theorem succeeds_cleanupTemp : Succeeds cleanupTemp := by
  refine succeeds_get_bind fun w ↦ ?_
  cases w.self.tempPath with
  | none => exact succeeds_pure _ w
  | some temp =>
    exact succeeds_ite _ (succeeds_tryCatch _ fun _ ↦ succeeds_pure _) (succeeds_pure _) w

/-- Ending with an assignment of the state, after steps that never raise. -/
theorem wp_bind_setState {m : Method Unit} (hm : Succeeds m) (state : TransferState) (w : World) :
    wp (do m; setState state) (fun r w' ↦ r = .ok () ∧ w'.self.state = state) w :=
  wp_bind_of (hm w) (fun _ _ h ↦ by simp at h) fun _ _ _ ↦ ⟨rfl, rfl⟩

theorem cleanupOnIoError_spec (w : World) :
    wp cleanupOnIoError (fun r w' ↦ r = .ok () ∧ w'.self.state = .failed) w :=
  wp_bind_of (succeeds_closeTempFh w) (fun _ _ h ↦ by simp at h) fun _ t _ ↦
    wp_bind_setState succeeds_cleanupTemp .failed t

/-- `cancel` never raises and ends in CANCELLED, from any state. -/
theorem cancel_spec (w : World) :
    wp cancel (fun r w' ↦ r = .ok () ∧ w'.self.state = .cancelled) w :=
  wp_bind_of (succeeds_closeTempFh w) (fun _ _ h ↦ by simp at h) fun _ t _ ↦
    wp_bind_setState succeeds_cleanupTemp .cancelled t

/-! ## Opening -/

/-- Replacing an open file with an empty buffer keeps the bytes of the `.part` file. -/
theorem assignTempFh_spec (part : Path) {w : World}
    (hpath : ∀ handle, w.self.tempFh = some handle → handle.path = part) (hquiet : Quiet w)
    (hfile : w.disk.IsFile part) (fh : Option Handle) :
    wp (assignTempFh fh) (fun r w' ↦ r = .ok () ∧ w'.self = { w.self with tempFh := fh } ∧
      w'.disk.IsFile part ∧ w'.disk.content part = w.disk.content part) w := by
  unfold assignTempFh
  rw [wp_get_bind, wp_bind, wp_update]
  cases hold : w.self.tempFh with
  | none => exact ⟨rfl, rfl, hfile, rfl⟩
  | some handle =>
    have hbuffer : handle.buffer = [] := by simpa [Quiet, buffered, hold] using hquiet
    have hdrop := Handle.drop_spec handle w.disk (hpath handle hold ▸ hfile) hbuffer
    rw [hpath handle hold] at hdrop
    exact ⟨rfl, rfl, hdrop.2.1, hdrop.2.2⟩

/-- What `openStaging` leaves: an open, empty `.part` file when it returns, and nothing buffered
when it raises. -/
theorem openStaging_spec {w : World} (hown : Owns metadata dir w) (hquiet : Quiet w) :
    wp openStaging (fun r w' ↦
      w'.self.state = w.self.state ∧ w'.self.hasher = w.self.hasher ∧
      w'.self.bytesReceived = w.self.bytesReceived ∧ Quiet w' ∧
      (r = .ok () → w'.disk.IsFile (metadata.partPath dir) ∧
        w'.disk.content (metadata.partPath dir) = [])) w := by
  unfold openStaging
  rw [wp_get_bind, hown.metadata_eq, hown.downloadDir_eq]
  have hany : ∀ p (d : Disk), wp (mkdir p) (fun _ _ ↦ True) d := fun _ _ ↦ trivial
  refine wp_onDisk_bind (hany _ _) (fun _ _ _ ↦ ⟨rfl, rfl, rfl, hquiet, by simp⟩) fun _ d₁ _ ↦ ?_
  refine wp_onDisk_bind (hany _ _) (fun _ _ _ ↦ ⟨rfl, rfl, rfl, hquiet, by simp⟩) fun _ d₂ _ ↦ ?_
  rw [wp_update_bind, wp_ofResult_bind]
  refine ⟨fun _ _ ↦ ⟨rfl, rfl, rfl, hquiet, by simp⟩, fun dest _ ↦ ?_⟩
  rw [wp_update_bind]
  refine wp_onDisk_bind (hany _ _) (fun _ _ _ ↦ ⟨rfl, rfl, rfl, hquiet, by simp⟩) fun _ d₃ _ ↦ ?_
  refine wp_onDisk_bind (Handle.openTruncate_spec _ _)
    (fun _ _ _ ↦ ⟨rfl, rfl, rfl, hquiet, by simp⟩) fun fh d₄ hopen ↦ ?_
  obtain ⟨rfl, hfile, hcontent, -⟩ := hopen.1 fh rfl
  refine wp_mono (assignTempFh_spec (metadata.partPath dir) ?_ ?_ ?_ _) ?_
  · exact hown.tempFh
  · exact hquiet
  · exact hfile
  rintro _ w' ⟨-, hself, hfile', hcontent'⟩
  rw [hself]
  exact ⟨rfl, rfl, rfl, by rw [Quiet, hself]; rfl, fun _ ↦ ⟨hfile', hcontent'.trans hcontent⟩⟩

theorem phase_begin {w : World} (hown : Owns metadata dir w) (h : Phase (metadata.partPath dir) w) :
    wp begin (fun _ w' ↦ Phase (metadata.partPath dir) w') w := by
  unfold begin
  rw [wp_bind, wp_transition]
  refine ⟨fun hvalid ↦ ?_, fun _ ↦ h⟩
  have hfresh : Quiet w ∧ w.self.hasher = [] ∧ w.self.bytesReceived = 0 := by
    unfold Phase at h
    cases hstate : w.self.state <;> simp_all [TransferState.validTransitions]
  obtain ⟨hquiet, hhasher, hcount⟩ := hfresh
  have hopened : wp (tryCatch openStaging fun e ↦ do
      if e.IsOsError then
        transition .failed
        throw (.transfer .openStaging)
      else throw e) (fun r w' ↦ (∀ e, r = .error e → Phase (metadata.partPath dir) w') ∧
        (r = .ok () → w'.self.state = .accepted ∧ Synced (metadata.partPath dir) w'))
      { w with self := { w.self with state := .accepted } } := by
    refine wp_tryCatch_of (openStaging_spec ⟨hown.1, hown.2, hown.3, hown.4⟩ hquiet) ?_ ?_
    · rintro e w' ⟨hstate, -, -, hquiet', -⟩
      have hstate' : w'.self.state = .accepted := hstate
      rw [wp_ite, wp_transition_bind, wp_throw, wp_throw]
      refine ⟨fun _ ↦ ⟨fun _ ↦ ⟨fun _ _ ↦ trivial, by simp⟩, fun hinvalid ↦ ?_⟩, fun _ ↦ ?_⟩
      · exact absurd (by simp [hstate', TransferState.validTransitions]) hinvalid
      · rw [Phase, hstate']
        exact ⟨fun _ _ ↦ hquiet', by simp⟩
    · rintro _ w' ⟨hstate, hhasher', hcount', hquiet', hok⟩
      obtain ⟨hfile, hcontent⟩ := hok rfl
      have hempty : w'.self.hasher = [] := hhasher'.trans hhasher
      have hzero : w'.self.bytesReceived = 0 := hcount'.trans hcount
      exact ⟨by simp, fun _ ↦ ⟨hstate, hfile, by rw [hempty, hcontent, hquiet']; rfl,
        by rw [hzero, hempty]; rfl⟩⟩
  refine wp_bind_of hopened (fun e t ht ↦ ht.1 e rfl) fun _ t ht ↦ ?_
  obtain ⟨hstate, hsynced⟩ := ht.2 rfl
  rw [wp_transition]
  refine ⟨fun _ ↦ ⟨hsynced.isFile, hsynced.hasher, hsynced.count⟩, fun hinvalid ↦ ?_⟩
  exact absurd (by simp [hstate, TransferState.validTransitions]) hinvalid

/-! ## Receiving -/

theorem synced_of_phase {part : Path} {w : World} (h : Phase part w)
    (hstate : w.self.state = .transferring ∨ w.self.state = .resuming) : Synced part w := by
  rcases hstate with hstate | hstate <;> simpa [Phase, hstate] using h

theorem phase_of_synced {part : Path} {w : World} (h : Synced part w)
    (hstate : w.self.state = .transferring ∨ w.self.state = .resuming) : Phase part w := by
  rcases hstate with hstate | hstate <;> simpa [Phase, hstate] using h

theorem phase_of_failed {part : Path} {w : World} (hstate : w.self.state = .failed) : Phase part w := by
  simp [Phase, hstate]

theorem phase_setState_failed (part : Path) (w : World) :
    wp (setState .failed) (fun _ w' ↦ Phase part w') w := by
  rw [wp_setState]
  exact phase_of_failed rfl

/-- A write through the open file either adds its bytes to the written ones, changes nothing, or
raises an `OSError`. -/
theorem onTempFh_write_written {w : World} {bytes : Bytes} (hown : Owns metadata dir w)
    (hwritten : Written (metadata.partPath dir) bytes w) (data : Bytes) :
    wp (onTempFh (Handle.write data)) (fun r w' ↦
      (r = .ok () → Written (metadata.partPath dir) (bytes ++ data) w') ∧
      (∀ e, r = .error e → ¬e.IsOsError → w' = w)) w := by
  cases hfh : w.self.tempFh with
  | none =>
    rw [wp_onTempFh_none hfh]
    exact ⟨by simp, fun _ _ _ ↦ rfl⟩
  | some fh =>
    have hpath := hown.tempFh fh hfh
    rw [wp_onTempFh_some hfh]
    apply wp_mono (Handle.write_spec data (w.disk, fh) (hpath ▸ hwritten.isFile))
    rintro r ⟨d, fh'⟩ ⟨hok, hclosed, -⟩
    cases r with
    | ok _ =>
      obtain ⟨hfile, -, -, hpath', hstaged⟩ := hok rfl
      have hbytes : d.content (metadata.partPath dir) ++ fh'.buffer = bytes ++ data := by
        have hbuffered : w.self.buffered = fh.buffer := by simp [buffered, hfh]
        have hpath'' : fh'.path = metadata.partPath dir := hpath'.trans hpath
        rw [← hwritten.staged, hbuffered]
        simpa only [Handle.staged, hpath, hpath''] using hstaged
      exact ⟨fun _ ↦ ⟨hpath ▸ hfile, hbytes⟩, by simp [Except.mapError]⟩
    | error e =>
      refine ⟨by simp [Except.mapError], fun e' he' hnot ↦ ?_⟩
      have hclosed' : e = .closedFile := by
        by_contra hne
        exact hnot (Except.error.inj he' ▸ isOsError_ofIo hne)
      obtain ⟨hd, hfh'⟩ := Prod.mk.inj (hclosed (by rw [hclosed']))
      rw [hd, hfh', ← hfh]

theorem onTempFh_write_spec {w : World} (hown : Owns metadata dir w)
    (hsynced : Synced (metadata.partPath dir) w) (data : Bytes) :
    wp (onTempFh (Handle.write data)) (fun r w' ↦
      (r = .ok () → w'.disk.IsFile (metadata.partPath dir) ∧ (∃ fh, w'.self = { w.self with tempFh := fh }) ∧
        w'.disk.content (metadata.partPath dir) ++ w'.self.buffered = w.self.hasher ++ data) ∧
      (∀ e, r = .error e → ¬e.IsOsError → w' = w)) w := by
  apply wp_mono (wp_and (onTempFh_write_written hown hsynced.written data) (onlyTempFh_onTempFh _ w))
  rintro r w' ⟨⟨hok, herror⟩, honly⟩
  exact ⟨fun hr ↦ ⟨(hok hr).isFile, honly, (hok hr).staged⟩, herror⟩

theorem phase_receiveChunk {w : World} (hown : Owns metadata dir w)
    (h : Phase (metadata.partPath dir) w) (frame : ChunkFrame) :
    wp (receiveChunk frame) (fun _ w' ↦ Phase (metadata.partPath dir) w') w := by
  unfold receiveChunk
  rw [wp_get_bind, wp_raiseIf_bind]
  refine ⟨fun _ ↦ h, fun hflowing ↦ ?_⟩
  rw [wp_raiseIf_bind]
  refine ⟨fun _ ↦ h, fun _ ↦ ?_⟩
  rw [wp_raiseIf_bind]
  refine ⟨fun _ ↦ h, fun _ ↦ ?_⟩
  rw [wp_raiseIf_bind]
  refine ⟨fun _ ↦ h, fun _ ↦ ?_⟩
  have hstate : w.self.state = .transferring ∨ w.self.state = .resuming := by
    by_cases ht : w.self.state = .transferring
    · exact .inl ht
    · exact .inr (not_not.mp fun hr ↦ hflowing ⟨ht, hr⟩)
  have hsynced := synced_of_phase h hstate
  refine wp_bind_of (P := fun r w' ↦ (∀ e, r = .error e → Phase (metadata.partPath dir) w') ∧
    (r = .ok () → w'.disk.IsFile (metadata.partPath dir) ∧ (∃ fh, w'.self = { w.self with tempFh := fh }) ∧
      w'.disk.content (metadata.partPath dir) ++ w'.self.buffered = w.self.hasher ++ frame.data)) ?_
    (fun e _ ht ↦ ht.1 e rfl) fun _ w' hw' ↦ ?_
  · refine wp_tryCatch_of (onTempFh_write_spec hown hsynced frame.data) (fun e w' hw' ↦ ?_)
      fun _ w' hw' ↦ ⟨by simp, fun _ ↦ hw'.1 rfl⟩
    rw [wp_ite]
    refine ⟨fun _ ↦ ?_, fun hnot ↦ ?_⟩
    · exact wp_bind_of (cleanupOnIoError_spec w') (fun _ _ ht ↦ by simp at ht) fun _ _ ht ↦
        ⟨fun _ _ ↦ phase_of_failed ht.2, by simp⟩
    · rw [hw'.2 e rfl hnot, wp_throw]
      exact ⟨fun _ _ ↦ h, by simp⟩
  · obtain ⟨hfile, ⟨fh, hself⟩, hbytes⟩ := hw'.2 rfl
    rw [wp_update]
    refine phase_of_synced ⟨hfile, ?_, ?_⟩ (by rw [hself]; exact hstate)
    · rw [hself] at hbytes ⊢
      exact hbytes.symm
    · rw [hself]
      simp [hsynced.count]

/-! ## Finishing -/

theorem onTempFh_flush_written {w : World} {bytes : Bytes} (hown : Owns metadata dir w)
    (hwritten : Written (metadata.partPath dir) bytes w) :
    wp (onTempFh Handle.flush) (fun r w' ↦ Written (metadata.partPath dir) bytes w' ∧
      (r = .ok () → Quiet w')) w := by
  cases hfh : w.self.tempFh with
  | none =>
    rw [wp_onTempFh_none hfh]
    exact ⟨hwritten, by simp⟩
  | some fh =>
    have hpath := hown.tempFh fh hfh
    have hbuffered : w.self.buffered = fh.buffer := by simp [buffered, hfh]
    rw [wp_onTempFh_some hfh]
    apply wp_mono (Handle.flush_spec (w.disk, fh) (hpath ▸ hwritten.isFile))
    rintro r ⟨d, fh'⟩ ⟨hfile, hpath', -, hstaged, hquiet, -⟩
    have hpath'' : fh'.path = metadata.partPath dir := hpath'.trans hpath
    have hbytes : d.content (metadata.partPath dir) ++ fh'.buffer = bytes := by
      rw [← hwritten.staged, hbuffered]
      simpa only [Handle.staged, hpath, hpath''] using hstaged
    exact ⟨⟨hpath ▸ hfile, hbytes⟩, fun hok ↦ hquiet (mapError_eq_ok.mp hok)⟩

theorem onTempFh_close_written {w : World} {bytes : Bytes} (hown : Owns metadata dir w)
    (hwritten : Written (metadata.partPath dir) bytes w) (hquiet : Quiet w) :
    wp (onTempFh Handle.close) (fun _ w' ↦ Written (metadata.partPath dir) bytes w' ∧ Quiet w') w := by
  cases hfh : w.self.tempFh with
  | none =>
    rw [wp_onTempFh_none hfh]
    exact ⟨hwritten, hquiet⟩
  | some fh =>
    have hpath := hown.tempFh fh hfh
    have hbuffer : fh.buffer = [] := by simpa [Quiet, buffered, hfh] using hquiet
    rw [wp_onTempFh_some hfh]
    apply wp_mono (Handle.close_spec (w.disk, fh) (hpath ▸ hwritten.isFile) hbuffer)
    rintro r ⟨d, fh'⟩ ⟨hfile, -, -, hbuffer', hcontent, -⟩
    have hcontent' : d.content (metadata.partPath dir) = bytes :=
      (hpath ▸ hcontent).trans (hwritten.content hquiet)
    refine ⟨⟨hpath ▸ hfile, ?_⟩, hbuffer'⟩
    change d.content _ ++ fh'.buffer = bytes
    rw [hcontent', hbuffer', List.append_nil]

/-- Flushing and closing keep the written bytes, whether or not they raise; when they return, nothing
is left in a buffer. -/
theorem flushTempFh_written {w : World} {bytes : Bytes} (hown : Owns metadata dir w)
    (hwritten : Written (metadata.partPath dir) bytes w) :
    wp flushTempFh (fun r w' ↦ Written (metadata.partPath dir) bytes w' ∧
      (r = .ok () → Quiet w')) w := by
  unfold flushTempFh
  rw [wp_get_bind, wp_ite]
  refine ⟨fun _ ↦ ?_, fun hnone ↦ ⟨hwritten, fun _ ↦ ?_⟩⟩
  · have hframed : Stays (Framed metadata dir) (onTempFh Handle.flush) :=
      stays_onTempFh Handle.stays_flush
    have hframed' : Stays (Framed metadata dir) (onTempFh Handle.close) :=
      stays_onTempFh Handle.stays_close
    refine wp_bind_of (wp_and (onTempFh_flush_written hown hwritten) (hframed w))
      (fun e t ht ↦ ⟨ht.1.1, by simp⟩) fun _ w₁ hw₁ ↦ ?_
    obtain ⟨⟨hwritten₁, hquiet₁⟩, hkept₁⟩ := hw₁
    have hown₁ : Owns metadata dir w₁ := (hkept₁ hown).owns
    refine wp_bind_of (wp_and (onTempFh_close_written hown₁ hwritten₁ (hquiet₁ rfl)) (hframed' w₁))
      (fun e t ht ↦ ⟨ht.1.1, by simp⟩) fun _ w₂ hw₂ ↦ ?_
    obtain ⟨⟨hwritten₂, hquiet₂⟩, hkept₂⟩ := hw₂
    refine wp_mono (assignTempFh_spec _ (hkept₂ hown₁).owns.tempFh hquiet₂ hwritten₂.isFile none) ?_
    rintro r w' ⟨-, hself, hfile, hcontent⟩
    have hquiet' : Quiet w' := by rw [Quiet, hself]; rfl
    refine ⟨⟨hfile, ?_⟩, fun _ ↦ hquiet'⟩
    rw [hcontent, hquiet', List.append_nil]
    exact hwritten₂.content hquiet₂
  · have hfh : w.self.tempFh = none := by simpa using hnone
    change w.self.buffered = []
    simp [buffered, hfh]

section Synced

variable {w : World} (hown : Owns metadata dir w) (hsynced : Synced (metadata.partPath dir) w)

include hown hsynced

theorem onTempFh_flush_synced :
    wp (onTempFh Handle.flush) (fun r w' ↦ Synced (metadata.partPath dir) w' ∧
      (r = .ok () → Quiet w')) w := by
  apply wp_mono (wp_and (onTempFh_flush_written hown hsynced.written) (onlyTempFh_onTempFh _ w))
  exact fun _ _ ⟨h, honly⟩ ↦ ⟨hsynced.of_written honly h.1, h.2⟩

theorem onTempFh_close_synced (hquiet : Quiet w) :
    wp (onTempFh Handle.close) (fun _ w' ↦ Synced (metadata.partPath dir) w' ∧ Quiet w') w := by
  apply wp_mono (wp_and (onTempFh_close_written hown hsynced.written hquiet) (onlyTempFh_onTempFh _ w))
  exact fun _ _ ⟨h, honly⟩ ↦ ⟨hsynced.of_written honly h.1, h.2⟩

theorem flushTempFh_synced :
    wp flushTempFh (fun r w' ↦ Synced (metadata.partPath dir) w' ∧ (r = .ok () → Quiet w')) w := by
  apply wp_mono (wp_and (flushTempFh_written hown hsynced.written) (onlyTempFh_flushTempFh w))
  exact fun _ _ ⟨h, honly⟩ ↦ ⟨hsynced.of_written honly h.1, h.2⟩

end Synced

/-- Nothing gets buffered by a call on a file with an empty buffer. -/
theorem onTempFh_quiet {m : Exec IoError (Disk × Handle) Unit} {w : World} (hquiet : Quiet w)
    (hm : ∀ s : Disk × Handle, s.2.buffer = [] → wp m (fun _ s' ↦ s'.2.buffer = []) s) :
    wp (onTempFh m) (fun _ w' ↦ Quiet w') w := by
  cases hfh : w.self.tempFh with
  | none =>
    rw [wp_onTempFh_none hfh]
    exact hquiet
  | some fh =>
    rw [wp_onTempFh_some hfh]
    exact hm (w.disk, fh) (by simpa [Quiet, buffered, hfh] using hquiet)

theorem flush_quiet (s : Disk × Handle) (h : s.2.buffer = []) :
    wp Handle.flush (fun _ s' ↦ s'.2.buffer = []) s := by
  rw [Handle.wp_flush]
  exact ⟨fun _ ↦ h, fun _ ↦ ⟨fun _ ↦ by simp [h], fun _ ↦ rfl⟩⟩

theorem close_quiet (s : Disk × Handle) (h : s.2.buffer = []) :
    wp Handle.close (fun _ s' ↦ s'.2.buffer = []) s := by
  rw [Handle.wp_close]
  exact ⟨fun _ ↦ h, fun _ ↦ ⟨fun _ ↦ rfl, fun _ ↦ rfl⟩⟩

/-- Assigning a file with an empty buffer, or none, leaves nothing buffered. -/
theorem assignTempFh_quiet {fh : Option Handle} (hfh : ∀ handle, fh = some handle → handle.buffer = [])
    (w : World) : wp (assignTempFh fh) (fun _ w' ↦ Quiet w') w := by
  have hquiet : ∀ w' : World, w'.self.tempFh = fh → Quiet w' := by
    intro w' hw'
    unfold Quiet buffered
    rw [hw']
    cases fh with
    | none => rfl
    | some handle => exact hfh handle rfl
  unfold assignTempFh
  rw [wp_get_bind, wp_update_bind]
  cases w.self.tempFh with
  | none => exact hquiet _ rfl
  | some handle => exact hquiet _ rfl

theorem flushTempFh_quiet {w : World} (hquiet : Quiet w) :
    wp flushTempFh (fun _ w' ↦ Quiet w') w := by
  unfold flushTempFh
  rw [wp_get_bind, wp_ite]
  refine ⟨fun _ ↦ ?_, fun _ ↦ hquiet⟩
  refine wp_bind_of (onTempFh_quiet hquiet flush_quiet) (fun _ _ h ↦ h) fun _ w₁ hw₁ ↦ ?_
  refine wp_bind_of (onTempFh_quiet hw₁ close_quiet) (fun _ _ h ↦ h) fun _ w₂ _ ↦ ?_
  exact assignTempFh_quiet (by simp) w₂

/-- A phase that does not tie the hasher to the disk survives any change of the disk. -/
theorem phase_of_quiet {part : Path} {w w' : World} (h : Phase part w)
    (hflowing : w.self.state ≠ .transferring ∧ w.self.state ≠ .resuming) (hquiet : Quiet w → Quiet w')
    (hstate : w'.self.state = w.self.state) (hhasher : w'.self.hasher = w.self.hasher)
    (hcount : w'.self.bytesReceived = w.self.bytesReceived) : Phase part w' := by
  unfold Phase at *
  rw [hstate]
  cases hcase : w.self.state <;> simp_all

theorem phase_congr {part : Path} {w w' : World} (h : Phase part w) (hself : w'.self = w.self)
    (hnodes : w'.disk.nodes part = w.disk.nodes part) : Phase part w' := by
  have hcontent : w'.disk.content part = w.disk.content part := by
    unfold Disk.content
    rw [hnodes]
  have hsynced : Synced part w → Synced part w' := by
    rintro ⟨⟨data, hdata⟩, hhasher, hcount⟩
    refine ⟨⟨data, hnodes.trans hdata⟩, ?_, ?_⟩
    · rw [hself, hcontent]
      exact hhasher
    · rw [hself]
      exact hcount
  unfold Phase Quiet at *
  rw [hself]
  cases hstate : w.self.state <;> simp_all

theorem flowing_of_completed {w : World} (hinvalid : TransferState.completed ∉ w.self.state.validTransitions) :
    w.self.state ≠ .transferring ∧ w.self.state ≠ .resuming := by
  constructor <;> intro hstate <;> simp [hstate, TransferState.validTransitions] at hinvalid

theorem flowing_of_failed {w : World} (hinvalid : TransferState.failed ∉ w.self.state.validTransitions) :
    w.self.state ≠ .transferring ∧ w.self.state ≠ .resuming := by
  constructor <;> intro hstate <;> simp [hstate, TransferState.validTransitions] at hinvalid

/-- Flushing keeps the phase. -/
theorem phase_flushTempFh {w : World} (hown : Owns metadata dir w) (h : Phase (metadata.partPath dir) w) :
    wp flushTempFh (fun _ w' ↦ Phase (metadata.partPath dir) w') w := by
  obtain ⟨fh, hself⟩ := onlyTempFh_flushTempFh w
  have hstate : (flushTempFh w).2.self.state = w.self.state := by rw [hself]
  by_cases hflowing : w.self.state = .transferring ∨ w.self.state = .resuming
  · have hsynced := (flushTempFh_synced hown (synced_of_phase h hflowing)).1
    exact phase_of_synced hsynced (hstate ▸ hflowing)
  · exact phase_of_quiet h (not_or.mp hflowing) (fun hquiet ↦ flushTempFh_quiet hquiet) hstate
      (by rw [hself]) (by rw [hself])

/-- `_cleanup_temp` works on the disk only. -/
theorem cleanupTemp_self (w : World) : wp cleanupTemp (fun _ w' ↦ w'.self = w.self) w := by
  unfold cleanupTemp
  rw [wp_get_bind]
  cases w.self.tempPath with
  | none => exact rfl
  | some temp =>
    rw [wp_ite]
    have hunlink : wp (onDisk (unlink temp)) (fun _ w' ↦ w'.self = w.self) w := rfl
    exact ⟨fun _ ↦ wp_tryCatch_of hunlink (fun _ _ h ↦ h) fun _ _ h ↦ h, fun _ ↦ rfl⟩

theorem phase_finalise {w : World} (hown : Owns metadata dir w) (h : Phase (metadata.partPath dir) w) :
    wp finalise (fun _ w' ↦ Phase (metadata.partPath dir) w') w := by
  have hframed : Stays (Framed metadata dir) flushTempFh := stays_flushTempFh
  refine wp_bind_of (wp_and (phase_flushTempFh hown h) (hframed w)) (fun _ _ ht ↦ ht.1) fun _ w₁ hw₁ ↦ ?_
  obtain ⟨hphase, hkept⟩ := hw₁
  rw [wp_get_bind, wp_ite]
  refine ⟨fun _ ↦ ?_, fun _ ↦ ?_⟩
  · refine wp_bind_of (wp_and (succeeds_cleanupTemp w₁) (cleanupTemp_self w₁))
      (fun _ _ ht ↦ by simp at ht) fun _ w₂ hw₂ ↦ ?_
    obtain ⟨-, hself⟩ := hw₂
    rw [wp_transition_bind, wp_pure]
    refine ⟨fun _ ↦ phase_of_failed rfl, fun hinvalid ↦ ?_⟩
    rw [hself] at hinvalid
    exact phase_of_quiet hphase (flowing_of_failed hinvalid)
      (fun hquiet ↦ by unfold Quiet; rw [hself]; exact hquiet) (by rw [hself]) (by rw [hself]) (by rw [hself])
  · apply wp_mono (deliver_cases (hkept hown).owns)
    rintro r w' (⟨-, hself, hnodes, -⟩ | ⟨final, -, -, ⟨-, hself, -⟩ | ⟨-, hself, hinvalid⟩⟩)
    · exact phase_congr hphase hself (congrFun hnodes _)
    · simp [Phase, hself]
    · exact phase_of_quiet hphase (flowing_of_completed hinvalid)
        (fun hquiet ↦ by unfold Quiet; rw [hself]; exact hquiet) (by rw [hself]) (by rw [hself]) (by rw [hself])

/-! ## Interrupting -/

/-- Only the counters of the object change. -/
def OnlyCounters (w w' : World) : Prop :=
  ∃ count seq, w'.self = { w.self with bytesReceived := count, nextSeq := seq }

instance : IsPreorder World OnlyCounters where
  refl := fun w ↦ ⟨w.self.bytesReceived, w.self.nextSeq, rfl⟩
  trans := by
    rintro w w' w'' ⟨count, seq, h⟩ ⟨count', seq', h'⟩
    exact ⟨count', seq', by rw [h', h]⟩

theorem onlyCounters_onDisk {α : Type} (m : Exec IoError Disk α) : Stays OnlyCounters (onDisk m) :=
  fun w ↦ ⟨w.self.bytesReceived, w.self.nextSeq, rfl⟩

theorem onlyCounters_bytesOnDisk : Stays OnlyCounters bytesOnDisk := by
  refine stays_get_bind fun w ↦ ?_
  cases w.self.tempPath with
  | none => exact stays_pure (R := OnlyCounters) _ w
  | some temp =>
    exact stays_ite _ (stays_tryCatch (onlyCounters_onDisk _) fun _ ↦
      stays_ite _ (stays_pure _) (stays_throw _)) (stays_pure _) w

theorem onlyCounters_truncateToChunk (actual : ℕ) : Stays OnlyCounters (truncateToChunk actual) := by
  refine stays_get_bind fun w ↦ ?_
  cases w.self.tempPath with
  | none => exact stays_pure (R := OnlyCounters) _ w
  | some temp =>
    refine stays_ite _ (stays_tryCatch ?_ fun _ ↦ stays_ite _ (stays_pure _) (stays_throw _))
      (stays_pure _) w
    exact stays_bind (stays_raiseIf _ _) fun _ ↦ stays_bind (onlyCounters_onDisk _) fun _ ↦
      stays_modify fun w ↦ ⟨_, w.self.nextSeq, rfl⟩

theorem onlyCounters_prepareResumeRequest (expectedBytes expectedChunkIndex : Option ℤ) :
    Stays OnlyCounters (prepareResumeRequest expectedBytes expectedChunkIndex) := by
  refine stays_get_bind fun w ↦ stays_bind (stays_raiseIf _ _) (fun _ ↦ ?_) w
  cases w.self.tempPath with
  | none => exact stays_throw _
  | some temp =>
    have hcheck : ∀ m size, Stays OnlyCounters (checkPartial m size expectedBytes expectedChunkIndex) := by
      intro m size
      iterate 6 refine stays_bind (stays_raiseIf _ _) fun _ ↦ ?_
      exact stays_raiseIf _ _
    have hread : Stays OnlyCounters (readPart temp) := by
      refine stays_bind (onlyCounters_onDisk _) fun result ↦ ?_
      obtain ⟨data, error⟩ := result
      cases error with
      | none => exact stays_pure _
      | some e => exact stays_throw _
    exact stays_bind (stays_raiseIf _ _) fun _ ↦ stays_bind (onlyCounters_onDisk _) fun size ↦
      stays_bind (hcheck _ size) fun _ ↦ stays_bind hread fun _ ↦
        stays_bind (stays_modify fun _ ↦ ⟨_, _, rfl⟩) fun _ ↦ stays_ofResult _

/-- In a state where only quietness matters, a change of the counters keeps the phase. -/
theorem phase_of_onlyCounters {part : Path} {w w' : World} (hquiet : Quiet w)
    (hstate : w.self.state = .accepted ∨ w.self.state = .interrupted ∨ w.self.state = .resumeRequested)
    (hcounters : OnlyCounters w w') : Phase part w' := by
  obtain ⟨count, seq, hself⟩ := hcounters
  have hquiet' : Quiet w' := by
    unfold Quiet
    rw [hself]
    exact hquiet
  have hstate' : w'.self.state = w.self.state := by rw [hself]
  unfold Phase
  rw [hstate']
  rcases hstate with hstate | hstate | hstate <;> rw [hstate] <;> exact hquiet'

/-- After an interrupt no file is open, whatever failed. -/
theorem releaseTempFh_spec (w : World) :
    wp releaseTempFh (fun r w' ↦ r = .ok () ∧ w'.self.tempFh = none ∧ w'.self.state = w.self.state) w := by
  unfold releaseTempFh
  rw [wp_get_bind, wp_ite]
  refine ⟨fun _ ↦ ?_, fun hnone ↦ ?_⟩
  case refine_2 =>
    rw [wp_pure]
    exact ⟨rfl, by simpa using hnone, rfl⟩
  have hrelease : Stays OnlyTempFh
      (tryCatch (do onTempFh Handle.flush; onTempFh Handle.close) fun _ ↦ pure ()) :=
    stays_tryCatch (stays_bind (onlyTempFh_onTempFh _) fun _ ↦ onlyTempFh_onTempFh _) fun _ ↦ stays_pure _
  have hreturns := succeeds_tryCatch (do onTempFh Handle.flush; onTempFh Handle.close)
    fun _ ↦ succeeds_pure ()
  refine wp_bind_of (wp_and (hreturns w) (hrelease w)) (fun _ _ ht ↦ by simp at ht) fun _ w₁ hw₁ ↦ ?_
  obtain ⟨-, fh, hself⟩ := hw₁
  have hstate : w₁.self.state = w.self.state := by rw [hself]
  unfold assignTempFh
  rw [wp_get_bind, wp_update_bind]
  cases w₁.self.tempFh with
  | none => exact ⟨rfl, rfl, hstate⟩
  | some handle => exact ⟨rfl, rfl, hstate⟩

/-- Measuring the file never raises. -/
theorem succeeds_bytesOnDisk : Succeeds bytesOnDisk := by
  refine succeeds_get_bind fun w ↦ ?_
  cases w.self.tempPath with
  | none => exact succeeds_pure _ w
  | some temp =>
    rw [wp_ite]
    refine ⟨fun _ ↦ ?_, fun _ ↦ ⟨0, rfl⟩⟩
    have hstat : wp (onDisk (stat temp)) (fun r _ ↦ ∀ e, r = .error e → e.IsOsError) w := by
      rw [wp_onDisk]
      apply wp_mono (stat_spec temp w.disk)
      rintro r d ⟨-, herror, -⟩ e he
      cases r with
      | error e' => exact Except.error.inj he ▸ isOsError_ofIo (herror e' rfl)
      | ok n => simp [Except.mapError] at he
    refine wp_tryCatch_of hstat (fun e t ht ↦ ?_) fun n _ _ ↦ ⟨n, rfl⟩
    rw [if_pos (ht e rfl)]
    exact ⟨0, rfl⟩

theorem succeeds_truncateToChunk (actual : ℕ) : Succeeds (truncateToChunk actual) := by
  refine succeeds_get_bind fun w ↦ ?_
  cases w.self.tempPath with
  | none => exact succeeds_pure _ w
  | some temp =>
    dsimp only
    rw [wp_ite]
    refine ⟨fun _ ↦ ?_, fun _ ↦ ⟨(), rfl⟩⟩
    have htruncate : wp (do
        raiseIf (w.self.nextSeq * w.self.metadata.chunkSize < 0) .osError
        onDisk (truncate temp (w.self.nextSeq * w.self.metadata.chunkSize).toNat)
        update fun self ↦ { self with
          bytesReceived := (w.self.nextSeq * w.self.metadata.chunkSize).toNat } : Method Unit)
        (fun r _ ↦ ∀ e, r = .error e → e.IsOsError) w := by
      rw [wp_raiseIf_bind]
      refine ⟨fun _ e he ↦ Except.error.inj he ▸ .inl rfl, fun _ ↦ ?_⟩
      refine wp_onDisk_bind (truncate_errors temp _ w.disk) (fun e _ herror e' he' ↦ ?_) fun _ _ _ ↦ ?_
      · exact Except.error.inj he' ▸ isOsError_ofIo (herror e rfl)
      · rw [wp_update]
        simp
    refine wp_tryCatch_of htruncate (fun e t ht ↦ ?_) fun _ _ _ ↦ ⟨(), rfl⟩
    rw [if_pos (ht e rfl)]
    exact ⟨(), rfl⟩

theorem phase_interrupt {w : World} (h : Phase (metadata.partPath dir) w) :
    wp interrupt (fun _ w' ↦ Phase (metadata.partPath dir) w') w := by
  unfold interrupt
  rw [wp_get_bind, wp_ite]
  refine ⟨fun _ ↦ h, fun _ ↦ ?_⟩
  rw [wp_ite]
  refine ⟨fun _ ↦ phase_setState_failed _ w, fun hstate ↦ ?_⟩
  rw [wp_ite]
  refine ⟨fun _ ↦ phase_setState_failed _ w, fun _ ↦ ?_⟩
  unfold preservePart
  refine wp_bind_of (releaseTempFh_spec w) (fun _ _ ht ↦ by simp at ht) fun _ w₁ hw₁ ↦ ?_
  obtain ⟨-, hfh, hstate₁⟩ := hw₁
  refine wp_bind_of (wp_and (succeeds_bytesOnDisk w₁) (onlyCounters_bytesOnDisk w₁))
    (fun _ _ ht ↦ by simp at ht) fun actual w₂ hw₂ ↦ ?_
  rw [wp_get_bind, wp_ite]
  refine ⟨fun _ ↦ phase_setState_failed _ w₂, fun _ ↦ ?_⟩
  rw [wp_update_bind]
  set w₃ : World := { w₂ with self := { w₂.self with
    bytesReceived := actual
    nextSeq := if 0 < w₂.self.metadata.chunkSize then actual / w₂.self.metadata.chunkSize
      else w₂.self.nextSeq } } with hw₃
  refine wp_bind_of (wp_and (succeeds_truncateToChunk actual w₃) (onlyCounters_truncateToChunk actual w₃))
    (fun _ _ ht ↦ by simp at ht) fun _ w₄ hw₄ ↦ ?_
  have hcounters : OnlyCounters w₁ w₄ :=
    trans_of OnlyCounters (trans_of OnlyCounters hw₂.2 ⟨_, _, by rw [hw₃]⟩) hw₄.2
  have hquiet : Quiet w₁ := by
    unfold Quiet buffered
    rw [hfh]
  obtain ⟨count, seq, hself⟩ := hcounters
  have hstate₄ : w₄.self.state = w.self.state := by rw [hself]; exact hstate₁
  have hquiet₄ : Quiet w₄ := by
    unfold Quiet
    rw [hself]
    exact hquiet
  rw [wp_transition]
  refine ⟨fun _ ↦ hquiet₄, fun hinvalid ↦ ?_⟩
  have haccepted : w₄.self.state = .accepted := by
    rw [hstate₄] at hinvalid ⊢
    by_contra hne
    have htransferring : w.self.state = .transferring := by
      by_contra hne'
      exact hstate ⟨hne', hne⟩
    simp [htransferring, TransferState.validTransitions] at hinvalid
  exact phase_of_onlyCounters hquiet₄ (.inl haccepted) (refl_of OnlyCounters w₄)

theorem phase_prepareResumeRequest {w : World} (h : Phase (metadata.partPath dir) w)
    (expectedBytes expectedChunkIndex : Option ℤ) :
    wp (prepareResumeRequest expectedBytes expectedChunkIndex)
      (fun _ w' ↦ Phase (metadata.partPath dir) w') w := by
  by_cases hstate : w.self.state = .interrupted
  · have hquiet : Quiet w := by simpa [Phase, hstate] using h
    apply wp_mono (onlyCounters_prepareResumeRequest expectedBytes expectedChunkIndex w)
    exact fun _ _ hcounters ↦ phase_of_onlyCounters hquiet (.inr (.inl hstate)) hcounters
  · unfold prepareResumeRequest
    rw [wp_get_bind, wp_raiseIf_bind]
    exact ⟨fun _ ↦ h, fun hnot ↦ absurd hstate hnot⟩

/-! ## Resuming -/

/-- `resume` seeds the hasher from the bytes it appends to. -/
theorem phase_reopenPart {w : World} (hown : Owns metadata dir w) (hquiet : Quiet w)
    (hstate : w.self.state = .resumeRequested) (hread : w.disk.Reliable .read) (chunkIndex : ℤ) :
    wp (reopenPart chunkIndex (metadata.partPath dir)) (fun _ w' ↦ Phase (metadata.partPath dir) w') w := by
  have hphase : ∀ w' : World, w'.self.state = .resumeRequested → Quiet w' →
      Phase (metadata.partPath dir) w' := by
    intro w' hstate' hquiet'
    unfold Phase
    rw [hstate']
    exact hquiet'
  have hopened : wp (tryCatch (do
        let fh ← onDisk (Handle.openAppend (metadata.partPath dir))
        assignTempFh (some fh)) fun e ↦ do
          if e.IsOsError then
            setState .failed
            throw (.transfer .reopenPart)
          else throw e)
      (fun r w' ↦ (∀ e, r = .error e → Phase (metadata.partPath dir) w') ∧
        (r = .ok () → w'.self.state = .resumeRequested ∧ Quiet w' ∧
          w'.disk.IsFile (metadata.partPath dir) ∧ w'.disk.Reliable .read)) w := by
    refine wp_tryCatch_of (P := fun r w' ↦ w'.self.state = .resumeRequested ∧ Quiet w' ∧
      (r = .ok () → w'.disk.IsFile (metadata.partPath dir) ∧ w'.disk.Reliable .read)) ?_ ?_ ?_
    · have hopen : Stays (OnlyFile (metadata.partPath dir)) (Handle.openAppend (metadata.partPath dir)) :=
        Handle.stays_openAppend _
      refine wp_onDisk_bind (wp_and (Handle.openAppend_spec _ w.disk) (hopen w.disk))
        (fun _ _ _ ↦ ⟨hstate, hquiet, by simp⟩) fun fh d hd ↦ ?_
      obtain ⟨⟨hok, -⟩, honly⟩ := hd
      obtain ⟨rfl, hfile, -⟩ := hok fh rfl
      have hassign : Stays (Framed metadata dir) (assignTempFh (some ⟨metadata.partPath dir, [], false⟩)) :=
        stays_assignTempFh (by simp)
      have hown' : Owns metadata dir { w with disk := d } := ⟨hown.1, hown.2, hown.3, hown.4⟩
      refine wp_mono (wp_and (assignTempFh_spec (w := { w with disk := d }) (metadata.partPath dir)
        hown.tempFh hquiet hfile _) (hassign { w with disk := d })) ?_
      rintro r w' ⟨⟨-, hself, hfile', -⟩, hkept⟩
      refine ⟨by rw [hself]; exact hstate, by unfold Quiet; rw [hself]; rfl, fun _ ↦ ⟨hfile', ?_⟩⟩
      exact (hread.later (honly.faults .read)).later ((hkept hown').disk.faults .read)
    · rintro e w' ⟨hstate', hquiet', -⟩
      rw [wp_ite, wp_setState_bind, wp_throw, wp_throw]
      exact ⟨fun _ ↦ ⟨fun _ _ ↦ phase_of_failed rfl, by simp⟩,
        fun _ ↦ ⟨fun _ _ ↦ hphase w' hstate' hquiet', by simp⟩⟩
    · rintro _ w' ⟨hstate', hquiet', hok⟩
      exact ⟨by simp, fun _ ↦ ⟨hstate', hquiet', hok rfl⟩⟩
  unfold reopenPart
  refine wp_bind_of hopened (fun e _ ht ↦ ht.1 e rfl) fun _ w₁ hw₁ ↦ ?_
  obtain ⟨hstate₁, hquiet₁, hfile₁, hread₁⟩ := hw₁.2 rfl
  refine wp_onDisk_bind (readBlocks_spec _ w₁.disk) (fun _ _ _ ↦ hphase _ hstate₁ hquiet₁)
    fun result d₂ hd₂ ↦ ?_
  obtain ⟨hnodes₂, hok₂⟩ := hd₂
  obtain rfl := Except.ok.inj (hok₂ hfile₁ hread₁)
  rw [wp_update_bind]
  refine wp_onDisk_bind (stat_spec _ d₂) (fun _ _ _ ↦ hphase _ hstate₁ hquiet₁) fun size d₃ hd₃ ↦ ?_
  obtain ⟨hnodes₃, -, hsize⟩ := hd₃
  have hfile₂ : d₂.IsFile (metadata.partPath dir) := by
    unfold Disk.IsFile
    rw [hnodes₂]
    exact hfile₁
  have hcontent : ∀ d : Disk, d.nodes = w₁.disk.nodes →
      d.content (metadata.partPath dir) = w₁.disk.content (metadata.partPath dir) := by
    intro d hd
    unfold Disk.content
    rw [hd]
  have hlength : size = (w₁.disk.content (metadata.partPath dir)).length := by
    rw [← hcontent d₂ hnodes₂]
    exact (hsize hfile₂).1 size rfl
  rw [wp_update_bind, wp_transition]
  refine ⟨fun _ ↦ ⟨?_, ?_, hlength⟩, fun hinvalid ↦ absurd ?_ hinvalid⟩
  · unfold Disk.IsFile
    rw [hnodes₃, hnodes₂]
    exact hfile₁
  · rw [hcontent d₃ (hnodes₃.trans hnodes₂)]
    exact ((congrArg _ hquiet₁).trans (List.append_nil _)).symm
  · simp [hstate₁, TransferState.validTransitions]

theorem phase_resume {w : World} (hown : Owns metadata dir w) (h : Phase (metadata.partPath dir) w)
    (hread : w.disk.Reliable .read) (chunkIndex : ℤ) :
    wp (resume chunkIndex) (fun _ w' ↦ Phase (metadata.partPath dir) w') w := by
  unfold resume
  rw [wp_get_bind, wp_raiseIf_bind]
  refine ⟨fun _ ↦ h, fun hnot ↦ ?_⟩
  have hquiet : Quiet w := by
    by_cases hinterrupted : w.self.state = .interrupted
    · simpa [Phase, hinterrupted] using h
    · have hrequested : w.self.state = .resumeRequested := not_not.mp fun hne ↦ hnot ⟨hinterrupted, hne⟩
      simpa [Phase, hrequested] using h
  have hmissing : ∀ w' : World, wp (do setState .failed; throw .fileNotFound : Method Unit)
      (fun _ w' ↦ Phase (metadata.partPath dir) w') w' := fun w' ↦
    wp_bind_of (phase_setState_failed _ w') (fun _ _ ht ↦ ht) fun _ _ ht ↦ ht
  rw [wp_setState_bind]
  cases htemp : w.self.tempPath with
  | none => exact hmissing _
  | some temp =>
    dsimp only
    rw [wp_ite, hown.tempPath temp htemp]
    refine ⟨fun _ ↦ ?_, fun _ ↦ hmissing _⟩
    have hown' : Owns metadata dir { w with self := { w.self with state := .resumeRequested } } :=
      ⟨hown.1, hown.2, hown.3, hown.4⟩
    exact phase_reopenPart hown' hquiet rfl hread chunkIndex

/-! ## Runs -/

theorem Call.phase_run {w : World} (c : Call) (hown : Owns metadata dir w)
    (h : Phase (metadata.partPath dir) w) (hread : w.disk.Reliable .read) :
    wp c.run (fun _ w' ↦ Phase (metadata.partPath dir) w') w := by
  cases c with
  | begin => exact wp_bind_of (phase_begin hown h) (fun _ _ ht ↦ ht) fun _ _ ht ↦ ht
  | receiveChunk frame => exact wp_bind_of (phase_receiveChunk hown h frame) (fun _ _ ht ↦ ht) fun _ _ ht ↦ ht
  | interrupt => exact wp_bind_of (phase_interrupt h) (fun _ _ ht ↦ ht) fun _ _ ht ↦ ht
  | prepareResumeRequest bytes index =>
    exact wp_bind_of (phase_prepareResumeRequest h bytes index) (fun _ _ ht ↦ ht) fun _ _ ht ↦ ht
  | resume i => exact wp_bind_of (phase_resume hown h hread i) (fun _ _ ht ↦ ht) fun _ _ ht ↦ ht
  | cancel =>
    refine wp_bind_of (cancel_spec w) (fun _ _ ht ↦ by simp at ht) fun _ w' hw' ↦ ?_
    simp [Phase, hw'.2]
  | finalise => exact phase_finalise hown h

/-- A call only uses up outcomes. -/
theorem Call.faults_run {w : World} (c : Call) (hown : Owns metadata dir w) (call : Syscall) :
    wp c.run (fun _ w' ↦ w'.disk.faults call <:+ w.disk.faults call) w := by
  by_cases hc : c = .finalise
  · subst hc
    apply wp_mono (finalise_cases hown)
    rintro r w' (⟨hkept, -⟩ | ⟨dest, hrenamed, -⟩)
    · exact hkept.disk.faults call
    · exact (hrenamed.moved.faults call).trans (hrenamed.flushed.disk.faults call)
  · have hframed : Stays (Framed metadata dir) c.run := Call.stays_run hc
    exact (hframed w hown).disk.faults call

/-- What holds in every state of a run on a disk whose reads succeed. -/
structure Intact (metadata : TransferMetadata) (dir : DownloadDir) (w : World) : Prop where
  sound : Sound metadata dir w
  phase : Phase (metadata.partPath dir) w
  read : w.disk.Reliable .read

theorem Intact.step {w w' : World} (h : Intact metadata dir w)
    (hstep : Step (metadata.partPath dir) w w') : Intact metadata dir w' := by
  refine ⟨h.sound.step hstep, ?_, ?_⟩
  · cases hstep with
    | call c => exact c.phase_run h.sound.owns h.phase h.read
    | other _ _ hpart => exact phase_congr h.phase rfl hpart
  · cases hstep with
    | call c => exact h.read.later (c.faults_run h.sound.owns .read)
    | other _ _ _ => exact h.read

theorem Run.intact {disk : Disk} {w : World} (h : Run metadata dir disk w)
    (hread : disk.Reliable .read) : Intact metadata dir w := by
  induction h with
  | refl => exact ⟨Run.sound .refl, ⟨rfl, rfl, rfl⟩, hread⟩
  | tail _ hstep ih => exact ih.step hstep

/-- In every run on a disk whose reads succeed: while chunks flow, the bytes fed to the hasher are
the bytes written to the `.part` file and their number is the counter; and a `finalise` that returns
`True` places a file with the declared digest. -/
theorem integrity (metadata : TransferMetadata) (dir : DownloadDir) (disk : Disk) (w : World)
    (hread : disk.Reliable .read) (hrun : Run metadata dir disk w) :
    (w.self.state = .transferring ∨ w.self.state = .resuming →
      w.self.hasher = writtenBytes w ∧ w.self.bytesReceived = (writtenBytes w).length) ∧
    ∀ w', finalise w = (.ok true, w') → ∃ dest data, renameTarget w = some dest ∧
      w'.disk.nodes dest = some (.file data) ∧
      Sha256.hexdigest data = Text.asciiLower metadata.sha256 := by
  have hintact := hrun.intact hread
  have hown := hintact.sound.owns
  constructor
  · intro hflowing
    have hsynced := synced_of_phase hintact.phase hflowing
    have hwritten : w.self.hasher = writtenBytes w := by
      rw [writtenBytes, hown.metadata_eq, hown.downloadDir_eq]
      exact hsynced.hasher
    exact ⟨hwritten, hwritten ▸ hsynced.count⟩
  · intro w' hfinalise
    have hcases := finalise_cases hown
    unfold wp at hcases
    rw [hfinalise] at hcases
    rcases hcases with ⟨-, hne⟩ | ⟨dest, hrenamed, ⟨-, -, hvalid⟩ | ⟨⟨e, he⟩, -⟩⟩
    · exact absurd rfl hne
    · have hsynced := synced_of_phase hintact.phase (mem_validTransitions_completed hvalid)
      obtain ⟨hsynced', hquiet⟩ := flushTempFh_synced hown hsynced
      obtain ⟨fh, hself⟩ := hrenamed.self_eq
      have hdata : (flushTempFh w).2.disk.content (metadata.partPath dir) = w.self.hasher := by
        have hhasher := hsynced'.hasher
        rw [hquiet hrenamed.flush_ok, List.append_nil, hself] at hhasher
        exact hhasher.symm
      refine ⟨dest, w.self.hasher, hrenamed.target, ?_, hrenamed.digest⟩
      rw [hrenamed.moved.nodes, nodes_move_dst, hsynced'.isFile.nodes, hdata]
    · simp at he

end Integrity

theorem integrity_sample :
    ((sampleReceived "photos/f.txt").self.state = .transferring ∨
        (sampleReceived "photos/f.txt").self.state = .resuming →
      (sampleReceived "photos/f.txt").self.hasher = writtenBytes (sampleReceived "photos/f.txt") ∧
        (sampleReceived "photos/f.txt").self.bytesReceived =
          (writtenBytes (sampleReceived "photos/f.txt")).length) ∧
    ∀ w', finalise (sampleReceived "photos/f.txt") = (.ok true, w') → ∃ dest data,
      renameTarget (sampleReceived "photos/f.txt") = some dest ∧
      w'.disk.nodes dest = some (.file data) ∧
      Sha256.hexdigest data = Text.asciiLower (sampleMetadata "photos/f.txt").sha256 :=
  integrity (sampleMetadata "photos/f.txt") sampleDir rootDisk (sampleReceived "photos/f.txt")
    (by simp [Disk.Reliable, rootDisk]) (run_sampleReceived _)

end IncomingTransfer

end Ferry
