import Ferry.Transfer.Atomicity

/-!
# Declared sizes

`receive_chunk` checks one frame at a time, `resume` takes any chunk index and whatever lies at the
`.part` path, and `finalise` compares digests only: nothing compares what was received with `file_size`
and `chunk_count`.  A run whose calls fit keeps the counters within the declared sizes.
-/

namespace Ferry

namespace IncomingTransfer

open Exec Disk

/-! ## The bounds and the condition -/

/-- The counters are within the declared sizes. -/
structure Bounded (metadata : TransferMetadata) (w : World) : Prop where
  bytes : (w.self.bytesReceived : ℤ) ≤ metadata.fileSize
  chunks : w.self.nextSeq ≤ metadata.chunkCount

/-- A `finalise` that returns `True` places a file of the declared size. -/
def DeliversDeclared (metadata : TransferMetadata) (w : World) : Prop :=
  ∀ w', finalise w = (.ok true, w') → ∃ dest data, renameTarget w = some dest ∧
    w'.disk.nodes dest = some (.file data) ∧ (data.length : ℤ) = metadata.fileSize

/-- The size that `stat` reports, and 0 where there is nothing. -/
def sizeAt (disk : Disk) (p : Path) : ℕ :=
  match disk.nodes p with
  | none => 0
  | some (.file data) => data.length
  | some .directory => 4096

/-- A frame that passes the checks fits into what is left, a transfer that is resumed has a `.part` file
and a chunk index within the declared sizes, and what is finalised is complete.  An ACCEPTED transfer is
interrupted only when nothing larger than the file lies at its `.part` path. -/
def Fits (w : World) : Call → Prop
  | .receiveChunk frame => Expects w frame →
    w.self.bytesReceived + frame.data.length ≤ w.self.metadata.fileSize ∧
      w.self.nextSeq < w.self.metadata.chunkCount
  | .interrupt => w.self.state = .accepted →
    ∀ temp ∈ w.self.tempPath, (sizeAt w.disk temp : ℤ) ≤ w.self.metadata.fileSize
  | .resume chunkIndex => w.self.state = .interrupted ∨ w.self.state = .resumeRequested →
    chunkIndex ≤ w.self.metadata.chunkCount ∧
      ∀ temp ∈ w.self.tempPath, ((w.disk.content temp).length : ℤ) ≤ w.self.metadata.fileSize
  | .finalise => Flowing w →
    Sha256.hexdigest w.self.hasher = Text.asciiLower w.self.metadata.sha256 →
      w.self.bytesReceived = w.self.metadata.fileSize
  | _ => True

/-- A call that fits, or a change of the disk that keeps the `.part` file. -/
inductive FitStep (part : Path) : World → World → Prop
  | call (c : Call) (w : World) (hfits : Fits w c) : FitStep part w (c.run w).2
  | other (w : World) (nodes : Path → Option Node) (hpart : nodes part = w.disk.nodes part) :
    FitStep part w { w with disk := { w.disk with nodes } }

theorem FitStep.step {part : Path} {w w' : World} (h : FitStep part w w') : Step part w w' := by
  cases h with
  | call c w _ => exact .call c w
  | other w nodes hpart => exact .other w nodes hpart

/-- The objects that the service makes: a new one, and one restored from an interrupted record. -/
inductive Made (metadata : TransferMetadata) (dir : DownloadDir) : IncomingTransfer → Prop
  | new : Made metadata dir (new metadata dir)
  | restored : Made metadata dir
      { new metadata dir with tempPath := some (metadata.partPath dir), state := .interrupted }

/-- The runs of calls that fit. -/
def FitRun (metadata : TransferMetadata) (dir : DownloadDir) (w : World) : Prop :=
  ∃ start : World, Made metadata dir start.self ∧
    Relation.ReflTransGen (FitStep (metadata.partPath dir)) start w

/-! ## What each state promises -/

/-- The counter is the number of bytes written. -/
def Counted (part : Path) (w : World) : Prop :=
  ∃ bytes, Written part bytes w ∧ w.self.bytesReceived = bytes.length

/-- What each state promises about the `.part` file and the counter. -/
def Measured (part : Path) (w : World) : Prop :=
  match w.self.state with
  | .idle | .requested => w.self.tempFh = none ∧ w.self.bytesReceived = 0
  | .accepted => w.self.tempFh = none
  | .transferring | .resuming => Counted part w
  | .interrupted | .resumeRequested => Quiet w
  | .cancelling | .completed | .failed | .cancelled => True

section Sizes

variable {metadata : TransferMetadata} {dir : DownloadDir} {part : Path} {w w' : World}

theorem quiet_of_tempFh (h : w.self.tempFh = none) : Quiet w := by
  unfold Quiet buffered
  rw [h]

theorem counted_of_measured (h : Measured part w) (hflowing : Flowing w) : Counted part w := by
  rcases hflowing with hstate | hstate <;> simpa [Measured, hstate] using h

theorem measured_of_counted (h : Counted part w) (hflowing : Flowing w) : Measured part w := by
  rcases hflowing with hstate | hstate <;> simpa [Measured, hstate] using h

theorem measured_of_ended (h : w.self.state = .failed ∨ w.self.state = .cancelled ∨
    w.self.state = .completed) : Measured part w := by
  rcases h with hstate | hstate | hstate <;> simp [Measured, hstate]

theorem Bounded.of_same (h : Bounded metadata w) (hsame : SameField .progress w w') :
    Bounded metadata w' where
  bytes := hsame.2.1 ▸ h.bytes
  chunks := hsame.2.2 ▸ h.chunks

/-- A method that assigns no counter. -/
theorem Bounded.assigns {α : Type} {fields : List Field} {m : Method α} (h : Bounded metadata w)
    (hm : Assigns fields m) (hfields : Field.progress ∉ fields) :
    wp m (fun _ w' ↦ Bounded metadata w') w :=
  wp_mono (hm.wp_same hfields w) fun _ _ hsame ↦ h.of_same hsame

theorem sameProgress_of_onlyTempFh (h : OnlyTempFh w w') : SameField .progress w w' := by
  obtain ⟨fh, hself⟩ := h
  simp [SameField, hself]

/-- Outside the states in which chunks flow, the counter and the open file matter only. -/
theorem measured_of_rest (h : Measured part w) (hrest : ¬Flowing w)
    (hstate : w'.self.state = w.self.state) (hcount : w'.self.bytesReceived = w.self.bytesReceived)
    (hfh : w.self.tempFh = none → w'.self.tempFh = none) (hquiet : Quiet w → Quiet w') :
    Measured part w' := by
  unfold Measured at *
  rw [hstate]
  unfold Flowing at hrest
  cases hcase : w.self.state <;> simp_all

theorem measured_congr (h : Measured part w) (hself : w'.self = w.self)
    (hnodes : w'.disk.nodes part = w.disk.nodes part) : Measured part w' := by
  have hcounted : Counted part w → Counted part w' := by
    rintro ⟨bytes, ⟨⟨data, hdata⟩, hstaged⟩, hcount⟩
    have hcontent : w'.disk.content part = w.disk.content part := by
      unfold Disk.content
      rw [hnodes]
    exact ⟨bytes, ⟨⟨data, hnodes.trans hdata⟩, by rw [hcontent, hself]; exact hstaged⟩, hself ▸ hcount⟩
  by_cases hflowing : Flowing w
  · refine measured_of_counted (hcounted (counted_of_measured h hflowing)) ?_
    rwa [Flowing, hself]
  · refine measured_of_rest h hflowing (by rw [hself]) (by rw [hself]) (by rw [hself]; exact id) ?_
    unfold Quiet
    rw [hself]
    exact id

/-! ## Opening -/

/-- The file is assigned last. -/
theorem openStaging_tempFh (w : World) :
    wp openStaging (fun r w' ↦ ∀ e, r = .error e → w'.self.tempFh = w.self.tempFh) w := by
  have hany : ∀ p (d : Disk), wp (mkdir p) (fun _ _ ↦ True) d := fun _ _ ↦ trivial
  unfold openStaging
  rw [wp_get_bind]
  refine wp_onDisk_bind (hany _ _) (fun _ _ _ _ _ ↦ rfl) fun _ d₁ _ ↦ ?_
  refine wp_onDisk_bind (hany _ _) (fun _ _ _ _ _ ↦ rfl) fun _ d₂ _ ↦ ?_
  rw [wp_update_bind, wp_ofResult_bind]
  refine ⟨fun _ _ _ _ ↦ rfl, fun dest _ ↦ ?_⟩
  rw [wp_update_bind]
  refine wp_onDisk_bind (hany _ _) (fun _ _ _ _ _ ↦ rfl) fun _ d₃ _ ↦ ?_
  refine wp_onDisk_bind (Handle.openTruncate_spec _ _) (fun _ _ _ _ _ ↦ rfl) fun fh d₄ _ ↦ ?_
  apply wp_mono (succeeds_assignTempFh (some fh) _)
  rintro r w' ⟨_, rfl⟩ e he
  exact nomatch he

theorem measured_begin (hown : Owns metadata dir w) (h : Measured (metadata.partPath dir) w) :
    wp begin (fun _ w' ↦ Measured (metadata.partPath dir) w') w := by
  unfold begin
  rw [wp_transition_bind]
  refine ⟨fun hvalid ↦ ?_, fun _ ↦ h⟩
  have hfresh : w.self.tempFh = none ∧ w.self.bytesReceived = 0 := by
    unfold Measured at h
    cases hstate : w.self.state <;> simp_all [TransferState.validTransitions]
  obtain ⟨hfh, hcount⟩ := hfresh
  set w₁ : World := { w with self := { w.self with state := .accepted } } with hw₁
  have hspec := @openStaging_spec metadata dir w₁ ⟨hown.1, hown.2, hown.3, hown.4⟩ (quiet_of_tempFh hfh)
  have hopened : wp (tryCatch openStaging fun e ↦ do
      if e.IsOsError then
        transition .failed
        throw (.transfer .openStaging)
      else throw e) (fun r w' ↦ (∀ e, r = .error e → Measured (metadata.partPath dir) w') ∧
        (r = .ok () → w'.self.state = .accepted ∧ Counted (metadata.partPath dir) w')) w₁ := by
    refine wp_tryCatch_of (wp_and hspec (openStaging_tempFh w₁)) ?_ ?_
    · rintro e w' ⟨⟨hstate, -⟩, hkept⟩
      have hstate' : w'.self.state = .accepted := hstate
      rw [wp_ite, wp_transition_bind, wp_throw, wp_throw]
      refine ⟨fun _ ↦ ⟨fun _ ↦ ⟨fun _ _ ↦ measured_of_ended (.inl rfl), by simp⟩, fun hinvalid ↦ ?_⟩,
        fun _ ↦ ?_⟩
      · exact absurd (by simp [hstate', TransferState.validTransitions]) hinvalid
      · rw [Measured, hstate']
        exact ⟨fun _ _ ↦ (hkept e rfl).trans hfh, by simp⟩
    · rintro _ w' ⟨⟨hstate, -, hcount', hquiet, hok⟩, -⟩
      obtain ⟨hfile, hcontent⟩ := hok rfl
      refine ⟨by simp, fun _ ↦ ⟨hstate, [], ⟨hfile, ?_⟩, hcount'.trans hcount⟩⟩
      rw [hcontent, hquiet]
      rfl
  refine wp_bind_of hopened (fun e t ht ↦ ht.1 e rfl) fun _ t ht ↦ ?_
  obtain ⟨hstate, bytes, hwritten, hcount'⟩ := ht.2 rfl
  rw [wp_transition]
  refine ⟨fun _ ↦ ⟨bytes, ⟨hwritten.isFile, hwritten.staged⟩, hcount'⟩, fun hinvalid ↦ ?_⟩
  exact absurd (by simp [hstate, TransferState.validTransitions]) hinvalid

/-! ## Receiving -/

/-- A frame that fits keeps the counters within the declared sizes, and one that is refused or cannot be
written leaves them. -/
theorem within_receiveChunk (hown : Owns metadata dir w) (h : Measured (metadata.partPath dir) w)
    (hbounded : Bounded metadata w) (frame : ChunkFrame) (hfits : Fits w (.receiveChunk frame)) :
    wp (receiveChunk frame) (fun _ w' ↦
      Measured (metadata.partPath dir) w' ∧ Bounded metadata w') w := by
  unfold receiveChunk
  rw [wp_get_bind, wp_raiseIf_bind]
  refine ⟨fun _ ↦ ⟨h, hbounded⟩, fun hstate ↦ ?_⟩
  rw [wp_raiseIf_bind]
  refine ⟨fun _ ↦ ⟨h, hbounded⟩, fun hid ↦ ?_⟩
  rw [wp_raiseIf_bind]
  refine ⟨fun _ ↦ ⟨h, hbounded⟩, fun hseq ↦ ?_⟩
  rw [wp_raiseIf_bind]
  refine ⟨fun _ ↦ ⟨h, hbounded⟩, fun hlength ↦ ?_⟩
  have hflowing : Flowing w := by
    by_cases ht : w.self.state = .transferring
    · exact .inl ht
    · exact .inr (not_not.mp fun hr ↦ hstate ⟨ht, hr⟩)
  obtain ⟨hbytes, hchunks⟩ := hfits ⟨hflowing, not_not.mp hid, not_not.mp hseq, not_lt.mp hlength⟩
  rw [hown.metadata_eq] at hbytes hchunks
  obtain ⟨bytes, hwritten, hcount⟩ := counted_of_measured h hflowing
  refine wp_bind_of (P := fun r w' ↦
    (∀ e, r = .error e → Measured (metadata.partPath dir) w' ∧ Bounded metadata w') ∧
    (r = .ok () → Written (metadata.partPath dir) (bytes ++ frame.data) w' ∧ OnlyTempFh w w')) ?_
    (fun e _ ht ↦ ht.1 e rfl) fun _ w' hw' ↦ ?_
  · refine wp_tryCatch_of (wp_and (onTempFh_write_written hown hwritten frame.data)
      (onlyTempFh_onTempFh (Handle.write frame.data) w)) (fun e w' hw' ↦ ?_)
      fun _ w' hw' ↦ ⟨by simp, fun _ ↦ ⟨hw'.1.1 rfl, hw'.2⟩⟩
    obtain ⟨⟨-, hsame⟩, honly⟩ := hw'
    rw [wp_ite]
    refine ⟨fun _ ↦ ?_, fun hnot ↦ ?_⟩
    · have hbounded' := hbounded.of_same (sameProgress_of_onlyTempFh honly)
      exact wp_bind_of (wp_and (cleanupOnIoError_spec w')
        (hbounded'.assigns assigns_cleanupOnIoError (by decide))) (fun _ _ ht ↦ by simp at ht)
        fun _ _ ht ↦ ⟨fun _ _ ↦ ⟨measured_of_ended (.inl ht.1.2), ht.2⟩, by simp⟩
    · rw [hsame e rfl hnot, wp_throw]
      exact ⟨fun _ _ ↦ ⟨h, hbounded⟩, by simp⟩
  · obtain ⟨hwritten', fh, hself⟩ := hw'.2 rfl
    rw [wp_update]
    refine ⟨measured_of_counted ⟨_, ⟨hwritten'.isFile, hwritten'.staged⟩, ?_⟩ ?_, ?_, ?_⟩
    · rw [hself, List.length_append, ← hcount]
    · rw [Flowing, hself]
      exact hflowing
    · rw [hself]
      exact_mod_cast hbytes
    · rw [hself]
      exact Int.add_one_le_of_lt hchunks

/-! ## Interrupting -/

/-- Closing a file loses bytes of the buffer at most. -/
theorem onTempFh_close_leaves {bytes : Bytes} (hown : Owns metadata dir w)
    (hwritten : Written (metadata.partPath dir) bytes w) :
    wp (onTempFh Handle.close) (fun _ w' ↦
      ∃ bytes', bytes' <+: bytes ∧ Written (metadata.partPath dir) bytes' w') w := by
  cases hfh : w.self.tempFh with
  | none =>
    rw [wp_onTempFh_none hfh]
    exact ⟨bytes, List.prefix_rfl, hwritten⟩
  | some fh =>
    have hpath := hown.tempFh fh hfh
    have hbuffered : w.self.buffered = fh.buffer := by simp [buffered, hfh]
    rw [wp_onTempFh_some hfh]
    apply wp_mono (Handle.close_staged (w.disk, fh) (hpath ▸ hwritten.isFile))
    rintro r ⟨d, fh'⟩ ⟨hfile, hpath', hprefix⟩
    have hpath'' : fh'.path = metadata.partPath dir := hpath'.trans hpath
    refine ⟨d.content (metadata.partPath dir) ++ fh'.buffer, ?_, hpath ▸ hfile, rfl⟩
    rw [← hwritten.staged, hbuffered]
    simpa only [Handle.staged, hpath, hpath''] using hprefix

/-- What is left in the file once it is closed is a prefix of what was written. -/
theorem releaseTempFh_leaves {bytes : Bytes} (hown : Owns metadata dir w)
    (hwritten : Written (metadata.partPath dir) bytes w) :
    wp releaseTempFh (fun _ w' ↦ w'.disk.IsFile (metadata.partPath dir) ∧
      w'.disk.content (metadata.partPath dir) <+: bytes) w := by
  have hkept : Stays (Framed metadata dir) (onTempFh Handle.flush) := stays_onTempFh Handle.stays_flush
  have hkept' : Stays (Framed metadata dir) (onTempFh Handle.close) := stays_onTempFh Handle.stays_close
  unfold releaseTempFh
  rw [wp_get_bind, wp_ite]
  refine ⟨fun _ ↦ ?_, fun _ ↦ ⟨hwritten.isFile, ?_⟩⟩
  case refine_2 =>
    rw [← hwritten.staged]
    exact List.prefix_append _ _
  have hclosed : wp (do onTempFh Handle.flush; onTempFh Handle.close) (fun _ w' ↦ Owns metadata dir w' ∧
      ∃ bytes', bytes' <+: bytes ∧ Written (metadata.partPath dir) bytes' w') w := by
    refine wp_bind_of (wp_and (onTempFh_flush_written hown hwritten) (hkept w)) (fun e t ht ↦ ?_)
      fun _ t ht ↦ ?_
    · exact ⟨(ht.2 hown).owns, bytes, List.prefix_rfl, ht.1.1⟩
    · have hown' := (ht.2 hown).owns
      apply wp_mono (wp_and (onTempFh_close_leaves hown' ht.1.1) (hkept' t))
      exact fun _ _ ⟨hstart, hkept⟩ ↦ ⟨(hkept hown').owns, hstart⟩
  refine wp_bind_of (wp_tryCatch_of (Q := fun r w' ↦ r = .ok () ∧ Owns metadata dir w' ∧
    ∃ bytes', bytes' <+: bytes ∧ Written (metadata.partPath dir) bytes' w') hclosed
    (fun _ _ ht ↦ ⟨rfl, ht⟩) fun _ _ ht ↦ ⟨rfl, ht⟩) (fun _ _ ht ↦ by simp at ht) ?_
  rintro _ w₁ ⟨-, hown₁, bytes', hprefix, hwritten₁⟩
  unfold assignTempFh
  rw [wp_get_bind, wp_update_bind]
  cases hfh : w₁.self.tempFh with
  | none =>
    refine ⟨hwritten₁.isFile, .trans ?_ hprefix⟩
    rw [← hwritten₁.staged]
    exact List.prefix_append _ _
  | some fh =>
    have hpath := hown₁.tempFh fh hfh
    obtain ⟨hfile, hdropped⟩ := Handle.drop_staged fh w₁.disk (hpath ▸ hwritten₁.isFile)
    rw [hpath] at hfile hdropped
    refine ⟨hfile, hdropped.trans ?_⟩
    have hstaged : Handle.staged (w₁.disk, fh) = bytes' := by
      rw [← hwritten₁.staged, Handle.staged, hpath]
      simp [buffered, hfh]
    rw [hstaged]
    exact hprefix

theorem onlyTempFh_releaseTempFh : Stays OnlyTempFh releaseTempFh := by
  refine stays_get_bind fun w ↦ stays_ite _ (stays_bind ?_ fun _ ↦ onlyTempFh_assignTempFh _)
    (stays_pure _) w
  exact stays_tryCatch (stays_bind (onlyTempFh_onTempFh _) fun _ ↦ onlyTempFh_onTempFh _) fun _ ↦
    stays_pure _

theorem stat_sizeAt (p : Path) (d : Disk) : wp (stat p) (fun r _ ↦ ∀ n, r = .ok n → n = sizeAt d p) d := by
  unfold stat
  rw [wp_perform_bind, wp_get_bind, wp_raiseIf_bind, nodes_advance]
  refine ⟨fun _ n hn ↦ (nomatch hn), fun _ ↦ ?_⟩
  unfold sizeAt
  cases d.nodes p with
  | none => exact fun n hn ↦ nomatch hn
  | some node => cases node <;> exact fun n hn ↦ (Except.ok.inj hn).symm

/-- The measured size is that of what lies at the `.part` path, or 0. -/
theorem bytesOnDisk_le (w : World) :
    wp bytesOnDisk (fun r w' ↦ w'.self = w.self ∧
      ∃ n, r = .ok n ∧ (n = 0 ∨ ∃ temp ∈ w.self.tempPath, n = sizeAt w.disk temp)) w := by
  unfold bytesOnDisk
  rw [wp_get_bind]
  cases htemp : w.self.tempPath with
  | none => exact ⟨rfl, 0, rfl, .inl rfl⟩
  | some temp =>
    dsimp only
    rw [wp_ite]
    refine ⟨fun _ ↦ ?_, fun _ ↦ ⟨rfl, 0, rfl, .inl rfl⟩⟩
    have hstat : wp (onDisk (stat temp)) (fun r w' ↦ w'.self = w.self ∧
        (∀ e, r = .error e → e.IsOsError) ∧ ∀ n, r = .ok n → n = sizeAt w.disk temp) w := by
      rw [wp_onDisk]
      apply wp_mono (wp_and (stat_spec temp w.disk) (stat_sizeAt temp w.disk))
      rintro r d ⟨⟨-, herror, -⟩, hsize⟩
      cases r with
      | error e' => exact ⟨rfl, fun e he ↦ Except.error.inj he ▸ isOsError_ofIo (herror e' rfl), nofun⟩
      | ok n => exact ⟨rfl, nofun, fun m hm ↦ hsize m (by rw [← Except.ok.inj hm])⟩
    refine wp_tryCatch_of hstat (fun e t ht ↦ ?_) fun n t ht ↦ ?_
    · rw [if_pos (ht.2.1 e rfl)]
      exact ⟨ht.1, 0, rfl, .inl rfl⟩
    · exact ⟨ht.1, n, rfl, .inr ⟨temp, rfl, ht.2.2 n rfl⟩⟩

/-- Truncating to the chunk boundary lowers the counter. -/
theorem bounded_truncateToChunk {actual : ℕ} (h : Bounded metadata w)
    (hactual : (actual : ℤ) ≤ metadata.fileSize) :
    wp (truncateToChunk actual) (fun _ w' ↦ Bounded metadata w') w := by
  unfold truncateToChunk
  rw [wp_get_bind]
  cases w.self.tempPath with
  | none => exact h
  | some temp =>
    dsimp only
    rw [wp_ite]
    refine ⟨fun hlt ↦ ?_, fun _ ↦ h⟩
    have hcut : wp (do
        raiseIf (w.self.nextSeq * w.self.metadata.chunkSize < 0) .osError
        onDisk (truncate temp (w.self.nextSeq * w.self.metadata.chunkSize).toNat)
        update fun self ↦ { self with
          bytesReceived := (w.self.nextSeq * w.self.metadata.chunkSize).toNat } : Method Unit)
        (fun _ w' ↦ Bounded metadata w') w := by
      rw [wp_raiseIf_bind]
      refine ⟨fun _ ↦ h, fun hnonneg ↦ ?_⟩
      refine wp_onDisk_bind (P := fun _ _ ↦ True) trivial (fun _ _ _ ↦ ⟨h.bytes, h.chunks⟩) fun _ d _ ↦ ?_
      rw [wp_update]
      refine ⟨?_, h.chunks⟩
      calc (((w.self.nextSeq * w.self.metadata.chunkSize).toNat : ℕ) : ℤ)
          = w.self.nextSeq * w.self.metadata.chunkSize := Int.toNat_of_nonneg (not_lt.mp hnonneg)
        _ ≤ actual := hlt.le
        _ ≤ metadata.fileSize := hactual
    exact wp_tryCatch_of hcut (fun e t ht ↦
      (by rw [wp_ite, wp_pure, wp_throw]; exact ⟨fun _ ↦ ht, fun _ ↦ ht⟩))
      fun _ _ ht ↦ ht

theorem sizeAt_of_isFile {d : Disk} {p : Path} (h : d.IsFile p) : sizeAt d p = (d.content p).length := by
  rw [sizeAt, h.nodes]

/-- A whole number of chunks that fits into the file is at most the declared number. -/
theorem div_le_expectedChunks {size chunk : ℤ} {n : ℕ} (hchunk : 0 < chunk) (hn : (n : ℤ) ≤ size) :
    (n : ℤ) / chunk ≤ TransferMetadata.expectedChunks size chunk := by
  unfold TransferMetadata.expectedChunks
  split
  · exact Int.ediv_le_ediv hchunk (by omega)
  · next hempty =>
    have hzero : (n : ℤ) = 0 := by omega
    rw [hzero, Int.zero_ediv]

/-- No file is open after an interrupt has closed it, and the `.part` file is not too large. -/
theorem releaseTempFh_fits (hown : Owns metadata dir w) (h : Measured (metadata.partPath dir) w)
    (hbounded : Bounded metadata w) (hfits : Fits w .interrupt)
    (hstate : w.self.state = .transferring ∨ w.self.state = .accepted) :
    wp releaseTempFh (fun r w' ↦ r = .ok () ∧ w'.self.tempFh = none ∧ OnlyTempFh w w' ∧
      ∀ temp ∈ w'.self.tempPath, (sizeAt w'.disk temp : ℤ) ≤ metadata.fileSize) w := by
  rcases hstate with hstate | hstate
  · obtain ⟨bytes, hwritten, hcount⟩ := counted_of_measured h (.inl hstate)
    apply wp_mono (wp_and (wp_and (releaseTempFh_spec w) (onlyTempFh_releaseTempFh w))
      (releaseTempFh_leaves hown hwritten))
    rintro r w' ⟨⟨⟨hr, hfh, -⟩, honly⟩, hfile, hprefix⟩
    refine ⟨hr, hfh, honly, fun temp htemp ↦ ?_⟩
    obtain ⟨fh, hself⟩ := honly
    have hpath : temp = metadata.partPath dir := hown.tempPath temp (by rw [hself] at htemp; exact htemp)
    calc (sizeAt w'.disk temp : ℤ)
        = ((w'.disk.content (metadata.partPath dir)).length : ℤ) := by rw [hpath, sizeAt_of_isFile hfile]
      _ ≤ w.self.bytesReceived := by rw [hcount]; exact_mod_cast hprefix.length_le
      _ ≤ metadata.fileSize := hbounded.bytes
  · have hfh : w.self.tempFh = none := by simpa [Measured, hstate] using h
    unfold releaseTempFh
    rw [wp_get_bind, if_neg (by simp [hfh]), wp_pure]
    refine ⟨rfl, hfh, refl_of OnlyTempFh w, fun temp htemp ↦ ?_⟩
    rw [← hown.metadata_eq]
    exact hfits hstate temp htemp

theorem within_interrupt {payload : Payload} (hdeclared : Accepted payload metadata)
    (hown : Owns metadata dir w) (h : Measured (metadata.partPath dir) w) (hbounded : Bounded metadata w)
    (hfits : Fits w .interrupt) :
    wp interrupt (fun _ w' ↦ Measured (metadata.partPath dir) w' ∧ Bounded metadata w') w := by
  have hfailed : ∀ w' : World, Bounded metadata w' → wp (setState .failed)
      (fun _ w' ↦ Measured (metadata.partPath dir) w' ∧ Bounded metadata w') w' := fun w' hw' ↦
    ⟨measured_of_ended (.inl rfl), hw'.bytes, hw'.chunks⟩
  unfold interrupt
  rw [wp_get_bind, wp_ite]
  refine ⟨fun _ ↦ ⟨h, hbounded⟩, fun _ ↦ ?_⟩
  rw [wp_ite]
  refine ⟨fun _ ↦ hfailed w hbounded, fun hstate ↦ ?_⟩
  rw [wp_ite]
  refine ⟨fun _ ↦ hfailed w hbounded, fun _ ↦ ?_⟩
  replace hstate : w.self.state = .transferring ∨ w.self.state = .accepted := by
    by_cases ht : w.self.state = .transferring
    · exact .inl ht
    · exact .inr (not_not.mp fun ha ↦ hstate ⟨ht, ha⟩)
  unfold preservePart
  refine wp_bind_of (releaseTempFh_fits hown h hbounded hfits hstate) (fun _ _ ht ↦ by simp at ht) ?_
  rintro _ w₁ ⟨-, hfh, honly, hsize⟩
  have hbounded₁ := hbounded.of_same (sameProgress_of_onlyTempFh honly)
  obtain ⟨fh, hself₁⟩ := honly
  refine wp_bind_of (bytesOnDisk_le w₁) (fun _ _ ht ↦ by simp at ht) ?_
  rintro actual w₂ ⟨hself₂, n, hn, hmeasured⟩
  obtain rfl := Except.ok.inj hn
  have hactual : (actual : ℤ) ≤ metadata.fileSize := by
    rcases hmeasured with rfl | ⟨temp, htemp, rfl⟩
    · exact hdeclared.fileSize.1
    · exact hsize temp htemp
  rw [wp_get_bind, wp_ite]
  refine ⟨fun _ ↦ hfailed w₂ ⟨hself₂ ▸ hbounded₁.bytes, hself₂ ▸ hbounded₁.chunks⟩, fun _ ↦ ?_⟩
  have hmetadata : w₂.self.metadata = metadata := by
    rw [hself₂, hself₁]
    exact hown.metadata_eq
  have hnext : (if 0 < w₂.self.metadata.chunkSize then (actual : ℤ) / w₂.self.metadata.chunkSize
      else w₂.self.nextSeq) = actual / metadata.chunkSize := by
    rw [hmetadata, if_pos hdeclared.chunkSize.1]
  rw [wp_update_bind, hnext]
  set w₃ : World := { w₂ with self := { w₂.self with
    bytesReceived := actual
    nextSeq := actual / metadata.chunkSize } } with hw₃
  have hbounded₃ : Bounded metadata w₃ :=
    ⟨hactual, hdeclared.chunkCount ▸ div_le_expectedChunks hdeclared.chunkSize.1 hactual⟩
  refine wp_bind_of (wp_and (succeeds_truncateToChunk actual w₃)
    (wp_and (bounded_truncateToChunk hbounded₃ hactual) (onlyCounters_truncateToChunk actual w₃)))
    (fun _ _ ht ↦ by simp at ht) ?_
  rintro _ w₄ ⟨-, hbounded₄, count, seq, hself₄⟩
  have hfh₄ : w₄.self.tempFh = none := by
    rw [hself₄, hw₃]
    exact (congrArg IncomingTransfer.tempFh hself₂).trans hfh
  have hstate₄ : w₄.self.state = w.self.state := by
    have hstate₁ : w₁.self.state = w.self.state := by rw [hself₁]
    rw [hself₄, hw₃]
    exact (congrArg IncomingTransfer.state hself₂).trans hstate₁
  rw [wp_transition]
  refine ⟨fun _ ↦ ⟨quiet_of_tempFh hfh₄, hbounded₄.bytes, hbounded₄.chunks⟩, fun hinvalid ↦ ⟨?_, hbounded₄⟩⟩
  rcases hstate with hstate | hstate
  · simp [hstate₄, hstate, TransferState.validTransitions] at hinvalid
  · rw [Measured, hstate₄, hstate]
    exact hfh₄

/-! ## Resuming -/

/-- The checks let no partial file pass that is longer than the file. -/
theorem checkPartial_le (metadata : TransferMetadata) (diskSize : ℕ)
    (expectedBytes expectedChunkIndex : Option ℤ) (w : World) :
    wp (checkPartial metadata diskSize expectedBytes expectedChunkIndex) (fun r w' ↦ w' = w ∧
      (r = .ok () → (diskSize : ℤ) ≤ metadata.fileSize)) w := by
  unfold checkPartial
  iterate 2
    rw [wp_raiseIf_bind]
    refine ⟨fun _ ↦ ⟨rfl, by simp⟩, fun _ ↦ ?_⟩
  rw [wp_raiseIf_bind]
  refine ⟨fun _ ↦ ⟨rfl, by simp⟩, fun hle ↦ ?_⟩
  iterate 3
    rw [wp_raiseIf_bind]
    refine ⟨fun _ ↦ ⟨rfl, by simp⟩, fun _ ↦ ?_⟩
  rw [wp_raiseIf]
  exact ⟨fun _ ↦ ⟨rfl, by simp⟩, fun _ ↦ ⟨rfl, fun _ ↦ not_lt.mp hle⟩⟩

theorem bounded_prepareResumeRequest {payload : Payload} (hdeclared : Accepted payload metadata)
    (hown : Owns metadata dir w) (h : Bounded metadata w) (expectedBytes expectedChunkIndex : Option ℤ) :
    wp (prepareResumeRequest expectedBytes expectedChunkIndex)
      (fun _ w' ↦ Bounded metadata w') w := by
  have hkept : ∀ d : Disk, Bounded metadata { w with disk := d } := fun _ ↦ ⟨h.bytes, h.chunks⟩
  unfold prepareResumeRequest
  rw [wp_get_bind, wp_raiseIf_bind]
  refine ⟨fun _ ↦ h, fun _ ↦ ?_⟩
  cases w.self.tempPath with
  | none => exact h
  | some temp =>
    dsimp only
    rw [wp_raiseIf_bind]
    refine ⟨fun _ ↦ h, fun _ ↦ ?_⟩
    refine wp_onDisk_bind (P := fun _ _ ↦ True) trivial (fun _ d _ ↦ hkept d) fun size d _ ↦ ?_
    refine wp_bind_of (checkPartial_le _ size _ _ _) (fun _ _ ht ↦ ht.1 ▸ hkept d) ?_
    rintro _ _ ⟨rfl, hle⟩
    have hsize : (size : ℤ) ≤ metadata.fileSize := hown.metadata_eq ▸ hle rfl
    refine wp_bind_of (P := fun _ w' ↦ Bounded metadata w') ?_ (fun _ _ ht ↦ ht) fun data t _ ↦ ?_
    · exact (hkept d).assigns (assigns_readPart temp) (by decide)
    · rw [wp_update_bind, hown.metadata_eq]
      exact ⟨hsize, hdeclared.chunkCount ▸ div_le_expectedChunks hdeclared.chunkSize.1 hsize⟩

theorem measured_prepareResumeRequest (h : Measured part w) (expectedBytes expectedChunkIndex : Option ℤ) :
    wp (prepareResumeRequest expectedBytes expectedChunkIndex)
      (fun _ w' ↦ Measured part w') w := by
  by_cases hstate : w.self.state = .interrupted
  · have hquiet : Quiet w := by simpa [Measured, hstate] using h
    apply wp_mono (onlyCounters_prepareResumeRequest expectedBytes expectedChunkIndex w)
    rintro r w' ⟨count, seq, hself⟩
    unfold Measured Quiet
    rw [hself, hstate]
    exact hquiet
  · unfold prepareResumeRequest
    rw [wp_get_bind, wp_raiseIf_bind]
    exact ⟨fun _ ↦ h, fun hnot ↦ absurd hstate hnot⟩

/-- What `resume` promises while it runs: the transfer failed, or nothing is buffered and it is still
RESUME_REQUESTED. -/
theorem within_reopenPart (hown : Owns metadata dir w) (hquiet : Quiet w)
    (hbounded : Bounded metadata w) (hstate : w.self.state = .resumeRequested) {chunkIndex : ℤ}
    (hindex : chunkIndex ≤ metadata.chunkCount)
    (hsize : ((w.disk.content (metadata.partPath dir)).length : ℤ) ≤ metadata.fileSize) :
    wp (reopenPart chunkIndex (metadata.partPath dir)) (fun _ w' ↦
      Measured (metadata.partPath dir) w' ∧ Bounded metadata w') w := by
  have hwaiting : ∀ w' : World, w'.self.state = .resumeRequested → Quiet w' →
      Measured (metadata.partPath dir) w' := by
    intro w' hstate' hquiet'
    unfold Measured
    rw [hstate']
    exact hquiet'
  have hopened : wp (do
      let fh ← onDisk (Handle.openAppend (metadata.partPath dir))
      assignTempFh (some fh)) (fun r w' ↦ w'.self.state = .resumeRequested ∧ Quiet w' ∧
        Bounded metadata w' ∧ (r = .ok () → w'.disk.IsFile (metadata.partPath dir) ∧
          w'.disk.content (metadata.partPath dir) = w.disk.content (metadata.partPath dir))) w := by
    refine wp_onDisk_bind (Handle.openAppend_spec _ w.disk)
      (fun _ _ _ ↦ ⟨hstate, hquiet, ⟨hbounded.bytes, hbounded.chunks⟩, by simp⟩) fun fh d hd ↦ ?_
    obtain ⟨rfl, hfile, hcontent⟩ := hd.1 fh rfl
    apply wp_mono (assignTempFh_spec (w := { w with disk := d }) (metadata.partPath dir)
      hown.tempFh hquiet hfile _)
    rintro r w' ⟨-, hself, hfile', hcontent'⟩
    refine ⟨by rw [hself]; exact hstate, by unfold Quiet; rw [hself]; rfl, ?_, fun _ ↦
      ⟨hfile', hcontent'.trans hcontent⟩⟩
    exact ⟨hself ▸ hbounded.bytes, hself ▸ hbounded.chunks⟩
  unfold reopenPart
  refine wp_bind_of (P := fun r w' ↦
    (∀ e, r = .error e → Measured (metadata.partPath dir) w' ∧ Bounded metadata w') ∧
    (r = .ok () → w'.self.state = .resumeRequested ∧ Quiet w' ∧ Bounded metadata w' ∧
      w'.disk.IsFile (metadata.partPath dir) ∧
      w'.disk.content (metadata.partPath dir) = w.disk.content (metadata.partPath dir))) ?_
    (fun e _ ht ↦ ht.1 e rfl) fun _ w₁ hw₁ ↦ ?_
  · refine wp_tryCatch_of hopened (fun e w' hw' ↦ ?_) fun _ w' hw' ↦
      ⟨by simp, fun _ ↦ ⟨hw'.1, hw'.2.1, hw'.2.2.1, hw'.2.2.2 rfl⟩⟩
    obtain ⟨hstate', hquiet', hbounded', -⟩ := hw'
    rw [wp_ite, wp_setState_bind, wp_throw, wp_throw]
    exact ⟨fun _ ↦ ⟨fun _ _ ↦ ⟨measured_of_ended (.inl rfl), hbounded'.bytes, hbounded'.chunks⟩, by simp⟩,
      fun _ ↦ ⟨fun _ _ ↦ ⟨hwaiting w' hstate' hquiet', hbounded'⟩, by simp⟩⟩
  · obtain ⟨hstate₁, hquiet₁, hbounded₁, hfile₁, hcontent₁⟩ := hw₁.2 rfl
    have hkept : ∀ (d : Disk) (hasher : Bytes), Measured (metadata.partPath dir)
        { w₁ with disk := d, self := { w₁.self with hasher := hasher } } ∧ Bounded metadata
          { w₁ with disk := d, self := { w₁.self with hasher := hasher } } := fun _ _ ↦
      ⟨hwaiting _ hstate₁ hquiet₁, hbounded₁.bytes, hbounded₁.chunks⟩
    refine wp_onDisk_bind (readBlocks_spec _ w₁.disk) (fun _ d _ ↦ hkept d w₁.self.hasher)
      fun result d₂ hd₂ ↦ ?_
    rw [wp_update_bind]
    refine wp_onDisk_bind (stat_spec _ d₂) (fun _ d _ ↦ hkept d result.1) fun size d₃ hd₃ ↦ ?_
    obtain ⟨hnodes₃, -, hstat⟩ := hd₃
    have hnodes : d₃.nodes = w₁.disk.nodes := hnodes₃.trans hd₂.1
    have hfile₂ : d₂.IsFile (metadata.partPath dir) := by
      unfold Disk.IsFile
      rw [hd₂.1]
      exact hfile₁
    have hlength : size = (w₁.disk.content (metadata.partPath dir)).length := by
      rw [(hstat hfile₂).1 size rfl]
      unfold Disk.content
      rw [hd₂.1]
    rw [wp_update_bind, wp_transition]
    refine ⟨fun _ ↦ ⟨?_, ?_, hindex⟩, fun hinvalid ↦ absurd ?_ hinvalid⟩
    · refine ⟨w₁.disk.content (metadata.partPath dir), ⟨?_, ?_⟩, hlength⟩
      · unfold Disk.IsFile
        rw [hnodes]
        exact hfile₁
      · change d₃.content _ ++ w₁.self.buffered = _
        rw [hquiet₁, List.append_nil]
        unfold Disk.content
        rw [hnodes]
    · change (size : ℤ) ≤ _
      rw [hlength, hcontent₁]
      exact hsize
    · simp [hstate₁, TransferState.validTransitions]

theorem within_resume (hown : Owns metadata dir w) (h : Measured (metadata.partPath dir) w)
    (hbounded : Bounded metadata w) {chunkIndex : ℤ} (hfits : Fits w (.resume chunkIndex)) :
    wp (resume chunkIndex) (fun _ w' ↦
      Measured (metadata.partPath dir) w' ∧ Bounded metadata w') w := by
  unfold resume
  rw [wp_get_bind, wp_raiseIf_bind]
  refine ⟨fun _ ↦ ⟨h, hbounded⟩, fun hnot ↦ ?_⟩
  have hstate : w.self.state = .interrupted ∨ w.self.state = .resumeRequested := by
    by_cases hinterrupted : w.self.state = .interrupted
    · exact .inl hinterrupted
    · exact .inr (not_not.mp fun hne ↦ hnot ⟨hinterrupted, hne⟩)
  have hquiet : Quiet w := by rcases hstate with hstate | hstate <;> simpa [Measured, hstate] using h
  obtain ⟨hindex, hsize⟩ := hfits hstate
  rw [hown.metadata_eq] at hindex hsize
  have hmissing : ∀ w' : World, Bounded metadata w' →
      wp (do setState .failed; throw .fileNotFound : Method Unit)
        (fun _ w' ↦ Measured (metadata.partPath dir) w' ∧ Bounded metadata w') w' := by
    intro w' hw'
    rw [wp_setState_bind, wp_throw]
    exact ⟨measured_of_ended (.inl rfl), hw'.bytes, hw'.chunks⟩
  rw [wp_setState_bind]
  cases htemp : w.self.tempPath with
  | none => exact hmissing _ ⟨hbounded.bytes, hbounded.chunks⟩
  | some temp =>
    have hpath := hown.tempPath temp htemp
    dsimp only
    rw [wp_ite, hpath]
    refine ⟨fun _ ↦ ?_, fun _ ↦ hmissing _ ⟨hbounded.bytes, hbounded.chunks⟩⟩
    have hown' : Owns metadata dir { w with self := { w.self with state := .resumeRequested } } :=
      ⟨hown.1, hown.2, hown.3, hown.4⟩
    exact within_reopenPart hown' hquiet ⟨hbounded.bytes, hbounded.chunks⟩ rfl hindex
      (hpath ▸ hsize temp htemp)

/-! ## Finishing -/

theorem measured_finalise (hown : Owns metadata dir w) (h : Measured (metadata.partPath dir) w) :
    wp finalise (fun _ w' ↦ Measured (metadata.partPath dir) w') w := by
  have hkept : Kept metadata dir w (flushTempFh w).2 := stays_flushTempFh w hown
  obtain ⟨fh, hself⟩ := onlyTempFh_flushTempFh w
  have hstate : (flushTempFh w).2.self.state = w.self.state := by rw [hself]
  have hcount : (flushTempFh w).2.self.bytesReceived = w.self.bytesReceived := by rw [hself]
  have hflushed : Measured (metadata.partPath dir) (flushTempFh w).2 := by
    by_cases hflowing : Flowing w
    · obtain ⟨bytes, hwritten, hlength⟩ := counted_of_measured h hflowing
      refine measured_of_counted ⟨bytes, (flushTempFh_written hown hwritten).1, hcount.trans hlength⟩ ?_
      rwa [Flowing, hstate]
    · refine measured_of_rest h hflowing hstate hcount (fun hfh ↦ ?_) fun hquiet ↦ flushTempFh_quiet hquiet
      have hsame : (flushTempFh w).2 = w := by
        unfold flushTempFh
        rw [get_bind_run, if_neg (by simp [hfh])]
        rfl
      rw [hsame]
      exact hfh
  unfold finalise
  rw [wp_bind_iff]
  refine ⟨fun _ _ ↦ hflushed, fun _ _ ↦ ?_⟩
  rw [wp_get_bind, wp_ite]
  refine ⟨fun _ ↦ ?_, fun _ ↦ ?_⟩
  · refine wp_bind_of (wp_and (succeeds_cleanupTemp _) (cleanupTemp_self _))
      (fun _ _ ht ↦ by simp at ht) fun _ w₂ hw₂ ↦ ?_
    obtain ⟨-, hself₂⟩ := hw₂
    rw [wp_transition_bind, wp_pure]
    refine ⟨fun _ ↦ measured_of_ended (.inl rfl), fun hinvalid ↦ ?_⟩
    have hrest := flowing_of_failed hinvalid
    rw [hself₂] at hrest
    refine measured_of_rest hflushed (not_or.mpr hrest) (by rw [hself₂]) (by rw [hself₂])
      (by rw [hself₂]; exact id) ?_
    unfold Quiet
    rw [hself₂]
    exact id
  · apply wp_mono (deliver_cases hkept.owns)
    rintro r w' (⟨-, hself', hnodes, -⟩ | ⟨final, -, -, ⟨-, hself', -⟩ | ⟨-, hself', hinvalid⟩⟩)
    · exact measured_congr hflushed hself' (congrFun hnodes _)
    · exact measured_of_ended (.inr (.inr (by rw [hself'])))
    · refine measured_of_rest hflushed (not_or.mpr (flowing_of_completed hinvalid)) (by rw [hself'])
        (by rw [hself']) (by rw [hself']; exact id) ?_
      unfold Quiet
      rw [hself']
      exact id

/-- A `finalise` that fits delivers a file of the declared size. -/
theorem deliversDeclared (hown : Owns metadata dir w) (h : Measured (metadata.partPath dir) w)
    (hfits : Fits w .finalise) : DeliversDeclared metadata w := by
  intro w' hfinalise
  have hcases := finalise_cases hown
  unfold wp at hcases
  rw [hfinalise] at hcases
  rcases hcases with ⟨-, hne⟩ | ⟨dest, hrenamed, ⟨-, -, hvalid⟩ | ⟨⟨e, he⟩, -⟩⟩
  · exact absurd rfl hne
  · have hflowing : Flowing w := mem_validTransitions_completed hvalid
    obtain ⟨bytes, hwritten, hcount⟩ := counted_of_measured h hflowing
    obtain ⟨hwritten', hquiet⟩ := flushTempFh_written hown hwritten
    refine ⟨dest, bytes, hrenamed.target, ?_, ?_⟩
    · rw [hrenamed.moved.nodes, nodes_move_dst, hwritten'.isFile.nodes,
        hwritten'.content (hquiet hrenamed.flush_ok)]
    · have hcomplete := hfits hflowing (by rw [hown.metadata_eq]; exact hrenamed.digest)
      rw [hown.metadata_eq] at hcomplete
      rw [← hcount, hcomplete]
  · simp at he

/-! ## Runs -/

/-- What holds in every state of a run of calls that fit. -/
structure Within (metadata : TransferMetadata) (dir : DownloadDir) (w : World) : Prop where
  sound : Sound metadata dir w
  measured : Measured (metadata.partPath dir) w
  bounded : Bounded metadata w

theorem Call.within_run {payload : Payload} (hdeclared : Accepted payload metadata)
    (h : Within metadata dir w) (c : Call) (hfits : Fits w c) :
    wp c.run (fun _ w' ↦ Measured (metadata.partPath dir) w' ∧ Bounded metadata w') w := by
  obtain ⟨⟨hown, -⟩, hmeasured, hbounded⟩ := h
  cases c with
  | begin =>
    exact wp_bind_of (wp_and (measured_begin hown hmeasured) (hbounded.assigns assigns_begin (by decide)))
      (fun _ _ ht ↦ ht) fun _ _ ht ↦ ht
  | receiveChunk frame =>
    exact wp_bind_of (within_receiveChunk hown hmeasured hbounded frame hfits) (fun _ _ ht ↦ ht)
      fun _ _ ht ↦ ht
  | interrupt =>
    exact wp_bind_of (within_interrupt hdeclared hown hmeasured hbounded hfits) (fun _ _ ht ↦ ht)
      fun _ _ ht ↦ ht
  | prepareResumeRequest bytes index =>
    exact wp_bind_of (wp_and (measured_prepareResumeRequest hmeasured bytes index)
      (bounded_prepareResumeRequest hdeclared hown hbounded bytes index)) (fun _ _ ht ↦ ht)
      fun _ _ ht ↦ ht
  | resume i =>
    exact wp_bind_of (within_resume hown hmeasured hbounded hfits) (fun _ _ ht ↦ ht) fun _ _ ht ↦ ht
  | cancel =>
    refine wp_bind_of (wp_and (cancel_spec w) (hbounded.assigns assigns_cancel (by decide)))
      (fun _ _ ht ↦ by simp at ht) fun _ _ ht ↦ ?_
    exact ⟨measured_of_ended (.inr (.inl ht.1.2)), ht.2⟩
  | finalise =>
    exact wp_and (measured_finalise hown hmeasured) (hbounded.assigns assigns_finalise (by decide))

theorem Within.step {payload : Payload} (hdeclared : Accepted payload metadata)
    (h : Within metadata dir w) (hstep : FitStep (metadata.partPath dir) w w') :
    Within metadata dir w' := by
  have hsound := h.sound.step hstep.step
  cases hstep with
  | call c _ hfits =>
    obtain ⟨hmeasured, hbounded⟩ := c.within_run hdeclared h hfits
    exact ⟨hsound, hmeasured, hbounded⟩
  | other nodes _ hpart =>
    exact ⟨hsound, measured_congr h.measured rfl hpart, h.bounded.bytes, h.bounded.chunks⟩

theorem Made.within {payload : Payload} (hdeclared : Accepted payload metadata)
    (h : Made metadata dir w.self) : Within metadata dir w := by
  have hcount : 0 ≤ metadata.chunkCount := by
    have hdiv := div_le_expectedChunks (n := 0) hdeclared.chunkSize.1 hdeclared.fileSize.1
    rw [hdeclared.chunkCount]
    simpa using hdiv
  obtain ⟨disk, self⟩ := w
  cases h with
  | new =>
    exact ⟨⟨⟨rfl, rfl, fun _ h ↦ (nomatch h), fun _ h ↦ nomatch h⟩, fun _ h ↦ nomatch h⟩, ⟨rfl, rfl⟩,
      hdeclared.fileSize.1, hcount⟩
  | restored =>
    exact ⟨⟨⟨rfl, rfl, fun _ h ↦ (Option.some.inj h).symm, fun _ h ↦ nomatch h⟩, fun _ h ↦ nomatch h⟩,
      rfl, hdeclared.fileSize.1, hcount⟩

theorem FitRun.within {payload : Payload} (hdeclared : Accepted payload metadata)
    (h : FitRun metadata dir w) : Within metadata dir w := by
  obtain ⟨start, hmade, hsteps⟩ := h
  induction hsteps with
  | refl => exact hmade.within hdeclared
  | tail _ hstep ih => exact ih.step hdeclared hstep

end Sizes

instance (w : World) (frame : ChunkFrame) : Decidable (Expects w frame) :=
  decidable_of_iff ((w.self.state = .transferring ∨ w.self.state = .resuming) ∧
      frame.transferId = w.self.metadata.transferId ∧ frame.seq = w.self.nextSeq ∧
      frame.data.length ≤ w.self.metadata.chunkSize)
    ⟨fun ⟨hflowing, hid, hseq, hlength⟩ ↦ ⟨hflowing, hid, hseq, hlength⟩,
      fun h ↦ ⟨h.flowing, h.transferId, h.seq, h.length⟩⟩

theorem fitRun_pair : FitRun pairMetadata sampleDir
    (afterCalls [.begin, .receiveChunk (pairFrame 0 [1, 2]), .receiveChunk (pairFrame 1 [3])]) := by
  refine ⟨⟨rootDisk, .new pairMetadata sampleDir⟩, .new, ?_⟩
  refine .tail (.tail (.single (.call .begin _ trivial)) (.call (.receiveChunk (pairFrame 0 [1, 2])) _ ?_))
    (.call (.receiveChunk (pairFrame 1 [3])) _ ?_)
  · exact fun _ ↦ by decide +kernel
  · exact fun _ ↦ by decide +kernel

/-- A request that declares 3 bytes in two chunks, and the digest of 4 bytes. -/
def shortMetadata : TransferMetadata :=
  { sampleMetadata "" with chunkSize := 2, chunkCount := 2, sha256 := Sha256.hexdigest [1, 2, 3, 4] }

/-- Two full chunks and an empty one. -/
def overrun : World :=
  [Call.begin, .receiveChunk ⟨shortMetadata.transferId, 0, [1, 2]⟩,
    .receiveChunk ⟨shortMetadata.transferId, 1, [3, 4]⟩,
    .receiveChunk ⟨shortMetadata.transferId, 2, []⟩].foldl (fun w c ↦ (c.run w).2)
      ⟨rootDisk, .new shortMetadata sampleDir⟩

theorem overrun_delivers : ¬DeliversDeclared shortMetadata overrun := by
  intro h
  have hdelivered : finalise overrun = (.ok true, (finalise overrun).2) :=
    Prod.ext (by decide +kernel) rfl
  obtain ⟨dest, data, htarget, hnodes, hlength⟩ := h _ hdelivered
  have hdest : renameTarget overrun = some (sampleDir.path ++ [Text.lit "f.txt"]) := by decide +kernel
  have hcontent : (finalise overrun).2.disk.content (sampleDir.path ++ [Text.lit "f.txt"]) = [1, 2, 3, 4] := by
    decide +kernel
  obtain rfl := Option.some.inj (htarget.symm.trans hdest)
  rw [Disk.content, hnodes] at hcontent
  obtain rfl : data = [1, 2, 3, 4] := hcontent
  exact absurd hlength (by decide)

end IncomingTransfer

end Ferry
