import Ferry.Transfer.Snapshot

/-!
# What a failing operation leaves behind

`begin`, `receive_chunk` and `finalise` when a file-system call inside them fails, or a path check raises.
`receive_chunk` cleans up after a failed write; `begin` does not catch what its path check raises, and
`finalise` catches nothing.
-/

namespace Ferry

/-- `TransferError`, `SecurityError`, `ValueError` or `RuntimeError`. -/
def PyError.isDeclared : PyError → Bool
  | transfer _ | security _ | value _ | runtime _ => true
  | _ => false

namespace IncomingTransfer

open Exec Disk

variable {metadata : TransferMetadata} {dir : DownloadDir}

/-! ## Failures -/

/-- The checks of `receive_chunk` pass. -/
structure Expects (w : World) (frame : ChunkFrame) : Prop where
  flowing : Flowing w
  transferId : frame.transferId = w.self.metadata.transferId
  seq : frame.seq = w.self.nextSeq
  length : frame.data.length ≤ w.self.metadata.chunkSize

/-- `finalise` finds the digest right, and its two assertions pass. -/
structure Renames (w : World) (temp final : Path) : Prop where
  digest : Sha256.hexdigest w.self.hasher = Text.asciiLower w.self.metadata.sha256
  tempPath : w.self.tempPath = some temp
  finalPath : w.self.finalPath = some final

/-- A file-system call inside an operation fails, or its path check raises. -/
inductive Fails (w : World) : Call → Prop
  | begin (hallowed : TransferState.accepted ∈ w.self.state.validTransitions)
      (hraises : ∃ e, (begin w).1 = .error e) : Fails w .begin
  | write {frame : ChunkFrame} (hexpects : Expects w frame) (hopened : w.self.tempFh ≠ none)
      (hraises : ∃ e, (onTempFh (Handle.write frame.data) w).1 = .error e) : Fails w (.receiveChunk frame)
  | flush (hraises : ∃ e, (flushTempFh w).1 = .error e) : Fails w .finalise
  | rename {temp final : Path} (hflushed : (flushTempFh w).1 = .ok ())
      (hrenames : Renames (flushTempFh w).2 temp final)
      (hraises : ∃ e, (Disk.rename temp ((flushTempFh w).2.self.destination (flushTempFh w).2.disk final)
        (flushTempFh w).2.disk).1 = .error e) : Fails w .finalise

/-- What an operation that gives up has to leave behind. -/
structure GivesUp (part : Path) (w : World) (r : Except PyError Bool) (w' : World) : Prop where
  state : w'.self.state = .failed
  closed : ∀ fh ∈ w'.self.tempFh, fh.closed = true
  part : ¬w'.disk.IsFile part
  placed : ∀ p data, w'.disk.nodes p = some (.file data) → w.disk.nodes p = some (.file data)
  exception : ∃ e, r = .error e ∧ e.isDeclared = true

/-- Creating one of the two directories of `begin` fails. -/
def DirectoriesFail (dir : DownloadDir) (w : World) : Prop :=
  ∃ e, ((do Disk.mkdir dir.staging; Disk.mkdir dir.path : Exec IoError Disk Unit) w.disk).1 = .error e

/-- The directories cannot be made, or the path check passes. -/
def Staged (metadata : TransferMetadata) (dir : DownloadDir) (w : World) : Prop :=
  DirectoriesFail dir w ∨
    ∃ dest, resolveSafeDestination dir.path metadata.fileName metadata.relativePath = .ok dest

/-- The failures that are cleaned up. -/
def Recovers (metadata : TransferMetadata) (dir : DownloadDir) (w : World) : Call → Prop
  | .begin => (∀ fh ∈ w.self.tempFh, fh.closed = true) ∧ ¬w.disk.IsFile (metadata.partPath dir) ∧
      Staged metadata dir w
  | .receiveChunk _ => (∀ fh ∈ w.self.tempFh, fh.closed = false) ∧
      (w.disk.IsFile (metadata.partPath dir) → (w.disk.outcome .unlink).fails = false)
  | .finalise => w.self.state = .failed ∧ (∃ fh ∈ w.self.tempFh, fh.closed = true) ∧
      ¬w.disk.IsFile (metadata.partPath dir)
  | _ => True

/-! ## Calls that raise -/

theorem raises_mkdir (p : Path) : Raises IoError.IsOsError (mkdir p) := by
  intro d
  unfold mkdir
  rw [wp_perform_bind, wp_get_bind, wp_modify_bind, wp_raiseIf]
  exact ⟨fun _ e he ↦ Except.error.inj he ▸ by decide, fun _ e he ↦ nomatch he⟩

/-- Directories that are made turn no file into something else, and nothing into a file. -/
theorem isFile_mkdir (part p : Path) : Stays (fun d d' ↦ d'.IsFile part ↔ d.IsFile part) (mkdir p) := by
  intro d
  have honly : Disk.OnlyAt ([] :: part) d (mkdir p d).2 := stays_mkdir _ _ d
  rcases honly.nodes part (List.cons_ne_self _ _).symm with hsame | ⟨hnone, hdirectory⟩
  · change (∃ data, (mkdir p d).2.nodes part = some (.file data)) ↔ ∃ data, d.nodes part = some (.file data)
    rw [hsame]
  · change (∃ data, (mkdir p d).2.nodes part = some (.file data)) ↔ ∃ data, d.nodes part = some (.file data)
    rw [hnone, hdirectory]
    simp

theorem openTruncate_error (p : Path) (d : Disk) :
    wp (Handle.openTruncate p) (fun r d' ↦ ∀ e, r = .error e → e.IsOsError ∧ d'.nodes = d.nodes) d := by
  unfold Handle.openTruncate
  rw [wp_perform_bind, wp_get_bind, wp_raiseIf_bind, nodes_advance]
  refine ⟨fun _ e he ↦ ⟨Except.error.inj he ▸ by decide, rfl⟩, fun _ ↦ ?_⟩
  rw [wp_raiseIf_bind]
  refine ⟨fun _ e he ↦ ⟨Except.error.inj he ▸ by decide, rfl⟩, fun _ ↦ ?_⟩
  rw [wp_raiseIf_bind]
  exact ⟨fun _ e he ↦ ⟨Except.error.inj he ▸ by decide, rfl⟩, fun _ e he ↦ nomatch he⟩

theorem raises_rename (src dst : Path) : Raises IoError.IsOsError (rename src dst) := by
  intro d
  unfold rename
  rw [wp_perform_bind, wp_get_bind]
  iterate 5
    rw [wp_raiseIf_bind]
    refine ⟨fun _ e he ↦ Except.error.inj he ▸ by decide, fun _ ↦ ?_⟩
  exact fun e he ↦ nomatch he

theorem sanitiseFilename_error {raw : Text} {e : PyError} (h : sanitiseFilename raw = .error e) :
    e = .value .unencodable := by
  unfold sanitiseFilename at h
  simp only at h
  split at h
  · exact (Except.error.inj h).symm
  · split at h
    · exact nomatch h
    · split at h
      · exact nomatch h
      · exact nomatch h

theorem resolvePath_error {p : Path} {e : PyError} (h : resolvePath p = .error e) :
    e = .value .unencodable := by
  unfold resolvePath at h
  split at h
  · exact nomatch h
  · exact (Except.error.inj h).symm

/-- The path check raises a `SecurityError` or a `ValueError`. -/
theorem resolveSafeDestination_error {stagingDir : Path} {fileName relativePath : Text} {e : PyError}
    (h : resolveSafeDestination stagingDir fileName relativePath = .error e) : ¬e.IsOsError := by
  unfold resolveSafeDestination joinDestination at h
  rcases bind_eq_error.mp h with hname | ⟨sanitised, -, h⟩
  · rw [sanitiseFilename_error hname]
    decide
  rcases bind_eq_error.mp h with hempty | ⟨-, -, h⟩
  · rw [← (rejectIf_eq_error.mp hempty).2]
    simp [PyError.IsOsError]
  rcases bind_eq_error.mp h with hjoin | ⟨dest, -, h⟩
  · split at hjoin
    · rcases bind_eq_error.mp hjoin with htraversal | ⟨-, -, hresolve⟩
      · rw [← (rejectIf_eq_error.mp htraversal).2]
        simp [PyError.IsOsError]
      · rw [resolvePath_error hresolve]
        decide
    · rw [resolvePath_error hjoin]
      decide
  · rcases bind_eq_error.mp h with houtside | ⟨-, -, h⟩
    · rw [← (rejectIf_eq_error.mp houtside).2]
      simp [PyError.IsOsError]
    · cases h

/-! ## `begin` -/

/-- How `openStaging` fails: in a file-system call, which is an `OSError`, or in the path check. -/
theorem openStaging_error {w : World} (hown : Owns metadata dir w) :
    wp openStaging (fun r w' ↦ ∀ e, r = .error e → w'.self.state = w.self.state ∧
      w'.self.tempFh = w.self.tempFh ∧
      (w'.disk.IsFile (metadata.partPath dir) ↔ w.disk.IsFile (metadata.partPath dir)) ∧
      (e.IsOsError ↔ Staged metadata dir w)) w := by
  have hdirectory (p : Path) (d : Disk) : wp (mkdir p) (fun r d' ↦ mkdir p d = (r, d') ∧
      (∀ e, r = .error e → e.IsOsError) ∧
      (d'.IsFile (metadata.partPath dir) ↔ d.IsFile (metadata.partPath dir))) d :=
    ⟨rfl, raises_mkdir p d, isFile_mkdir _ p d⟩
  unfold openStaging
  rw [wp_get_bind, hown.metadata_eq, hown.downloadDir_eq]
  refine wp_onDisk_bind (hdirectory dir.staging w.disk) ?_ fun _ d₁ h₁ ↦ ?_
  · rintro e d ⟨hrun, hos, hfile⟩ e' he'
    obtain rfl := Except.error.inj he'
    exact ⟨rfl, rfl, hfile, iff_of_true (isOsError_ofIo (hos e rfl))
      (.inl (bind_raises_iff.mpr (.inl ⟨e, by rw [hrun]⟩)))⟩
  obtain ⟨hrun₁, -, hfile₁⟩ := h₁
  refine wp_onDisk_bind (hdirectory dir.path d₁) ?_ fun _ d₂ h₂ ↦ ?_
  · rintro e d ⟨hrun, hos, hfile⟩ e' he'
    obtain rfl := Except.error.inj he'
    refine ⟨rfl, rfl, hfile.trans hfile₁, iff_of_true (isOsError_ofIo (hos e rfl)) (.inl ?_)⟩
    exact bind_raises_iff.mpr (.inr ⟨(), by rw [hrun₁], e, by rw [hrun₁, hrun]⟩)
  obtain ⟨hrun₂, -, hfile₂⟩ := h₂
  have hmade : ¬DirectoriesFail dir w := by
    intro hfails
    rcases bind_raises_iff.mp hfails with ⟨e, he⟩ | ⟨-, -, e, he⟩
    · rw [hrun₁] at he
      exact nomatch he
    · rw [hrun₁, hrun₂] at he
      exact nomatch he
  rw [wp_update_bind, wp_ofResult_bind]
  refine ⟨fun e hcheck e' he' ↦ ?_, fun dest hdest ↦ ?_⟩
  · obtain rfl := Except.error.inj he'
    refine ⟨rfl, rfl, hfile₂.trans hfile₁, iff_of_false (resolveSafeDestination_error hcheck) ?_⟩
    rintro (hfails | ⟨dest, hdest⟩)
    · exact hmade hfails
    · exact nomatch hcheck.symm.trans hdest
  rw [wp_update_bind]
  refine wp_onDisk_bind (hdirectory dest.parent d₂) ?_ fun _ d₃ h₃ ↦ ?_
  · rintro e d ⟨-, hos, hfile⟩ e' he'
    obtain rfl := Except.error.inj he'
    exact ⟨rfl, rfl, (hfile.trans hfile₂).trans hfile₁,
      iff_of_true (isOsError_ofIo (hos e rfl)) (.inr ⟨dest, hdest⟩)⟩
  obtain ⟨-, -, hfile₃⟩ := h₃
  refine wp_onDisk_bind (openTruncate_error (metadata.partPath dir) d₃) ?_ fun fh d₄ _ ↦ ?_
  · rintro e d h e' he'
    obtain rfl := Except.error.inj he'
    obtain ⟨hos, hnodes⟩ := h e rfl
    refine ⟨rfl, rfl, ?_, iff_of_true (isOsError_ofIo hos) (.inr ⟨dest, hdest⟩)⟩
    unfold Disk.IsFile at *
    rw [hnodes]
    exact (hfile₃.trans hfile₂).trans hfile₁
  · apply wp_mono (succeeds_assignTempFh (some fh) _)
    rintro _ _ ⟨_, rfl⟩ e he
    exact nomatch he

theorem begin_error {w : World} (hown : Owns metadata dir w)
    (hallowed : TransferState.accepted ∈ w.self.state.validTransitions) :
    wp begin (fun r w' ↦ ∀ e, r = .error e → w'.self.tempFh = w.self.tempFh ∧
      (w'.disk.IsFile (metadata.partPath dir) ↔ w.disk.IsFile (metadata.partPath dir)) ∧
      (w'.self.state = .failed ∧ e.isDeclared = true ∧ Staged metadata dir w ∨
        w'.self.state = .accepted ∧ ¬Staged metadata dir w)) w := by
  unfold begin
  rw [wp_transition_bind]
  refine ⟨fun _ ↦ ?_, fun hrefused ↦ absurd hallowed hrefused⟩
  have hown' : Owns metadata dir { w with self := { w.self with state := .accepted } } :=
    ⟨hown.1, hown.2, hown.3, hown.4⟩
  refine wp_bind_of (P := fun r w' ↦ (∀ e, r = .error e → w'.self.tempFh = w.self.tempFh ∧
    (w'.disk.IsFile (metadata.partPath dir) ↔ w.disk.IsFile (metadata.partPath dir)) ∧
    (w'.self.state = .failed ∧ e.isDeclared = true ∧ Staged metadata dir w ∨
      w'.self.state = .accepted ∧ ¬Staged metadata dir w)) ∧
    (r = .ok () → w'.self.state = .accepted)) ?_ (fun e _ ht ↦ ht.1) fun _ t ht ↦ ?_
  · refine wp_tryCatch_of (wp_and (openStaging_error hown')
      (wp_same_state assigns_openStaging (by decide) _)) ?_ ?_
    · rintro e t ⟨herror, hstate⟩
      obtain ⟨-, hfh, hfile, hos⟩ := herror e rfl
      have hstate' : t.self.state = .accepted := hstate
      rw [wp_ite, wp_transition_bind, wp_throw, wp_throw]
      refine ⟨fun he ↦ ⟨fun _ ↦ ⟨fun e' he' ↦ ?_, by simp⟩, fun hinvalid ↦ ?_⟩,
        fun he ↦ ⟨fun e' he' ↦ ?_, by simp⟩⟩
      · obtain rfl := Except.error.inj he'
        exact ⟨hfh, hfile, .inl ⟨rfl, rfl, hos.mp he⟩⟩
      · exact absurd (by simp [hstate', TransferState.validTransitions]) hinvalid
      · obtain rfl := Except.error.inj he'
        exact ⟨hfh, hfile, .inr ⟨hstate', mt hos.mpr he⟩⟩
    · rintro _ t ⟨-, hstate⟩
      exact ⟨by simp, fun _ ↦ hstate⟩
  · rw [wp_transition]
    refine ⟨fun _ ↦ by simp, fun hinvalid ↦ absurd ?_ hinvalid⟩
    simp [ht.2 rfl, TransferState.validTransitions]

/-- Outside the `.part` file an operation makes no file. -/
theorem placed_of_kept {w w' : World} (hkept : Kept metadata dir w w')
    (hpart : ¬w'.disk.IsFile (metadata.partPath dir)) (p : Path) (data : Bytes)
    (hfile : w'.disk.nodes p = some (.file data)) : w.disk.nodes p = some (.file data) := by
  have hne : p ≠ metadata.partPath dir := by
    rintro rfl
    exact hpart ⟨data, hfile⟩
  rcases hkept.disk.nodes p hne with hsame | ⟨-, hdirectory⟩
  · exact hsame ▸ hfile
  · exact nomatch hfile.symm.trans hdirectory

/-- `begin` cleans up exactly when nothing is left from before and the path check does not raise. -/
theorem begin_givesUp_iff {w : World} (hown : Owns metadata dir w)
    (hallowed : TransferState.accepted ∈ w.self.state.validTransitions) {e : PyError}
    (hraises : (begin w).1 = .error e) :
    GivesUp (metadata.partPath dir) w (.error e) (begin w).2 ↔ Recovers metadata dir w .begin := by
  obtain ⟨hfh, hfile, hcases⟩ := begin_error hown hallowed e hraises
  have hkept : Kept metadata dir w (begin w).2 := stays_begin w hown
  constructor
  · intro h
    refine ⟨hfh ▸ h.closed, mt hfile.mpr h.part, ?_⟩
    rcases hcases with ⟨-, -, hstaged⟩ | ⟨haccepted, -⟩
    · exact hstaged
    · exact nomatch haccepted.symm.trans h.state
  · rintro ⟨hclosed, hpart, hstaged⟩
    rcases hcases with ⟨hfailed, hdeclared, -⟩ | ⟨-, hnot⟩
    · have hpart' := mt hfile.mp hpart
      exact ⟨hfailed, by rwa [hfh], hpart', placed_of_kept hkept hpart', e, rfl, hdeclared⟩
    · exact absurd hstaged hnot

/-! ## Open files -/

/-- The same paths are files, and the same removals will fail. -/
structure Undisturbed (d d' : Disk) : Prop where
  isFile : ∀ p, d'.IsFile p ↔ d.IsFile p
  unlink : d'.faults .unlink = d.faults .unlink

theorem Undisturbed.outcome {d d' : Disk} (h : Undisturbed d d') :
    d'.outcome .unlink = d.outcome .unlink := by
  unfold Disk.outcome
  rw [h.unlink]

instance : IsPreorder Disk Undisturbed where
  refl := fun _ ↦ ⟨fun _ ↦ Iff.rfl, rfl⟩
  trans := fun _ _ _ h h' ↦ ⟨fun p ↦ (h'.isFile p).trans (h.isFile p), h'.unlink.trans h.unlink⟩

theorem undisturbed_append (d : Disk) {call : Syscall} (hcall : call ≠ .unlink) (p : Path) (data : Bytes) :
    Undisturbed d ((d.advance call).append p data) where
  isFile := by
    intro q
    unfold Disk.append Disk.IsFile
    rw [nodes_advance]
    split
    · next old hold =>
      rw [nodes_put]
      split
      · next heq =>
        rw [heq, hold]
        simp
      · rw [nodes_advance]
    · rw [nodes_advance]
  unlink := by
    rw [faults_append, Disk.advance]
    exact if_neg hcall.symm

/-- A call on the open file keeps the relation of the disk that its parts keep. -/
theorem undisturbed_onTempFh {α : Type} {m : Exec IoError (Disk × Handle) α}
    (hm : Stays (fun s s' ↦ Undisturbed s.1 s'.1) m) :
    Stays (fun w w' ↦ Undisturbed w.disk w'.disk) (onTempFh m) := by
  intro w
  cases hfh : w.self.tempFh with
  | none =>
    rw [wp_onTempFh_none hfh]
    exact refl_of Undisturbed w.disk
  | some fh =>
    rw [wp_onTempFh_some hfh]
    exact hm (w.disk, fh)

theorem undisturbed_close : Stays (fun s s' ↦ Undisturbed s.1 s'.1) Handle.close := by
  intro s
  rw [Handle.wp_close]
  exact ⟨fun _ ↦ refl_of Undisturbed s.1, fun _ ↦ ⟨fun _ ↦ undisturbed_append _ (by decide) _ _,
    fun _ ↦ undisturbed_append _ (by decide) _ _⟩⟩

instance : IsPreorder World fun w w' ↦ Undisturbed w.disk w'.disk where
  refl := fun w ↦ refl_of Undisturbed w.disk
  trans := fun _ _ _ h h' ↦ trans_of Undisturbed h h'

theorem undisturbed_assignTempFh (fh : Option Handle) :
    Stays (fun w w' ↦ Undisturbed w.disk w'.disk) (assignTempFh fh) := by
  refine stays_get_bind fun w ↦ ?_
  have hassign : Stays (fun w w' : World ↦ Undisturbed w.disk w'.disk)
      (update fun self ↦ { self with tempFh := fh }) := stays_modify fun w ↦ refl_of Undisturbed w.disk
  refine stays_bind hassign (fun _ ↦ ?_) w
  cases w.self.tempFh with
  | none => exact stays_pure _
  | some handle => exact fun w ↦ undisturbed_close (w.disk, handle)

theorem assignTempFh_tempFh (fh : Option Handle) (w : World) :
    wp (assignTempFh fh) (fun _ w' ↦ w'.self.tempFh = fh) w := by
  unfold assignTempFh
  rw [wp_get_bind, wp_update_bind]
  cases w.self.tempFh with
  | none => rfl
  | some handle => rfl

/-- The open file is closed and forgotten. -/
theorem closeTempFh_spec (w : World) :
    wp closeTempFh (fun _ w' ↦ w'.self = { w.self with tempFh := none } ∧ Undisturbed w.disk w'.disk) w := by
  have hdisk : Stays (fun w w' ↦ Undisturbed w.disk w'.disk) closeTempFh :=
    stays_get_bind fun w ↦ stays_ite _
      (stays_bind (stays_tryCatch (undisturbed_onTempFh undisturbed_close) fun _ ↦ stays_pure _)
        fun _ ↦ undisturbed_assignTempFh none) (stays_pure _) w
  have hself : Stays OnlyTempFh closeTempFh :=
    stays_get_bind fun w ↦ stays_ite _
      (stays_bind (stays_tryCatch (onlyTempFh_onTempFh _) fun _ ↦ stays_pure _)
        fun _ ↦ onlyTempFh_assignTempFh none) (stays_pure _) w
  have hnone : wp closeTempFh (fun _ w' ↦ w'.self.tempFh = none) w := by
    unfold closeTempFh
    rw [wp_get_bind, wp_ite]
    refine ⟨fun _ ↦ ?_, fun hclosed ↦ Option.not_isSome_iff_eq_none.mp hclosed⟩
    have hcaught : Succeeds (tryCatch (onTempFh Handle.close) fun _ ↦ pure () : Method Unit) :=
      succeeds_tryCatch _ fun _ ↦ succeeds_pure _
    refine wp_bind_of (hcaught w) (fun e _ he ↦ ?_) fun _ t _ ↦ assignTempFh_tempFh none t
    obtain ⟨_, he⟩ := he
    exact nomatch he
  obtain ⟨fh, hfh⟩ := hself w
  refine ⟨?_, hdisk w⟩
  have hnone' : (closeTempFh w).2.self.tempFh = none := hnone
  rw [hfh] at hnone' ⊢
  obtain rfl : fh = none := hnone'
  rfl

/-- The `.part` file is removed, unless the removal fails. -/
theorem cleanupTemp_spec {part : Path} {w : World} (hpath : w.self.tempPath = some part) :
    wp cleanupTemp (fun _ w' ↦ w'.self = w.self ∧
      (w'.disk.IsFile part ↔ w.disk.IsFile part ∧ (w.disk.outcome .unlink).fails = true)) w := by
  unfold cleanupTemp
  rw [wp_get_bind, hpath]
  dsimp only
  rw [wp_ite]
  refine ⟨fun _ ↦ ?_, fun hmissing ↦ ⟨rfl, ?_⟩⟩
  · have hunlinked : wp (onDisk (Disk.unlink part)) (fun _ w' ↦ w'.self = w.self ∧
        (w'.disk.IsFile part ↔ w.disk.IsFile part ∧ (w.disk.outcome .unlink).fails = true)) w := by
      rw [wp_onDisk]
      unfold Disk.unlink
      rw [wp_perform_bind, wp_get_bind, wp_raiseIf_bind, nodes_advance]
      refine ⟨fun hfails ↦ ⟨rfl, ?_⟩, fun hfails ↦ ?_⟩
      · unfold Disk.IsFile
        rw [nodes_advance]
        exact ⟨fun hfile ↦ ⟨hfile, hfails⟩, fun hfile ↦ hfile.1⟩
      · cases hnode : w.disk.nodes part with
        | none =>
          rw [wp_throw]
          refine ⟨rfl, ?_⟩
          unfold Disk.IsFile
          rw [nodes_advance, hnode]
          simp
        | some node =>
          cases node with
          | file data =>
            rw [wp_modify]
            refine ⟨rfl, ?_⟩
            unfold Disk.IsFile
            rw [nodes_put, if_pos rfl]
            simp [hfails]
          | directory =>
            rw [wp_throw]
            refine ⟨rfl, ?_⟩
            unfold Disk.IsFile
            rw [nodes_advance, hnode]
            simp
    exact wp_tryCatch_of hunlinked (fun _ _ ht ↦ ht) fun _ _ ht ↦ ht
  · unfold Disk.Exists at hmissing
    change w.disk.IsFile part ↔ _
    unfold Disk.IsFile
    rw [not_not.mp hmissing]
    simp

/-! ## `receive_chunk` -/

/-- How a write on the open file fails: the file is closed, or the disk refuses the bytes. -/
theorem onTempFh_write_error {data : Bytes} {w : World} {fh : Handle} (hfh : w.self.tempFh = some fh) :
    wp (onTempFh (Handle.write data)) (fun r w' ↦ ∀ e, r = .error e →
      (fh.closed = true ∧ w' = w ∧ ¬e.IsOsError) ∨
        (fh.closed = false ∧ e.IsOsError ∧ OnlyTempFh w w' ∧ Undisturbed w.disk w'.disk)) w := by
  rw [wp_onTempFh_some hfh, Handle.wp_write]
  refine ⟨fun hclosed e he ↦ .inl ⟨hclosed, ?_, ?_⟩, fun hopen ↦ ⟨fun _ e he ↦ .inr
    ⟨Bool.eq_false_iff.mpr hopen, ?_, ⟨_, rfl⟩, undisturbed_append _ (by decide) _ _⟩,
    fun _ e he ↦ nomatch he⟩⟩
  · rw [← hfh]
  · obtain rfl := Except.error.inj he
    decide
  · obtain rfl := Except.error.inj he
    decide

/-- The cleanup leaves no open file, and no `.part` file that it could remove. -/
theorem cleanupOnIoError_world {part : Path} {w : World} (hpath : w.self.tempPath = some part) :
    wp cleanupOnIoError (fun _ w' ↦ w'.self.state = .failed ∧ w'.self.tempFh = none ∧
      (w'.disk.IsFile part ↔ w.disk.IsFile part ∧ (w.disk.outcome .unlink).fails = true)) w := by
  unfold cleanupOnIoError
  refine wp_bind_of (wp_and (closeTempFh_spec w) (succeeds_closeTempFh w))
    (fun e t ht ↦ (nomatch ht.2.choose_spec)) fun _ t ht ↦ ?_
  obtain ⟨⟨hself, hdisk⟩, -⟩ := ht
  have hpath' : t.self.tempPath = some part := by
    rw [hself]
    exact hpath
  refine wp_bind_of (wp_and (cleanupTemp_spec hpath') (succeeds_cleanupTemp t))
    (fun e t' ht ↦ (nomatch ht.2.choose_spec)) fun _ t' ht ↦ ?_
  obtain ⟨⟨hself', hfile⟩, -⟩ := ht
  refine ⟨rfl, ?_, ?_⟩
  · change t'.self.tempFh = none
    rw [hself', hself]
  · change t'.disk.IsFile part ↔ _
    rw [hfile, hdisk.isFile, hdisk.outcome]

/-- When the write of `receive_chunk` fails on a closed file, its `ValueError` goes through and nothing
changes; on an open one the transfer is cleaned up. -/
theorem receiveChunk_error {part : Path} {w : World} {frame : ChunkFrame} {fh : Handle}
    (hpath : w.self.tempPath = some part) (hexpects : Expects w frame) (hfh : w.self.tempFh = some fh)
    (hraises : ∃ e, (onTempFh (Handle.write frame.data) w).1 = .error e) :
    wp (receiveChunk frame) (fun r w' ↦ ∃ e, r = .error e ∧
      ((fh.closed = true ∧ w' = w) ∨
        (fh.closed = false ∧ e.isDeclared = true ∧ w'.self.state = .failed ∧ w'.self.tempFh = none ∧
          (w'.disk.IsFile part ↔ w.disk.IsFile part ∧ (w.disk.outcome .unlink).fails = true)))) w := by
  unfold receiveChunk
  rw [wp_get_bind, wp_raiseIf_bind]
  refine ⟨fun hbad ↦ absurd hexpects.flowing (not_or.mpr hbad), fun _ ↦ ?_⟩
  rw [wp_raiseIf_bind]
  refine ⟨fun hbad ↦ absurd hexpects.transferId hbad, fun _ ↦ ?_⟩
  rw [wp_raiseIf_bind]
  refine ⟨fun hbad ↦ absurd hexpects.seq hbad, fun _ ↦ ?_⟩
  rw [wp_raiseIf_bind]
  refine ⟨fun hbad ↦ absurd hexpects.length (not_le_of_gt hbad), fun _ ↦ ?_⟩
  have hraised : wp (onTempFh (Handle.write frame.data)) (fun r _ ↦ ∃ e, r = .error e) w := hraises
  refine wp_bind_of (P := fun r w' ↦ ∃ e, r = .error e ∧
    ((fh.closed = true ∧ w' = w) ∨
      (fh.closed = false ∧ e.isDeclared = true ∧ w'.self.state = .failed ∧ w'.self.tempFh = none ∧
        (w'.disk.IsFile part ↔ w.disk.IsFile part ∧ (w.disk.outcome .unlink).fails = true)))) ?_
    ?_ fun _ _ ht ↦ (nomatch ht.choose_spec.1)
  · refine wp_tryCatch_of (wp_and (onTempFh_write_error hfh) hraised) ?_
      fun _ _ ht ↦ (nomatch ht.2.choose_spec)
    rintro e t ⟨hcases, -⟩
    rcases hcases e rfl with ⟨hclosed, rfl, hos⟩ | ⟨hopen, hos, ⟨fh', hself⟩, hdisk⟩
    · rw [if_neg hos, wp_throw]
      exact ⟨e, rfl, .inl ⟨hclosed, rfl⟩⟩
    · have hpath' : t.self.tempPath = some part := by
        rw [hself]
        exact hpath
      rw [if_pos hos]
      refine wp_bind_of (wp_and (cleanupOnIoError_world hpath') (cleanupOnIoError_spec t))
        (fun _ _ ht ↦ (nomatch ht.2.1)) fun _ t' ht ↦ ?_
      obtain ⟨⟨hstate, hclosed, hfile⟩, -⟩ := ht
      rw [hdisk.isFile, hdisk.outcome] at hfile
      exact ⟨_, rfl, .inr ⟨hopen, rfl, hstate, hclosed, hfile⟩⟩
  · rintro e t ⟨e', he, hcases⟩
    exact ⟨e', he, hcases⟩

theorem receiveChunk_givesUp_iff {w : World} {frame : ChunkFrame} (hown : Owns metadata dir w)
    (hlocated : Located w) (hexpects : Expects w frame) (hopened : w.self.tempFh ≠ none)
    (hraises : ∃ e, (onTempFh (Handle.write frame.data) w).1 = .error e) :
    ∃ e, (receiveChunk frame w).1 = .error e ∧
      (GivesUp (metadata.partPath dir) w (.error e) (receiveChunk frame w).2 ↔
        Recovers metadata dir w (.receiveChunk frame)) := by
  obtain ⟨fh, hfh⟩ := Option.ne_none_iff_exists'.mp hopened
  obtain ⟨temp, htemp⟩ := Option.ne_none_iff_exists'.mp (hlocated hexpects.flowing)
  have hpath : w.self.tempPath = some (metadata.partPath dir) :=
    htemp.trans (congrArg _ (hown.tempPath _ htemp))
  obtain ⟨e, he, hcases⟩ := receiveChunk_error hpath hexpects hfh hraises
  refine ⟨e, he, ?_⟩
  rcases hcases with ⟨hclosed, hsame⟩ | ⟨hopen, hdeclared, hfailed, hnone, hfile⟩
  · refine iff_of_false (fun h ↦ ?_) fun h ↦ ?_
    · have hstate := h.state
      rw [hsame] at hstate
      rcases hexpects.flowing with hflowing | hflowing <;> exact nomatch hflowing.symm.trans hstate
    · exact nomatch hclosed.symm.trans (h.1 fh hfh)
  · constructor
    · intro h
      refine ⟨fun fh' hfh' ↦ ?_, fun hpart ↦ Bool.eq_false_iff.mpr fun hfails ↦ ?_⟩
      · obtain rfl : fh = fh' := Option.some.inj (hfh.symm.trans hfh')
        exact hopen
      · exact h.part (hfile.mpr ⟨hpart, hfails⟩)
    · rintro ⟨-, hunlinks⟩
      have hpart : ¬(receiveChunk frame w).2.disk.IsFile (metadata.partPath dir) := by
        intro hpart
        obtain ⟨hpart, hfails⟩ := hfile.mp hpart
        exact nomatch hfails.symm.trans (hunlinks hpart)
      refine ⟨hfailed, fun fh' hfh' ↦ ?_, hpart, placed_of_kept (stays_receiveChunk frame w hown) hpart,
        e, rfl, hdeclared⟩
      rw [hnone] at hfh'
      exact nomatch hfh'

/-! ## `finalise` -/

/-- The flush of `finalise` raises a `ValueError` on a closed file, and an `OSError` on an open one. -/
theorem flushTempFh_error (w : World) :
    wp flushTempFh (fun r w' ↦
      (∀ e, r = .error e → ∃ fh, w.self.tempFh = some fh ∧
        ((fh.closed = true ∧ w' = w ∧ e.isDeclared = true) ∨
          (fh.closed = false ∧ e.isDeclared = false))) ∧
      (∀ u, r = .ok u → ∀ fh ∈ w.self.tempFh, fh.closed = false)) w := by
  unfold flushTempFh
  rw [wp_get_bind, wp_ite]
  refine ⟨fun hsome ↦ ?_, fun hnone ↦ ⟨nofun, fun _ _ fh hfh ↦ ?_⟩⟩
  · obtain ⟨fh, hfh⟩ := Option.isSome_iff_exists.mp hsome
    have hflush : wp (onTempFh Handle.flush) (fun r w' ↦
        (∀ e, r = .error e → (fh.closed = true ∧ w' = w ∧ e.isDeclared = true) ∨
          (fh.closed = false ∧ e.isDeclared = false)) ∧
        (∀ u, r = .ok u → fh.closed = false ∧ ∃ fh', w'.self.tempFh = some fh')) w := by
      rw [wp_onTempFh_some hfh, Handle.wp_flush]
      refine ⟨fun hclosed ↦ ⟨fun e he ↦ .inl ⟨hclosed, by rw [← hfh], ?_⟩, nofun⟩, fun hopen ↦
        ⟨fun _ ↦ ⟨fun e he ↦ .inr ⟨Bool.eq_false_iff.mpr hopen, ?_⟩, nofun⟩,
          fun _ ↦ ⟨nofun, fun _ _ ↦ ⟨Bool.eq_false_iff.mpr hopen, _, rfl⟩⟩⟩⟩
      · obtain rfl := Except.error.inj he
        rfl
      · obtain rfl := Except.error.inj he
        rfl
    refine wp_bind_of hflush (fun e t ht ↦ ⟨fun e' he' ↦ ?_, nofun⟩) fun _ t ht ↦ ?_
    · obtain rfl := Except.error.inj he'
      exact ⟨fh, hfh, ht.1 e rfl⟩
    obtain ⟨hopen, fh', hfh'⟩ := ht.2 _ rfl
    have hopen' : ∀ handle ∈ w.self.tempFh, handle.closed = false := by
      rintro handle hhandle
      obtain rfl : fh = handle := Option.some.inj (hfh.symm.trans hhandle)
      exact hopen
    have hclose : wp (onTempFh Handle.close) (fun r _ ↦ ∀ e, r = .error e → e.isDeclared = false) t := by
      rw [wp_onTempFh_some hfh', Handle.wp_close]
      refine ⟨fun _ ↦ nofun, fun _ ↦ ⟨fun _ e he ↦ ?_, fun _ ↦ nofun⟩⟩
      obtain rfl := Except.error.inj he
      rfl
    refine wp_bind_of hclose (fun e t' ht ↦ ⟨fun e' he' ↦ ?_, nofun⟩) fun _ t' _ ↦ ?_
    · obtain rfl := Except.error.inj he'
      exact ⟨fh, hfh, .inr ⟨hopen, ht e rfl⟩⟩
    · apply wp_mono (succeeds_assignTempFh none t')
      rintro _ _ ⟨_, rfl⟩
      exact ⟨nofun, fun _ _ ↦ hopen'⟩
  · rw [Option.not_isSome_iff_eq_none.mp hnone] at hfh
    exact nomatch hfh

/-- A rename that fails goes through as an `OSError`. -/
theorem finalise_rename_error {w : World} {temp final : Path} (hflushed : (flushTempFh w).1 = .ok ())
    (hrenames : Renames (flushTempFh w).2 temp final)
    (hraises : ∃ e, (Disk.rename temp ((flushTempFh w).2.self.destination (flushTempFh w).2.disk final)
      (flushTempFh w).2.disk).1 = .error e) :
    ∃ e, (finalise w).1 = .error e ∧ e.isDeclared = false := by
  have hflush : wp flushTempFh (fun r w' ↦ r = .ok () ∧ w' = (flushTempFh w).2) w := ⟨hflushed, rfl⟩
  have hspec : wp finalise (fun r _ ↦ ∃ e, r = .error e ∧ e.isDeclared = false) w := by
    unfold finalise
    refine wp_bind_of hflush (fun e t ht ↦ (nomatch ht.1)) fun _ t ht ↦ ?_
    obtain rfl := ht.2
    rw [wp_get_bind, if_neg (not_not.mpr hrenames.digest)]
    unfold deliver
    rw [wp_get_bind, hrenames.tempPath, hrenames.finalPath]
    dsimp only
    have hrename : wp (Disk.rename temp ((flushTempFh w).2.self.destination (flushTempFh w).2.disk final))
        (fun r _ ↦ ∃ e, r = .error e ∧ e.IsOsError) (flushTempFh w).2.disk := by
      obtain ⟨e, he⟩ := hraises
      exact ⟨e, he, raises_rename _ _ _ e he⟩
    refine wp_onDisk_bind hrename (fun e d hd ↦ ?_) fun _ _ hd ↦ (nomatch hd.choose_spec.1)
    obtain ⟨e', he', hos⟩ := hd
    obtain rfl := Except.error.inj he'
    refine ⟨_, rfl, ?_⟩
    cases e with
    | osError => rfl
    | fileNotFound => rfl
    | closedFile => exact absurd rfl hos
  exact hspec

/-- `finalise` cleans nothing up: only a transfer that had failed before, with nothing left, is as it
has to be. -/
theorem finalise_givesUp_iff {w : World} (hfails : Fails w .finalise) :
    ∃ e, (finalise w).1 = .error e ∧ (GivesUp (metadata.partPath dir) w (.error e) (finalise w).2 ↔
      Recovers metadata dir w .finalise) := by
  cases hfails with
  | flush hraises =>
    obtain ⟨e, he⟩ := hraises
    have hrun : finalise w = (.error e, (flushTempFh w).2) := bind_run_of_raises he
    rw [hrun]
    refine ⟨e, rfl, ?_⟩
    obtain ⟨fh, hfh, ⟨hclosed, hsame, hdeclared⟩ | ⟨hopen, hdeclared⟩⟩ := (flushTempFh_error w).1 e he
    · rw [hsame]
      constructor
      · exact fun h ↦ ⟨h.state, ⟨fh, hfh, hclosed⟩, h.part⟩
      · rintro ⟨hstate, -, hpart⟩
        refine ⟨hstate, fun fh' hfh' ↦ ?_, hpart, fun _ _ ↦ id, e, rfl, hdeclared⟩
        obtain rfl : fh = fh' := Option.some.inj (hfh.symm.trans hfh')
        exact hclosed
    · refine iff_of_false (fun h ↦ ?_) fun h ↦ ?_
      · obtain ⟨e', he', hdeclared'⟩ := h.exception
        obtain rfl := Except.error.inj he'
        exact nomatch hdeclared.symm.trans hdeclared'
      · obtain ⟨-, ⟨fh', hfh', hclosed⟩, -⟩ := h
        obtain rfl : fh = fh' := Option.some.inj (hfh.symm.trans hfh')
        exact nomatch hopen.symm.trans hclosed
  | rename hflushed hrenames hraises =>
    obtain ⟨e, he, hdeclared⟩ := finalise_rename_error hflushed hrenames hraises
    refine ⟨e, he, iff_of_false (fun h ↦ ?_) fun h ↦ ?_⟩
    · obtain ⟨e', he', hdeclared'⟩ := h.exception
      obtain rfl := Except.error.inj he'
      exact nomatch hdeclared.symm.trans hdeclared'
    · obtain ⟨-, ⟨fh, hfh, hclosed⟩, -⟩ := h
      exact nomatch hclosed.symm.trans ((flushTempFh_error w).2 _ hflushed fh hfh)

/-! ## Runs -/

/-- The temporary path is there while chunks flow, in every run. -/
theorem Run.located {disk : Disk} {w : World} (h : Run metadata dir disk w) : Located w := by
  induction h with
  | refl =>
    rintro (hstate | hstate)
    · exact nomatch hstate
    · exact nomatch hstate
  | tail _ hstep ih =>
    cases hstep with
    | call c => exact Call.located_run ih c
    | other w nodes hpart => exact ih

/-- A disk with only its root, on which the next call of one kind fails at once. -/
def failingDisk (call : Syscall) : Disk :=
  { rootDisk with faults := fun c ↦ if c = call then [⟨true, 0⟩] else [] }

/-- A transfer with its first chunk, on a disk whose next flush fails. -/
def flushPending : World :=
  ((Call.receiveChunk (pairFrame 0 [1, 2])).run
    (Call.begin.run ⟨failingDisk .flush, .new pairMetadata sampleDir⟩).2).2

/-- A fresh transfer whose relative path has a NUL. -/
def nulPath : World := ⟨rootDisk, .new (sampleMetadata "a\u0000") sampleDir⟩

end IncomingTransfer

end Ferry
