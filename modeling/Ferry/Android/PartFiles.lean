import Ferry.Android.ReceiverSlot

/-!
# What becomes of a staging file

The functions of the receiving client as far as the active receiver and the staging files go: most leave
both alone, a chunk extends the file by its bytes, and whatever ends the active receiver leaves the staging
files of the other transfers alone.
-/

namespace Ferry

open Exec Disk

/-- The states in which a receiver takes chunks and `interrupt` keeps its file. -/
def TransferState.Live (state : TransferState) : Prop := state = .transferring ∨ state = .resuming

instance (state : TransferState) : Decidable state.Live := inferInstanceAs (Decidable (_ ∨ _))

/-- The states from which a receiver resumes. -/
def TransferState.Waits (state : TransferState) : Prop := state = .interrupted ∨ state = .resumeRequested

instance (state : TransferState) : Decidable state.Waits := inferInstanceAs (Decidable (_ ∨ _))

/-! ## Calls of a receiver -/

namespace FerryTransferReceiver

open JavaFile

section Methods

variable {w : ReceiverWorld} {data piece : Bytes}

/-- The receiver after a chunk. -/
def fed (self : FerryTransferReceiver) (data : Bytes) : FerryTransferReceiver :=
  { self with
    digest := self.digest ++ data
    bytesReceived := toInt64 (self.bytesReceived + data.length)
    nextSeq := Kotlin.TransferMetadata.toInt32 (self.nextSeq + 1) }

/-- `receiveChunk` that returns has appended the chunk. -/
theorem receiveChunk_ok (transferId : Text) (seq : ℤ) (data : Bytes) (w : ReceiverWorld) :
    wp (receiveChunk transferId seq data) (fun r w' ↦ r = .ok () → w.self.state.Live ∧
      w'.self = w.self.fed data ∧
      w'.disk.nodes w.self.tempFile = some (.file (w.disk.content w.self.tempFile ++ data))) w := by
  unfold receiveChunk
  rw [wp_get_bind, wp_raiseIf_bind]
  refine ⟨fun _ ↦ nofun, fun hstate ↦ ?_⟩
  rw [wp_raiseIf_bind]
  refine ⟨fun _ ↦ nofun, fun _ ↦ ?_⟩
  rw [wp_raiseIf_bind]
  refine ⟨fun _ ↦ nofun, fun _ ↦ ?_⟩
  rw [wp_raiseIf_bind]
  refine ⟨fun _ ↦ nofun, fun _ ↦ ?_⟩
  have hlive : w.self.state.Live := by
    by_contra hnot
    exact hstate (not_or.mp hnot)
  rw [wp_bind, wp_tryCatch, wp_onDisk]
  apply wp_mono (appendBytes_spec w.self.tempFile data w.disk)
  rintro r d ⟨-, hok, -⟩
  cases r with
  | error e =>
    dsimp only [Except.mapError]
    rw [wp_bind]
    apply wp_mono (cleanup_spec _)
    rintro r w' ⟨rfl, -, -⟩
    exact nofun
  | ok u => exact fun _ ↦ ⟨hlive, rfl, (hok rfl).2⟩

/-- The file can be extended. -/
structure Writable (disk : Disk) (p : Path) : Prop where
  file : disk.IsFile p
  parent : disk.nodes p.parent = some .directory
  openFile : disk.Reliable .openFile
  write : disk.Reliable .write
  close : disk.Reliable .close

theorem appendBytes_succeeds {p : Path} {d : Disk} (h : Writable d p) (data : Bytes) :
    wp (appendBytes p data) (fun r _ ↦ r = .ok ()) d := by
  obtain ⟨content, hfile⟩ := h.file
  have hopened := keeps_advance p d .openFile
  have hwritten := trans_of (Keeps p) hopened (keeps_advance p (d.advance .openFile) .write)
  have hwrite := (h.write.later (hopened.faults .write)).outcome
  have hclose := (h.close.later (hwritten.faults .close)).outcome
  unfold appendBytes
  rw [wp_perform_bind, wp_get_bind, wp_raiseIf_bind, nodes_advance, h.openFile.outcome]
  refine ⟨nofun, fun _ ↦ ?_⟩
  rw [wp_raiseIf_bind]
  refine ⟨fun hparent ↦ absurd h.parent hparent, fun _ ↦ ?_⟩
  rw [wp_raiseIf_bind]
  refine ⟨fun hdir ↦ ?_, fun _ ↦ ?_⟩
  · exact nomatch hfile.symm.trans hdir
  · rw [wp_perform_bind, wp_perform_bind, wp_modify_bind, wp_raiseIf, hwrite, hclose]
    exact ⟨nofun, fun _ ↦ rfl⟩

/-- `receiveChunk` accepts the next chunk of its transfer. -/
structure Takes (w : ReceiverWorld) (transferId : Text) (seq : ℤ) (data : Bytes) : Prop where
  live : w.self.state.Live
  transferId_eq : transferId = w.self.metadata.transferId
  seq_eq : seq = w.self.nextSeq
  size : data.length ≤ w.self.metadata.chunkSize
  writable : Writable w.disk w.self.tempFile

theorem receiveChunk_succeeds {transferId : Text} {seq : ℤ} (h : Takes w transferId seq data) :
    wp (receiveChunk transferId seq data) (fun r _ ↦ r = .ok ()) w := by
  unfold receiveChunk
  rw [wp_get_bind, wp_raiseIf_bind]
  refine ⟨fun hstate ↦ (not_or.mpr hstate h.live).elim, fun _ ↦ ?_⟩
  rw [wp_raiseIf_bind]
  refine ⟨fun hid ↦ absurd h.transferId_eq hid, fun _ ↦ ?_⟩
  rw [wp_raiseIf_bind]
  refine ⟨fun hseq ↦ absurd h.seq_eq hseq, fun _ ↦ ?_⟩
  rw [wp_raiseIf_bind]
  refine ⟨fun hsize ↦ absurd h.size (not_le.mpr hsize), fun _ ↦ ?_⟩
  rw [wp_bind, wp_tryCatch, wp_onDisk]
  apply wp_mono (appendBytes_succeeds h.writable data)
  rintro r d rfl
  rfl

theorem exists_of_reports {d : Disk} {p : Path} (h : reports d p = true) : d.Exists p := by
  rw [reports, Bool.and_eq_true, decide_eq_true_eq] at h
  exact h.2

/-- `resume` that returns has the size of the file, if the disk tells it. -/
theorem resume_ok (chunkIndex : ℤ) (w : ReceiverWorld) :
    wp (resume chunkIndex) (fun r w' ↦ r = .ok () → w.self.state.Waits ∧
      w'.self.state = .resuming ∧ w.disk.Exists w.self.tempFile ∧ (w.disk.Reliable .stat → ∀ data,
        w.disk.nodes w.self.tempFile = some (.file data) → w'.self.bytesReceived = data.length)) w := by
  have hqueried := keeps_advance w.self.tempFile w.disk .stat
  unfold resume
  rw [wp_get_bind, wp_raiseIf_bind]
  refine ⟨fun _ ↦ nofun, fun hstate ↦ ?_⟩
  have hwaits : w.self.state.Waits := by
    by_contra hnot
    exact hstate (not_or.mp hnot)
  rw [wp_bind, wp_onDisk]
  apply wp_mono (fileExists_spec w.self.tempFile w.disk)
  rintro r d ⟨rfl, rfl⟩
  dsimp only [Except.mapError]
  rw [wp_ite]
  refine ⟨fun hfound ↦ ?_, fun _ ↦ nofun⟩
  have hlength : Succeeds (length w.self.tempFile) := succeeds_tryCatch _ fun _ ↦ succeeds_pure 0
  have hsize : wp (length w.self.tempFile) (fun r _ ↦ w.disk.Reliable .stat → ∀ data,
      w.disk.nodes w.self.tempFile = some (.file data) → r = .ok data.length)
      (w.disk.advance .stat) := by
    unfold length
    rw [wp_tryCatch]
    apply wp_mono (stat_spec w.self.tempFile (w.disk.advance .stat))
    rintro r d ⟨-, -, hfile⟩
    cases r with
    | error e =>
      intro hstat data hdata
      have hnone := (hfile ⟨data, hdata⟩).2 (hstat.later (hqueried.faults .stat))
      exact nomatch hnone
    | ok n =>
      intro _ data hdata
      have hn := (hfile ⟨data, hdata⟩).1 n rfl
      rw [hn]
      exact congrArg (fun content : Bytes ↦ Except.ok content.length) (content_of_nodes hdata)
  rw [wp_bind, wp_onDisk]
  apply wp_mono (wp_and (hlength _) hsize)
  rintro r d ⟨⟨size, rfl⟩, hsized⟩
  dsimp only [Except.mapError]
  rw [wp_bind, wp_onDisk]
  apply wp_mono (readFile_spec w.self.tempFile d)
  rintro r d' ⟨⟨read, e, rfl, -⟩, -⟩
  refine fun _ ↦ ⟨hwaits, rfl, exists_of_reports hfound, fun hstat data hdata ↦ ?_⟩
  exact congrArg Nat.cast (Except.ok.inj (hsized hstat data hdata))

/-- A receiver that waits resumes from a file that the disk shows. -/
theorem resume_succeeds (chunkIndex : ℤ) (hwaits : w.self.state.Waits)
    (hfile : w.disk.IsFile w.self.tempFile) (hstat : w.disk.Reliable .stat) :
    wp (resume chunkIndex) (fun r _ ↦ r = .ok ()) w := by
  have hfound : reports w.disk w.self.tempFile = true := by
    rw [reports_iff _ hstat]
    obtain ⟨data, hdata⟩ := hfile
    exact hdata ▸ nofun
  unfold resume
  rw [wp_get_bind, wp_raiseIf_bind]
  refine ⟨fun hnot ↦ absurd hwaits (not_or.mpr hnot), fun _ ↦ ?_⟩
  rw [wp_bind, wp_onDisk]
  apply wp_mono (fileExists_spec w.self.tempFile w.disk)
  rintro r d ⟨rfl, rfl⟩
  dsimp only [Except.mapError]
  rw [if_pos hfound, wp_bind, wp_onDisk]
  have hlength : Succeeds (length w.self.tempFile) := succeeds_tryCatch _ fun _ ↦ succeeds_pure 0
  apply wp_mono (hlength _)
  rintro r d ⟨size, rfl⟩
  dsimp only [Except.mapError]
  rw [wp_bind, wp_onDisk]
  apply wp_mono (readFile_spec w.self.tempFile d)
  rintro r d' ⟨⟨read, e, rfl, -⟩, -⟩
  rfl

/-- `begin` that returns only changes the state. -/
theorem begin_ok (w : ReceiverWorld) :
    wp begin (fun r w' ↦ r = .ok () → w'.self = { w.self with state := .transferring }) w := by
  unfold begin
  rw [wp_get_bind, wp_raiseIf_bind]
  refine ⟨fun _ ↦ nofun, fun _ ↦ ?_⟩
  have hmkdirs : Succeeds (mkdirs w.self.stagingDir) := succeeds_tryCatch _ fun _ ↦ succeeds_pure ()
  rw [wp_bind, wp_onDisk]
  apply wp_mono (hmkdirs w.disk)
  rintro r d ⟨u, rfl⟩
  dsimp only [Except.mapError]
  rw [wp_bind, wp_tryCatch, wp_onDisk]
  cases hcreated : (createNewFile w.self.tempFile d).1 with
  | error e =>
    unfold wp
    rw [hcreated]
    exact nofun
  | ok u =>
    unfold wp
    rw [hcreated]
    exact fun _ ↦ rfl

/-- `interrupt` answers the offset of a receiver that takes chunks, and -1 otherwise. -/
theorem interrupt_run (w : ReceiverWorld) : interrupt w =
    if w.self.state.Live then
      (.ok w.self.bytesReceived, { w with self := { w.self with state := .interrupted } })
    else (.ok (-1), w) := by
  unfold interrupt
  rw [get_bind_run]
  by_cases hlive : w.self.state.Live
  · rw [if_pos hlive, if_neg fun hnot ↦ hnot.2 (hlive.resolve_left hnot.1)]
    rfl
  · rw [if_neg hlive, if_pos (not_or.mp hlive)]
    rfl

/-- The file can be renamed to its final name. -/
structure Placeable (w : ReceiverWorld) : Prop where
  stagingDir : w.disk.nodes w.self.stagingDir = some .directory
  finalFile : w.disk.nodes (w.self.finalFile w.disk) ≠ some .directory
  rename : w.disk.Reliable .rename

theorem place_succeeds (h : Placeable w) (hfile : w.disk.IsFile w.self.tempFile) :
    wp place (fun r w' ↦ r = .ok true ∧ w'.self = w.self) w := by
  obtain ⟨name, hname⟩ := TransferClient.exists_finalFile w.self w.disk
  have hparent : w.disk.nodes (w.self.finalFile w.disk).parent = some .directory := by
    rw [hname, JavaFile.child, Path.parent, List.dropLast_concat]
    exact h.stagingDir
  have hapart : ¬Path.IsProperAncestor w.self.tempFile (w.self.finalFile w.disk) := by
    rintro ⟨hbelow, hne⟩
    rw [hname] at hbelow hne
    exact hne (congrArg _ (TransferClient.eq_of_isPrefix_child hbelow))
  have hqueried := keeps_advance w.self.tempFile w.disk .stat
  unfold place
  rw [wp_get_bind, wp_bind, wp_onDisk]
  apply wp_mono (fileExists_spec _ w.disk)
  rintro r d ⟨rfl, rfl⟩
  dsimp only [Except.mapError]
  rw [wp_onDisk]
  unfold renameTo
  rw [wp_get_bind, wp_ite]
  refine ⟨fun hdir ↦ ?_, fun _ ↦ ?_⟩
  · obtain ⟨data, hdata⟩ := hfile
    cases hdir.1.symm.trans hdata
  rw [wp_tryCatch, wp_bind]
  apply wp_mono (rename_spec w.self.tempFile (w.self.finalFile w.disk) (w.disk.advance .stat))
  rintro r d ⟨-, -, -, hok⟩
  obtain rfl := hok (h.rename.later (hqueried.faults .rename)) hfile h.finalFile hparent hapart
  exact ⟨rfl, rfl⟩

/-- `finalise` succeeds with the file that was announced. -/
theorem finalise_succeeds
    (hdigest : Sha256.hexdigest w.self.digest = Text.asciiLower w.self.metadata.sha256)
    (h : Placeable w) (hfile : w.disk.IsFile w.self.tempFile) :
    wp finalise (fun r _ ↦ r = .ok true) w := by
  unfold finalise
  rw [wp_get_bind, wp_update_bind, if_neg (not_not.mpr hdigest), wp_bind]
  apply wp_mono (@place_succeeds { w with self := { w.self with digest := [] } }
    ⟨h.stagingDir, h.finalFile, h.rename⟩ hfile)
  rintro r w' ⟨rfl, -⟩
  rfl

end Methods

end FerryTransferReceiver

/-! ## Functions of the client -/

namespace TransferClient

open FerryTransferReceiver

/-- The receiver stays, and so does what is there on the disk. -/
structure Still (c c' : TransferClient) : Prop where
  activeReceiver : c'.activeReceiver = c.activeReceiver
  stagingDir : c'.stagingDir = c.stagingDir
  disk : Extends c.disk c'.disk

/-- The transfer is not being received. -/
def Foreign (c : TransferClient) (b : Text) : Prop :=
  ∀ receiver ∈ c.activeReceiver, receiver.metadata.transferId ≠ b

/-- The receiver is gone, and the staging files of other transfers stay. -/
structure Quits (c c' : TransferClient) : Prop where
  activeReceiver : c'.activeReceiver = none
  stagingDir : c'.stagingDir = c.stagingDir
  parts : ∀ b, c.Foreign b → c.disk.Exists (c.partFile b) →
    c'.disk.nodes (c.partFile b) = c.disk.nodes (c.partFile b)

/-- The receiver stays, or it is gone. -/
def Ends (c c' : TransferClient) : Prop := Still c c' ∨ Quits c c'

section Relations

variable {c c' c'' : TransferClient}

theorem still_of_eq (hactive : c'.activeReceiver = c.activeReceiver)
    (hdir : c'.stagingDir = c.stagingDir) (hdisk : c'.disk = c.disk) : Still c c' :=
  ⟨hactive, hdir, hdisk ▸ Extends.refl _⟩

theorem Still.trans (h : Still c c') (h' : Still c' c'') : Still c c'' :=
  ⟨h'.activeReceiver.trans h.activeReceiver, h'.stagingDir.trans h.stagingDir, h.disk.trans h'.disk⟩

instance : IsPreorder TransferClient Still where
  refl := fun _ ↦ still_of_eq rfl rfl rfl
  trans := fun _ _ _ ↦ Still.trans

theorem Apart.still (h : Apart c c') : Still c c' := still_of_eq h.activeReceiver h.stagingDir h.disk

theorem partFile_eq (hdir : c'.stagingDir = c.stagingDir) (b : Text) : c'.partFile b = c.partFile b := by
  rw [partFile, partFile, hdir]

theorem Still.part (h : Still c c') {b : Text} (hthere : c.disk.Exists (c.partFile b)) :
    c'.disk.nodes (c'.partFile b) = c.disk.nodes (c.partFile b) := by
  rw [partFile_eq h.stagingDir]
  exact h.disk _ hthere

theorem Still.exists (h : Still c c') {b : Text} (hthere : c.disk.Exists (c.partFile b)) :
    c'.disk.Exists (c'.partFile b) := by
  unfold Disk.Exists
  rwa [h.part hthere]

theorem Quits.of_still (h : Still c c') (h' : Quits c' c'') : Quits c c'' where
  activeReceiver := h'.activeReceiver
  stagingDir := h'.stagingDir.trans h.stagingDir
  parts := by
    intro b hforeign hthere
    have hsame := h.part hthere
    have hforeign' : c'.Foreign b := by
      unfold Foreign
      rwa [h.activeReceiver]
    rw [← hsame, ← partFile_eq h.stagingDir]
    exact h'.parts b hforeign' (h.exists hthere)

theorem Quits.still (h : Quits c c') (h' : Still c' c'') : Quits c c'' where
  activeReceiver := h'.activeReceiver.trans h.activeReceiver
  stagingDir := h'.stagingDir.trans h.stagingDir
  parts := by
    intro b hforeign hthere
    have hsame := h.parts b hforeign hthere
    rw [← hsame]
    exact h'.disk _ (hsame ▸ hthere)

theorem Quits.trans (h : Quits c c') (h' : Quits c' c'') : Quits c c'' where
  activeReceiver := h'.activeReceiver
  stagingDir := h'.stagingDir.trans h.stagingDir
  parts := by
    intro b hforeign hthere
    have hsame := h.parts b hforeign hthere
    have hforeign' : c'.Foreign b := by
      intro receiver hreceiver
      rw [h.activeReceiver] at hreceiver
      exact nomatch hreceiver
    have hpart := partFile_eq h.stagingDir b
    have hthere' : c'.disk.Exists (c'.partFile b) := by
      unfold Disk.Exists
      rwa [hpart, hsame]
    rw [← hsame, ← hpart]
    exact h'.parts b hforeign' hthere'

instance : IsPreorder TransferClient Ends where
  refl := fun c ↦ .inl (refl_of Still c)
  trans := by
    rintro c c' c'' (hstill | hquits) (hstill' | hquits')
    · exact .inl (hstill.trans hstill')
    · exact .inr (hquits'.of_still hstill)
    · exact .inr (hquits.still hstill')
    · exact .inr (hquits.trans hquits')

/-- What works on the receiver of every transfer leaves foreign staging files alone. -/
theorem parts_of_within (h : ∀ a, Within a c c') (b : Text) (hforeign : c.Foreign b) :
    c'.disk.nodes (c.partFile b) = c.disk.nodes (c.partFile b) := by
  cases hactive : c.activeReceiver with
  | none =>
    -- without a receiver any other identifier will do
    have hof : c.ReceiverOf (b ++ [0]) := by
      intro receiver hreceiver
      rw [hactive] at hreceiver
      exact nomatch hreceiver
    exact ((h _ hof).2).nodes b (by simp)
  | some receiver =>
    have hof : c.ReceiverOf receiver.metadata.transferId := by
      intro other hother
      rw [hactive] at hother
      rw [Option.some.inj hother]
    exact ((h _ hof).2).nodes b (hforeign receiver hactive).symm

theorem quits_of_within (h : ∀ a, Within a c c') (hactive : c'.activeReceiver = none)
    (hdir : c'.stagingDir = c.stagingDir) : Quits c c' :=
  ⟨hactive, hdir, fun b hforeign _ ↦ parts_of_within h b hforeign⟩

end Relations

/-! ### Functions that end the receiver -/

section Ending

theorem still_sendEncryptedMessage (reply : ClientReply) : Stays Still (sendEncryptedMessage reply) :=
  (apart_sendEncryptedMessage reply).mono fun _ _ h ↦ h.still

theorem still_update {f : TransferClient → TransferClient}
    (hactive : ∀ c, (f c).activeReceiver = c.activeReceiver) (hdir : ∀ c, (f c).stagingDir = c.stagingDir)
    (hdisk : ∀ c, (f c).disk = c.disk) : Stays Still (update f) :=
  stays_modify fun c ↦ still_of_eq (hactive c) (hdir c) (hdisk c)

theorem ends_of_still {α : Type} {m : Action α} (h : Stays Still m) : Stays Ends m :=
  h.mono fun _ _ ↦ .inl

theorem still_completeResume (value : Bool) : Stays Still (completeResume value) :=
  still_update (fun _ ↦ rfl) (fun _ ↦ rfl) fun _ ↦ rfl

theorem cancelActive_effect (c : TransferClient) :
    wp cancelActive (fun r c' ↦ r = .ok () ∧ c'.stagingDir = c.stagingDir) c := by
  unfold cancelActive
  rw [wp_get_bind]
  cases c.activeReceiver with
  | none => exact ⟨rfl, rfl⟩
  | some receiver =>
    obtain ⟨u, hu⟩ := succeeds_cancel ⟨c.disk, receiver⟩
    exact ⟨hu, rfl⟩

theorem quits_cancelReceiver (c : TransferClient) : wp cancelReceiver (fun _ c' ↦ Quits c c') c := by
  have hnone : wp cancelReceiver (fun _ c' ↦ c'.activeReceiver = none ∧ c'.stagingDir = c.stagingDir) c := by
    apply wp_bind_of (cancelActive_effect c)
    · exact fun _ _ h ↦ (nomatch h.1)
    · exact fun _ _ h ↦ ⟨rfl, h.2⟩
  have hwithin : wp cancelReceiver (fun _ c' ↦ ∀ a, Within a c c') c :=
    fun a ↦ within_cancelReceiver c
  apply wp_mono (wp_and hnone hwithin)
  exact fun _ _ h ↦ quits_of_within h.2 h.1.1 h.1.2

theorem ends_cancelReceiver : Stays Ends cancelReceiver :=
  fun c ↦ wp_mono (quits_cancelReceiver c) fun _ _ ↦ .inr

theorem ends_onTransferCancel (transferId : Text) : Stays Ends (onTransferCancel transferId) := by
  apply stays_get_bind
  intro c
  have hmarked : Stays Ends (markHandled transferId) :=
    (apart_markHandled transferId).mono fun _ _ h ↦ .inl h.still
  exact stays_ite _ (stays_pure ()) (stays_bind hmarked fun _ ↦ ends_cancelReceiver) c

theorem ends_abandonResume : Stays Ends abandonResume :=
  stays_bind (ends_of_still (still_update (fun _ ↦ rfl) (fun _ ↦ rfl) fun _ ↦ rfl)) fun _ ↦ ends_cancelReceiver

theorem ends_decideIncoming (metadata : Kotlin.TransferMetadata) (accepted : Bool) :
    Stays Ends (decideIncoming metadata accepted) :=
  stays_bind (ends_of_still (still_update (fun _ ↦ rfl) (fun _ ↦ rfl) fun _ ↦ rfl)) fun _ ↦
    stays_ite _ (ends_of_still (still_sendEncryptedMessage _))
      (stays_bind ends_cancelReceiver fun _ ↦ (ends_of_still (still_sendEncryptedMessage _)))

theorem ends_cancelIncomingTransfer (transferId : Option Text) :
    Stays Ends (cancelIncomingTransfer transferId) := by
  apply stays_get_bind
  intro c
  cases (c.activeReceiverMeta.map Kotlin.TransferMetadata.transferId).or transferId with
  | none => exact stays_pure () c
  | some currentId =>
    exact stays_bind ends_cancelReceiver
      (fun _ ↦ stays_tryCatch (ends_of_still (still_sendEncryptedMessage _)) fun _ ↦ stays_pure ()) c

theorem ends_runWaiting (c : TransferClient) (index : ℕ) (timedOut : Bool) :
    Ends c (c.runWaiting index timedOut) := by
  have hdecide (metadata : Kotlin.TransferMetadata) (value : Bool) : Ends c
      (decideIncoming metadata value { c with waiting := c.waiting.eraseIdx index }).2 := by
    have hdropped : Ends c { c with waiting := c.waiting.eraseIdx index } :=
      .inl (still_of_eq rfl rfl rfl)
    exact trans_of Ends hdropped (ends_decideIncoming metadata value _)
  unfold runWaiting
  split
  · exact refl_of Ends c
  · next k metadata _ =>
    dsimp only
    split
    · exact hdecide metadata false
    · exact hdecide metadata _
    · exact refl_of Ends c

theorem ends_runResuming (c : TransferClient) (index : ℕ) (timedOut : Bool) :
    Ends c (c.runResuming index timedOut) := by
  have hdropped : Ends c { c with resuming := c.resuming.eraseIdx index } :=
    .inl (still_of_eq rfl rfl rfl)
  unfold runResuming
  split
  · exact refl_of Ends c
  · dsimp only
    split
    · exact trans_of Ends hdropped (ends_abandonResume _)
    · exact hdropped
    · exact refl_of Ends c

end Ending

/-! ### Chunks -/

section Chunks

variable {c c' : TransferClient} {receiver : FerryTransferReceiver} {data : Bytes}

/-- A function of the active receiver leaves foreign staging files alone. -/
theorem foreign_onReceiver {α : Type} {m : FerryTransferReceiver.Method α} (hm : Stays Contained m)
    (hactive : c.activeReceiver = some receiver) :
    wp (onReceiver receiver m) (fun _ c' ↦ ∀ b, c.Foreign b →
      c'.disk.nodes (c.partFile b) = c.disk.nodes (c.partFile b)) c := by
  have hwithin : wp (onReceiver receiver m) (fun _ c' ↦ ∀ a, Within a c c') c :=
    fun a ↦ within_onReceiver hm hactive
  exact wp_mono hwithin fun _ _ h b ↦ parts_of_within h b

/-- The active receiver has taken a chunk. -/
structure Fed (receiver : FerryTransferReceiver) (data : Bytes) (c c' : TransferClient) : Prop where
  live : receiver.state.Live
  activeReceiver : c'.activeReceiver = some (receiver.fed data)
  stagingDir : c'.stagingDir = c.stagingDir
  parts : ∀ b, c.Foreign b → c'.disk.nodes (c.partFile b) = c.disk.nodes (c.partFile b)
  part : c'.disk.nodes receiver.tempFile = some (.file (c.disk.content receiver.tempFile ++ data))

theorem onReceiver_receiveChunk (hactive : c.activeReceiver = some receiver) (transferId : Text) (seq : ℤ)
    (data : Bytes) : wp (onReceiver receiver (receiveChunk transferId seq data))
      (fun r c' ↦ c'.stagingDir = c.stagingDir ∧ (r = .ok () → Fed receiver data c c')) c := by
  have hok := receiveChunk_ok transferId seq data ⟨c.disk, receiver⟩
  have hforeign := foreign_onReceiver (contained_receiveChunk transferId seq data) hactive
  refine ⟨rfl, fun hr ↦ ?_⟩
  obtain ⟨hlive, hself, hnodes⟩ := hok hr
  exact ⟨hlive, congrArg some hself, rfl, hforeign, hnodes⟩

/-- What is noted of a request does not matter here. -/
theorem Fed.noted (h : Fed receiver data c c') (note : RequestRecord → RequestRecord) :
    Fed receiver data c { c' with request := c'.request.map note } :=
  ⟨h.live, h.activeReceiver, h.stagingDir, h.parts, h.part⟩

theorem writeChunk_effect (plaintext : Bytes) (c : TransferClient) :
    wp (writeChunk plaintext) (fun r c' ↦ c'.stagingDir = c.stagingDir ∧ (r = .ok () → Still c c' ∨
      ∃ transferId seq data receiver, Kotlin.decodeChunkFrame plaintext = .ok (transferId, seq, data) ∧
        c.activeReceiver = some receiver ∧ Fed receiver data c c')) c := by
  unfold writeChunk
  rw [wp_ofResult_bind]
  refine ⟨fun _ _ ↦ ⟨rfl, nofun⟩, fun chunk hchunk ↦ ?_⟩
  obtain ⟨transferId, seq, data⟩ := chunk
  rw [wp_get_bind]
  cases hactive : c.activeReceiver with
  | none => exact ⟨rfl, fun _ ↦ .inl (refl_of Still c)⟩
  | some receiver =>
    apply wp_bind_of (onReceiver_receiveChunk hactive transferId seq data)
    · exact fun _ _ h ↦ ⟨h.1, nofun⟩
    · intro u c' h
      exact ⟨h.1, fun _ ↦ .inr ⟨transferId, seq, data, receiver, hchunk, rfl, (h.2 rfl).noted _⟩⟩

/-- A chunk is appended, or leaves the receiver alone, or ends it. -/
theorem onChunkReceived_effect (plaintext : Bytes) (c : TransferClient) :
    wp (onChunkReceived plaintext) (fun _ c' ↦ Ends c c' ∨
      ∃ transferId seq data receiver, Kotlin.decodeChunkFrame plaintext = .ok (transferId, seq, data) ∧
        c.activeReceiver = some receiver ∧ Fed receiver data c c') c := by
  have hwithin : wp (onChunkReceived plaintext) (fun _ c' ↦ ∀ a, Within a c c') c :=
    fun a ↦ within_onChunkReceived plaintext c
  have hends : wp (onChunkReceived plaintext) (fun _ c' ↦
      c'.activeReceiver = none ∧ c'.stagingDir = c.stagingDir ∨ Still c c' ∨
        ∃ transferId seq data receiver, Kotlin.decodeChunkFrame plaintext = .ok (transferId, seq, data) ∧
          c.activeReceiver = some receiver ∧ Fed receiver data c c') c := by
    apply wp_tryCatch_of (writeChunk_effect plaintext c)
    · intro e c' h
      apply wp_mono (quits_cancelReceiver c')
      exact fun _ _ hquits ↦ .inl ⟨hquits.activeReceiver, hquits.stagingDir.trans h.1⟩
    · exact fun u c' h ↦ .inr (h.2 rfl)
  apply wp_mono (wp_and hwithin hends)
  rintro _ c' ⟨hparts, ⟨hactive, hdir⟩ | hstill | hfed⟩
  · exact .inl (.inr (quits_of_within hparts hactive hdir))
  · exact .inl (.inl hstill)
  · exact .inr hfed

/-- A chunk that the active receiver takes. -/
theorem onChunkReceived_fed {plaintext : Bytes} {transferId : Text} {seq : ℤ}
    (hchunk : Kotlin.decodeChunkFrame plaintext = .ok (transferId, seq, data))
    (hactive : c.activeReceiver = some receiver)
    (htakes : Takes ⟨c.disk, receiver⟩ transferId seq data) :
    wp (onChunkReceived plaintext) (fun _ c' ↦ Fed receiver data c c') c := by
  have hreceived : wp (onReceiver receiver (receiveChunk transferId seq data))
      (fun r c' ↦ r = .ok () ∧ Fed receiver data c c') c := by
    have hok : wp (onReceiver receiver (receiveChunk transferId seq data)) (fun r _ ↦ r = .ok ()) c :=
      receiveChunk_succeeds htakes
    apply wp_mono (wp_and hok (onReceiver_receiveChunk hactive transferId seq data))
    exact fun _ _ h ↦ ⟨h.1, h.2.2 h.1⟩
  apply wp_tryCatch_of (P := fun r c' ↦ r = .ok () ∧ Fed receiver data c c')
  · unfold writeChunk
    rw [hchunk, wp_ofResult_bind]
    refine ⟨nofun, fun chunk hdecoded ↦ ?_⟩
    obtain rfl := Except.ok.inj hdecoded
    rw [wp_get_bind, hactive]
    apply wp_bind_of hreceived
    · exact fun _ _ h ↦ (nomatch h.1)
    · exact fun u c' h ↦ ⟨rfl, h.2.noted _⟩
  · exact fun _ _ h ↦ (nomatch h.1)
  · exact fun _ _ h ↦ h.2

end Chunks

/-! ### Resuming -/

section Resuming

variable {c c' : TransferClient} {receiver : FerryTransferReceiver}

/-- The active receiver resumes from its staging file. -/
structure Resumed (receiver : FerryTransferReceiver) (c c' : TransferClient) : Prop where
  waits : receiver.state.Waits
  stagingDir : c'.stagingDir = c.stagingDir
  disk : c'.disk.nodes = c.disk.nodes
  activeReceiver : ∃ resumed, c'.activeReceiver = some resumed ∧
    resumed.metadata = receiver.metadata ∧ resumed.state = .resuming ∧
      c.disk.Exists receiver.tempFile ∧ (c.disk.Reliable .stat → ∀ data,
        c.disk.nodes receiver.tempFile = some (.file data) → resumed.bytesReceived = data.length)

theorem onReceiver_resume (c : TransferClient) (receiver : FerryTransferReceiver) (chunkIndex : ℤ) :
    wp (onReceiver receiver (resume chunkIndex)) (fun r c' ↦ c'.stagingDir = c.stagingDir ∧
      (r = .ok () → Resumed receiver c c')) c := by
  have hok := resume_ok chunkIndex ⟨c.disk, receiver⟩
  have hsame := contained_resume chunkIndex ⟨c.disk, receiver⟩
  have hnodes := resume_nodes chunkIndex ⟨c.disk, receiver⟩
  refine ⟨rfl, fun hr ↦ ?_⟩
  obtain ⟨hwaits, hstate, hthere, hsize⟩ := hok hr
  exact ⟨hwaits, rfl, hnodes, _, rfl, hsame.metadata, hstate, hthere, hsize⟩

theorem Resumed.completed (h : Resumed receiver c c') {answers : List (Option Bool)}
    {pending : Option ℕ} : Resumed receiver c
      { c' with resumeAnswers := answers, pendingResumeAccept := pending } :=
  ⟨h.waits, h.stagingDir, h.disk, h.activeReceiver⟩

/-- TRANSFER_RESUME_ACCEPT for the active receiver resumes it or ends it. -/
theorem onResumeAccept_effect (hc : c.Coherent) (hactive : c.activeReceiver = some receiver)
    (chunkIndex : ℤ) : wp (onResumeAccept receiver.metadata.transferId chunkIndex)
      (fun _ c' ↦ Quits c c' ∨ Resumed receiver c c') c := by
  have hwithin : wp (onResumeAccept receiver.metadata.transferId chunkIndex)
      (fun _ c' ↦ ∀ a, Within a c c') c := fun a ↦ within_onResumeAccept _ chunkIndex c
  have hmeta : c.activeReceiverMeta.map Kotlin.TransferMetadata.transferId =
      some receiver.metadata.transferId := by rw [hc.metadata, hactive]; rfl
  have heither : wp (onResumeAccept receiver.metadata.transferId chunkIndex) (fun _ c' ↦
      c'.activeReceiver = none ∧ c'.stagingDir = c.stagingDir ∨ Resumed receiver c c') c := by
    unfold onResumeAccept
    rw [wp_get_bind, hactive]
    dsimp only
    rw [if_pos hmeta]
    apply wp_tryCatch_of (P := fun r c' ↦ c'.stagingDir = c.stagingDir ∧
      (r = .ok () → Resumed receiver c c'))
    · apply wp_bind_of (onReceiver_resume c receiver chunkIndex)
      · exact fun _ _ h ↦ ⟨h.1, nofun⟩
      · exact fun u c' h ↦ ⟨h.1, fun _ ↦ (h.2 rfl).completed⟩
    · intro e c' h
      have hrest : wp (do cancelReceiver; completeResume false : Action Unit)
          (fun _ c'' ↦ Quits c' c'') c' := by
        apply wp_bind_of (quits_cancelReceiver c')
        · exact fun _ _ hquits ↦ hquits
        · exact fun _ c'' hquits ↦ hquits.still (still_completeResume false c'')
      apply wp_mono hrest
      exact fun _ _ hquits ↦ .inl ⟨hquits.activeReceiver, hquits.stagingDir.trans h.1⟩
    · exact fun u c' h ↦ .inr (h.2 rfl)
  apply wp_mono (wp_and hwithin heither)
  rintro _ c' ⟨hparts, ⟨hnone, hdir⟩ | hresumed⟩
  · exact .inl (quits_of_within hparts hnone hdir)
  · exact .inr hresumed

/-- A receiver that waits with its staging file resumes. -/
theorem onResumeAccept_resumed (hc : c.Coherent) (hactive : c.activeReceiver = some receiver)
    (hwaits : receiver.state.Waits) (hfile : c.disk.IsFile receiver.tempFile)
    (hstat : c.disk.Reliable .stat) (chunkIndex : ℤ) :
    wp (onResumeAccept receiver.metadata.transferId chunkIndex) (fun _ c' ↦ Resumed receiver c c') c := by
  have hmeta : c.activeReceiverMeta.map Kotlin.TransferMetadata.transferId =
      some receiver.metadata.transferId := by rw [hc.metadata, hactive]; rfl
  have hresumed : wp (onReceiver receiver (resume chunkIndex))
      (fun r c' ↦ r = .ok () ∧ Resumed receiver c c') c := by
    have hok : wp (onReceiver receiver (resume chunkIndex)) (fun r _ ↦ r = .ok ()) c :=
      @resume_succeeds ⟨c.disk, receiver⟩ chunkIndex hwaits hfile hstat
    apply wp_mono (wp_and hok (onReceiver_resume c receiver chunkIndex))
    exact fun _ _ h ↦ ⟨h.1, h.2.2 h.1⟩
  unfold onResumeAccept
  rw [wp_get_bind, hactive]
  dsimp only
  rw [if_pos hmeta]
  apply wp_tryCatch_of (P := fun r c' ↦ r = .ok () ∧ Resumed receiver c c')
  · apply wp_bind_of hresumed
    · exact fun _ _ h ↦ (nomatch h.1)
    · exact fun u c' h ↦ ⟨rfl, h.2.completed⟩
  · exact fun _ _ h ↦ (nomatch h.1)
  · exact fun _ _ h ↦ h.2

/-- The receiver that `requestResume` rebuilds waits for the peer. -/
structure Asked (metadata : Kotlin.TransferMetadata) (c c' : TransferClient) : Prop where
  stagingDir : c'.stagingDir = c.stagingDir
  disk : Extends c.disk c'.disk
  activeReceiver : ∃ receiver, c'.activeReceiver = some receiver ∧ receiver.metadata = metadata ∧
    ¬receiver.state.Live

/-- `interrupt` leaves a receiver that takes no chunks, and the disk. -/
theorem interrupt_effect (w : ReceiverWorld) :
    ¬(interrupt w).2.self.state.Live ∧ (interrupt w).2.disk = w.disk := by
  rw [interrupt_run]
  by_cases hlive : w.self.state.Live
  · rw [if_pos hlive]
    exact ⟨nofun, rfl⟩
  · rw [if_neg hlive]
    exact ⟨hlive, rfl⟩

/-- The request for the rest of a transfer is sent, or its write fails and the receiver is gone. -/
theorem askPeer_effect (record : InterruptedRecord) (partialSha256 : Text) (c : TransferClient) :
    wp (askPeer record partialSha256) (fun r c' ↦ r = .ok () ∧
      (Still c c' ∨ c.sendFaults.headD false = true ∧ Quits c c')) c := by
  unfold askPeer
  rw [wp_update_bind]
  have hsent : wp (do
      sendEncryptedMessage (.transferResumeRequest record.transferId record.resumeChunkIndex
        record.bytesReceived partialSha256)
      update fun client ↦ { client with
        resuming := client.resuming ++ [client.resumeAnswers.length - 1] } : Action Unit)
      (fun r c' ↦ Still c c' ∧ ∀ e, r = .error e → c.sendFaults.headD false = true) { c with
        resumeAnswers := c.resumeAnswers ++ [none]
        pendingResumeAccept := some c.resumeAnswers.length } := by
    apply wp_bind_of (sendEncryptedMessage_spec _ _)
    · intro e c' h
      exact ⟨⟨h.1.activeReceiver, h.1.stagingDir, h.1.disk ▸ Extends.refl _⟩, fun _ _ ↦ h.2 e rfl⟩
    · intro u c' h
      exact ⟨⟨h.1.activeReceiver, h.1.stagingDir, h.1.disk ▸ Extends.refl _⟩, nofun⟩
  apply wp_tryCatch_of hsent
  · intro e c' h
    apply wp_bind_of (wp_and (succeeds_cancelReceiver c') (quits_cancelReceiver c'))
    · rintro e _ ⟨⟨_, he⟩, -⟩
      exact nomatch he
    · intro _ c'' hquits
      refine ⟨rfl, .inr ⟨h.2 e rfl, ?_⟩⟩
      exact (hquits.2.of_still h.1).still (still_of_eq rfl rfl rfl)
  · exact fun u c' h ↦ ⟨rfl, .inl h.1⟩

/-- What `begin` leaves of a new receiver, on a disk with nothing or an empty file at its path. -/
structure Begun (metadata : Kotlin.TransferMetadata) (c c' : TransferClient)
    (begun : FerryTransferReceiver) : Prop where
  metadata_eq : begun.metadata = metadata
  state : begun.state = .transferring
  bytesReceived : begun.bytesReceived = 0
  part : c.disk.nodes (c.partFile metadata.transferId) = none →
    c'.disk.nodes (c.partFile metadata.transferId) = some (.file [])

theorem onNewReceiver_begin_effect (metadata : Kotlin.TransferMetadata) (c : TransferClient) :
    wp (onNewReceiver (FerryTransferReceiver.new metadata c.stagingDir) FerryTransferReceiver.begin)
      (fun r c' ↦ Still c c' ∧ c'.sendFaults = c.sendFaults ∧
        c'.connectedPeerStaticB64 = c.connectedPeerStaticB64 ∧
        ∃ outcome begun, r = .ok (outcome, begun) ∧ begun.metadata = metadata ∧
          (outcome = .ok () → Begun metadata c c' begun)) c := by
  set w : ReceiverWorld := ⟨c.disk, FerryTransferReceiver.new metadata c.stagingDir⟩ with hw
  have hextends := begin_extends w
  have hmetadata := ((onNewReceiver_begin metadata c).2.2 _ rfl).1
  have hspec := begin_spec w (stagingFile_notMem_inits metadata c.stagingDir)
  have hok := begin_ok w
  refine ⟨⟨rfl, rfl, hextends⟩, rfl, rfl, _, _, rfl, hmetadata, fun hreturns ↦ ?_⟩
  have hself := hok hreturns
  refine ⟨hmetadata, ?_, ?_, fun hnone ↦ ?_⟩
  · exact congrArg FerryTransferReceiver.state hself
  · exact congrArg FerryTransferReceiver.bytesReceived hself
  · rcases hspec.2 with hsame | ⟨-, -, hnodes, hended⟩
    · exact nomatch (congrArg (fun w ↦ w.self.state) hsame).symm.trans
        (congrArg FerryTransferReceiver.state hself)
    · rcases hended with ⟨-, hfailed⟩ | ⟨-, hthere⟩
      · exact nomatch hfailed.symm.trans (congrArg FerryTransferReceiver.state hself)
      · rcases hnodes with hkept | ⟨-, hcreated⟩
        · exact absurd (hkept.trans hnone) hthere
        · exact hcreated

/-- What `interrupt` leaves of a receiver that is not active. -/
theorem onNewReceiver_interrupt_effect (receiver : FerryTransferReceiver) (c : TransferClient) :
    wp (onNewReceiver receiver FerryTransferReceiver.interrupt) (fun r c' ↦ Still c c' ∧
      c'.sendFaults = c.sendFaults ∧ ∃ outcome interrupted, r = .ok (outcome, interrupted) ∧
        interrupted.metadata = receiver.metadata ∧ ¬interrupted.state.Live) c := by
  obtain ⟨hlive, hdisk⟩ := interrupt_effect ⟨c.disk, receiver⟩
  have hsame := (contained_interrupt ⟨c.disk, receiver⟩).metadata
  exact ⟨still_of_eq rfl rfl hdisk, rfl, _, _, rfl, hsame, hlive⟩

/-- The active receiver is gone, and the staging files of other transfers than `a` stay. -/
structure Gone (a : Text) (c c' : TransferClient) : Prop where
  activeReceiver : c'.activeReceiver = none
  stagingDir : c'.stagingDir = c.stagingDir
  parts : ∀ b, b ≠ a → c.disk.Exists (c.partFile b) →
    c'.disk.nodes (c.partFile b) = c.disk.nodes (c.partFile b)

theorem Gone.of_still {a : Text} {c c' c'' : TransferClient} (h : Still c c') (h' : Gone a c' c'') :
    Gone a c c'' where
  activeReceiver := h'.activeReceiver
  stagingDir := h'.stagingDir.trans h.stagingDir
  parts := by
    intro b hb hthere
    rw [← h.part hthere, ← partFile_eq h.stagingDir]
    exact h'.parts b hb (h.exists hthere)

/-- A receiver of `a` that quits. -/
theorem Quits.gone {a : Text} {c c' : TransferClient} (h : Quits c c')
    (hactive : ∀ receiver ∈ c.activeReceiver, receiver.metadata.transferId = a) : Gone a c c' := by
  refine ⟨h.activeReceiver, h.stagingDir, fun b hb hthere ↦ h.parts b ?_ hthere⟩
  intro receiver hreceiver heq
  exact hb (heq.symm.trans (hactive receiver hreceiver))

theorem Asked.of_still {metadata : Kotlin.TransferMetadata} {c c' c'' : TransferClient} (h : Still c c')
    (h' : Asked metadata c' c'') : Asked metadata c c'' :=
  ⟨h'.stagingDir.trans h.stagingDir, h.disk.trans h'.disk, h'.activeReceiver⟩

/-- The receiver that was rebuilt waits for the peer, or the request cannot be written. -/
def Rebuilt (metadata : Kotlin.TransferMetadata) (c c' : TransferClient) : Prop :=
  Asked metadata c c' ∨ c.sendFaults.headD false = true ∧ Gone metadata.transferId c c'

theorem rebuildReceiver_effect (record : InterruptedRecord) (metadata : Kotlin.TransferMetadata)
    (partialSha256 : Text) (c : TransferClient) :
    wp (rebuildReceiver record metadata partialSha256) (fun r c' ↦ r = .ok () ∧ Rebuilt metadata c c') c := by
  unfold rebuildReceiver
  rw [wp_get_bind]
  apply wp_bind_of (onNewReceiver_begin_effect metadata c)
  · rintro e _ ⟨-, -, -, _, _, he, -⟩
    exact nomatch he
  rintro _ c₁ ⟨hstill, hfaults, -, outcome, begun, ⟨⟩, hmetadata, -⟩
  apply wp_bind_of (onNewReceiver_interrupt_effect begun c₁)
  · rintro e _ ⟨-, -, _, _, he, -⟩
    exact nomatch he
  rintro _ c₂ ⟨hstill', hfaults', _, interrupted, ⟨⟩, hsame, hlive⟩
  have hwhole := hstill.trans hstill'
  rw [wp_update_bind]
  have hmeta : interrupted.metadata = metadata := hsame.trans hmetadata
  set installed : TransferClient := { c₂ with
    activeReceiver := some interrupted
    activeReceiverMeta := some metadata
    request := none } with hinstalled
  apply wp_mono (askPeer_effect record partialSha256 installed)
  rintro r c' ⟨hr, hasked | ⟨hfault, hquits⟩⟩
  · refine ⟨hr, .inl ⟨hasked.stagingDir.trans hwhole.stagingDir, hwhole.disk.trans hasked.disk, _,
      hasked.activeReceiver, hmeta, hlive⟩⟩
  · have hgone : Gone metadata.transferId installed c' := by
      apply hquits.gone
      intro receiver hreceiver
      obtain rfl : interrupted = receiver := Option.some.inj hreceiver
      rw [hmeta]
    have hfault' : c.sendFaults.headD false = true := by rw [← hfaults, ← hfaults', ← hfault]
    refine ⟨hr, .inr ⟨hfault', ?_⟩⟩
    exact Gone.of_still hwhole ⟨hgone.activeReceiver, hgone.stagingDir, hgone.parts⟩

theorem fromMap_error {now : ℤ} {data : String → Kotlin.MapValue} {e : KotlinException}
    (h : Kotlin.TransferMetadata.fromMap now data = .error e) : ∃ message, e = .illegalArgument message := by
  simp only [Kotlin.TransferMetadata.fromMap, bind_eq_error, rejectIf_eq_error] at h
  iterate 8
    rcases h with ⟨-, rfl⟩ | ⟨-, -, h⟩
    · exact ⟨_, rfl⟩
  cases h

/-- `requestResume` misses only a file that the disk does not show. -/
theorem requestResume_effect (now : ℤ) (record : InterruptedRecord) (c : TransferClient) :
    wp (requestResume now record) (fun r c' ↦
      (r = .error .fileNotFound → JavaFile.reports c.disk (c.partFile record.transferId) = false) ∧
      (Still c c' ∨ ∃ metadata, Kotlin.TransferMetadata.fromMap now record.originalMetadata = .ok metadata ∧
        Rebuilt metadata c c')) c := by
  unfold requestResume
  rw [wp_ofResult_bind]
  refine ⟨fun e he ↦ ⟨?_, .inl (refl_of Still c)⟩, fun metadata hmetadata ↦ ?_⟩
  · rintro ⟨⟩
    obtain ⟨message, hmessage⟩ := fromMap_error he
    exact nomatch hmessage
  rw [wp_get_bind]
  have hqueried : wp (onDisk (JavaFile.fileExists (c.partFile record.transferId))) (fun r c' ↦
      r = .ok (JavaFile.reports c.disk (c.partFile record.transferId)) ∧ Still c c' ∧
      c'.sendFaults = c.sendFaults) c := ⟨rfl, ⟨rfl, rfl, fun _ _ ↦ rfl⟩, rfl⟩
  apply wp_bind_of hqueried
  · exact fun _ _ h ↦ (nomatch h.1)
  rintro _ c₁ ⟨⟨⟩, hstill, hfaults⟩
  rw [wp_raiseIf_bind]
  refine ⟨fun hmissing ↦ ⟨fun _ ↦ hmissing, .inl hstill⟩, fun _ ↦ ?_⟩
  have hread : wp (onDisk (Disk.readBlocks (c.partFile record.transferId))) (fun r c' ↦
      (∃ read, r = .ok read) ∧ Still c₁ c' ∧ c'.sendFaults = c₁.sendFaults) c₁ := by
    have hnodes := (readBlocks_spec (c.partFile record.transferId) c₁.disk).1
    obtain ⟨⟨read, e, hread, -⟩, -⟩ := JavaFile.readFile_spec (c.partFile record.transferId) c₁.disk
    refine ⟨⟨(read, e), ?_⟩, ⟨rfl, rfl, fun q _ ↦ congrFun hnodes q⟩, rfl⟩
    exact congrArg (Except.mapError KotlinException.ofIo) hread
  apply wp_bind_of hread
  · rintro e _ ⟨⟨_, he⟩, -⟩
    exact nomatch he
  rintro ⟨data, error⟩ c₂ ⟨-, hstill', hfaults'⟩
  have hwhole := hstill.trans hstill'
  rw [wp_raiseIf_bind]
  refine ⟨fun _ ↦ ⟨nofun, .inl hwhole⟩, fun _ ↦ ?_⟩
  apply wp_mono (rebuildReceiver_effect record metadata _ c₂)
  rintro r c' ⟨rfl, hrebuilt⟩
  refine ⟨nofun, .inr ⟨metadata, hmetadata, ?_⟩⟩
  rcases hrebuilt with hasked | ⟨hfault, hgone⟩
  · exact .inl (hasked.of_still hwhole)
  · exact .inr ⟨by rw [← hfaults, ← hfaults', ← hfault], hgone.of_still hwhole⟩

end Resuming

/-! ### Requests -/

section Requests

/-- A request for a transfer that is not refused at once. -/
def Admits (c : TransferClient) (fields : String → Kotlin.MapValue) : Prop :=
  let batchId := (fields "batch_id").textOr []
  (c.activeReceiver = none ∨ batchId ≠ [] ∧ c.activeBatchId = some batchId) ∧
    (batchId = [] ∨ c.activeBatchId = some batchId)

/-- A new receiver is the active one. -/
structure Opened (metadata : Kotlin.TransferMetadata) (c c' : TransferClient) : Prop where
  stagingDir : c'.stagingDir = c.stagingDir
  disk : Extends c.disk c'.disk
  part : c.disk.nodes (c.partFile metadata.transferId) = none →
    c'.disk.nodes (c.partFile metadata.transferId) = some (.file [])
  activeReceiver : ∃ receiver, c'.activeReceiver = some receiver ∧ receiver.metadata = metadata ∧
    receiver.state = .transferring ∧ receiver.bytesReceived = 0

/-- A request for a transfer opens a receiver, or leaves the active one as it is.  It raises only when
what the client sends first cannot be written. -/
structure Answers (now : ℤ) (fields : String → Kotlin.MapValue) (c c' : TransferClient) : Prop where
  key : c'.connectedPeerStaticB64 = c.connectedPeerStaticB64
  receiver : Still c c' ∨ ∃ metadata, Kotlin.TransferMetadata.fromMap now fields = .ok metadata ∧
    Opened metadata c c'

variable {now : ℤ} {fields : String → Kotlin.MapValue} {c c' c'' : TransferClient}

theorem Answers.still (h : Answers now fields c c') (hstill : Still c' c'')
    (hkey : c''.connectedPeerStaticB64 = c'.connectedPeerStaticB64) : Answers now fields c c'' where
  key := hkey.trans h.key
  receiver := by
    rcases h.receiver with hsame | ⟨metadata, hmetadata, hopened⟩
    · exact .inl (hsame.trans hstill)
    · obtain ⟨receiver, hactive, hreceiver⟩ := hopened.activeReceiver
      refine .inr ⟨metadata, hmetadata, hstill.stagingDir.trans hopened.stagingDir,
        hopened.disk.trans hstill.disk, fun hnone ↦ ?_, receiver, ?_, hreceiver⟩
      · have hpart := hopened.part hnone
        rw [← hpart]
        exact hstill.disk _ (hpart ▸ nofun)
      · exact hstill.activeReceiver.trans hactive

/-- A reply changes neither the receiver nor the key. -/
theorem sendEncryptedMessage_effect (reply : ClientReply) (c : TransferClient) :
    wp (sendEncryptedMessage reply) (fun r c' ↦ Still c c' ∧
      c'.connectedPeerStaticB64 = c.connectedPeerStaticB64 ∧
      ∀ e, r = .error e → c.sendFaults.headD false = true) c := by
  have hkey : wp (sendEncryptedMessage reply) (fun _ c' ↦
      c'.connectedPeerStaticB64 = c.connectedPeerStaticB64) c := by
    unfold sendEncryptedMessage
    rw [wp_get_bind, wp_update_bind, wp_raiseIf_bind]
    exact ⟨fun _ ↦ rfl, fun _ ↦ rfl⟩
  apply wp_mono (wp_and hkey (sendEncryptedMessage_spec reply c))
  exact fun _ _ h ↦ ⟨h.2.1.still, h.1, h.2.2⟩

theorem installReceiver_effect {metadata : Kotlin.TransferMetadata} {receiver : FerryTransferReceiver}
    (hbegun : Begun metadata c c' receiver) (hstill : Still c c') (isBatched : Bool) :
    wp (installReceiver metadata receiver isBatched) (fun r c'' ↦ Opened metadata c c'' ∧
      c''.connectedPeerStaticB64 = c'.connectedPeerStaticB64 ∧
      ∀ e, r = .error e → c'.sendFaults.headD false = true) c' := by
  have hopened {d : TransferClient} (hactive : d.activeReceiver = some receiver)
      (hdir : d.stagingDir = c'.stagingDir) (hdisk : Extends c'.disk d.disk) : Opened metadata c d := by
    refine ⟨hdir.trans hstill.stagingDir, hstill.disk.trans hdisk, fun hnone ↦ ?_, receiver, hactive,
      hbegun.metadata_eq, hbegun.state, hbegun.bytesReceived⟩
    have hpart := hbegun.part hnone
    rw [← hpart]
    exact hdisk _ (hpart ▸ nofun)
  unfold installReceiver
  rw [wp_update_bind, wp_get_bind, wp_ite]
  constructor
  · intro _
    unfold acceptAtOnce
    rw [wp_update_bind]
    apply wp_mono (sendEncryptedMessage_effect _ _)
    rintro r d ⟨hsent, hkey, hraises⟩
    exact ⟨hopened hsent.activeReceiver hsent.stagingDir hsent.disk, hkey, hraises⟩
  · intro _
    exact ⟨hopened rfl rfl (Extends.refl _), rfl, nofun⟩

theorem beginTransfer_effect (c : TransferClient) (isBatched : Bool) :
    wp (beginTransfer now fields isBatched) (fun r c' ↦ Answers now fields c c' ∧
      ∀ e, r = .error e → c'.sendFaults = c.sendFaults ∨ c.sendFaults.headD false = true) c := by
  unfold beginTransfer
  rw [wp_ofResult_bind]
  refine ⟨fun _ _ ↦ ⟨⟨rfl, .inl (refl_of Still c)⟩, fun _ _ ↦ .inl rfl⟩, fun metadata hmetadata ↦ ?_⟩
  rw [wp_get_bind]
  have hmade : wp (onDisk (JavaFile.mkdirs c.stagingDir)) (fun _ c' ↦ Still c c' ∧
      c'.sendFaults = c.sendFaults ∧ c'.connectedPeerStaticB64 = c.connectedPeerStaticB64 ∧
      c'.disk.nodes (c.partFile metadata.transferId) = c.disk.nodes (c.partFile metadata.transferId)) c := by
    have hkept := JavaFile.keeps_mkdirs (stagingFile_notMem_inits metadata c.stagingDir) c.disk
    exact ⟨⟨rfl, rfl, JavaFile.extends_mkdirs c.stagingDir c.disk⟩, rfl, rfl, hkept.nodes⟩
  apply wp_bind_of hmade
  · exact fun e c' h ↦ ⟨⟨h.2.2.1, .inl h.1⟩, fun _ _ ↦ .inl h.2.1⟩
  rintro _ c₁ ⟨hstill, hfaults, hkey, hpart⟩
  rw [← hstill.stagingDir]
  apply wp_bind_of (onNewReceiver_begin_effect metadata c₁)
  · rintro e _ ⟨-, -, -, _, _, he, -⟩
    exact nomatch he
  rintro _ c₂ ⟨hstill', hfaults', hkey', outcome, receiver, ⟨⟩, -, hbegun⟩
  have hwhole := hstill.trans hstill'
  have hsame : c₂.sendFaults = c.sendFaults := hfaults'.trans hfaults
  have hpeer : c₂.connectedPeerStaticB64 = c.connectedPeerStaticB64 := hkey'.trans hkey
  cases outcome with
  | error e =>
    dsimp only
    rw [wp_ite]
    constructor
    · intro _
      apply wp_mono (sendEncryptedMessage_effect _ c₂)
      rintro r c' ⟨hsent, hsentKey, hraises⟩
      exact ⟨⟨hsentKey.trans hpeer, .inl (hwhole.trans hsent)⟩,
        fun e he ↦ .inr (hsame ▸ hraises e he)⟩
    · exact fun _ ↦ ⟨⟨hpeer, .inl hwhole⟩, fun _ _ ↦ .inl hsame⟩
  | ok u =>
    obtain ⟨hmeta, hstate, hbytes, hcreated⟩ := hbegun rfl
    have hnew : Begun metadata c c₂ receiver := by
      refine ⟨hmeta, hstate, hbytes, fun hnone ↦ ?_⟩
      rw [← partFile_eq hstill.stagingDir]
      apply hcreated
      rw [partFile_eq hstill.stagingDir, hpart, hnone]
    apply wp_mono (installReceiver_effect hnew hwhole isBatched)
    rintro r c' ⟨hopened, hkept, hraises⟩
    exact ⟨⟨hkept.trans hpeer, .inr ⟨metadata, hmetadata, hopened⟩⟩,
      fun e he ↦ .inr (hsame ▸ hraises e he)⟩

/-- TRANSFER_REQUEST opens a receiver only when it is admitted, and raises only when the first reply
cannot be written. -/
theorem onTransferRequest_effect (c : TransferClient) :
    wp (onTransferRequest now fields) (fun r c' ↦ Answers now fields c c' ∧
      (¬c.Admits fields → Still c c') ∧
      ∀ e, r = .error e → c.sendFaults.headD false = true) c := by
  have hrefused (reply : ClientReply) : wp (sendEncryptedMessage reply) (fun r c' ↦
      Answers now fields c c' ∧ (¬c.Admits fields → Still c c') ∧
      ∀ e, r = .error e → c.sendFaults.headD false = true) c := by
    apply wp_mono (sendEncryptedMessage_effect reply c)
    exact fun r c' h ↦ ⟨⟨h.2.1, .inl h.1⟩, fun _ ↦ h.1, h.2.2⟩
  unfold onTransferRequest
  rw [wp_get_bind]
  dsimp only
  rw [wp_ite]
  refine ⟨fun _ ↦ hrefused _, fun hfree ↦ ?_⟩
  rw [wp_ite]
  refine ⟨fun _ ↦ hrefused _, fun hbatch ↦ ?_⟩
  have hadmits : c.Admits fields := by
    constructor
    · by_contra hnot
      obtain ⟨hactive, hother⟩ := not_or.mp hnot
      apply hfree
      rw [decide_eq_false hother, Option.isSome_iff_ne_none.mpr hactive]
      rfl
    · by_contra hnot
      exact hbatch (not_or.mp hnot)
  apply wp_tryCatch_of (beginTransfer_effect c _)
  · rintro e c₁ ⟨hanswers, hraises⟩
    apply wp_mono (sendEncryptedMessage_effect _ c₁)
    rintro r c' ⟨hsent, hkey, hraises'⟩
    refine ⟨hanswers.still hsent hkey, fun hnot ↦ absurd hadmits hnot, fun e' he' ↦ ?_⟩
    rcases hraises e rfl with hsame | hfault
    · exact hsame ▸ hraises' e' he'
    · exact hfault
  · exact fun u c' h ↦ ⟨h.1, fun hnot ↦ absurd hadmits hnot, nofun⟩

/-- BATCH_REQUEST raises only when its answer cannot be written. -/
theorem onBatchRequest_effect (batchId : Text) (totalItems : ℤ) (c : TransferClient) :
    wp (onBatchRequest batchId totalItems) (fun r c' ↦ Still c c' ∧
      c'.connectedPeerStaticB64 = c.connectedPeerStaticB64 ∧
      ∀ e, r = .error e → c.sendFaults.headD false = true) c := by
  unfold onBatchRequest
  rw [wp_ite]
  constructor
  · exact fun _ ↦ sendEncryptedMessage_effect _ c
  · intro _
    rw [wp_update_bind]
    apply wp_mono (sendEncryptedMessage_effect _ _)
    rintro r c' ⟨hstill, hkey, hraises⟩
    exact ⟨⟨hstill.activeReceiver, hstill.stagingDir, hstill.disk⟩, hkey, hraises⟩

end Requests

/-! ### The end of a transfer and of a session -/

section Sessions

variable {c : TransferClient} {receiver : FerryTransferReceiver}

/-- The staging files stay, but for that of the receiver and for the one that is replaced by its file. -/
structure Finalised (receiver : FerryTransferReceiver) (c c' : TransferClient) : Prop where
  stagingDir : c'.stagingDir = c.stagingDir
  parts : ∀ b, receiver.metadata.transferId ≠ b →
    (Sha256.hexdigest receiver.digest = Text.asciiLower receiver.metadata.sha256 →
      receiver.finalFile c.disk ≠ c.partFile b) →
    c'.disk.nodes (c.partFile b) = c.disk.nodes (c.partFile b)

theorem onReceiver_finalise_effect (hc : c.Coherent) (hactive : c.activeReceiver = some receiver) :
    wp (onReceiver receiver finalise) (fun r c' ↦ (∃ success, r = .ok success) ∧
      Finalised receiver c c') c := by
  refine ⟨?_, rfl, fun b hother hclear ↦ part_finalise hc hactive hother hclear⟩
  rcases (finalise_spec ⟨c.disk, receiver⟩).2.2 with ⟨hr, -⟩ | ⟨hr, -⟩
  · exact ⟨true, hr⟩
  · exact ⟨false, hr⟩

/-- TRANSFER_COMPLETE ends the active receiver, whatever transfer it names. -/
theorem onTransferComplete_effect (hc : c.Coherent) (hactive : c.activeReceiver = some receiver)
    {transferId : Text} (hnew : ¬c.Handled transferId) :
    wp (onTransferComplete transferId) (fun _ c' ↦ c'.activeReceiver = none ∧
      Finalised receiver c c') c := by
  unfold onTransferComplete
  rw [wp_get_bind, hactive]
  dsimp only
  rw [if_neg hnew]
  unfold completeTransfer markHandled
  rw [wp_update_bind]
  set marked : TransferClient := { c with
    handledTransferIds :=
      if transferId ≠ [] then transferId :: c.handledTransferIds else c.handledTransferIds } with hmarked
  have hcoherent : marked.Coherent := ⟨hc.metadata, hc.stagingDir⟩
  apply wp_bind_of (onReceiver_finalise_effect hcoherent hactive)
  · rintro e _ ⟨⟨_, he⟩, -⟩
    exact nomatch he
  rintro success c₁ ⟨-, hfinal⟩
  rw [wp_update_bind]
  unfold dropReceiver
  rw [wp_update_bind]
  apply wp_mono (apart_sendEncryptedMessage _ _)
  intro _ c' hapart
  refine ⟨hapart.activeReceiver, hapart.stagingDir.trans hfinal.stagingDir, fun b hother hclear ↦ ?_⟩
  rw [hapart.disk]
  exact hfinal.parts b hother hclear

theorem interruptActive_effect (c : TransferClient) :
    wp interruptActive (fun r c' ↦ r = .ok () ∧ c'.stagingDir = c.stagingDir) c := by
  unfold interruptActive
  rw [wp_get_bind]
  split
  · next receiver metadata _ _ =>
    have hinterrupted : wp (onReceiver receiver interrupt) (fun r c' ↦ (∃ n, r = .ok n) ∧
        c'.stagingDir = c.stagingDir) c := by
      refine ⟨?_, rfl⟩
      change ∃ n, (interrupt ⟨c.disk, receiver⟩).1 = .ok n
      rw [interrupt_run]
      split
      · exact ⟨_, rfl⟩
      · exact ⟨_, rfl⟩
    apply wp_bind_of hinterrupted
    · rintro e _ ⟨⟨_, he⟩, -⟩
      exact nomatch he
    · rintro interrupted c₁ ⟨-, hdir⟩
      rw [wp_ite]
      refine ⟨fun _ ↦ ⟨rfl, hdir⟩, fun _ ↦ ?_⟩
      apply wp_mono (cancelActive_effect c₁)
      exact fun _ _ h ↦ ⟨h.1, h.2.trans hdir⟩
  · exact cancelActive_effect c

/-- What a session interrupts stays on the disk, when the peer is known. -/
theorem interruptActive_live (hc : c.Coherent) (hactive : c.activeReceiver = some receiver)
    (hlive : receiver.state.Live) (hbytes : 0 ≤ receiver.bytesReceived)
    (hkey : Text.isBlank c.connectedPeerStaticB64 = false) :
    wp interruptActive (fun _ c' ↦ c'.disk = c.disk) c := by
  have hmeta : c.activeReceiverMeta = some receiver.metadata := by rw [hc.metadata, hactive]; rfl
  have hinterrupted : wp (onReceiver receiver interrupt) (fun r c' ↦ r = .ok receiver.bytesReceived ∧
      c'.disk = c.disk) c := by
    change (interrupt ⟨c.disk, receiver⟩).1 = _ ∧ (interrupt ⟨c.disk, receiver⟩).2.disk = c.disk
    rw [interrupt_run, if_pos hlive]
    exact ⟨rfl, rfl⟩
  unfold interruptActive
  rw [wp_get_bind, hactive, hmeta]
  apply wp_bind_of hinterrupted
  · exact fun _ _ h ↦ (nomatch h.1)
  · rintro _ c₁ ⟨⟨⟩, hdisk⟩
    rw [if_pos ⟨hbytes, hkey⟩]
    exact hdisk

/-- The end of a session drops the receiver, and never raises. -/
theorem quits_endLoop (c : TransferClient) : wp endLoop (fun r c' ↦ r = .ok () ∧ Quits c c') c := by
  have hwithin : wp endLoop (fun _ c' ↦ ∀ a, Within a c c') c := fun a ↦ within_endLoop c
  have hdropped : wp endLoop (fun r c' ↦ r = .ok () ∧ c'.activeReceiver = none ∧
      c'.stagingDir = c.stagingDir) c := by
    unfold endLoop
    rw [wp_update_bind]
    apply wp_bind_of (interruptActive_effect _)
    · exact fun _ _ h ↦ (nomatch h.1)
    · exact fun _ _ h ↦ ⟨rfl, rfl, h.2⟩
  apply wp_mono (wp_and hwithin hdropped)
  exact fun _ _ h ↦ ⟨h.2.1, quits_of_within h.1 h.2.2.1 h.2.2.2⟩

/-- The same for the disk at the end of a session. -/
theorem endLoop_live (hc : c.Coherent) (hactive : c.activeReceiver = some receiver)
    (hlive : receiver.state.Live) (hbytes : 0 ≤ receiver.bytesReceived)
    (hkey : Text.isBlank c.connectedPeerStaticB64 = false) :
    wp endLoop (fun _ c' ↦ c'.disk = c.disk) c := by
  unfold endLoop
  rw [wp_update_bind]
  set stopped : TransferClient := { c with running := false } with hstopped
  have hcoherent : stopped.Coherent := ⟨hc.metadata, hc.stagingDir⟩
  apply wp_bind_of (interruptActive_live hcoherent hactive hlive hbytes hkey)
  · exact fun _ _ h ↦ h
  · exact fun _ _ h ↦ h

/-! ### The user's answers -/

/-- The coroutine that waits for the user is going to refuse the transfer. -/
def Refuses (c : TransferClient) (index : ℕ) (timedOut : Bool) : Prop :=
  ∃ asked ∈ c.waiting[index]?, timedOut = true ∨ c.decisions[asked.1]? = some (some false)

/-- A coroutine that accepts, or goes on waiting, leaves the receiver alone. -/
theorem still_runWaiting {index : ℕ} {timedOut : Bool} (h : ¬c.Refuses index timedOut) :
    Still c (c.runWaiting index timedOut) := by
  unfold runWaiting
  split
  · exact refl_of Still c
  · next k metadata hasked =>
    have hanswers : ¬(timedOut = true ∨ c.decisions[k]? = some (some false)) :=
      fun hrefused ↦ h ⟨_, hasked, hrefused⟩
    obtain ⟨htime, hvalue⟩ := not_or.mp hanswers
    dsimp only
    split
    · exact absurd rfl htime
    · next value hdecided =>
      cases value with
      | false => exact absurd hdecided hvalue
      | true =>
        obtain ⟨hactive, hdir, hdisk⟩ := decideIncoming_accepted metadata
          { c with waiting := c.waiting.eraseIdx index }
        exact still_of_eq hactive hdir hdisk
    · exact refl_of Still c

/-- A request for the rest of a transfer that has not timed out leaves the receiver alone. -/
theorem still_runResuming (index : ℕ) : Still c (c.runResuming index false) := by
  unfold runResuming
  split
  · exact refl_of Still c
  · dsimp only
    split
    · next htime => exact nomatch htime
    · exact still_of_eq rfl rfl rfl
    · exact refl_of Still c

theorem still_decided (value : Bool) (note : RequestRecord → RequestRecord) :
    Still c (c.decided value note) := by
  unfold decided
  split
  · exact refl_of Still c
  · split
    · exact still_of_eq rfl rfl rfl
    · exact refl_of Still c

end Sessions

end TransferClient

end Ferry
