import Ferry.Android.Consent
import Ferry.Android.Overwriting

/-!
# The slot of the active receiver

What the functions of the receiving client do to the active receiver, to the staging files and to the
deferreds of `requestResume`: the receiver stays together with its metadata, a function that works on
the receiver of one transfer leaves the staging files of the others alone, and only the deferred in the
slot is completed.
-/

namespace Ferry

open Exec Disk

/-! ## Calls of a receiver -/

namespace FerryTransferReceiver

/-- The parameters of the receiver stay. -/
structure SameParameters (w w' : ReceiverWorld) : Prop where
  metadata : w'.self.metadata = w.self.metadata
  stagingDir : w'.self.stagingDir = w.self.stagingDir

/-- A method keeps the parameters of the receiver, and changes the staging file only. -/
structure Contained (w w' : ReceiverWorld) : Prop extends SameParameters w w' where
  disk : OnlyFile w.self.tempFile w.disk w'.disk

theorem Contained.refl (w : ReceiverWorld) : Contained w w := ⟨⟨rfl, rfl⟩, OnlyFile.refl _ _⟩

theorem Framed.contained {w w' : ReceiverWorld} (h : Framed w w')
    (hdisk : OnlyFile w.self.tempFile w.disk w'.disk) : Contained w w' :=
  ⟨⟨h.metadata_eq, h.stagingDir_eq⟩, hdisk⟩

theorem contained_receiveChunk (transferId : Text) (seq : ℤ) (data : Bytes) :
    Stays Contained (receiveChunk transferId seq data) := by
  intro w
  apply wp_mono (wp_and (receiveChunk_spec transferId seq data w) (receiveChunk_only transferId seq data w))
  rintro r w' ⟨⟨hframed, -⟩, rfl | ⟨-, honly⟩⟩
  · exact Contained.refl _
  · exact hframed.contained honly

theorem contained_cancel : Stays Contained cancel := by
  intro w
  apply wp_mono (wp_and (cancel_spec w) (cancel_only w))
  rintro r w' ⟨⟨hself, -⟩, honly⟩
  exact ⟨⟨by rw [hself], by rw [hself]⟩, honly⟩

theorem contained_interrupt : Stays Contained interrupt := by
  intro w
  apply wp_mono (interrupt_spec w)
  rintro r w' (rfl | ⟨-, rfl⟩)
  · exact Contained.refl _
  · exact ⟨⟨rfl, rfl⟩, OnlyFile.refl _ _⟩

theorem contained_resume (chunkIndex : ℤ) : Stays Contained (resume chunkIndex) := by
  intro w
  apply wp_mono (wp_and (resume_spec chunkIndex w) (resume_nodes chunkIndex w))
  rintro r w' ⟨⟨hframed, -⟩, hnodes⟩
  exact hframed.contained ⟨fun q _ ↦ by rw [hnodes], hframed.faults⟩

theorem succeeds_cancel : Succeeds cancel :=
  succeeds_bind (fun w ↦ wp_mono (cleanup_spec w) fun _ _ h ↦ ⟨(), h.1⟩) fun _ ↦ succeeds_modify _

theorem sameParameters_finalise : Stays SameParameters finalise := by
  intro w
  apply wp_mono (finalise_spec w)
  rintro r w' ⟨hframed, -⟩
  exact ⟨hframed.metadata_eq, hframed.stagingDir_eq⟩

/-- A file name of one directory is not that of another name. -/
theorem child_ne (dir dir' : Path) {name name' : Text} (h : name ≠ name') :
    JavaFile.child dir name ≠ JavaFile.child dir' name' := by
  intro heq
  exact h (List.concat_inj.mp (by simpa [JavaFile.child, List.concat_eq_append] using heq)).2

end FerryTransferReceiver

/-! ## The receiver of the client -/

namespace TransferClient

open FerryTransferReceiver

/-- The receiver and its metadata belong together. -/
structure Coherent (c : TransferClient) : Prop where
  metadata : c.activeReceiverMeta = c.activeReceiver.map FerryTransferReceiver.metadata
  stagingDir : ∀ receiver ∈ c.activeReceiver, receiver.stagingDir = c.stagingDir

/-- A function that keeps the receiver coherent. -/
def KeepsCoherent (c c' : TransferClient) : Prop := c.Coherent → c'.Coherent

instance : IsPreorder TransferClient KeepsCoherent where
  refl := fun _ ↦ id
  trans := fun _ _ _ h h' ↦ h' ∘ h

/-- The active receiver, if any, is that of `a`. -/
def ReceiverOf (c : TransferClient) (a : Text) : Prop :=
  ∀ receiver ∈ c.activeReceiver, receiver.metadata.transferId = a

instance (c : TransferClient) (a : Text) : Decidable (c.ReceiverOf a) :=
  inferInstanceAs (Decidable (∀ receiver ∈ c.activeReceiver, _))

/-- The staging file of a transfer. -/
def partFile (c : TransferClient) (transferId : Text) : Path :=
  JavaFile.child c.stagingDir (transferId ++ Text.lit ".part")

/-- The staging files of other transfers than `a` stay as they are. -/
structure SparesParts (a : Text) (c c' : TransferClient) : Prop where
  stagingDir : c'.stagingDir = c.stagingDir
  nodes : ∀ b, b ≠ a → c'.disk.nodes (c.partFile b) = c.disk.nodes (c.partFile b)

variable {a : Text}

theorem SparesParts.refl (c : TransferClient) : SparesParts a c c := ⟨rfl, fun _ _ ↦ rfl⟩

theorem SparesParts.trans {c c' c'' : TransferClient} (h : SparesParts a c c')
    (h' : SparesParts a c' c'') : SparesParts a c c'' where
  stagingDir := h'.stagingDir.trans h.stagingDir
  nodes := by
    intro b hb
    have hpart : c'.partFile b = c.partFile b := by rw [partFile, partFile, h.stagingDir]
    rw [← h.nodes b hb, ← hpart, h'.nodes b hb]

/-- A function that works on the receiver of `a` only. -/
def Within (a : Text) (c c' : TransferClient) : Prop :=
  c.ReceiverOf a → c'.ReceiverOf a ∧ SparesParts a c c'

instance : IsPreorder TransferClient (Within a) where
  refl := fun _ h ↦ ⟨h, SparesParts.refl _⟩
  trans := fun _ _ _ h h' hc ↦
    ⟨(h' (h hc).1).1, (h hc).2.trans (h' (h hc).1).2⟩

/-- The deferreds of `requestResume` stay. -/
def SameResumes (c c' : TransferClient) : Prop := c'.resumeAnswers = c.resumeAnswers

instance : IsPreorder TransferClient SameResumes where
  refl := fun _ ↦ rfl
  trans := fun _ _ _ h h' ↦ Eq.trans h' h

/-- The deferreds of `requestResume` stay, but for the one in the slot. -/
structure OtherResumes (c c' : TransferClient) : Prop where
  answers : ∀ k, c.pendingResumeAccept ≠ some k → c'.resumeAnswers[k]? = c.resumeAnswers[k]?
  pending : c'.pendingResumeAccept = c.pendingResumeAccept ∨ c'.pendingResumeAccept = none

instance : IsPreorder TransferClient OtherResumes where
  refl := fun _ ↦ ⟨fun _ _ ↦ rfl, .inl rfl⟩
  trans := by
    intro c c' c'' h h'
    constructor
    · intro k hk
      rw [← h.answers k hk]
      apply h'.answers k
      rcases h.pending with hsame | hnone
      · rwa [hsame]
      · simp [hnone]
    · rcases h'.pending with hsame | hnone
      · exact hsame ▸ h.pending
      · exact .inr hnone

/-! ### Functions that do not touch the receiver -/

/-- The receiver, the disk and the deferreds of `requestResume` stay. -/
structure Apart (c c' : TransferClient) : Prop where
  activeReceiver : c'.activeReceiver = c.activeReceiver
  activeReceiverMeta : c'.activeReceiverMeta = c.activeReceiverMeta
  stagingDir : c'.stagingDir = c.stagingDir
  disk : c'.disk = c.disk
  resumeAnswers : c'.resumeAnswers = c.resumeAnswers
  pendingResumeAccept : c'.pendingResumeAccept = c.pendingResumeAccept

instance : IsPreorder TransferClient Apart where
  refl := fun _ ↦ ⟨rfl, rfl, rfl, rfl, rfl, rfl⟩
  trans := fun _ _ _ h h' ↦ ⟨h'.1.trans h.1, h'.2.trans h.2, h'.3.trans h.3, h'.4.trans h.4,
    h'.5.trans h.5, h'.6.trans h.6⟩

theorem Apart.keepsCoherent {c c' : TransferClient} (h : Apart c c') : KeepsCoherent c c' := by
  intro hc
  refine ⟨?_, ?_⟩
  · rw [h.activeReceiverMeta, h.activeReceiver, hc.metadata]
  · rw [h.activeReceiver, h.stagingDir]
    exact hc.stagingDir

theorem Apart.within {c c' : TransferClient} (h : Apart c c') : Within a c c' := by
  intro hc
  refine ⟨?_, h.stagingDir, fun b _ ↦ by rw [h.disk]⟩
  rw [ReceiverOf, h.activeReceiver]
  exact hc

theorem apart_sendEncryptedMessage (reply : ClientReply) : Stays Apart (sendEncryptedMessage reply) := by
  apply stays_get_bind
  intro client
  exact stays_bind (stays_modify fun c ↦ ⟨rfl, rfl, rfl, rfl, rfl, rfl⟩)
    (fun _ ↦ stays_bind (stays_raiseIf _ _) fun _ ↦
      stays_modify fun c ↦ ⟨rfl, rfl, rfl, rfl, rfl, rfl⟩) client

theorem apart_markHandled (transferId : Text) : Stays Apart (markHandled transferId) :=
  stays_modify fun _ ↦ ⟨rfl, rfl, rfl, rfl, rfl, rfl⟩

theorem succeeds_markHandled (transferId : Text) : Succeeds (markHandled transferId) :=
  succeeds_modify _

/-! ### Calls of the receiver -/

section Receiver

variable {receiver : FerryTransferReceiver} {c : TransferClient}

theorem keepsCoherent_onReceiver {α : Type} {m : FerryTransferReceiver.Method α}
    (hm : Stays SameParameters m) (hactive : c.activeReceiver = some receiver) :
    wp (onReceiver receiver m) (fun _ c' ↦ KeepsCoherent c c') c := by
  have hsame : SameParameters ⟨c.disk, receiver⟩ (m ⟨c.disk, receiver⟩).2 := hm _
  intro hc
  constructor
  · change c.activeReceiverMeta = some (m ⟨c.disk, receiver⟩).2.self.metadata
    rw [hsame.metadata, hc.metadata, hactive]
    rfl
  · intro receiver' hreceiver'
    obtain rfl : (m ⟨c.disk, receiver⟩).2.self = receiver' := Option.some.inj hreceiver'
    rw [hsame.stagingDir]
    exact hc.stagingDir receiver hactive

/-- The receiver of `a` does not work on the staging file of another transfer. -/
theorem within_onReceiver {α : Type} {m : FerryTransferReceiver.Method α} (hm : Stays Contained m)
    (hactive : c.activeReceiver = some receiver) :
    wp (onReceiver receiver m) (fun _ c' ↦ Within a c c') c := by
  have hcontained : Contained ⟨c.disk, receiver⟩ (m ⟨c.disk, receiver⟩).2 := hm _
  intro hc
  have hid : receiver.metadata.transferId = a := hc receiver hactive
  refine ⟨?_, rfl, fun b hb ↦ ?_⟩
  · intro receiver' hreceiver'
    obtain rfl : (m ⟨c.disk, receiver⟩).2.self = receiver' := Option.some.inj hreceiver'
    rw [hcontained.metadata]
    exact hid
  · apply hcontained.disk.nodes
    apply child_ne
    rw [hid]
    exact fun heq ↦ hb (List.append_cancel_right heq)

theorem within_cancelActive : Stays (Within a) cancelActive := by
  apply stays_get_bind
  intro c
  cases hactive : c.activeReceiver with
  | none => exact stays_pure () c
  | some receiver => exact within_onReceiver contained_cancel hactive

theorem within_dropReceiver : Stays (Within a) dropReceiver := by
  apply stays_modify
  intro c _
  exact ⟨fun receiver hreceiver ↦ by simp at hreceiver, rfl, fun _ _ ↦ rfl⟩

theorem within_cancelReceiver : Stays (Within a) cancelReceiver :=
  stays_bind within_cancelActive fun _ ↦ within_dropReceiver

theorem keepsCoherent_cancelActive : Stays KeepsCoherent cancelActive := by
  apply stays_get_bind
  intro c
  cases hactive : c.activeReceiver with
  | none => exact stays_pure () c
  | some receiver =>
    exact keepsCoherent_onReceiver (contained_cancel.mono fun _ _ h ↦ h.toSameParameters) hactive

theorem keepsCoherent_dropReceiver : Stays KeepsCoherent dropReceiver := by
  apply stays_modify
  intro c _
  exact ⟨rfl, fun receiver hreceiver ↦ by simp at hreceiver⟩

theorem keepsCoherent_cancelReceiver : Stays KeepsCoherent cancelReceiver :=
  stays_bind keepsCoherent_cancelActive fun _ ↦ keepsCoherent_dropReceiver

theorem sameResumes_cancelReceiver : Stays SameResumes cancelReceiver := by
  have hactive : Stays SameResumes cancelActive := by
    apply stays_get_bind
    intro c
    cases c.activeReceiver with
    | none => exact stays_pure () c
    | some receiver => exact (rfl : _ = _)
  exact stays_bind hactive fun _ ↦ stays_modify fun _ ↦ rfl

/-- Cancelling drops the receiver and never raises. -/
theorem cancelReceiver_spec (c : TransferClient) :
    wp cancelReceiver (fun r c' ↦ r = .ok () ∧ c'.pendingResumeAccept = c.pendingResumeAccept) c := by
  have hactive : wp cancelActive (fun r c' ↦ r = .ok () ∧
      c'.pendingResumeAccept = c.pendingResumeAccept) c := by
    unfold cancelActive
    rw [wp_get_bind]
    cases c.activeReceiver with
    | none => exact ⟨rfl, rfl⟩
    | some receiver =>
      obtain ⟨u, hu⟩ := succeeds_cancel ⟨c.disk, receiver⟩
      exact ⟨hu, rfl⟩
  exact wp_bind_of hactive (fun _ _ h ↦ absurd h.1 (by simp)) fun _ _ h ↦ ⟨rfl, h.2⟩

theorem succeeds_cancelReceiver : Succeeds cancelReceiver :=
  fun c ↦ wp_mono (cancelReceiver_spec c) fun _ _ h ↦ ⟨(), h.1⟩

theorem otherResumes_cancelReceiver : Stays OtherResumes cancelReceiver := by
  intro c
  apply wp_mono (wp_and (sameResumes_cancelReceiver c) (cancelReceiver_spec c))
  rintro r c' ⟨hsame, -, hpending⟩
  exact ⟨fun k _ ↦ by rw [hsame], .inl hpending⟩

/-! ### Chunks -/

/-- What is noted of a request whose chunk was written. -/
theorem apart_noteWritten : Stays Apart (update fun client ↦
    { client with request := client.request.map fun r ↦ { r with written := true } }) :=
  stays_modify fun _ ↦ ⟨rfl, rfl, rfl, rfl, rfl, rfl⟩

theorem within_onChunkReceived (plaintext : Bytes) : Stays (Within a) (onChunkReceived plaintext) := by
  have hwrite : Stays (Within a) (writeChunk plaintext) := by
    refine stays_bind (stays_ofResult _) fun chunk ↦ stays_get_bind fun c ↦ ?_
    cases hactive : c.activeReceiver with
    | none => exact stays_pure () c
    | some receiver =>
      dsimp only
      apply wp_bind_of (within_onReceiver (contained_receiveChunk _ _ _) hactive)
      · exact fun _ _ h ↦ h
      · intro _ c' h
        exact trans_of (Within a) h (apart_noteWritten c').within
  exact stays_tryCatch hwrite fun _ ↦ within_cancelReceiver

theorem keepsCoherent_onChunkReceived (plaintext : Bytes) :
    Stays KeepsCoherent (onChunkReceived plaintext) := by
  have hwrite : Stays KeepsCoherent (writeChunk plaintext) := by
    refine stays_bind (stays_ofResult _) fun chunk ↦ stays_get_bind fun c ↦ ?_
    cases hactive : c.activeReceiver with
    | none => exact stays_pure () c
    | some receiver =>
      dsimp only
      have hparameters : Stays SameParameters (receiveChunk chunk.1 chunk.2.1 chunk.2.2) :=
        (contained_receiveChunk _ _ _).mono fun _ _ h ↦ h.toSameParameters
      apply wp_bind_of (keepsCoherent_onReceiver hparameters hactive)
      · exact fun _ _ h ↦ h
      · intro _ c' h
        exact trans_of KeepsCoherent h (apart_noteWritten c').keepsCoherent
  exact stays_tryCatch hwrite fun _ ↦ keepsCoherent_cancelReceiver

theorem sameResumes_onChunkReceived (plaintext : Bytes) :
    Stays SameResumes (onChunkReceived plaintext) := by
  have hwrite : Stays SameResumes (writeChunk plaintext) := by
    refine stays_bind (stays_ofResult _) fun chunk ↦ stays_get_bind fun c ↦ ?_
    cases c.activeReceiver with
    | none => exact stays_pure () c
    | some receiver =>
      have hcall : Stays SameResumes (onReceiver receiver (receiveChunk chunk.1 chunk.2.1 chunk.2.2)) :=
        fun _ ↦ rfl
      exact stays_bind hcall (fun _ ↦ apart_noteWritten.mono fun _ _ h ↦ h.resumeAnswers) c
  exact stays_tryCatch hwrite fun _ ↦ sameResumes_cancelReceiver

theorem succeeds_onChunkReceived (plaintext : Bytes) : Succeeds (onChunkReceived plaintext) :=
  succeeds_tryCatch _ fun _ ↦ succeeds_cancelReceiver

/-! ### The end of a transfer -/

/-- What `finalise` of the receiver of `a` may rename to is not the staging file of another transfer. -/
def FinalClear (c : TransferClient) (a : Text) : Prop :=
  ∀ receiver ∈ c.activeReceiver,
    Sha256.hexdigest receiver.digest = Text.asciiLower receiver.metadata.sha256 →
      ∀ b, b ≠ a → receiver.finalFile c.disk ≠ c.partFile b

theorem eq_of_isPrefix_child {dir : Path} {name name' : Text}
    (h : JavaFile.child dir name <+: JavaFile.child dir name') : name = name' := by
  have heq : JavaFile.child dir name = JavaFile.child dir name' :=
    h.eq_of_length (by simp [JavaFile.child])
  simpa [JavaFile.child] using heq

theorem exists_finalFile (receiver : FerryTransferReceiver) (disk : Disk) :
    ∃ name, receiver.finalFile disk = JavaFile.child receiver.stagingDir name := by
  unfold finalFile
  dsimp only
  split
  · exact ⟨_, rfl⟩
  · exact ⟨_, rfl⟩

/-- A staging file that is neither end of a move. -/
theorem nodes_move_of_ne {dir : Path} {src dst name : Text} (d : Disk) (hsrc : src ≠ name)
    (hdst : dst ≠ name) :
    (d.move (JavaFile.child dir src) (JavaFile.child dir dst)).nodes (JavaFile.child dir name) =
      d.nodes (JavaFile.child dir name) := by
  have hnotDst : ¬JavaFile.child dir dst <+: JavaFile.child dir name :=
    fun h ↦ hdst (eq_of_isPrefix_child h)
  have hnotSrc : ¬JavaFile.child dir src <+: JavaFile.child dir name :=
    fun h ↦ hsrc (eq_of_isPrefix_child h)
  simp [Disk.move, hnotDst, hnotSrc]

/-- `finalise` leaves the staging file of another transfer, unless the file is placed there. -/
theorem part_finalise (hc : c.Coherent) (hactive : c.activeReceiver = some receiver) {b : Text}
    (hother : receiver.metadata.transferId ≠ b)
    (hclear : Sha256.hexdigest receiver.digest = Text.asciiLower receiver.metadata.sha256 →
      receiver.finalFile c.disk ≠ c.partFile b) :
    wp (onReceiver receiver finalise)
      (fun _ c' ↦ c'.disk.nodes (c.partFile b) = c.disk.nodes (c.partFile b)) c := by
  have hdir : receiver.stagingDir = c.stagingDir := hc.stagingDir receiver hactive
  have htemp : receiver.metadata.transferId ++ Text.lit ".part" ≠ b ++ Text.lit ".part" :=
    fun heq ↦ hother (List.append_cancel_right heq)
  have hrun := finalise_only ⟨c.disk, receiver⟩
  change (finalise ⟨c.disk, receiver⟩).2.disk.nodes (c.partFile b) = _
  rcases hrun with honly | ⟨hdigest, -, -, hmoved⟩
  · apply honly.nodes
    rw [tempFile, stagingFile, partFile]
    exact child_ne _ _ htemp.symm
  · rw [hmoved]
    obtain ⟨name, hname⟩ := exists_finalFile receiver c.disk
    have hne : name ≠ b ++ Text.lit ".part" := by
      intro heq
      apply hclear hdigest
      rw [hname, hdir, heq, partFile]
    dsimp only
    rw [hname, tempFile, stagingFile, hdir, partFile]
    exact nodes_move_of_ne c.disk htemp hne

theorem spares_finalise (hc : c.Coherent) (hof : c.ReceiverOf a) (hclear : c.FinalClear a)
    (hactive : c.activeReceiver = some receiver) :
    wp (onReceiver receiver finalise) (fun _ c' ↦ SparesParts a c c') c := by
  have hid : receiver.metadata.transferId = a := hof receiver hactive
  refine ⟨rfl, fun b hb ↦ ?_⟩
  have hother : receiver.metadata.transferId ≠ b := hid ▸ hb.symm
  exact part_finalise hc hactive hother fun hdigest ↦ hclear receiver hactive hdigest b hb

theorem sendEncryptedMessage_spec (reply : ClientReply) (c : TransferClient) :
    wp (sendEncryptedMessage reply) (fun r c' ↦ Apart c c' ∧
      ∀ e, r = .error e → c.sendFaults.headD false = true) c := by
  refine wp_and (apart_sendEncryptedMessage reply c) ?_
  unfold sendEncryptedMessage
  rw [wp_get_bind, wp_update_bind, wp_raiseIf_bind]
  exact ⟨fun hfault _ _ ↦ hfault, fun _ _ h ↦ (nomatch h)⟩

/-- `finalise` of the active receiver of `a`, which does not raise. -/
theorem onReceiver_finalise_spec (hc : c.Coherent) (hof : c.ReceiverOf a) (hclear : c.FinalClear a)
    (hactive : c.activeReceiver = some receiver) :
    wp (onReceiver receiver finalise) (fun r c' ↦ (∃ success, r = .ok success) ∧ SparesParts a c c' ∧
      c'.resumeAnswers = c.resumeAnswers ∧ c'.pendingResumeAccept = c.pendingResumeAccept ∧
      c'.sendFaults = c.sendFaults) c := by
  refine wp_and ?_ (wp_and (spares_finalise hc hof hclear hactive) ⟨rfl, rfl, rfl⟩)
  rcases (finalise_spec ⟨c.disk, receiver⟩).2.2 with ⟨hr, -⟩ | ⟨hr, -⟩
  · exact ⟨true, hr⟩
  · exact ⟨false, hr⟩

/-- A TRANSFER_COMPLETE for the transfer of the active receiver: it raises only when the result cannot
be written, after the receiver was dropped. -/
theorem onTransferComplete_spec (hc : c.Coherent) (hof : c.ReceiverOf a) (hclear : c.FinalClear a)
    (transferId : Text) :
    wp (onTransferComplete transferId) (fun r c' ↦ SparesParts a c c' ∧ SameResumes c c' ∧
      c'.pendingResumeAccept = c.pendingResumeAccept ∧
      ∀ e, r = .error e → c.sendFaults.headD false = true ∧ c'.activeReceiver = none) c := by
  unfold onTransferComplete
  rw [wp_get_bind]
  cases hactive : c.activeReceiver with
  | none => exact ⟨SparesParts.refl c, rfl, rfl, nofun⟩
  | some receiver =>
    dsimp only
    rw [wp_ite]
    refine ⟨fun _ ↦ ⟨SparesParts.refl c, rfl, rfl, nofun⟩, fun _ ↦ ?_⟩
    unfold completeTransfer markHandled
    rw [wp_update_bind]
    refine wp_bind_of (onReceiver_finalise_spec (a := a) ⟨hc.metadata, hc.stagingDir⟩ hof hclear hactive)
      (fun _ _ h ↦ absurd h.1 (by simp)) ?_
    rintro success c₁ ⟨-, hparts, hanswers, hpending, hfaults⟩
    rw [wp_update_bind]
    unfold dropReceiver
    rw [wp_update_bind]
    apply wp_mono (sendEncryptedMessage_spec _ _)
    rintro r c' ⟨hapart, hfault⟩
    refine ⟨⟨?_, ?_⟩, ?_, ?_, ?_⟩
    · exact hapart.stagingDir.trans hparts.stagingDir
    · intro b hb
      rw [hapart.disk]
      exact hparts.nodes b hb
    · exact hapart.resumeAnswers.trans hanswers
    · exact hapart.pendingResumeAccept.trans hpending
    · intro e he
      refine ⟨?_, hapart.activeReceiver⟩
      rw [← hfault e he]
      exact congrArg (·.headD false) hfaults.symm

end Receiver

/-! ### The other messages and the coroutines -/

section Messages

variable {c : TransferClient}

theorem within_onTransferCancel (transferId : Text) : Stays (Within a) (onTransferCancel transferId) := by
  apply stays_get_bind
  intro c
  exact stays_ite _ (stays_pure ()) (stays_bind ((apart_markHandled transferId).mono fun _ _ h ↦ h.within)
    fun _ ↦ within_cancelReceiver) c

theorem sameResumes_onTransferCancel (transferId : Text) :
    Stays SameResumes (onTransferCancel transferId) := by
  apply stays_get_bind
  intro c
  exact stays_ite _ (stays_pure ())
    (stays_bind ((apart_markHandled transferId).mono fun _ _ h ↦ h.resumeAnswers)
      fun _ ↦ sameResumes_cancelReceiver) c

theorem succeeds_onTransferCancel (transferId : Text) : Succeeds (onTransferCancel transferId) := by
  apply succeeds_get_bind
  intro c
  exact succeeds_ite _ (succeeds_pure ()) (succeeds_bind (succeeds_markHandled transferId)
    fun _ ↦ succeeds_cancelReceiver) c

theorem within_completeResume (value : Bool) : Stays (Within a) (completeResume value) :=
  stays_modify fun _ h ↦ ⟨h, rfl, fun _ _ ↦ rfl⟩

theorem otherResumes_completeResume (value : Bool) : Stays OtherResumes (completeResume value) := by
  apply stays_modify
  intro c
  refine ⟨fun k hk ↦ ?_, .inr rfl⟩
  dsimp only
  split
  · next slot hslot =>
    rw [hslot] at hk
    split
    · rw [List.getElem?_set_ne (fun h ↦ hk (congrArg some h))]
    · rfl
  · rfl

theorem otherResumes_onReceiver {α : Type} (receiver : FerryTransferReceiver)
    (m : FerryTransferReceiver.Method α) : Stays OtherResumes (onReceiver receiver m) :=
  fun _ ↦ ⟨fun _ _ ↦ rfl, .inl rfl⟩

/-- What TRANSFER_RESUME_ACCEPT does with a receiver that may go on. -/
theorem within_resumeReceiver {receiver : FerryTransferReceiver} (resumeChunkIndex : ℤ)
    (hactive : c.activeReceiver = some receiver) :
    wp (tryCatch
      (do
        onReceiver receiver (FerryTransferReceiver.resume resumeChunkIndex)
        completeResume true)
      fun _ ↦ do
        cancelReceiver
        completeResume false) (fun _ c' ↦ Within a c c') c := by
  have hresume : wp (do
      onReceiver receiver (FerryTransferReceiver.resume resumeChunkIndex)
      completeResume true : Action Unit) (fun _ c' ↦ Within a c c') c := by
    apply wp_bind_of (within_onReceiver (contained_resume resumeChunkIndex) hactive)
    · exact fun _ _ h ↦ h
    · exact fun _ c' h ↦ trans_of (Within a) h (within_completeResume true c')
  apply wp_tryCatch_of hresume
  · intro _ c' h
    have hcancel : Stays (Within a) (do cancelReceiver; completeResume false : Action Unit) :=
      stays_bind within_cancelReceiver fun _ ↦ within_completeResume false
    exact wp_mono (hcancel c') fun _ _ h' ↦ trans_of (Within a) h h'
  · exact fun _ _ h ↦ h

theorem within_onResumeAccept (transferId : Text) (resumeChunkIndex : ℤ) :
    Stays (Within a) (onResumeAccept transferId resumeChunkIndex) := by
  apply stays_get_bind
  intro c
  cases hactive : c.activeReceiver with
  | none => exact within_completeResume true c
  | some receiver =>
    dsimp only
    rw [wp_ite]
    exact ⟨fun _ ↦ within_resumeReceiver resumeChunkIndex hactive,
      fun _ ↦ within_completeResume true c⟩

theorem otherResumes_onResumeAccept (transferId : Text) (resumeChunkIndex : ℤ) :
    Stays OtherResumes (onResumeAccept transferId resumeChunkIndex) := by
  apply stays_get_bind
  intro c
  cases c.activeReceiver with
  | none => exact otherResumes_completeResume true c
  | some receiver =>
    exact stays_ite _
      (stays_tryCatch
        (stays_bind (otherResumes_onReceiver receiver _) fun _ ↦ otherResumes_completeResume true)
        fun _ ↦ stays_bind otherResumes_cancelReceiver fun _ ↦ otherResumes_completeResume false)
      (otherResumes_completeResume true) c

theorem succeeds_onResumeAccept (transferId : Text) (resumeChunkIndex : ℤ) :
    Succeeds (onResumeAccept transferId resumeChunkIndex) := by
  apply succeeds_get_bind
  intro c
  cases c.activeReceiver with
  | none => exact succeeds_modify _ c
  | some receiver =>
    exact succeeds_ite _ (succeeds_tryCatch _ fun _ ↦ succeeds_bind succeeds_cancelReceiver
      fun _ ↦ succeeds_modify _) (succeeds_modify _) c

/-- An answer for a receiver that is not active leaves the active one as it is. -/
theorem onResumeAccept_elsewhere {transferId : Text} {resumeChunkIndex : ℤ}
    (h : c.activeReceiverMeta.map Kotlin.TransferMetadata.transferId ≠ some transferId) :
    wp (onResumeAccept transferId resumeChunkIndex) (fun _ c' ↦ c'.activeReceiver = c.activeReceiver ∧
      c'.stagingDir = c.stagingDir ∧ c'.disk = c.disk) c := by
  unfold onResumeAccept
  rw [wp_get_bind]
  cases hactive : c.activeReceiver with
  | none => exact ⟨hactive, rfl, rfl⟩
  | some receiver =>
    dsimp only
    rw [if_neg h]
    exact ⟨hactive, rfl, rfl⟩

theorem within_onResumeReject : Stays (Within a) onResumeReject :=
  stays_bind within_cancelReceiver fun _ ↦ within_completeResume false

theorem otherResumes_onResumeReject : Stays OtherResumes onResumeReject :=
  stays_bind otherResumes_cancelReceiver fun _ ↦ otherResumes_completeResume false

theorem succeeds_onResumeReject : Succeeds onResumeReject :=
  succeeds_bind succeeds_cancelReceiver fun _ ↦ succeeds_modify _

theorem within_abandonResume : Stays (Within a) abandonResume :=
  stays_bind (stays_modify fun _ h ↦ ⟨h, rfl, fun _ _ ↦ rfl⟩) fun _ ↦ within_cancelReceiver

theorem sameResumes_abandonResume : Stays SameResumes abandonResume :=
  stays_bind (stays_modify fun _ ↦ rfl) fun _ ↦ sameResumes_cancelReceiver

/-- A refusal cancels the active receiver. -/
theorem within_decideIncoming (metadata : Kotlin.TransferMetadata) (accepted : Bool) :
    Stays (Within a) (decideIncoming metadata accepted) :=
  stays_bind (stays_modify fun _ h ↦ ⟨h, rfl, fun _ _ ↦ rfl⟩) fun _ ↦
    stays_ite _ ((apart_sendEncryptedMessage _).mono fun _ _ h ↦ h.within)
      (stays_bind within_cancelReceiver fun _ ↦ (apart_sendEncryptedMessage _).mono fun _ _ h ↦ h.within)

theorem sameResumes_decideIncoming (metadata : Kotlin.TransferMetadata) (accepted : Bool) :
    Stays SameResumes (decideIncoming metadata accepted) :=
  stays_bind (stays_modify fun _ ↦ rfl) fun _ ↦
    stays_ite _ ((apart_sendEncryptedMessage _).mono fun _ _ h ↦ h.resumeAnswers)
      (stays_bind sameResumes_cancelReceiver fun _ ↦
        (apart_sendEncryptedMessage _).mono fun _ _ h ↦ h.resumeAnswers)

/-- An acceptance leaves the active receiver as it is. -/
theorem decideIncoming_accepted (metadata : Kotlin.TransferMetadata) (c : TransferClient) :
    wp (decideIncoming metadata true) (fun _ c' ↦ c'.activeReceiver = c.activeReceiver ∧
      c'.stagingDir = c.stagingDir ∧ c'.disk = c.disk) c := by
  unfold decideIncoming
  rw [wp_update_bind, if_pos rfl]
  apply wp_mono (apart_sendEncryptedMessage _ _)
  exact fun _ _ h ↦ ⟨h.activeReceiver, h.stagingDir, h.disk⟩

theorem within_interruptActive : Stays (Within a) interruptActive := by
  apply stays_get_bind
  intro c
  cases hactive : c.activeReceiver with
  | none => exact within_cancelActive c
  | some receiver =>
    cases c.activeReceiverMeta with
    | none => exact within_cancelActive c
    | some metadata =>
      apply wp_bind_of (within_onReceiver contained_interrupt hactive)
      · exact fun _ _ h ↦ h
      · intro _ c' h
        apply wp_mono (stays_ite _ (stays_pure ()) (within_cancelActive (a := a)) c')
        exact fun _ _ h' ↦ trans_of (Within a) h h'

theorem within_endLoop : Stays (Within a) endLoop :=
  stays_bind (stays_modify fun _ h ↦ ⟨h, rfl, fun _ _ ↦ rfl⟩) fun _ ↦
    stays_bind within_interruptActive fun _ ↦ stays_bind within_dropReceiver fun _ ↦
      stays_bind (within_completeResume false) fun _ ↦
        stays_modify fun _ h ↦ ⟨h, rfl, fun _ _ ↦ rfl⟩

theorem otherResumes_interruptActive : Stays OtherResumes interruptActive := by
  have hcancel : Stays OtherResumes cancelActive := by
    apply stays_get_bind
    intro c
    cases c.activeReceiver with
    | none => exact stays_pure () c
    | some receiver => exact otherResumes_onReceiver receiver _ c
  apply stays_get_bind
  intro c
  cases c.activeReceiver with
  | none => exact hcancel c
  | some receiver =>
    cases c.activeReceiverMeta with
    | none => exact hcancel c
    | some metadata =>
      exact stays_bind (otherResumes_onReceiver receiver _)
        (fun _ ↦ stays_ite _ (stays_pure ()) hcancel) c

theorem otherResumes_endLoop : Stays OtherResumes endLoop :=
  stays_bind (stays_modify fun _ ↦ ⟨fun _ _ ↦ rfl, .inl rfl⟩) fun _ ↦
    stays_bind otherResumes_interruptActive fun _ ↦
      stays_bind (stays_modify fun _ ↦ ⟨fun _ _ ↦ rfl, .inl rfl⟩) fun _ ↦
        stays_bind (otherResumes_completeResume false) fun _ ↦
          stays_modify fun _ ↦ ⟨fun _ _ ↦ rfl, .inl rfl⟩

end Messages

/-! ### Coherence -/

section Coherence

theorem keepsCoherent_of_eq {c c' : TransferClient} (hreceiver : c'.activeReceiver = c.activeReceiver)
    (hmeta : c'.activeReceiverMeta = c.activeReceiverMeta) (hdir : c'.stagingDir = c.stagingDir) :
    KeepsCoherent c c' := by
  intro hc
  refine ⟨?_, ?_⟩
  · rw [hmeta, hreceiver, hc.metadata]
  · rw [hreceiver, hdir]
    exact hc.stagingDir

theorem keepsCoherent_completeResume (value : Bool) : Stays KeepsCoherent (completeResume value) :=
  stays_modify fun _ ↦ keepsCoherent_of_eq rfl rfl rfl

theorem keepsCoherent_onTransferComplete (transferId : Text) :
    Stays KeepsCoherent (onTransferComplete transferId) := by
  apply stays_get_bind
  intro c
  cases hactive : c.activeReceiver with
  | none => exact stays_pure () c
  | some receiver =>
    dsimp only
    rw [wp_ite]
    refine ⟨fun _ ↦ stays_pure () c, fun _ ↦ ?_⟩
    unfold completeTransfer markHandled
    rw [wp_update_bind]
    refine wp_bind_of (keepsCoherent_onReceiver sameParameters_finalise hactive)
      (fun _ _ h hc ↦ h ⟨hc.metadata, hc.stagingDir⟩) ?_
    intro success c₁ hfinal
    have hrest : Stays KeepsCoherent (do
        update fun client ↦ { client with
          placed := if success then client.placed ++ client.request.toList else client.placed }
        dropReceiver
        sendEncryptedMessage (.transferResult transferId success) : Action Unit) :=
      stays_bind (stays_modify fun _ ↦ keepsCoherent_of_eq rfl rfl rfl) fun _ ↦
        stays_bind keepsCoherent_dropReceiver fun _ ↦
          (apart_sendEncryptedMessage _).mono fun _ _ h ↦ h.keepsCoherent
    apply wp_mono (hrest c₁)
    exact fun _ _ h hc ↦ h (hfinal ⟨hc.metadata, hc.stagingDir⟩)

theorem keepsCoherent_onTransferCancel (transferId : Text) :
    Stays KeepsCoherent (onTransferCancel transferId) := by
  apply stays_get_bind
  intro c
  exact stays_ite _ (stays_pure ())
    (stays_bind ((apart_markHandled transferId).mono fun _ _ h ↦ h.keepsCoherent)
      fun _ ↦ keepsCoherent_cancelReceiver) c

theorem keepsCoherent_onResumeAccept (transferId : Text) (resumeChunkIndex : ℤ) :
    Stays KeepsCoherent (onResumeAccept transferId resumeChunkIndex) := by
  apply stays_get_bind
  intro c
  cases hactive : c.activeReceiver with
  | none => exact keepsCoherent_completeResume true c
  | some receiver =>
    dsimp only
    rw [wp_ite]
    refine ⟨fun _ ↦ ?_, fun _ ↦ keepsCoherent_completeResume true c⟩
    have hresume : wp (do
        onReceiver receiver (FerryTransferReceiver.resume resumeChunkIndex)
        completeResume true : Action Unit) (fun _ c' ↦ KeepsCoherent c c') c := by
      have hparameters : Stays SameParameters (FerryTransferReceiver.resume resumeChunkIndex) :=
        (contained_resume resumeChunkIndex).mono fun _ _ h ↦ h.toSameParameters
      apply wp_bind_of (keepsCoherent_onReceiver hparameters hactive)
      · exact fun _ _ h ↦ h
      · exact fun _ c' h ↦ trans_of KeepsCoherent h (keepsCoherent_completeResume true c')
    apply wp_tryCatch_of hresume
    · intro _ c' h
      have hcancel : Stays KeepsCoherent (do cancelReceiver; completeResume false : Action Unit) :=
        stays_bind keepsCoherent_cancelReceiver fun _ ↦ keepsCoherent_completeResume false
      exact wp_mono (hcancel c') fun _ _ h' ↦ trans_of KeepsCoherent h h'
    · exact fun _ _ h ↦ h

theorem keepsCoherent_onResumeReject : Stays KeepsCoherent onResumeReject :=
  stays_bind keepsCoherent_cancelReceiver fun _ ↦ keepsCoherent_completeResume false

/-- A new receiver with its metadata in the slot. -/
theorem coherent_install {c : TransferClient} {receiver : FerryTransferReceiver}
    {metadata : Kotlin.TransferMetadata} (hmeta : receiver.metadata = metadata)
    (hdir : receiver.stagingDir = c.stagingDir) (request : Option RequestRecord) :
    Coherent { c with
      activeReceiver := some receiver, activeReceiverMeta := some metadata, request } := by
  refine ⟨by simp [hmeta], ?_⟩
  intro receiver' hreceiver'
  obtain rfl : receiver = receiver' := Option.some.inj hreceiver'
  exact hdir

/-- What `begin` leaves of a new receiver. -/
theorem onNewReceiver_begin (metadata : Kotlin.TransferMetadata) (c : TransferClient) :
    wp (onNewReceiver (FerryTransferReceiver.new metadata c.stagingDir) FerryTransferReceiver.begin)
      (fun r c' ↦ c'.stagingDir = c.stagingDir ∧ KeepsCoherent c c' ∧
        ∀ outcome, r = .ok outcome →
          outcome.2.metadata = metadata ∧ outcome.2.stagingDir = c.stagingDir) c := by
  refine ⟨rfl, keepsCoherent_of_eq rfl rfl rfl, ?_⟩
  rintro outcome ⟨⟩
  have hbegin : wp begin (fun _ w' ↦ Framed ⟨c.disk, FerryTransferReceiver.new metadata c.stagingDir⟩ w')
      ⟨c.disk, FerryTransferReceiver.new metadata c.stagingDir⟩ :=
    wp_mono (begin_spec _ (stagingFile_notMem_inits metadata c.stagingDir)) fun _ _ h ↦ h.1
  exact ⟨hbegin.metadata_eq, hbegin.stagingDir_eq⟩

theorem keepsCoherent_sendEncryptedMessage (reply : ClientReply) :
    Stays KeepsCoherent (sendEncryptedMessage reply) :=
  (apart_sendEncryptedMessage reply).mono fun _ _ h ↦ h.keepsCoherent

theorem coherent_installReceiver {c : TransferClient} {receiver : FerryTransferReceiver}
    {metadata : Kotlin.TransferMetadata} (hmeta : receiver.metadata = metadata)
    (hdir : receiver.stagingDir = c.stagingDir) (isBatched : Bool) :
    wp (installReceiver metadata receiver isBatched) (fun _ c' ↦ c'.Coherent) c := by
  have hinstalled := coherent_install hmeta hdir c.request
  have hanswer : Stays KeepsCoherent (acceptAtOnce metadata) :=
    stays_bind (stays_modify fun _ ↦ keepsCoherent_of_eq rfl rfl rfl)
      fun _ ↦ keepsCoherent_sendEncryptedMessage _
  have hask : Stays KeepsCoherent (askUser metadata) :=
    stays_modify fun _ ↦ keepsCoherent_of_eq rfl rfl rfl
  unfold installReceiver
  rw [wp_update_bind, wp_get_bind, wp_ite]
  exact ⟨fun _ ↦ hanswer _ hinstalled, fun _ ↦ hask _ hinstalled⟩

theorem keepsCoherent_beginTransfer (now : ℤ) (fields : String → Kotlin.MapValue) (isBatched : Bool) :
    Stays KeepsCoherent (beginTransfer now fields isBatched) := by
  intro c hc
  change wp (beginTransfer now fields isBatched) (fun _ c' ↦ c'.Coherent) c
  unfold beginTransfer
  rw [wp_ofResult_bind]
  refine ⟨fun _ _ ↦ hc, fun metadata _ ↦ ?_⟩
  rw [wp_get_bind]
  have hdisk : wp (onDisk (JavaFile.mkdirs c.stagingDir))
      (fun _ c' ↦ c'.Coherent ∧ c'.stagingDir = c.stagingDir) c := ⟨⟨hc.metadata, hc.stagingDir⟩, rfl⟩
  apply wp_bind_of hdisk (fun _ _ h ↦ h.1)
  rintro _ c₁ ⟨hc₁, hdir₁⟩
  rw [← hdir₁]
  apply wp_bind_of (onNewReceiver_begin metadata c₁) (fun _ _ h ↦ h.2.1 hc₁)
  rintro ⟨outcome, receiver⟩ c₂ ⟨hdir₂, hkeeps, houtcome⟩
  obtain ⟨hmeta, hdir⟩ := houtcome _ rfl
  cases outcome with
  | error e =>
    have hrest : Stays KeepsCoherent (if isIoException e then
        sendEncryptedMessage (.transferError metadata.transferId "ERR_IO_FAILURE" e)
        else throw e : Action Unit) :=
      stays_ite _ (keepsCoherent_sendEncryptedMessage _) (stays_throw e)
    exact hrest c₂ (hkeeps hc₁)
  | ok u => exact coherent_installReceiver hmeta (hdir.trans hdir₂.symm) isBatched

theorem keepsCoherent_onTransferRequest (now : ℤ) (fields : String → Kotlin.MapValue) :
    Stays KeepsCoherent (onTransferRequest now fields) := by
  apply stays_get_bind
  intro c
  exact stays_ite _ (keepsCoherent_sendEncryptedMessage _)
    (stays_ite _ (keepsCoherent_sendEncryptedMessage _)
      (stays_tryCatch (keepsCoherent_beginTransfer now fields _)
        fun _ ↦ keepsCoherent_sendEncryptedMessage _)) c

theorem keepsCoherent_onBatchRequest (batchId : Text) (totalItems : ℤ) :
    Stays KeepsCoherent (onBatchRequest batchId totalItems) :=
  stays_ite _ (keepsCoherent_sendEncryptedMessage _)
    (stays_bind (stays_modify fun _ ↦ keepsCoherent_of_eq rfl rfl rfl)
      fun _ ↦ keepsCoherent_sendEncryptedMessage _)

theorem keepsCoherent_handleTransferMessage (now : ℤ) (message : PeerMessage) :
    Stays KeepsCoherent (handleTransferMessage now message) := by
  cases message with
  | transferRequest fields => exact keepsCoherent_onTransferRequest now fields
  | transferComplete transferId => exact keepsCoherent_onTransferComplete transferId
  | transferCancel transferId => exact keepsCoherent_onTransferCancel transferId
  | transferError => exact keepsCoherent_cancelReceiver
  | transferAccept transferId =>
    exact (apart_markHandled transferId).mono fun _ _ h ↦ h.keepsCoherent
  | transferReject transferId =>
    exact (apart_markHandled transferId).mono fun _ _ h ↦ h.keepsCoherent
  | transferResumeAccept transferId resumeChunkIndex =>
    exact keepsCoherent_onResumeAccept transferId resumeChunkIndex
  | transferResumeReject => exact keepsCoherent_onResumeReject
  | batchRequest batchId totalItems => exact keepsCoherent_onBatchRequest batchId totalItems
  | batchCancel batchId => exact stays_modify fun _ ↦ keepsCoherent_of_eq rfl rfl rfl
  | batchComplete batchId => exact stays_modify fun _ ↦ keepsCoherent_of_eq rfl rfl rfl
  | other => exact stays_pure ()

theorem keepsCoherent_askPeer (record : InterruptedRecord) (partialSha256 : Text) :
    Stays KeepsCoherent (askPeer record partialSha256) := by
  unfold askPeer
  apply stays_bind
  · exact stays_modify fun _ ↦ keepsCoherent_of_eq rfl rfl rfl
  intro _
  apply stays_tryCatch
  · apply stays_bind (keepsCoherent_sendEncryptedMessage _)
    exact fun _ ↦ stays_modify fun _ ↦ keepsCoherent_of_eq rfl rfl rfl
  · intro _
    apply stays_bind keepsCoherent_cancelReceiver
    exact fun _ ↦ stays_modify fun _ ↦ keepsCoherent_of_eq rfl rfl rfl

/-- What `interrupt` leaves of a receiver that is not active. -/
theorem onNewReceiver_interrupt (receiver : FerryTransferReceiver) (c : TransferClient) :
    wp (onNewReceiver receiver FerryTransferReceiver.interrupt) (fun r c' ↦
      c'.stagingDir = c.stagingDir ∧ KeepsCoherent c c' ∧ ∀ outcome, r = .ok outcome →
        outcome.2.metadata = receiver.metadata ∧ outcome.2.stagingDir = receiver.stagingDir) c := by
  refine ⟨rfl, keepsCoherent_of_eq rfl rfl rfl, ?_⟩
  rintro outcome ⟨⟩
  have hcontained := contained_interrupt ⟨c.disk, receiver⟩
  exact ⟨hcontained.metadata, hcontained.stagingDir⟩

theorem keepsCoherent_rebuildReceiver (record : InterruptedRecord) (metadata : Kotlin.TransferMetadata)
    (partialSha256 : Text) : Stays KeepsCoherent (rebuildReceiver record metadata partialSha256) := by
  intro c hc
  change wp (rebuildReceiver record metadata partialSha256) (fun _ c' ↦ c'.Coherent) c
  unfold rebuildReceiver
  rw [wp_get_bind]
  apply wp_bind_of (onNewReceiver_begin metadata c) (fun _ _ h ↦ h.2.1 hc)
  rintro ⟨_, begun⟩ c₁ ⟨hdir₁, hkeeps₁, hbegun⟩
  obtain ⟨hmeta, hdir⟩ := hbegun _ rfl
  apply wp_bind_of (onNewReceiver_interrupt begun c₁) (fun _ _ h ↦ h.2.1 (hkeeps₁ hc))
  rintro ⟨_, receiver⟩ c₂ ⟨hdir₂, -, hreceiver⟩
  obtain ⟨hmeta', hdir'⟩ := hreceiver _ rfl
  dsimp only
  rw [wp_update_bind]
  apply keepsCoherent_askPeer
  apply coherent_install (hmeta'.trans hmeta)
  rw [hdir', hdir, hdir₂, hdir₁]

theorem keepsCoherent_requestResume (now : ℤ) (record : InterruptedRecord) :
    Stays KeepsCoherent (requestResume now record) := by
  have hdisk {α : Type} (m : Exec IoError Disk α) : Stays KeepsCoherent (onDisk m) :=
    fun _ ↦ keepsCoherent_of_eq rfl rfl rfl
  refine stays_bind (stays_ofResult _) fun metadata ↦ stays_get_bind fun client ↦ ?_
  exact stays_bind (hdisk _) (fun _ ↦ stays_bind (stays_raiseIf _ _) fun _ ↦
    stays_bind (hdisk _) fun _ ↦ stays_bind (stays_raiseIf _ _) fun _ ↦
      keepsCoherent_rebuildReceiver record metadata _) client

theorem keepsCoherent_decided (c : TransferClient) (value : Bool)
    (note : RequestRecord → RequestRecord) : KeepsCoherent c (c.decided value note) := by
  unfold decided
  split
  · exact id
  · split
    · exact keepsCoherent_of_eq rfl rfl rfl
    · exact id

theorem keepsCoherent_decideIncoming (metadata : Kotlin.TransferMetadata) (accepted : Bool) :
    Stays KeepsCoherent (decideIncoming metadata accepted) :=
  stays_bind (stays_modify fun _ ↦ keepsCoherent_of_eq rfl rfl rfl) fun _ ↦
    stays_ite _ (keepsCoherent_sendEncryptedMessage _)
      (stays_bind keepsCoherent_cancelReceiver fun _ ↦ keepsCoherent_sendEncryptedMessage _)

theorem keepsCoherent_cancelIncomingTransfer (transferId : Option Text) :
    Stays KeepsCoherent (cancelIncomingTransfer transferId) := by
  apply stays_get_bind
  intro c
  cases (c.activeReceiverMeta.map Kotlin.TransferMetadata.transferId).or transferId with
  | none => exact stays_pure () c
  | some currentId =>
    exact stays_bind keepsCoherent_cancelReceiver
      (fun _ ↦ stays_tryCatch (keepsCoherent_sendEncryptedMessage _) fun _ ↦ stays_pure ()) c

theorem keepsCoherent_abandonResume : Stays KeepsCoherent abandonResume :=
  stays_bind (stays_modify fun _ ↦ keepsCoherent_of_eq rfl rfl rfl) fun _ ↦ keepsCoherent_cancelReceiver

theorem keepsCoherent_interruptActive : Stays KeepsCoherent interruptActive := by
  apply stays_get_bind
  intro c
  cases hactive : c.activeReceiver with
  | none => exact keepsCoherent_cancelActive c
  | some receiver =>
    cases c.activeReceiverMeta with
    | none => exact keepsCoherent_cancelActive c
    | some metadata =>
      have hparameters : Stays SameParameters FerryTransferReceiver.interrupt :=
        contained_interrupt.mono fun _ _ h ↦ h.toSameParameters
      apply wp_bind_of (keepsCoherent_onReceiver hparameters hactive)
      · exact fun _ _ h ↦ h
      · intro _ c' h
        apply wp_mono (stays_ite _ (stays_pure ()) keepsCoherent_cancelActive c')
        exact fun _ _ h' ↦ trans_of KeepsCoherent h h'

theorem keepsCoherent_endLoop : Stays KeepsCoherent endLoop :=
  stays_bind (stays_modify fun _ ↦ keepsCoherent_of_eq rfl rfl rfl) fun _ ↦
    stays_bind keepsCoherent_interruptActive fun _ ↦ stays_bind keepsCoherent_dropReceiver fun _ ↦
      stays_bind (keepsCoherent_completeResume false) fun _ ↦
        stays_modify fun _ ↦ keepsCoherent_of_eq rfl rfl rfl

theorem keepsCoherent_runWaiting (c : TransferClient) (index : ℕ) (timedOut : Bool) :
    KeepsCoherent c (c.runWaiting index timedOut) := by
  have hdecide (k : ℕ) (metadata : Kotlin.TransferMetadata) (value : Bool) : KeepsCoherent c
      (decideIncoming metadata value { c with waiting := c.waiting.eraseIdx index }).2 :=
    fun hc ↦ keepsCoherent_decideIncoming metadata value _ ⟨hc.metadata, hc.stagingDir⟩
  unfold runWaiting
  split
  · exact id
  · next k metadata _ =>
    dsimp only
    split
    · exact hdecide k metadata false
    · exact hdecide k metadata _
    · exact id

theorem keepsCoherent_runResuming (c : TransferClient) (index : ℕ) (timedOut : Bool) :
    KeepsCoherent c (c.runResuming index timedOut) := by
  unfold runResuming
  split
  · exact id
  · dsimp only
    split
    · exact fun hc ↦ keepsCoherent_abandonResume _ ⟨hc.metadata, hc.stagingDir⟩
    · exact keepsCoherent_of_eq rfl rfl rfl
    · exact id

end Coherence

end TransferClient

end Ferry
