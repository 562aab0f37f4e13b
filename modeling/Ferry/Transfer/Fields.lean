import Ferry.Base.Footprint
import Ferry.Transfer.IncomingFrame

/-!
# What the methods of an incoming transfer leave alone

The fields of `IncomingTransfer`, and for each method the fields that it may assign.  What a method
returns says which state it left the transfer in.
-/

namespace Ferry

open Exec

/-- The fields of the object, with the disk.  `idle` says that a transfer which has left IDLE does not
return to it. -/
inductive Field
  | disk
  | metadata
  | idle
  | state
  | tempPath
  | finalPath
  | progress
  | tempFh
  deriving DecidableEq

namespace IncomingTransfer

/-- When a field counts as unchanged. -/
def SameField : Field → World → World → Prop
  | .disk, w, w' => w'.disk = w.disk
  | .metadata, w, w' => w'.self.metadata = w.self.metadata ∧ w'.self.downloadDir = w.self.downloadDir
  | .idle, w, w' => w'.self.state = .idle → w.self.state = .idle
  | .state, w, w' => w'.self.state = w.self.state
  | .tempPath, w, w' => w'.self.tempPath = w.self.tempPath
  | .finalPath, w, w' => w'.self.finalPath = w.self.finalPath
  | .progress, w, w' => w'.self.hasher = w.self.hasher ∧ w'.self.bytesReceived = w.self.bytesReceived ∧
      w'.self.nextSeq = w.self.nextSeq
  | .tempFh, w, w' => w'.self.tempFh = w.self.tempFh

theorem sameField_refl (p : Field) (w : World) : SameField p w w := by
  cases p <;> simp [SameField]

theorem sameField_trans (p : Field) {w w' w'' : World} (h : SameField p w w')
    (h' : SameField p w' w'') : SameField p w w'' := by
  cases p <;> simp only [SameField] at h h' ⊢
  case idle => exact h ∘ h'
  case metadata => exact ⟨h'.1.trans h.1, h'.2.trans h.2⟩
  case progress => exact ⟨h'.1.trans h.1, h'.2.1.trans h.2.1, h'.2.2.trans h.2.2⟩
  all_goals exact h'.trans h

instance (p : Field) : IsPreorder World (SameField p) where
  refl := sameField_refl p
  trans _ _ _ := sameField_trans p

/-- A method assigns no field outside a list. -/
abbrev Assigns {α : Type} (fields : List Field) (m : Method α) : Prop := Touches SameField fields m

theorem assigns_onDisk {α : Type} (m : Exec IoError Disk α) : Assigns [.disk] (onDisk m) := by
  intro w p hp
  cases p <;> simp_all [SameField, onDisk, zoom]

theorem assigns_setState {state : TransferState} (h : state ≠ .idle) :
    Assigns [.state] (setState state) := by
  intro w p hp
  cases p <;> simp_all [SameField, setState, update, modify, modifyGet, MonadStateOf.modifyGet]

theorem assigns_transition {new : TransferState} (h : new ≠ .idle) :
    Assigns [.state] (transition new) := by
  refine touches_get_bind fun w ↦ ?_
  refine stays_ofResult_bind fun state hstate ↦ ?_
  exact (transferTransition_eq_ok.mp hstate).2 ▸ assigns_setState h

theorem assigns_onTempFh {α : Type} (m : Exec IoError (Disk × Handle) α) :
    Assigns [.disk, .tempFh] (onTempFh m) := by
  refine touches_get_bind fun w ↦ ?_
  split
  · exact touches_throw _
  · intro w' p hp
    cases p <;> simp_all [SameField, zoom]

/-- An assignment to the paths, the file and the counters. -/
theorem assigns_update {fields : List Field} {f : IncomingTransfer → IncomingTransfer}
    (h : ∀ w : World, Within SameField fields w { w with self := f w.self }) :
    Assigns fields (update f) := touches_modify h

theorem assigns_assignTempFh (fh : Option Handle) : Assigns [.disk, .tempFh] (assignTempFh fh) := by
  refine touches_get_bind fun w ↦ touches_bind (assigns_update ?_) fun _ ↦ ?_
  · intro w p hp
    cases p <;> simp_all [SameField]
  · split
    · exact touches_pure _
    · exact (assigns_onDisk _).mono (by decide)

theorem assigns_cleanupTemp : Assigns [.disk] cleanupTemp := by
  refine touches_get_bind fun w ↦ ?_
  split
  · exact touches_pure _
  · exact touches_ite _ (touches_tryCatch (assigns_onDisk _) fun _ ↦ touches_pure _) (touches_pure _)

theorem assigns_closeTempFh : Assigns [.disk, .tempFh] closeTempFh := by
  refine touches_get_bind fun w ↦ touches_ite _ (touches_bind ?_ fun _ ↦ ?_) (touches_pure _)
  · exact touches_tryCatch (assigns_onTempFh _) fun _ ↦ touches_pure _
  · exact assigns_assignTempFh _

/-- Close and delete the file, and assign the state. -/
theorem assigns_cleanup {state : TransferState} (h : state ≠ .idle) :
    Assigns [.disk, .tempFh, .state] (do
      closeTempFh
      cleanupTemp
      setState state) :=
  touches_bind (assigns_closeTempFh.mono (by decide)) fun _ ↦
    touches_bind (assigns_cleanupTemp.mono (by decide)) fun _ ↦ (assigns_setState h).mono (by decide)

theorem assigns_cancel : Assigns [.disk, .tempFh, .state] cancel := assigns_cleanup (by decide)

theorem assigns_cleanupOnIoError : Assigns [.disk, .tempFh, .state] cleanupOnIoError :=
  assigns_cleanup (by decide)

theorem assigns_openStaging : Assigns [.disk, .tempFh, .tempPath, .finalPath] openStaging := by
  refine touches_get_bind fun w ↦ ?_
  refine touches_bind ((assigns_onDisk _).mono (by decide)) fun _ ↦ ?_
  refine touches_bind ((assigns_onDisk _).mono (by decide)) fun _ ↦ ?_
  refine touches_bind (assigns_update fun w p hp ↦ ?_) fun _ ↦ ?_
  · cases p <;> simp_all [SameField]
  refine touches_bind (touches_ofResult _) fun dest ↦ ?_
  refine touches_bind (assigns_update fun w p hp ↦ ?_) fun _ ↦ ?_
  · cases p <;> simp_all [SameField]
  refine touches_bind ((assigns_onDisk _).mono (by decide)) fun _ ↦ ?_
  exact touches_bind ((assigns_onDisk _).mono (by decide)) fun _ ↦
    (assigns_assignTempFh _).mono (by decide)

theorem assigns_begin : Assigns [.disk, .tempFh, .tempPath, .finalPath, .state] begin := by
  have htransition : ∀ {new : TransferState}, new ≠ .idle →
      Assigns [.disk, .tempFh, .tempPath, .finalPath, .state] (transition new) :=
    fun h ↦ (assigns_transition h).mono (by decide)
  refine touches_bind (htransition (by decide)) fun _ ↦ touches_bind ?_ fun _ ↦
    htransition (by decide)
  refine touches_tryCatch (assigns_openStaging.mono (by decide)) fun e ↦ touches_ite _ ?_ ?_
  · exact touches_bind (htransition (by decide)) fun _ ↦ touches_throw _
  · exact touches_throw _

theorem assigns_receiveChunk (frame : ChunkFrame) :
    Assigns [.disk, .tempFh, .state, .progress] (receiveChunk frame) := by
  refine touches_get_bind fun w ↦ ?_
  iterate 4 refine touches_bind (touches_raiseIf _ _) fun _ ↦ ?_
  refine touches_bind ?_ fun _ ↦ assigns_update fun w p hp ↦ ?_
  · refine touches_tryCatch ((assigns_onTempFh _).mono (by decide)) fun e ↦ touches_ite _ ?_ ?_
    · exact touches_bind (assigns_cleanupOnIoError.mono (by decide)) fun _ ↦ touches_throw _
    · exact touches_throw _
  · cases p <;> simp_all [SameField]

theorem assigns_flushTempFh : Assigns [.disk, .tempFh] flushTempFh := by
  refine touches_get_bind fun w ↦ touches_ite _ ?_ (touches_pure _)
  exact touches_bind (assigns_onTempFh _) fun _ ↦
    touches_bind (assigns_onTempFh _) fun _ ↦ assigns_assignTempFh _

theorem assigns_deliver : Assigns [.disk, .state] deliver := by
  refine touches_get_bind fun w ↦ ?_
  split
  · refine touches_bind ((assigns_onDisk _).mono (by decide)) fun _ ↦ ?_
    exact touches_bind ((assigns_transition (by decide)).mono (by decide)) fun _ ↦ touches_pure _
  · exact touches_throw _

theorem assigns_finalise : Assigns [.disk, .tempFh, .state] finalise := by
  refine touches_bind (assigns_flushTempFh.mono (by decide)) fun _ ↦ touches_get_bind fun w ↦ ?_
  refine touches_ite _ ?_ (assigns_deliver.mono (by decide))
  refine touches_bind (assigns_cleanupTemp.mono (by decide)) fun _ ↦ ?_
  exact touches_bind ((assigns_transition (by decide)).mono (by decide)) fun _ ↦ touches_pure _

theorem assigns_checkPartial (metadata : TransferMetadata) (diskSize : ℕ)
    (expectedBytes expectedChunkIndex : Option ℤ) :
    Assigns [] (checkPartial metadata diskSize expectedBytes expectedChunkIndex) := by
  unfold checkPartial
  iterate 6 refine touches_bind (touches_raiseIf _ _) fun _ ↦ ?_
  exact touches_raiseIf _ _

theorem assigns_readPart (temp : Path) : Assigns [.disk] (readPart temp) := by
  refine touches_bind (assigns_onDisk _) fun result ↦ ?_
  obtain ⟨data, error⟩ := result
  cases error with
  | none => exact touches_pure _
  | some e => exact touches_throw _

theorem assigns_prepareResumeRequest (expectedBytes expectedChunkIndex : Option ℤ) :
    Assigns [.disk, .progress] (prepareResumeRequest expectedBytes expectedChunkIndex) := by
  refine touches_get_bind fun w ↦ touches_bind (touches_raiseIf _ _) fun _ ↦ ?_
  split
  · exact touches_throw _
  · refine touches_bind (touches_raiseIf _ _) fun _ ↦ ?_
    refine touches_bind ((assigns_onDisk _).mono (by decide)) fun size ↦ ?_
    refine touches_bind ((assigns_checkPartial _ _ _ _).mono (by simp)) fun _ ↦ ?_
    refine touches_bind ((assigns_readPart _).mono (by decide)) fun data ↦ ?_
    refine touches_bind (assigns_update fun w p hp ↦ ?_) fun _ ↦ touches_ofResult _
    cases p <;> simp_all [SameField]

theorem assigns_reopenPart (chunkIndex : ℤ) (temp : Path) :
    Assigns [.disk, .tempFh, .progress, .state] (reopenPart chunkIndex temp) := by
  have hprogress : ∀ {f : IncomingTransfer → IncomingTransfer},
      (∀ self, f self = { self with
        hasher := (f self).hasher, bytesReceived := (f self).bytesReceived
        nextSeq := (f self).nextSeq }) →
      Assigns [.disk, .tempFh, .progress, .state] (update f) := by
    intro f hf
    refine assigns_update fun w p hp ↦ ?_
    rw [hf]
    cases p <;> simp_all [SameField]
  refine touches_bind ?_ fun _ ↦ ?_
  · refine touches_tryCatch ?_ fun e ↦ touches_ite _ ?_ (touches_throw _)
    · exact touches_bind ((assigns_onDisk _).mono (by decide)) fun _ ↦
        (assigns_assignTempFh _).mono (by decide)
    · exact touches_bind ((assigns_setState (by decide)).mono (by decide)) fun _ ↦ touches_throw _
  refine touches_bind ((assigns_onDisk _).mono (by decide)) fun result ↦ ?_
  refine touches_bind (hprogress fun _ ↦ rfl) fun _ ↦ ?_
  refine touches_bind ((assigns_onDisk _).mono (by decide)) fun size ↦ ?_
  exact touches_bind (hprogress fun _ ↦ rfl) fun _ ↦ (assigns_transition (by decide)).mono (by decide)

theorem assigns_resume (chunkIndex : ℤ) :
    Assigns [.disk, .tempFh, .progress, .state] (resume chunkIndex) := by
  have hstate : ∀ {state : TransferState}, state ≠ .idle →
      Assigns [.disk, .tempFh, .progress, .state] (setState state) :=
    fun h ↦ (assigns_setState h).mono (by decide)
  refine touches_get_bind fun w ↦ touches_bind (touches_raiseIf _ _) fun _ ↦ ?_
  refine touches_bind (hstate (by decide)) fun _ ↦ ?_
  split
  · exact touches_bind (hstate (by decide)) fun _ ↦ touches_throw _
  · exact touches_ite _ (assigns_reopenPart _ _)
      (touches_bind (hstate (by decide)) fun _ ↦ touches_throw _)

end IncomingTransfer

end Ferry
