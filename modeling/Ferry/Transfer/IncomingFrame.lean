import Ferry.Transfer.Destination

/-!
# What the methods of an incoming transfer leave alone

Every method keeps the metadata and the download directory, works on the `.part` file of the
transfer only, and sets the final path to a resolved destination only.  The rename of `finalise` is
the one exception.
-/

namespace Ferry

namespace IncomingTransfer

open Exec Disk

/-! ## Rules for access to the object and the disk -/

theorem onDisk_ok {α : Type} {m : Exec IoError Disk α} {w : World} {a : α} :
    (onDisk m w).1 = .ok a ↔ (m w.disk).1 = .ok a := mapError_eq_ok

theorem onDisk_error {α : Type} {m : Exec IoError Disk α} {w : World} {e : PyError}
    (h : (onDisk m w).1 = .error e) : ∃ e', (m w.disk).1 = .error e' := by
  cases hm : (m w.disk).1 with
  | error e' => exact ⟨e', rfl⟩
  | ok a => rw [onDisk_ok.mpr hm] at h; exact absurd h (by simp)

theorem onDisk_world {α : Type} (m : Exec IoError Disk α) (w : World) :
    (onDisk m w).2 = { w with disk := (m w.disk).2 } := rfl

@[simp] theorem wp_onDisk {α : Type} (m : Exec IoError Disk α) (Q : Except PyError α → World → Prop)
    (w : World) : wp (onDisk m) Q w ↔
      wp m (fun r d ↦ Q (r.mapError .ofIo) { w with disk := d }) w.disk := Iff.rfl

/-- Sequencing after a call on the disk, with what is known of the call. -/
theorem wp_onDisk_bind {α β : Type} {m : Exec IoError Disk α} {f : α → Method β}
    {P : Except IoError α → Disk → Prop} {Q : Except PyError β → World → Prop} {w : World}
    (hm : wp m P w.disk)
    (herror : ∀ e d, P (.error e) d → Q (.error (.ofIo e)) { w with disk := d })
    (hok : ∀ a d, P (.ok a) d → wp (f a) Q { w with disk := d }) : wp (onDisk m >>= f) Q w := by
  rw [wp_bind, wp_onDisk]
  apply wp_mono hm
  intro r d hd
  cases r with
  | error e => exact herror e d hd
  | ok a => exact hok a d hd

theorem wp_onTempFh_none {α : Type} {m : Exec IoError (Disk × Handle) α}
    {Q : Except PyError α → World → Prop} {w : World} (hfh : w.self.tempFh = none) :
    wp (onTempFh m) Q w ↔ Q (.error .attribute) w := by
  unfold onTempFh
  rw [wp_get_bind, hfh]
  rfl

theorem wp_onTempFh_some {α : Type} {m : Exec IoError (Disk × Handle) α}
    {Q : Except PyError α → World → Prop} {w : World} {fh : Handle} (hfh : w.self.tempFh = some fh) :
    wp (onTempFh m) Q w ↔
      wp m (fun r s ↦ Q (r.mapError .ofIo)
        { w with disk := s.1, self := { w.self with tempFh := some s.2 } }) (w.disk, fh) := by
  unfold onTempFh
  rw [wp_get_bind, hfh]
  rfl

theorem isOsError_ofIo {e : IoError} (h : e.IsOsError) : (PyError.ofIo e).IsOsError := by
  cases e <;> simp_all [PyError.ofIo, PyError.IsOsError, IoError.IsOsError]

@[simp] theorem wp_update (f : IncomingTransfer → IncomingTransfer)
    (Q : Except PyError PUnit → World → Prop) (w : World) :
    wp (update f) Q w ↔ Q (.ok ()) { w with self := f w.self } := Iff.rfl

@[simp] theorem wp_setState (state : TransferState) (Q : Except PyError Unit → World → Prop) (w : World) :
    wp (setState state) Q w ↔ Q (.ok ()) { w with self := { w.self with state } } := Iff.rfl

/-- A transition is made when the table allows it, and raises otherwise. -/
theorem wp_transition (new : TransferState) (Q : Except PyError Unit → World → Prop) (w : World) :
    wp (transition new) Q w ↔
      (new ∈ w.self.state.validTransitions →
        Q (.ok ()) { w with self := { w.self with state := new } }) ∧
      (new ∉ w.self.state.validTransitions →
        Q (.error (.runtime (.invalidTransition w.self.state new))) w) := by
  unfold transition
  rw [wp_get_bind, wp_bind, wp_ofResult]
  by_cases h : new ∈ w.self.state.validTransitions <;> simp [transferTransition, h, setState]

theorem wp_update_bind {β : Type} (f : IncomingTransfer → IncomingTransfer) (g : PUnit → Method β)
    (Q : Except PyError β → World → Prop) (w : World) :
    wp (update f >>= g) Q w ↔ wp (g ()) Q { w with self := f w.self } := Iff.rfl

theorem wp_setState_bind {β : Type} (state : TransferState) (g : PUnit → Method β)
    (Q : Except PyError β → World → Prop) (w : World) :
    wp (setState state >>= g) Q w ↔ wp (g ()) Q { w with self := { w.self with state } } := Iff.rfl

theorem wp_transition_bind {β : Type} (new : TransferState) (f : Unit → Method β)
    (Q : Except PyError β → World → Prop) (w : World) :
    wp (transition new >>= f) Q w ↔
      (new ∈ w.self.state.validTransitions →
        wp (f ()) Q { w with self := { w.self with state := new } }) ∧
      (new ∉ w.self.state.validTransitions →
        Q (.error (.runtime (.invalidTransition w.self.state new))) w) := by
  rw [wp_bind, wp_transition]

section Frame

variable (metadata : TransferMetadata) (dir : DownloadDir)

/-- The object belongs to the transfer of `metadata`, and its temporary path and open file are those
of the `.part` file. -/
structure Owns (w : World) : Prop where
  metadata_eq : w.self.metadata = metadata
  downloadDir_eq : w.self.downloadDir = dir
  tempPath : ∀ p, w.self.tempPath = some p → p = metadata.partPath dir
  tempFh : ∀ fh, w.self.tempFh = some fh → fh.path = metadata.partPath dir

/-- The final path stays, or becomes a resolved destination. -/
def FinalPathFrom (w w' : World) : Prop :=
  w'.self.finalPath = w.self.finalPath ∨ ∃ dest,
    resolveSafeDestination dir.path metadata.fileName metadata.relativePath = .ok dest ∧
      w'.self.finalPath = some dest

/-- The effect of a method on a transfer, seen from outside its `.part` file. -/
structure Kept (w w' : World) : Prop where
  owns : Owns metadata dir w'
  finalPath : FinalPathFrom metadata dir w w'
  disk : OnlyAt (metadata.partPath dir) w.disk w'.disk

def Framed (w w' : World) : Prop := Owns metadata dir w → Kept metadata dir w w'

variable {metadata dir}

instance : IsPreorder World (Framed metadata dir) where
  refl := fun w h ↦ ⟨h, .inl rfl, OnlyAt.refl _ _⟩
  trans := by
    intro w w' w'' h h' hown
    have hkept := h hown
    have hkept' := h' hkept.owns
    refine ⟨hkept'.owns, ?_, hkept.disk.trans hkept'.disk⟩
    rcases hkept'.finalPath with hsame | hset
    · rcases hkept.finalPath with hsame' | ⟨dest, hdest, hset⟩
      · exact .inl (hsame.trans hsame')
      · exact .inr ⟨dest, hdest, hsame.trans hset⟩
    · exact .inr hset

/-! ## Access to the object and the disk -/

theorem stays_onDisk {α : Type} {m : Exec IoError Disk α}
    (hm : Stays (OnlyAt (metadata.partPath dir)) m) : Stays (Framed metadata dir) (onDisk m) :=
  stays_zoom (stays_mapError PyError.ofIo hm) fun _ _ hdisk hown ↦
    ⟨⟨hown.metadata_eq, hown.downloadDir_eq, hown.tempPath, hown.tempFh⟩, .inl rfl, hdisk⟩

theorem stays_onDisk_file {α : Type} {m : Exec IoError Disk α}
    (hm : Stays (OnlyFile (metadata.partPath dir)) m) : Stays (Framed metadata dir) (onDisk m) :=
  stays_onDisk (hm.mono fun _ _ ↦ OnlyFile.onlyAt)

/-- An assignment to counters, hasher or state. -/
theorem stays_update {f : IncomingTransfer → IncomingTransfer}
    (hmetadata : ∀ self, (f self).metadata = self.metadata)
    (hdir : ∀ self, (f self).downloadDir = self.downloadDir)
    (htemp : ∀ self, (f self).tempPath = self.tempPath)
    (hfinal : ∀ self, (f self).finalPath = self.finalPath)
    (hfh : ∀ self, (f self).tempFh = self.tempFh) : Stays (Framed metadata dir) (update f) :=
  stays_modify fun w hown ↦
    ⟨⟨(hmetadata w.self).trans hown.metadata_eq, (hdir w.self).trans hown.downloadDir_eq,
      fun p hp ↦ hown.tempPath p ((htemp w.self).symm.trans hp),
      fun fh hh ↦ hown.tempFh fh ((hfh w.self).symm.trans hh)⟩, .inl (hfinal w.self), OnlyAt.refl _ _⟩

theorem stays_setState (state : TransferState) : Stays (Framed metadata dir) (setState state) :=
  stays_update (fun _ ↦ rfl) (fun _ ↦ rfl) (fun _ ↦ rfl) (fun _ ↦ rfl) fun _ ↦ rfl

theorem stays_transition (new : TransferState) : Stays (Framed metadata dir) (transition new) :=
  stays_get_bind fun w ↦ stays_bind (stays_ofResult _) (fun state ↦ stays_setState state) w

theorem stays_onTempFh {α : Type} {m : Exec IoError (Disk × Handle) α}
    (hm : Stays Handle.OwnFile m) : Stays (Framed metadata dir) (onTempFh m) := by
  refine stays_get_bind fun w ↦ ?_
  cases hfh : w.self.tempFh with
  | none => exact stays_throw _ w
  | some handle =>
    intro hown
    have hpath : handle.path = metadata.partPath dir := hown.tempFh handle hfh
    have hfile : Handle.OwnFile (w.disk, handle) (m (w.disk, handle)).2 := hm (w.disk, handle)
    refine ⟨⟨hown.metadata_eq, hown.downloadDir_eq, hown.tempPath, fun fh hfh' ↦ ?_⟩, .inl rfl, ?_⟩
    · exact (Option.some.inj hfh') ▸ (hfile.path.trans hpath)
    · exact hpath ▸ hfile.disk.onlyAt

theorem stays_assignTempFh {fh : Option Handle}
    (hfh : ∀ handle, fh = some handle → handle.path = metadata.partPath dir) :
    Stays (Framed metadata dir) (assignTempFh fh) := by
  refine stays_get_bind fun w hown ↦ ?_
  have hassign : Stays (Framed metadata dir) (update fun self ↦ { self with tempFh := fh }) :=
    stays_modify fun w hown ↦
      ⟨⟨hown.metadata_eq, hown.downloadDir_eq, hown.tempPath, hfh⟩, .inl rfl, OnlyAt.refl _ _⟩
  refine stays_bind hassign (fun _ ↦ ?_) w hown
  cases hold : w.self.tempFh with
  | none => exact stays_pure _
  | some handle =>
    have hpath := hown.tempFh handle hold
    exact stays_onDisk_file (hpath ▸ Handle.stays_drop handle)

/-- A file opened on the disk has the path that was asked for. -/
theorem path_onDisk_open {p : Path} {m : Exec IoError Disk Handle}
    (hm : Returns (· = ⟨p, [], false⟩) m) : Returns (fun fh : Handle ↦ fh.path = p) (onDisk m) := by
  intro w fh hfh
  have hok : (m w.disk).1 = .ok fh := mapError_eq_ok.mp hfh
  rw [hm w.disk fh hok]

/-! ## Methods -/

theorem stays_cleanupTemp : Stays (Framed metadata dir) cleanupTemp := by
  refine stays_get_bind fun w hown ↦ ?_
  cases htemp : w.self.tempPath with
  | none => exact stays_pure (R := Framed metadata dir) _ w hown
  | some temp =>
    have hpath := hown.tempPath temp htemp
    exact stays_ite _ (stays_tryCatch (stays_onDisk_file (hpath ▸ stays_unlink temp)) fun _ ↦ stays_pure _)
      (stays_pure _) w hown

theorem stays_closeTempFh : Stays (Framed metadata dir) closeTempFh :=
  stays_get_bind fun w ↦ stays_ite _
    (stays_bind (stays_tryCatch (stays_onTempFh Handle.stays_close) fun _ ↦ stays_pure _) fun _ ↦
      stays_assignTempFh (by simp)) (stays_pure _) w

theorem stays_cleanupOnIoError : Stays (Framed metadata dir) cleanupOnIoError :=
  stays_bind stays_closeTempFh fun _ ↦ stays_bind stays_cleanupTemp fun _ ↦ stays_setState _

theorem stays_cancel : Stays (Framed metadata dir) cancel :=
  stays_bind stays_closeTempFh fun _ ↦ stays_bind stays_cleanupTemp fun _ ↦ stays_setState _

theorem stays_openStaging : Stays (Framed metadata dir) openStaging := by
  refine stays_get_bind fun w hown ↦ ?_
  rw [hown.metadata_eq, hown.downloadDir_eq]
  have htemp : Stays (Framed metadata dir)
      (update fun self ↦ { self with tempPath := some (metadata.partPath dir) }) :=
    stays_modify fun _ hown ↦
      ⟨⟨hown.metadata_eq, hown.downloadDir_eq, fun _ hp ↦ (Option.some.inj hp).symm, hown.tempFh⟩,
        .inl rfl, OnlyAt.refl _ _⟩
  refine stays_bind (stays_onDisk (stays_mkdir _ _)) (fun _ ↦ ?_) w hown
  refine stays_bind (stays_onDisk (stays_mkdir _ _)) fun _ ↦ ?_
  refine stays_bind htemp fun _ ↦ ?_
  refine stays_ofResult_bind fun dest hdest ↦ ?_
  have hfinal : Stays (Framed metadata dir) (update fun self ↦ { self with finalPath := some dest }) :=
    stays_modify fun _ hown ↦
      ⟨⟨hown.metadata_eq, hown.downloadDir_eq, hown.tempPath, hown.tempFh⟩,
        .inr ⟨dest, hdest, rfl⟩, OnlyAt.refl _ _⟩
  refine stays_bind hfinal fun _ ↦ ?_
  refine stays_bind (stays_onDisk (stays_mkdir _ _)) fun _ ↦ ?_
  refine stays_bind_of (stays_onDisk_file (Handle.stays_openTruncate _)) ?_ fun fh hfh ↦
    stays_assignTempFh (by simpa using hfh)
  exact path_onDisk_open fun d fh hfh ↦ ((Handle.openTruncate_spec _ d).1 fh hfh).1

/-- An exception handler that assigns a state and raises another exception for an `OSError`. -/
theorem stays_onOsError {α : Type} {handler : Method α} (hhandler : Stays (Framed metadata dir) handler)
    (e : PyError) :
    Stays (Framed metadata dir) (if e.IsOsError then handler else throw e) :=
  stays_ite _ hhandler (stays_throw e)

theorem stays_begin : Stays (Framed metadata dir) begin := by
  refine stays_bind (stays_transition _) fun _ ↦ ?_
  refine stays_bind (stays_tryCatch stays_openStaging fun e ↦ ?_) fun _ ↦ stays_transition _
  exact stays_onOsError (stays_bind (stays_transition _) fun _ ↦ stays_throw _) e

theorem stays_receiveChunk (frame : ChunkFrame) : Stays (Framed metadata dir) (receiveChunk frame) := by
  refine stays_get_bind fun w ↦ ?_
  refine stays_bind (stays_raiseIf _ _) (fun _ ↦ ?_) w
  refine stays_bind (stays_raiseIf _ _) fun _ ↦ ?_
  refine stays_bind (stays_raiseIf _ _) fun _ ↦ ?_
  refine stays_bind (stays_raiseIf _ _) fun _ ↦ ?_
  refine stays_bind (stays_tryCatch (stays_onTempFh (Handle.stays_write _)) fun e ↦ ?_) fun _ ↦
    stays_update (fun _ ↦ rfl) (fun _ ↦ rfl) (fun _ ↦ rfl) (fun _ ↦ rfl) fun _ ↦ rfl
  exact stays_onOsError (stays_bind stays_cleanupOnIoError fun _ ↦ stays_throw _) e

theorem stays_flushTempFh : Stays (Framed metadata dir) flushTempFh :=
  stays_get_bind fun w ↦ stays_ite _
    (stays_bind (stays_onTempFh Handle.stays_flush) fun _ ↦
      stays_bind (stays_onTempFh Handle.stays_close) fun _ ↦ stays_assignTempFh (by simp))
    (stays_pure _) w

theorem stays_releaseTempFh : Stays (Framed metadata dir) releaseTempFh := by
  refine stays_get_bind fun w ↦ stays_ite _ ?_ (stays_pure _) w
  refine stays_bind (stays_tryCatch ?_ fun _ ↦ stays_pure _) fun _ ↦ stays_assignTempFh (by simp)
  exact stays_bind (stays_onTempFh Handle.stays_flush) fun _ ↦ stays_onTempFh Handle.stays_close

theorem stays_bytesOnDisk : Stays (Framed metadata dir) bytesOnDisk := by
  refine stays_get_bind fun w ↦ ?_
  cases w.self.tempPath with
  | none => exact stays_pure _ w
  | some temp =>
    exact stays_ite _ (stays_tryCatch (stays_onDisk_file (stays_stat _ _)) fun e ↦
      stays_onOsError (stays_pure _) e) (stays_pure _) w

theorem stays_truncateToChunk (actual : ℕ) : Stays (Framed metadata dir) (truncateToChunk actual) := by
  refine stays_get_bind fun w hown ↦ ?_
  cases htemp : w.self.tempPath with
  | none => exact stays_pure (R := Framed metadata dir) _ w hown
  | some temp =>
    have hpath := hown.tempPath temp htemp
    refine stays_ite _ (stays_tryCatch ?_ fun e ↦ stays_onOsError (stays_pure _) e) (stays_pure _) w hown
    exact stays_bind (stays_raiseIf _ _) fun _ ↦
      stays_bind (stays_onDisk_file (hpath ▸ stays_truncate temp _)) fun _ ↦
        stays_update (fun _ ↦ rfl) (fun _ ↦ rfl) (fun _ ↦ rfl) (fun _ ↦ rfl) fun _ ↦ rfl

theorem stays_interrupt : Stays (Framed metadata dir) interrupt := by
  refine stays_get_bind fun w ↦ stays_ite _ (stays_pure _) (stays_ite _ (stays_setState _)
    (stays_ite _ (stays_setState _) ?_)) w
  refine stays_bind stays_releaseTempFh fun _ ↦ stays_bind stays_bytesOnDisk fun actual ↦
    stays_get_bind fun w ↦ stays_ite _ (stays_setState _) ?_ w
  exact stays_bind
    (stays_update (fun _ ↦ rfl) (fun _ ↦ rfl) (fun _ ↦ rfl) (fun _ ↦ rfl) fun _ ↦ rfl) fun _ ↦
      stays_bind (stays_truncateToChunk actual) fun _ ↦ stays_transition _

theorem stays_prepareResumeRequest (expectedBytes expectedChunkIndex : Option ℤ) :
    Stays (Framed metadata dir) (prepareResumeRequest expectedBytes expectedChunkIndex) := by
  refine stays_get_bind fun w ↦ stays_bind (stays_raiseIf _ _) (fun _ ↦ ?_) w
  cases w.self.tempPath with
  | none => exact stays_throw _
  | some temp =>
    have hcheck : ∀ m size, Stays (Framed metadata dir)
        (checkPartial m size expectedBytes expectedChunkIndex) := by
      intro m size
      iterate 6 refine stays_bind (stays_raiseIf _ _) fun _ ↦ ?_
      exact stays_raiseIf _ _
    have hread : Stays (Framed metadata dir) (readPart temp) := by
      refine stays_bind (stays_onDisk_file (stays_readBlocks _ _)) fun result ↦ ?_
      obtain ⟨data, error⟩ := result
      cases error with
      | none => exact stays_pure _
      | some e => exact stays_throw _
    exact stays_bind (stays_raiseIf _ _) fun _ ↦ stays_bind (stays_onDisk_file (stays_stat _ _)) fun size ↦
      stays_bind (hcheck _ size) fun _ ↦ stays_bind hread fun data ↦
        stays_bind
          (stays_update (fun _ ↦ rfl) (fun _ ↦ rfl) (fun _ ↦ rfl) (fun _ ↦ rfl) fun _ ↦ rfl) fun _ ↦
            stays_ofResult _

theorem stays_resume (chunkIndex : ℤ) : Stays (Framed metadata dir) (resume chunkIndex) := by
  refine stays_get_bind fun w hown ↦ ?_
  refine stays_bind (stays_raiseIf _ _) (fun _ ↦ stays_bind (stays_setState _) fun _ ↦ ?_) w hown
  cases htemp : w.self.tempPath with
  | none => exact stays_bind (stays_setState _) fun _ ↦ stays_throw _
  | some temp =>
    have hpath := hown.tempPath temp htemp
    refine stays_ite _ ?_ (stays_bind (stays_setState _) fun _ ↦ stays_throw _)
    refine stays_bind (stays_tryCatch ?_ fun e ↦ ?_) fun _ ↦ ?_
    · refine stays_bind_of (stays_onDisk_file (hpath ▸ Handle.stays_openAppend temp)) ?_ fun fh hfh ↦
        stays_assignTempFh (by simpa [hpath] using hfh)
      exact path_onDisk_open fun d fh hfh ↦ hpath ▸ ((Handle.openAppend_spec temp d).1 fh hfh).1
    · exact stays_onOsError (stays_bind (stays_setState _) fun _ ↦ stays_throw _) e
    · refine stays_bind (stays_onDisk_file (stays_readBlocks _ _)) fun result ↦ ?_
      refine stays_bind (stays_update (fun _ ↦ rfl) (fun _ ↦ rfl) (fun _ ↦ rfl) (fun _ ↦ rfl)
        fun _ ↦ rfl) fun _ ↦ stays_bind (stays_onDisk_file (stays_stat _ _)) fun size ↦ ?_
      exact stays_bind (stays_update (fun _ ↦ rfl) (fun _ ↦ rfl) (fun _ ↦ rfl) (fun _ ↦ rfl)
        fun _ ↦ rfl) fun _ ↦ stays_transition _

end Frame

end IncomingTransfer

end Ferry
