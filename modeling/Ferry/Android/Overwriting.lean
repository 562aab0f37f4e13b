import Ferry.Android.Integrity
import Ferry.Transfer.Overwriting

/-!
# Files that a receiver on Android leaves alone

The receivers of the Android client share a staging directory and leave the finished files there.  A
chunk is appended to whatever lies at the staging path, `cancel` and a `finalise` that fails remove
it, and `finalise` replaces what lies at the second name that it falls back to.
-/

namespace Ferry

open Exec Disk

namespace JavaFile

theorem extends_mkdirs (p : Path) (d : Disk) : wp (mkdirs p) (fun _ d' ↦ Extends d d') d :=
  wp_tryCatch_of (extends_mkdir p d) (fun _ _ h ↦ h) fun _ _ h ↦ h

theorem extends_createNewFile (p : Path) (d : Disk) :
    wp (createNewFile p) (fun _ d' ↦ Extends d d') d := by
  unfold createNewFile
  rw [wp_perform_bind, wp_get_bind, wp_raiseIf_bind, nodes_advance]
  refine ⟨fun _ ↦ Extends.refl d, fun _ ↦ ?_⟩
  rw [wp_ite]
  refine ⟨fun _ ↦ Extends.refl d, fun hfree ↦ ?_⟩
  rw [wp_raiseIf_bind]
  refine ⟨fun _ ↦ Extends.refl d, fun _ ↦ ?_⟩
  intro q hq
  have hne : q ≠ p := by
    rintro rfl
    exact hq (not_not.mp hfree)
  exact if_neg hne

theorem onlyFile_appendBytes (p : Path) (data : Bytes) : Stays (OnlyFile p) (appendBytes p data) := by
  refine stays_bind (stays_perform p .openFile) fun opened ↦ stays_get_bind fun d ↦ ?_
  refine stays_bind (stays_raiseIf _ _) (fun _ ↦ ?_) d
  refine stays_bind (stays_raiseIf _ _) fun _ ↦ ?_
  refine stays_bind (stays_raiseIf _ _) fun _ ↦ ?_
  refine stays_bind (stays_perform p .write) fun written ↦ ?_
  refine stays_bind (stays_perform p .close) fun closed ↦ ?_
  refine stays_bind (stays_modify fun d ↦ ?_) fun _ ↦ stays_raiseIf _ _
  exact (onlyFile_put p d _).trans (onlyFile_append p _ _)

theorem onlyFile_delete (p : Path) : Stays (OnlyFile p) (delete p) := by
  refine stays_bind (stays_perform p .unlink) fun outcome ↦ stays_get_bind fun d ↦ ?_
  refine stays_ite _ (stays_pure _) ?_ d
  exact stays_bind (stays_modify fun d ↦ onlyFile_put p d none) fun _ ↦ stays_pure _

theorem onlyFile_fileExists (p q : Path) : Stays (OnlyFile p) (fileExists q) :=
  fun d ↦ onlyFile_advance p d .stat

end JavaFile

namespace FerryTransferReceiver

open JavaFile

/-! ## The condition -/

/-- From the state of the receiver the call changes what lies at its staging path. -/
def Call.Touches (self : FerryTransferReceiver) : Call → Prop
  | receiveChunk transferId seq data =>
    (self.state = .transferring ∨ self.state = .resuming) ∧ transferId = self.metadata.transferId ∧
      seq = self.nextSeq ∧ data.length ≤ self.metadata.chunkSize
  | cancel | finalise => True
  | begin | interrupt | resume _ => False

/-- The first name of `finalise` is not taken by a file that the query misses, and the second name is
free or not needed. -/
def Call.NameClear (disk : Disk) (self : FerryTransferReceiver) : Call → Prop
  | finalise => Sha256.hexdigest self.digest = Text.asciiLower self.metadata.sha256 →
      let finalFile := JavaFile.child self.stagingDir self.metadata.fileName
      (disk.IsFile finalFile → reports disk finalFile) ∧
        (reports disk finalFile → ¬disk.IsFile (JavaFile.child self.stagingDir
          (self.metadata.transferId.take 8 ++ Text.lit "_" ++ self.metadata.fileName)))
  | _ => True

/-- The receivers that share a staging directory. -/
def stager (stagingDir : Path) : Stager Kotlin.TransferMetadata FerryTransferReceiver Call where
  path := fun metadata ↦ stagingFile metadata stagingDir
  new := fun metadata ↦ new metadata stagingDir
  run := fun c disk self ↦ ((c.run ⟨disk, self⟩).disk, (c.run ⟨disk, self⟩).self)
  Begins := fun c ↦ c = .begin
  Careful := fun metadata own disk self c ↦
    (c.Touches self → disk.Exists (stagingFile metadata stagingDir) → own) ∧ c.NameClear disk self

/-! ## The methods -/

section Methods

variable {w : ReceiverWorld}

theorem begin_extends (w : ReceiverWorld) : wp begin (fun _ w' ↦ Extends w.disk w'.disk) w := by
  have hrefl : Extends w.disk w.disk := Extends.refl w.disk
  unfold begin
  rw [wp_get_bind, wp_raiseIf_bind]
  refine ⟨fun _ ↦ hrefl, fun _ ↦ ?_⟩
  rw [wp_bind, wp_onDisk]
  apply wp_mono (extends_mkdirs w.self.stagingDir w.disk)
  intro r d hmade
  cases r with
  | error e => exact hmade
  | ok u =>
    dsimp only [Except.mapError]
    rw [wp_bind, wp_tryCatch, wp_onDisk]
    apply wp_mono (extends_createNewFile w.self.tempFile d)
    intro r d' hcreated
    cases r with
    | error e => exact hmade.trans hcreated
    | ok u => exact hmade.trans hcreated

/-- A query of the disk. -/
theorem nodes_onDisk_bind {α β : Type} {m : Exec IoError Disk α} {f : α → Method β}
    {nodes : Path → Option Node} (hw : w.disk.nodes = nodes) (hm : ∀ d, wp m (fun _ d' ↦ d'.nodes = d.nodes) d)
    (hf : ∀ a d, d.nodes = nodes → wp (f a) (fun _ w' ↦ w'.disk.nodes = nodes) { w with disk := d }) :
    wp (onDisk m >>= f) (fun _ w' ↦ w'.disk.nodes = nodes) w := by
  rw [wp_bind, wp_onDisk]
  apply wp_mono (hm w.disk)
  intro r d hd
  cases r with
  | error e => exact hd.trans hw
  | ok a => exact hf a d (hd.trans hw)

theorem resume_nodes (chunkIndex : ℤ) (w : ReceiverWorld) :
    wp (resume chunkIndex) (fun _ w' ↦ w'.disk.nodes = w.disk.nodes) w := by
  unfold resume
  rw [wp_get_bind, wp_raiseIf_bind]
  refine ⟨fun _ ↦ rfl, fun _ ↦ ?_⟩
  refine nodes_onDisk_bind rfl (fun d ↦ rfl) fun found d hd ↦ ?_
  dsimp only
  rw [wp_ite]
  refine ⟨fun _ ↦ ?_, fun _ ↦ hd⟩
  have hlength : ∀ d, wp (length w.self.tempFile) (fun _ d' ↦ d'.nodes = d.nodes) d :=
    fun d ↦ wp_tryCatch_of (stat_spec _ d) (fun _ _ h ↦ h.1) fun _ _ h ↦ h.1
  refine nodes_onDisk_bind hd hlength fun size d' hd' ↦ ?_
  exact nodes_onDisk_bind hd' (fun d ↦ (readBlocks_spec _ d).1) fun read d'' hd'' ↦ hd''

theorem cleanup_only (w : ReceiverWorld) :
    wp cleanup (fun _ w' ↦ w'.self = w.self ∧ OnlyFile w.self.tempFile w.disk w'.disk) w := by
  have hrefl : OnlyFile w.self.tempFile w.disk w.disk := OnlyFile.refl _ _
  unfold cleanup
  rw [wp_get_bind, wp_bind, wp_onDisk]
  apply wp_mono (onlyFile_fileExists w.self.tempFile w.self.tempFile w.disk)
  intro r d hqueried
  cases r with
  | error e => exact ⟨rfl, hqueried⟩
  | ok found =>
    dsimp only [Except.mapError]
    rw [wp_ite]
    refine ⟨fun _ ↦ ?_, fun _ ↦ ⟨rfl, hqueried⟩⟩
    rw [wp_bind, wp_onDisk]
    apply wp_mono (onlyFile_delete w.self.tempFile d)
    intro r d' hdeleted
    cases r with
    | error e => exact ⟨rfl, hqueried.trans hdeleted⟩
    | ok b => exact ⟨rfl, hqueried.trans hdeleted⟩

theorem receiveChunk_only (transferId : Text) (seq : ℤ) (data : Bytes) (w : ReceiverWorld) :
    wp (receiveChunk transferId seq data) (fun _ w' ↦ w' = w ∨
      Call.Touches w.self (.receiveChunk transferId seq data) ∧
        OnlyFile w.self.tempFile w.disk w'.disk) w := by
  unfold receiveChunk
  rw [wp_get_bind, wp_raiseIf_bind]
  refine ⟨fun _ ↦ .inl rfl, fun hstate ↦ ?_⟩
  rw [wp_raiseIf_bind]
  refine ⟨fun _ ↦ .inl rfl, fun hid ↦ ?_⟩
  rw [wp_raiseIf_bind]
  refine ⟨fun _ ↦ .inl rfl, fun hseq ↦ ?_⟩
  rw [wp_raiseIf_bind]
  refine ⟨fun _ ↦ .inl rfl, fun hlength ↦ ?_⟩
  have htouches : Call.Touches w.self (.receiveChunk transferId seq data) :=
    ⟨by tauto, not_not.mp hid, not_not.mp hseq, not_lt.mp hlength⟩
  rw [wp_bind, wp_tryCatch, wp_onDisk]
  apply wp_mono (onlyFile_appendBytes w.self.tempFile data w.disk)
  intro r d happended
  cases r with
  | ok u => exact .inr ⟨htouches, happended⟩
  | error e =>
    dsimp only [Except.mapError]
    rw [wp_bind]
    apply wp_mono (cleanup_only { w with disk := d })
    rintro r w' ⟨-, hcleaned⟩
    cases r with
    | error e => exact .inr ⟨htouches, happended.trans hcleaned⟩
    | ok u => exact .inr ⟨htouches, happended.trans hcleaned⟩

theorem cancel_only (w : ReceiverWorld) :
    wp cancel (fun _ w' ↦ OnlyFile w.self.tempFile w.disk w'.disk) w := by
  unfold cancel
  rw [wp_bind]
  apply wp_mono (cleanup_only w)
  rintro r w' ⟨-, hcleaned⟩
  cases r with
  | error e => exact hcleaned
  | ok u => exact hcleaned

theorem refuse_only (w : ReceiverWorld) :
    wp refuse (fun _ w' ↦ OnlyFile w.self.tempFile w.disk w'.disk) w := by
  unfold refuse
  rw [wp_bind]
  apply wp_mono (cleanup_only w)
  rintro r w' ⟨-, hcleaned⟩
  cases r with
  | error e => exact hcleaned
  | ok u => exact hcleaned

/-- `finalise` changes the staging file only, or moves it to a place that is no directory. -/
theorem finalise_only (w : ReceiverWorld) :
    wp finalise (fun _ w' ↦ OnlyFile w.self.tempFile w.disk w'.disk ∨
      Sha256.hexdigest w.self.digest = Text.asciiLower w.self.metadata.sha256 ∧
        w.disk.nodes w.self.tempFile ≠ none ∧
        w.disk.nodes (w.self.finalFile w.disk) ≠ some .directory ∧
        w'.disk.nodes = (w.disk.move w.self.tempFile (w.self.finalFile w.disk)).nodes) w := by
  unfold finalise
  rw [wp_get_bind, wp_update_bind, wp_ite]
  constructor
  · intro _
    apply wp_mono (refuse_only _)
    exact fun _ _ hrefused ↦ .inl hrefused
  · intro hdigest
    rw [wp_bind]
    apply wp_mono (place_spec _)
    rintro r w' ⟨hself, hfaults, ⟨rfl, hnode, hdst, hmoved⟩ | ⟨rfl, hnodes⟩⟩
    · exact .inr ⟨not_not.mp hdigest, hnode, hdst, hmoved⟩
    · dsimp only
      rw [if_neg Bool.false_ne_true]
      apply wp_mono (refuse_only w')
      intro _ w'' hrefused
      rw [hself] at hrefused
      refine .inl ⟨fun q hq ↦ ?_, fun call ↦ (hrefused.faults call).trans (hfaults call)⟩
      rw [hrefused.nodes q hq, hnodes]

/-- Every call keeps the parameters of the receiver. -/
theorem Call.framed (c : Call) (hdir : w.self.tempFile ∉ w.self.stagingDir.inits) :
    Framed w (c.run w) := by
  have hrefl : Framed w w := ⟨rfl, rfl, fun _ ↦ List.suffix_rfl⟩
  cases c with
  | begin => exact (begin_spec w hdir).1
  | receiveChunk transferId seq data => exact (receiveChunk_spec transferId seq data w).1
  | interrupt =>
    have hrun : wp FerryTransferReceiver.interrupt (fun _ w' ↦ Framed w w') w := by
      apply wp_mono (interrupt_spec w)
      rintro r w' (rfl | ⟨-, rfl⟩)
      · exact hrefl
      · exact ⟨rfl, rfl, hrefl.faults⟩
    exact hrun
  | resume chunkIndex => exact (resume_spec chunkIndex w).1
  | cancel =>
    have hrun : wp FerryTransferReceiver.cancel (fun _ w' ↦ Framed w w') w := by
      apply wp_mono (cancel_spec w)
      rintro r w' ⟨hself, hcleaned⟩
      exact ⟨by rw [hself], by rw [hself], hcleaned.faults⟩
    exact hrun
  | finalise => exact (finalise_spec w).1

end Methods

/-! ## A careful call -/

section Spares

variable {w : ReceiverWorld} {own : Prop} {q : Path} {data : Bytes}

/-- Where nothing but the own staging file is at the staging path, a change there leaves every other
file. -/
theorem holds_of_onlyFile {d : Disk} (honly : OnlyFile w.self.tempFile w.disk d)
    (hfile : own → w.disk.IsFile w.self.tempFile) (hclear : w.disk.Exists w.self.tempFile → own)
    (hholds : w.disk.Holds q data) (hother : ¬(own ∧ q = w.self.tempFile)) : d.Holds q data := by
  refine hholds.onlyAt honly.onlyAt (fun hdir ↦ ?_) fun hq ↦ ?_
  · obtain ⟨data', hdata'⟩ := hfile (hclear (by simp [Disk.Exists, hdir]))
    simp [hdir] at hdata'
  · exact hother ⟨hclear (hq ▸ hholds.exists (.inl rfl)), hq⟩

/-- The name that `finalise` chose is free. -/
theorem finalFile_free (hname : Call.finalise.NameClear w.disk w.self)
    (hdigest : Sha256.hexdigest w.self.digest = Text.asciiLower w.self.metadata.sha256)
    (hdst : w.disk.nodes (w.self.finalFile w.disk) ≠ some .directory) :
    w.disk.nodes (w.self.finalFile w.disk) = none := by
  have hnotFile : ¬w.disk.IsFile (w.self.finalFile w.disk) := by
    obtain ⟨hreported, hsecond⟩ := hname hdigest
    unfold finalFile
    dsimp only
    split
    · next hfound => exact hsecond hfound
    · next hmissed => exact fun hfile ↦ hmissed (hreported hfile)
  cases hnode : w.disk.nodes (w.self.finalFile w.disk) with
  | none => rfl
  | some node =>
    cases node with
    | directory => exact absurd hnode hdst
    | file data' => exact absurd ⟨data', hnode⟩ hnotFile

theorem Call.holds {c : Call} (hfile : own → w.disk.IsFile w.self.tempFile)
    (hpart : c.Touches w.self → w.disk.Exists w.self.tempFile → own) (hname : c.NameClear w.disk w.self)
    (hholds : w.disk.Holds q data) (hother : ¬(own ∧ q = w.self.tempFile)) :
    (c.run w).disk.Holds q data := by
  cases c with
  | begin => exact hholds.extends (begin_extends w)
  | receiveChunk transferId seq chunk =>
    have hrun : (FerryTransferReceiver.receiveChunk transferId seq chunk w).2 = w ∨ _ :=
      receiveChunk_only transferId seq chunk w
    rcases hrun with hrun | ⟨htouches, honly⟩
    · rw [Call.run, hrun]
      exact hholds
    · exact holds_of_onlyFile honly hfile (hpart htouches) hholds hother
  | interrupt =>
    have hrun : wp FerryTransferReceiver.interrupt (fun _ w' ↦ w'.disk.Holds q data) w := by
      apply wp_mono (interrupt_spec w)
      rintro r w' (rfl | ⟨-, rfl⟩)
      · exact hholds
      · exact hholds
    exact hrun
  | resume chunkIndex => exact hholds.congr (resume_nodes chunkIndex w)
  | cancel => exact holds_of_onlyFile (cancel_only w) hfile (hpart trivial) hholds hother
  | finalise =>
    have hclear := hpart trivial
    rcases finalise_only w with honly | ⟨hdigest, hnode, hdst, hmoved⟩
    · exact holds_of_onlyFile honly hfile hclear hholds hother
    · obtain ⟨data', hdata'⟩ := hfile (hclear hnode)
      refine hholds.move ?_ (finalFile_free hname hdigest hdst) ?_ hmoved
      · simp [hdata']
      · exact fun hq ↦ hother ⟨hclear hnode, hq⟩

def lawful (stagingDir : Path) : (stager stagingDir).Lawful where
  Sound := fun metadata self ↦ self.metadata = metadata ∧ self.stagingDir = stagingDir
  sound_new := fun _ ↦ ⟨rfl, rfl⟩
  sound_run := by
    rintro metadata c disk self ⟨rfl, rfl⟩
    have hframed := @Call.framed ⟨disk, self⟩ c (stagingFile_notMem_inits _ _)
    exact ⟨hframed.metadata_eq, hframed.stagingDir_eq⟩
  spares := by
    rintro metadata c disk self own ⟨rfl, rfl⟩ hfile ⟨hpart, hname⟩ q data hholds hother
    exact @Call.holds ⟨disk, self⟩ own q data c hfile hpart hname hholds hother

end Spares

end FerryTransferReceiver

/-! ## Both platforms -/

/-- In every run of transfers whose calls all find nothing but their own staging file at the staging
path, and a free second name where they need it, no call changes, replaces or removes a file other
than the staging file of its transfer, and a delivered file stays. -/
theorem files_preserved (dir : DownloadDir) (stagingDir : Path) :
    (IncomingTransfer.stager dir).Preserves ∧ (FerryTransferReceiver.stager stagingDir).Preserves :=
  ⟨(IncomingTransfer.lawful dir).preserves, (FerryTransferReceiver.lawful stagingDir).preserves⟩

section Samples

open IncomingTransfer (sampleMetadata samplePayload sampleDir rootDisk)
open FerryTransferReceiver (sampleRequest sampleFields sampleStagingDir sampleDisk)

/-- Some calls of one transfer. -/
def actAll {κ Obj Call : Type} (K : Stager κ Obj Call) (key : κ) (disk : Disk) (calls : List Call) :
    SharedDisk Unit Obj :=
  calls.foldl (fun s c ↦ K.act (fun _ ↦ key) s () c) (K.start (fun _ ↦ key) disk)

theorem reaches_actAll {κ Obj Call : Type} (K : Stager κ Obj Call) (key : κ) (disk : Disk)
    (calls : List Call) :
    K.Reaches (fun _ ↦ key) (K.start (fun _ ↦ key) disk) (actAll K key disk calls) := by
  induction calls using List.reverseRecOn with
  | nil => exact .refl
  | append_singleton calls c ih =>
    rw [actAll, List.foldl_append]
    exact .tail ih ⟨(), c, rfl⟩

/-- The only chunk of the sample transfer. -/
def sampleChunk : IncomingTransfer.Call :=
  .receiveChunk ⟨Text.lit "01234567-89ab-4def-8123-456789abcdef", 0, [1, 2, 3]⟩

/-- The download directory has a file of either name of the sample transfer. -/
def occupiedDisk : Disk where
  nodes := fun p ↦ if p = [] ∨ p = [Text.lit "home"] ∨ p = sampleDir.path then some .directory
    else if p = sampleDir.path ++ [Text.lit "f.txt"] then some (.file [7])
    else if p = sampleDir.path ++ [Text.lit "01234567_f.txt"] then some (.file [8])
    else none
  faults := fun _ ↦ []

/-- The staging directory has a file of either name of the sample request. -/
def occupiedStaging : Disk where
  nodes := fun p ↦ if p = [] ∨ p = sampleStagingDir then some .directory
    else if p = sampleStagingDir ++ [Text.lit "a.txt"] then some (.file [7])
    else if p = sampleStagingDir ++ [Text.lit "00000000_a.txt"] then some (.file [8])
    else none
  faults := fun _ ↦ []

/-- A transfer into an empty directory keeps to the condition, and its file is delivered. -/
theorem files_preserved_sample :
    (IncomingTransfer.stager sampleDir).Spares (fun _ ↦ sampleMetadata "")
        (actAll (IncomingTransfer.stager sampleDir) (sampleMetadata "") rootDisk [.begin, sampleChunk])
        () .finalise ∧
      (actAll (IncomingTransfer.stager sampleDir) (sampleMetadata "") rootDisk
        [.begin, sampleChunk, .finalise]).disk.Holds (sampleDir.path ++ [Text.lit "f.txt"]) [1, 2, 3] := by
  have hfree : ¬rootDisk.IsFile ((sampleMetadata "").partPath sampleDir) := by
    rintro ⟨data, hdata⟩
    have hnone : rootDisk.nodes ((sampleMetadata "").partPath sampleDir) = none := by decide +kernel
    simp [hnone] at hdata
  have hbegun : (actAll (IncomingTransfer.stager sampleDir) (sampleMetadata "") rootDisk
      [.begin]).Made () :=
    ⟨.inr ⟨rfl, rfl, by decide +kernel⟩, ⟨[], by decide +kernel⟩⟩
  have hreceived : (actAll (IncomingTransfer.stager sampleDir) (sampleMetadata "") rootDisk
      [.begin, sampleChunk]).Made () :=
    ⟨.inl hbegun, ⟨[], by decide +kernel⟩⟩
  refine ⟨((files_preserved sampleDir sampleStagingDir).1 Unit (fun _ ↦ sampleMetadata "") rootDisk _ ()
    .finalise ?_ ?_).1, by decide +kernel⟩
  · refine .tail (.single ⟨(), .begin, ⟨fun _ ↦ hfree, trivial⟩, rfl⟩) ⟨(), sampleChunk, ?_, rfl⟩
    exact ⟨fun _ _ ↦ hbegun, trivial⟩
  · refine ⟨fun _ _ ↦ hreceived, fun _ final hfinal hexists ↦ absurd hexists ?_⟩
    have hname : ((actAll (IncomingTransfer.stager sampleDir) (sampleMetadata "") rootDisk
        [.begin, sampleChunk]).object ()).finalPath =
          some (sampleDir.path ++ [Text.lit "f.txt"]) := by
      decide +kernel
    obtain rfl : sampleDir.path ++ [Text.lit "f.txt"] = final := Option.some.inj (hname.symm.trans hfinal)
    decide +kernel

/-- A transfer whose two names are taken replaces the second of the two files. -/
theorem second_name_replaced :
    (TransferMetadata.fromDict 0 (samplePayload "") = .ok (sampleMetadata "") ∧
      ∃ s, (IncomingTransfer.stager sampleDir).Reaches (fun _ : Unit ↦ sampleMetadata "")
          ((IncomingTransfer.stager sampleDir).start (fun _ ↦ sampleMetadata "") occupiedDisk) s ∧
        ¬(IncomingTransfer.stager sampleDir).Spares (fun _ ↦ sampleMetadata "") s () .finalise) ∧
    Kotlin.TransferMetadata.fromMap 0 sampleFields = .ok sampleRequest ∧
      ∃ s, (FerryTransferReceiver.stager sampleStagingDir).Reaches (fun _ : Unit ↦ sampleRequest)
          ((FerryTransferReceiver.stager sampleStagingDir).start (fun _ ↦ sampleRequest) occupiedStaging) s ∧
        ¬(FerryTransferReceiver.stager sampleStagingDir).Spares (fun _ ↦ sampleRequest) s () .finalise := by
  refine ⟨⟨by decide +kernel, _, reaches_actAll _ _ _ [.begin, sampleChunk], fun hspares ↦ ?_⟩,
    by decide +kernel, _, reaches_actAll _ _ _ [.begin], fun hspares ↦ ?_⟩
  · have hholds := hspares (sampleDir.path ++ [Text.lit "01234567_f.txt"]) [8] (by decide +kernel)
      fun hown ↦ absurd hown.2 (by decide +kernel)
    exact absurd hholds (by decide +kernel)
  · have hholds := hspares (sampleStagingDir ++ [Text.lit "00000000_a.txt"]) [8] (by decide +kernel)
      fun hown ↦ absurd hown.2 (by decide +kernel)
    exact absurd hholds (by decide +kernel)

end Samples

end Ferry
