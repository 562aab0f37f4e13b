import Ferry.Android.Receiver
import Mathlib.Logic.Relation

/-!
# Integrity of a file received on Android

`finalise` asks the digest, and the file that it places is the staging file.  The two are compared
over all runs of one receiver: the staging file has at least the bytes that the digest was fed, and
when it has no more it has the same ones.  So a `finalise` that returns `true` places a file with the
declared digest exactly when the staging file has no bytes that the digest missed, which is the case
in every run that starts without a staging file on a disk whose queries, reads and removals succeed.
-/

namespace Ferry

open Exec Disk

/-! ## Calls of the file system -/

namespace JavaFile

/-- The node at `p` stays, and outcomes are used up. -/
structure Keeps (p : Path) (d d' : Disk) : Prop where
  nodes : d'.nodes p = d.nodes p
  faults : ∀ call, d'.faults call <:+ d.faults call

instance (p : Path) : IsPreorder Disk (Keeps p) where
  refl := fun _ ↦ ⟨rfl, fun _ ↦ List.suffix_rfl⟩
  trans := fun _ _ _ h h' ↦ ⟨h'.nodes.trans h.nodes, fun call ↦ (h'.faults call).trans (h.faults call)⟩

theorem keeps_advance (p : Path) (d : Disk) (call : Syscall) : Keeps p d (d.advance call) where
  nodes := rfl
  faults := (onlyFile_advance p d call).faults

theorem keeps_perform (p : Path) (call : Syscall) : Stays (Keeps p) (perform call) :=
  fun d ↦ keeps_advance p d call

/-- A directory is made above `p` only. -/
theorem keeps_mkdir {p dir : Path} (h : p ∉ dir.inits) : Stays (Keeps p) (mkdir dir) := by
  have hadd (prefixes : List Path) (hsub : ∀ q ∈ prefixes, q ∈ dir.inits) :
      Stays (Keeps p) (modify fun d : Disk ↦ d.addDirectories prefixes : Exec IoError Disk Unit) := by
    apply stays_modify
    intro d
    exact ⟨if_neg fun hnew ↦ h (hsub p hnew.2), fun _ ↦ List.suffix_rfl⟩
  refine stays_bind (keeps_perform p .mkdir) fun outcome ↦ ?_
  refine stays_get_bind fun d ↦ stays_bind (hadd _ fun q hq ↦ ?_) (fun _ ↦ stays_raiseIf _ _) d
  have hreached := (List.takeWhile_sublist _).subset hq
  split at hreached
  · exact (List.take_sublist _ _).subset hreached
  · exact hreached

theorem keeps_mkdirs {p dir : Path} (h : p ∉ dir.inits) : Stays (Keeps p) (mkdirs dir) :=
  stays_tryCatch (keeps_mkdir h) fun _ ↦ stays_pure ()

theorem reports_iff {d : Disk} (p : Path) (h : d.Reliable .stat) : reports d p = true ↔ d.nodes p ≠ none := by
  simp [reports, h.outcome]

theorem fileExists_spec (p : Path) (d : Disk) :
    wp (fileExists p) (fun r d' ↦ r = .ok (reports d p) ∧ d' = d.advance .stat) d := ⟨rfl, rfl⟩

theorem keeps_length (p q : Path) : Stays (Keeps p) (length q) :=
  stays_tryCatch (fun d ↦ ⟨congrFun (stat_spec q d).1 p, (stays_stat p q d).faults⟩) fun _ ↦ stays_pure 0

/-- What `createNewFile` leaves at its path. -/
theorem createNewFile_spec (p : Path) (d : Disk) :
    wp (createNewFile p) (fun r d' ↦ (∀ call, d'.faults call <:+ d.faults call) ∧
      (d'.nodes p = d.nodes p ∨ d.nodes p = none ∧ d'.nodes p = some (.file [])) ∧
      (r = .ok () → d'.nodes p ≠ none)) d := by
  have hfaults := (keeps_advance p d .openFile).faults
  unfold createNewFile
  rw [wp_perform_bind, wp_get_bind, wp_raiseIf_bind, nodes_advance]
  refine ⟨fun _ ↦ ⟨hfaults, .inl rfl, by simp⟩, fun _ ↦ ?_⟩
  rw [wp_ite]
  refine ⟨fun hthere ↦ ⟨hfaults, .inl rfl, fun _ ↦ hthere⟩, fun hfree ↦ ?_⟩
  rw [wp_raiseIf_bind]
  refine ⟨fun _ ↦ ⟨hfaults, .inl rfl, by simp⟩, fun _ ↦ ?_⟩
  rw [wp_modify]
  exact ⟨hfaults, .inr ⟨not_not.mp hfree, if_pos rfl⟩, fun _ ↦ by simp⟩

/-- `appendBytes` extends the file, by a part of the bytes when it raises. -/
theorem appendBytes_spec (p : Path) (data : Bytes) (d : Disk) :
    wp (appendBytes p data) (fun r d' ↦ (∀ call, d'.faults call <:+ d.faults call) ∧
      (r = .ok () → d.nodes p ≠ some .directory ∧ d'.nodes p = some (.file (d.content p ++ data))) ∧
      (d'.nodes p = d.nodes p ∨
        d.nodes p ≠ some .directory ∧ ∃ piece, d'.nodes p = some (.file (d.content p ++ piece)))) d := by
  have hopen := keeps_advance p d .openFile
  have hwrite := keeps_advance p (d.advance .openFile) .write
  have hclose := keeps_advance p ((d.advance .openFile).advance .write) .close
  have hfaults := (trans_of (Keeps p) (trans_of (Keeps p) hopen hwrite) hclose).faults
  unfold appendBytes
  rw [wp_perform_bind, wp_get_bind, wp_raiseIf_bind, nodes_advance]
  refine ⟨fun _ ↦ ⟨hopen.faults, by simp, .inl rfl⟩, fun _ ↦ ?_⟩
  rw [wp_raiseIf_bind]
  refine ⟨fun _ ↦ ⟨hopen.faults, by simp, .inl rfl⟩, fun _ ↦ ?_⟩
  rw [wp_raiseIf_bind]
  refine ⟨fun _ ↦ ⟨hopen.faults, by simp, .inl rfl⟩, fun hdir ↦ ?_⟩
  rw [wp_perform_bind, wp_perform_bind, wp_modify_bind]
  have hnodes (piece : Bytes) : ((((d.advance .openFile).advance .write).advance .close).put p
      (some (.file (d.content p))) |>.append p piece).nodes p =
      some (.file (d.content p ++ piece)) := by
    simp [append]
  rw [wp_raiseIf]
  refine ⟨fun _ ↦ ⟨?_, by simp, .inr ⟨hdir, _, hnodes _⟩⟩,
    fun hgood ↦ ⟨?_, fun _ ↦ ?_, .inr ⟨hdir, _, hnodes _⟩⟩⟩
  · intro call
    rw [faults_append]
    exact hfaults call
  · intro call
    rw [faults_append]
    exact hfaults call
  · rw [if_neg (not_or.mp hgood).1]
    exact ⟨hdir, hnodes data⟩

/-- `delete` that succeeds leaves nothing at its path. -/
theorem delete_spec (p : Path) (d : Disk) :
    wp (delete p) (fun r d' ↦ (∃ b, r = .ok b) ∧ (∀ call, d'.faults call <:+ d.faults call) ∧
      (d'.nodes p = d.nodes p ∨ d'.nodes p = none) ∧
      (d.Reliable .unlink → d'.nodes p = none)) d := by
  have hfaults := (keeps_advance p d .unlink).faults
  unfold delete
  rw [wp_perform_bind, wp_get_bind, wp_ite, nodes_advance]
  refine ⟨fun hnot ↦ ⟨⟨false, rfl⟩, hfaults, .inl rfl, fun hreliable ↦ ?_⟩, fun _ ↦ ?_⟩
  · rw [hreliable.outcome] at hnot
    exact hnot.resolve_left Bool.false_ne_true
  · exact ⟨⟨true, rfl⟩, hfaults, .inr (if_pos rfl), fun _ ↦ if_pos rfl⟩

/-- `renameTo` moves the file, or changes nothing. -/
theorem renameTo_spec (src dst : Path) (d : Disk) :
    wp (renameTo src dst) (fun r d' ↦ (∀ call, d'.faults call <:+ d.faults call) ∧
      ((r = .ok true ∧ d.nodes src ≠ none ∧ d.nodes dst ≠ some .directory ∧
          d'.nodes = (d.move src dst).nodes) ∨
        r = .ok false ∧ d'.nodes = d.nodes)) d := by
  have hrename := rename_spec src dst d
  unfold renameTo
  rw [wp_get_bind, wp_ite]
  refine ⟨fun _ ↦ ⟨fun _ ↦ List.suffix_rfl, .inr ⟨rfl, rfl⟩⟩, fun _ ↦ ?_⟩
  rw [wp_tryCatch, wp_bind]
  apply wp_mono hrename
  intro r d' h
  cases r with
  | error e => exact ⟨h.1, .inr ⟨rfl, h.2.2.1 e rfl⟩⟩
  | ok u =>
    obtain ⟨hmoved, hsrc, -, hdst⟩ := h.2.1 rfl
    exact ⟨h.1, .inl ⟨rfl, hsrc, hdst, hmoved⟩⟩

/-- What a new digest is fed from a file. -/
theorem readFile_spec (p : Path) (d : Disk) :
    wp (readBlocks p) (fun r d' ↦ (∃ read e, r = .ok (read, e) ∧
      (∀ data, d.nodes p = some (.file data) → read <+: data ∧ (d.Reliable .read → read = data))) ∧
      Keeps p d d') d := by
  have hkeeps := keeps_advance p d .read
  unfold readBlocks
  rw [wp_perform_bind, wp_get_bind, nodes_advance]
  cases hnode : d.nodes p with
  | none => exact ⟨⟨[], _, rfl, by simp⟩, hkeeps⟩
  | some node =>
    cases node with
    | directory => exact ⟨⟨[], _, rfl, by simp⟩, hkeeps⟩
    | file content =>
      dsimp only
      rw [wp_ite]
      refine ⟨fun hfails ↦ ⟨⟨_, _, rfl, fun data hdata ↦ ?_⟩, hkeeps⟩,
        fun _ ↦ ⟨⟨_, _, rfl, fun data hdata ↦ ?_⟩, hkeeps⟩⟩
      · obtain rfl : content = data := by simpa using hdata
        refine ⟨List.take_prefix _ _, fun hreliable ↦ ?_⟩
        rw [hreliable.outcome] at hfails
        exact absurd hfails Bool.false_ne_true
      · obtain rfl : content = data := by simpa using hdata
        exact ⟨List.prefix_rfl, fun _ ↦ rfl⟩

end JavaFile

/-! ## Methods -/

namespace FerryTransferReceiver

open JavaFile

theorem wp_onDisk {α : Type} (m : Exec IoError Disk α)
    (Q : Except KotlinException α → ReceiverWorld → Prop) (w : ReceiverWorld) :
    wp (onDisk m) Q w ↔ wp m (fun r d ↦ Q (r.mapError .ofIo) { w with disk := d }) w.disk := Iff.rfl

theorem wp_update_bind {α : Type} (f : FerryTransferReceiver → FerryTransferReceiver)
    (m : PUnit → Method α) (Q : Except KotlinException α → ReceiverWorld → Prop) (w : ReceiverWorld) :
    wp (update f >>= m) Q w ↔ wp (m ()) Q { w with self := f w.self } := Iff.rfl

theorem wp_update (f : FerryTransferReceiver → FerryTransferReceiver)
    (Q : Except KotlinException PUnit → ReceiverWorld → Prop) (w : ReceiverWorld) :
    wp (update f) Q w ↔ Q (.ok ()) { w with self := f w.self } := Iff.rfl

/-- The staging file may be gone, and is gone when the disk answers queries and removals. -/
structure Cleaned (p : Path) (d d' : Disk) : Prop where
  faults : ∀ call, d'.faults call <:+ d.faults call
  nodes : d'.nodes p = d.nodes p ∨ d'.nodes p = none
  removed : d.Reliable .stat → d.Reliable .unlink → d'.nodes p = none

theorem cleanup_spec (w : ReceiverWorld) :
    wp cleanup (fun r w' ↦ r = .ok () ∧ w'.self = w.self ∧
      Cleaned w.self.tempFile w.disk w'.disk) w := by
  have hkeeps := keeps_advance w.self.tempFile w.disk .stat
  unfold cleanup
  rw [wp_get_bind, wp_bind, wp_onDisk]
  apply wp_mono (fileExists_spec w.self.tempFile w.disk)
  rintro r d ⟨rfl, rfl⟩
  change wp (if reports w.disk w.self.tempFile = true then _ else _) _ _
  rw [wp_ite]
  constructor
  · intro _
    rw [wp_bind, wp_onDisk]
    apply wp_mono (delete_spec w.self.tempFile (w.disk.advance .stat))
    rintro r d' ⟨⟨b, rfl⟩, hfaults, hnodes, hremoved⟩
    exact ⟨rfl, rfl, fun call ↦ (hfaults call).trans (hkeeps.faults call), hnodes,
      fun _ hunlink ↦ hremoved (hunlink.later (hkeeps.faults .unlink))⟩
  · intro hunreported
    refine ⟨rfl, rfl, hkeeps.faults, .inl rfl, fun hstat _ ↦ ?_⟩
    rw [reports_iff _ hstat, not_not] at hunreported
    exact hunreported

/-- What every method leaves: the parameters of the receiver, and outcomes not yet used. -/
structure Framed (w w' : ReceiverWorld) : Prop where
  metadata_eq : w'.self.metadata = w.self.metadata
  stagingDir_eq : w'.self.stagingDir = w.self.stagingDir
  faults : ∀ call, w'.disk.faults call <:+ w.disk.faults call

theorem Framed.tempFile {w w' : ReceiverWorld} (h : Framed w w') : w'.self.tempFile = w.self.tempFile := by
  unfold FerryTransferReceiver.tempFile
  rw [h.metadata_eq, h.stagingDir_eq]

/-- `begin` leaves the node at the staging path, or makes an empty file there. -/
theorem begin_spec (w : ReceiverWorld) (hdir : w.self.tempFile ∉ w.self.stagingDir.inits) :
    wp begin (fun r w' ↦ Framed w w' ∧ (w' = w ∨ w.self.state = .idle ∧
      w'.self.digest = w.self.digest ∧
      (w'.disk.nodes w.self.tempFile = w.disk.nodes w.self.tempFile ∨
        w.disk.nodes w.self.tempFile = none ∧ w'.disk.nodes w.self.tempFile = some (.file [])) ∧
      ((∃ e, r = .error e) ∧ w'.self.state = .failed ∨
        w'.self.state = .transferring ∧ w'.disk.nodes w.self.tempFile ≠ none))) w := by
  unfold begin
  rw [wp_get_bind, wp_raiseIf_bind]
  refine ⟨fun _ ↦ ⟨⟨rfl, rfl, fun _ ↦ List.suffix_rfl⟩, .inl rfl⟩, fun hidle ↦ ?_⟩
  rw [wp_bind, wp_onDisk]
  have hmkdirs : Succeeds (mkdirs w.self.stagingDir) := succeeds_tryCatch _ fun _ ↦ succeeds_pure ()
  apply wp_mono (wp_and (keeps_mkdirs hdir w.disk) (hmkdirs w.disk))
  rintro r d ⟨hkeeps, u, rfl⟩
  dsimp only [Except.mapError]
  rw [wp_bind, wp_tryCatch, wp_onDisk]
  apply wp_mono (createNewFile_spec w.self.tempFile d)
  rintro r d' ⟨hfaults, hnodes, hcreated⟩
  rw [hkeeps.nodes] at hnodes
  have hframed : ∀ call, d'.faults call <:+ w.disk.faults call :=
    fun call ↦ (hfaults call).trans (hkeeps.faults call)
  cases r with
  | error e =>
    exact ⟨⟨rfl, rfl, hframed⟩, .inr ⟨not_not.mp hidle, rfl, hnodes, .inl ⟨⟨_, rfl⟩, rfl⟩⟩⟩
  | ok u => exact ⟨⟨rfl, rfl, hframed⟩, .inr ⟨not_not.mp hidle, rfl, hnodes, .inr ⟨rfl, hcreated rfl⟩⟩⟩

/-- `receiveChunk` changes nothing, or extends the file and the digest by the chunk, or fails with a
part of the chunk in a file that it then tries to remove. -/
theorem receiveChunk_spec (transferId : Text) (seq : ℤ) (data : Bytes) (w : ReceiverWorld) :
    wp (receiveChunk transferId seq data) (fun _ w' ↦ Framed w w' ∧ (w' = w ∨
      (w.self.state = .transferring ∨ w.self.state = .resuming) ∧
      (w.disk.nodes w.self.tempFile ≠ some .directory ∧ w'.self.state = w.self.state ∧
          w'.self.digest = w.self.digest ++ data ∧
          w'.disk.nodes w.self.tempFile =
            some (.file (w.disk.content w.self.tempFile ++ data)) ∨
        w'.self.state = .failed ∧ w'.self.digest = w.self.digest ∧
          ∃ d, (d.nodes w.self.tempFile = w.disk.nodes w.self.tempFile ∨
              w.disk.nodes w.self.tempFile ≠ some .directory ∧ ∃ piece, d.nodes w.self.tempFile =
                some (.file (w.disk.content w.self.tempFile ++ piece))) ∧
            (∀ call, d.faults call <:+ w.disk.faults call) ∧
            Cleaned w.self.tempFile d w'.disk))) w := by
  have hrefl : Framed w w := ⟨rfl, rfl, fun _ ↦ List.suffix_rfl⟩
  unfold receiveChunk
  rw [wp_get_bind, wp_raiseIf_bind]
  refine ⟨fun _ ↦ ⟨hrefl, .inl rfl⟩, fun hflowing ↦ ?_⟩
  rw [wp_raiseIf_bind]
  refine ⟨fun _ ↦ ⟨hrefl, .inl rfl⟩, fun _ ↦ ?_⟩
  rw [wp_raiseIf_bind]
  refine ⟨fun _ ↦ ⟨hrefl, .inl rfl⟩, fun _ ↦ ?_⟩
  rw [wp_raiseIf_bind]
  refine ⟨fun _ ↦ ⟨hrefl, .inl rfl⟩, fun _ ↦ ?_⟩
  have hflows : w.self.state = .transferring ∨ w.self.state = .resuming := by
    by_contra hnot
    exact hflowing (not_or.mp hnot)
  rw [wp_bind, wp_tryCatch, wp_onDisk]
  apply wp_mono (appendBytes_spec w.self.tempFile data w.disk)
  rintro r d ⟨hfaults, hok, hnodes⟩
  cases r with
  | error e =>
    dsimp only [Except.mapError]
    rw [wp_bind]
    apply wp_mono (cleanup_spec _)
    rintro r w' ⟨rfl, hself, hcleaned⟩
    dsimp only
    rw [wp_update_bind, wp_throw]
    refine ⟨⟨?_, ?_, fun call ↦ (hcleaned.faults call).trans (hfaults call)⟩,
      .inr ⟨hflows, .inr ⟨rfl, ?_, d, hnodes, hfaults, hcleaned⟩⟩⟩
    · simp [hself]
    · simp [hself]
    · simp [hself]
  | ok u =>
    obtain ⟨hdir, happended⟩ := hok rfl
    exact ⟨⟨rfl, rfl, hfaults⟩, .inr ⟨hflows, .inl ⟨hdir, rfl, rfl, happended⟩⟩⟩

theorem refuse_spec (w : ReceiverWorld) :
    wp refuse (fun r w' ↦ r = .ok false ∧ w'.self = { w.self with state := .failed } ∧
      Cleaned w.self.tempFile w.disk w'.disk) w := by
  unfold refuse
  rw [wp_bind]
  apply wp_mono (cleanup_spec w)
  rintro r w' ⟨rfl, hself, hcleaned⟩
  refine ⟨rfl, ?_, hcleaned⟩
  change { w'.self with state := .failed } = { w.self with state := .failed }
  rw [hself]

theorem place_spec (w : ReceiverWorld) :
    wp place (fun r w' ↦ w'.self = w.self ∧ (∀ call, w'.disk.faults call <:+ w.disk.faults call) ∧
      (r = .ok true ∧ w.disk.nodes w.self.tempFile ≠ none ∧
          w.disk.nodes (w.self.finalFile w.disk) ≠ some .directory ∧
          w'.disk.nodes = (w.disk.move w.self.tempFile (w.self.finalFile w.disk)).nodes ∨
        r = .ok false ∧ w'.disk.nodes = w.disk.nodes)) w := by
  have hfaults := (keeps_advance w.self.tempFile w.disk .stat).faults
  unfold place
  rw [wp_get_bind, wp_bind, wp_onDisk]
  apply wp_mono (fileExists_spec _ w.disk)
  rintro r d ⟨rfl, rfl⟩
  dsimp only [Except.mapError]
  rw [wp_onDisk]
  apply wp_mono (renameTo_spec w.self.tempFile (w.self.finalFile w.disk) (w.disk.advance .stat))
  rintro r d' ⟨hsuffix, ⟨rfl, hnode, hdst, hmoved⟩ | ⟨rfl, hnodes⟩⟩
  · exact ⟨rfl, fun call ↦ (hsuffix call).trans (hfaults call), .inl ⟨rfl, hnode, hdst, hmoved⟩⟩
  · exact ⟨rfl, fun call ↦ (hsuffix call).trans (hfaults call), .inr ⟨rfl, hnodes⟩⟩

/-- `finalise` forgets the digest, and moves the staging file or tries to remove it. -/
theorem finalise_spec (w : ReceiverWorld) :
    wp finalise (fun r w' ↦ Framed w w' ∧ w'.self.digest = [] ∧
      (r = .ok true ∧ w'.self.state = .completed ∧
          Sha256.hexdigest w.self.digest = Text.asciiLower w.self.metadata.sha256 ∧
          w.disk.nodes w.self.tempFile ≠ none ∧
          w'.disk.nodes = (w.disk.move w.self.tempFile (w.self.finalFile w.disk)).nodes ∨
        r = .ok false ∧ w'.self.state = .failed ∧
          Cleaned w.self.tempFile w.disk w'.disk)) w := by
  unfold finalise
  rw [wp_get_bind, wp_update_bind, wp_ite]
  constructor
  · intro _
    apply wp_mono (refuse_spec _)
    rintro r w' ⟨rfl, hself, hcleaned⟩
    rw [hself]
    exact ⟨⟨by rw [hself], by rw [hself], hcleaned.faults⟩, rfl, .inr ⟨rfl, rfl, hcleaned⟩⟩
  · intro hdigest
    rw [wp_bind]
    apply wp_mono (place_spec _)
    rintro r w' ⟨hself, hfaults, ⟨rfl, hnode, -, hmoved⟩ | ⟨rfl, hnodes⟩⟩
    · dsimp only
      rw [if_pos rfl, setState, wp_update_bind, wp_pure, hself]
      exact ⟨⟨rfl, rfl, hfaults⟩, rfl, .inl ⟨rfl, rfl, not_not.mp hdigest, hnode, hmoved⟩⟩
    · dsimp only
      rw [if_neg Bool.false_ne_true]
      apply wp_mono (refuse_spec w')
      rintro r w'' ⟨rfl, hself', hcleaned⟩
      have htemp : w'.self.tempFile = w.self.tempFile := by
        rw [hself]
        rfl
      rw [htemp] at hcleaned
      rw [hself', hself]
      refine ⟨⟨by rw [hself', hself], by rw [hself', hself],
        fun call ↦ (hcleaned.faults call).trans (hfaults call)⟩, rfl, .inr ⟨rfl, rfl, ?_⟩⟩
      exact {
        faults := fun call ↦ (hcleaned.faults call).trans (hfaults call)
        nodes := by rw [← hnodes]; exact hcleaned.nodes
        removed := fun hstat hunlink ↦
          hcleaned.removed (hstat.later (hfaults .stat)) (hunlink.later (hfaults .unlink)) }

/-- `interrupt` changes the state only. -/
theorem interrupt_spec (w : ReceiverWorld) :
    wp interrupt (fun _ w' ↦ w' = w ∨ (w.self.state = .transferring ∨ w.self.state = .resuming) ∧
      w' = { w with self := { w.self with state := .interrupted } }) w := by
  unfold interrupt
  rw [wp_get_bind, wp_ite]
  refine ⟨fun _ ↦ .inl rfl, fun hflowing ↦ .inr ⟨?_, rfl⟩⟩
  by_contra hnot
  exact hflowing (not_or.mp hnot)

/-- `resume` takes the digest of the bytes that could be read from the staging file. -/
theorem resume_spec (chunkIndex : ℤ) (w : ReceiverWorld) :
    wp (resume chunkIndex) (fun _ w' ↦ Framed w w' ∧ (w' = w ∨
      w'.disk.nodes w.self.tempFile = w.disk.nodes w.self.tempFile ∧
      (w'.self.state = .failed ∧ w'.self.digest = w.self.digest ∨
        w'.self.state = .resuming ∧ w.disk.nodes w.self.tempFile ≠ none ∧
          ∀ data, w.disk.nodes w.self.tempFile = some (.file data) →
            w'.self.digest <+: data ∧ (w.disk.Reliable .read → w'.self.digest = data)))) w := by
  have hkeeps := keeps_advance w.self.tempFile w.disk .stat
  unfold resume
  rw [wp_get_bind, wp_raiseIf_bind]
  refine ⟨fun _ ↦ ⟨⟨rfl, rfl, fun _ ↦ List.suffix_rfl⟩, .inl rfl⟩, fun _ ↦ ?_⟩
  rw [wp_bind, wp_onDisk]
  apply wp_mono (fileExists_spec w.self.tempFile w.disk)
  rintro r d ⟨rfl, rfl⟩
  dsimp only [Except.mapError]
  rw [wp_ite]
  constructor
  · intro hfound
    have hnode : w.disk.nodes w.self.tempFile ≠ none := by
      simp only [reports, Bool.and_eq_true, decide_eq_true_eq] at hfound
      exact hfound.2
    rw [wp_bind, wp_onDisk]
    have hlength : Succeeds (length w.self.tempFile) := succeeds_tryCatch _ fun _ ↦ succeeds_pure 0
    apply wp_mono (wp_and (keeps_length w.self.tempFile w.self.tempFile _) (hlength _))
    rintro r d ⟨hsized, size, rfl⟩
    dsimp only [Except.mapError]
    rw [wp_bind, wp_onDisk]
    apply wp_mono (readFile_spec w.self.tempFile d)
    rintro r d' ⟨⟨read, e, rfl, hread⟩, hkept⟩
    have hwhole := trans_of (Keeps w.self.tempFile) (trans_of (Keeps w.self.tempFile) hkeeps hsized) hkept
    have hbefore := trans_of (Keeps w.self.tempFile) hkeeps hsized
    refine ⟨⟨rfl, rfl, hwhole.faults⟩, .inr ⟨hwhole.nodes, .inr ⟨rfl, hnode, fun data hdata ↦ ?_⟩⟩⟩
    obtain ⟨hpart, hreliable⟩ := hread data (hbefore.nodes.trans hdata)
    exact ⟨hpart, fun h ↦ hreliable (h.later (hbefore.faults .read))⟩
  · intro _
    exact ⟨⟨rfl, rfl, hkeeps.faults⟩, .inr ⟨rfl, .inl ⟨rfl, rfl⟩⟩⟩

theorem cancel_spec (w : ReceiverWorld) :
    wp cancel (fun _ w' ↦ w'.self = { w.self with state := .cancelled } ∧
      Cleaned w.self.tempFile w.disk w'.disk) w := by
  unfold cancel
  rw [wp_bind]
  apply wp_mono (cleanup_spec w)
  rintro r w' ⟨rfl, hself, hcleaned⟩
  refine ⟨?_, hcleaned⟩
  change { w'.self with state := .cancelled } = { w.self with state := .cancelled }
  rw [hself]

/-! ## Runs -/

/-- The calls of a receiver. -/
inductive Call
  | begin
  | receiveChunk (transferId : Text) (seq : ℤ) (data : Bytes)
  | interrupt
  | resume (chunkIndex : ℤ)
  | cancel
  | finalise

/-- What a call leaves behind, whether it returns or raises. -/
def Call.run : Call → ReceiverWorld → ReceiverWorld
  | .begin, w => (FerryTransferReceiver.begin w).2
  | .receiveChunk transferId seq data, w => (FerryTransferReceiver.receiveChunk transferId seq data w).2
  | .interrupt, w => (FerryTransferReceiver.interrupt w).2
  | .resume chunkIndex, w => (FerryTransferReceiver.resume chunkIndex w).2
  | .cancel, w => (FerryTransferReceiver.cancel w).2
  | .finalise, w => (FerryTransferReceiver.finalise w).2

/-- A call of the receiver, or a change of the disk that leaves the staging file alone. -/
inductive Step (part : Path) : ReceiverWorld → ReceiverWorld → Prop
  | call (w : ReceiverWorld) (call : Call) : Step part w (call.run w)
  | other (w : ReceiverWorld) (disk : Disk) (h : JavaFile.Keeps part w.disk disk) :
      Step part w { w with disk }

/-- The runs of a new receiver, from any content of the disk. -/
def Run (metadata : Kotlin.TransferMetadata) (stagingDir : Path) (disk : Disk) : ReceiverWorld → Prop :=
  Relation.ReflTransGen (Step (stagingFile metadata stagingDir)) ⟨disk, new metadata stagingDir⟩

theorem stagingFile_notMem_inits (metadata : Kotlin.TransferMetadata) (stagingDir : Path) :
    stagingFile metadata stagingDir ∉ stagingDir.inits := by
  intro hmem
  have hle := ((List.mem_inits _ _).mp hmem).length_le
  rw [stagingFile, child, List.length_append] at hle
  exact absurd hle (by simp)

/-! ## The staging file has what the digest was fed -/

/-- The staging file has at least the bytes of the digest, and the same ones when it has no more. -/
structure Within (digest data : Bytes) : Prop where
  le : digest.length ≤ data.length
  eq : data.length = digest.length → data = digest

theorem within_nil (data : Bytes) : Within [] data where
  le := Nat.zero_le _
  eq := List.eq_nil_of_length_eq_zero

theorem within_of_prefix {digest data : Bytes} (h : digest <+: data) : Within digest data where
  le := h.length_le
  eq := fun hlength ↦ (h.eq_of_length hlength.symm).symm

theorem Within.extend {digest data : Bytes} (h : Within digest data) (piece : Bytes) :
    Within digest (data ++ piece) where
  le := by
    rw [List.length_append]
    exact h.le.trans (Nat.le_add_right _ _)
  eq := by
    intro hlength
    have hle := h.le
    rw [List.length_append] at hlength
    have hpiece : piece = [] := List.eq_nil_of_length_eq_zero (by omega)
    rw [hpiece, List.append_nil]
    exact h.eq (by omega)

theorem Within.append {digest data : Bytes} (h : Within digest data) (chunk : Bytes) :
    Within (digest ++ chunk) (data ++ chunk) where
  le := by simpa using h.le
  eq := fun hlength ↦ by rw [h.eq (by simpa using hlength)]

section Runs

variable {metadata : Kotlin.TransferMetadata} {stagingDir : Path} {disk : Disk} {w w' : ReceiverWorld}

/-- What holds in every run: a receiver that has begun and not ended has a staging file, and the
digest is within it. -/
structure Tracks (metadata : Kotlin.TransferMetadata) (stagingDir : Path) (w : ReceiverWorld) : Prop where
  metadata_eq : w.self.metadata = metadata
  stagingDir_eq : w.self.stagingDir = stagingDir
  idle : w.self.state = .idle → w.self.digest = []
  present : w.self.state ∈ [TransferState.transferring, .resuming, .interrupted] →
    w.disk.nodes w.self.tempFile ≠ none
  within : ∀ data, w.disk.nodes w.self.tempFile = some (.file data) → Within w.self.digest data

theorem Tracks.tempFile (h : Tracks metadata stagingDir w) :
    w.self.tempFile = stagingFile metadata stagingDir := by
  unfold FerryTransferReceiver.tempFile
  rw [h.metadata_eq, h.stagingDir_eq]

theorem Tracks.notMem_inits (h : Tracks metadata stagingDir w) :
    w.self.tempFile ∉ w.self.stagingDir.inits := by
  rw [h.tempFile, h.stagingDir_eq]
  exact stagingFile_notMem_inits metadata stagingDir

theorem Tracks.content (h : Tracks metadata stagingDir w)
    (hflows : w.self.state = .transferring ∨ w.self.state = .resuming)
    (hdir : w.disk.nodes w.self.tempFile ≠ some .directory) :
    w.disk.nodes w.self.tempFile = some (.file (w.disk.content w.self.tempFile)) ∧
      Within w.self.digest (w.disk.content w.self.tempFile) := by
  have hpresent := h.present (by rcases hflows with hstate | hstate <;> simp [hstate])
  have hfile : w.disk.IsFile w.self.tempFile := by
    cases hnode : w.disk.nodes w.self.tempFile with
    | none => exact absurd hnode hpresent
    | some node =>
      cases node with
      | file data => exact ⟨data, hnode⟩
      | directory => exact absurd hnode hdir
  exact ⟨hfile.nodes, h.within _ hfile.nodes⟩

/-- A step that ends the receiver, with the digest in what is left of the staging file. -/
theorem Tracks.ended (h : Tracks metadata stagingDir w) (hframed : Framed w w')
    (hstate : w'.self.state ∈ [TransferState.failed, .cancelled, .completed])
    (hwithin : ∀ data, w'.disk.nodes w.self.tempFile = some (.file data) → Within w'.self.digest data) :
    Tracks metadata stagingDir w' where
  metadata_eq := hframed.metadata_eq.trans h.metadata_eq
  stagingDir_eq := hframed.stagingDir_eq.trans h.stagingDir_eq
  idle := fun hidle ↦ by simp [hidle] at hstate
  present := fun hmem ↦ by
    simp only [List.mem_cons, List.not_mem_nil, or_false] at hstate hmem
    rcases hstate with hstate | hstate | hstate <;> simp [hstate] at hmem
  within := by
    rw [hframed.tempFile]
    exact hwithin

theorem Tracks.begin (h : Tracks metadata stagingDir w) :
    wp begin (fun _ w' ↦ Tracks metadata stagingDir w') w := by
  apply wp_mono (begin_spec w h.notMem_inits)
  rintro r w' ⟨hframed, rfl | ⟨hidle, hdigest, -, ⟨-, hfailed⟩ | ⟨hstate, hpresent⟩⟩⟩
  · exact h
  · apply h.ended hframed
    · simp [hfailed]
    · intro data _
      rw [hdigest, h.idle hidle]
      exact within_nil data
  · exact {
      metadata_eq := hframed.metadata_eq.trans h.metadata_eq
      stagingDir_eq := hframed.stagingDir_eq.trans h.stagingDir_eq
      idle := fun hidle ↦ by simp [hidle] at hstate
      present := fun _ ↦ by rwa [hframed.tempFile]
      within := fun data _ ↦ by
        rw [hdigest, h.idle hidle]
        exact within_nil data }

theorem Tracks.receiveChunk (h : Tracks metadata stagingDir w) (transferId : Text) (seq : ℤ) (data : Bytes) :
    wp (receiveChunk transferId seq data) (fun _ w' ↦ Tracks metadata stagingDir w') w := by
  apply wp_mono (receiveChunk_spec transferId seq data w)
  rintro r w' ⟨hframed, rfl | ⟨hflows, ⟨hdir, hstate, hdigest, hnodes⟩ |
    ⟨hstate, hdigest, d, hd, -, hcleaned⟩⟩⟩
  · exact h
  · exact {
      metadata_eq := hframed.metadata_eq.trans h.metadata_eq
      stagingDir_eq := hframed.stagingDir_eq.trans h.stagingDir_eq
      idle := fun hidle ↦ by
        rw [hstate] at hidle
        simp [hidle] at hflows
      present := fun _ ↦ by
        rw [hframed.tempFile, hnodes]
        simp
      within := fun content hcontent ↦ by
        rw [hframed.tempFile, hnodes] at hcontent
        obtain rfl : w.disk.content w.self.tempFile ++ data = content := by simpa using hcontent
        rw [hdigest]
        exact (h.content hflows hdir).2.append data }
  · apply h.ended hframed
    · simp [hstate]
    · intro content hcontent
      rw [hdigest]
      rcases hcleaned.nodes with hsame | hgone
      · rw [hsame] at hcontent
        rcases hd with hold | ⟨hdir, piece, hpiece⟩
        · exact h.within content (hold ▸ hcontent)
        · rw [hpiece] at hcontent
          obtain rfl : w.disk.content w.self.tempFile ++ piece = content := by simpa using hcontent
          exact (h.content hflows hdir).2.extend piece
      · simp [hgone] at hcontent

theorem Tracks.interrupt (h : Tracks metadata stagingDir w) :
    wp interrupt (fun _ w' ↦ Tracks metadata stagingDir w') w := by
  apply wp_mono (interrupt_spec w)
  rintro r w' (rfl | ⟨hflows, rfl⟩)
  · exact h
  · exact ⟨h.metadata_eq, h.stagingDir_eq, fun hidle ↦ by simp at hidle,
      fun _ ↦ h.present (by rcases hflows with hstate | hstate <;> simp [hstate]), h.within⟩

theorem Tracks.resume (h : Tracks metadata stagingDir w) (chunkIndex : ℤ) :
    wp (resume chunkIndex) (fun _ w' ↦ Tracks metadata stagingDir w') w := by
  apply wp_mono (resume_spec chunkIndex w)
  rintro r w' ⟨hframed, rfl | ⟨hnodes, ⟨hstate, hdigest⟩ | ⟨hstate, hpresent, hread⟩⟩⟩
  · exact h
  · apply h.ended hframed
    · simp [hstate]
    · rw [hnodes, hdigest]
      exact h.within
  · exact {
      metadata_eq := hframed.metadata_eq.trans h.metadata_eq
      stagingDir_eq := hframed.stagingDir_eq.trans h.stagingDir_eq
      idle := fun hidle ↦ by simp [hidle] at hstate
      present := fun _ ↦ by rwa [hframed.tempFile, hnodes]
      within := fun data hdata ↦ by
        rw [hframed.tempFile, hnodes] at hdata
        exact within_of_prefix (hread data hdata).1 }

theorem Tracks.cancel (h : Tracks metadata stagingDir w) :
    wp cancel (fun _ w' ↦ Tracks metadata stagingDir w') w := by
  apply wp_mono (cancel_spec w)
  rintro r w' ⟨hself, hcleaned⟩
  apply h.ended ⟨by rw [hself], by rw [hself], hcleaned.faults⟩
  · simp [hself]
  · intro data hdata
    rw [hself]
    rcases hcleaned.nodes with hsame | hgone
    · exact h.within data (hsame ▸ hdata)
    · simp [hgone] at hdata

theorem Tracks.finalise (h : Tracks metadata stagingDir w) :
    wp finalise (fun _ w' ↦ Tracks metadata stagingDir w') w := by
  apply wp_mono (finalise_spec w)
  rintro r w' ⟨hframed, hdigest, hends⟩
  apply h.ended hframed
  · rcases hends with ⟨-, hstate, -⟩ | ⟨-, hstate, -⟩ <;> simp [hstate]
  · intro data _
    rw [hdigest]
    exact within_nil data

theorem Tracks.step (h : Tracks metadata stagingDir w)
    (hstep : Step (stagingFile metadata stagingDir) w w') : Tracks metadata stagingDir w' := by
  cases hstep with
  | call call =>
    cases call with
    | begin => exact h.begin
    | receiveChunk transferId seq data => exact h.receiveChunk transferId seq data
    | interrupt => exact h.interrupt
    | resume chunkIndex => exact h.resume chunkIndex
    | cancel => exact h.cancel
    | finalise => exact h.finalise
  | other disk hkeeps =>
    have hnodes : disk.nodes w.self.tempFile = w.disk.nodes w.self.tempFile := by
      rw [h.tempFile]
      exact hkeeps.nodes
    exact ⟨h.metadata_eq, h.stagingDir_eq, h.idle, fun hmem ↦ hnodes ▸ h.present hmem,
      fun data hdata ↦ h.within data (hnodes ▸ hdata)⟩

theorem Run.tracks (hrun : Run metadata stagingDir disk w) : Tracks metadata stagingDir w := by
  induction hrun with
  | refl => exact ⟨rfl, rfl, fun _ ↦ rfl, fun hmem ↦ by simp [new] at hmem, fun data _ ↦ within_nil data⟩
  | tail _ hstep ih => exact ih.step hstep

/-! ## Runs without left-over bytes -/

/-- Queries, reads and removals succeed, and the staging file has exactly what the digest was fed. -/
structure Exact (w : ReceiverWorld) : Prop where
  stat : w.disk.Reliable .stat
  read : w.disk.Reliable .read
  unlink : w.disk.Reliable .unlink
  kept : w.disk.nodes w.self.tempFile = none ∨ w.disk.nodes w.self.tempFile = some (.file w.self.digest)

theorem Exact.later (h : Exact w) (hframed : Framed w w')
    (hkept : w'.disk.nodes w.self.tempFile = none ∨
      w'.disk.nodes w.self.tempFile = some (.file w'.self.digest)) : Exact w' where
  stat := h.stat.later (hframed.faults .stat)
  read := h.read.later (hframed.faults .read)
  unlink := h.unlink.later (hframed.faults .unlink)
  kept := by rwa [hframed.tempFile]

/-- The name that a second file of a transfer gets is not the one of the staging file. -/
theorem renamed_ne_part {transferId fileName : Text} (h : Text.underscore ∉ transferId) (n : ℕ) :
    transferId.take n ++ Text.lit "_" ++ fileName ≠ transferId ++ Text.lit ".part" := by
  intro heq
  have hlast : (transferId.take n ++ Text.lit "_" ++ fileName)[(transferId.take n).length]? =
      some Text.underscore := by
    rw [List.append_assoc, List.getElem?_append_right le_rfl, Nat.sub_self]
    rfl
  rw [heq] at hlast
  rcases Nat.lt_or_ge (transferId.take n).length transferId.length with hlt | hge
  · rw [List.getElem?_append_left hlt] at hlast
    exact h (List.mem_of_getElem? hlast)
  · have hlength : (transferId.take n).length = transferId.length :=
      Nat.le_antisymm (List.length_take_le' _ _) hge
    rw [hlength, List.getElem?_append_right le_rfl, Nat.sub_self] at hlast
    have hdot : (Text.lit ".part")[0]? = some Text.dot := rfl
    rw [hdot] at hlast
    exact absurd (Option.some.inj hlast) (by decide)

/-- A staging file that is there is moved somewhere else. -/
theorem finalFile_ne_tempFile (hid : Text.underscore ∉ w.self.metadata.transferId)
    (hstat : w.disk.Reliable .stat) (hnode : w.disk.nodes w.self.tempFile ≠ none) :
    w.self.finalFile w.disk ≠ w.self.tempFile := by
  unfold finalFile
  dsimp only
  by_cases hreported : reports w.disk (child w.self.stagingDir w.self.metadata.fileName) = true
  · rw [if_pos hreported]
    intro heq
    have hnames := List.append_cancel_left heq
    exact renamed_ne_part hid 8 (List.cons.inj hnames).1
  · rw [if_neg hreported]
    rw [reports_iff _ hstat, not_not] at hreported
    intro heq
    rw [heq] at hreported
    exact hnode hreported

theorem nodes_move_part (hid : Text.underscore ∉ w.self.metadata.transferId)
    (hstat : w.disk.Reliable .stat) (hnode : w.disk.nodes w.self.tempFile ≠ none) :
    (w.disk.move w.self.tempFile (w.self.finalFile w.disk)).nodes w.self.tempFile = none := by
  have hlength : (w.self.finalFile w.disk).length = w.self.tempFile.length := by
    unfold finalFile
    dsimp only
    split <;> simp [child, FerryTransferReceiver.tempFile, stagingFile]
  have hnot : ¬w.self.finalFile w.disk <+: w.self.tempFile :=
    fun hbelow ↦ finalFile_ne_tempFile hid hstat hnode (hbelow.eq_of_length hlength)
  exact (if_neg hnot).trans (if_pos List.prefix_rfl)

theorem Exact.begin (h : Exact w) (htracks : Tracks metadata stagingDir w) :
    wp begin (fun _ w' ↦ Exact w') w := by
  apply wp_mono (begin_spec w htracks.notMem_inits)
  rintro r w' ⟨hframed, rfl | ⟨hidle, hdigest, hnodes, -⟩⟩
  · exact h
  · apply h.later hframed
    rw [hdigest]
    rcases hnodes with hsame | ⟨-, hmade⟩
    · exact hsame ▸ h.kept
    · exact .inr (hmade.trans (by rw [htracks.idle hidle]))

theorem Exact.receiveChunk (h : Exact w) (htracks : Tracks metadata stagingDir w) (transferId : Text)
    (seq : ℤ) (data : Bytes) : wp (receiveChunk transferId seq data) (fun _ w' ↦ Exact w') w := by
  apply wp_mono (receiveChunk_spec transferId seq data w)
  rintro r w' ⟨hframed, rfl | ⟨hflows, ⟨hdir, -, hdigest, hnodes⟩ | ⟨-, -, d, -, hfaults, hcleaned⟩⟩⟩
  · exact h
  · have hcontent := (htracks.content hflows hdir).1
    have hsame : w.disk.content w.self.tempFile = w.self.digest := by
      rcases h.kept with hnone | hfile
      · simp [hnone] at hcontent
      · exact content_of_nodes hfile
    exact h.later hframed (.inr (hnodes.trans (by rw [hdigest, hsame])))
  · have hgone := hcleaned.removed (h.stat.later (hfaults .stat)) (h.unlink.later (hfaults .unlink))
    exact h.later hframed (.inl hgone)

theorem Exact.interrupt (h : Exact w) : wp interrupt (fun _ w' ↦ Exact w') w := by
  apply wp_mono (interrupt_spec w)
  rintro r w' (rfl | ⟨-, rfl⟩)
  · exact h
  · exact ⟨h.stat, h.read, h.unlink, h.kept⟩

theorem Exact.resume (h : Exact w) (chunkIndex : ℤ) : wp (resume chunkIndex) (fun _ w' ↦ Exact w') w := by
  apply wp_mono (resume_spec chunkIndex w)
  rintro r w' ⟨hframed, rfl | ⟨hnodes, ⟨-, hdigest⟩ | ⟨-, hpresent, hread⟩⟩⟩
  · exact h
  · apply h.later hframed
    rw [hdigest, hnodes]
    exact h.kept
  · apply h.later hframed
    rcases h.kept with hnone | hfile
    · exact absurd hnone hpresent
    · exact .inr (by rw [hnodes, hfile, (hread _ hfile).2 h.read])

theorem Exact.cancel (h : Exact w) : wp cancel (fun _ w' ↦ Exact w') w := by
  apply wp_mono (cancel_spec w)
  rintro r w' ⟨hself, hcleaned⟩
  have hframed : Framed w w' := ⟨by rw [hself], by rw [hself], hcleaned.faults⟩
  exact h.later hframed (.inl (hcleaned.removed h.stat h.unlink))

theorem Exact.finalise (h : Exact w) (htracks : Tracks metadata stagingDir w)
    (hid : Text.underscore ∉ metadata.transferId) : wp finalise (fun _ w' ↦ Exact w') w := by
  apply wp_mono (finalise_spec w)
  rintro r w' ⟨hframed, -, ⟨-, -, -, hnode, hmoved⟩ | ⟨-, -, hcleaned⟩⟩
  · rw [← htracks.metadata_eq] at hid
    exact h.later hframed (.inl ((congrFun hmoved _).trans (nodes_move_part hid h.stat hnode)))
  · exact h.later hframed (.inl (hcleaned.removed h.stat h.unlink))

theorem Exact.step (h : Exact w) (htracks : Tracks metadata stagingDir w)
    (hid : Text.underscore ∉ metadata.transferId) (hstep : Step (stagingFile metadata stagingDir) w w') :
    Exact w' := by
  cases hstep with
  | call call =>
    cases call with
    | begin => exact h.begin htracks
    | receiveChunk transferId seq data => exact h.receiveChunk htracks transferId seq data
    | interrupt => exact h.interrupt
    | resume chunkIndex => exact h.resume chunkIndex
    | cancel => exact h.cancel
    | finalise => exact h.finalise htracks hid
  | other disk hkeeps =>
    have hframed : Framed w { w with disk } := ⟨rfl, rfl, hkeeps.faults⟩
    apply h.later hframed
    dsimp only
    rw [htracks.tempFile, hkeeps.nodes, ← htracks.tempFile]
    exact h.kept

/-- No bytes at the staging path, and queries, reads and removals that succeed. -/
structure Clean (metadata : Kotlin.TransferMetadata) (stagingDir : Path) (disk : Disk) : Prop where
  stat : disk.Reliable .stat
  read : disk.Reliable .read
  unlink : disk.Reliable .unlink
  empty : disk.nodes (stagingFile metadata stagingDir) = none ∨
    disk.nodes (stagingFile metadata stagingDir) = some (.file [])

theorem Run.exact (hrun : Run metadata stagingDir disk w) (hid : Text.underscore ∉ metadata.transferId)
    (hclean : Clean metadata stagingDir disk) : Exact w := by
  induction hrun with
  | refl => exact ⟨hclean.stat, hclean.read, hclean.unlink, hclean.empty⟩
  | tail hrun' hstep ih => exact ih.step (Run.tracks hrun') hid hstep

/-! ## What finalise places -/

/-- The file that `finalise` places has the declared digest. -/
def Delivers (metadata : Kotlin.TransferMetadata) (w : ReceiverWorld) : Prop :=
  ∃ data, (finalise w).2.disk.nodes (w.self.finalFile w.disk) = some (.file data) ∧
    Sha256.hexdigest data = metadata.sha256

/-- The staging file is a file with as many bytes as the digest was fed since it was started. -/
def Covered (w : ReceiverWorld) : Prop :=
  ∃ data, w.disk.nodes w.self.tempFile = some (.file data) ∧ data.length = w.self.digest.length

/-- The staging file and what the digest was fed are different texts with the same digest. -/
def Collides (w : ReceiverWorld) : Prop :=
  ∃ data, w.disk.nodes w.self.tempFile = some (.file data) ∧ data ≠ w.self.digest ∧
    Sha256.hexdigest data = Sha256.hexdigest w.self.digest

/-- A `finalise` that returns `true` renamed a staging file whose digest object had the declared
digest. -/
theorem finalise_true (htrue : (finalise w).1 = .ok true) :
    Sha256.hexdigest w.self.digest = Text.asciiLower w.self.metadata.sha256 ∧
      w.disk.nodes w.self.tempFile ≠ none ∧
      (finalise w).2.disk.nodes (w.self.finalFile w.disk) = w.disk.nodes w.self.tempFile := by
  obtain ⟨-, -, ⟨-, -, hdigest, hnode, hmoved⟩ | ⟨hfalse, -⟩⟩ := finalise_spec w
  · exact ⟨hdigest, hnode, (congrFun hmoved _).trans (nodes_move_dst _ _ _)⟩
  · rw [htrue] at hfalse
    exact absurd hfalse (by simp)

/-- In every run of a receiver of accepted metadata, the file that a successful `finalise` places has
the declared digest exactly when the staging file has no bytes beyond those that the digest was fed
(or is a second preimage), and this is the case in the runs that start without bytes at the staging
path on a disk whose queries, reads and removals succeed. -/
theorem finalise_delivers_iff (now : ℤ) (fields : String → Kotlin.MapValue)
    (metadata : Kotlin.TransferMetadata) (stagingDir : Path) (disk : Disk) (w : ReceiverWorld)
    (haccepted : Kotlin.TransferMetadata.fromMap now fields = .ok metadata)
    (hrun : Run metadata stagingDir disk w) (htrue : (finalise w).1 = .ok true) :
    (Delivers metadata w ↔ Covered w ∨ Collides w) ∧ (Clean metadata stagingDir disk → Covered w) := by
  obtain ⟨huuid, hlower⟩ := Kotlin.TransferMetadata.fromMap_checked haccepted
  obtain ⟨hdigest, hnode, hplaced⟩ := finalise_true htrue
  have htracks := hrun.tracks
  have hdeclared : Sha256.hexdigest w.self.digest = metadata.sha256 := by
    rw [hdigest, htracks.metadata_eq, hlower]
  constructor
  · constructor
    · rintro ⟨data, hdata, hverified⟩
      rw [hplaced] at hdata
      by_cases hsame : data = w.self.digest
      · exact .inl ⟨data, hdata, by rw [hsame]⟩
      · exact .inr ⟨data, hdata, hsame, hverified.trans hdeclared.symm⟩
    · rintro (⟨data, hdata, hlength⟩ | ⟨data, hdata, -, hcollides⟩)
      · refine ⟨data, hplaced.trans hdata, ?_⟩
        rw [(htracks.within data hdata).eq hlength, hdeclared]
      · exact ⟨data, hplaced.trans hdata, hcollides.trans hdeclared⟩
  · intro hclean
    have hexact := hrun.exact (Kotlin.underscore_notMem_of_uuid huuid) hclean
    exact ⟨w.self.digest, hexact.kept.resolve_left hnode, rfl⟩

end Runs

/-! ## A left-over staging file -/

/-- The fields of a request for an empty file. -/
def sampleFields : String → Kotlin.MapValue
  | "transfer_id" => .string (Text.lit "00000000-0000-0000-0000-000000000001")
  | "file_name" => .string (Text.lit "a.txt")
  | "sha256" =>
    .string (Text.lit "e3b0c44298fc1c149afbf4c8996fb92427ae41e4649b934ca495991b7852b855")
  | "chunk_count" => .number 0 0
  | _ => .other

/-- What `fromMap` makes of them. -/
def sampleRequest : Kotlin.TransferMetadata where
  transferId := Text.lit "00000000-0000-0000-0000-000000000001"
  fileName := Text.lit "a.txt"
  fileSize := 0
  mimeType := Text.lit "application/octet-stream"
  sha256 := Text.lit "e3b0c44298fc1c149afbf4c8996fb92427ae41e4649b934ca495991b7852b855"
  chunkSize := chunkSizeDefault
  chunkCount := 0
  senderIdentity := []
  createdAt := 0
  protocolVersion := 1
  batchId := []
  relativePath := []

def sampleStagingDir : Path := [Text.lit "staging"]

/-- A staging directory with the given node at the staging path. -/
def sampleDisk (part : Option Node) : Disk where
  nodes := fun p ↦ if p = [] ∨ p = sampleStagingDir then some .directory
    else if p = stagingFile sampleRequest sampleStagingDir then part else none
  faults := fun _ ↦ []

/-- The receiver of the request after `begin`. -/
def sampleBegun (part : Option Node) : ReceiverWorld :=
  Call.begin.run ⟨sampleDisk part, new sampleRequest sampleStagingDir⟩

theorem run_sampleBegun (part : Option Node) :
    Run sampleRequest sampleStagingDir (sampleDisk part) (sampleBegun part) :=
  .single (.call _ .begin)

theorem finalise_delivers_iff_sample :
    (Delivers sampleRequest (sampleBegun none) ↔ Covered (sampleBegun none) ∨ Collides (sampleBegun none)) ∧
      (Clean sampleRequest sampleStagingDir (sampleDisk none) → Covered (sampleBegun none)) :=
  finalise_delivers_iff 0 sampleFields sampleRequest sampleStagingDir (sampleDisk none) (sampleBegun none)
    (by decide +kernel) (run_sampleBegun none) (by decide +kernel)

/-- A staging file that was there before `begin` is placed with its bytes, although the digest saw
none of them. -/
theorem leftover_delivered :
    ∃ now fields metadata stagingDir disk w,
      Kotlin.TransferMetadata.fromMap now fields = .ok metadata ∧ Run metadata stagingDir disk w ∧
        (finalise w).1 = .ok true ∧ ¬Delivers metadata w := by
  refine ⟨0, sampleFields, sampleRequest, sampleStagingDir, sampleDisk (some (.file [0])),
    sampleBegun (some (.file [0])), by decide +kernel, run_sampleBegun _, by decide +kernel, ?_⟩
  rintro ⟨data, hdata, hdigest⟩
  have hplaced : (finalise (sampleBegun (some (.file [0])))).2.disk.nodes
      ((sampleBegun (some (.file [0]))).self.finalFile (sampleBegun (some (.file [0]))).disk) =
      some (.file [0]) := by
    decide +kernel
  rw [hplaced] at hdata
  obtain rfl : [0] = data := by simpa using hdata
  have hdiffers : Sha256.hexdigest [0] ≠ sampleRequest.sha256 := by decide +kernel
  exact hdiffers hdigest

end FerryTransferReceiver

end Ferry
