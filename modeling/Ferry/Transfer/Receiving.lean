import Ferry.Transfer.Delivery
import Ferry.Transfer.Streaming

/-!
# Receiving on a disk that does not fail

One lemma for each method of an incoming transfer, for a disk whose calls succeed: what is in the
`.part` file and in the object before and after.
-/

namespace Ferry

namespace IncomingTransfer

open Exec Disk Chunks

section Receiving

variable (metadata : TransferMetadata) (dir : DownloadDir) (dest : Path)

/-- The directories around the `.part` file and the destination are in place, and no call fails. -/
structure Deliverable (d : Disk) : Prop where
  reliable : ∀ call, d.Reliable call
  isFile : d.IsFile (metadata.partPath dir)
  staging : (metadata.partPath dir).parent ≠ metadata.partPath dir ∧
    d.nodes (metadata.partPath dir).parent = some .directory
  parent : ∀ q ∈ dest.parent.inits, q ≠ metadata.partPath dir ∧ d.nodes q = some .directory
  conflict : d.nodes ((new metadata dir).conflictPath dest) ≠ some .directory

/-- The object between `begin` and the end of the transfer, but for its hasher, counters and file. -/
structure Begun (state : TransferState) (w : World) : Prop where
  metadata_eq : w.self.metadata = metadata
  downloadDir_eq : w.self.downloadDir = dir
  state : w.self.state = state
  tempPath : w.self.tempPath = some (metadata.partPath dir)
  finalPath : w.self.finalPath = some dest
  disk : Deliverable metadata dir dest w.disk

/-- Chunks flow: `bytes` were written so far and chunk `seq` is next. -/
structure Receiving (state : TransferState) (bytes : Bytes) (seq : ℕ) (w : World) : Prop
    extends Begun metadata dir dest state w where
  hasher : w.self.hasher = bytes
  count : w.self.bytesReceived = bytes.length
  seq : w.self.nextSeq = seq
  file : ∃ fh, w.self.tempFh = some fh ∧ fh.path = metadata.partPath dir ∧ fh.closed = false ∧
    w.disk.content (metadata.partPath dir) ++ fh.buffer = bytes

/-- No file is open and the `.part` file holds `bytes`. -/
structure Paused (state : TransferState) (bytes : Bytes) (seq : ℕ) (w : World) : Prop
    extends Begun metadata dir dest state w where
  count : w.self.bytesReceived = bytes.length
  seq : w.self.nextSeq = seq
  tempFh : w.self.tempFh = none
  content : w.disk.content (metadata.partPath dir) = bytes

variable {metadata dir dest}

theorem Deliverable.later {d d' : Disk} (h : Deliverable metadata dir dest d)
    (honly : OnlyFile (metadata.partPath dir) d d') (hfile : d'.IsFile (metadata.partPath dir)) :
    Deliverable metadata dir dest d' where
  reliable := fun call ↦ (h.reliable call).later (honly.faults call)
  isFile := hfile
  staging := ⟨h.staging.1, (honly.nodes _ h.staging.1).trans h.staging.2⟩
  parent := fun q hq ↦ ⟨(h.parent q hq).1, (honly.nodes q (h.parent q hq).1).trans (h.parent q hq).2⟩
  conflict := by
    by_cases hpart : (new metadata dir).conflictPath dest = metadata.partPath dir
    · obtain ⟨data, hdata⟩ := hfile
      rw [hpart, hdata]
      simp
    · rw [honly.nodes _ hpart]
      exact h.conflict

theorem Begun.owns {state : TransferState} {w : World} (h : Begun metadata dir dest state w)
    (hfh : ∀ fh, w.self.tempFh = some fh → fh.path = metadata.partPath dir) : Owns metadata dir w where
  metadata_eq := h.metadata_eq
  downloadDir_eq := h.downloadDir_eq
  tempPath := fun _ hp ↦ (Option.some.inj (h.tempPath.symm.trans hp)).symm
  tempFh := hfh

/-- Only the file of the transfer changes, and the paths of the object stay. -/
theorem Begun.later {state state' : TransferState} {w w' : World} (h : Begun metadata dir dest state w)
    (hmetadata : w'.self.metadata = w.self.metadata) (hdir : w'.self.downloadDir = w.self.downloadDir)
    (htemp : w'.self.tempPath = w.self.tempPath) (hfinal : w'.self.finalPath = w.self.finalPath)
    (hstate : w'.self.state = state') (honly : OnlyFile (metadata.partPath dir) w.disk w'.disk)
    (hfile : w'.disk.IsFile (metadata.partPath dir)) : Begun metadata dir dest state' w' where
  metadata_eq := hmetadata.trans h.metadata_eq
  downloadDir_eq := hdir.trans h.downloadDir_eq
  state := hstate
  tempPath := htemp.trans h.tempPath
  finalPath := hfinal.trans h.finalPath
  disk := h.disk.later honly hfile

/-! ## Opening -/

/-- What a call of `begin` that returns did on a fresh object. -/
theorem openStaging_ok {w : World} (hmetadata : w.self.metadata = metadata)
    (hdir : w.self.downloadDir = dir) (hfh : w.self.tempFh = none)
    (hreliable : ∀ call, w.disk.Reliable call) :
    wp openStaging (fun r w' ↦ r = .ok () → ∃ dest,
      resolveSafeDestination dir.path metadata.fileName metadata.relativePath = .ok dest ∧
      w'.self = { w.self with
        tempPath := some (metadata.partPath dir), finalPath := some dest,
        tempFh := some ⟨metadata.partPath dir, [], false⟩ } ∧
      w'.disk.content (metadata.partPath dir) = [] ∧
      (w'.disk.nodes ((new metadata dir).conflictPath dest) ≠ some .directory →
        Deliverable metadata dir dest w'.disk)) w := by
  have hmkdir : ∀ p (d : Disk), (∀ call, d.Reliable call) → wp (mkdir p) (fun r d' ↦
      (r = .ok () → ∀ q ∈ p.inits, d'.nodes q = some .directory) ∧ ∀ call, d'.Reliable call) d := by
    intro p d hd
    have hframe : Stays (OnlyAt p) (mkdir p) := stays_mkdir p p
    apply wp_mono (wp_and (mkdir_spec p d) (hframe d))
    intro r d' hd'
    exact ⟨hd'.1.1, fun call ↦ (hd call).later (hd'.2.faults call)⟩
  unfold openStaging
  rw [wp_get_bind, hmetadata, hdir]
  refine wp_onDisk_bind (hmkdir _ _ hreliable) (fun _ _ _ ↦ by simp) fun _ d₁ hd₁ ↦ ?_
  refine wp_onDisk_bind (hmkdir _ _ hd₁.2) (fun _ _ _ ↦ by simp) fun _ d₂ hd₂ ↦ ?_
  rw [wp_update_bind, wp_ofResult_bind]
  refine ⟨fun _ _ ↦ by simp, fun dest hdest ↦ ?_⟩
  rw [wp_update_bind]
  refine wp_onDisk_bind (hmkdir _ _ hd₂.2) (fun _ _ _ ↦ by simp) fun _ d₃ hd₃ ↦ ?_
  have hopen : Stays (OnlyFile (metadata.partPath dir)) (Handle.openTruncate (metadata.partPath dir)) :=
    Handle.stays_openTruncate _
  refine wp_onDisk_bind (wp_and (Handle.openTruncate_spec _ _) (hopen _)) (fun _ _ _ ↦ by simp)
    fun fh d₄ hd₄ ↦ ?_
  obtain ⟨⟨hok, -⟩, honly⟩ := hd₄
  obtain ⟨rfl, hfile, hcontent, hstaging, hnotDir⟩ := hok fh rfl
  have hparent : ∀ q ∈ dest.parent.inits, q ≠ metadata.partPath dir ∧ d₄.nodes q = some .directory := by
    intro q hq
    have hq₃ : d₃.nodes q = some .directory := hd₃.1 rfl q hq
    have hne : q ≠ metadata.partPath dir := fun heq ↦ hnotDir (heq ▸ hq₃)
    exact ⟨hne, (honly.nodes q hne).trans hq₃⟩
  have hself : (metadata.partPath dir).parent ≠ metadata.partPath dir :=
    fun heq ↦ hnotDir (heq ▸ hstaging)
  unfold assignTempFh
  rw [wp_get_bind, wp_update_bind]
  dsimp only
  rw [hfh]
  exact fun _ ↦ ⟨dest, hdest, rfl, hcontent, fun hconflict ↦
    ⟨fun call ↦ (hd₃.2 call).later (honly.faults call), hfile,
      ⟨hself, (honly.nodes _ hself).trans hstaging⟩, hparent, hconflict⟩⟩

/-- A `begin` that returns leaves the empty `.part` file open.  The only thing left to ask for is that
the conflict-renamed name is not a directory. -/
theorem begin_receiving {disk : Disk} (hreliable : ∀ call, disk.Reliable call) :
    wp begin (fun r w' ↦ r = .ok () →
      (∀ dest, resolveSafeDestination dir.path metadata.fileName metadata.relativePath = .ok dest →
        w'.disk.nodes ((new metadata dir).conflictPath dest) ≠ some .directory) →
      ∃ dest, resolveSafeDestination dir.path metadata.fileName metadata.relativePath = .ok dest ∧
        Receiving metadata dir dest .transferring [] 0 w') ⟨disk, new metadata dir⟩ := by
  unfold begin
  rw [wp_bind, wp_transition]
  refine ⟨fun _ ↦ ?_, fun _ ↦ by simp⟩
  dsimp only
  have hstaging := openStaging_ok
    (w := ⟨disk, { new metadata dir with state := .accepted }⟩) rfl rfl rfl hreliable
  rw [wp_bind]
  refine wp_tryCatch_of hstaging (fun e w' _ ↦ ?_) fun _ w' hw' ↦ ?_
  · rw [wp_ite, wp_transition_bind, wp_throw, wp_throw]
    exact ⟨fun _ ↦ ⟨fun _ ↦ by simp, fun _ ↦ by simp⟩, fun _ ↦ by simp⟩
  · obtain ⟨dest, hdest, hself, hcontent, hdeliverable⟩ := hw' rfl
    dsimp only
    rw [wp_transition]
    refine ⟨fun _ _ hconflict ↦ ⟨dest, hdest, ?_⟩, fun _ ↦ by simp⟩
    rw [hself]
    exact ⟨⟨rfl, rfl, rfl, rfl, rfl, hdeliverable (hconflict dest hdest)⟩, rfl, rfl, rfl,
      _, rfl, rfl, rfl, (List.append_nil _).trans hcontent⟩

/-! ## Receiving -/

/-- The next chunk is written, hashed and counted. -/
theorem receiveChunk_receiving {state : TransferState} {bytes : Bytes} {seq : ℕ} {w : World}
    {frame : ChunkFrame} (h : Receiving metadata dir dest state bytes seq w)
    (hstate : state = .transferring ∨ state = .resuming)
    (hid : frame.transferId = metadata.transferId) (hseq : frame.seq = seq)
    (hlength : (frame.data.length : ℤ) ≤ metadata.chunkSize) :
    wp (receiveChunk frame) (fun r w' ↦ r = .ok () ∧
      Receiving metadata dir dest state (bytes ++ frame.data) (seq + 1) w') w := by
  obtain ⟨fh, hfh, hpath, hopen, hbytes⟩ := h.file
  unfold receiveChunk
  rw [wp_get_bind, wp_raiseIf_bind, h.metadata_eq, h.state, h.seq]
  refine ⟨fun hbad ↦ absurd hstate (not_or.mpr hbad), fun _ ↦ ?_⟩
  rw [wp_raiseIf_bind]
  refine ⟨fun hbad ↦ absurd hid hbad, fun _ ↦ ?_⟩
  rw [wp_raiseIf_bind]
  refine ⟨fun hbad ↦ absurd (by exact_mod_cast hseq) hbad, fun _ ↦ ?_⟩
  rw [wp_raiseIf_bind]
  refine ⟨fun hbad ↦ absurd hlength (not_le.mpr hbad), fun _ ↦ ?_⟩
  have hfile : w.disk.IsFile fh.path := hpath ▸ h.disk.isFile
  have hwrite := wp_and (Handle.write_spec frame.data (w.disk, fh) hfile)
    (Handle.stays_write frame.data (w.disk, fh))
  have hwritten : wp (onTempFh (Handle.write frame.data)) (fun r w' ↦ r = .ok () ∧
      ∃ fh', w' = { w with disk := w'.disk, self := { w.self with tempFh := some fh' } } ∧
        OnlyFile (metadata.partPath dir) w.disk w'.disk ∧
        w'.disk.IsFile (metadata.partPath dir) ∧ fh'.path = metadata.partPath dir ∧
        fh'.closed = false ∧
        w'.disk.content (metadata.partPath dir) ++ fh'.buffer = bytes ++ frame.data) w := by
    rw [wp_onTempFh_some hfh]
    apply wp_mono hwrite
    rintro r ⟨d, fh'⟩ ⟨⟨hok, -, hreliable⟩, hown⟩
    obtain rfl := hreliable (h.disk.reliable .write) hopen
    obtain ⟨hfile', -, hopen', hpath', hstaged⟩ := hok rfl
    have hpart' : fh'.path = metadata.partPath dir := hpath'.trans hpath
    refine ⟨rfl, fh', rfl, hpath ▸ hown.disk, hpath ▸ hfile', hpart', hopen', ?_⟩
    calc
      _ = Handle.staged (d, fh') := by rw [Handle.staged, hpart']
      _ = Handle.staged (w.disk, fh) ++ frame.data := hstaged
      _ = _ := by rw [Handle.staged, hpath, hbytes]
  refine wp_bind_of (P := fun r w' ↦ r = .ok () ∧
      ∃ fh', w' = { w with disk := w'.disk, self := { w.self with tempFh := some fh' } } ∧
        OnlyFile (metadata.partPath dir) w.disk w'.disk ∧
        w'.disk.IsFile (metadata.partPath dir) ∧ fh'.path = metadata.partPath dir ∧
        fh'.closed = false ∧
        w'.disk.content (metadata.partPath dir) ++ fh'.buffer = bytes ++ frame.data) ?_
    (fun _ _ ht ↦ by simp at ht) fun _ w' hw' ↦ ?_
  · exact wp_tryCatch_of hwritten (fun _ _ ht ↦ by simp at ht) fun _ _ ht ↦ ht
  · obtain ⟨-, fh', hw', honly, hfile', hpath', hopen', hbytes'⟩ := hw'
    have hself : w'.self = { w.self with tempFh := some fh' } := by rw [hw']
    rw [wp_update]
    refine ⟨rfl, h.toBegun.later ?_ ?_ ?_ ?_ ?_ honly hfile', ?_, ?_, ?_, fh', ?_, hpath', hopen', hbytes'⟩
    · rw [hself]
    · rw [hself]
    · rw [hself]
    · rw [hself]
    · rw [hself]; exact h.state
    · rw [hself, ← h.hasher]
    · rw [hself, List.length_append, ← h.count]
    · rw [hself, Nat.cast_add, Nat.cast_one, ← h.seq]
    · rw [hself]

/-- Decode and receive frames one after the other. -/
def receiveAll : List Bytes → Method Unit
  | [] => pure ()
  | plaintext :: rest => do
    let frame ← ofResult (decodeChunkFrame plaintext)
    receiveChunk frame
    receiveAll rest

/-- Frames that decode to the chunk frames of a file from the next one on are all received. -/
theorem receiveAll_receiving {n : ℕ} {f : Bytes} {state : TransferState} (limit : ℕ)
    (hid : metadata.transferId = uuidText n) (hchunk : metadata.chunkSize = chunkSizeDefault)
    (hstate : state = .transferring ∨ state = .resuming) {i : ℕ} {bytes : Bytes} {frames : List Bytes}
    {w : World} (h : Receiving metadata dir dest state bytes i w)
    (hframes : frames.mapM decodeChunkFrame = .ok (OutgoingTransfer.chunkFrames n f i limit)) :
    wp (receiveAll frames) (fun r w' ↦ r = .ok () ∧
      Receiving metadata dir dest state
        (bytes ++ (segment chunkSizeDefault f i limit).flatMap Prod.snd)
        (i + (segment chunkSizeDefault f i limit).length) w') w := by
  induction limit generalizing i bytes frames w with
  | zero =>
    cases frames with
    | nil => simpa [receiveAll] using h
    | cons plaintext rest =>
      rw [List.mapM_cons] at hframes
      simp only [bind_eq_ok, OutgoingTransfer.chunkFrames, segment_zero, List.map_nil] at hframes
      obtain ⟨_, -, _, -, hcons⟩ := hframes
      exact absurd (Except.ok.inj hcons) (by simp)
  | succ limit ih =>
    by_cases hlt : i < total chunkSizeDefault f
    · rw [OutgoingTransfer.chunkFrames_succ hlt] at hframes
      cases frames with
      | nil => exact absurd (Except.ok.inj hframes) (by simp)
      | cons plaintext rest =>
        rw [List.mapM_cons] at hframes
        simp only [bind_eq_ok] at hframes
        obtain ⟨frame, hdecode, tail, htail, hcons⟩ := hframes
        obtain ⟨rfl, rfl⟩ := List.cons.inj (Except.ok.inj hcons)
        unfold receiveAll
        rw [wp_ofResult_bind]
        refine ⟨fun e he ↦ absurd (hdecode.symm.trans he) (by simp), fun frame hframe ↦ ?_⟩
        obtain rfl := Except.ok.inj (hdecode.symm.trans hframe)
        have hlength : ((chunkAt chunkSizeDefault f i).length : ℤ) ≤ metadata.chunkSize := by
          rw [hchunk]
          exact_mod_cast length_chunkAt_le i
        refine wp_bind_of (receiveChunk_receiving h hstate hid.symm rfl hlength)
          (fun _ _ ht ↦ by simp at ht) fun _ w' hw' ↦ ?_
        apply wp_mono (ih hw'.2 htail)
        intro r w'' hw''
        rw [segment_succ hlt, List.flatMap_cons, List.length_cons, ← List.append_assoc]
        rw [Nat.add_assoc, Nat.add_comm 1] at hw''
        exact hw''
    · have hnone := not_lt.mp hlt
      rw [OutgoingTransfer.chunkFrames_of_total_le hnone] at hframes
      cases frames with
      | nil => simpa [receiveAll, segment_of_total_le hnone] using h
      | cons plaintext rest =>
        rw [List.mapM_cons] at hframes
        simp only [bind_eq_ok] at hframes
        obtain ⟨_, -, _, -, hcons⟩ := hframes
        exact absurd (Except.ok.inj hcons) (by simp)

/-! ## Interrupting -/

/-- The bytes in the buffer of an open file moved to the disk, and the file was closed. -/
def Flushed (metadata : TransferMetadata) (dir : DownloadDir) (fh : Handle) (w w' : World) : Prop :=
  ∃ fh', w'.self = { w.self with tempFh := some fh' } ∧ fh'.path = metadata.partPath dir ∧
    fh'.buffer = [] ∧ OnlyFile (metadata.partPath dir) w.disk w'.disk ∧
    w'.disk.IsFile (metadata.partPath dir) ∧
    w'.disk.content (metadata.partPath dir) = w.disk.content (metadata.partPath dir) ++ fh.buffer

/-- Flushing and closing a file on a disk that does not fail. -/
theorem closeFile_spec {w : World} {fh : Handle} (hfh : w.self.tempFh = some fh)
    (hpath : fh.path = metadata.partPath dir) (hopen : fh.closed = false)
    (hdisk : Deliverable metadata dir dest w.disk) :
    wp (do onTempFh Handle.flush; onTempFh Handle.close)
      (fun r w' ↦ r = .ok () ∧ Flushed metadata dir fh w w') w := by
  have hfile : w.disk.IsFile fh.path := hpath ▸ hdisk.isFile
  rw [wp_bind, wp_onTempFh_some hfh]
  apply wp_mono (wp_and (Handle.flush_spec (w.disk, fh) hfile) (Handle.stays_flush (w.disk, fh)))
  rintro r ⟨d₁, fh₁⟩ ⟨⟨hfile₁, hpath₁, hopen₁, hstaged₁, hbuffer₁, hok₁⟩, hown₁⟩
  obtain rfl := hok₁ (hdisk.reliable .flush) hopen
  have hpart₁ : fh₁.path = metadata.partPath dir := hpath₁.trans hpath
  have hempty₁ : fh₁.buffer = [] := hbuffer₁ rfl
  have hcontent₁ : d₁.content (metadata.partPath dir) =
      w.disk.content (metadata.partPath dir) ++ fh.buffer := by
    have hstaged : d₁.content fh₁.path ++ fh₁.buffer = w.disk.content fh.path ++ fh.buffer := hstaged₁
    rw [hempty₁, List.append_nil, hpart₁, hpath] at hstaged
    exact hstaged
  dsimp only [Except.mapError]
  rw [wp_onTempFh_some rfl]
  have hfile₁' : d₁.IsFile fh₁.path := by
    rw [hpart₁, ← hpath]
    exact hfile₁
  apply wp_mono (wp_and (Handle.close_spec (d₁, fh₁) hfile₁' hempty₁) (Handle.stays_close (d₁, fh₁)))
  rintro r ⟨d₂, fh₂⟩ ⟨⟨hfile₂, hpath₂, -, hbuffer₂, hcontent₂, hok₂⟩, hown₂⟩
  have honly₁ : OnlyFile (metadata.partPath dir) w.disk d₁ := hpath ▸ hown₁.disk
  obtain rfl := hok₂ ((hdisk.reliable .close).later (honly₁.faults .close))
  have hcontent₂' : d₂.content fh₁.path = d₁.content fh₁.path := hcontent₂
  have hfile₂' : d₂.IsFile fh₁.path := hfile₂
  rw [hpart₁] at hcontent₂' hfile₂'
  exact ⟨rfl, fh₂, rfl, hpath₂.trans hpart₁, hbuffer₂, honly₁.trans (hpart₁ ▸ hown₂.disk), hfile₂',
    hcontent₂'.trans hcontent₁⟩

/-- Dropping a file with an empty buffer. -/
theorem assignTempFh_none_spec {w : World} {fh : Handle} (hfh : w.self.tempFh = some fh)
    (hpath : fh.path = metadata.partPath dir) (hbuffer : fh.buffer = [])
    (hfile : w.disk.IsFile (metadata.partPath dir)) :
    wp (assignTempFh none) (fun r w' ↦ r = .ok () ∧ w'.self = { w.self with tempFh := none } ∧
      OnlyFile (metadata.partPath dir) w.disk w'.disk ∧ w'.disk.IsFile (metadata.partPath dir) ∧
      w'.disk.content (metadata.partPath dir) = w.disk.content (metadata.partPath dir)) w := by
  have hdrop := Handle.drop_spec fh w.disk (hpath ▸ hfile) hbuffer
  have honly := Handle.stays_drop fh w.disk
  unfold assignTempFh
  rw [wp_get_bind, wp_bind, wp_update, hfh]
  rw [hpath] at hdrop honly
  exact ⟨rfl, rfl, honly, hdrop.2.1, hdrop.2.2⟩

/-- The state after the open file was flushed, closed and forgotten. -/
structure Closed (metadata : TransferMetadata) (dir : DownloadDir) (bytes : Bytes) (w w' : World) :
    Prop where
  self : w'.self = { w.self with tempFh := none }
  only : OnlyFile (metadata.partPath dir) w.disk w'.disk
  isFile : w'.disk.IsFile (metadata.partPath dir)
  content : w'.disk.content (metadata.partPath dir) = bytes

theorem Receiving.closeFile {state : TransferState} {bytes : Bytes} {seq : ℕ} {w : World}
    (h : Receiving metadata dir dest state bytes seq w) :
    wp (do onTempFh Handle.flush; onTempFh Handle.close; assignTempFh none)
      (fun r w' ↦ r = .ok () ∧ Closed metadata dir bytes w w') w ∧
    wp (do
        tryCatch (do onTempFh Handle.flush; onTempFh Handle.close) fun _ ↦ pure ()
        assignTempFh none)
      (fun r w' ↦ r = .ok () ∧ Closed metadata dir bytes w w') w := by
  obtain ⟨fh, hfh, hpath, hopen, hbytes⟩ := h.file
  have hclose := closeFile_spec hfh hpath hopen h.disk
  have hassign : ∀ w₁ : World, Flushed metadata dir fh w w₁ →
      wp (assignTempFh none) (fun r w' ↦ r = .ok () ∧ Closed metadata dir bytes w w') w₁ := by
    rintro w₁ ⟨fh', hself, hpath', hbuffer', honly, hfile, hcontent⟩
    have hfh' : w₁.self.tempFh = some fh' := by rw [hself]
    apply wp_mono (assignTempFh_none_spec hfh' hpath' hbuffer' hfile)
    rintro r w' ⟨rfl, hself', honly', hfile', hcontent'⟩
    refine ⟨rfl, ?_, honly.trans honly', hfile', hcontent'.trans (hcontent.trans hbytes)⟩
    rw [hself', hself]
  have htry : wp (tryCatch (do onTempFh Handle.flush; onTempFh Handle.close) fun _ ↦ pure ())
      (fun r w' ↦ r = .ok () ∧ Flushed metadata dir fh w w') w :=
    wp_tryCatch_of hclose (fun _ _ ht ↦ by simp at ht) fun _ _ ht ↦ ht
  constructor
  · rw [← wp_bind_assoc]
    exact wp_bind_of hclose (fun _ _ ht ↦ by simp at ht) fun _ w₁ hw₁ ↦ hassign w₁ hw₁.2
  · exact wp_bind_of htry (fun _ _ ht ↦ by simp at ht) fun _ w₁ hw₁ ↦ hassign w₁ hw₁.2

theorem Receiving.tempFh_isSome {state : TransferState} {bytes : Bytes} {seq : ℕ} {w : World}
    (h : Receiving metadata dir dest state bytes seq w) : w.self.tempFh.isSome := by
  obtain ⟨fh, hfh, -⟩ := h.file
  rw [hfh]
  rfl

theorem Receiving.flushTempFh {state : TransferState} {bytes : Bytes} {seq : ℕ} {w : World}
    (h : Receiving metadata dir dest state bytes seq w) :
    wp flushTempFh (fun r w' ↦ r = .ok () ∧ Closed metadata dir bytes w w') w := by
  unfold IncomingTransfer.flushTempFh
  rw [wp_get_bind, if_pos h.tempFh_isSome]
  exact h.closeFile.1

theorem Receiving.releaseTempFh {state : TransferState} {bytes : Bytes} {seq : ℕ} {w : World}
    (h : Receiving metadata dir dest state bytes seq w) :
    wp releaseTempFh (fun r w' ↦ r = .ok () ∧ Closed metadata dir bytes w w') w := by
  unfold IncomingTransfer.releaseTempFh
  rw [wp_get_bind, if_pos h.tempFh_isSome]
  exact h.closeFile.2

theorem exists_of_isFile {d : Disk} {p : Path} (h : d.IsFile p) : d.Exists p := by
  obtain ⟨data, hdata⟩ := h
  simp [Disk.Exists, hdata]

/-- A measurement of the `.part` file. -/
theorem stat_part {d : Disk} (h : Deliverable metadata dir dest d) :
    wp (stat (metadata.partPath dir)) (fun r d' ↦
      r = .ok (d.content (metadata.partPath dir)).length ∧ d'.nodes = d.nodes ∧
        Deliverable metadata dir dest d') d := by
  have honly : Stays (OnlyFile (metadata.partPath dir)) (stat (metadata.partPath dir)) := stays_stat _ _
  apply wp_mono (wp_and (stat_spec (metadata.partPath dir) d) (honly d))
  rintro r d' ⟨⟨hnodes, -, hstat⟩, honly'⟩
  refine ⟨(hstat h.isFile).2 (h.reliable .stat), hnodes, h.later honly' ?_⟩
  rw [Disk.IsFile, hnodes]
  exact h.isFile

/-- The number of bytes that `interrupt` keeps: the whole chunks. -/
def wholeChunks (bytes : Bytes) : ℕ := bytes.length / chunkSizeDefault

theorem wholeChunks_mul_le (bytes : Bytes) : wholeChunks bytes * chunkSizeDefault ≤ bytes.length :=
  Nat.div_mul_le_self _ _

/-- Truncation to the chunk boundary keeps the whole chunks. -/
theorem truncateToChunk_spec {state : TransferState} {bytes : Bytes} {w : World}
    (h : Begun metadata dir dest state w) (hchunk : metadata.chunkSize = chunkSizeDefault)
    (hfh : w.self.tempFh = none) (hcontent : w.disk.content (metadata.partPath dir) = bytes)
    (hcount : w.self.bytesReceived = bytes.length) (hseq : w.self.nextSeq = wholeChunks bytes) :
    wp (truncateToChunk bytes.length) (fun r w' ↦ r = .ok () ∧ Paused metadata dir dest state
      (bytes.take (wholeChunks bytes * chunkSizeDefault)) (wholeChunks bytes) w') w := by
  have hle := wholeChunks_mul_le bytes
  have haligned : w.self.nextSeq * w.self.metadata.chunkSize =
      ((wholeChunks bytes * chunkSizeDefault : ℕ) : ℤ) := by
    rw [hseq, h.metadata_eq, hchunk]
    rfl
  have hlength : (bytes.take (wholeChunks bytes * chunkSizeDefault)).length =
      wholeChunks bytes * chunkSizeDefault := by
    rw [List.length_take, min_eq_left hle]
  unfold truncateToChunk
  rw [wp_get_bind, h.tempPath, haligned]
  dsimp only
  rw [Int.toNat_natCast, wp_ite]
  constructor
  · intro _
    have htruncate : wp (do
        raiseIf (((wholeChunks bytes * chunkSizeDefault : ℕ) : ℤ) < 0) .osError
        onDisk (truncate (metadata.partPath dir) (wholeChunks bytes * chunkSizeDefault))
        update fun self ↦ { self with bytesReceived := wholeChunks bytes * chunkSizeDefault })
        (fun r w' ↦ r = .ok () ∧ Paused metadata dir dest state
          (bytes.take (wholeChunks bytes * chunkSizeDefault)) (wholeChunks bytes) w') w := by
      have honly : Stays (OnlyFile (metadata.partPath dir))
          (truncate (metadata.partPath dir) (wholeChunks bytes * chunkSizeDefault)) := stays_truncate _ _
      rw [wp_raiseIf_bind]
      refine ⟨fun hneg ↦ absurd hneg (by omega), fun _ ↦ ?_⟩
      rw [wp_bind, wp_onDisk]
      apply wp_mono (wp_and (truncate_spec _ _ w.disk h.disk.isFile (by rw [hcontent]; exact hle))
        (honly w.disk))
      rintro r d ⟨hok, honly'⟩
      obtain ⟨rfl, hfile, hcontent'⟩ := hok (h.disk.reliable .truncate)
      rw [hcontent] at hcontent'
      dsimp only [Except.mapError]
      rw [wp_update]
      exact ⟨rfl, ⟨h.metadata_eq, h.downloadDir_eq, h.state, h.tempPath, h.finalPath,
        h.disk.later honly' hfile⟩, hlength.symm, hseq, hfh, hcontent'⟩
    exact wp_tryCatch_of htruncate (fun _ _ ht ↦ by simp at ht) fun _ _ ht ↦ ht
  · intro hnot
    have hall : bytes.take (wholeChunks bytes * chunkSizeDefault) = bytes := by
      apply List.take_of_length_le
      omega
    rw [hall]
    exact ⟨rfl, h, hcount, hseq, hfh, hcontent⟩

/-- An interrupt with at least one whole chunk keeps the whole chunks, and points at the next one. -/
theorem interrupt_receiving {bytes : Bytes} {seq : ℕ} {w : World}
    (h : Receiving metadata dir dest .transferring bytes seq w)
    (hchunk : metadata.chunkSize = chunkSizeDefault) (hsize : metadata.fileSize ≠ 0)
    (hbytes : chunkSizeDefault ≤ bytes.length) :
    wp interrupt (fun r w' ↦ r = .ok () ∧ Paused metadata dir dest .interrupted
      (bytes.take (wholeChunks bytes * chunkSizeDefault)) (wholeChunks bytes) w') w := by
  have hpos : bytes.length ≠ 0 := by
    have : 0 < chunkSizeDefault := by decide
    omega
  unfold interrupt
  rw [wp_get_bind, if_neg (by simp [h.state]), if_neg (by simp [h.state]),
    if_neg (by rw [h.metadata_eq]; exact hsize)]
  unfold preservePart
  refine wp_bind_of h.releaseTempFh (fun _ _ ht ↦ by simp at ht) fun _ w₁ hw₁ ↦ ?_
  obtain ⟨-, hclosed⟩ := hw₁
  have hbegun₁ : Begun metadata dir dest .transferring w₁ :=
    h.toBegun.later (by rw [hclosed.self]) (by rw [hclosed.self]) (by rw [hclosed.self])
      (by rw [hclosed.self]) (by rw [hclosed.self]; exact h.state) hclosed.only hclosed.isFile
  have hmeasure : wp bytesOnDisk (fun r w₂ ↦ r = .ok bytes.length ∧ w₂.self = w₁.self ∧
      w₂.disk.nodes = w₁.disk.nodes ∧ Deliverable metadata dir dest w₂.disk) w₁ := by
    unfold bytesOnDisk
    rw [wp_get_bind, hbegun₁.tempPath]
    dsimp only
    rw [if_pos (exists_of_isFile hclosed.isFile)]
    have hstat : wp (onDisk (stat (metadata.partPath dir))) (fun r w₂ ↦ r = .ok bytes.length ∧
        w₂.self = w₁.self ∧ w₂.disk.nodes = w₁.disk.nodes ∧ Deliverable metadata dir dest w₂.disk) w₁ := by
      rw [wp_onDisk]
      apply wp_mono (stat_part hbegun₁.disk)
      rintro r d ⟨rfl, hnodes, hd⟩
      exact ⟨by rw [hclosed.content]; rfl, rfl, hnodes, hd⟩
    exact wp_tryCatch_of hstat (fun _ _ ht ↦ by simp at ht) fun _ _ ht ↦ ht
  refine wp_bind_of hmeasure (fun _ _ ht ↦ by simp at ht) fun actual w₂ hw₂ ↦ ?_
  obtain ⟨hactual, hself₂, hnodes₂, hdisk₂⟩ := hw₂
  obtain rfl := Except.ok.inj hactual
  have hcontent₂ : w₂.disk.content (metadata.partPath dir) = bytes := by
    rw [Disk.content, hnodes₂]
    exact hclosed.content
  rw [wp_get_bind, if_neg (fun hzero ↦ hpos hzero.1), wp_update_bind]
  have hself : w₂.self = { w.self with tempFh := none } := hself₂.trans hclosed.self
  have hchunkSize : w₂.self.metadata.chunkSize = chunkSizeDefault := by
    rw [hself]
    exact h.metadata_eq ▸ hchunk
  have hnext : (if 0 < w₂.self.metadata.chunkSize then
      (bytes.length : ℤ) / w₂.self.metadata.chunkSize else w₂.self.nextSeq) = wholeChunks bytes := by
    rw [hchunkSize, if_pos (by decide), wholeChunks]
    rfl
  rw [hnext]
  set w₃ : World := ⟨w₂.disk, { w₂.self with bytesReceived := bytes.length, nextSeq := wholeChunks bytes }⟩
    with hw₃
  have hbegun₃ : Begun metadata dir dest .transferring w₃ := by
    refine ⟨?_, ?_, ?_, ?_, ?_, hdisk₂⟩
    · rw [hw₃, hself]; exact h.metadata_eq
    · rw [hw₃, hself]; exact h.downloadDir_eq
    · rw [hw₃, hself]; exact h.state
    · rw [hw₃, hself]; exact h.tempPath
    · rw [hw₃, hself]; exact h.finalPath
  have hfh₃ : w₃.self.tempFh = none := by rw [hw₃, hself]
  refine wp_bind_of (truncateToChunk_spec hbegun₃ hchunk hfh₃ hcontent₂ rfl rfl)
    (fun _ _ ht ↦ by simp at ht) fun _ w₄ hw₄ ↦ ?_
  obtain ⟨-, hpaused⟩ := hw₄
  rw [wp_transition]
  refine ⟨fun _ ↦ ⟨rfl, ?_⟩, fun hinvalid ↦ absurd ?_ hinvalid⟩
  · exact ⟨⟨hpaused.metadata_eq, hpaused.downloadDir_eq, rfl, hpaused.tempPath, hpaused.finalPath,
      hpaused.disk⟩, hpaused.count, hpaused.seq, hpaused.tempFh, hpaused.content⟩
  · simp [hpaused.state, TransferState.validTransitions]

/-! ## Resuming -/

theorem uuidText_ne_nil {n : ℕ} (hn : n < 2 ^ 128) : uuidText n ≠ [] := by
  intro hnil
  have hparse := uuidInt_uuidText hn
  have hempty : uuidInt [] ≠ .ok n := by
    intro h
    simp [uuidInt, bind_eq_ok, Text.remove, Text.removeFrom, Text.strip, Text.lstrip] at h
  exact hempty (hnil ▸ hparse)

/-- The resume request for `index` whole chunks passes its own validation. -/
theorem build_resumeRequest {n index : ℕ} {bytes : Bytes} (hn : n < 2 ^ 128)
    (hlimit : ((index * chunkSizeDefault : ℕ) : ℤ) ≤ maxFileSize) :
    TransferResumeRequestPayload.build (uuidText n) ((index * chunkSizeDefault : ℕ) : ℤ) (index : ℤ)
      (Sha256.hexdigest bytes) 1 =
      .ok ⟨uuidText n, (index * chunkSizeDefault : ℕ), index, Sha256.hexdigest bytes, 1⟩ := by
  have hhex : ∀ c ∈ Sha256.hexdigest bytes, c ∈ Sha256.lowerHex :=
    fun c hc ↦ Sha256.mem_lowerHex_of_mem_hexdigest hc
  have huuid : (uuidInt (uuidText n)).toOption ≠ none := by
    rw [uuidInt_uuidText hn]
    simp [Except.toOption]
  unfold TransferResumeRequestPayload.build TransferResumeRequestPayload.validate
  simp only [bind_eq_ok, rejectIf_eq_ok]
  refine ⟨(), ⟨(), uuidText_ne_nil hn, (), huuid, (), ?_, (), ?_, (), ?_, (), ?_, (), ?_, ?_⟩, rfl⟩
  · omega
  · omega
  · simp [TransferResumeRequestPayload.protocolVersionCurrent]
  · simpa using hhex
  · rintro ⟨hzero, hne⟩
    have hindex : index = 0 := by exact_mod_cast hzero
    exact hne (by simp [hindex])
  · simp

theorem readPart_spec {w : World} (h : Deliverable metadata dir dest w.disk) :
    wp (readPart (metadata.partPath dir)) (fun r w' ↦
      r = .ok (w.disk.content (metadata.partPath dir)) ∧ w'.self = w.self ∧
        w'.disk.nodes = w.disk.nodes ∧ Deliverable metadata dir dest w'.disk) w := by
  have honly : Stays (OnlyFile (metadata.partPath dir)) (readBlocks (metadata.partPath dir)) :=
    stays_readBlocks _ _
  unfold readPart
  rw [wp_bind, wp_onDisk]
  apply wp_mono (wp_and (readBlocks_spec (metadata.partPath dir) w.disk) (honly w.disk))
  rintro r d ⟨⟨hnodes, hok⟩, honly'⟩
  obtain rfl := hok h.isFile (h.reliable .read)
  have hfile : d.IsFile (metadata.partPath dir) := by
    rw [Disk.IsFile, hnodes]
    exact h.isFile
  exact ⟨rfl, rfl, hnodes, h.later honly' hfile⟩

/-- A paused transfer with whole chunks asks for the next one, with the digest of its bytes. -/
theorem prepareResumeRequest_paused {n index : ℕ} {bytes : Bytes} {w : World}
    (h : Paused metadata dir dest .interrupted bytes index w) (hn : n < 2 ^ 128)
    (hid : metadata.transferId = uuidText n) (hchunk : metadata.chunkSize = chunkSizeDefault)
    (hlength : bytes.length = index * chunkSizeDefault) (hindex : 0 < index)
    (hfits : (bytes.length : ℤ) ≤ metadata.fileSize) (hsize : metadata.fileSize ≤ maxFileSize) :
    wp (prepareResumeRequest none none) (fun r w' ↦
      r = .ok ⟨uuidText n, (index * chunkSizeDefault : ℕ), index, Sha256.hexdigest bytes, 1⟩ ∧
        Paused metadata dir dest .interrupted bytes index w') w := by
  have hpos : 0 < bytes.length := by
    rw [hlength]
    exact Nat.mul_pos hindex (by decide)
  unfold prepareResumeRequest
  rw [wp_get_bind, wp_raiseIf_bind]
  refine ⟨fun hstate ↦ absurd h.state hstate, fun _ ↦ ?_⟩
  rw [h.tempPath]
  dsimp only
  rw [wp_raiseIf_bind]
  refine ⟨fun hmissing ↦ absurd (exists_of_isFile h.disk.isFile) hmissing, fun _ ↦ ?_⟩
  rw [wp_bind, wp_onDisk]
  apply wp_mono (stat_part h.disk)
  rintro r d₁ ⟨rfl, hnodes₁, hdisk₁⟩
  rw [h.content, h.metadata_eq]
  dsimp only [Except.mapError]
  have hcheck : wp (checkPartial metadata bytes.length none none)
      (fun r w' ↦ r = .ok () ∧ w' = { w with disk := d₁ }) { w with disk := d₁ } := by
    unfold checkPartial
    rw [wp_raiseIf_bind]
    refine ⟨fun hzero ↦ absurd hzero hpos.ne', fun _ ↦ ?_⟩
    rw [wp_raiseIf_bind]
    refine ⟨fun hneg ↦ absurd hneg (by omega), fun _ ↦ ?_⟩
    rw [wp_raiseIf_bind]
    refine ⟨fun hlong ↦ absurd hlong (by omega), fun _ ↦ ?_⟩
    rw [wp_raiseIf_bind, hchunk]
    refine ⟨fun hneg ↦ absurd hneg (by decide), fun _ ↦ ?_⟩
    rw [wp_raiseIf_bind, hlength]
    refine ⟨fun hmod ↦ absurd (by simp) hmod, fun _ ↦ ?_⟩
    rw [wp_raiseIf_bind, wp_raiseIf]
    exact ⟨fun hbytes ↦ by simp at hbytes, fun _ ↦ ⟨fun hi ↦ by simp at hi, fun _ ↦ ⟨rfl, rfl⟩⟩⟩
  refine wp_bind_of hcheck (fun _ _ ht ↦ by simp at ht) fun _ w₂ hw₂ ↦ ?_
  obtain ⟨-, rfl⟩ := hw₂
  refine wp_bind_of (readPart_spec hdisk₁) (fun _ _ ht ↦ by simp at ht) fun data w₃ hw₃ ↦ ?_
  obtain ⟨hdata, hself₃, hnodes₃, hdisk₃⟩ := hw₃
  have hcontent : ∀ d : Disk, d.nodes = w.disk.nodes → d.content (metadata.partPath dir) = bytes := by
    intro d hd
    rw [Disk.content, hd]
    exact h.content
  have hbytes : data = bytes := by
    rw [Except.ok.inj hdata]
    exact hcontent d₁ hnodes₁
  have hdiv : (bytes.length : ℤ) / metadata.chunkSize = index := by
    rw [hchunk, hlength]
    simp [chunkSizeDefault]
  have hbuild : TransferResumeRequestPayload.build (uuidText n)
      ((index * chunkSizeDefault : ℕ) : ℤ) (index : ℤ) (Sha256.hexdigest bytes) 1 =
        .ok ⟨uuidText n, (index * chunkSizeDefault : ℕ), index, Sha256.hexdigest bytes, 1⟩ :=
    build_resumeRequest hn (hlength ▸ hfits.trans hsize)
  rw [wp_update_bind, wp_ofResult, hbytes, hid, hdiv, hlength]
  refine ⟨hbuild, ⟨?_, ?_, ?_, ?_, ?_, hdisk₃⟩, hlength.symm, rfl, ?_, ?_⟩
  · rw [hself₃]; exact h.metadata_eq
  · rw [hself₃]; exact h.downloadDir_eq
  · rw [hself₃]; exact h.state
  · rw [hself₃]; exact h.tempPath
  · rw [hself₃]; exact h.finalPath
  · rw [hself₃]; exact h.tempFh
  · exact hcontent w₃.disk (hnodes₃.trans hnodes₁)

/-- A paused transfer resumes with its bytes hashed again and its file open at the end. -/
theorem resume_paused {index : ℕ} {bytes : Bytes} {w : World}
    (h : Paused metadata dir dest .interrupted bytes index w) :
    wp (resume index) (fun r w' ↦ r = .ok () ∧
      Receiving metadata dir dest .resuming bytes index w') w := by
  have hopen : wp (onDisk (Handle.openAppend (metadata.partPath dir)))
      (fun r w' ↦ r = .ok ⟨metadata.partPath dir, [], false⟩ ∧
        w'.self = { w.self with state := .resumeRequested } ∧
        w'.disk.content (metadata.partPath dir) = bytes ∧ Deliverable metadata dir dest w'.disk)
      { w with self := { w.self with state := .resumeRequested } } := by
    have honly : Stays (OnlyFile (metadata.partPath dir)) (Handle.openAppend (metadata.partPath dir)) :=
      Handle.stays_openAppend _
    have hnotDir : w.disk.nodes (metadata.partPath dir) ≠ some .directory := by
      rw [h.disk.isFile.nodes]
      simp
    rw [wp_onDisk]
    apply wp_mono (wp_and (Handle.openAppend_spec (metadata.partPath dir) w.disk) (honly w.disk))
    rintro r d ⟨⟨hok, hreliable⟩, honly'⟩
    obtain rfl := hreliable (h.disk.reliable .openFile) h.disk.staging.2 hnotDir
    obtain ⟨-, hfile, hcontent⟩ := hok _ rfl
    exact ⟨rfl, rfl, hcontent.trans h.content, h.disk.later honly' hfile⟩
  unfold resume
  rw [wp_get_bind, wp_raiseIf_bind]
  refine ⟨fun hstate ↦ absurd h.state hstate.1, fun _ ↦ ?_⟩
  rw [wp_setState_bind, h.tempPath]
  dsimp only
  rw [if_pos (exists_of_isFile h.disk.isFile)]
  unfold reopenPart
  have hreopened : wp (do
      let fh ← onDisk (Handle.openAppend (metadata.partPath dir))
      assignTempFh (some fh))
      (fun r w' ↦ r = .ok () ∧
        w'.self = { w.self with
          state := .resumeRequested, tempFh := some ⟨metadata.partPath dir, [], false⟩ } ∧
        w'.disk.content (metadata.partPath dir) = bytes ∧ Deliverable metadata dir dest w'.disk)
      { w with self := { w.self with state := .resumeRequested } } := by
    refine wp_bind_of hopen (fun _ _ ht ↦ by simp at ht) fun fh w₁ hw₁ ↦ ?_
    obtain ⟨hfh, hself, hcontent, hdisk⟩ := hw₁
    obtain rfl := Except.ok.inj hfh
    unfold assignTempFh
    rw [wp_get_bind, wp_update_bind, hself]
    dsimp only
    rw [h.tempFh]
    exact ⟨rfl, rfl, hcontent, hdisk⟩
  have htry : wp (tryCatch (do
      let fh ← onDisk (Handle.openAppend (metadata.partPath dir))
      assignTempFh (some fh)) fun e ↦ do
        if e.IsOsError then
          setState .failed
          throw (.transfer .reopenPart)
        else throw e)
      (fun r w' ↦ r = .ok () ∧
        w'.self = { w.self with
          state := .resumeRequested, tempFh := some ⟨metadata.partPath dir, [], false⟩ } ∧
        w'.disk.content (metadata.partPath dir) = bytes ∧ Deliverable metadata dir dest w'.disk)
      { w with self := { w.self with state := .resumeRequested } } :=
    wp_tryCatch_of hreopened (fun _ _ ht ↦ by simp at ht) fun _ _ ht ↦ ht
  refine wp_bind_of htry (fun _ _ ht ↦ by simp at ht) fun _ w₁ hw₁ ↦ ?_
  obtain ⟨-, hself₁, hcontent₁, hdisk₁⟩ := hw₁
  have honly : Stays (OnlyFile (metadata.partPath dir)) (readBlocks (metadata.partPath dir)) :=
    stays_readBlocks _ _
  rw [wp_bind, wp_onDisk]
  apply wp_mono (wp_and (readBlocks_spec (metadata.partPath dir) w₁.disk) (honly w₁.disk))
  rintro r d₂ ⟨⟨hnodes₂, hok₂⟩, honly₂⟩
  obtain rfl := hok₂ hdisk₁.isFile (hdisk₁.reliable .read)
  have hfile₂ : d₂.IsFile (metadata.partPath dir) := by
    rw [Disk.IsFile, hnodes₂]
    exact hdisk₁.isFile
  have hcontent₂ : d₂.content (metadata.partPath dir) = bytes := by
    rw [Disk.content, hnodes₂]
    exact hcontent₁
  rw [hcontent₁]
  dsimp only [Except.mapError]
  rw [wp_update_bind, wp_bind, wp_onDisk]
  apply wp_mono (stat_part (hdisk₁.later honly₂ hfile₂))
  rintro r d₃ ⟨rfl, hnodes₃, hdisk₃⟩
  rw [hcontent₂]
  dsimp only [Except.mapError]
  rw [wp_update_bind, wp_transition, hself₁]
  refine ⟨fun _ ↦ ⟨rfl, ⟨h.metadata_eq, h.downloadDir_eq, rfl, h.tempPath, h.finalPath, hdisk₃⟩, rfl, rfl,
    rfl, _, rfl, rfl, rfl, ?_⟩, fun hinvalid ↦ absurd ?_ hinvalid⟩
  · rw [List.append_nil, Disk.content, hnodes₃]
    exact hcontent₂
  · simp [TransferState.validTransitions]

/-! ## Finishing -/

theorem isName_of_mem_destination {fileName relativePath : Text}
    (h : resolveSafeDestination dir.path fileName relativePath = .ok dest) :
    ∀ c ∈ dest, Path.IsName c := by
  rcases resolveSafeDestination_spec h with ⟨-, -, rfl⟩ | ⟨-, names, -, hnames, rfl⟩
  · exact dir.isName
  · intro c hc
    rcases List.mem_append.mp hc with hc | hc
    · exact dir.isName c hc
    · exact hnames c hc

/-- A proper prefix of a path is a prefix of its parent. -/
theorem prefix_parent_of_isProperAncestor {p q : Path} (h : Path.IsProperAncestor p q) :
    p <+: q.parent := by
  obtain ⟨⟨rest, rfl⟩, hne⟩ := h
  have hrest : rest ≠ [] := fun hnil ↦ hne (by rw [hnil, List.append_nil])
  rw [Path.parent, List.dropLast_append_of_ne_nil hrest]
  exact List.prefix_append _ _

/-- The path that `finalise` renames to is a free place beside the destination. -/
theorem destination_spec {n : ℕ} (huuid : uuidInt metadata.transferId = .ok n)
    (hnames : ∀ c ∈ dest, Path.IsName c) {self : IncomingTransfer} {d : Disk}
    (hself : self.metadata = metadata) (h : Deliverable metadata dir dest d) :
    d.nodes (self.destination d dest) ≠ some .directory ∧
      d.nodes (self.destination d dest).parent = some .directory ∧
      ¬Path.IsProperAncestor (metadata.partPath dir) (self.destination d dest) := by
  have hconflict : self.conflictPath dest = (new metadata dir).conflictPath dest := by
    unfold conflictPath
    rw [hself]
    rfl
  have hparent : (self.destination d dest).parent = dest.parent := by
    unfold destination
    split
    · have hself' : uuidInt self.metadata.transferId = .ok _ := hself ▸ huuid
      rw [conflictPath_eq hself' hnames, Path.parent, List.dropLast_concat]
    · rfl
  have hmem : dest.parent ∈ dest.parent.inits := (List.mem_inits _ _).mpr (List.prefix_refl _)
  refine ⟨?_, by rw [hparent]; exact (h.parent _ hmem).2, fun hancestor ↦ ?_⟩
  · unfold destination
    split
    · rw [hconflict]
      exact h.conflict
    · next hmissing =>
      have hnone : d.nodes dest = none := by simpa [Disk.Exists] using hmissing
      rw [hnone]
      simp
  · have hprefix := prefix_parent_of_isProperAncestor hancestor
    rw [hparent] at hprefix
    exact (h.parent _ ((List.mem_inits _ _).mpr hprefix)).1 rfl

/-- With all bytes received and the right digest, `finalise` returns `True` and delivers them. -/
theorem finalise_receiving {n : ℕ} {state : TransferState} {bytes : Bytes} {seq : ℕ} {w : World}
    (huuid : uuidInt metadata.transferId = .ok n)
    (hdest : resolveSafeDestination dir.path metadata.fileName metadata.relativePath = .ok dest)
    (h : Receiving metadata dir dest state bytes seq w)
    (hstate : state = .transferring ∨ state = .resuming)
    (hdigest : Sha256.hexdigest bytes = Text.asciiLower metadata.sha256) :
    wp finalise (fun r w' ↦ r = .ok true ∧ w'.self.state = .completed ∧ ∃ target,
      (target = dest ∨ target = (new metadata dir).conflictPath dest) ∧
      renameTarget w = some target ∧ w'.disk.nodes target = some (.file bytes)) w := by
  have hflush := h.flushTempFh
  have hclosed : Closed metadata dir bytes w (IncomingTransfer.flushTempFh w).2 := hflush.2
  have hself := hclosed.self
  set w₁ := (IncomingTransfer.flushTempFh w).2 with hw₁
  have hdisk : Deliverable metadata dir dest w₁.disk := h.disk.later hclosed.only hclosed.isFile
  have hmetadata : w₁.self.metadata = metadata := by rw [hself]; exact h.metadata_eq
  have htarget := destination_spec huuid (isName_of_mem_destination hdest) hmetadata hdisk
  have hrename := rename_spec (metadata.partPath dir) (w₁.self.destination w₁.disk dest) w₁.disk
  have hok := hrename.2.2.2 (hdisk.reliable .rename) hdisk.isFile htarget.1 htarget.2.1 htarget.2.2
  have hfinal : w₁.self.finalPath = some dest := by rw [hself]; exact h.finalPath
  have hchoice : w₁.self.destination w₁.disk dest = dest ∨
      w₁.self.destination w₁.disk dest = (new metadata dir).conflictPath dest := by
    unfold destination conflictPath
    split
    · rw [hmetadata]; exact .inr rfl
    · exact .inl rfl
  have hplace : renameTarget w = some (w₁.self.destination w₁.disk dest) := by
    rw [renameTarget, ← hw₁, hfinal]
    rfl
  have hplaced : (rename (metadata.partPath dir) (w₁.self.destination w₁.disk dest) w₁.disk).2.nodes
      (w₁.self.destination w₁.disk dest) = some (.file bytes) := by
    have hmoved := (hrename.2.1 hok).1
    calc
      _ = (w₁.disk.move (metadata.partPath dir) (w₁.self.destination w₁.disk dest)).nodes
            (w₁.self.destination w₁.disk dest) := congrFun hmoved _
      _ = _ := by rw [nodes_move_dst, hclosed.isFile.nodes, hclosed.content]
  unfold finalise
  rw [wp_bind_iff]
  refine ⟨fun e he ↦ absurd (hflush.1.symm.trans he) (by simp), fun _ _ ↦ ?_⟩
  rw [← hw₁, wp_get_bind, if_neg]
  · unfold deliver
    rw [wp_get_bind]
    have htemp : w₁.self.tempPath = some (metadata.partPath dir) := by rw [hself]; exact h.tempPath
    rw [htemp, hfinal]
    dsimp only
    rw [wp_bind_iff]
    refine ⟨fun e he ↦ absurd ((onDisk_ok.mpr hok).symm.trans he) (by simp), fun _ _ ↦ ?_⟩
    rw [onDisk_world, wp_bind, wp_transition]
    refine ⟨fun _ ↦ ⟨rfl, rfl, _, hchoice, hplace, hplaced⟩, fun hinvalid ↦ absurd ?_ hinvalid⟩
    rw [hself]
    rcases hstate with rfl | rfl <;> simp [h.state, TransferState.validTransitions]
  · rw [hself]
    dsimp only
    rw [h.hasher, h.metadata_eq]
    exact not_not.mpr hdigest

/-- With the wrong digest, `finalise` returns `False`. -/
theorem finalise_refuses {state : TransferState} {bytes : Bytes} {seq : ℕ} {w : World}
    (h : Receiving metadata dir dest state bytes seq w)
    (hstate : state = .transferring ∨ state = .resuming)
    (hdigest : Sha256.hexdigest bytes ≠ Text.asciiLower metadata.sha256) :
    wp finalise (fun r _ ↦ r = .ok false) w := by
  unfold finalise
  apply wp_bind_of h.flushTempFh (fun _ _ hr ↦ by simp at hr)
  rintro _ w₁ ⟨-, hclosed⟩
  have hself := hclosed.self
  rw [wp_get_bind, if_pos]
  · apply wp_bind_of (wp_and (succeeds_cleanupTemp w₁) (cleanupTemp_self w₁))
      (fun _ _ hr ↦ by simp at hr)
    rintro _ w₂ ⟨-, hself₂⟩
    rw [wp_transition_bind]
    refine ⟨fun _ ↦ rfl, fun hinvalid ↦ absurd ?_ hinvalid⟩
    rw [hself₂, hself]
    rcases hstate with rfl | rfl <;> simp [h.state, TransferState.validTransitions]
  · rw [hself]
    dsimp only
    rw [h.hasher, h.metadata_eq]
    exact hdigest

end Receiving

end IncomingTransfer

end Ferry
