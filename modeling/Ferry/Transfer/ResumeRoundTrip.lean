import Ferry.Transfer.Receiving

/-!
# A transfer that is interrupted and resumed

The receiver loses the connection after any number of frames, keeps the whole chunks, asks the sender
for the rest, and ends with the file of the sender.
-/

namespace Ferry

namespace IncomingTransfer

open Exec Disk Chunks OutgoingTransfer

/-- Begin, receive the frames, and lose the connection. -/
def receiveAndInterrupt (frames : List Bytes) : Method Unit := do
  begin
  receiveAll frames
  interrupt

/-- Resume at a chunk and receive the frames. -/
def resumeAndReceive (index : ℤ) (frames : List Bytes) : Method Unit := do
  resume index
  receiveAll frames

/-- The digest of a prefix, for a file that is at least as long. -/
theorem computePrefixSha256_spec {p : Path} {f : Bytes} {d : Disk} {length : ℕ}
    (hfile : d.nodes p = some (.file f)) (hread : d.Reliable .read) (hlength : length ≤ f.length) :
    wp (computePrefixSha256 p length)
      (fun r _ ↦ r = .ok (some (Sha256.hexdigest (f.take length)))) d := by
  unfold computePrefixSha256
  rw [wp_bind]
  apply wp_mono (readBlocks_spec p d)
  rintro r d' ⟨-, hok⟩
  obtain rfl := hok ⟨f, hfile⟩ hread
  rw [content_of_nodes hfile]
  dsimp only
  rw [if_neg, Int.toNat_natCast]
  · exact rfl
  · rintro (herror | hshort)
    · simp at herror
    · omega

section Resume

variable {n : ℕ} {f : Bytes} {metadata : TransferMetadata} {dir : DownloadDir} {dest : Path}

/-- The first `k` frames and an interrupt leave the whole chunks among them. -/
theorem receiveAndInterrupt_paused {disk : Disk} {frames : List Bytes} {k : ℕ}
    (hid : metadata.transferId = uuidText n) (hchunk : metadata.chunkSize = chunkSizeDefault)
    (hsize : metadata.fileSize = f.length) (hk : 0 < k) (hwhole : chunkSizeDefault ≤ f.length)
    (hframes : frames.mapM decodeChunkFrame = .ok (chunkFrames n f 0 k))
    (hbegin : wp begin (fun r w' ↦ r = .ok () ∧ Receiving metadata dir dest .transferring [] 0 w')
      ⟨disk, new metadata dir⟩) :
    ∃ index, 0 < index ∧ index * chunkSizeDefault ≤ f.length ∧
      wp (receiveAndInterrupt frames) (fun r w' ↦ r = .ok () ∧
        Paused metadata dir dest .interrupted (f.take (index * chunkSizeDefault)) index w')
        ⟨disk, new metadata dir⟩ := by
  have hpos : 0 < chunkSizeDefault := chunkSizeDefault_pos
  set bytes := f.take (k * chunkSizeDefault) with hbytes
  have hlength : bytes.length = min (k * chunkSizeDefault) f.length := List.length_take
  have hmul : chunkSizeDefault ≤ k * chunkSizeDefault := Nat.le_mul_of_pos_left _ hk
  have hone : chunkSizeDefault ≤ bytes.length := by
    rw [hlength]
    exact le_min hmul hwhole
  have hle := wholeChunks_mul_le bytes
  have htake : bytes.take (wholeChunks bytes * chunkSizeDefault) =
      f.take (wholeChunks bytes * chunkSizeDefault) := by
    rw [hbytes, List.take_take, ← hbytes, min_eq_left]
    exact hle.trans (hlength.trans_le (min_le_left _ _))
  refine ⟨wholeChunks bytes, Nat.div_pos hone hpos, hle.trans (hlength.trans_le (min_le_right _ _)), ?_⟩
  unfold receiveAndInterrupt
  refine wp_bind_of hbegin (fun _ _ ht ↦ by simp at ht) fun _ w₀ hw₀ ↦ ?_
  refine wp_bind_of (receiveAll_receiving k hid hchunk (.inl rfl) hw₀.2 hframes)
    (fun _ _ ht ↦ by simp at ht) fun _ w₁ hw₁ ↦ ?_
  have hreceived : [] ++ (segment chunkSizeDefault f 0 k).flatMap Prod.snd = bytes := by
    rw [List.nil_append, flatMap_segment hpos, Nat.zero_mul, List.drop_zero]
  rw [hreceived] at hw₁
  have hnonzero : metadata.fileSize ≠ 0 := by
    rw [hsize]
    omega
  apply wp_mono (interrupt_receiving hw₁.2 hchunk hnonzero hone)
  intro r w₂ hw₂
  rw [htake] at hw₂
  exact hw₂

/-- Resuming at a whole chunk and receiving all frames from there completes the file. -/
theorem resumeAndReceive_receiving {w : World} {rest : List Bytes} {index limit : ℕ}
    (hid : metadata.transferId = uuidText n) (hchunk : metadata.chunkSize = chunkSizeDefault)
    (hlimit : f.length ≤ limit)
    (hrest : rest.mapM decodeChunkFrame = .ok (chunkFrames n f index limit))
    (h : Paused metadata dir dest .interrupted (f.take (index * chunkSizeDefault)) index w) :
    wp (resumeAndReceive index rest) (fun r w' ↦ r = .ok () ∧ ∃ seq,
      Receiving metadata dir dest .resuming f seq w') w := by
  have hpos : 0 < chunkSizeDefault := chunkSizeDefault_pos
  have htotal : total chunkSizeDefault f ≤ index + limit := by
    rw [total_le_iff hpos]
    calc
      f.length ≤ limit := hlimit
      _ ≤ index + limit := Nat.le_add_left _ _
      _ ≤ (index + limit) * chunkSizeDefault := Nat.le_mul_of_pos_right _ hpos
  have hjoin : f.take (index * chunkSizeDefault) ++
      (segment chunkSizeDefault f index limit).flatMap Prod.snd = f := by
    rw [flatMap_segment_rest hpos htotal, List.take_append_drop]
  unfold resumeAndReceive
  refine wp_bind_of (resume_paused h) (fun _ _ ht ↦ by simp at ht) fun _ w₁ hw₁ ↦ ?_
  apply wp_mono (receiveAll_receiving limit hid hchunk (.inr rfl) hw₁.2 hrest)
  rintro r w₂ ⟨rfl, hw₂⟩
  rw [hjoin] at hw₂
  exact ⟨rfl, _, hw₂⟩

/-- From the frames on, for any metadata that describes the file. -/
theorem resume_delivers {frames : List Bytes} {disk : Disk} {k limit : ℕ} {again : Sender}
    (hn : n < 2 ^ 128) (hsize : (f.length : ℤ) ≤ maxFileSize)
    (hid : metadata.transferId = uuidText n) (hchunk : metadata.chunkSize = chunkSizeDefault)
    (hfileSize : metadata.fileSize = f.length) (hsha256 : metadata.sha256 = Sha256.hexdigest f)
    (hframes : frames.mapM decodeChunkFrame = .ok (chunkFrames n f 0 k)) (hagain : Fresh n f again)
    (hdest : resolveSafeDestination dir.path metadata.fileName metadata.relativePath = .ok dest)
    (hbegin : wp begin (fun r w' ↦ r = .ok () ∧ Receiving metadata dir dest .transferring [] 0 w')
      ⟨disk, new metadata dir⟩)
    (hk : 0 < k) (hwhole : chunkSizeDefault ≤ f.length) (hlimit : f.length ≤ limit) :
    ∃ w₁ p w₂ rest w₃ w₄ target,
      receiveAndInterrupt frames ⟨disk, new metadata dir⟩ = (.ok (), w₁) ∧
      prepareResumeRequest none none w₁ = (.ok p, w₂) ∧
      p.resumeOffsetBytes = p.resumeChunkIndex * chunkSizeDefault ∧
      (computePrefixSha256 again.self.sourcePath p.resumeOffsetBytes again.disk).1 =
        .ok (some p.partialSha256) ∧
      (streamChunksFrom limit p.resumeChunkIndex again).1 = .ok rest ∧
      resumeAndReceive p.resumeChunkIndex rest w₂ = (.ok (), w₃) ∧
      finalise w₃ = (.ok true, w₄) ∧ renameTarget w₃ = some target ∧
      w₄.disk.nodes target = some (.file f) := by
  have huuid : uuidInt metadata.transferId = .ok n := by
    rw [hid]
    exact uuidInt_uuidText hn
  have hdigest : Sha256.hexdigest f = Text.asciiLower metadata.sha256 := by
    rw [hsha256, Sha256.asciiLower_hexdigest]
  obtain ⟨index, hindex, hle, hpaused⟩ :=
    receiveAndInterrupt_paused hid hchunk hfileSize hk hwhole hframes hbegin
  have hlength : (f.take (index * chunkSizeDefault)).length = index * chunkSizeDefault := by
    rw [List.length_take, min_eq_left hle]
  have hfits : (((f.take (index * chunkSizeDefault)).length : ℕ) : ℤ) ≤ metadata.fileSize := by
    rw [hlength, hfileSize]
    exact_mod_cast hle
  have hoffset : index * chunkSizeDefault < 2 ^ 63 := by
    have hbytes : (f.length : ℤ) ≤ 10 * 1024 ^ 3 := hsize
    omega
  obtain ⟨w₁, hw₁, hpaused₁⟩ := exists_run_of_wp hpaused
  obtain ⟨w₂, hw₂, hpaused₂⟩ := exists_run_of_wp (prepareResumeRequest_paused hpaused₁ hn hid hchunk
    hlength hindex hfits (hfileSize ▸ hsize))
  obtain ⟨rest, hrest, hdecode⟩ := streamChunksFrom_spec limit hn hsize hagain hoffset
  obtain ⟨w₃, hw₃, seq, hcomplete⟩ :=
    exists_run_of_wp (resumeAndReceive_receiving hid hchunk hlimit hdecode hpaused₂)
  obtain ⟨w₄, hw₄, -, target, -, hplace, hfile⟩ :=
    exists_run_of_wp (finalise_receiving huuid hdest hcomplete (.inr rfl) hdigest)
  exact ⟨w₁, _, w₂, rest, w₃, w₄, target, hw₁, hw₂, Nat.cast_mul _ _,
    computePrefixSha256_spec hagain.source (hagain.reliable .read) hle, hrest, hw₃, hw₄, hplace, hfile⟩

/-- For a file of at most 10 GiB and an interrupt after any number `k` of frames with a whole chunk
among them, on disks that do not fail: the resume request names the boundary of whole chunks that are
on the disk, with the digest that the sender computes for it, and resuming there with all frames of
a new object delivers the file of the sender. -/
theorem resume_reproduces (sender again : Sender) (senderIdentity mimeType : Text) (now : ℤ)
    (metadata : TransferMetadata) (dir : DownloadDir) (disk : Disk) (k limit : ℕ)
    (hn : n < 2 ^ 128) (hsize : (f.length : ℤ) ≤ maxFileSize)
    (hsender : Fresh n f sender) (hagain : Fresh n f again)
    (hmetadata : (buildMetadata senderIdentity mimeType now sender).1 = .ok metadata)
    (hreliable : ∀ call, disk.Reliable call)
    (hbegin : (begin ⟨disk, new metadata dir⟩).1 = .ok ())
    (hconflict : ∀ dest,
      resolveSafeDestination dir.path metadata.fileName metadata.relativePath = .ok dest →
        (begin ⟨disk, new metadata dir⟩).2.disk.nodes ((new metadata dir).conflictPath dest) ≠
          some .directory)
    (hk : 0 < k) (hwhole : chunkSizeDefault ≤ f.length) (hlimit : f.length ≤ limit) :
    ∃ frames w₁ p w₂ rest w₃ w₄ target,
      (streamChunksFrom k 0 (buildMetadata senderIdentity mimeType now sender).2).1 = .ok frames ∧
      receiveAndInterrupt frames ⟨disk, new metadata dir⟩ = (.ok (), w₁) ∧
      prepareResumeRequest none none w₁ = (.ok p, w₂) ∧
      p.resumeOffsetBytes = p.resumeChunkIndex * chunkSizeDefault ∧
      (computePrefixSha256 again.self.sourcePath p.resumeOffsetBytes again.disk).1 =
        .ok (some p.partialSha256) ∧
      (streamChunksFrom limit p.resumeChunkIndex again).1 = .ok rest ∧
      resumeAndReceive p.resumeChunkIndex rest w₂ = (.ok (), w₃) ∧
      finalise w₃ = (.ok true, w₄) ∧ renameTarget w₃ = some target ∧
      w₄.disk.nodes target = some (.file f) := by
  obtain ⟨hfresh, -, hbuilt⟩ := buildMetadata_spec hsender senderIdentity mimeType now
  have hmeta := Except.ok.inj (hmetadata.symm.trans hbuilt)
  have hid : metadata.transferId = uuidText n := by
    rw [hmeta]
    exact hsender.transferId
  have hchunk : metadata.chunkSize = chunkSizeDefault := by rw [hmeta, metadataOf]
  have hfileSize : metadata.fileSize = f.length := by rw [hmeta, metadataOf]
  have hsha256 : metadata.sha256 = Sha256.hexdigest f := by rw [hmeta, metadataOf]
  obtain ⟨dest, hdest, hreceiving⟩ := begin_receiving hreliable hbegin hconflict
  obtain ⟨frames, hframes, hdecode⟩ :=
    streamChunksFrom_spec k hn hsize hfresh (lt_of_eq_of_lt (Nat.zero_mul _) (by norm_num))
  obtain ⟨w₁, p, w₂, rest, w₃, w₄, target, hrun⟩ := resume_delivers hn hsize hid hchunk hfileSize
    hsha256 hdecode hagain hdest ⟨hbegin, hreceiving⟩ hk hwhole hlimit
  exact ⟨frames, w₁, p, w₂, rest, w₃, w₄, target, hframes, hrun⟩

end Resume

/-! ## A file with a short tail -/

def sampleId : ℕ := 0x0123456789ab4def8123456789abcdef

/-- One whole chunk and one more byte. -/
def sampleFile : Bytes := List.replicate 65537 7

/-- A fresh object for the file `/home/f.txt`. -/
def sampleSender : Sender where
  disk := {
    nodes := fun p ↦ if p = [Text.lit "home", Text.lit "f.txt"] then some (.file sampleFile) else none
    faults := fun _ ↦ [] }
  self := .new [Text.lit "home", Text.lit "f.txt"] (uuidText sampleId) [] []

def sampleFileMetadata : TransferMetadata := metadataOf sampleSender.self sampleFile [] [] 0

theorem length_sampleFile : sampleFile.length = 65537 := List.length_replicate

theorem fresh_sampleSender : Fresh sampleId sampleFile sampleSender where
  source := by simp only [sampleSender, OutgoingTransfer.new, if_true]
  reliable := by simp [Reliable, sampleSender]
  transferId := rfl
  state := rfl
  cancelled := rfl

theorem sampleFile_conflict (dest : Path)
    (hdest : resolveSafeDestination sampleDir.path sampleFileMetadata.fileName
      sampleFileMetadata.relativePath = .ok dest) :
    (begin ⟨rootDisk, new sampleFileMetadata sampleDir⟩).2.disk.nodes
      ((new sampleFileMetadata sampleDir).conflictPath dest) ≠ some .directory := by
  have hresolved : resolveSafeDestination sampleDir.path sampleFileMetadata.fileName
      sampleFileMetadata.relativePath =
      .ok [Text.lit "home", Text.lit "dl", Text.lit "f.txt"] := by decide +kernel
  obtain rfl := Except.ok.inj (hdest.symm.trans hresolved)
  decide +kernel

theorem resume_reproduces_sample :
    ∃ frames w₁ p w₂ rest w₃ w₄ target,
      (streamChunksFrom 1 0 (buildMetadata [] [] 0 sampleSender).2).1 = .ok frames ∧
      receiveAndInterrupt frames ⟨rootDisk, new sampleFileMetadata sampleDir⟩ = (.ok (), w₁) ∧
      prepareResumeRequest none none w₁ = (.ok p, w₂) ∧
      p.resumeOffsetBytes = p.resumeChunkIndex * chunkSizeDefault ∧
      (computePrefixSha256 sampleSender.self.sourcePath p.resumeOffsetBytes sampleSender.disk).1 =
        .ok (some p.partialSha256) ∧
      (streamChunksFrom 65537 p.resumeChunkIndex sampleSender).1 = .ok rest ∧
      resumeAndReceive p.resumeChunkIndex rest w₂ = (.ok (), w₃) ∧
      finalise w₃ = (.ok true, w₄) ∧ renameTarget w₃ = some target ∧
      w₄.disk.nodes target = some (.file sampleFile) :=
  resume_reproduces sampleSender sampleSender [] [] 0 sampleFileMetadata sampleDir rootDisk 1 65537
    (by decide) (by rw [length_sampleFile]; decide) fresh_sampleSender fresh_sampleSender
    (buildMetadata_spec fresh_sampleSender [] [] 0).2.2 (by simp [Reliable, rootDisk]) (by decide +kernel)
    sampleFile_conflict (by decide) (by rw [length_sampleFile]; decide) length_sampleFile.le

end IncomingTransfer

end Ferry
