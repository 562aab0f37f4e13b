import Ferry.Android.ChunkCodec
import Ferry.Android.Client
import Ferry.Android.Integrity
import Ferry.Transfer.Receiving

/-!
# A stream of the client and its receivers

`streamChunksFromStream` over the reads of an input stream, which reuses one buffer and sends every read
as a chunk of its own.  A receiver on either side that has begun and gets all frames ends with the
content of the stream, however it was cut into reads.
-/

namespace Ferry

open Exec Text

/-! ## The stream -/

namespace Kotlin

/-- What `streamChunksFromStream` keeps from one round to the next: the buffer, the number of the next
chunk, what was fed to the digest, and the frames that `encryptAndWrite` got. -/
structure ChunkStream where
  buffer : Bytes
  seq : ℤ
  digest : Bytes
  frames : List Bytes

/-- `inputStream.read(buffer, 0, CHUNK_SIZE)`: the bytes stand at the start of the buffer, and what was
there before stays behind them. -/
def readInto (buffer data : Bytes) : Bytes := data ++ buffer.drop data.length

/-- One round of the loop, with the bytes that were read. -/
def streamRound (transferId : Text) (stream : ChunkStream) (data : Bytes) :
    Except EncodeError ChunkStream := do
  let buffer := readInto stream.buffer data
  let bytesRead := data.length
  let chunk := if bytesRead = chunkSizeDefault then buffer else buffer.take bytesRead
  let frame ← encodeChunkFrame transferId stream.seq chunk
  return {
    buffer
    seq := TransferMetadata.toInt32 (stream.seq + 1)
    digest := stream.digest ++ chunk.take bytesRead
    frames := stream.frames ++ [frame] }

/-- The loop, where the signal is asked before each read. -/
def streamLoop (transferId : Text) (cancelSignal : ℕ → Bool) (round : ℕ) :
    List Bytes → ChunkStream → Except EncodeError (Bool × ChunkStream)
  | [], stream => .ok (!cancelSignal round, stream)
  | data :: rest, stream =>
    if cancelSignal round then .ok (false, stream)
    else do
      let next ← streamRound transferId stream data
      streamLoop transferId cancelSignal (round + 1) rest next

/-- `streamChunksFromStream` over an input stream with the given reads: the two results and the frames. -/
def streamChunksFromStream (transferId : Text) (startSeq : ℤ) (cancelSignal : ℕ → Bool)
    (reads : List Bytes) : Except EncodeError (Bool × Text × List Bytes) := do
  let (success, stream) ← streamLoop transferId cancelSignal 0 reads
    ⟨List.replicate chunkSizeDefault 0, startSeq, [], []⟩
  return (success, if success then Sha256.hexdigest stream.digest else [], stream.frames)

end Kotlin

/-- The chunks of a stream, numbered from `seq` on. -/
def numberedChunks (transferId : Text) : ℕ → List Bytes → List ChunkFrame
  | _, [] => []
  | seq, data :: rest => ⟨transferId, seq, data⟩ :: numberedChunks transferId (seq + 1) rest

/-- The frames of these chunks. -/
def numberedFrames (uid : ℕ) : ℕ → List Bytes → List Bytes
  | _, [] => []
  | seq, data :: rest => layoutChunk uid seq data :: numberedFrames uid (seq + 1) rest

theorem map_seq_numberedChunks (transferId : Text) (seq : ℕ) (reads : List Bytes) :
    (numberedChunks transferId seq reads).map ChunkFrame.seq = List.range' seq reads.length := by
  induction reads generalizing seq with
  | nil => rfl
  | cons data rest ih =>
    rw [numberedChunks, List.map_cons, ih, List.length_cons, List.range'_succ]

theorem map_data_numberedChunks (transferId : Text) (seq : ℕ) (reads : List Bytes) :
    (numberedChunks transferId seq reads).map ChunkFrame.data = reads := by
  induction reads generalizing seq with
  | nil => rfl
  | cons data rest ih => rw [numberedChunks, List.map_cons, ih]

/-- The lengths that a read can have. -/
def IsRead (data : Bytes) : Prop := 0 < data.length ∧ data.length ≤ chunkSizeDefault

section Stream

variable {uid : ℕ} (huid : uid < 2 ^ 128)
include huid

/-- A round sends the bytes that were read, and nothing of what the buffer held before. -/
theorem streamRound_eq {stream : Kotlin.ChunkStream} {data : Bytes} {seq : ℕ} (hread : IsRead data)
    (hbuffer : stream.buffer.length = chunkSizeDefault) (hseq : stream.seq = seq)
    (hfits : seq + 1 < 2 ^ 31) :
    Kotlin.streamRound (uuidText uid) stream data = .ok {
      buffer := Kotlin.readInto stream.buffer data
      seq := (seq + 1 : ℕ)
      digest := stream.digest ++ data
      frames := stream.frames ++ [layoutChunk uid seq data] } := by
  have htake : (Kotlin.readInto stream.buffer data).take data.length = data := List.take_left' rfl
  have hlength : (Kotlin.readInto stream.buffer data).length = chunkSizeDefault := by
    rw [Kotlin.readInto, List.length_append, List.length_drop, hbuffer]
    have hle := hread.2
    omega
  have hchunk : (if data.length = chunkSizeDefault then Kotlin.readInto stream.buffer data
      else (Kotlin.readInto stream.buffer data).take data.length) = data := by
    split
    · next hfull =>
      rw [hfull, ← hlength, List.take_length] at htake
      exact htake
    · exact htake
  have hencode : Kotlin.encodeChunkFrame (uuidText uid) seq data = .ok (layoutChunk uid seq data) := by
    have hword := @encodeChunkFrame_uuidText uid seq data huid (by omega) hread.2 .android
    rw [Implementation.encodeChunkFrame, toOption_eq_some, Implementation.seqOfWord,
      toInt32_of_lt (by omega)] at hword
    exact hword
  have hnext : Kotlin.TransferMetadata.toInt32 ((seq : ℤ) + 1) = (seq + 1 : ℕ) :=
    toInt32_of_lt hfits
  unfold Kotlin.streamRound
  dsimp only
  rw [hchunk, hseq, hencode, hnext, List.take_length]
  rfl

/-- Without a cancel the loop sends one frame for each read, and feeds the digest with all of them. -/
theorem streamLoop_eq {reads : List Bytes} {stream : Kotlin.ChunkStream} {seq round : ℕ}
    (hreads : ∀ data ∈ reads, IsRead data) (hbuffer : stream.buffer.length = chunkSizeDefault)
    (hseq : stream.seq = seq) (hfits : seq + reads.length < 2 ^ 31) :
    ∃ buffer, Kotlin.streamLoop (uuidText uid) (fun _ ↦ false) round reads stream =
      .ok (true, ⟨buffer, (seq + reads.length : ℕ), stream.digest ++ reads.flatten,
        stream.frames ++ numberedFrames uid seq reads⟩) := by
  induction reads generalizing stream seq round with
  | nil =>
    refine ⟨stream.buffer, ?_⟩
    rw [Kotlin.streamLoop, List.flatten_nil, List.append_nil, numberedFrames, List.append_nil,
      List.length_nil, Nat.add_zero, ← hseq]
    rfl
  | cons data rest ih =>
    have hread := hreads data List.mem_cons_self
    rw [List.length_cons] at hfits
    have hround := streamRound_eq huid hread hbuffer hseq (by omega)
    have hnextBuffer : (Kotlin.readInto stream.buffer data).length = chunkSizeDefault := by
      rw [Kotlin.readInto, List.length_append, List.length_drop, hbuffer]
      have hle := hread.2
      omega
    obtain ⟨buffer, hrest⟩ := @ih
      ⟨Kotlin.readInto stream.buffer data, (seq + 1 : ℕ), stream.digest ++ data,
        stream.frames ++ [layoutChunk uid seq data]⟩ (seq + 1) (round + 1)
      (fun d hd ↦ hreads d (List.mem_cons_of_mem _ hd)) hnextBuffer rfl (by omega)
    refine ⟨buffer, ?_⟩
    rw [Kotlin.streamLoop, if_neg Bool.false_ne_true, hround]
    change Kotlin.streamLoop _ _ _ _ _ = _
    rw [hrest, numberedFrames, List.flatten_cons, List.length_cons, List.append_assoc, List.append_assoc,
      List.singleton_append, Nat.add_assoc, Nat.add_comm 1]

/-- The frames, the digest and the success of a stream that is not cancelled. -/
theorem streamChunksFromStream_eq {reads : List Bytes} (hreads : ∀ data ∈ reads, IsRead data)
    (hcount : reads.length < 2 ^ 31) :
    Kotlin.streamChunksFromStream (uuidText uid) 0 (fun _ ↦ false) reads =
      .ok (true, Sha256.hexdigest reads.flatten, numberedFrames uid 0 reads) := by
  obtain ⟨buffer, hloop⟩ := @streamLoop_eq uid huid reads
    ⟨List.replicate chunkSizeDefault 0, 0, [], []⟩ 0 0 hreads List.length_replicate rfl (by omega)
  unfold Kotlin.streamChunksFromStream
  rw [hloop]
  rfl

end Stream

/-! ## What the frames carry -/

section Decoding

variable {uid : ℕ} (huid : uid < 2 ^ 128)
include huid

/-- Linux decodes the frames to the numbered chunks. -/
theorem mapM_decodeChunkFrame {reads : List Bytes} {seq : ℕ} (hreads : ∀ data ∈ reads, IsRead data)
    (hfits : seq + reads.length < 2 ^ 31) :
    (numberedFrames uid seq reads).mapM decodeChunkFrame =
      .ok (numberedChunks (uuidText uid) seq reads) := by
  induction reads generalizing seq with
  | nil => rfl
  | cons data rest ih =>
    rw [List.length_cons] at hfits
    have hhead := decode_layoutChunk huid (show seq < 2 ^ 32 by omega)
      (hreads data List.mem_cons_self).2
    have htail := @ih (seq + 1) (fun d hd ↦ hreads d (List.mem_cons_of_mem _ hd)) (by omega)
    rw [numberedFrames, List.mapM_cons, hhead, htail]
    rfl

/-- Android decodes a frame to the same chunk. -/
theorem kotlin_decode_layoutChunk {seq : ℕ} {data : Bytes} (hread : IsRead data) (hfits : seq < 2 ^ 31) :
    Kotlin.decodeChunkFrame (layoutChunk uid seq data) = .ok (uuidText uid, (seq : ℤ), data) := by
  have hdecode := @decodeChunkFrame_layoutChunk uid seq data huid (by omega) hread.2 .android
  rwa [Implementation.decodeChunkFrame, toOption_eq_some, Implementation.seqOfWord,
    toInt32_of_lt hfits] at hdecode

end Decoding

/-! ## The Linux receiver -/

namespace IncomingTransfer

open Disk

variable {metadata : TransferMetadata} {dir : DownloadDir} {dest : Path}

/-- All frames of a stream are received. -/
theorem receiveAll_numbered {uid : ℕ} (huid : uid < 2 ^ 128) (hid : metadata.transferId = uuidText uid)
    (hchunk : metadata.chunkSize = chunkSizeDefault) {reads : List Bytes} {bytes : Bytes} {seq : ℕ}
    {w : World} (hreads : ∀ data ∈ reads, IsRead data) (hfits : seq + reads.length < 2 ^ 31)
    (h : Receiving metadata dir dest .transferring bytes seq w) :
    wp (receiveAll (numberedFrames uid seq reads)) (fun r w' ↦ r = .ok () ∧
      Receiving metadata dir dest .transferring (bytes ++ reads.flatten) (seq + reads.length) w') w := by
  induction reads generalizing bytes seq w with
  | nil => simpa [numberedFrames, receiveAll] using h
  | cons data rest ih =>
    rw [List.length_cons] at hfits
    have hread := hreads data List.mem_cons_self
    have hdecode := decode_layoutChunk huid (show seq < 2 ^ 32 by omega) hread.2
    rw [numberedFrames, receiveAll, hdecode, wp_ofResult_bind]
    refine ⟨by simp, fun frame hframe ↦ ?_⟩
    obtain rfl := Except.ok.inj hframe
    have hlength : (data.length : ℤ) ≤ metadata.chunkSize := by
      rw [hchunk]
      exact_mod_cast hread.2
    refine wp_bind_of (receiveChunk_receiving h (.inl rfl) hid.symm rfl hlength)
      (fun _ _ ht ↦ by simp at ht) fun _ w' hw' ↦ ?_
    apply wp_mono (ih (fun d hd ↦ hreads d (List.mem_cons_of_mem _ hd)) (by omega) hw'.2)
    intro r w'' hw''
    rw [List.flatten_cons, List.length_cons, ← List.append_assoc, Nat.add_comm rest.length,
      ← Nat.add_assoc]
    exact hw''

/-- `begin` makes no node outside of the directories that it needs and its `.part` file. -/
theorem openStaging_keeps {w : World} {q : Path} (hmetadata : w.self.metadata = metadata)
    (hdir : w.self.downloadDir = dir) (hfh : w.self.tempFh = none) (hstaging : q ∉ dir.staging.inits)
    (hpath : q ∉ dir.path.inits) (hpart : q ≠ metadata.partPath dir)
    (hdest : ∀ dest, resolveSafeDestination dir.path metadata.fileName metadata.relativePath = .ok dest →
      q ∉ dest.parent.inits) :
    wp openStaging (fun _ w' ↦ w'.disk.nodes q = w.disk.nodes q) w := by
  have hmkdir {p : Path} (hp : q ∉ p.inits) (d : Disk) :
      wp (mkdir p) (fun _ d' ↦ d'.nodes q = d.nodes q) d :=
    wp_mono (JavaFile.keeps_mkdir hp d) fun _ _ hkeeps ↦ hkeeps.nodes
  unfold openStaging
  rw [wp_get_bind, hmetadata, hdir]
  refine wp_onDisk_bind (hmkdir hstaging _) (fun _ _ hd ↦ hd) fun _ d₁ hd₁ ↦ ?_
  refine wp_onDisk_bind (hmkdir hpath _) (fun _ _ hd ↦ hd.trans hd₁) fun _ d₂ hd₂ ↦ ?_
  rw [wp_update_bind, wp_ofResult_bind]
  refine ⟨fun _ _ ↦ hd₂.trans hd₁, fun dest hresolved ↦ ?_⟩
  rw [wp_update_bind]
  refine wp_onDisk_bind (hmkdir (hdest dest hresolved) _) (fun _ _ hd ↦ hd.trans (hd₂.trans hd₁))
    fun _ d₃ hd₃ ↦ ?_
  have hopen : Stays (OnlyFile (metadata.partPath dir)) (Handle.openTruncate (metadata.partPath dir)) :=
    Handle.stays_openTruncate _
  have hbefore : d₃.nodes q = w.disk.nodes q := hd₃.trans (hd₂.trans hd₁)
  refine wp_onDisk_bind (hopen _) (fun _ _ hd ↦ (hd.nodes q hpart).trans hbefore) fun fh d₄ hd₄ ↦ ?_
  unfold assignTempFh
  rw [wp_get_bind, wp_update_bind]
  dsimp only
  rw [hfh]
  exact (hd₄.nodes q hpart).trans hbefore

theorem begin_keeps {disk : Disk} {q : Path} (hstaging : q ∉ dir.staging.inits) (hpath : q ∉ dir.path.inits)
    (hpart : q ≠ metadata.partPath dir)
    (hdest : ∀ dest, resolveSafeDestination dir.path metadata.fileName metadata.relativePath = .ok dest →
      q ∉ dest.parent.inits) :
    wp begin (fun _ w' ↦ w'.disk.nodes q = disk.nodes q) ⟨disk, new metadata dir⟩ := by
  unfold begin
  rw [wp_bind, wp_transition]
  refine ⟨fun _ ↦ ?_, fun _ ↦ rfl⟩
  have hopened := openStaging_keeps (w := ⟨disk, { new metadata dir with state := .accepted }⟩) rfl rfl rfl
    hstaging hpath hpart hdest
  dsimp only
  rw [wp_bind]
  refine wp_tryCatch_of hopened (fun e w' hw' ↦ ?_) fun _ w' hw' ↦ ?_
  · rw [wp_ite, wp_transition_bind, wp_throw, wp_throw]
    exact ⟨fun _ ↦ ⟨fun _ ↦ hw', fun _ ↦ hw'⟩, fun _ ↦ hw'⟩
  · dsimp only
    rw [wp_transition]
    exact ⟨fun _ ↦ hw', fun _ ↦ hw'⟩

/-- Nothing is in the download directory. -/
def EmptyDownloads (dir : DownloadDir) (disk : Disk) : Prop :=
  ∀ p, Path.IsProperAncestor dir.path p → disk.nodes p = none

/-- In an empty download directory the name beside the destination of a file without a relative path is
free, also after `begin`. -/
theorem conflict_free {uid : ℕ} (huuid : uuidInt metadata.transferId = .ok uid)
    (hrelative : metadata.relativePath = []) {disk : Disk} (hempty : EmptyDownloads dir disk)
    (hdest : resolveSafeDestination dir.path metadata.fileName metadata.relativePath = .ok dest) :
    (begin ⟨disk, new metadata dir⟩).2.disk.nodes ((new metadata dir).conflictPath dest) ≠
      some .directory := by
  have hbelow : ∀ dest, resolveSafeDestination dir.path metadata.fileName metadata.relativePath = .ok dest →
      ∃ name, dest = dir.path ++ [name] := by
    intro dest h
    rcases resolveSafeDestination_cases h with ⟨hne, -⟩ | ⟨-, name, hne, hname, hresolved⟩
    · exact absurd hrelative hne
    · have hisName := isName_of_sanitiseFilename hname hne
      refine ⟨name, hresolved.trans ?_⟩
      rw [Path.join_name hisName, Path.resolve_append_names (by simpa using hisName),
        Path.resolve_names dir.isName]
  obtain ⟨name, rfl⟩ := hbelow dest hdest
  set beside := metadata.transferId.take 8 ++ lit "_" ++ (Path.name (dir.path ++ [name])) with hbeside
  have hself : uuidInt (new metadata dir).metadata.transferId = .ok uid := huuid
  have hconflict : (new metadata dir).conflictPath (dir.path ++ [name]) = dir.path ++ [beside] := by
    have heq := conflictPath_eq hself (isName_of_mem_destination hdest)
    rw [Path.parent, List.dropLast_concat] at heq
    exact heq
  have hisStaging : Path.IsName (lit "staging") := by
    constructor <;> decide
  have hstaging : dir.staging = dir.path ++ [lit "staging"] := Path.join_name hisStaging
  have hunderscore : underscore ∈ beside :=
    List.mem_append_left _ (List.mem_append_right _ (by decide))
  have hne : beside ≠ lit "staging" := by
    intro heq
    rw [heq] at hunderscore
    exact absurd hunderscore (by decide)
  have hdir : dir.path ++ [beside] ∉ dir.path.inits := by
    rw [List.mem_inits]
    intro hmem
    have hle := hmem.length_le
    rw [List.length_append, List.length_singleton] at hle
    omega
  have hkept := @begin_keeps metadata dir disk (dir.path ++ [beside]) (by
      rw [List.mem_inits, hstaging]
      intro hmem
      have heq := hmem.eq_of_length (by simp)
      exact hne (List.cons.inj (List.append_cancel_left heq)).1) hdir (by
      rw [partPath_eq huuid]
      intro heq
      have hlength := congrArg List.length heq
      simp at hlength) (by
      intro dest h
      obtain ⟨other, rfl⟩ := hbelow dest h
      rw [Path.parent, List.dropLast_concat]
      exact hdir)
  have hnone : disk.nodes (dir.path ++ [beside]) = none :=
    hempty _ ⟨List.prefix_append _ _, by simp⟩
  rw [hconflict, show (begin ⟨disk, new metadata dir⟩).2.disk.nodes (dir.path ++ [beside]) = _ from hkept,
    hnone]
  simp

/-- A receiver that has begun in an empty download directory gets all frames of a stream, and delivers the
content. -/
theorem receives_stream {uid : ℕ} (huid : uid < 2 ^ 128) (hid : metadata.transferId = uuidText uid)
    (hchunk : metadata.chunkSize = chunkSizeDefault) (hrelative : metadata.relativePath = [])
    {reads : List Bytes} (hsha256 : metadata.sha256 = Sha256.hexdigest reads.flatten)
    (hreads : ∀ data ∈ reads, IsRead data) (hcount : reads.length < 2 ^ 31) {disk : Disk}
    (hreliable : ∀ call, disk.Reliable call) (hempty : EmptyDownloads dir disk)
    (hbegin : (begin ⟨disk, new metadata dir⟩).1 = .ok ()) :
    ∃ w₁ w₂ target,
      receiveAll (numberedFrames uid 0 reads) (begin ⟨disk, new metadata dir⟩).2 = (.ok (), w₁) ∧
      finalise w₁ = (.ok true, w₂) ∧ renameTarget w₁ = some target ∧
      w₂.disk.nodes target = some (.file reads.flatten) := by
  have huuid : uuidInt metadata.transferId = .ok uid := by
    rw [hid]
    exact uuidInt_uuidText huid
  have hdigest : Sha256.hexdigest reads.flatten = Text.asciiLower metadata.sha256 := by
    rw [hsha256, Sha256.asciiLower_hexdigest]
  obtain ⟨dest, hdest, hreceiving⟩ := begin_receiving hreliable hbegin
    fun dest hdest ↦ conflict_free huuid hrelative hempty hdest
  obtain ⟨w₁, hw₁, hcomplete⟩ := exists_run_of_wp
    (receiveAll_numbered huid hid hchunk hreads (by omega) hreceiving)
  rw [List.nil_append] at hcomplete
  obtain ⟨w₂, hw₂, -, target, -, htarget, hfile⟩ :=
    exists_run_of_wp (finalise_receiving huuid hdest hcomplete (.inl rfl) hdigest)
  exact ⟨w₁, w₂, target, hw₁, hw₂, htarget, hfile⟩

end IncomingTransfer

/-! ## The Android receiver -/

namespace JavaFile

open Disk

/-- A file that `createNewFile` made is empty, in a directory. -/
theorem createNewFile_made (p : Path) (d : Disk) (hfree : d.nodes p = none) :
    wp (createNewFile p) (fun r d' ↦ OnlyFile p d d' ∧
      (r = .ok () → d.nodes p.parent = some .directory ∧ d'.nodes p = some (.file []))) d := by
  have hadvance := onlyFile_advance p d .openFile
  unfold createNewFile
  rw [wp_perform_bind, wp_get_bind, wp_raiseIf_bind, nodes_advance]
  refine ⟨fun _ ↦ ⟨hadvance, by simp⟩, fun _ ↦ ?_⟩
  rw [if_neg (not_not.mpr hfree), wp_raiseIf_bind]
  refine ⟨fun _ ↦ ⟨hadvance, by simp⟩, fun hparent ↦ ?_⟩
  rw [wp_modify]
  exact ⟨⟨fun q hq ↦ if_neg hq, hadvance.faults⟩, fun _ ↦ ⟨not_not.mp hparent, if_pos rfl⟩⟩

/-- `appendBytes` on a disk whose calls succeed. -/
theorem appendBytes_reliable {p : Path} {d : Disk} {old : Bytes} (data : Bytes)
    (hreliable : ∀ call, d.Reliable call) (hparent : d.nodes p.parent = some .directory)
    (hfile : d.nodes p = some (.file old)) :
    wp (appendBytes p data) (fun r d' ↦ r = .ok () ∧ OnlyFile p d d' ∧
      d'.nodes p = some (.file (old ++ data))) d := by
  have hopened := onlyFile_advance p d .openFile
  have hwritten := onlyFile_advance p (d.advance .openFile) .write
  have hclosed := onlyFile_advance p ((d.advance .openFile).advance .write) .close
  have hadvance := (hopened.trans hwritten).trans hclosed
  have hwrite := ((hreliable .write).later (hopened.faults .write)).outcome
  have hclose := ((hreliable .close).later ((hopened.trans hwritten).faults .close)).outcome
  have hcontent : (((d.advance .openFile).advance .write).advance .close).content p = old :=
    content_of_nodes hfile
  unfold appendBytes
  rw [wp_perform_bind, wp_get_bind, wp_raiseIf_bind, nodes_advance, (hreliable .openFile).outcome]
  refine ⟨fun hfails ↦ absurd hfails Bool.false_ne_true, fun _ ↦ ?_⟩
  rw [wp_raiseIf_bind]
  refine ⟨fun hno ↦ absurd hparent hno, fun _ ↦ ?_⟩
  rw [wp_raiseIf_bind]
  refine ⟨fun hdir ↦ ?_, fun _ ↦ ?_⟩
  · rw [hfile] at hdir
    exact nomatch hdir
  rw [wp_perform_bind, wp_perform_bind, wp_modify_bind, hwrite, hclose, wp_raiseIf]
  refine ⟨fun hfails ↦ absurd hfails (by simp), fun _ ↦ ⟨rfl, ⟨fun q hq ↦ ?_, fun call ↦ ?_⟩, ?_⟩⟩
  · simp [append, hq]
  · rw [faults_append]
    exact hadvance.faults call
  · simp [append, hcontent]

/-- `renameTo` of a file to a place that is free. -/
theorem renameTo_free {src dst : Path} {d : Disk} (hreliable : d.Reliable .rename) (hsrc : d.IsFile src)
    (hfree : d.nodes dst = none) (hparent : d.nodes dst.parent = some .directory)
    (happart : ¬Path.IsProperAncestor src dst) :
    wp (renameTo src dst) (fun r d' ↦ r = .ok true ∧ d'.nodes = (d.move src dst).nodes) d := by
  have hrename := rename_spec src dst d
  have hok := hrename.2.2.2 hreliable hsrc (by simp [hfree]) hparent happart
  unfold renameTo
  rw [wp_get_bind, if_neg (by simp [hfree]), wp_tryCatch, wp_bind]
  apply wp_mono (wp_and (show wp (rename src dst) (fun r _ ↦ r = .ok ()) d from hok) hrename)
  rintro r d' ⟨rfl, -, hmoved, -⟩
  exact ⟨rfl, (hmoved rfl).1⟩

end JavaFile

namespace FerryTransferReceiver

open Disk JavaFile

/-- Decode and receive frames one after the other. -/
def receiveAll : List Bytes → Method Unit
  | [] => pure ()
  | plaintext :: rest => do
    let (transferId, seq, data) ← ofResult (Kotlin.decodeChunkFrame plaintext)
    receiveChunk transferId seq data
    receiveAll rest

/-- Nothing is in the staging directory. -/
def EmptyStaging (stagingDir : Path) (disk : Disk) : Prop :=
  ∀ name, disk.nodes (child stagingDir name) = none

/-- Chunks flow: `bytes` were written so far, chunk `seq` is next, and nothing else is in the staging
directory. -/
structure Feeding (metadata : Kotlin.TransferMetadata) (stagingDir : Path) (bytes : Bytes) (seq : ℕ)
    (w : ReceiverWorld) : Prop where
  metadata_eq : w.self.metadata = metadata
  stagingDir_eq : w.self.stagingDir = stagingDir
  state : w.self.state = .transferring
  digest : w.self.digest = bytes
  nextSeq : w.self.nextSeq = seq
  reliable : ∀ call, w.disk.Reliable call
  directory : w.disk.nodes stagingDir = some .directory
  file : w.disk.nodes (stagingFile metadata stagingDir) = some (.file bytes)
  free : ∀ name, child stagingDir name ≠ stagingFile metadata stagingDir →
    w.disk.nodes (child stagingDir name) = none

variable {metadata : Kotlin.TransferMetadata} {stagingDir : Path}

theorem parent_child (name : Text) : (child stagingDir name).parent = stagingDir :=
  List.dropLast_concat

theorem child_notMem_inits (name : Text) : child stagingDir name ∉ stagingDir.inits := by
  rw [List.mem_inits]
  intro hmem
  have hle := hmem.length_le
  simp [child] at hle

theorem stagingDir_ne_stagingFile : stagingDir ≠ stagingFile metadata stagingDir := by
  intro heq
  have hlength := congrArg List.length heq
  simp [stagingFile, child] at hlength

/-- A `begin` that returns leaves an empty file in an otherwise empty directory. -/
theorem begin_feeding {disk : Disk} (hreliable : ∀ call, disk.Reliable call)
    (hempty : EmptyStaging stagingDir disk) :
    wp begin (fun r w' ↦ r = .ok () → Feeding metadata stagingDir [] 0 w')
      ⟨disk, new metadata stagingDir⟩ := by
  unfold begin
  rw [wp_get_bind, wp_raiseIf_bind]
  refine ⟨fun _ ↦ by simp, fun _ ↦ ?_⟩
  rw [wp_bind, wp_onDisk]
  have hmkdirs : Succeeds (mkdirs stagingDir) := succeeds_tryCatch _ fun _ ↦ succeeds_pure ()
  have hkept : wp (mkdirs stagingDir) (fun _ d ↦ ∀ name, Keeps (child stagingDir name) disk d) disk :=
    fun name ↦ keeps_mkdirs (child_notMem_inits name) disk
  apply wp_mono (wp_and hkept (hmkdirs disk))
  rintro r d ⟨hkeeps, u, rfl⟩
  have hfree : d.nodes (stagingFile metadata stagingDir) = none := (hkeeps _).nodes.trans (hempty _)
  dsimp only [Except.mapError]
  rw [wp_bind, wp_tryCatch, wp_onDisk]
  apply wp_mono (createNewFile_made (stagingFile metadata stagingDir) d hfree)
  rintro r d' ⟨honly, hmade⟩
  cases r with
  | error e => exact nofun
  | ok u =>
    obtain ⟨hparent, hfile⟩ := hmade rfl
    refine fun _ ↦ ⟨rfl, rfl, rfl, rfl, rfl, fun call ↦ ?_, ?_, hfile, fun name hne ↦ ?_⟩
    · exact (hreliable call).later (((honly.faults call)).trans ((hkeeps []).faults call))
    · rw [stagingFile, parent_child] at hparent
      exact (honly.nodes _ stagingDir_ne_stagingFile).trans hparent
    · exact (honly.nodes _ hne).trans ((hkeeps name).nodes.trans (hempty name))

/-- The next chunk goes to the file and to the digest. -/
theorem receiveChunk_feeding {bytes data : Bytes} {seq : ℕ} {w : ReceiverWorld}
    (h : Feeding metadata stagingDir bytes seq w) (hlength : (data.length : ℤ) ≤ metadata.chunkSize)
    (hfits : seq + 1 < 2 ^ 31) :
    wp (receiveChunk metadata.transferId seq data) (fun r w' ↦ r = .ok () ∧
      Feeding metadata stagingDir (bytes ++ data) (seq + 1) w') w := by
  have htemp : w.self.tempFile = stagingFile metadata stagingDir := by
    rw [tempFile, h.metadata_eq, h.stagingDir_eq]
  unfold receiveChunk
  rw [wp_get_bind, wp_raiseIf_bind, h.metadata_eq, h.state, h.nextSeq]
  refine ⟨fun hbad ↦ absurd rfl hbad.1, fun _ ↦ ?_⟩
  rw [wp_raiseIf_bind]
  refine ⟨fun hbad ↦ absurd rfl hbad, fun _ ↦ ?_⟩
  rw [wp_raiseIf_bind]
  refine ⟨fun hbad ↦ absurd rfl hbad, fun _ ↦ ?_⟩
  rw [wp_raiseIf_bind]
  refine ⟨fun hbad ↦ absurd hlength (not_le.mpr hbad), fun _ ↦ ?_⟩
  rw [wp_bind, wp_tryCatch, wp_onDisk, htemp]
  apply wp_mono (appendBytes_reliable data h.reliable (by
    rw [stagingFile, parent_child]
    exact h.directory) h.file)
  rintro r d ⟨rfl, honly, hfile⟩
  refine ⟨rfl, h.metadata_eq, h.stagingDir_eq, h.state, ?_, ?_, fun call ↦ ?_, ?_, hfile, fun name hne ↦ ?_⟩
  · exact congrArg (· ++ data) h.digest
  · change Kotlin.TransferMetadata.toInt32 (w.self.nextSeq + 1) = _
    rw [h.nextSeq]
    exact toInt32_of_lt hfits
  · exact (h.reliable call).later (honly.faults call)
  · exact (honly.nodes _ stagingDir_ne_stagingFile).trans h.directory
  · exact (honly.nodes _ hne).trans (h.free name hne)

/-- All frames of a stream are received. -/
theorem receiveAll_numbered {uid : ℕ} (huid : uid < 2 ^ 128) (hid : metadata.transferId = uuidText uid)
    (hchunk : metadata.chunkSize = chunkSizeDefault) {reads : List Bytes} {bytes : Bytes} {seq : ℕ}
    {w : ReceiverWorld} (hreads : ∀ data ∈ reads, IsRead data) (hfits : seq + reads.length < 2 ^ 31)
    (h : Feeding metadata stagingDir bytes seq w) :
    wp (receiveAll (numberedFrames uid seq reads)) (fun r w' ↦ r = .ok () ∧
      Feeding metadata stagingDir (bytes ++ reads.flatten) (seq + reads.length) w') w := by
  induction reads generalizing bytes seq w with
  | nil => simpa [numberedFrames, receiveAll] using h
  | cons data rest ih =>
    rw [List.length_cons] at hfits
    have hread := hreads data List.mem_cons_self
    have hdecode := kotlin_decode_layoutChunk huid hread (show seq < 2 ^ 31 by omega)
    rw [numberedFrames, receiveAll, hdecode, wp_ofResult_bind]
    refine ⟨by simp, fun frame hframe ↦ ?_⟩
    obtain rfl := Except.ok.inj hframe
    have hlength : (data.length : ℤ) ≤ metadata.chunkSize := by
      rw [hchunk]
      exact_mod_cast hread.2
    dsimp only
    rw [← hid]
    refine wp_bind_of (receiveChunk_feeding h hlength (by omega)) (fun _ _ ht ↦ by simp at ht)
      fun _ w' hw' ↦ ?_
    apply wp_mono (ih (fun d hd ↦ hreads d (List.mem_cons_of_mem _ hd)) (by omega) hw'.2)
    intro r w'' hw''
    rw [List.flatten_cons, List.length_cons, ← List.append_assoc, Nat.add_comm rest.length,
      ← Nat.add_assoc]
    exact hw''

/-- With the right digest, `finalise` returns `true` and the file has the bytes. -/
theorem finalise_feeding {bytes : Bytes} {seq : ℕ} {w : ReceiverWorld}
    (h : Feeding metadata stagingDir bytes seq w) (hid : underscore ∉ metadata.transferId)
    (hdigest : Sha256.hexdigest bytes = Text.asciiLower metadata.sha256) :
    wp finalise (fun r w' ↦ r = .ok true ∧
      w'.disk.nodes (w.self.finalFile w.disk) = some (.file bytes)) w := by
  have htemp : w.self.tempFile = stagingFile metadata stagingDir := by
    rw [tempFile, h.metadata_eq, h.stagingDir_eq]
  have hfile : w.disk.nodes w.self.tempFile = some (.file bytes) := by rw [htemp]; exact h.file
  have happart : w.self.finalFile w.disk ≠ w.self.tempFile :=
    finalFile_ne_tempFile (by rwa [h.metadata_eq]) (h.reliable .stat) (by simp [hfile])
  obtain ⟨name, hname⟩ : ∃ name, w.self.finalFile w.disk = child stagingDir name := by
    rw [← h.stagingDir_eq]
    unfold finalFile
    dsimp only
    split
    · exact ⟨_, rfl⟩
    · exact ⟨_, rfl⟩
  have hfree : w.disk.nodes (w.self.finalFile w.disk) = none := by
    rw [hname]
    exact h.free name (by rwa [← hname, ← htemp])
  have hparent : w.disk.nodes (w.self.finalFile w.disk).parent = some .directory := by
    rw [hname, parent_child]
    exact h.directory
  have hbeside : ¬Path.IsProperAncestor w.self.tempFile (w.self.finalFile w.disk) := by
    rintro ⟨hbelow, hne⟩
    refine hne (hbelow.eq_of_length ?_)
    rw [hname, htemp]
    simp [stagingFile, child]
  unfold finalise
  rw [wp_get_bind, wp_update_bind, if_neg]
  · unfold place
    rw [wp_bind, wp_get_bind, wp_bind, wp_onDisk]
    have hadvance := onlyFile_advance [] w.disk .stat
    apply wp_mono (fileExists_spec _ w.disk)
    rintro r d ⟨rfl, rfl⟩
    dsimp only [Except.mapError]
    rw [wp_onDisk]
    apply wp_mono (@renameTo_free w.self.tempFile (w.self.finalFile w.disk) (w.disk.advance .stat)
      ((h.reliable .rename).later (hadvance.faults .rename)) ⟨bytes, hfile⟩ hfree hparent hbeside)
    rintro r d ⟨rfl, hmoved⟩
    refine ⟨rfl, ?_⟩
    change d.nodes (w.self.finalFile w.disk) = _
    rw [hmoved, nodes_move_dst]
    exact hfile
  · rw [h.digest, h.metadata_eq]
    exact not_not.mpr hdigest

/-- A receiver that has begun in an empty staging directory gets all frames of a stream, and delivers the
content. -/
theorem receives_stream {uid : ℕ} (huid : uid < 2 ^ 128) (hid : metadata.transferId = uuidText uid)
    (hchunk : metadata.chunkSize = chunkSizeDefault) {reads : List Bytes}
    (hsha256 : metadata.sha256 = Sha256.hexdigest reads.flatten) (hreads : ∀ data ∈ reads, IsRead data)
    (hcount : reads.length < 2 ^ 31) {disk : Disk} (hreliable : ∀ call, disk.Reliable call)
    (hempty : EmptyStaging stagingDir disk) (hbegin : (begin ⟨disk, new metadata stagingDir⟩).1 = .ok ()) :
    ∃ w₁ w₂,
      receiveAll (numberedFrames uid 0 reads) (begin ⟨disk, new metadata stagingDir⟩).2 = (.ok (), w₁) ∧
      finalise w₁ = (.ok true, w₂) ∧
      w₂.disk.nodes (w₁.self.finalFile w₁.disk) = some (.file reads.flatten) := by
  have hdigest : Sha256.hexdigest reads.flatten = Text.asciiLower metadata.sha256 := by
    rw [hsha256, Sha256.asciiLower_hexdigest]
  have hunderscore : underscore ∉ metadata.transferId := by
    rw [hid]
    exact Kotlin.underscore_notMem_of_uuid (by rw [uuidFromString_uuidText]; rfl)
  obtain ⟨w₁, hw₁, hcomplete⟩ := exists_run_of_wp (receiveAll_numbered huid hid hchunk hreads
    (by omega) (begin_feeding hreliable hempty hbegin))
  rw [List.nil_append] at hcomplete
  obtain ⟨w₂, hw₂, hfile⟩ := exists_run_of_wp (finalise_feeding hcomplete hunderscore hdigest)
  exact ⟨w₁, w₂, hw₁, hw₂, hfile⟩

end FerryTransferReceiver

/-! ## Both receivers -/

/-- The payload that `sendFile` puts into TRANSFER_REQUEST. -/
def FerryControlClient.requestJson (payload : Kotlin.TransferMetadata) : Payload :=
  [(lit "transfer_id", .str payload.transferId), (lit "file_name", .str payload.fileName),
   (lit "file_size", .int payload.fileSize), (lit "mime_type", .str payload.mimeType),
   (lit "sha256", .str payload.sha256), (lit "chunk_size", .int payload.chunkSize),
   (lit "chunk_count", .int payload.chunkCount), (lit "sender_identity", .str payload.senderIdentity),
   (lit "created_at", .int payload.createdAt), (lit "batch_id", .str payload.batchId),
   (lit "relative_path", .str payload.relativePath)]

/-- What Linux keeps of the request of `sendFile`. -/
theorem fromDict_requestJson {now : ℤ} {payload : Kotlin.TransferMetadata} {metadata : TransferMetadata}
    (h : TransferMetadata.fromDict now (FerryControlClient.requestJson payload) = .ok metadata)
    (hrelative : payload.relativePath = []) :
    metadata.transferId = payload.transferId ∧ metadata.chunkSize = payload.chunkSize ∧
      metadata.sha256 = asciiLower payload.sha256 ∧ metadata.relativePath = [] := by
  simp only [TransferMetadata.fromDict, bind_eq_ok, rejectIf_eq_ok, require_eq_ok] at h
  obtain ⟨tid, hid, _, -, name, -, -, -, rel, hrel, _, -, size, -, -, -, -, -, chunk, hchunk, -, -, count,
    -, -, -, -, -, _, -, _, -, hresult⟩ := h
  have hrel' : TransferMetadata.checkRelativePath payload.relativePath = .ok rel := hrel
  rw [hrelative] at hrel'
  rw [← Except.ok.inj hresult]
  exact ⟨(Option.some.inj hid).symm, (Except.ok.inj hchunk).symm, rfl, (Except.ok.inj hrel').symm⟩

/-- What Android keeps of it. -/
theorem fromJson_requestJson {now : ℤ} {payload metadata : Kotlin.TransferMetadata}
    (h : Kotlin.TransferMetadata.fromJson now (FerryControlClient.requestJson payload) = .ok metadata) :
    metadata.transferId = payload.transferId ∧
      metadata.chunkSize = (Kotlin.TransferMetadata.integerValue payload.chunkSize).intOr chunkSizeDefault ∧
      metadata.sha256 = asciiLower payload.sha256 := by
  simp only [Kotlin.TransferMetadata.fromJson, Kotlin.TransferMetadata.fromMap, bind_eq_ok,
    rejectIf_eq_ok] at h
  obtain ⟨-, -, -, -, -, -, -, -, -, -, -, -, -, -, -, -, hresult⟩ := h
  rw [← Except.ok.inj hresult]
  exact ⟨rfl, rfl, rfl⟩

/-- A client that has done nothing, and a file of three bytes that it reads in two pieces. -/
def streamClient : FerryControlClient := .new (.new [] IncomingTransfer.rootDisk false []) [] ∅

def streamSource : FerryControlClient.SourceFile where
  fileName := lit "f.txt"
  fileSize := 3
  mimeType := lit "application/octet-stream"
  opens := true
  content := some [1, 2, 3]

def streamId : ℕ := 0x0123456789ab4def8123456789abcdef

end Ferry
