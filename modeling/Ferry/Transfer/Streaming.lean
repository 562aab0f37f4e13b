import Ferry.Base.Chunks
import Ferry.Transfer.Outgoing

/-!
# The frames of an unchanged file

A generator over a file that nobody changes, with reads that succeed and no cancel, yields the chunks
of the file from its start index on, numbered and encoded for the transfer.
-/

namespace Ferry

namespace OutgoingTransfer

open Exec Disk Chunks

/-! ## Rules for the methods -/

theorem wp_transition (new : TransferState) (Q : Except PyError Unit → Sender → Prop) (w : Sender) :
    wp (transition new) Q w ↔
      (new ∈ w.self.state.validTransitions →
        Q (.ok ()) { w with self := { w.self with state := new } }) ∧
      (new ∉ w.self.state.validTransitions →
        Q (.error (.runtime (.invalidTransition w.self.state new))) w) := by
  unfold transition
  rw [wp_get_bind, wp_bind, wp_ofResult]
  by_cases h : new ∈ w.self.state.validTransitions
  · simp [transferTransition, h, setState, update]
  · simp [transferTransition, h]

/-- A call on the disk that returns is not affected by the handler around it. -/
theorem wp_failOnOsError_of {α : Type} {m : Exec IoError Disk α} {message : TransferMessage}
    {P : Except IoError α → Disk → Prop} {Q : Except PyError α → Sender → Prop} {w : Sender}
    (hm : wp m P w.disk) (herror : ∀ e d, ¬P (.error e) d)
    (hok : ∀ a d, P (.ok a) d → Q (.ok a) { w with disk := d }) :
    wp (failOnOsError (onDisk m) message) Q w := by
  have hdisk : wp (onDisk m) (fun r w' ↦ ∃ a d, r = .ok a ∧ P (.ok a) d ∧ w' = { w with disk := d }) w := by
    unfold onDisk
    rw [wp_zoom, wp_mapError]
    apply wp_mono hm
    intro r d hd
    cases r with
    | error e => exact absurd hd (herror e d)
    | ok a => exact ⟨a, d, rfl, hd, rfl⟩
  unfold failOnOsError
  refine wp_tryCatch_of hdisk (fun e t ht ↦ ?_) fun a t ht ↦ ?_
  · obtain ⟨a, d, ha, -⟩ := ht
    exact absurd ha (by simp)
  · obtain ⟨a', d, ha, hd, rfl⟩ := ht
    rw [Except.ok.inj ha]
    exact hok a' d hd

/-! ## One turn of the loop -/

section Constant

variable {n : ℕ} {f : Bytes}

/-- The chunk frames of a file: at most `limit` of them, from number `i` on. -/
def chunkFrames (n : ℕ) (f : Bytes) (i limit : ℕ) : List ChunkFrame :=
  (segment chunkSizeDefault f i limit).map fun chunk ↦ ⟨uuidText n, chunk.1, chunk.2⟩

/-- A generator that was started over the file `f` and is neither cancelled nor interfered with. -/
structure Running (n : ℕ) (f : Bytes) (w : Sender) : Prop where
  source : w.disk.nodes w.self.sourcePath = some (.file f)
  read : w.disk.Reliable .read
  transferId : w.self.transferId = uuidText n
  state : w.self.state = .transferring
  cancelled : w.self.cancelled = false

/-- The position of a generator is at the chunk that it yields next, or past the end. -/
def Aligned (f : Bytes) (stream : ChunkStream) : Prop :=
  f.drop stream.position = f.drop (stream.seq * chunkSizeDefault)

theorem Aligned.next {stream : ChunkStream} (h : Aligned f stream) :
    Aligned f ⟨stream.seq + 1, stream.position + (chunkAt chunkSizeDefault f stream.seq).length⟩ := by
  unfold Aligned
  rw [← List.drop_drop, h, List.drop_drop]
  by_cases hlast : f.length ≤ stream.seq * chunkSizeDefault + chunkSizeDefault
  · have hlength : (chunkAt chunkSizeDefault f stream.seq).length =
        f.length - stream.seq * chunkSizeDefault := by
      rw [chunkAt, List.length_take, List.length_drop]
      omega
    rw [hlength, List.drop_of_length_le (by omega), List.drop_of_length_le]
    rw [Nat.succ_mul]
    exact hlast
  · have hlength : (chunkAt chunkSizeDefault f stream.seq).length = chunkSizeDefault := by
      rw [chunkAt, List.length_take, List.length_drop]
      omega
    rw [hlength, Nat.succ_mul]

theorem chunkSizeDefault_pos : 0 < chunkSizeDefault := by decide

/-- Frame numbers of a file of at most 10 GiB fit their word. -/
theorem seq_lt {i : ℕ} (hsize : (f.length : ℤ) ≤ maxFileSize) (h : i * chunkSizeDefault < f.length) :
    i < 2 ^ 32 := by
  have hbytes : f.length ≤ 10 * 1024 ^ 3 := by
    unfold maxFileSize at hsize
    exact_mod_cast hsize
  unfold chunkSizeDefault at h
  omega

/-- One turn of the loop yields the next chunk, encoded, and ends the generator after the last one. -/
theorem advance_spec {w : Sender} {stream : ChunkStream} (hn : n < 2 ^ 128)
    (hsize : (f.length : ℤ) ≤ maxFileSize) (h : Running n f w) (haligned : Aligned f stream) :
    wp (advance stream) (fun r w' ↦
      (total chunkSizeDefault f ≤ stream.seq → r = .ok none ∧ w'.self.state = .completed) ∧
      (stream.seq < total chunkSizeDefault f → ∃ frame,
        decodeChunkFrame frame = .ok ⟨uuidText n, stream.seq, chunkAt chunkSizeDefault f stream.seq⟩ ∧
        r = .ok (some (frame,
          ⟨stream.seq + 1, stream.position + (chunkAt chunkSizeDefault f stream.seq).length⟩)) ∧
        Running n f w')) w := by
  unfold advance
  rw [wp_get_bind, wp_ite]
  refine ⟨fun hcancelled ↦ absurd hcancelled (by simp [h.cancelled]), fun _ ↦ ?_⟩
  rw [wp_bind]
  refine wp_failOnOsError_of (P := fun r d ↦ SameNodes w.disk d ∧
    r = .ok (chunkAt chunkSizeDefault f stream.seq)) ?_ (fun e d hd ↦ by simp at hd) fun chunk d hd ↦ ?_
  · apply wp_mono (readAt_spec w.self.sourcePath stream.position chunkSizeDefault w.disk)
    rintro r d ⟨hsame, hdata, hreliable⟩
    obtain ⟨data, rfl⟩ := hreliable h.read
    have hchunk : data = chunkAt chunkSizeDefault f stream.seq := by
      rw [hdata data rfl, content_of_nodes h.source, haligned]
      rfl
    exact ⟨hsame, by rw [hchunk]⟩
  obtain ⟨hsame, hchunk⟩ := hd
  obtain rfl := Except.ok.inj hchunk
  dsimp only
  rw [wp_ite]
  constructor
  · intro hempty
    have htotal : total chunkSizeDefault f ≤ stream.seq :=
      (total_le_iff chunkSizeDefault_pos).mpr ((chunkAt_eq_nil_iff chunkSizeDefault_pos).mp hempty)
    have hvalid : TransferState.completed ∈ w.self.state.validTransitions := by
      simp [h.state, TransferState.validTransitions]
    rw [wp_bind, wp_transition]
    exact ⟨fun _ ↦ ⟨fun _ ↦ ⟨rfl, rfl⟩, fun hlt ↦ absurd htotal (not_le.mpr hlt)⟩,
      fun hinvalid ↦ absurd hvalid hinvalid⟩
  · intro hchunk
    have hlt : stream.seq * chunkSizeDefault < f.length :=
      not_le.mp fun hle ↦ hchunk ((chunkAt_eq_nil_iff chunkSizeDefault_pos).mpr hle)
    have htotal : stream.seq < total chunkSizeDefault f :=
      not_le.mp fun hle ↦ not_le.mpr hlt ((total_le_iff chunkSizeDefault_pos).mp hle)
    obtain ⟨frame, hencode⟩ : ∃ frame, encodeChunkFrame w.self.transferId stream.seq
        (chunkAt chunkSizeDefault f stream.seq) = .ok frame := by
      rw [h.transferId]
      exact ⟨_, encodeChunkFrame_eq_ok.mpr ⟨length_chunkAt_le _, seq_lt hsize hlt, n,
        uuidInt_uuidText hn, rfl⟩⟩
    have hdecode := decode_encodeChunkFrame hn (h.transferId ▸ hencode)
    rw [wp_ofResult_bind]
    refine ⟨fun e he ↦ absurd (hencode.symm.trans he) (by simp), fun frame' hframe' ↦ ?_⟩
    obtain rfl := Except.ok.inj (hencode.symm.trans hframe')
    refine ⟨fun hle ↦ absurd htotal (not_lt.mpr hle), fun _ ↦ ⟨frame, hdecode, rfl, ?_⟩⟩
    exact ⟨(congrFun hsame.nodes _).trans h.source, h.read.later (hsame.faults .read), h.transferId,
      h.state, h.cancelled⟩

/-! ## The whole loop -/

theorem chunkFrames_of_total_le {i : ℕ} (h : total chunkSizeDefault f ≤ i) (limit : ℕ) :
    chunkFrames n f i limit = [] := by
  rw [chunkFrames, segment_of_total_le h, List.map_nil]

theorem chunkFrames_succ {i : ℕ} (h : i < total chunkSizeDefault f) (limit : ℕ) :
    chunkFrames n f i (limit + 1) =
      ⟨uuidText n, i, chunkAt chunkSizeDefault f i⟩ :: chunkFrames n f (i + 1) limit := by
  rw [chunkFrames, segment_succ h, List.map_cons, chunkFrames]

/-- The collected frames decode to the chunk frames of the file. -/
theorem collect_spec {w : Sender} {stream : ChunkStream} (limit : ℕ) (hn : n < 2 ^ 128)
    (hsize : (f.length : ℤ) ≤ maxFileSize) (h : Running n f w) (haligned : Aligned f stream) :
    wp (collect limit stream) (fun r _ ↦ ∃ frames, r = .ok frames ∧
      frames.mapM decodeChunkFrame = .ok (chunkFrames n f stream.seq limit)) w := by
  induction limit generalizing w stream with
  | zero => exact ⟨[], rfl, by simp [chunkFrames, pure, Except.pure]⟩
  | succ limit ih =>
    unfold collect
    rw [wp_bind]
    apply wp_mono (advance_spec hn hsize h haligned)
    rintro r w' ⟨hend, hnext⟩
    by_cases hlt : stream.seq < total chunkSizeDefault f
    · obtain ⟨frame, hdecode, rfl, hrunning⟩ := hnext hlt
      dsimp only
      rw [wp_bind]
      apply wp_mono (ih hrunning haligned.next)
      rintro r w'' ⟨frames, rfl, hframes⟩
      refine ⟨frame :: frames, rfl, ?_⟩
      rw [chunkFrames_succ hlt, List.mapM_cons, hdecode, hframes]
      rfl
    · obtain ⟨rfl, -⟩ := hend (not_lt.mp hlt)
      refine ⟨[], rfl, ?_⟩
      rw [chunkFrames_of_total_le (not_lt.mp hlt)]
      rfl

/-- A fresh object for a file on a disk whose opens, seeks and reads succeed. -/
structure Fresh (n : ℕ) (f : Bytes) (w : Sender) : Prop where
  source : w.disk.nodes w.self.sourcePath = some (.file f)
  reliable : ∀ call, w.disk.Reliable call
  transferId : w.self.transferId = uuidText n
  state : w.self.state = .idle
  cancelled : w.self.cancelled = false

theorem start_spec {w : Sender} {i : ℕ} (h : Fresh n f w) (hoffset : i * chunkSizeDefault < 2 ^ 63) :
    wp (start i) (fun r w' ↦ r = .ok ⟨i, i * chunkSizeDefault⟩ ∧ Running n f w') w := by
  have hvalid : TransferState.transferring ∈ w.self.state.validTransitions := by
    simp [h.state, TransferState.validTransitions]
  unfold start
  rw [wp_raiseIf_bind]
  refine ⟨fun hneg ↦ absurd hneg (by omega), fun _ ↦ ?_⟩
  rw [wp_bind, wp_transition]
  refine ⟨fun _ ↦ ?_, fun hinvalid ↦ absurd hvalid hinvalid⟩
  dsimp only
  rw [wp_get_bind, wp_bind]
  refine wp_failOnOsError_of (P := fun r d ↦ SameNodes w.disk d ∧ r = .ok ()) ?_
    (fun e d hd ↦ by simp at hd) fun _ d₁ hd₁ ↦ ?_
  · apply wp_mono (openRead_spec w.self.sourcePath w.disk)
    rintro r d ⟨hsame, hok⟩
    exact ⟨hsame, hok ⟨f, h.source⟩ (h.reliable .openFile)⟩
  have hrunning : ∀ d, SameNodes w.disk d →
      Running n f ⟨d, { w.self with state := .transferring }⟩ := fun d hsame ↦
    ⟨(congrFun hsame.nodes _).trans h.source, (h.reliable .read).later (hsame.faults .read),
      h.transferId, rfl, h.cancelled⟩
  rw [wp_ite]
  refine ⟨fun _ ↦ ?_, fun _ ↦ ⟨rfl, hrunning d₁ hd₁.1⟩⟩
  rw [wp_raiseIf_bind]
  refine ⟨fun hlarge ↦ absurd hlarge (not_le.mpr hoffset), fun _ ↦ ?_⟩
  rw [wp_bind]
  refine wp_failOnOsError_of (P := fun r d ↦ SameNodes w.disk d ∧ r = .ok ()) ?_
    (fun e d hd ↦ by simp at hd) fun _ d₂ hd₂ ↦ ⟨rfl, hrunning d₂ hd₂.1⟩
  apply wp_mono (seek_spec d₁)
  rintro r d ⟨hsame, hok⟩
  exact ⟨hd₁.1.trans hsame, hok ((h.reliable .seek).later (hd₁.1.faults .seek))⟩

/-- The frames of `stream_chunks_from(i)` decode to the chunk frames of the file from `i` on. -/
theorem streamChunksFrom_spec {w : Sender} {i : ℕ} (limit : ℕ) (hn : n < 2 ^ 128)
    (hsize : (f.length : ℤ) ≤ maxFileSize) (h : Fresh n f w) (hoffset : i * chunkSizeDefault < 2 ^ 63) :
    wp (streamChunksFrom limit i) (fun r _ ↦ ∃ frames, r = .ok frames ∧
      frames.mapM decodeChunkFrame = .ok (chunkFrames n f i limit)) w := by
  unfold streamChunksFrom
  rw [wp_bind]
  apply wp_mono (start_spec h hoffset)
  rintro r w' ⟨rfl, hrunning⟩
  exact collect_spec limit hn hsize hrunning rfl

/-- The metadata of the file `f`. -/
def metadataOf (self : OutgoingTransfer) (f : Bytes) (senderIdentity mimeType : Text) (now : ℤ) :
    TransferMetadata where
  transferId := self.transferId
  fileName := self.sourcePath.name
  fileSize := f.length
  mimeType := mimeType
  sha256 := Sha256.hexdigest f
  chunkSize := chunkSizeDefault
  chunkCount := TransferMetadata.expectedChunks f.length chunkSizeDefault
  senderIdentity := senderIdentity
  createdAt := now
  protocolVersion := 1
  batchId := self.batchId
  relativePath := self.relativePath

theorem sha256File_spec {w : Sender} {p : Path} (hfile : w.disk.nodes p = some (.file f))
    (hread : w.disk.Reliable .read) :
    wp (sha256File p) (fun r w' ↦ r = .ok (Sha256.hexdigest f) ∧ w'.self = w.self ∧
      SameNodes w.disk w'.disk) w := by
  have hframe : Stays (OnlyFile p) (readBlocks p) := stays_readBlocks p p
  have hread' := wp_and (readBlocks_spec p w.disk) (hframe w.disk)
  unfold sha256File onDisk
  rw [wp_bind, wp_zoom, wp_mapError]
  apply wp_mono hread'
  rintro r d ⟨⟨hnodes, hok⟩, honly⟩
  obtain rfl := hok ⟨f, hfile⟩ hread
  rw [content_of_nodes hfile]
  exact ⟨rfl, rfl, hnodes, honly.faults⟩

/-- `build_metadata` describes the file. -/
theorem buildMetadata_spec {w : Sender} (h : Fresh n f w) (senderIdentity mimeType : Text) (now : ℤ) :
    wp (buildMetadata senderIdentity mimeType now) (fun r w' ↦ Fresh n f w' ∧ w'.self = w.self ∧
      r = .ok (metadataOf w.self f senderIdentity mimeType now)) w := by
  have hfresh : ∀ d, SameNodes w.disk d → Fresh n f { w with disk := d } := fun d hsame ↦
    ⟨(congrFun hsame.nodes _).trans h.source, fun call ↦ (h.reliable call).later (hsame.faults call),
      h.transferId, h.state, h.cancelled⟩
  have hframe : Stays (OnlyFile w.self.sourcePath) (stat w.self.sourcePath) := stays_stat _ _
  unfold buildMetadata onDisk
  rw [wp_get_bind, wp_bind, wp_zoom, wp_mapError]
  apply wp_mono (wp_and (stat_spec w.self.sourcePath w.disk) (hframe w.disk))
  rintro r d ⟨⟨hnodes, -, hstat⟩, honly⟩
  obtain rfl := (hstat ⟨f, h.source⟩).2 (h.reliable .stat)
  have hsame : SameNodes w.disk d := ⟨hnodes, honly.faults⟩
  have hd := hfresh d hsame
  rw [content_of_nodes h.source]
  dsimp only [Except.mapError]
  rw [wp_bind]
  apply wp_mono (sha256File_spec hd.source (hd.reliable .read))
  rintro r w' ⟨rfl, hself, hsame'⟩
  dsimp only
  rw [wp_pure]
  have hw' : w' = { w with disk := w'.disk } := by
    rw [← hself]
  refine ⟨hw' ▸ hfresh w'.disk (hsame.trans hsame'), hself, rfl⟩

end Constant

end OutgoingTransfer

end Ferry
