import Ferry.Android.ChunkCodec
import Ferry.Android.Integrity
import Ferry.Service.Incoming
import Ferry.Transfer.Integrity

/-!
# Chunks of admitted transfers

A request is admitted with the text of its identifier, and its chunks carry the sixteen bytes of the
UUID, whose canonical text the decoders rebuild.  The chunks of an admitted transfer therefore come
back to it when its identifier is the canonical text and when, in the service, its last sequence
number fits a word, and otherwise they do not.
-/

namespace Ferry

open Text Exec

/-! ## Routing a chunk -/

/-- The text that both decoders give for a UUID. -/
def IsCanonicalUuid (t : Text) : Prop := ∃ uid < 2 ^ 128, t = uuidText uid

/-- The exception of the identity check of `receive_chunk`. -/
def PyError.IsMismatch (e : PyError) : Prop :=
  ∃ expected got, e = .value (.transferIdMismatch expected got)

/-- The exception of the identity check of the Kotlin `receiveChunk`. -/
def KotlinException.IsMismatch (e : KotlinException) : Prop :=
  ∃ expected actual, e = .illegalArgument (.chunkTransferId expected actual)

/-- The chunk is framed, decoded to itself, found under the identifier of the transfer, and it passes
the identity check of the transfer. -/
def TransferMetadata.Routes (metadata : TransferMetadata) (seq : ℕ) (data : Bytes) : Prop :=
  ∃ frame chunk, encodeChunkFrame metadata.transferId seq data = .ok frame ∧
    decodeChunkFrame frame = .ok chunk ∧
    chunk.transferId = metadata.transferId ∧ chunk.seq = seq ∧ chunk.data = data ∧
    (∀ (entries : Dict Text IncomingTransfer) (transfer : IncomingTransfer),
      (entries.set metadata.transferId transfer).get chunk.transferId = some transfer) ∧
    ∀ w : World, w.self.metadata = metadata →
      wp (IncomingTransfer.receiveChunk chunk) (fun r _ ↦ ∀ e, r = .error e → ¬e.IsMismatch) w

/-- The same for the client, which has one active receiver. -/
def Kotlin.TransferMetadata.Routes (metadata : Kotlin.TransferMetadata) (seq : ℕ) (data : Bytes) :
    Prop :=
  ∃ frame, Kotlin.encodeChunkFrame metadata.transferId seq data = .ok frame ∧
    Kotlin.decodeChunkFrame frame = .ok (metadata.transferId, (seq : ℤ), data) ∧
    ∀ w : ReceiverWorld, w.self.metadata = metadata →
      wp (FerryTransferReceiver.receiveChunk metadata.transferId seq data)
        (fun r _ ↦ ∀ e, r = .error e → ¬e.IsMismatch) w

/-! ## The identity checks -/

namespace IncomingTransfer

theorem not_isMismatch_ofIo (io : IoError) : ¬(PyError.ofIo io).IsMismatch := by
  rintro ⟨expected, got, he⟩
  cases io <;> simp [PyError.ofIo] at he

theorem onTempFh_raises {α : Type} (m : Exec IoError (Disk × Handle) α) :
    Raises (fun e ↦ ¬e.IsMismatch) (onTempFh m) := by
  intro w
  cases hfh : w.self.tempFh with
  | none =>
    rw [wp_onTempFh_none hfh]
    rintro e he ⟨expected, got, hmismatch⟩
    simp [hmismatch] at he
  | some fh =>
    rw [wp_onTempFh_some hfh]
    apply wp_mono (Q := fun _ _ ↦ True) trivial
    intro r t _ e he
    cases r with
    | error io => exact Except.error.inj he ▸ not_isMismatch_ofIo io
    | ok a => simp [Except.mapError] at he

/-- A chunk with the identifier of the transfer passes the check, whatever else fails. -/
theorem receiveChunk_passes {chunk : ChunkFrame} {w : World}
    (h : chunk.transferId = w.self.metadata.transferId) :
    wp (receiveChunk chunk) (fun r _ ↦ ∀ e, r = .error e → ¬e.IsMismatch) w := by
  have hcleanup : Succeeds cleanupOnIoError := fun t ↦
    wp_mono (cleanupOnIoError_spec t) fun _ _ hr ↦ ⟨(), hr.1⟩
  have hwrite : Raises (fun e ↦ ¬e.IsMismatch) (tryCatch (onTempFh (Handle.write chunk.data)) fun e ↦ do
      if e.IsOsError then
        cleanupOnIoError
        throw (.transfer .diskWrite)
      else throw e) := by
    refine raises_tryCatch (onTempFh_raises (Handle.write chunk.data)) ?_
    intro e he
    apply raises_ite
    · refine raises_bind (raises_of_succeeds hcleanup) fun _ ↦ raises_throw ?_
      simp [PyError.IsMismatch]
    · exact raises_throw he
  unfold receiveChunk
  rw [wp_get_bind, wp_raiseIf_bind, wp_raiseIf_bind, wp_raiseIf_bind, wp_raiseIf_bind]
  refine ⟨fun _ ↦ by simp [PyError.IsMismatch], fun _ ↦ ⟨fun hne ↦ absurd h hne, fun _ ↦
    ⟨fun _ ↦ by simp [PyError.IsMismatch], fun _ ↦ ⟨fun _ ↦ by simp [PyError.IsMismatch], fun _ ↦ ?_⟩⟩⟩⟩
  exact raises_bind hwrite (fun _ ↦ raises_of_succeeds (succeeds_modify _)) w

end IncomingTransfer

namespace FerryTransferReceiver

theorem receiveChunk_passes {transferId : Text} {seq : ℤ} {data : Bytes} {w : ReceiverWorld}
    (h : transferId = w.self.metadata.transferId) :
    wp (receiveChunk transferId seq data) (fun r _ ↦ ∀ e, r = .error e → ¬e.IsMismatch) w := by
  have hcleanup : Succeeds cleanup := fun t ↦
    wp_mono (cleanup_spec t) fun _ _ hr ↦ ⟨(), hr.1⟩
  have hio : ∀ io : IoError, ¬(KotlinException.ofIo io).IsMismatch := by
    rintro io ⟨expected, actual, he⟩
    cases io <;> simp [KotlinException.ofIo] at he
  have hdisk : Raises (fun e ↦ ¬e.IsMismatch) (onDisk (JavaFile.appendBytes w.self.tempFile data)) := by
    intro t
    rw [wp_onDisk]
    apply wp_mono (Q := fun _ _ ↦ True) trivial
    intro r d _ e he
    cases r with
    | error io => exact Except.error.inj he ▸ hio io
    | ok a => simp [Except.mapError] at he
  unfold receiveChunk
  rw [wp_get_bind, wp_raiseIf_bind, wp_raiseIf_bind, wp_raiseIf_bind, wp_raiseIf_bind]
  refine ⟨fun _ ↦ by simp [KotlinException.IsMismatch], fun _ ↦ ⟨fun hne ↦ absurd h hne, fun _ ↦
    ⟨fun _ ↦ by simp [KotlinException.IsMismatch], fun _ ↦
      ⟨fun _ ↦ by simp [KotlinException.IsMismatch], fun _ ↦ ?_⟩⟩⟩⟩
  refine raises_bind (raises_tryCatch hdisk ?_) (fun _ ↦ raises_of_succeeds (succeeds_modify _)) w
  intro e he
  exact raises_bind (raises_of_succeeds hcleanup) fun _ ↦
    raises_bind (raises_of_succeeds (succeeds_modify _)) fun _ ↦ raises_throw he

end FerryTransferReceiver

/-! ## Admitted transfers -/

theorem uuidInt_lt {t : Text} {uid : ℕ} (h : uuidInt t = .ok uid) : uid < 2 ^ 128 := by
  unfold uuidInt at h
  simp only [bind_eq_ok, rejectIf_eq_ok, require_eq_ok] at h
  obtain ⟨-, -, n, -, -, hrange, huid⟩ := h
  obtain rfl := Except.ok.inj huid
  omega

/-- Whether a text is canonical is settled by parsing it. -/
theorem isCanonicalUuid_iff {t : Text} :
    IsCanonicalUuid t ↔ (uuidInt t).toOption.map uuidText = some t := by
  rw [Option.map_eq_some_iff]
  simp only [toOption_eq_some]
  constructor
  · rintro ⟨uid, hlt, rfl⟩
    exact ⟨uid, uuidInt_uuidText hlt, rfl⟩
  · rintro ⟨uid, huid, htext⟩
    exact ⟨uid, uuidInt_lt huid, htext.symm⟩

instance (t : Text) : Decidable (IsCanonicalUuid t) := decidable_of_iff _ isCanonicalUuid_iff.symm

/-- What a routed chunk shows of its transfer. -/
theorem TransferMetadata.Routes.canonical {metadata : TransferMetadata} {seq : ℕ} {data : Bytes}
    (h : metadata.Routes seq data) : IsCanonicalUuid metadata.transferId ∧ seq < 2 ^ 32 := by
  obtain ⟨frame, chunk, hencode, hdecode, hid, -⟩ := h
  obtain ⟨hlength, hseq, uid, huid, rfl⟩ := encodeChunkFrame_eq_ok.mp hencode
  have hlt := uuidInt_lt huid
  have hchunk := hdecode.symm.trans (decode_layoutChunk hlt hseq hlength)
  rw [Except.ok.inj hchunk] at hid
  exact ⟨⟨uid, hlt, hid.symm⟩, hseq⟩

theorem Kotlin.TransferMetadata.Routes.canonical {metadata : Kotlin.TransferMetadata} {seq : ℕ}
    {data : Bytes} (h : metadata.Routes seq data) (hseq : seq < 2 ^ 31) :
    IsCanonicalUuid metadata.transferId := by
  obtain ⟨frame, hencode, hdecode, -⟩ := h
  rw [← toInt32_of_lt hseq] at hencode
  obtain ⟨hlength, uid, huid, rfl⟩ := (kotlin_encodeChunkFrame_eq_ok (hseq.trans (by decide))).mp hencode
  have hid := (kotlin_decodeChunkFrame_eq_ok.mp hdecode).2.1
  rw [uid_layoutChunk, ofBigEndian_toBigEndian (lt_of_lt_of_eq (uuidNumber_lt uid) (by norm_num))] at hid
  exact ⟨Kotlin.uuidNumber uid, uuidNumber_lt uid, hid⟩

/-- What `from_dict` has checked of the sizes. -/
theorem TransferMetadata.fromDict_sizes {now : ℤ} {payload : Payload} {metadata : TransferMetadata}
    (h : TransferMetadata.fromDict now payload = .ok metadata) :
    0 < metadata.chunkSize ∧ metadata.chunkSize ≤ maxChunkPayload := by
  simp only [TransferMetadata.fromDict, bind_eq_ok, rejectIf_eq_ok] at h
  obtain ⟨_, _, uid, huid, _, _, _, _, _, _, _, _, _, _, _, _, _, _, _, _, _, hsize, _, _, _, _, _, _,
    _, _, _, _, hmetadata⟩ := h
  obtain rfl := Except.ok.inj hmetadata
  dsimp only
  omega

/-- What the Kotlin `fromMap` has checked of the sizes. -/
theorem Kotlin.TransferMetadata.fromMap_sizes {now : ℤ} {data : String → MapValue}
    {metadata : Kotlin.TransferMetadata} (h : Kotlin.TransferMetadata.fromMap now data = .ok metadata) :
    0 < metadata.chunkSize ∧ metadata.chunkSize ≤ chunkSizeDefault ∧ metadata.chunkCount < 2 ^ 31 := by
  simp only [Kotlin.TransferMetadata.fromMap, bind_eq_ok, rejectIf_eq_ok] at h
  obtain ⟨-, -, -, -, -, -, -, -, -, -, -, hsize, -, hcount, -, -, hmetadata⟩ := h
  obtain rfl := Except.ok.inj hmetadata
  refine ⟨by dsimp only; omega, by dsimp only; omega, ?_⟩
  dsimp only
  rw [not_not.mp hcount, Kotlin.TransferMetadata.expectedChunks]
  split
  · rw [Kotlin.TransferMetadata.toInt32]
    have hlt := @Int.bmod_lt (((data "file_size").longOr 0 + (data "chunk_size").intOr chunkSizeDefault -
      1) / (data "chunk_size").intOr chunkSizeDefault) (2 ^ 32) (by decide)
    omega
  · decide

section Routing

variable {now : ℤ}

/-- The chunks of a transfer that the service has admitted are routed to it if and only if its
identifier is the canonical text and its sequence numbers fit a word. -/
theorem TransferMetadata.routes_iff {payload : Payload} {metadata : TransferMetadata}
    (h : TransferMetadata.fromDict now payload = .ok metadata) (hcount : 1 ≤ metadata.chunkCount) :
    (∀ (seq : ℕ) (data : Bytes), (seq : ℤ) < metadata.chunkCount →
        (data.length : ℤ) ≤ metadata.chunkSize → metadata.Routes seq data) ↔
      IsCanonicalUuid metadata.transferId ∧ metadata.chunkCount ≤ 2 ^ 32 := by
  obtain ⟨hpos, hsize⟩ := TransferMetadata.fromDict_sizes h
  constructor
  · intro hroutes
    constructor
    · exact (hroutes 0 [] (by omega) (by simp; omega)).canonical.1
    · by_contra hlarge
      exact absurd (hroutes (2 ^ 32) [] (by omega) (by simp; omega)).canonical.2 (by decide)
  · rintro ⟨⟨uid, hlt, hcanonical⟩, hlarge⟩ seq data hseq hlength
    have hword : seq < 2 ^ 32 := by omega
    have hpayload : data.length ≤ maxChunkPayload := by omega
    have hencode : encodeChunkFrame metadata.transferId seq data = .ok (layoutChunk uid seq data) := by
      rw [hcanonical]
      exact encodeChunkFrame_eq_ok.mpr ⟨hpayload, hword, uid, uuidInt_uuidText hlt, rfl⟩
    have hdecode := decode_layoutChunk hlt hword hpayload
    rw [← hcanonical] at hdecode
    refine ⟨_, _, hencode, hdecode, rfl, rfl, rfl, fun entries transfer ↦ Dict.get_set_self .., ?_⟩
    rintro w rfl
    exact IncomingTransfer.receiveChunk_passes rfl

/-- The same for the client, whose sequence numbers are those of an `Int`. -/
theorem Kotlin.TransferMetadata.routes_iff {data : String → MapValue}
    {metadata : Kotlin.TransferMetadata} (h : Kotlin.TransferMetadata.fromMap now data = .ok metadata)
    (hcount : 1 ≤ metadata.chunkCount) :
    (∀ (seq : ℕ) (data : Bytes), (seq : ℤ) < metadata.chunkCount →
        (data.length : ℤ) ≤ metadata.chunkSize → metadata.Routes seq data) ↔
      IsCanonicalUuid metadata.transferId := by
  obtain ⟨hpos, hsize, hint⟩ := Kotlin.TransferMetadata.fromMap_sizes h
  have hsigned : ∀ {seq : ℕ}, (seq : ℤ) < metadata.chunkCount → seq < 2 ^ 31 := by omega
  constructor
  · intro hroutes
    exact (hroutes 0 [] (by omega) (by simp; omega)).canonical (by decide)
  · rintro ⟨uid, hlt, hcanonical⟩ seq bytes hseq hlength
    have hword : seq < 2 ^ 32 := (hsigned hseq).trans (by decide)
    have hpayload : bytes.length ≤ maxChunkPayload := by
      rw [maxChunkPayload]
      omega
    have hencode := encodeChunkFrame_uuidText hlt hword hpayload .android
    have hdecode := decodeChunkFrame_layoutChunk hlt hword hpayload .android
    rw [seqOfWord_of_lt .android (hsigned hseq), ← hcanonical] at hencode hdecode
    refine ⟨_, toOption_eq_some.mp hencode, toOption_eq_some.mp hdecode, ?_⟩
    rintro w rfl
    exact FerryTransferReceiver.receiveChunk_passes rfl

end Routing

/-- Exactly which admitted transfers get their chunks, in both implementations. -/
theorem admitted_routes_iff (now : ℤ) :
    (∀ (payload : Payload) (metadata : TransferMetadata),
      TransferMetadata.fromDict now payload = .ok metadata → 1 ≤ metadata.chunkCount →
        ((∀ (seq : ℕ) (data : Bytes), (seq : ℤ) < metadata.chunkCount →
            (data.length : ℤ) ≤ metadata.chunkSize → metadata.Routes seq data) ↔
          IsCanonicalUuid metadata.transferId ∧ metadata.chunkCount ≤ 2 ^ 32)) ∧
    ∀ (data : String → Kotlin.MapValue) (metadata : Kotlin.TransferMetadata),
      Kotlin.TransferMetadata.fromMap now data = .ok metadata → 1 ≤ metadata.chunkCount →
        ((∀ (seq : ℕ) (bytes : Bytes), (seq : ℤ) < metadata.chunkCount →
            (bytes.length : ℤ) ≤ metadata.chunkSize → metadata.Routes seq bytes) ↔
          IsCanonicalUuid metadata.transferId) :=
  ⟨fun _ _ h hcount ↦ TransferMetadata.routes_iff h hcount,
    fun _ _ h hcount ↦ Kotlin.TransferMetadata.routes_iff h hcount⟩

/-- A request for one byte under an identifier. -/
def requestPayload (transferId : Text) (fileSize chunkSize : ℤ) : Payload :=
  [(lit "transfer_id", .str transferId), (lit "file_name", .str (lit "a")),
   (lit "file_size", .int fileSize), (lit "chunk_size", .int chunkSize),
   (lit "chunk_count", .int (TransferMetadata.expectedChunks fileSize chunkSize)),
   (lit "sha256", .str (List.replicate 64 0x30))]

/-- The same request in the client. -/
def requestMap (transferId : Text) (field : String) : Kotlin.MapValue :=
  if field = "transfer_id" then .string transferId
  else if field = "file_name" then .string (lit "a")
  else if field = "file_size" then .number 1 1
  else if field = "chunk_size" then .number 1 1
  else if field = "chunk_count" then .number 1 1
  else if field = "sha256" then .string (List.replicate 64 0x30)
  else .other

/-- A UUID in capital letters, which both parsers accept. -/
def capitalUuid : Text := lit "0000000A-0000-4000-8000-000000000000"

theorem admitted_routes_iff_sample :
    (∃ metadata, TransferMetadata.fromDict 0 (requestPayload (uuidText 10) 1 1) = .ok metadata ∧
      ((∀ (seq : ℕ) (data : Bytes), (seq : ℤ) < metadata.chunkCount →
          (data.length : ℤ) ≤ metadata.chunkSize → metadata.Routes seq data) ↔
        IsCanonicalUuid metadata.transferId ∧ metadata.chunkCount ≤ 2 ^ 32)) ∧
    ∃ metadata, Kotlin.TransferMetadata.fromMap 0 (requestMap (uuidText 10)) = .ok metadata ∧
      ((∀ (seq : ℕ) (data : Bytes), (seq : ℤ) < metadata.chunkCount →
          (data.length : ℤ) ≤ metadata.chunkSize → metadata.Routes seq data) ↔
        IsCanonicalUuid metadata.transferId) := by
  have hlinux : ∃ metadata, TransferMetadata.fromDict 0 (requestPayload (uuidText 10) 1 1) =
      .ok metadata ∧ 1 ≤ metadata.chunkCount := ⟨_, rfl, by decide⟩
  have handroid : ∃ metadata, Kotlin.TransferMetadata.fromMap 0 (requestMap (uuidText 10)) =
      .ok metadata ∧ 1 ≤ metadata.chunkCount := ⟨_, rfl, by decide⟩
  obtain ⟨metadata, hmetadata, hcount⟩ := hlinux
  obtain ⟨metadata', hmetadata', hcount'⟩ := handroid
  exact ⟨⟨metadata, hmetadata, (admitted_routes_iff 0).1 _ metadata hmetadata hcount⟩,
    ⟨metadata', hmetadata', (admitted_routes_iff 0).2 _ metadata' hmetadata' hcount'⟩⟩

/-- A transfer that was admitted in capital letters loses its first chunk in both implementations, and
one of `2 ^ 32 + 1` chunks loses its last one. -/
theorem admitted_not_routed :
    (∃ metadata, TransferMetadata.fromDict 0 (requestPayload capitalUuid 1 1) = .ok metadata ∧
      1 ≤ metadata.chunkCount ∧ ¬metadata.Routes 0 [7]) ∧
    (∃ metadata, TransferMetadata.fromDict 0 (requestPayload (uuidText 10) (2 ^ 32 + 1) 1) =
        .ok metadata ∧ metadata.chunkCount = 2 ^ 32 + 1 ∧ ¬metadata.Routes (2 ^ 32) [7]) ∧
    ∃ metadata, Kotlin.TransferMetadata.fromMap 0 (requestMap capitalUuid) = .ok metadata ∧
      1 ≤ metadata.chunkCount ∧ ¬metadata.Routes 0 [7] := by
  have hcapital : ¬IsCanonicalUuid capitalUuid := by decide
  refine ⟨⟨_, rfl, by decide, ?_⟩, ⟨_, rfl, rfl, ?_⟩, ⟨_, rfl, by decide, ?_⟩⟩
  · exact fun h ↦ hcapital h.canonical.1
  · exact fun h ↦ absurd h.canonical.2 (by decide)
  · exact fun h ↦ hcapital (h.canonical (by decide))

end Ferry
