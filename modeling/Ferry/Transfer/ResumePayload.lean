import Ferry.Transfer.Metadata

/-!
# The payload of a resume request
-/

namespace Ferry

open Text

/-- `TransferResumeRequestPayload`. -/
structure TransferResumeRequestPayload where
  transferId : Text
  resumeOffsetBytes : ℤ
  resumeChunkIndex : ℤ
  partialSha256 : Text
  protocolVersion : ℤ
  deriving DecidableEq

namespace TransferResumeRequestPayload

def protocolVersionCurrent : ℤ := 1

/-- `validate`, which the constructor calls with the default chunk size. -/
def validate (payload : TransferResumeRequestPayload) : Except PyError Unit := do
  rejectIf (payload.transferId = []) (.value (.invalidTransferId payload.transferId))
  rejectIf ((uuidInt payload.transferId).toOption = none)
    (.value (.invalidTransferId payload.transferId))
  rejectIf (payload.resumeOffsetBytes < 0 ∨ payload.resumeOffsetBytes > maxFileSize)
    (.value (.offsetRange payload.resumeOffsetBytes))
  rejectIf (payload.resumeChunkIndex < 0) (.value (.indexRange payload.resumeChunkIndex))
  rejectIf (payload.protocolVersion ≠ protocolVersionCurrent)
    (.value (.badProtocolVersion payload.protocolVersion))
  rejectIf (payload.partialSha256.length ≠ 64 ∨
      ¬payload.partialSha256.all (Sha256.lowerHex.contains ·))
    (.value (.badPartialSha256 payload.partialSha256))
  rejectIf (payload.resumeChunkIndex = 0 ∧ payload.resumeOffsetBytes ≠ 0)
    (.value (.offsetMismatch payload.resumeOffsetBytes 0 chunkSizeDefault))
  rejectIf (payload.resumeOffsetBytes ≠ payload.resumeChunkIndex * chunkSizeDefault)
    (.value (.offsetMismatch payload.resumeOffsetBytes payload.resumeChunkIndex chunkSizeDefault))

/-- The constructor, with `__post_init__`. -/
def build (transferId : Text) (resumeOffsetBytes resumeChunkIndex : ℤ) (partialSha256 : Text)
    (protocolVersion : ℤ) : Except PyError TransferResumeRequestPayload := do
  let payload : TransferResumeRequestPayload :=
    ⟨transferId, resumeOffsetBytes, resumeChunkIndex, partialSha256, protocolVersion⟩
  payload.validate
  return payload

/-- `to_dict`. -/
def toDict (payload : TransferResumeRequestPayload) : Payload :=
  [(lit "transfer_id", .str payload.transferId),
   (lit "resume_offset_bytes", .int payload.resumeOffsetBytes),
   (lit "resume_chunk_index", .int payload.resumeChunkIndex),
   (lit "partial_sha256", .str payload.partialSha256),
   (lit "protocol_version", .int payload.protocolVersion)]

/-- `data[key]` for a required field. -/
def required (data : Payload) (name : String) : Except PyError JsonValue :=
  require (.value (.missingField (lit name))) (data.get name)

/-- `from_dict`. -/
def fromDict (data : Payload) : Except PyError TransferResumeRequestPayload := do
  let transferId ← required data "transfer_id"
  let offset ← required data "resume_offset_bytes"
  let index ← required data "resume_chunk_index"
  let sha256 ← required data "partial_sha256"
  let version ← required data "protocol_version"
  let offset ← offset.toInt.mapError .ofInt
  let index ← index.toInt.mapError .ofInt
  let version ← version.toInt.mapError .ofInt
  build transferId.toText offset index sha256.toText version

end TransferResumeRequestPayload

end Ferry
