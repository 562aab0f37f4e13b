import Ferry.Transfer.Metadata

/-!
# Chunk frames

The binary layout of a data frame: the magic, sixteen bytes of transfer id, the sequence number and
the payload length as big-endian words, and the payload.
-/

namespace Ferry

/-- `ChunkFrame`. -/
structure ChunkFrame where
  transferId : Text
  seq : ℕ
  data : Bytes
  deriving DecidableEq

/-- `b"FYCH"`. -/
def chunkMagic : Bytes := [0x46, 0x59, 0x43, 0x48]

def chunkMagicSize : ℕ := 4
def chunkTransferIdSize : ℕ := 16
def chunkHeaderSize : ℕ := 28

/-- The big-endian bytes of a number, as many as `width`. -/
def toBigEndian (width n : ℕ) : Bytes :=
  (List.range width).map fun i ↦ UInt8.ofNat (n / 256 ^ (width - 1 - i))

def ofBigEndian (data : Bytes) : ℕ := data.foldl (fun acc b ↦ acc * 256 + b.toNat) 0

/-- `is_chunk_frame`. -/
def isChunkFrame (plaintext : Bytes) : Bool := plaintext.take chunkMagicSize == chunkMagic

/-- `encode_chunk_frame`.  A sequence number that does not fit its word is a `struct.error`. -/
def encodeChunkFrame (transferId : Text) (seq : ℕ) (data : Bytes) : Except PyError Bytes := do
  rejectIf (data.length > maxChunkPayload) (.value (.payloadTooLong data.length))
  let uid ← uuidInt transferId
  rejectIf (2 ^ 32 ≤ seq) .structPack
  return chunkMagic ++ toBigEndian 16 uid ++ toBigEndian 4 seq ++ toBigEndian 4 data.length ++ data

/-- `decode_chunk_frame`. -/
def decodeChunkFrame (plaintext : Bytes) : Except PyError ChunkFrame := do
  rejectIf (plaintext.length < chunkHeaderSize) (.value (.frameTooShort plaintext.length))
  let magic := plaintext.take chunkMagicSize
  rejectIf (magic ≠ chunkMagic) (.value (.badMagic magic))
  let uid := ofBigEndian ((plaintext.drop chunkMagicSize).take chunkTransferIdSize)
  let offset := chunkMagicSize + chunkTransferIdSize
  let seq := ofBigEndian ((plaintext.drop offset).take 4)
  let payloadLen := ofBigEndian ((plaintext.drop (offset + 4)).take 4)
  rejectIf (payloadLen > maxChunkPayload) (.value (.payloadLenRange payloadLen))
  rejectIf (plaintext.length < offset + 8 + payloadLen)
    (.value (.frameTruncated (offset + 8 + payloadLen) plaintext.length))
  return ⟨uuidText uid, seq, (plaintext.drop (offset + 8)).take payloadLen⟩

end Ferry
