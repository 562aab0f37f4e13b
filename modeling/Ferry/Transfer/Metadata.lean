import Ferry.Transfer.State

/-!
# Transfer metadata

`TransferMetadata` with its parser and serialiser, the sanitiser of file names and the resolution of
the destination of a received file.
-/

namespace Ferry

open Text

/-! ## Constants -/

def chunkSizeDefault : ℕ := 65536
def maxChunkPayload : ℕ := chunkSizeDefault
def maxFileNameBytes : ℕ := 255
def maxFileSize : ℤ := 10 * 1024 ^ 3

/-! ## UUIDs -/

/-- `uuid.UUID(text).int`. -/
def uuidInt (t : Text) : Except PyError ℕ :=
  let hex := remove (lit "-") (strip (lit "\x7b\x7d") (remove (lit "uuid:") (remove (lit "urn:") t)))
  do
    rejectIf (hex.length ≠ 32) (.value .badlyFormedUuid)
    let n ← require (.value .invalidInt) (parseInt 16 hex)
    rejectIf (n < 0 ∨ 2 ^ 128 ≤ n) (.value .uuidRange)
    return n.toNat

/-- The hexadecimal digits of a number, most significant first. -/
def hexDigits (width n : ℕ) : Text :=
  (List.range width).map fun i ↦ Sha256.hexDigit (n / 16 ^ (width - 1 - i))

/-- `str(uuid.UUID(int=n))`. -/
def uuidText (n : ℕ) : Text :=
  let hex := hexDigits 32 n
  hex.take 8 ++ lit "-" ++ (hex.drop 8).take 4 ++ lit "-" ++ (hex.drop 12).take 4 ++ lit "-" ++
    (hex.drop 16).take 4 ++ lit "-" ++ hex.drop 20

/-! ## File names -/

/-- `_RESERVED_NAMES`. -/
def reservedNames : List Text :=
  [lit "CON", lit "PRN", lit "AUX", lit "NUL",
   lit "COM1", lit "COM2", lit "COM3", lit "COM4", lit "COM5", lit "COM6", lit "COM7", lit "COM8",
   lit "COM9",
   lit "LPT1", lit "LPT2", lit "LPT3", lit "LPT4", lit "LPT5", lit "LPT6", lit "LPT7", lit "LPT8",
   lit "LPT9"]

/-- `sanitise_filename`.  A lone surrogate makes the encoding to UTF-8 raise. -/
def sanitiseFilename (raw : Text) : Except PyError Text :=
  let slashed := raw.map fun c ↦ if c = backslash then slash else c
  let name := basename (slashed.filter (· ≠ 0))
  let name := lstrip [dot, slash] name
  let name := name.filter fun c ↦ 32 ≤ c.val ∧ c.val ≠ 127
  if name.any isSurrogate then .error (.value .unencodable)
  else
    let name := utf8Truncate maxFileNameBytes name
    let stem := asciiUpper (name.takeWhile (· ≠ dot))
    if stem ∈ reservedNames then .ok []
    else if name = [] ∨ name = dotText ∨ name = dotdot then .ok []
    else .ok name

/-- The prefix and substring checks on a normalised relative path. -/
def isTraversal (normPath : Text) : Bool :=
  [slash].isPrefixOf normPath || [backslash].isPrefixOf normPath || dotdot.isPrefixOf normPath ||
    hasInfix (lit "/../") normPath || hasInfix (lit "\\..\\") normPath

/-- `path.resolve()`, which raises on a text that the file system cannot take. -/
def resolvePath (p : Path) : Except PyError Path :=
  if p.all isFsEncodable then .ok p.resolve else .error (.value .unencodable)

/-- The destination before the last check of `resolve_safe_destination`. -/
def joinDestination (stagingDir : Path) (sanitised relativePath : Text) : Except PyError Path :=
  if relativePath ≠ [] then do
    let normRel := Path.normpath relativePath
    rejectIf (isTraversal normRel) (.security relativePath)
    resolvePath (Path.join stagingDir normRel)
  else resolvePath (Path.join stagingDir sanitised)

/-- `resolve_safe_destination`. -/
def resolveSafeDestination (stagingDir : Path) (fileName relativePath : Text) :
    Except PyError Path := do
  let sanitised ← sanitiseFilename fileName
  rejectIf (sanitised = []) (.value (.noSafeDestination fileName))
  let dest ← joinDestination stagingDir sanitised relativePath
  let stagingResolved := stagingDir.resolve
  rejectIf (¬(Path.toText stagingResolved ++ [slash]).isPrefixOf (Path.toText dest) ∧
    dest ≠ stagingResolved) (.security fileName)
  return dest

/-! ## Metadata -/

/-- `TransferMetadata`. -/
structure TransferMetadata where
  transferId : Text
  fileName : Text
  fileSize : ℤ
  mimeType : Text
  sha256 : Text
  chunkSize : ℤ
  chunkCount : ℤ
  senderIdentity : Text
  createdAt : ℤ
  protocolVersion : ℤ
  batchId : Text
  relativePath : Text
  deriving DecidableEq

namespace TransferMetadata

/-- `(file_size + chunk_size - 1) // chunk_size if file_size > 0 else 0`. -/
def expectedChunks (fileSize chunkSize : ℤ) : ℤ :=
  if 0 < fileSize then (fileSize + chunkSize - 1) / chunkSize else 0

/-- The check of `relative_path`, which returns its normal form. -/
def checkRelativePath (relativePath : Text) : Except PyError Text :=
  if relativePath ≠ [] then
    do
      let normPath := Path.normpath relativePath
      rejectIf (isTraversal normPath) (.value (.pathTraversal relativePath))
      return normPath
  else .ok relativePath

def isHexDigit (c : CodePoint) : Bool := lit "0123456789abcdefABCDEF" |>.contains c

/-- `TransferMetadata.from_dict`, at the time `now` in milliseconds. -/
def fromDict (now : ℤ) (data : Payload) : Except PyError TransferMetadata := do
  let transferId ← require (.key (lit "transfer_id")) ((data.get "transfer_id").map JsonValue.toText)
  let _ ← uuidInt transferId
  let rawName := data.getText "file_name" ""
  let fileName ← sanitiseFilename rawName
  rejectIf (fileName = []) (.value (.emptyFileName rawName))
  let relativePath ← checkRelativePath (data.getText "relative_path" "")
  let rawSize ← require (.key (lit "file_size")) (data.get "file_size")
  let fileSize ← rawSize.toInt.mapError .ofInt
  rejectIf (fileSize < 0) (.value (.negativeFileSize fileSize))
  rejectIf (fileSize > maxFileSize) (.value (.fileSizeLimit fileSize))
  let chunkSize ← (data.getInt "chunk_size" chunkSizeDefault).mapError .ofInt
  rejectIf (chunkSize ≤ 0 ∨ chunkSize > maxChunkPayload) (.value (.chunkSizeRange chunkSize))
  let chunkCount ← (data.getInt "chunk_count" (-1)).mapError .ofInt
  let expected := expectedChunks fileSize chunkSize
  rejectIf (chunkCount ≠ expected) (.value (.chunkCountMismatch chunkCount expected))
  let sha256 := data.getText "sha256" ""
  rejectIf (sha256.length ≠ 64 ∨ ¬sha256.all isHexDigit) (.value (.badSha256 sha256))
  let createdAt ← (data.getInt "created_at" now).mapError .ofInt
  let protocolVersion ← (data.getInt "protocol_version" 1).mapError .ofInt
  return {
    transferId
    fileName
    fileSize
    mimeType := data.getText "mime_type" "application/octet-stream"
    sha256 := asciiLower sha256
    chunkSize
    chunkCount
    senderIdentity := data.getText "sender_identity" ""
    createdAt
    protocolVersion
    batchId := data.getText "batch_id" ""
    relativePath }

/-- `to_dict`. -/
def toDict (metadata : TransferMetadata) : Payload :=
  [(lit "transfer_id", .str metadata.transferId), (lit "file_name", .str metadata.fileName),
   (lit "file_size", .int metadata.fileSize), (lit "mime_type", .str metadata.mimeType),
   (lit "sha256", .str metadata.sha256), (lit "chunk_size", .int metadata.chunkSize),
   (lit "chunk_count", .int metadata.chunkCount), (lit "sender_identity", .str metadata.senderIdentity),
   (lit "created_at", .int metadata.createdAt), (lit "protocol_version", .int metadata.protocolVersion),
   (lit "batch_id", .str metadata.batchId), (lit "relative_path", .str metadata.relativePath)]

/-! ## Round trip -/

/-- The fields have values that `from_dict` accepts and leaves as they are. -/
structure Canonical (metadata : TransferMetadata) : Prop where
  uuid : ∃ n, uuidInt metadata.transferId = .ok n
  fileName : sanitiseFilename metadata.fileName = .ok metadata.fileName
  named : metadata.fileName ≠ []
  relativePath : checkRelativePath metadata.relativePath = .ok metadata.relativePath
  fileSize : 0 ≤ metadata.fileSize ∧ metadata.fileSize ≤ maxFileSize
  chunkSize : 0 < metadata.chunkSize ∧ metadata.chunkSize ≤ maxChunkPayload
  chunkCount : metadata.chunkCount = expectedChunks metadata.fileSize metadata.chunkSize
  sha256 : metadata.sha256.length = 64 ∧ metadata.sha256.all isHexDigit
  lower : asciiLower metadata.sha256 = metadata.sha256

/-- The parser takes back what the serialiser wrote. -/
theorem fromDict_toDict (now : ℤ) {metadata : TransferMetadata} (h : Canonical metadata) :
    fromDict now metadata.toDict = .ok metadata := by
  obtain ⟨n, huuid⟩ := h.uuid
  have hid : metadata.toDict.get "transfer_id" = some (.str metadata.transferId) := rfl
  have hname : metadata.toDict.getText "file_name" "" = metadata.fileName := rfl
  have hrel : metadata.toDict.getText "relative_path" "" = metadata.relativePath := rfl
  have hsize : metadata.toDict.get "file_size" = some (.int metadata.fileSize) := rfl
  have hchunk : metadata.toDict.getInt "chunk_size" chunkSizeDefault = .ok metadata.chunkSize := rfl
  have hcount : metadata.toDict.getInt "chunk_count" (-1) = .ok metadata.chunkCount := rfl
  have hsha : metadata.toDict.getText "sha256" "" = metadata.sha256 := rfl
  have hcreated : metadata.toDict.getInt "created_at" now = .ok metadata.createdAt := rfl
  have hversion : metadata.toDict.getInt "protocol_version" 1 = .ok metadata.protocolVersion := rfl
  have hmime : metadata.toDict.getText "mime_type" "application/octet-stream" = metadata.mimeType := rfl
  have hsender : metadata.toDict.getText "sender_identity" "" = metadata.senderIdentity := rfl
  have hbatch : metadata.toDict.getText "batch_id" "" = metadata.batchId := rfl
  unfold fromDict
  simp only [hid, hname, hrel, hsize, hchunk, hcount, hsha, hcreated, hversion, hmime, hsender, hbatch]
  simp [bind_eq_ok, require, JsonValue.toText, JsonValue.toInt, huuid, h.fileName, h.named,
    h.relativePath, h.fileSize, h.chunkSize, h.chunkCount.symm, h.sha256, h.lower, Except.mapError]

end TransferMetadata

end Ferry
