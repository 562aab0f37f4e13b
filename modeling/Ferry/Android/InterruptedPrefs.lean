import Ferry.Android.TrustStore
import Ferry.Base.Recency
import Ferry.Service.Database

/-!
# The store of interrupted transfers on Android

`InterruptedTransferStore` keeps every record as a JSON text under a key of its own in the shared
preferences, and beside the records an index: the identifiers, joined by commas. Each operation edits
the two one after the other. `org.json` is not part of the program; it prints an object, parses a
text, and reads a number from a text.
-/

namespace Ferry

open Text

namespace Preferences

/-! ## JSON -/

/-- A value that is put into a JSON object. -/
inductive JsonField where
  | text (t : Text)
  | number (n : ℤ)
  | null
deriving DecidableEq

/-- A JSON object, field by field. -/
abbrev JsonObject : Type := List (String × JsonField)

/-- `org.json`. -/
structure OrgJson where
  print : JsonObject → Text
  parse : Text → Option JsonObject
  parseLong : Text → Option Int64
  parseInt : Text → Option Int32

/-- `String.valueOf` of a value. -/
def JsonField.asText : JsonField → Text
  | .text t => t
  | .number n => lit (toString n)
  | .null => lit "null"

namespace JsonObject

/-- `json.getString(key)`, where nothing stands for the exception. -/
def getString (json : JsonObject) (key : String) : Option Text :=
  (json.lookup key).map JsonField.asText

/-- `json.optString(key, fallback)`. -/
def optString (json : JsonObject) (key : String) (fallback : Text) : Text :=
  (json.getString key).getD fallback

/-- `json.isNull(key)`. -/
def isNull (json : JsonObject) (key : String) : Bool :=
  json.lookup key = none ∨ json.lookup key = some .null

/-- `json.getLong(key)`. -/
def getLong (codec : OrgJson) (json : JsonObject) (key : String) : Option Int64 :=
  match json.lookup key with
  | some (.number n) => some (Int64.ofInt n)
  | some (.text t) => codec.parseLong t
  | _ => none

/-- `json.getInt(key)`. -/
def getInt (codec : OrgJson) (json : JsonObject) (key : String) : Option Int32 :=
  match json.lookup key with
  | some (.number n) => some (Int32.ofInt n)
  | some (.text t) => codec.parseInt t
  | _ => none

end JsonObject

/-! ## Records -/

/-- `Direction.name`. -/
def directionName : Direction → Text
  | .incoming => lit "INCOMING"
  | .outgoing => lit "OUTGOING"

/-- `Direction.valueOf`. -/
def directionOf (name : Text) : Option Direction :=
  if name = lit "INCOMING" then some .incoming
  else if name = lit "OUTGOING" then some .outgoing
  else none

/-- `InterruptedRecord`. -/
structure InterruptedRecord where
  transferId : Text
  fileName : Text
  fileSize : Int64
  mimeType : Text
  sha256 : Text
  chunkSize : Int32
  chunkCount : Int32
  senderIdentity : Text
  receiverIdentity : Text
  originalMetadataJson : Text
  bytesReceived : Int64
  resumeChunkIndex : Int32
  partialSha256 : Text
  interruptedAt : Int64
  expireAt : Int64
  direction : Direction
  contentUriString : Option Text
deriving DecidableEq

namespace InterruptedRecord

/-- `toJson`. -/
def toJson (record : InterruptedRecord) : JsonObject :=
  [("transfer_id", .text record.transferId),
    ("file_name", .text record.fileName),
    ("file_size", .number record.fileSize.toInt),
    ("mime_type", .text record.mimeType),
    ("sha256", .text record.sha256),
    ("chunk_size", .number record.chunkSize.toInt),
    ("chunk_count", .number record.chunkCount.toInt),
    ("sender_identity", .text record.senderIdentity),
    ("receiver_identity", .text record.receiverIdentity),
    ("original_metadata_json", .text record.originalMetadataJson),
    ("bytes_received", .number record.bytesReceived.toInt),
    ("resume_chunk_index", .number record.resumeChunkIndex.toInt),
    ("partial_sha256", .text record.partialSha256),
    ("interrupted_at", .number record.interruptedAt.toInt),
    ("expire_at", .number record.expireAt.toInt),
    ("direction", .text (directionName record.direction)),
    ("content_uri_string", (record.contentUriString.map JsonField.text).getD .null)]

/-- `fromJson`. -/
def fromJson (codec : OrgJson) (json : JsonObject) : Option InterruptedRecord := do
  return {
    transferId := ← json.getString "transfer_id"
    fileName := ← json.getString "file_name"
    fileSize := ← json.getLong codec "file_size"
    mimeType := json.optString "mime_type" (lit "application/octet-stream")
    sha256 := ← json.getString "sha256"
    chunkSize := ← json.getInt codec "chunk_size"
    chunkCount := ← json.getInt codec "chunk_count"
    senderIdentity := json.optString "sender_identity" []
    receiverIdentity := json.optString "receiver_identity" []
    originalMetadataJson := json.optString "original_metadata_json" (lit "\x7b\x7d")
    bytesReceived := ← json.getLong codec "bytes_received"
    resumeChunkIndex := ← json.getInt codec "resume_chunk_index"
    partialSha256 := json.optString "partial_sha256" []
    interruptedAt := ← json.getLong codec "interrupted_at"
    expireAt := ← json.getLong codec "expire_at"
    direction := ← directionOf (json.optString "direction" (directionName .incoming))
    contentUriString :=
      if json.isNull "content_uri_string" then none
      else some (json.optString "content_uri_string" []) }

end InterruptedRecord

/-! ## The preferences -/

/-- `SharedPreferences`, of which only texts are used. -/
abbrev SharedPreferences : Type := Dict Text Text

/-- `KEY_INDEX`. -/
def keyIndex : Text := lit "index"

/-- `KEY_PREFIX + transferId`. -/
def entryKey (transferId : Text) : Text := lit "interrupted_" ++ transferId

def comma : CodePoint := 0x2C

/-- `toSet()`, which keeps the order in which the items come first. -/
def linkedSet (items : List Text) : List Text :=
  items.foldl (fun set item ↦ if item ∈ set then set else set ++ [item]) []

/-- `prefs.getString(KEY_PREFIX + transferId, null)`. -/
def entry (prefs : SharedPreferences) (transferId : Text) : Option Text :=
  prefs.get (entryKey transferId)

/-- `loadIndex`. -/
def loadIndex (prefs : SharedPreferences) : List Text :=
  let raw := (prefs.get keyIndex).getD []
  if isBlank raw then []
  else linkedSet ((raw.splitOn comma).filter fun transferId ↦ !isBlank transferId)

/-- `saveIndex`. -/
def saveIndex (prefs : SharedPreferences) (index : List Text) : SharedPreferences :=
  prefs.set keyIndex ([comma].intercalate index)

/-- `addToIndex`. -/
def addToIndex (prefs : SharedPreferences) (transferId : Text) : SharedPreferences :=
  let current := loadIndex prefs
  if transferId ∈ current then prefs else saveIndex prefs (current ++ [transferId])

/-- `removeFromIndex`. -/
def removeFromIndex (prefs : SharedPreferences) (transferId : Text) : SharedPreferences :=
  let current := loadIndex prefs
  if transferId ∈ current then saveIndex prefs (current.filter (· ≠ transferId)) else prefs

/-- `InterruptedRecord.fromJson(JSONObject(raw))`, where nothing stands for the exception. -/
def parseRecord (codec : OrgJson) (raw : Text) : Option InterruptedRecord :=
  (codec.parse raw).bind (InterruptedRecord.fromJson codec)

/-- `isExpired`, with the clock at `now`. -/
def isExpired (now : ℤ) (record : InterruptedRecord) : Bool := record.expireAt.toInt < now

/-- `save`. -/
def save (codec : OrgJson) (prefs : SharedPreferences) (record : InterruptedRecord) :
    SharedPreferences :=
  addToIndex (prefs.set (entryKey record.transferId) (codec.print record.toJson)) record.transferId

/-- `delete`. -/
def delete (prefs : SharedPreferences) (transferId : Text) : SharedPreferences :=
  removeFromIndex (prefs.pop (entryKey transferId)) transferId

/-- `clear`. -/
def clear (prefs : SharedPreferences) : SharedPreferences :=
  (prefs.popAll ((loadIndex prefs).map entryKey)).set keyIndex []

/-- `get`: the record and the preferences that are left. -/
def get (codec : OrgJson) (prefs : SharedPreferences) (now : ℤ) (transferId : Text) :
    Option InterruptedRecord × SharedPreferences :=
  match entry prefs transferId with
  | none => (none, prefs)
  | some raw =>
    match parseRecord codec raw with
    | none => (none, prefs)
    | some record =>
      if isExpired now record then (none, delete prefs transferId) else (some record, prefs)

/-- The loop of `listForSender`: `result` and `toDelete`.  The clock is read for each record. -/
def listLoop (codec : OrgJson) (prefs : SharedPreferences) (reads : Text → ℤ)
    (senderIdentity : Option Text) : List Text → List InterruptedRecord × List Text
  | [] => ([], [])
  | transferId :: rest =>
    let (result, toDelete) := listLoop codec prefs reads senderIdentity rest
    match entry prefs transferId with
    | none => (result, toDelete)
    | some raw =>
      match parseRecord codec raw with
      | none => (result, transferId :: toDelete)
      | some record =>
        if isExpired (reads transferId) record then (result, transferId :: toDelete)
        else if ∀ sender ∈ senderIdentity, record.senderIdentity = sender then
          (record :: result, toDelete)
        else (result, toDelete)

/-- The loop of `pruneExpired`: `toDelete`. -/
def pruneLoop (codec : OrgJson) (prefs : SharedPreferences) (reads : Text → ℤ) :
    List Text → List Text
  | [] => []
  | transferId :: rest =>
    let toDelete := pruneLoop codec prefs reads rest
    match entry prefs transferId with
    | none => transferId :: toDelete
    | some raw =>
      match parseRecord codec raw with
      | none => transferId :: toDelete
      | some record =>
        if isExpired (reads transferId) record then transferId :: toDelete else toDelete

/-- The end of both: the entries are removed and the index is saved without them. -/
def removeFound (prefs : SharedPreferences) (index toDelete : List Text) : SharedPreferences :=
  if toDelete = [] then prefs
  else saveIndex (prefs.popAll (toDelete.map entryKey)) (index.filter (· ∉ toDelete))

/-- `listForSender`. -/
def listForSender (codec : OrgJson) (prefs : SharedPreferences) (reads : Text → ℤ)
    (senderIdentity : Option Text) : List InterruptedRecord × SharedPreferences :=
  let index := loadIndex prefs
  let (result, toDelete) := listLoop codec prefs reads senderIdentity index
  (result, removeFound prefs index toDelete)

/-- `pruneExpired`. -/
def pruneExpired (codec : OrgJson) (prefs : SharedPreferences) (reads : Text → ℤ) :
    ℕ × SharedPreferences :=
  let index := loadIndex prefs
  let toDelete := pruneLoop codec prefs reads index
  (toDelete.length, removeFound prefs index toDelete)

/-! ## Round trips -/

theorem directionOf_directionName (direction : Direction) :
    directionOf (directionName direction) = some direction := by
  cases direction <;> decide

/-- A record is read back from its own JSON object. -/
theorem fromJson_toJson (codec : OrgJson) (record : InterruptedRecord) :
    InterruptedRecord.fromJson codec record.toJson = some record := by
  obtain ⟨transferId, fileName, fileSize, mimeType, sha256, chunkSize, chunkCount, senderIdentity,
    receiverIdentity, originalMetadataJson, bytesReceived, resumeChunkIndex, partialSha256,
    interruptedAt, expireAt, direction, contentUriString⟩ := record
  cases contentUriString with
  | none =>
    simp [InterruptedRecord.fromJson, InterruptedRecord.toJson, JsonObject.getString,
      JsonObject.optString, JsonObject.getLong, JsonObject.getInt, JsonObject.isNull,
      JsonField.asText, List.lookup_cons, directionOf_directionName]
  | some uri =>
    simp [InterruptedRecord.fromJson, InterruptedRecord.toJson, JsonObject.getString,
      JsonObject.optString, JsonObject.getLong, JsonObject.getInt, JsonObject.isNull,
      JsonField.asText, List.lookup_cons, directionOf_directionName]

end Preferences

end Ferry
