import Ferry.Transfer.Metadata

/-!
# Messages

What the session loop gets out of a decrypted frame: the bytes of a data frame, or a JSON envelope,
or nothing that can be read.  Only the fields of an envelope that some branch reads are kept.
-/

namespace Ferry

open Text

/-- The values of `MessageType` that some branch of the session loop mentions. -/
inductive MessageType
  | disconnect
  | pairDecision
  | capabilities
  | notificationPost
  | notificationRemove
  | transferRequest
  | transferAccept
  | transferReject
  | transferComplete
  | transferResult
  | transferCancel
  | transferError
  | transferResumeRequest
  | transferResumeAccept
  | transferResumeReject
  | batchRequest
  | batchAccept
  | batchReject
  | batchCancel
  | batchComplete
  deriving DecidableEq

/-- `FerryEnvelope`.  There is no type when the type is none of those mentioned. -/
structure FerryEnvelope where
  type : Option MessageType
  payload : JsonValue

/-- A decrypted frame: one that `is_chunk_frame` accepts, one that decoding to a `FerryEnvelope`
raises on, and an envelope. -/
inductive Plaintext
  | chunk (data : Bytes)
  | malformed
  | control (envelope : FerryEnvelope)

namespace JsonValue

/-- The fields of an object; any other value has no `get`. -/
def fields : JsonValue → Except PyError Payload
  | obj fields _ => .ok fields
  | _ => .error .attribute

/-- Use as a key of a dictionary whose keys are texts: lists and objects are not hashable, and no
other value than a text is a key. -/
def key : JsonValue → Except PyError (Option Text)
  | str t => .ok (some t)
  | arr _ _ | obj _ _ => .error .type
  | _ => .ok none

/-- `value[:8]` for a log line. -/
def slice : JsonValue → Except PyError Unit
  | str _ | arr _ _ => .ok ()
  | _ => .error .type

/-- `value[:8] if value else "?"` for a log line. -/
def sliceOr (value : JsonValue) : Except PyError Unit := if value.truthy then value.slice else .ok ()

/-- Use as the parameter of a query on a column of texts.  The ids in the database are those of
UUIDs, which no value but a text equals. -/
def parameter : JsonValue → Except PyError (Option Text)
  | str t => if t.any isSurrogate then .error (.value .unencodable) else .ok (some t)
  | int n => if -2 ^ 63 ≤ n ∧ n < 2 ^ 63 then .ok none else .error .overflow
  | arr _ _ | obj _ _ => .error .database
  | _ => .ok none

/-- `list(value)`. -/
def toList : JsonValue → Except PyError (List JsonValue)
  | arr items _ => .ok items
  | obj fields _ => .ok (fields.map fun field ↦ str field.1)
  | str t => .ok (t.map fun c ↦ str [c])
  | _ => .error .type

end JsonValue

namespace Payload

/-- `payload.get(key, default)`. -/
def getD (payload : Payload) (key : String) (default : JsonValue) : JsonValue :=
  (payload.get key).getD default

end Payload

/-! ## Payloads -/

/-- `BatchRequestPayload`, without the fields that nothing reads. -/
structure BatchRequestPayload where
  batchId : Text
  batchName : Text
  totalItems : ℤ
  totalBytes : ℤ

/-- `BatchRequestPayload.from_dict`. -/
def BatchRequestPayload.fromDict (data : Payload) : Except PyError BatchRequestPayload := do
  let batchId ← require (.key (lit "batch_id")) (data.get "batch_id")
  let batchName ← require (.key (lit "batch_name")) (data.get "batch_name")
  let totalItems ← require (.key (lit "total_items")) (data.get "total_items")
  let totalItems ← totalItems.toInt.mapError .ofInt
  let totalBytes ← require (.key (lit "total_bytes")) (data.get "total_bytes")
  let totalBytes ← totalBytes.toInt.mapError .ofInt
  let _ ← (data.getInt "created_at" 0).mapError .ofInt
  let _ ← (data.getInt "protocol_version" 1).mapError .ofInt
  return ⟨batchId.toText, batchName.toText, totalItems, totalBytes⟩

def maxNotificationFrameBytes : ℕ := 8 * 1024
def notifMaxTitle : ℕ := 200
def notifMaxBody : ℕ := 1000
def notifMaxPkg : ℕ := 255
def notifMaxLabel : ℕ := 100

/-- `NotificationPostPayload`, without the fields that nothing reads. -/
structure NotificationPostPayload where
  ferryId : Text
  appLabel : Text
  title : Text
  body : Text

namespace NotificationPostPayload

/-- The fields that `from_dict` requires. -/
def requiredFields : List Text :=
  [lit "ferry_id", lit "package", lit "app_label", lit "title", lit "body", lit "posted_at"]

/-- `key not in d`, for whatever JSON value `d` is. -/
def isMissing (d : JsonValue) (key : Text) : Except PyError Bool :=
  match d with
  | .obj fields _ => .ok (fields.lookup key).isNone
  | .arr items _ => .ok (!items.any fun item ↦ match item with
    | .str t => t = key
    | _ => false)
  | .str t => .ok (!hasInfix key t)
  | _ => .error .type

/-- The loop over the required fields. -/
def checkRequired (d : JsonValue) : List Text → Except PyError Unit
  | [] => .ok ()
  | key :: keys => do
    let missing ← isMissing d key
    rejectIf (missing = true) (.value (.missingNotificationField key))
    checkRequired d keys

/-- `d[key]`, after the loop over the required fields. -/
def field (d : JsonValue) (key : String) : Except PyError JsonValue :=
  match d with
  | .obj fields _ => require (.key (lit key)) (Payload.get fields key)
  | _ => .error .type

/-- `from_dict`. -/
def fromDict (d : JsonValue) : Except PyError NotificationPostPayload := do
  checkRequired d requiredFields
  let ferryId ← field d "ferry_id"
  let package ← field d "package"
  let appLabel ← field d "app_label"
  let title ← field d "title"
  let body ← field d "body"
  let postedAt ← field d "posted_at"
  let _ ← postedAt.toInt.mapError .ofInt
  rejectIf (ferryId.toText.take 64 = []) (.value .emptyFerryId)
  rejectIf (package.toText.take notifMaxPkg = []) (.value .emptyPackage)
  return ⟨ferryId.toText.take 64, appLabel.toText.take notifMaxLabel,
    title.toText.take notifMaxTitle, body.toText.take notifMaxBody⟩

end NotificationPostPayload

/-- `NotificationRemovePayload.from_dict`, as the id that it reads. -/
def NotificationRemovePayload.fromDict (d : JsonValue) : Except PyError Text := do
  let fields ← d.fields
  let ferryId := fields.getText "ferry_id" ""
  rejectIf (ferryId = []) (.value .emptyFerryId)
  return ferryId.take 64

end Ferry
