import Ferry.Android.State
import Ferry.Android.TrustStore
import Ferry.Transfer.Metadata

/-!
# Transfer metadata on Android

`TransferMetadata.fromMap` of the client, with its own reading of UUIDs, of file names and of integer
fields.  A text is the list of its code points; a code point outside the basic plane is two `Char`s,
which matters only where the code counts or reads single ones.
-/

namespace Ferry

open Text

namespace Kotlin

/-! ## UUIDs -/

/-- `Character.digit(c, 16)`, which knows the digits of all scripts and the full-width letters. -/
def hexDigitValue (c : CodePoint) : Option ℕ :=
  if 0x10000 ≤ c.val then none
  else if 0xFF21 ≤ c.val ∧ c.val ≤ 0xFF26 then some (c.val - 0xFF21 + 10)
  else if 0xFF41 ≤ c.val ∧ c.val ≤ 0xFF46 then some (c.val - 0xFF41 + 10)
  else (digitValue c).filter (· < 16)

/-- `Long.parseLong(t, 16)` of a text without a minus sign. -/
def parseHexLong (t : Text) : Option ℕ := do
  let unsigned := if t.head? = some 0x2B then t.tail else t
  if unsigned = [] then none
  else
    let digits ← unsigned.mapM hexDigitValue
    let value := digits.foldl (fun acc d ↦ acc * 16 + d) 0
    if value < 2 ^ 63 then some value else none

/-- The five numbers of `UUID.fromString`, where `none` stands for the exception. -/
def uuidFromString (name : Text) : Option (List ℕ) := do
  let components ← (name.splitOn 0x2D).mapM parseHexLong
  if name.length ≤ 36 ∧ components.length = 5 then some components else none

theorem isSome_of_mem_mapM {α β : Type} {f : α → Option β} {l : List α} (h : (l.mapM f).isSome)
    {a : α} (ha : a ∈ l) : (f a).isSome := by
  induction l with
  | nil => simp at ha
  | cons b rest ih =>
    obtain ⟨values, hvalues⟩ := Option.isSome_iff_exists.mp h
    simp only [List.mapM_cons, Option.bind_eq_bind, Option.bind_eq_some_iff] at hvalues
    obtain ⟨value, hvalue, tail, htail, -⟩ := hvalues
    rcases List.mem_cons.mp ha with rfl | hrest
    · exact Option.isSome_iff_exists.mpr ⟨value, hvalue⟩
    · exact ih (Option.isSome_iff_exists.mpr ⟨tail, htail⟩) hrest

theorem underscore_notMem_of_parseHexLong {t : Text} (h : (parseHexLong t).isSome) : underscore ∉ t := by
  intro hmem
  have hunsigned : underscore ∈ if t.head? = some 0x2B then t.tail else t := by
    split
    · next hplus =>
      cases t with
      | nil => simp at hmem
      | cons c rest =>
        obtain rfl : c = 0x2B := by simpa using hplus
        exact (List.mem_cons.mp hmem).resolve_left (by decide)
    · exact hmem
  have hne : (if t.head? = some 0x2B then t.tail else t) ≠ [] := List.ne_nil_of_mem hunsigned
  obtain ⟨value, hvalue⟩ := Option.isSome_iff_exists.mp h
  simp only [parseHexLong, if_neg hne, Option.bind_eq_bind, Option.bind_eq_some_iff] at hvalue
  obtain ⟨digits, hdigits, -⟩ := hvalue
  have hdigit := isSome_of_mem_mapM (Option.isSome_iff_exists.mpr ⟨digits, hdigits⟩) hunsigned
  have hnone : hexDigitValue underscore = none := by decide
  simp [hnone] at hdigit

/-- The digits and the hyphens of an identifier that `UUID.fromString` accepts leave no underscore. -/
theorem underscore_notMem_of_uuid {name : Text} (h : (uuidFromString name).isSome) : underscore ∉ name := by
  intro hmem
  rw [← @List.intercalate_splitOn _ name _ _ 0x2D] at hmem
  obtain ⟨part, hpart, hmem⟩ := mem_of_mem_intercalate hmem (by decide)
  obtain ⟨value, hvalue⟩ := Option.isSome_iff_exists.mp h
  simp only [uuidFromString, Option.bind_eq_bind, Option.bind_eq_some_iff] at hvalue
  obtain ⟨components, hcomponents, -⟩ := hvalue
  have hparsed := isSome_of_mem_mapM (Option.isSome_iff_exists.mpr ⟨components, hcomponents⟩) hpart
  exact underscore_notMem_of_parseHexLong hparsed hmem

/-! ## File names -/

/-- The code points that a decoder puts for what it cannot read, and an encoder for what it cannot
write. -/
def replacement : CodePoint := 0xFFFD
def questionMark : CodePoint := 0x3F

/-- The first `limit` bytes of the UTF-8 of a text that is longer, read back as UTF-8. -/
def truncateUtf8 (limit : ℕ) (t : Text) : Text :=
  let encoded := t.map fun c ↦ if isSurrogate c then questionMark else c
  let whole := utf8Truncate limit encoded
  if (whole.map utf8Size).sum < limit then whole ++ [replacement] else whole

/-- The size in UTF-8, where a lone surrogate is written as a question mark. -/
def utf8Length (t : Text) : ℕ := (t.map fun c ↦ if isSurrogate c then 1 else utf8Size c).sum

def isHighSurrogate (c : CodePoint) : Bool := 0xD800 ≤ c.val && c.val ≤ 0xDBFF
def isLowSurrogate (c : CodePoint) : Bool := 0xDC00 ≤ c.val && c.val ≤ 0xDFFF

/-- The code point of a surrogate pair. -/
def joinPair (high low : CodePoint) : CodePoint :=
  Fin.ofNat _ (0x10000 + (high.val - 0xD800) * 0x400 + (low.val - 0xDC00))

/-- A surrogate pair is one code point, also where the two `Char`s became neighbours only by the removal
of what stood between them. -/
def joinPairs : Text → Text
  | high :: low :: rest =>
    if isHighSurrogate high ∧ isLowSurrogate low then joinPair high low :: joinPairs rest
    else high :: joinPairs (low :: rest)
  | t => t

/-- The Kotlin `sanitiseFilename`. -/
def sanitiseFilename (raw : Text) : Text :=
  let slashed := (raw.map fun c ↦ if c = backslash then slash else c).filter (· ≠ 0)
  let name := lstrip [dot, slash] (basename slashed)
  let name := joinPairs (name.filter fun c ↦ 32 ≤ c.val ∧ c.val ≠ 127)
  let name := if maxFileNameBytes < utf8Length name then truncateUtf8 maxFileNameBytes name else name
  if isBlank name ∨ name = dotText ∨ name = dotdot then []
  else if asciiUpper (name.takeWhile (· ≠ dot)) ∈ reservedNames then []
  else name

/-! ## Metadata -/

/-- The Kotlin `TransferMetadata`. -/
structure TransferMetadata where
  transferId : Text
  fileName : Text
  fileSize : ℤ
  mimeType : Text
  sha256 : Text
  chunkSize : ℤ
  chunkCount : ℤ
  senderIdentity : Text
  createdAt : ℤ
  protocolVersion : ℤ
  batchId : Text
  relativePath : Text
  deriving DecidableEq

/-- A value of the map, where an absent field is one of the others.  Of a `Number` what its `toInt` and
its `toLong` return. -/
inductive MapValue
  | string (t : Text)
  | number (toInt toLong : ℤ)
  | other

namespace MapValue

/-- `(value as? String) ?: default`. -/
def textOr (default : Text) : MapValue → Text
  | string t => t
  | _ => default

/-- A field of type `Int`. -/
def intOr (default : ℤ) : MapValue → ℤ
  | number toInt _ => toInt
  | _ => default

/-- A field of type `Long`. -/
def longOr (default : ℤ) : MapValue → ℤ
  | number _ toLong => toLong
  | _ => default

end MapValue

namespace TransferMetadata

/-- `Long.toInt`. -/
def toInt32 (n : ℤ) : ℤ := n.bmod (2 ^ 32)

/-- `expectedChunks`, where a count past the range of `Int` wraps around. -/
def expectedChunks (fileSize chunkSize : ℤ) : ℤ :=
  if 0 < fileSize then toInt32 ((fileSize + chunkSize - 1) / chunkSize) else 0

/-- `TransferMetadata.fromMap`, at the time `now`. -/
def fromMap (now : ℤ) (data : String → MapValue) : Except KotlinException TransferMetadata := do
  let transferId := (data "transfer_id").textOr []
  rejectIf (transferId = []) (.illegalArgument .emptyTransferId)
  rejectIf ((uuidFromString transferId).isNone) (.illegalArgument (.invalidUuid transferId))
  let rawName := (data "file_name").textOr []
  let fileName := sanitiseFilename rawName
  rejectIf (fileName = []) (.illegalArgument (.emptyFileName rawName))
  let fileSize := (data "file_size").longOr 0
  rejectIf (fileSize < 0) (.illegalArgument (.negativeFileSize fileSize))
  rejectIf (maxFileSize < fileSize) (.illegalArgument (.fileSizeLimit fileSize))
  let chunkSize := (data "chunk_size").intOr chunkSizeDefault
  rejectIf (chunkSize < 1 ∨ chunkSizeDefault < chunkSize) (.illegalArgument (.chunkSizeRange chunkSize))
  let chunkCount := (data "chunk_count").intOr (-1)
  let expected := expectedChunks fileSize chunkSize
  rejectIf (chunkCount ≠ expected) (.illegalArgument (.chunkCount chunkCount expected))
  let sha256 := (data "sha256").textOr []
  rejectIf (sha256.length ≠ 64 ∨ ¬sha256.all Ferry.TransferMetadata.isHexDigit)
    (.illegalArgument (.invalidSha256 sha256))
  return {
    transferId
    fileName
    fileSize
    mimeType := (data "mime_type").textOr (lit "application/octet-stream")
    sha256 := asciiLower sha256
    chunkSize
    chunkCount
    senderIdentity := (data "sender_identity").textOr []
    createdAt := (data "created_at").longOr now
    protocolVersion := (data "protocol_version").intOr 1
    batchId := (data "batch_id").textOr []
    relativePath := (data "relative_path").textOr [] }

/-- What `org.json` makes of an integer literal: an `Int` or a `Long`, or else a `Double`, whose conversions
stop at the ends of their range. -/
def integerValue (n : ℤ) : MapValue :=
  if -2 ^ 63 ≤ n ∧ n < 2 ^ 63 then .number (toInt32 n) n
  else if n < 0 then .number (-2 ^ 31) (-2 ^ 63)
  else .number (2 ^ 31 - 1) (2 ^ 63 - 1)

/-- A field of the object that is a string or an integer, or not there. -/
def fieldValue : Option JsonValue → MapValue
  | some (.str t) => .string t
  | some (.int n) => integerValue n
  | _ => .other

/-- `fromJson`, of an object whose fields are strings and integers. -/
def fromJson (now : ℤ) (payload : Payload) : Except KotlinException TransferMetadata :=
  fromMap now fun key ↦ fieldValue (payload.get key)

/-- `toJson`. -/
def toJson (metadata : TransferMetadata) : Payload :=
  [(lit "transfer_id", .str metadata.transferId), (lit "file_name", .str metadata.fileName),
   (lit "file_size", .int metadata.fileSize), (lit "mime_type", .str metadata.mimeType),
   (lit "sha256", .str metadata.sha256), (lit "chunk_size", .int metadata.chunkSize),
   (lit "chunk_count", .int metadata.chunkCount), (lit "sender_identity", .str metadata.senderIdentity),
   (lit "created_at", .int metadata.createdAt), (lit "protocol_version", .int metadata.protocolVersion),
   (lit "batch_id", .str metadata.batchId), (lit "relative_path", .str metadata.relativePath)]

/-- What `fromMap` has checked of the identifier and of the digest. -/
theorem fromMap_checked {now : ℤ} {data : String → MapValue} {metadata : TransferMetadata}
    (h : fromMap now data = .ok metadata) :
    (uuidFromString metadata.transferId).isSome ∧ asciiLower metadata.sha256 = metadata.sha256 := by
  simp only [fromMap, bind_eq_ok, rejectIf_eq_ok] at h
  obtain ⟨-, -, -, huuid, -, -, -, -, -, -, -, -, -, -, -, -, hmetadata⟩ := h
  obtain rfl := Except.ok.inj hmetadata
  refine ⟨?_, asciiLower_asciiLower _⟩
  rwa [Bool.not_eq_true, Option.isNone_eq_false_iff] at huuid

theorem fromMap_batchId {now : ℤ} {data : String → MapValue} {metadata : TransferMetadata}
    (h : fromMap now data = .ok metadata) : metadata.batchId = (data "batch_id").textOr [] := by
  simp only [fromMap, bind_eq_ok, rejectIf_eq_ok] at h
  obtain ⟨-, -, -, -, -, -, -, -, -, -, -, -, -, -, -, -, hmetadata⟩ := h
  obtain rfl := Except.ok.inj hmetadata
  rfl

end TransferMetadata

end Kotlin

end Ferry
