import Ferry.Android.ChunkCodec
import Ferry.Android.SafeNames
import Ferry.Transfer.Confinement
import Mathlib.Tactic.FinCases

/-!
# The two validators of a request

`TransferMetadata.from_dict` and `TransferMetadata.fromJson` on payloads whose fields have the documented
types.  Both are brought into one form, a conjunction of checks and the record that is built; the forms
agree where the integers fit the types of the client and where the client makes the checks of the service.
-/

namespace Ferry

open Text

/-! ## Documented payloads -/

def textFields : List String :=
  ["transfer_id", "file_name", "mime_type", "sha256", "sender_identity", "batch_id", "relative_path"]

def integerFields : List String :=
  ["file_size", "chunk_size", "chunk_count", "created_at", "protocol_version"]

/-- A payload whose fields are strings and integers of any size, or missing. -/
structure Documented (payload : Payload) : Prop where
  texts : ∀ key ∈ textFields, payload.get key = none ∨ ∃ t, payload.get key = some (.str t)
  integers : ∀ key ∈ integerFields, payload.get key = none ∨ ∃ n, payload.get key = some (.int n)

/-- The integer of a field, or the default of a missing one. -/
def Payload.intField (payload : Payload) (key : String) (default : ℤ) : ℤ :=
  match payload.get key with
  | some (.int n) => n
  | _ => default

def FitsInt (n : ℤ) : Prop := -2 ^ 31 ≤ n ∧ n < 2 ^ 31
def FitsLong (n : ℤ) : Prop := -2 ^ 63 ≤ n ∧ n < 2 ^ 63

theorem toInt32_of_fits {n : ℤ} (h : FitsInt n) : Kotlin.TransferMetadata.toInt32 n = n := by
  obtain ⟨hlower, hupper⟩ := h
  rw [Kotlin.TransferMetadata.toInt32, Int.bmod_def]
  split <;> omega

namespace Documented

variable {payload : Payload} (h : Documented payload) (key : String)
include h

theorem getInt (hkey : key ∈ integerFields) (default : ℤ) :
    payload.getInt key default = .ok (payload.intField key default) := by
  unfold Payload.getInt Payload.intField
  rcases h.integers key hkey with hnone | ⟨n, hn⟩
  · rw [hnone]
  · rw [hn]
    rfl

theorem textOr (hkey : key ∈ textFields) (default : String) :
    (Kotlin.TransferMetadata.fieldValue (payload.get key)).textOr (lit default) =
      payload.getText key default := by
  unfold Payload.getText
  rcases h.texts key hkey with hnone | ⟨t, ht⟩
  · rw [hnone]
    rfl
  · rw [ht]
    rfl

theorem intOr (hkey : key ∈ integerFields) {default : ℤ} (hfits : FitsInt (payload.intField key default)) :
    (Kotlin.TransferMetadata.fieldValue (payload.get key)).intOr default =
      payload.intField key default := by
  unfold Payload.intField at hfits ⊢
  rcases h.integers key hkey with hnone | ⟨n, hn⟩
  · rw [hnone]
    rfl
  · rw [hn] at hfits ⊢
    dsimp only at hfits
    have hlong : -2 ^ 63 ≤ n ∧ n < 2 ^ 63 := by
      unfold FitsInt at hfits
      omega
    dsimp only [Kotlin.TransferMetadata.fieldValue, Kotlin.TransferMetadata.integerValue]
    rw [if_pos hlong]
    exact toInt32_of_fits hfits

theorem longOr (hkey : key ∈ integerFields) {default : ℤ}
    (hfits : FitsLong (payload.intField key default)) :
    (Kotlin.TransferMetadata.fieldValue (payload.get key)).longOr default =
      payload.intField key default := by
  unfold Payload.intField at hfits ⊢
  rcases h.integers key hkey with hnone | ⟨n, hn⟩
  · rw [hnone]
    rfl
  · rw [hn] at hfits ⊢
    have hlong : -2 ^ 63 ≤ n ∧ n < 2 ^ 63 := hfits
    dsimp only [Kotlin.TransferMetadata.fieldValue, Kotlin.TransferMetadata.integerValue]
    rw [if_pos hlong]
    rfl

/-- A size that does not fit a `Long` is out of range for both. -/
theorem longOr_inRange_iff (hkey : key ∈ integerFields) :
    (0 ≤ (Kotlin.TransferMetadata.fieldValue (payload.get key)).longOr 0 ∧
        (Kotlin.TransferMetadata.fieldValue (payload.get key)).longOr 0 ≤ maxFileSize) ↔
      0 ≤ payload.intField key 0 ∧ payload.intField key 0 ≤ maxFileSize := by
  by_cases hfits : FitsLong (payload.intField key 0)
  · rw [h.longOr key hkey hfits]
  · unfold Payload.intField at hfits ⊢
    rcases h.integers key hkey with hnone | ⟨n, hn⟩
    · rw [hnone] at hfits
      exact absurd (by unfold FitsLong; decide) hfits
    · rw [hn] at hfits ⊢
      dsimp only [FitsLong] at hfits
      dsimp only [Kotlin.TransferMetadata.fieldValue, Kotlin.TransferMetadata.integerValue]
      rw [if_neg hfits]
      unfold maxFileSize
      split
      · dsimp only [Kotlin.MapValue.longOr]
        omega
      · dsimp only [Kotlin.MapValue.longOr]
        omega

end Documented

/-! ## The form of `from_dict` -/

/-- Sixty-four hexadecimal digits. -/
def IsDigest (t : Text) : Prop := t.length = 64 ∧ t.all TransferMetadata.isHexDigit

/-- The chunk count that the sizes of a payload ask for. -/
def Payload.expectedChunks (payload : Payload) : ℤ :=
  TransferMetadata.expectedChunks (payload.intField "file_size" 0)
    (payload.intField "chunk_size" chunkSizeDefault)

/-- The checks of the sizes. -/
def Payload.InRange (payload : Payload) : Prop :=
  0 ≤ payload.intField "file_size" 0 ∧ payload.intField "file_size" 0 ≤ maxFileSize ∧
    0 < payload.intField "chunk_size" chunkSizeDefault ∧
    payload.intField "chunk_size" chunkSizeDefault ≤ 65536

/-- The checks of the sizes and of the chunk count. -/
def Payload.SizesFit (payload : Payload) : Prop :=
  payload.InRange ∧ payload.intField "chunk_count" (-1) = payload.expectedChunks

namespace TransferMetadata

/-- What `from_dict` builds. -/
def record (now : ℤ) (payload : Payload) (fileName relativePath : Text) : TransferMetadata where
  transferId := payload.getText "transfer_id" ""
  fileName
  fileSize := payload.intField "file_size" 0
  mimeType := payload.getText "mime_type" "application/octet-stream"
  sha256 := asciiLower (payload.getText "sha256" "")
  chunkSize := payload.intField "chunk_size" chunkSizeDefault
  chunkCount := payload.intField "chunk_count" (-1)
  senderIdentity := payload.getText "sender_identity" ""
  createdAt := payload.intField "created_at" now
  protocolVersion := payload.intField "protocol_version" 1
  batchId := payload.getText "batch_id" ""
  relativePath

theorem fromDict_iff {now : ℤ} {payload : Payload} {metadata : TransferMetadata} (h : Documented payload) :
    fromDict now payload = .ok metadata ↔ payload.get "file_size" ≠ none ∧
      (∃ n, uuidInt (payload.getText "transfer_id" "") = .ok n) ∧ payload.SizesFit ∧
      IsDigest (payload.getText "sha256" "") ∧ ∃ fileName relativePath,
        sanitiseFilename (payload.getText "file_name" "") = .ok fileName ∧ fileName ≠ [] ∧
        checkRelativePath (payload.getText "relative_path" "") = .ok relativePath ∧
        metadata = record now payload fileName relativePath := by
  have hid : ∀ tid, (payload.get "transfer_id").map JsonValue.toText = some tid →
      tid = payload.getText "transfer_id" "" := by
    intro tid htid
    obtain ⟨value, hvalue, rfl⟩ := Option.map_eq_some_iff.mp htid
    rw [Payload.getText, hvalue]
  have hthere : (∃ n, uuidInt (payload.getText "transfer_id" "") = .ok n) →
      (payload.get "transfer_id").map JsonValue.toText = some (payload.getText "transfer_id" "") := by
    rintro ⟨n, hn⟩
    unfold Payload.getText at hn ⊢
    cases hvalue : payload.get "transfer_id" with
    | none =>
      have hempty : uuidInt (lit "") = .error (.value .badlyFormedUuid) := by decide
      rw [hvalue] at hn
      exact nomatch hempty.symm.trans hn
    | some value => rfl
  have hsize : ∀ value, payload.get "file_size" = some value →
      value.toInt.mapError PyError.ofInt = .ok (payload.intField "file_size" 0) := by
    intro value hvalue
    rcases h.integers "file_size" (by decide) with hnone | ⟨n, hn⟩
    · exact nomatch hnone.symm.trans hvalue
    · rw [Payload.intField, hn]
      rw [hn] at hvalue
      obtain rfl := Option.some.inj hvalue
      rfl
  have hchunk := h.getInt "chunk_size" (by decide) chunkSizeDefault
  have hcount := h.getInt "chunk_count" (by decide) (-1)
  have hcreated := h.getInt "created_at" (by decide) now
  have hversion := h.getInt "protocol_version" (by decide) 1
  unfold fromDict
  simp only [bind_eq_ok, rejectIf_eq_ok, require_eq_ok, hchunk, hcount, hcreated, hversion]
  constructor
  · rintro ⟨tid, htid, n, huuid, fileName, hname, -, hnamed, relativePath, hrelative, value, hvalue, size,
      hvalued, -, hnonneg, -, hlimit, chunk, hchunk', -, hrange, count, hcount', -, hexpected, -, hdigest,
      created, hcreated', version, hversion', hresult⟩
    obtain rfl := Except.ok.inj hchunk'
    obtain rfl := Except.ok.inj hcount'
    obtain rfl := Except.ok.inj hcreated'
    obtain rfl := Except.ok.inj hversion'
    obtain rfl := hid tid htid
    obtain rfl := Except.ok.inj ((hsize value hvalue).symm.trans hvalued)
    obtain ⟨hpos, hle⟩ := not_or.mp hrange
    obtain ⟨hlength, hhex⟩ := not_or.mp hdigest
    refine ⟨by simp [hvalue], ⟨n, huuid⟩, ⟨⟨not_lt.mp hnonneg, not_lt.mp hlimit, not_le.mp hpos,
      not_lt.mp hle⟩, not_not.mp hexpected⟩, ⟨not_not.mp hlength, not_not.mp hhex⟩, fileName, relativePath,
      hname, hnamed, hrelative, (Except.ok.inj hresult).symm⟩
  · rintro ⟨hvalue, ⟨n, huuid⟩, ⟨⟨hnonneg, hlimit, hpos, hle⟩, hexpected⟩, ⟨hlength, hhex⟩, fileName,
      relativePath, hname, hnamed, hrelative, rfl⟩
    obtain ⟨value, hvalue⟩ := Option.ne_none_iff_exists'.mp hvalue
    exact ⟨_, hthere ⟨n, huuid⟩, n, huuid, fileName, hname, (), hnamed, relativePath, hrelative, value, hvalue,
      _, hsize value hvalue, (), not_lt.mpr hnonneg, (), not_lt.mpr hlimit, _, rfl, (),
      not_or.mpr ⟨not_le.mpr hpos, not_lt.mpr hle⟩, _, rfl, (), not_not.mpr hexpected, (),
      not_or.mpr ⟨not_not.mpr hlength, not_not.mpr hhex⟩, _, rfl, _, rfl, rfl⟩

end TransferMetadata

/-! ## The form of `fromJson` -/

/-- The integers of the sizes, and the chunk count that they ask for, fit an `Int`. -/
structure Payload.FitsSizes (payload : Payload) : Prop where
  chunkSize : FitsInt (payload.intField "chunk_size" chunkSizeDefault)
  chunkCount : FitsInt (payload.intField "chunk_count" (-1))
  expected : payload.InRange → FitsInt payload.expectedChunks

namespace Kotlin.TransferMetadata

/-- What `fromJson` builds. -/
def record (now : ℤ) (payload : Payload) : TransferMetadata where
  transferId := payload.getText "transfer_id" ""
  fileName := sanitiseFilename (payload.getText "file_name" "")
  fileSize := payload.intField "file_size" 0
  mimeType := payload.getText "mime_type" "application/octet-stream"
  sha256 := asciiLower (payload.getText "sha256" "")
  chunkSize := payload.intField "chunk_size" chunkSizeDefault
  chunkCount := payload.intField "chunk_count" (-1)
  senderIdentity := payload.getText "sender_identity" ""
  createdAt := (fieldValue (payload.get "created_at")).longOr now
  protocolVersion := (fieldValue (payload.get "protocol_version")).intOr 1
  batchId := payload.getText "batch_id" ""
  relativePath := payload.getText "relative_path" ""

/-- `expectedChunks` of the client, which divides as Linux does and wraps the quotient. -/
theorem expectedChunks_eq (fileSize chunkSize : ℤ) : expectedChunks fileSize chunkSize =
    toInt32 (Ferry.TransferMetadata.expectedChunks fileSize chunkSize) := by
  unfold expectedChunks Ferry.TransferMetadata.expectedChunks
  split
  · rfl
  · rfl

theorem uuidFromString_nil : uuidFromString [] = none := by decide

theorem fromJson_iff {now : ℤ} {payload : Payload} {metadata : TransferMetadata} (h : Documented payload)
    (hfits : payload.FitsSizes) :
    fromJson now payload = .ok metadata ↔
      (uuidFromString (payload.getText "transfer_id" "")).isSome ∧ payload.SizesFit ∧
      IsDigest (payload.getText "sha256" "") ∧ sanitiseFilename (payload.getText "file_name" "") ≠ [] ∧
      metadata = record now payload := by
  have hid := h.textOr "transfer_id" (by decide) ""
  have hname := h.textOr "file_name" (by decide) ""
  have hmime := h.textOr "mime_type" (by decide) "application/octet-stream"
  have hsha := h.textOr "sha256" (by decide) ""
  have hsender := h.textOr "sender_identity" (by decide) ""
  have hbatch := h.textOr "batch_id" (by decide) ""
  have hrelative := h.textOr "relative_path" (by decide) ""
  have hchunk := h.intOr "chunk_size" (by decide) hfits.chunkSize
  have hcount := h.intOr "chunk_count" (by decide) hfits.chunkCount
  have hsize := h.longOr_inRange_iff "file_size" (by decide)
  have hexact (hrange : 0 ≤ payload.intField "file_size" 0 ∧ payload.intField "file_size" 0 ≤ maxFileSize) :
      (fieldValue (payload.get "file_size")).longOr 0 = payload.intField "file_size" 0 := by
    refine h.longOr "file_size" (by decide) ?_
    unfold FitsLong
    unfold maxFileSize at hrange
    omega
  have hnil : lit "" = [] := rfl
  rw [hnil] at hid hname hsha hsender hbatch hrelative
  unfold fromJson fromMap
  simp only [bind_eq_ok, rejectIf_eq_ok, hid, hname, hmime, hsha, hsender, hbatch, hrelative, hchunk,
    hcount, expectedChunks_eq]
  constructor
  · rintro ⟨-, -, -, huuid, -, hnamed, -, hnonneg, -, hlimit, -, hrange, -, hexpected, -, hdigest, hresult⟩
    have hin := hsize.mp ⟨not_lt.mp hnonneg, not_lt.mp hlimit⟩
    rw [hexact hin] at hexpected hresult
    obtain ⟨hpos, hle⟩ := not_or.mp hrange
    obtain ⟨hlength, hhex⟩ := not_or.mp hdigest
    have hinRange : payload.InRange := ⟨hin.1, hin.2, by omega, not_lt.mp hle⟩
    have hwraps := toInt32_of_fits (hfits.expected hinRange)
    rw [Bool.not_eq_true, Option.isNone_eq_false_iff] at huuid
    exact ⟨huuid, ⟨hinRange, (not_not.mp hexpected).trans hwraps⟩, ⟨not_not.mp hlength, not_not.mp hhex⟩,
      hnamed, (Except.ok.inj hresult).symm⟩
  · rintro ⟨huuid, ⟨hinRange, hexpected⟩, ⟨hlength, hhex⟩, hnamed, rfl⟩
    obtain ⟨hnonneg, hlimit, hpos, hle⟩ := hinRange
    have hin := hsize.mpr ⟨hnonneg, hlimit⟩
    have hwraps := toInt32_of_fits (hfits.expected ⟨hnonneg, hlimit, hpos, hle⟩)
    have hne : payload.getText "transfer_id" "" ≠ [] := by
      intro hempty
      rw [hempty, uuidFromString_nil] at huuid
      exact nomatch huuid
    have huuid' : ¬((uuidFromString (payload.getText "transfer_id" "")).isNone = true) := by
      rw [Bool.not_eq_true, Option.isNone_eq_false_iff]
      exact huuid
    refine ⟨(), hne, (), huuid', (), hnamed, (), not_lt.mpr hin.1, (), not_lt.mpr hin.2, (),
      not_or.mpr ⟨by omega, not_lt.mpr hle⟩, (), ?_, (),
      not_or.mpr ⟨not_not.mpr hlength, not_not.mpr hhex⟩, ?_⟩
    · rw [hexact ⟨hnonneg, hlimit⟩]
      exact not_not.mpr (hexpected.trans hwraps.symm)
    · rw [hexact ⟨hnonneg, hlimit⟩]
      rfl

end Kotlin.TransferMetadata

/-! ## Agreement -/

/-- A name on which the two sanitisers agree: neither a lone surrogate nor a cut, and not only blanks. -/
structure PlainlyNamed (raw : Text) : Prop where
  encodable : ¬(bareName raw).any isSurrogate
  short : utf8Bytes (bareName raw) ≤ 255
  visible : isBlank (bareName raw) → bareName raw = []

theorem PlainlyNamed.cutName {raw : Text} (h : PlainlyNamed raw) :
    Kotlin.cutName (Kotlin.joinPairs (bareName raw)) = bareName raw := by
  have hnone : ∀ c ∈ bareName raw, ¬isSurrogate c :=
    fun c hc hsurrogate ↦ h.encodable (List.any_eq_true.mpr ⟨c, hc, hsurrogate⟩)
  rw [Kotlin.joinPairs_of_no_surrogate hnone, Kotlin.cutName, if_neg]
  rw [Kotlin.utf8Length_of_no_surrogate hnone]
  exact not_lt.mpr h.short

theorem PlainlyNamed.sanitised {raw : Text} (h : PlainlyNamed raw) :
    sanitiseFilename raw = .ok (Kotlin.sanitiseFilename raw) := by
  rw [sanitiseFilename_eq, if_neg h.encodable, utf8Truncate_eq_self h.short, Kotlin.sanitiseFilename_eq,
    h.cutName]
  by_cases hreserved : IsReserved (stemOf (bareName raw))
  · rw [if_pos hreserved, if_pos hreserved, ite_self]
  · rw [if_neg hreserved, if_neg hreserved]
    have hsame : (bareName raw = [] ∨ DotsOnly (bareName raw)) ↔
        (isBlank (bareName raw) ∨ DotsOnly (bareName raw)) := by
      refine or_congr_left ⟨fun hempty ↦ ?_, h.visible⟩
      rw [hempty]
      rfl
    by_cases hempty : bareName raw = [] ∨ DotsOnly (bareName raw)
    · rw [if_pos hempty, if_pos (hsame.mp hempty)]
    · rw [if_neg hempty, if_neg (mt hsame.mpr hempty)]

/-- The checks that only one of the two makes pass, and the integers fit the types of the client. -/
structure Common (payload : Payload) : Prop extends Documented payload, payload.FitsSizes where
  fileSize : payload.get "file_size" ≠ none
  uuid : (∃ n, uuidInt (payload.getText "transfer_id" "") = .ok n) ↔
    (Kotlin.uuidFromString (payload.getText "transfer_id" "")).isSome
  name : PlainlyNamed (payload.getText "file_name" "")
  relativePath : ∃ relativePath,
    TransferMetadata.checkRelativePath (payload.getText "relative_path" "") = .ok relativePath

/-- The six fields that a transfer depends on. -/
structure SameTransfer (linux : TransferMetadata) (android : Kotlin.TransferMetadata) : Prop where
  fileName : linux.fileName = android.fileName
  fileSize : linux.fileSize = android.fileSize
  chunkSize : linux.chunkSize = android.chunkSize
  chunkCount : linux.chunkCount = android.chunkCount
  sha256 : linux.sha256 = android.sha256
  transferId : linux.transferId = android.transferId

/-- All fields. -/
structure SameMetadata (linux : TransferMetadata) (android : Kotlin.TransferMetadata) : Prop
    extends SameTransfer linux android where
  mimeType : linux.mimeType = android.mimeType
  senderIdentity : linux.senderIdentity = android.senderIdentity
  createdAt : linux.createdAt = android.createdAt
  protocolVersion : linux.protocolVersion = android.protocolVersion
  batchId : linux.batchId = android.batchId
  relativePath : linux.relativePath = android.relativePath

/-- The two validators accept the same payloads and build the same transfer. -/
def Agrees (now : ℤ) (payload : Payload) : Prop :=
  (∀ linux, TransferMetadata.fromDict now payload = .ok linux →
    ∃ android, Kotlin.TransferMetadata.fromJson now payload = .ok android ∧ SameTransfer linux android) ∧
  ∀ android, Kotlin.TransferMetadata.fromJson now payload = .ok android →
    ∃ linux, TransferMetadata.fromDict now payload = .ok linux ∧ SameTransfer linux android

/-- Metadata that one side has accepted and written is read back unchanged by the other side. -/
def RoundTrips (now : ℤ) (payload : Payload) : Prop :=
  (∀ linux, TransferMetadata.fromDict now payload = .ok linux → ∃ android,
    Kotlin.TransferMetadata.fromJson now linux.toDict = .ok android ∧ SameMetadata linux android) ∧
  ∀ android, Kotlin.TransferMetadata.fromJson now payload = .ok android → ∃ linux,
    TransferMetadata.fromDict now android.toJson = .ok linux ∧ SameMetadata linux android

theorem sameTransfer_record (now now' : ℤ) (payload : Payload) (relativePath : Text) :
    SameTransfer (TransferMetadata.record now payload
      (Kotlin.sanitiseFilename (payload.getText "file_name" "")) relativePath)
      (Kotlin.TransferMetadata.record now' payload) :=
  ⟨rfl, rfl, rfl, rfl, rfl, rfl⟩

theorem Common.agrees {now : ℤ} {payload : Payload} (h : Common payload) : Agrees now payload := by
  have hlinux (linux) : TransferMetadata.fromDict now payload = .ok linux ↔ _ :=
    TransferMetadata.fromDict_iff h.toDocumented
  have handroid (android) : Kotlin.TransferMetadata.fromJson now payload = .ok android ↔ _ :=
    Kotlin.TransferMetadata.fromJson_iff h.toDocumented h.toFitsSizes
  constructor
  · intro linux haccept
    obtain ⟨-, huuid, hsizes, hdigest, fileName, relativePath, hname, hnamed, hrelative, rfl⟩ :=
      (hlinux linux).mp haccept
    obtain rfl := Except.ok.inj (h.name.sanitised.symm.trans hname)
    exact ⟨_, (handroid _).mpr ⟨h.uuid.mp huuid, hsizes, hdigest, hnamed, rfl⟩,
      sameTransfer_record now now payload relativePath⟩
  · intro android haccept
    obtain ⟨huuid, hsizes, hdigest, hnamed, rfl⟩ := (handroid android).mp haccept
    obtain ⟨relativePath, hrelative⟩ := h.relativePath
    exact ⟨_, (hlinux _).mpr ⟨h.fileSize, h.uuid.mpr huuid, hsizes, hdigest, _, relativePath,
      h.name.sanitised, hnamed, hrelative, rfl⟩, sameTransfer_record now now payload relativePath⟩

/-! ## Round trips -/

/-- The fields that one side would change when it reads them again: a name with a dot in front, a relative
path that is not in normal form, and integers that do not fit. -/
structure Stable (now : ℤ) (payload : Payload) : Prop where
  name : (bareName (payload.getText "file_name" "")).head? ≠ some dot ∨
    DotsOnly (bareName (payload.getText "file_name" ""))
  relativePath : TransferMetadata.checkRelativePath (payload.getText "relative_path" "") =
    .ok (payload.getText "relative_path" "")
  createdAt : FitsLong (payload.intField "created_at" now)
  protocolVersion : FitsInt (payload.intField "protocol_version" 1)

theorem isDigest_asciiLower {t : Text} (h : IsDigest t) : IsDigest (asciiLower t) := by
  refine ⟨by rw [asciiLower, List.length_map]; exact h.1, ?_⟩
  have hdigits : (lit "0123456789abcdefABCDEF").all fun c ↦
      (asciiLower [c]).all TransferMetadata.isHexDigit := by decide
  refine List.all_eq_true.mpr fun d hd ↦ ?_
  obtain ⟨c, hc, rfl⟩ := List.mem_map.mp hd
  have hdigit : c ∈ lit "0123456789abcdefABCDEF" := by
    simpa [TransferMetadata.isHexDigit] using List.all_eq_true.mp h.2 c hc
  have hlower := List.all_eq_true.mp hdigits c hdigit
  exact List.all_eq_true.mp hlower _ (List.mem_singleton_self _)

theorem documented_toDict (metadata : TransferMetadata) : Documented metadata.toDict where
  texts := by
    intro key hkey
    fin_cases hkey <;> exact .inr ⟨_, rfl⟩
  integers := by
    intro key hkey
    fin_cases hkey <;> exact .inr ⟨_, rfl⟩

theorem documented_toJson (metadata : Kotlin.TransferMetadata) : Documented metadata.toJson where
  texts := by
    intro key hkey
    fin_cases hkey <;> exact .inr ⟨_, rfl⟩
  integers := by
    intro key hkey
    fin_cases hkey <;> exact .inr ⟨_, rfl⟩

theorem sameMetadata_toDict {now : ℤ} {linux : TransferMetadata}
    (hname : Kotlin.sanitiseFilename linux.fileName = linux.fileName)
    (hsha256 : asciiLower linux.sha256 = linux.sha256) (hcreatedAt : FitsLong linux.createdAt)
    (hprotocol : FitsInt linux.protocolVersion) :
    SameMetadata linux (Kotlin.TransferMetadata.record now linux.toDict) where
  fileName := by
    have hread : linux.toDict.getText "file_name" "" = linux.fileName := rfl
    rw [Kotlin.TransferMetadata.record, hread, hname]
  fileSize := rfl
  chunkSize := rfl
  chunkCount := rfl
  sha256 := by
    have hread : linux.toDict.getText "sha256" "" = linux.sha256 := rfl
    rw [Kotlin.TransferMetadata.record, hread, hsha256]
  transferId := rfl
  mimeType := rfl
  senderIdentity := rfl
  createdAt := ((documented_toDict linux).longOr "created_at" (by decide) hcreatedAt).symm
  protocolVersion := ((documented_toDict linux).intOr "protocol_version" (by decide) hprotocol).symm
  batchId := rfl
  relativePath := rfl

theorem sameMetadata_toJson {now : ℤ} {android : Kotlin.TransferMetadata}
    (hsha256 : asciiLower android.sha256 = android.sha256) :
    SameMetadata (TransferMetadata.record now android.toJson android.fileName android.relativePath)
      android where
  fileName := rfl
  fileSize := rfl
  chunkSize := rfl
  chunkCount := rfl
  sha256 := by
    have hread : android.toJson.getText "sha256" "" = android.sha256 := rfl
    rw [TransferMetadata.record, hread, hsha256]
  transferId := rfl
  mimeType := rfl
  senderIdentity := rfl
  createdAt := rfl
  protocolVersion := rfl
  batchId := rfl
  relativePath := rfl

section RoundTrips

variable {now : ℤ} {payload : Payload} (h : Common payload) (hstable : Stable now payload)
include h hstable

/-- Both sanitisers keep the name that they made. -/
theorem Common.name_kept :
    sanitiseFilename (Kotlin.sanitiseFilename (payload.getText "file_name" "")) =
        .ok (Kotlin.sanitiseFilename (payload.getText "file_name" "")) ∧
      Kotlin.sanitiseFilename (Kotlin.sanitiseFilename (payload.getText "file_name" "")) =
        Kotlin.sanitiseFilename (payload.getText "file_name" "") := by
  set raw := payload.getText "file_name" "" with hraw
  have hnone : ∀ c ∈ bareName raw, ¬isSurrogate c :=
    fun c hc hsurrogate ↦ h.name.encodable (List.any_eq_true.mpr ⟨c, hc, hsurrogate⟩)
  have hjoined := Kotlin.joinPairs_of_no_surrogate hnone
  have hshort : Kotlin.utf8Length (bareName raw) ≤ 255 := by
    rw [Kotlin.utf8Length_of_no_surrogate hnone]
    exact h.name.short
  obtain ⟨linux, hlinux, -, hagain⟩ := (sanitises_iff raw).mpr ⟨h.name.encodable, hstable.name⟩
  obtain ⟨android, handroid, -, hagain'⟩ := (Kotlin.sanitises_iff raw).mpr (by
    rw [hjoined]
    exact ⟨hstable.name, .inl (.inl hshort)⟩)
  dsimp only at hlinux hagain handroid hagain'
  obtain rfl := Option.some.inj handroid
  rw [h.name.sanitised] at hlinux
  obtain rfl := Option.some.inj hlinux
  exact ⟨toOption_eq_some.mp hagain, Option.some.inj hagain'⟩

theorem Common.roundTrips : RoundTrips now payload := by
  obtain ⟨hlinuxName, handroidName⟩ := h.name_kept hstable
  constructor
  · intro linux haccept
    obtain ⟨-, huuid, hsizes, hdigest, fileName, relativePath, hname, hnamed, hrelative, hlinux⟩ :=
      (TransferMetadata.fromDict_iff h.toDocumented).mp haccept
    obtain rfl := Except.ok.inj (h.name.sanitised.symm.trans hname)
    obtain rfl := Except.ok.inj (hstable.relativePath.symm.trans hrelative)
    have hname : linux.fileName = Kotlin.sanitiseFilename (payload.getText "file_name" "") := by
      rw [hlinux, TransferMetadata.record]
    have hsha256 : linux.sha256 = asciiLower (payload.getText "sha256" "") := by
      rw [hlinux, TransferMetadata.record]
    have hcreatedAt : linux.createdAt = payload.intField "created_at" now := by
      rw [hlinux]
      rfl
    have hprotocol : linux.protocolVersion = payload.intField "protocol_version" 1 := by
      rw [hlinux]
      rfl
    have hkept : Kotlin.sanitiseFilename linux.fileName = linux.fileName := by
      rw [hname]
      exact handroidName
    have hlower : asciiLower linux.sha256 = linux.sha256 := by
      rw [hsha256]
      exact asciiLower_asciiLower _
    have hfits : linux.toDict.FitsSizes := by
      rw [hlinux]
      exact ⟨h.chunkSize, h.chunkCount, h.expected⟩
    have hfileName : linux.toDict.getText "file_name" "" = linux.fileName := rfl
    have hdigested : linux.toDict.getText "sha256" "" = linux.sha256 := rfl
    have haccepts : Kotlin.TransferMetadata.fromJson now linux.toDict =
        .ok (Kotlin.TransferMetadata.record now linux.toDict) := by
      refine (Kotlin.TransferMetadata.fromJson_iff (documented_toDict linux) hfits).mpr
        ⟨?_, ?_, ?_, ?_, rfl⟩
      · rw [hlinux]
        exact h.uuid.mp huuid
      · rw [hlinux]
        exact hsizes
      · rw [hdigested, hsha256]
        exact isDigest_asciiLower hdigest
      · rw [hfileName, hkept, hname]
        exact hnamed
    exact ⟨_, haccepts, sameMetadata_toDict hkept hlower (hcreatedAt ▸ hstable.createdAt)
      (hprotocol ▸ hstable.protocolVersion)⟩
  · intro android haccept
    obtain ⟨huuid, hsizes, hdigest, hnamed, handroid⟩ :=
      (Kotlin.TransferMetadata.fromJson_iff h.toDocumented h.toFitsSizes).mp haccept
    have hname : android.fileName = Kotlin.sanitiseFilename (payload.getText "file_name" "") := by
      rw [handroid, Kotlin.TransferMetadata.record]
    have hsha256 : android.sha256 = asciiLower (payload.getText "sha256" "") := by
      rw [handroid, Kotlin.TransferMetadata.record]
    have hrelative : android.relativePath = payload.getText "relative_path" "" := by
      rw [handroid]
      rfl
    have hlower : asciiLower android.sha256 = android.sha256 := by
      rw [hsha256]
      exact asciiLower_asciiLower _
    have hfileName : android.toJson.getText "file_name" "" = android.fileName := rfl
    have hdigested : android.toJson.getText "sha256" "" = android.sha256 := rfl
    have hrelativePath : android.toJson.getText "relative_path" "" = android.relativePath := rfl
    have haccepts : TransferMetadata.fromDict now android.toJson =
        .ok (TransferMetadata.record now android.toJson android.fileName android.relativePath) := by
      refine (TransferMetadata.fromDict_iff (documented_toJson android)).mpr ⟨nofun, ?_, ?_, ?_,
        android.fileName, android.relativePath, ?_, ?_, ?_, rfl⟩
      · rw [handroid]
        exact h.uuid.mpr huuid
      · rw [handroid]
        exact hsizes
      · rw [hdigested, hsha256]
        exact isDigest_asciiLower hdigest
      · rw [hfileName, hname]
        exact hlinuxName
      · rw [hname]
        exact hnamed
      · rw [hrelativePath, hrelative]
        exact hstable.relativePath
    exact ⟨_, haccepts, sameMetadata_toJson hlower⟩

end RoundTrips

section Sample

open IncomingTransfer (samplePayload)

theorem common_samplePayload : Common (samplePayload "photos/f.txt") where
  texts := by
    intro key hkey
    fin_cases hkey <;> first | exact .inl rfl | exact .inr ⟨_, rfl⟩
  integers := by
    intro key hkey
    fin_cases hkey <;> first | exact .inl rfl | exact .inr ⟨_, rfl⟩
  chunkSize := by
    unfold FitsInt
    decide
  chunkCount := by
    unfold FitsInt
    decide
  expected := fun _ ↦ by
    unfold FitsInt
    decide
  fileSize := by
    decide
  uuid := by
    have hlinux : (uuidInt ((samplePayload "photos/f.txt").getText "transfer_id" "")).toOption.isSome := by
      decide +kernel
    obtain ⟨n, hn⟩ := Option.isSome_iff_exists.mp hlinux
    exact iff_of_true ⟨n, toOption_eq_some.mp hn⟩ (by decide +kernel)
  name := ⟨by decide +kernel, by decide +kernel, by decide +kernel⟩
  relativePath := ⟨lit "photos/f.txt", by decide +kernel⟩

theorem stable_samplePayload : Stable 0 (samplePayload "photos/f.txt") where
  name := .inl (by decide +kernel)
  relativePath := by decide +kernel
  createdAt := by
    unfold FitsLong
    decide
  protocolVersion := by
    unfold FitsInt
    decide

/-- A request with fields in place of those of the sample. -/
def changedPayload (fields : Payload) : Payload := fields ++ samplePayload "photos/f.txt"

/-- A request for an empty file that does not name its size. -/
def sizelessPayload : Payload :=
  changedPayload [(lit "chunk_count", .int 0)] |>.filter fun field ↦ field.1 ≠ lit "file_size"

theorem not_agrees {now : ℤ} {payload : Payload}
    (h : (TransferMetadata.fromDict now payload).toOption.isSome ≠
      (Kotlin.TransferMetadata.fromJson now payload).toOption.isSome) : ¬Agrees now payload := by
  rintro ⟨hlinux, handroid⟩
  refine h (Bool.eq_iff_iff.mpr ⟨fun hsome ↦ ?_, fun hsome ↦ ?_⟩)
  · obtain ⟨linux, haccept⟩ := Option.isSome_iff_exists.mp hsome
    obtain ⟨android, haccept', -⟩ := hlinux linux (toOption_eq_some.mp haccept)
    exact Option.isSome_iff_exists.mpr ⟨android, toOption_eq_some.mpr haccept'⟩
  · obtain ⟨android, haccept⟩ := Option.isSome_iff_exists.mp hsome
    obtain ⟨linux, haccept', -⟩ := handroid android (toOption_eq_some.mp haccept)
    exact Option.isSome_iff_exists.mpr ⟨linux, toOption_eq_some.mpr haccept'⟩

end Sample

end Ferry
