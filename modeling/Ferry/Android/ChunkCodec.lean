import Ferry.Session.SecureChannel
import Ferry.Android.Transfers

/-!
# Chunk frames of the two implementations

The encoder and the decoder of the client beside those of the service.  The client reads UUIDs with
`UUID.fromString` and keeps the sequence number as a signed word, so the two agree on the canonical
texts and on the sequence numbers below the sign bit.  On arbitrary bytes the two decoders accept the
same plaintexts.
-/

namespace Ferry

open Text

/-! ## The encoder of the client -/

namespace Kotlin

/-- What `encodeChunkFrame` throws. -/
inductive EncodeError
  | chunkTooLarge (size : ℕ)
  | invalidUuid (name : Text)
  deriving DecidableEq

/-- `mostSignificantBits` of a parsed UUID, which keeps the low bits of each number. -/
def mostSignificantBits (components : List ℕ) : ℕ :=
  (components.getD 0 0 % 2 ^ 32 * 2 ^ 16 + components.getD 1 0 % 2 ^ 16) * 2 ^ 16 +
    components.getD 2 0 % 2 ^ 16

/-- `leastSignificantBits`. -/
def leastSignificantBits (components : List ℕ) : ℕ :=
  components.getD 3 0 % 2 ^ 16 * 2 ^ 48 + components.getD 4 0 % 2 ^ 48

/-- `ByteBuffer.putInt`. -/
def putInt (n : ℤ) : Bytes := toBigEndian 4 (n % 2 ^ 32).toNat

/-- `ByteBuffer.putLong`, of the bits of the number. -/
def putLong (bits : ℕ) : Bytes := toBigEndian 8 bits

/-- The Kotlin `encodeChunkFrame`. -/
def encodeChunkFrame (transferId : Text) (seq : ℤ) (data : Bytes) : Except EncodeError Bytes := do
  rejectIf (chunkSizeDefault < data.length) (.chunkTooLarge data.length)
  let uid ← require (.invalidUuid transferId) (uuidFromString transferId)
  return chunkMagic ++ putLong (mostSignificantBits uid) ++ putLong (leastSignificantBits uid) ++
    putInt seq ++ putInt data.length ++ data

end Kotlin

/-! ## Words -/

/-- A long numeral is two shorter ones. -/
theorem toBigEndian_add (width width' n : ℕ) :
    toBigEndian (width + width') n = toBigEndian width (n / 256 ^ width') ++ toBigEndian width' n := by
  have hhigh : ∀ i ∈ List.range width, UInt8.ofNat (n / 256 ^ (width + width' - 1 - i)) =
      UInt8.ofNat (n / 256 ^ width' / 256 ^ (width - 1 - i)) := by
    intro i hi
    have hlt := List.mem_range.mp hi
    rw [Nat.div_div_eq_div_mul, ← pow_add]
    congr 3
    omega
  have hlow : ∀ i ∈ List.range width', UInt8.ofNat (n / 256 ^ (width + width' - 1 - (width + i))) =
      UInt8.ofNat (n / 256 ^ (width' - 1 - i)) := by
    intro i hi
    have hlt := List.mem_range.mp hi
    congr 3
    omega
  rw [toBigEndian, List.range_add, List.map_append, List.map_congr_left hhigh, List.map_map]
  exact congrArg _ (List.map_congr_left hlow)

/-- Only the digits that are written count. -/
theorem toBigEndian_mod (width n : ℕ) : toBigEndian width (n % 256 ^ width) = toBigEndian width n := by
  apply List.map_congr_left
  intro i hi
  have hlt := List.mem_range.mp hi
  have hsplit : 256 ^ width = 256 ^ (width - 1 - i) * 256 ^ (i + 1) := by
    rw [← pow_add]
    congr 1
    omega
  have hdvd : 256 ∣ 256 ^ (i + 1) := dvd_pow_self 256 (Nat.succ_ne_zero i)
  apply UInt8.toNat_inj.mp
  calc
    _ = n % 256 ^ width / 256 ^ (width - 1 - i) % 256 := UInt8.toNat_ofNat'
    _ = n / 256 ^ (width - 1 - i) % 256 ^ (i + 1) % 256 := by
      rw [hsplit, Nat.mod_mul_right_div_self]
    _ = n / 256 ^ (width - 1 - i) % 256 := Nat.mod_mod_of_dvd _ hdvd
    _ = _ := UInt8.toNat_ofNat'.symm

/-- A word below the sign bit is its own `Int`. -/
theorem toInt32_of_lt {n : ℕ} (h : n < 2 ^ 31) : Kotlin.TransferMetadata.toInt32 n = n := by
  unfold Kotlin.TransferMetadata.toInt32
  rw [Int.bmod_eq_of_le] <;> omega

/-- A word and its `Int` are written alike. -/
theorem putInt_toInt32 {n : ℕ} (h : n < 2 ^ 32) :
    Kotlin.putInt (Kotlin.TransferMetadata.toInt32 n) = toBigEndian 4 n := by
  have hbits : (Kotlin.TransferMetadata.toInt32 n % 2 ^ 32).toNat = n := by
    have hmod : (n : ℤ).bmod (2 ^ 32) % ((2 ^ 32 : ℕ) : ℤ) = n % ((2 ^ 32 : ℕ) : ℤ) := Int.bmod_emod
    rw [Kotlin.TransferMetadata.toInt32]
    omega
  rw [Kotlin.putInt, hbits]

theorem putInt_natCast {n : ℕ} (h : n < 2 ^ 32) : Kotlin.putInt n = toBigEndian 4 n := by
  rw [Kotlin.putInt]
  congr 1
  omega

theorem toOption_eq_some {ε α : Type} {r : Except ε α} {a : α} : r.toOption = some a ↔ r = .ok a := by
  cases r with
  | error e => simp [Except.toOption]
  | ok b => simp [Except.toOption]

/-! ## The text of a UUID in the client -/

theorem parseHexLong_hexDigits {width n : ℕ} (hpos : 0 < width) (hn : n % 16 ^ width < 2 ^ 63) :
    Kotlin.parseHexLong (hexDigits width n) = some (n % 16 ^ width) := by
  have hne : hexDigits width n ≠ [] := List.ne_nil_of_length_pos (by simpa using hpos)
  have hplus : (hexDigits width n).head? ≠ some 0x2B := by
    intro h
    exact (hexDigits_plain (List.mem_of_head? h)).2.2 (by decide)
  have hdigit : ∀ i, Kotlin.hexDigitValue (Sha256.hexDigit i) = some (i % 16) := by
    intro i
    have hall : ∀ k < 16, Kotlin.hexDigitValue (Sha256.hexDigit k) = some k := by decide
    have hmod : Sha256.hexDigit i = Sha256.hexDigit (i % 16) := by simp [Sha256.hexDigit]
    rw [hmod]
    exact hall _ (Nat.mod_lt _ (by decide))
  have hdigits : (hexDigits width n).mapM Kotlin.hexDigitValue =
      some ((List.range width).map fun i ↦ n / 16 ^ (width - 1 - i) % 16) := by
    rw [hexDigits, List.mapM_map]
    simp only [Function.comp_def, hdigit]
    exact List.mapM_pure
  unfold Kotlin.parseHexLong
  simp only [if_neg hplus, if_neg hne, hdigits, Option.bind_eq_bind, Option.bind_some, foldl_digits,
    if_pos hn]

/-- Consecutive digits of a numeral. -/
theorem hexDigits_slice {width a b n : ℕ} (h : a + b ≤ width) :
    ((hexDigits width n).drop a).take b = hexDigits b (n / 16 ^ (width - a - b)) := by
  have hdigits : ∀ i ∈ List.range b, Sha256.hexDigit (n / 16 ^ (width - 1 - (a + i))) =
      Sha256.hexDigit (n / 16 ^ (width - a - b) / 16 ^ (b - 1 - i)) := by
    intro i hi
    have hlt := List.mem_range.mp hi
    rw [Nat.div_div_eq_div_mul, ← pow_add]
    congr 2
    congr 1
    omega
  have hrange : ((List.range width).drop a).take b = (List.range b).map (a + ·) := by
    apply List.ext_getElem
    · simp
      omega
    · intro i hi hi'
      simp
  rw [hexDigits, ← List.map_drop, ← List.map_take, hrange, List.map_map]
  exact List.map_congr_left hdigits

/-- The five numbers of the text of a UUID. -/
def uuidComponents (n : ℕ) : List ℕ :=
  [n / 16 ^ 24 % 16 ^ 8, n / 16 ^ 20 % 16 ^ 4, n / 16 ^ 16 % 16 ^ 4, n / 16 ^ 12 % 16 ^ 4, n % 16 ^ 12]

theorem dash_notMem_hexDigits (width n : ℕ) : (0x2D : CodePoint) ∉ hexDigits width n := by
  intro h
  exact (hexDigits_plain h).2.2 (by decide)

theorem uuidText_eq_intercalate (n : ℕ) :
    uuidText n = [(0x2D : CodePoint)].intercalate [hexDigits 8 (n / 16 ^ 24), hexDigits 4 (n / 16 ^ 20),
      hexDigits 4 (n / 16 ^ 16), hexDigits 4 (n / 16 ^ 12), hexDigits 12 n] := by
  have hfirst : (hexDigits 32 n).take 8 = hexDigits 8 (n / 16 ^ 24) :=
    hexDigits_slice (show 0 + 8 ≤ 32 by decide)
  have hsecond : ((hexDigits 32 n).drop 8).take 4 = hexDigits 4 (n / 16 ^ 20) :=
    hexDigits_slice (by decide)
  have hthird : ((hexDigits 32 n).drop 12).take 4 = hexDigits 4 (n / 16 ^ 16) :=
    hexDigits_slice (by decide)
  have hfourth : ((hexDigits 32 n).drop 16).take 4 = hexDigits 4 (n / 16 ^ 12) :=
    hexDigits_slice (by decide)
  have hlast : (hexDigits 32 n).drop 20 = hexDigits 12 n :=
    calc
      (hexDigits 32 n).drop 20 = ((hexDigits 32 n).drop 20).take 12 := by
        rw [List.take_of_length_le (by simp)]
      _ = hexDigits 12 (n / 16 ^ 0) := hexDigits_slice (by decide)
      _ = hexDigits 12 n := by rw [pow_zero, Nat.div_one]
  have hdash : lit "-" = [0x2D] := rfl
  rw [uuidText]
  simp only [hfirst, hsecond, hthird, hfourth, hlast, hdash]
  simp [List.intercalate]

@[simp] theorem length_uuidText (n : ℕ) : (uuidText n).length = 36 := by
  rw [uuidText_eq_intercalate]
  simp [List.intercalate]

/-- The text of a UUID parses to the five numbers. -/
theorem uuidFromString_uuidText (n : ℕ) : Kotlin.uuidFromString (uuidText n) = some (uuidComponents n) := by
  have hsplit : (uuidText n).splitOn 0x2D = [hexDigits 8 (n / 16 ^ 24), hexDigits 4 (n / 16 ^ 20),
      hexDigits 4 (n / 16 ^ 16), hexDigits 4 (n / 16 ^ 12), hexDigits 12 n] := by
    rw [uuidText_eq_intercalate]
    apply List.splitOn_intercalate
    · simp [dash_notMem_hexDigits]
    · simp
  have hparse : ∀ {width : ℕ}, 0 < width → width ≤ 12 → ∀ m,
      Kotlin.parseHexLong (hexDigits width m) = some (m % 16 ^ width) := by
    intro width hpos hle m
    apply parseHexLong_hexDigits hpos
    calc
      m % 16 ^ width < 16 ^ width := Nat.mod_lt _ (Nat.pow_pos (by decide))
      _ ≤ 16 ^ 12 := Nat.pow_le_pow_right (by decide) hle
      _ < 2 ^ 63 := by decide
  have hlength := length_uuidText n
  unfold Kotlin.uuidFromString
  simp [hsplit, hparse, hlength, uuidComponents]

theorem mostSignificantBits_uuidComponents {n : ℕ} (h : n < 2 ^ 128) :
    Kotlin.mostSignificantBits (uuidComponents n) = n / 256 ^ 8 := by
  simp only [Kotlin.mostSignificantBits, uuidComponents, List.getD_cons_zero, List.getD_cons_succ]
  omega

theorem leastSignificantBits_uuidComponents (n : ℕ) :
    Kotlin.leastSignificantBits (uuidComponents n) = n % 256 ^ 8 := by
  simp only [Kotlin.leastSignificantBits, uuidComponents, List.getD_cons_zero, List.getD_cons_succ]
  omega

/-! ## Encoding and decoding in the client -/

/-- The number of a UUID that the client has parsed. -/
def Kotlin.uuidNumber (components : List ℕ) : ℕ :=
  Kotlin.mostSignificantBits components * 2 ^ 64 + Kotlin.leastSignificantBits components

theorem uuidNumber_lt (components : List ℕ) : Kotlin.uuidNumber components < 2 ^ 128 := by
  unfold Kotlin.uuidNumber Kotlin.mostSignificantBits Kotlin.leastSignificantBits
  omega

theorem uuidNumber_uuidComponents {n : ℕ} (h : n < 2 ^ 128) :
    Kotlin.uuidNumber (uuidComponents n) = n := by
  rw [Kotlin.uuidNumber, mostSignificantBits_uuidComponents h, leastSignificantBits_uuidComponents]
  omega

theorem putLong_uuidNumber (components : List ℕ) :
    Kotlin.putLong (Kotlin.mostSignificantBits components) ++
      Kotlin.putLong (Kotlin.leastSignificantBits components) =
        toBigEndian 16 (Kotlin.uuidNumber components) := by
  have hlow : Kotlin.leastSignificantBits components < 256 ^ 8 := by
    unfold Kotlin.leastSignificantBits
    omega
  have hdiv : Kotlin.uuidNumber components / 256 ^ 8 = Kotlin.mostSignificantBits components := by
    rw [Kotlin.uuidNumber]
    omega
  have hmod : Kotlin.uuidNumber components % 256 ^ 8 = Kotlin.leastSignificantBits components := by
    rw [Kotlin.uuidNumber]
    omega
  rw [toBigEndian_add 8 8, hdiv, ← toBigEndian_mod 8 (Kotlin.uuidNumber components), hmod]
  rfl

/-- What the Kotlin `encodeChunkFrame` requires and returns. -/
theorem kotlin_encodeChunkFrame_eq_ok {transferId : Text} {seq : ℕ} {data plaintext : Bytes}
    (hseq : seq < 2 ^ 32) :
    Kotlin.encodeChunkFrame transferId (Kotlin.TransferMetadata.toInt32 seq) data = .ok plaintext ↔
      data.length ≤ maxChunkPayload ∧ ∃ uid, Kotlin.uuidFromString transferId = some uid ∧
        plaintext = layoutChunk (Kotlin.uuidNumber uid) seq data := by
  unfold Kotlin.encodeChunkFrame
  simp only [bind_eq_ok, rejectIf_eq_ok, require_eq_ok, not_lt, maxChunkPayload]
  constructor
  · rintro ⟨_, hlength, uid, huid, hplaintext⟩
    refine ⟨hlength, uid, huid, ?_⟩
    rw [← Except.ok.inj hplaintext, layoutChunk, ← putLong_uuidNumber, putInt_toInt32 hseq,
      putInt_natCast (lt_of_le_of_lt hlength (by decide))]
    simp only [List.append_assoc]
  · rintro ⟨hlength, uid, huid, rfl⟩
    refine ⟨(), hlength, uid, huid, congrArg _ ?_⟩
    rw [layoutChunk, ← putLong_uuidNumber, putInt_toInt32 hseq,
      putInt_natCast (lt_of_le_of_lt hlength (by decide))]
    simp only [List.append_assoc]

/-- The payload length of the client passes its three checks when the word is within the limit. -/
theorem toInt32_le_iff {n : ℕ} (h : n < 2 ^ 32) :
    (Kotlin.TransferMetadata.toInt32 n ≤ chunkSizeDefault ∧ 0 ≤ Kotlin.TransferMetadata.toInt32 n) ↔
      n ≤ maxChunkPayload := by
  rw [maxChunkPayload, chunkSizeDefault, Kotlin.TransferMetadata.toInt32, Int.bmod_def]
  split_ifs <;> omega

theorem toInt32_of_le {n : ℕ} (h : n ≤ maxChunkPayload) : Kotlin.TransferMetadata.toInt32 n = n := by
  rw [maxChunkPayload, chunkSizeDefault] at h
  exact toInt32_of_lt (by omega)

/-- What the Kotlin `decodeChunkFrame` requires and returns. -/
theorem kotlin_decodeChunkFrame_eq_ok {plaintext data : Bytes} {transferId : Text} {seq : ℤ} :
    Kotlin.decodeChunkFrame plaintext = .ok (transferId, seq, data) ↔ IsChunk plaintext ∧
      transferId = uuidText (ofBigEndian ((plaintext.drop 4).take 16)) ∧
      seq = Kotlin.TransferMetadata.toInt32 (ofBigEndian ((plaintext.drop 20).take 4)) ∧
      data = (plaintext.drop 28).take (ofBigEndian ((plaintext.drop 24).take 4)) := by
  set len := ofBigEndian ((plaintext.drop 24).take 4) with hlen
  have hword : len < 2 ^ 32 := by
    rw [hlen]
    exact header_lt (plaintext.drop 24)
  have hchecks := toInt32_le_iff hword
  unfold Kotlin.decodeChunkFrame
  simp only [bind_eq_ok, rejectIf_eq_ok]
  simp only [chunkHeaderSize, not_lt, ne_eq, not_not, Kotlin.getInt, ← hlen]
  constructor
  · rintro ⟨_, -, _, hmagic, _, hupper, _, hlength, _, hlower, hresult⟩
    have hle := hchecks.mp ⟨hupper, hlower⟩
    have hexact := toInt32_of_le hle
    rw [hexact] at hlength hresult
    rw [Int.toNat_natCast] at hresult
    have htriple := Except.ok.inj hresult
    rw [Prod.mk.injEq, Prod.mk.injEq] at htriple
    obtain ⟨hid, hseq, hdata⟩ := htriple
    have htotal : 28 + len ≤ plaintext.length := by omega
    exact ⟨⟨hmagic, hle, htotal⟩, hid.symm, hseq.symm, hdata.symm⟩
  · rintro ⟨hlayout, hid, hseq, hdata⟩
    have hle : len ≤ maxChunkPayload := hlayout.payloadLen
    have hlength : 28 + len ≤ plaintext.length := hlayout.length_le
    obtain ⟨hupper, hlower⟩ := hchecks.mpr hle
    have hexact := toInt32_of_le hle
    refine ⟨(), by omega, (), hlayout.magic, (), hupper, (), ?_, (), hlower, ?_⟩
    · rw [hexact]
      omega
    · rw [hexact, Int.toNat_natCast, hid, hseq, hdata]
      rfl

/-! ## The codecs of both -/

namespace Implementation

/-- Encode a frame, where `none` stands for an exception.  A negative number is a `struct.error`. -/
def encodeChunkFrame (impl : Implementation) (transferId : Text) (seq : ℤ) (data : Bytes) :
    Option Bytes :=
  match impl with
  | linux => if seq < 0 then none else (Ferry.encodeChunkFrame transferId seq.toNat data).toOption
  | android => (Kotlin.encodeChunkFrame transferId seq data).toOption

/-- Decode a frame: the identifier, the sequence number and the payload. -/
def decodeChunkFrame (impl : Implementation) (plaintext : Bytes) : Option (Text × ℤ × Bytes) :=
  match impl with
  | linux => (Ferry.decodeChunkFrame plaintext).toOption.map fun chunk ↦
      (chunk.transferId, (chunk.seq : ℤ), chunk.data)
  | android => (Kotlin.decodeChunkFrame plaintext).toOption

/-- The sequence number that an implementation has for a word. -/
def seqOfWord : Implementation → ℕ → ℤ
  | linux, word => word
  | android, word => Kotlin.TransferMetadata.toInt32 word

end Implementation

theorem seqOfWord_of_lt (impl : Implementation) {word : ℕ} (h : word < 2 ^ 31) :
    impl.seqOfWord word = word := by
  cases impl with
  | linux => rfl
  | android => exact toInt32_of_lt h

/-- What is decoded, in both implementations. -/
theorem decodeChunkFrame_eq_some (impl : Implementation) {plaintext data : Bytes} {transferId : Text}
    {seq : ℤ} :
    impl.decodeChunkFrame plaintext = some (transferId, seq, data) ↔ IsChunk plaintext ∧
      transferId = uuidText (ofBigEndian ((plaintext.drop 4).take 16)) ∧
      seq = impl.seqOfWord (ofBigEndian ((plaintext.drop 20).take 4)) ∧
      data = (plaintext.drop 28).take (ofBigEndian ((plaintext.drop 24).take 4)) := by
  cases impl with
  | linux =>
    rw [Implementation.decodeChunkFrame, Option.map_eq_some_iff]
    simp only [toOption_eq_some, decodeChunkFrame_eq_ok]
    constructor
    · rintro ⟨chunk, ⟨hlayout, rfl⟩, heq⟩
      rw [Prod.mk.injEq, Prod.mk.injEq] at heq
      obtain ⟨hid, hseq, hdata⟩ := heq
      exact ⟨hlayout, hid.symm, hseq.symm, hdata.symm⟩
    · rintro ⟨hlayout, hid, hseq, hdata⟩
      refine ⟨_, ⟨hlayout, rfl⟩, ?_⟩
      rw [hid, hseq, hdata]
      rfl
  | android =>
    rw [Implementation.decodeChunkFrame, toOption_eq_some]
    exact kotlin_decodeChunkFrame_eq_ok

/-! ## Round trips -/

section RoundTrip

variable {uid word : ℕ} {data : Bytes} (huid : uid < 2 ^ 128) (hword : word < 2 ^ 32)
  (hlength : data.length ≤ maxChunkPayload)

include huid hword hlength

theorem encodeChunkFrame_uuidText (impl : Implementation) :
    impl.encodeChunkFrame (uuidText uid) (impl.seqOfWord word) data = some (layoutChunk uid word data) := by
  cases impl with
  | linux =>
    have hseq : ¬(Implementation.linux.seqOfWord word : ℤ) < 0 := by
      rw [Implementation.seqOfWord]
      omega
    rw [Implementation.encodeChunkFrame, if_neg hseq, toOption_eq_some]
    exact encodeChunkFrame_eq_ok.mpr ⟨hlength, hword, uid, uuidInt_uuidText huid, rfl⟩
  | android =>
    rw [Implementation.encodeChunkFrame, toOption_eq_some]
    apply (kotlin_encodeChunkFrame_eq_ok hword).mpr
    refine ⟨hlength, uuidComponents uid, uuidFromString_uuidText uid, ?_⟩
    rw [uuidNumber_uuidComponents huid]

theorem decodeChunkFrame_layoutChunk (impl : Implementation) :
    impl.decodeChunkFrame (layoutChunk uid word data) =
      some (uuidText uid, impl.seqOfWord word, data) := by
  have hlen : data.length < 256 ^ 4 := lt_of_le_of_lt hlength (by decide)
  apply (decodeChunkFrame_eq_some impl).mpr
  refine ⟨isChunk_layoutChunk uid word hlength, ?_, ?_, ?_⟩
  · rw [uid_layoutChunk, ofBigEndian_toBigEndian (lt_of_lt_of_eq huid (by norm_num))]
  · rw [seq_layoutChunk, ofBigEndian_toBigEndian (lt_of_lt_of_eq hword (by norm_num))]
  · rw [len_layoutChunk, data_layoutChunk, ofBigEndian_toBigEndian hlen, List.take_length]

end RoundTrip

/-- A plaintext without bytes behind its payload is the layout of its parts. -/
theorem eq_layoutChunk {plaintext : Bytes} (h : IsChunk plaintext)
    (hlength : plaintext.length = 28 + ofBigEndian ((plaintext.drop 24).take 4)) :
    plaintext = layoutChunk (ofBigEndian ((plaintext.drop 4).take 16))
      (ofBigEndian ((plaintext.drop 20).take 4)) (plaintext.drop 28) := by
  have hword : ∀ {i k : ℕ}, i + k ≤ 28 → toBigEndian k (ofBigEndian ((plaintext.drop i).take k)) =
      (plaintext.drop i).take k := by
    intro i k hle
    have hsize : ((plaintext.drop i).take k).length = k := by
      rw [List.length_take, List.length_drop]
      omega
    have hvalue := toBigEndian_ofBigEndian ((plaintext.drop i).take k)
    rwa [hsize] at hvalue
  have hpayload : (plaintext.drop 28).length = ofBigEndian ((plaintext.drop 24).take 4) := by
    rw [List.length_drop]
    omega
  have hjoin : ∀ i k, (plaintext.drop i).take k ++ plaintext.drop (i + k) = plaintext.drop i := by
    intro i k
    rw [← List.drop_drop, List.take_append_drop]
  calc
    plaintext = plaintext.take 4 ++ plaintext.drop 4 := (List.take_append_drop 4 plaintext).symm
    _ = plaintext.take 4 ++ ((plaintext.drop 4).take 16 ++ ((plaintext.drop 20).take 4 ++
          ((plaintext.drop 24).take 4 ++ plaintext.drop 28))) := by
      rw [hjoin 24 4, hjoin 20 4, hjoin 4 16]
    _ = _ := by
      rw [layoutChunk, hpayload, hword (by decide), hword (by decide), hword (by decide), h.magic]

/-- Re-encoding what an implementation has decoded gives the plaintext, in the other implementation
when the number is below the sign bit. -/
theorem encode_decodeChunkFrame {enc dec : Implementation} {plaintext data : Bytes} {transferId : Text}
    {seq : ℤ} (h : dec.decodeChunkFrame plaintext = some (transferId, seq, data))
    (hlength : plaintext.length = 28 + data.length) (hseq : enc = dec ∨ 0 ≤ seq ∧ seq < 2 ^ 31) :
    enc.encodeChunkFrame transferId seq data = some plaintext := by
  obtain ⟨hlayout, rfl, hword, hdata⟩ := (decodeChunkFrame_eq_some dec).mp h
  have huid : ofBigEndian ((plaintext.drop 4).take 16) < 2 ^ 128 :=
    calc
      _ < 256 ^ ((plaintext.drop 4).take 16).length := ofBigEndian_lt _
      _ ≤ 256 ^ 16 := Nat.pow_le_pow_right (by decide) (List.length_take_le 16 _)
      _ = 2 ^ 128 := by norm_num
  have hsmall : ofBigEndian ((plaintext.drop 20).take 4) < 2 ^ 32 := header_lt (plaintext.drop 20)
  have hlen := hlayout.length_le
  have hsize : plaintext.length = 28 + ofBigEndian ((plaintext.drop 24).take 4) := by
    rw [hdata, List.length_take, List.length_drop] at hlength
    omega
  have hwhole : data = plaintext.drop 28 := by
    rw [hdata]
    apply List.take_of_length_le
    rw [List.length_drop]
    omega
  have hbound : data.length ≤ maxChunkPayload := by
    have hpayload := hlayout.payloadLen
    omega
  have hsame : enc.seqOfWord (ofBigEndian ((plaintext.drop 20).take 4)) = seq := by
    rcases hseq with rfl | hsign
    · exact hword.symm
    · have hdec : ofBigEndian ((plaintext.drop 20).take 4) < 2 ^ 31 := by
        cases dec with
        | linux =>
          rw [Implementation.seqOfWord] at hword
          omega
        | android =>
          rw [Implementation.seqOfWord, Kotlin.TransferMetadata.toInt32, Int.bmod_def] at hword
          split_ifs at hword <;> omega
      rw [hword, seqOfWord_of_lt enc hdec, seqOfWord_of_lt dec hdec]
  have hencode := encodeChunkFrame_uuidText huid hsmall hbound enc
  rw [hsame] at hencode
  rw [hencode, hwhole, ← eq_layoutChunk hlayout hsize]

/-- Both decoders reject, or they return the same identifier, the same payload and the same word. -/
theorem decodeChunkFrame_agree (plaintext : Bytes) :
    (Implementation.linux.decodeChunkFrame plaintext = none ∧
        Implementation.android.decodeChunkFrame plaintext = none) ∨
      ∃ (transferId : Text) (data : Bytes) (word : ℕ), word < 2 ^ 32 ∧
        Implementation.linux.decodeChunkFrame plaintext = some (transferId, (word : ℤ), data) ∧
        Implementation.android.decodeChunkFrame plaintext =
          some (transferId, Kotlin.TransferMetadata.toInt32 word, data) ∧
        (word < 2 ^ 31 → Kotlin.TransferMetadata.toInt32 word = word) := by
  by_cases h : IsChunk plaintext
  · right
    have hlinux := (decodeChunkFrame_eq_some .linux).mpr ⟨h, rfl, rfl, rfl⟩
    have handroid := (decodeChunkFrame_eq_some .android).mpr ⟨h, rfl, rfl, rfl⟩
    exact ⟨_, _, _, header_lt (plaintext.drop 20), hlinux, handroid, toInt32_of_lt⟩
  · left
    have hnone : ∀ impl : Implementation, impl.decodeChunkFrame plaintext = none := by
      intro impl
      apply Option.eq_none_iff_forall_ne_some.mpr
      rintro ⟨transferId, seq, data⟩ hsome
      exact h ((decodeChunkFrame_eq_some impl).mp hsome).1
    exact ⟨hnone .linux, hnone .android⟩

/-- Every encoder and every decoder fit together: decoding inverts encoding, encoding inverts decoding,
and the two decoders agree on every byte string. -/
theorem chunk_codec :
    (∀ (enc dec : Implementation) (uid seq : ℕ) (data : Bytes), uid < 2 ^ 128 →
      (seq < 2 ^ 31 ∨ enc = .linux ∧ dec = .linux ∧ seq < 2 ^ 32) → data.length ≤ maxChunkPayload →
        ∃ frame, enc.encodeChunkFrame (uuidText uid) seq data = some frame ∧
          dec.decodeChunkFrame frame = some (uuidText uid, (seq : ℤ), data)) ∧
    (∀ (enc dec : Implementation) (plaintext data : Bytes) (transferId : Text) (seq : ℤ),
      dec.decodeChunkFrame plaintext = some (transferId, seq, data) →
        plaintext.length = 28 + data.length → (enc = dec ∨ 0 ≤ seq ∧ seq < 2 ^ 31) →
          enc.encodeChunkFrame transferId seq data = some plaintext) ∧
    ∀ plaintext : Bytes,
      (Implementation.linux.decodeChunkFrame plaintext = none ∧
          Implementation.android.decodeChunkFrame plaintext = none) ∨
        ∃ (transferId : Text) (data : Bytes) (word : ℕ), word < 2 ^ 32 ∧
          Implementation.linux.decodeChunkFrame plaintext = some (transferId, (word : ℤ), data) ∧
          Implementation.android.decodeChunkFrame plaintext =
            some (transferId, Kotlin.TransferMetadata.toInt32 word, data) ∧
          (word < 2 ^ 31 → Kotlin.TransferMetadata.toInt32 word = word) := by
  refine ⟨?_, ?_, decodeChunkFrame_agree⟩
  · intro enc dec uid seq data huid hseq hlength
    have hword : seq < 2 ^ 32 := by omega
    have hsame : enc.seqOfWord seq = seq ∧ dec.seqOfWord seq = seq := by
      rcases hseq with hsmall | ⟨rfl, rfl, -⟩
      · exact ⟨seqOfWord_of_lt enc hsmall, seqOfWord_of_lt dec hsmall⟩
      · exact ⟨rfl, rfl⟩
    have hencode := encodeChunkFrame_uuidText huid hword hlength enc
    have hdecode := decodeChunkFrame_layoutChunk huid hword hlength dec
    rw [hsame.1] at hencode
    rw [hsame.2] at hdecode
    exact ⟨layoutChunk uid seq data, hencode, hdecode⟩
  · intro enc dec plaintext data transferId seq hdecode hlength hseq
    exact encode_decodeChunkFrame hdecode hlength hseq

/-- The largest numbers that the client sends and that the service sends. -/
theorem chunk_codec_sample :
    (∃ frame, Implementation.android.encodeChunkFrame (uuidText (2 ^ 128 - 1)) (2 ^ 31 - 1 : ℕ) [7] =
        some frame ∧
      Implementation.linux.decodeChunkFrame frame =
        some (uuidText (2 ^ 128 - 1), ((2 ^ 31 - 1 : ℕ) : ℤ), [7])) ∧
    ∃ frame, Implementation.linux.encodeChunkFrame (uuidText 0) (2 ^ 32 - 1 : ℕ) [] = some frame ∧
      Implementation.linux.decodeChunkFrame frame = some (uuidText 0, ((2 ^ 32 - 1 : ℕ) : ℤ), []) :=
  ⟨chunk_codec.1 .android .linux (2 ^ 128 - 1) (2 ^ 31 - 1) [7] (by norm_num) (.inl (by norm_num))
      (by decide),
    chunk_codec.1 .linux .linux 0 (2 ^ 32 - 1) [] (by norm_num) (.inr ⟨rfl, rfl, by norm_num⟩)
      (by decide)⟩

end Ferry
