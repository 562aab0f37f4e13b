import Ferry.Base.Sha256

/-!
# HMAC and HKDF

The key derivation function of RFC 5869 over any message authentication code with 32-byte tags, and
HMAC-SHA256 of RFC 2104 as one such code.
-/

namespace Ferry

/-! ## HMAC-SHA256 -/

namespace Sha256

def wordBytes (w : ℕ) : Bytes := (List.range 4).map fun i ↦ UInt8.ofNat (w >>> (8 * (3 - i)))

/-- `hashlib.sha256(message).digest()`. -/
@[irreducible] def digestBytes (message : Bytes) : Bytes :=
  (digest message).toList.flatMap wordBytes

@[simp]
theorem length_digestBytes (message : Bytes) : (digestBytes message).length = 32 := by
  unfold digestBytes
  simp [Words.toList, wordBytes]

end Sha256

/-- The key block: a key longer than the block is hashed, then padded with zeros. -/
def hmacKeyBlock (key : Bytes) : Bytes :=
  let short := if 64 < key.length then Sha256.digestBytes key else key
  short ++ List.replicate (64 - short.length) 0

/-- HMAC-SHA256. -/
def hmacSha256 (key message : Bytes) : Bytes :=
  Sha256.digestBytes ((hmacKeyBlock key).map (· ^^^ 0x5c) ++
    Sha256.digestBytes ((hmacKeyBlock key).map (· ^^^ 0x36) ++ message))

theorem length_hmacSha256 (key message : Bytes) : (hmacSha256 key message).length = 32 :=
  Sha256.length_digestBytes _

example : hmacSha256 (List.replicate 20 0x0b) [0x48, 0x69, 0x20, 0x54, 0x68, 0x65, 0x72, 0x65] =
    [0xb0, 0x34, 0x4c, 0x61, 0xd8, 0xdb, 0x38, 0x53, 0x5c, 0xa8, 0xaf, 0xce, 0xaf, 0x0b, 0xf1, 0x2b,
     0x88, 0x1d, 0xc2, 0x00, 0xc9, 0x83, 0x3d, 0xa7, 0x26, 0xe9, 0x37, 0x6c, 0x2e, 0x32, 0xcf, 0xf7] := by
  decide +kernel

/-! ## HKDF -/

namespace Hkdf

def hashLen : ℕ := 32

section Hkdf

variable (hmac : Bytes → Bytes → Bytes)

def extract (salt ikm : Bytes) : Bytes := hmac salt ikm

/-- `T(i)`, with the empty string as `T(0)`. -/
def block (prk info : Bytes) : ℕ → Bytes
  | 0 => []
  | i + 1 => hmac prk (block prk info i ++ info ++ [UInt8.ofNat (i + 1)])

/-- `T(1) | T(2) | ... | T(n)`. -/
def blocks (prk info : Bytes) (n : ℕ) : Bytes :=
  (List.range n).flatMap fun i ↦ block hmac prk info (i + 1)

def expand (prk info : Bytes) (length : ℕ) : Bytes :=
  (blocks hmac prk info ((length + hashLen - 1) / hashLen)).take length

/-- HKDF, which is undefined for outputs of more than 255 blocks. -/
def derive (ikm salt info : Bytes) (length : ℕ) : Option Bytes :=
  if length ≤ 255 * hashLen then some (expand hmac (extract hmac salt ikm) info length) else none

variable {hmac} {prk info : Bytes}

@[simp] theorem blocks_zero : blocks hmac prk info 0 = [] := rfl

theorem blocks_succ (n : ℕ) :
    blocks hmac prk info (n + 1) = blocks hmac prk info n ++ block hmac prk info (n + 1) := by
  simp [blocks, List.range_succ]

variable (hlength : ∀ key message, (hmac key message).length = hashLen)

include hlength

theorem length_block_succ (n : ℕ) : (block hmac prk info (n + 1)).length = hashLen := hlength _ _

theorem length_blocks (n : ℕ) : (blocks hmac prk info n).length = n * hashLen := by
  induction n with
  | zero => simp
  | succ n ih =>
    rw [blocks_succ, List.length_append, ih, length_block_succ hlength, Nat.add_one_mul]

end Hkdf

end Hkdf

end Ferry
