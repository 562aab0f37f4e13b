import Ferry.Base.Sha256

/-!
# Authenticated encryption

Ideal authenticated encryption, where a ciphertext decrypts only under the key and the nonce that it
was sealed with, and ChaCha20-Poly1305 of RFC 8439 as one sealing function.
-/

namespace Ferry

/-! ## Ideal decryption -/

/-- A sealing function: the ciphertext is 16 bytes longer than the plaintext and determines it. -/
structure Aead where
  encrypt : Bytes → Bytes → Bytes → Bytes
  length_encrypt : ∀ key nonce plaintext, (encrypt key nonce plaintext).length = plaintext.length + 16
  encrypt_injective : ∀ key nonce, Function.Injective (encrypt key nonce)

/-- A plaintext that was sealed, with the key and the nonce. -/
structure Sealing where
  key : Bytes
  nonce : Bytes
  plaintext : Bytes
  deriving DecidableEq

namespace Aead

/-- Ideal decryption when `made` has been sealed. -/
def decrypt (aead : Aead) (made : List Sealing) (key nonce ciphertext : Bytes) : Option Bytes :=
  (made.find? fun s ↦ s.key = key ∧ s.nonce = nonce ∧ aead.encrypt key nonce s.plaintext = ciphertext).map
    Sealing.plaintext

theorem decrypt_eq_some {aead : Aead} {made : List Sealing} {key nonce ciphertext plaintext : Bytes} :
    aead.decrypt made key nonce ciphertext = some plaintext ↔
      ⟨key, nonce, plaintext⟩ ∈ made ∧ aead.encrypt key nonce plaintext = ciphertext := by
  unfold decrypt
  constructor
  · intro h
    obtain ⟨s, hfind, hplaintext⟩ := Option.map_eq_some_iff.mp h
    have hmem := List.mem_of_find?_eq_some hfind
    have hsealed := List.find?_some hfind
    simp only [decide_eq_true_eq] at hsealed
    obtain ⟨hkey, hnonce, hencrypt⟩ := hsealed
    subst hkey hnonce hplaintext
    exact ⟨hmem, hencrypt⟩
  · rintro ⟨hmem, hencrypt⟩
    cases hfind : made.find? fun s ↦ s.key = key ∧ s.nonce = nonce ∧
        aead.encrypt key nonce s.plaintext = ciphertext with
    | none =>
      have hnone := List.find?_eq_none.mp hfind _ hmem
      simp [hencrypt] at hnone
    | some s =>
      have hsealed := List.find?_some hfind
      simp only [decide_eq_true_eq] at hsealed
      rw [Option.map_some, aead.encrypt_injective key nonce (hsealed.2.2.trans hencrypt.symm)]

end Aead

/-! ## ChaCha20-Poly1305 -/

namespace ChaCha20

def word (n : ℕ) : ℕ := n % 0x100000000

def rotl (n x : ℕ) : ℕ := word (x <<< n) ||| (x >>> (32 - n))

/-- Add, xor and rotate. -/
def mix (s : List ℕ) (a b d n : ℕ) : List ℕ :=
  let x := word (s.getD a 0 + s.getD b 0)
  (s.set a x).set d (rotl n (s.getD d 0 ^^^ x))

def quarterRound (s : List ℕ) (a b c d : ℕ) : List ℕ :=
  mix (mix (mix (mix s a b d 16) c d b 12) a b d 8) c d b 7

def doubleRound (s : List ℕ) : List ℕ :=
  let s := quarterRound (quarterRound (quarterRound (quarterRound s 0 4 8 12) 1 5 9 13) 2 6 10 14) 3 7 11 15
  quarterRound (quarterRound (quarterRound (quarterRound s 0 5 10 15) 1 6 11 12) 2 7 8 13) 3 4 9 14

def ofLittleEndian (data : Bytes) : ℕ := data.foldr (fun b acc ↦ b.toNat + 256 * acc) 0

def toLittleEndian (width n : ℕ) : Bytes :=
  (List.range width).map fun i ↦ UInt8.ofNat (n >>> (8 * i))

def words (count : ℕ) (data : Bytes) : List ℕ :=
  (List.range count).map fun i ↦ ofLittleEndian ((data.drop (4 * i)).take 4)

/-- The block function. -/
def block (key nonce : Bytes) (counter : ℕ) : Bytes :=
  let initial := [0x61707865, 0x3320646e, 0x79622d32, 0x6b206574] ++ words 8 key ++
    word counter :: words 3 nonce
  let mixed := doubleRound^[10] initial
  (List.range 16).flatMap fun i ↦ toLittleEndian 4 (word (initial.getD i 0 + mixed.getD i 0))

theorem length_block (key nonce : Bytes) (counter : ℕ) : (block key nonce counter).length = 64 := by
  simp [block, toLittleEndian]

def keyStream (key nonce : Bytes) (length : ℕ) : Bytes :=
  (List.range ((length + 63) / 64)).flatMap fun i ↦ block key nonce (i + 1)

theorem le_length_keyStream (key nonce : Bytes) (length : ℕ) :
    length ≤ (keyStream key nonce length).length := by
  have hlength : (keyStream key nonce length).length = (length + 63) / 64 * 64 := by
    simp [keyStream, length_block]
  omega

/-- Encryption without a tag. -/
def crypt (key nonce plaintext : Bytes) : Bytes :=
  List.zipWith (· ^^^ ·) plaintext (keyStream key nonce plaintext.length)

theorem length_crypt (key nonce plaintext : Bytes) :
    (crypt key nonce plaintext).length = plaintext.length := by
  rw [crypt, List.length_zipWith]
  exact Nat.min_eq_left (le_length_keyStream key nonce plaintext.length)

theorem zipWith_xor_cancel {stream p q : Bytes} (hp : p.length ≤ stream.length)
    (hlength : p.length = q.length)
    (h : List.zipWith (· ^^^ ·) p stream = List.zipWith (· ^^^ ·) q stream) : p = q := by
  induction p generalizing q stream with
  | nil => exact (List.eq_nil_of_length_eq_zero hlength.symm).symm
  | cons b p ih =>
    cases q with
    | nil => simp at hlength
    | cons c q =>
      cases stream with
      | nil => simp at hp
      | cons x stream =>
        simp only [List.zipWith_cons_cons, List.cons.injEq, UInt8.xor_left_inj] at h
        rw [h.1, ih (by simpa using hp) (by simpa using hlength) h.2]

end ChaCha20

namespace Poly1305

open ChaCha20

/-- Sixteen-byte blocks, each with a one byte above its last one, and a list of their numbers. -/
def accumulate (r : ℕ) : ℕ → ℕ → Bytes → ℕ
  | fuel + 1, acc, block@(_ :: _) =>
    accumulate r fuel ((acc + ofLittleEndian (block.take 16 ++ [1])) * r % (2 ^ 130 - 5)) (block.drop 16)
  | _, acc, _ => acc

def mac (key message : Bytes) : Bytes :=
  let r := ofLittleEndian (key.take 16) &&& 0x0ffffffc0ffffffc0ffffffc0fffffff
  let s := ofLittleEndian ((key.drop 16).take 16)
  toLittleEndian 16 (accumulate r (message.length + 1) 0 message + s)

end Poly1305

namespace ChaCha20Poly1305

open ChaCha20

def tag (key nonce ciphertext : Bytes) : Bytes :=
  Poly1305.mac ((block key nonce 0).take 32)
    (ciphertext ++ List.replicate ((16 - ciphertext.length % 16) % 16) 0 ++
      toLittleEndian 8 0 ++ toLittleEndian 8 ciphertext.length)

/-- Sealing without associated data. -/
def encrypt (key nonce plaintext : Bytes) : Bytes :=
  crypt key nonce plaintext ++ tag key nonce (crypt key nonce plaintext)

theorem length_encrypt (key nonce plaintext : Bytes) :
    (encrypt key nonce plaintext).length = plaintext.length + 16 := by
  rw [encrypt, List.length_append, length_crypt]
  simp [tag, Poly1305.mac, toLittleEndian]

theorem encrypt_injective (key nonce : Bytes) : Function.Injective (encrypt key nonce) := by
  intro p q h
  have hlength : p.length = q.length := by
    have hencrypt := congrArg List.length h
    rw [length_encrypt, length_encrypt] at hencrypt
    omega
  have hcrypt : crypt key nonce p = crypt key nonce q :=
    (List.append_inj h (by rw [length_crypt, length_crypt, hlength])).1
  unfold crypt at hcrypt
  rw [← hlength] at hcrypt
  exact zipWith_xor_cancel (le_length_keyStream key nonce p.length) hlength hcrypt

def aead : Aead := ⟨encrypt, length_encrypt, encrypt_injective⟩

end ChaCha20Poly1305

end Ferry
