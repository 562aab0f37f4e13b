import Ferry.Base.Text

/-!
# SHA-256

FIPS 180-4 on byte strings.  A `hashlib` object that is updated piece by piece returns the digest
of the concatenation of the pieces, so a running hasher is represented by the bytes fed to it and
this file has the one-shot digest only.
-/

namespace Ferry

abbrev Bytes := List UInt8

namespace Sha256

/-- The eight working words. -/
structure Words where
  a : ℕ
  b : ℕ
  c : ℕ
  d : ℕ
  e : ℕ
  f : ℕ
  g : ℕ
  h : ℕ
  deriving DecidableEq

def word (n : ℕ) : ℕ := n % 0x100000000

def rotr (n x : ℕ) : ℕ := (x >>> n) ||| word (x <<< (32 - n))

def initial : Words :=
  ⟨0x6a09e667, 0xbb67ae85, 0x3c6ef372, 0xa54ff53a, 0x510e527f, 0x9b05688c, 0x1f83d9ab, 0x5be0cd19⟩

def roundConstants : List ℕ :=
  [0x428a2f98, 0x71374491, 0xb5c0fbcf, 0xe9b5dba5, 0x3956c25b, 0x59f111f1, 0x923f82a4, 0xab1c5ed5,
   0xd807aa98, 0x12835b01, 0x243185be, 0x550c7dc3, 0x72be5d74, 0x80deb1fe, 0x9bdc06a7, 0xc19bf174,
   0xe49b69c1, 0xefbe4786, 0x0fc19dc6, 0x240ca1cc, 0x2de92c6f, 0x4a7484aa, 0x5cb0a9dc, 0x76f988da,
   0x983e5152, 0xa831c66d, 0xb00327c8, 0xbf597fc7, 0xc6e00bf3, 0xd5a79147, 0x06ca6351, 0x14292967,
   0x27b70a85, 0x2e1b2138, 0x4d2c6dfc, 0x53380d13, 0x650a7354, 0x766a0abb, 0x81c2c92e, 0x92722c85,
   0xa2bfe8a1, 0xa81a664b, 0xc24b8b70, 0xc76c51a3, 0xd192e819, 0xd6990624, 0xf40e3585, 0x106aa070,
   0x19a4c116, 0x1e376c08, 0x2748774c, 0x34b0bcb5, 0x391c0cb3, 0x4ed8aa4a, 0x5b9cca4f, 0x682e6ff3,
   0x748f82ee, 0x78a5636f, 0x84c87814, 0x8cc70208, 0x90befffa, 0xa4506ceb, 0xbef9a3f7, 0xc67178f2]

/-- Big-endian words of a block. -/
def toWords : Bytes → List ℕ
  | b₀ :: b₁ :: b₂ :: b₃ :: rest =>
    (b₀.toNat * 0x1000000 + b₁.toNat * 0x10000 + b₂.toNat * 0x100 + b₃.toNat) :: toWords rest
  | _ => []

/-- Extend the message schedule, kept newest first, by one word. -/
def extendSchedule (w : List ℕ) : List ℕ :=
  let w₂ := w.getD 1 0
  let w₁₅ := w.getD 14 0
  let mix₁₅ := rotr 7 w₁₅ ^^^ rotr 18 w₁₅ ^^^ (w₁₅ >>> 3)
  let mix₂ := rotr 17 w₂ ^^^ rotr 19 w₂ ^^^ (w₂ >>> 10)
  word (w.getD 15 0 + mix₁₅ + w.getD 6 0 + mix₂) :: w

def schedule (block : Bytes) : List ℕ := (extendSchedule^[48] (toWords block).reverse).reverse

def round (s : Words) (kw : ℕ × ℕ) : Words :=
  let mixE := rotr 6 s.e ^^^ rotr 11 s.e ^^^ rotr 25 s.e
  let choice := (s.e &&& s.f) ^^^ ((0xffffffff ^^^ s.e) &&& s.g)
  let t₁ := s.h + mixE + choice + kw.1 + kw.2
  let mixA := rotr 2 s.a ^^^ rotr 13 s.a ^^^ rotr 22 s.a
  let majority := (s.a &&& s.b) ^^^ (s.a &&& s.c) ^^^ (s.b &&& s.c)
  ⟨word (t₁ + mixA + majority), s.a, s.b, s.c, word (s.d + t₁), s.e, s.f, s.g⟩

def compress (s : Words) (block : Bytes) : Words :=
  let t := (roundConstants.zip (schedule block)).foldl round s
  ⟨word (s.a + t.a), word (s.b + t.b), word (s.c + t.c), word (s.d + t.d),
   word (s.e + t.e), word (s.f + t.f), word (s.g + t.g), word (s.h + t.h)⟩

/-- The padding: one set bit, zeros, and the bit length in eight bytes. -/
def pad (message : Bytes) : Bytes :=
  let bits := 8 * message.length
  message ++ (0x80 : UInt8) :: List.replicate ((119 - message.length % 64) % 64) (0 : UInt8) ++
    (List.range 8).map fun i ↦ UInt8.ofNat (bits >>> (8 * (7 - i)))

/-- Compress block by block; the fuel bounds the number of blocks. -/
def compressAll : ℕ → Words → Bytes → Words
  | fuel + 1, s, block@(_ :: _) => compressAll fuel (compress s (block.take 64)) (block.drop 64)
  | _, s, _ => s

def digest (message : Bytes) : Words := compressAll (message.length + 2) initial (pad message)

def hexDigit (n : ℕ) : CodePoint :=
  if h : n % 16 < 10 then ⟨0x30 + n % 16, by omega⟩ else ⟨0x57 + n % 16, by omega⟩

def hexWord (w : ℕ) : Text := (List.range 8).map fun i ↦ hexDigit (w >>> (4 * (7 - i)))

/-- The eight words in order. -/
def Words.toList (s : Words) : List ℕ := [s.a, s.b, s.c, s.d, s.e, s.f, s.g, s.h]

/-- `hashlib.sha256(message).hexdigest()`. -/
@[irreducible] def hexdigest (message : Bytes) : Text := (digest message).toList.flatMap hexWord

/-- The code points of a lower-case hexadecimal text. -/
def lowerHex : Text := Text.lit "0123456789abcdef"

theorem hexDigit_mem_lowerHex (n : ℕ) : hexDigit n ∈ lowerHex := by
  have h : ∀ k < 16, hexDigit k ∈ lowerHex := by decide
  have hmod : hexDigit n = hexDigit (n % 16) := by simp [hexDigit]
  rw [hmod]
  exact h _ (Nat.mod_lt _ (by decide))

@[simp]
theorem length_hexdigest (message : Bytes) : (hexdigest message).length = 64 := by
  unfold hexdigest
  simp [Words.toList, hexWord]

theorem mem_lowerHex_of_mem_hexdigest {message : Bytes} {c : CodePoint}
    (h : c ∈ hexdigest message) : c ∈ lowerHex := by
  unfold hexdigest at h
  obtain ⟨w, -, hw⟩ := List.mem_flatMap.mp h
  obtain ⟨i, -, rfl⟩ := List.mem_map.mp hw
  exact hexDigit_mem_lowerHex _

theorem asciiLower_hexdigest (data : Bytes) :
    Text.asciiLower (hexdigest data) = hexdigest data := by
  have hlower : ∀ c ∈ lowerHex, ¬(0x41 ≤ c.val ∧ c.val ≤ 0x5A) := by
    intro c hc
    have hall : lowerHex.all fun c ↦ !(decide (0x41 ≤ c.val) && decide (c.val ≤ 0x5A)) := by
      decide +kernel
    have hc' := List.all_eq_true.mp hall c hc
    simp only [Bool.not_eq_true', Bool.and_eq_false_iff, decide_eq_false_iff_not] at hc'
    exact not_and_or.mpr hc'
  unfold Text.asciiLower
  calc
    _ = (hexdigest data).map id := by
      apply List.map_congr_left
      intro c hc
      rw [dif_neg (hlower c (mem_lowerHex_of_mem_hexdigest hc))]
      rfl
    _ = _ := List.map_id _

example : hexdigest [] =
    Text.lit "e3b0c44298fc1c149afbf4c8996fb92427ae41e4649b934ca495991b7852b855" := by
  decide +kernel

end Sha256

end Ferry
