import Ferry.Base.Sha256

/-!
# X25519

The function of RFC 7748: the Montgomery ladder on Curve25519 over byte strings.
-/

namespace Ferry

namespace X25519

/-- The prime of the field. -/
def prime : ℕ := 2 ^ 255 - 19

def add (a b : ℕ) : ℕ := (a + b) % prime
def sub (a b : ℕ) : ℕ := (a + (prime - b)) % prime
def mul (a b : ℕ) : ℕ := a * b % prime

/-- `a ^ n`, by squaring along the binary digits of `n`. -/
def pow (a n : ℕ) : ℕ :=
  ((List.range 255).reverse).foldl
    (fun acc i ↦ if n.testBit i then mul (mul acc acc) a else mul acc acc) 1

/-- The projective coordinates that the ladder keeps. -/
structure Ladder where
  x₂ : ℕ
  z₂ : ℕ
  x₃ : ℕ
  z₃ : ℕ

def Ladder.swap (swap : Bool) (s : Ladder) : Ladder :=
  if swap then ⟨s.x₃, s.z₃, s.x₂, s.z₂⟩ else s

/-- One step of the ladder, for one bit of the scalar. -/
def step (x₁ scalar : ℕ) (s : Ladder) (bit : ℕ) : Ladder :=
  let s := s.swap (scalar.testBit bit)
  let a := add s.x₂ s.z₂
  let aa := mul a a
  let b := sub s.x₂ s.z₂
  let bb := mul b b
  let e := sub aa bb
  let c := add s.x₃ s.z₃
  let d := sub s.x₃ s.z₃
  let da := mul d a
  let cb := mul c b
  let sum := add da cb
  let difference := sub da cb
  Ladder.swap (scalar.testBit bit)
    ⟨mul aa bb, mul e (add aa (mul 121665 e)), mul sum sum, mul x₁ (mul difference difference)⟩

def ofLittleEndian (data : Bytes) : ℕ := data.foldr (fun b acc ↦ b.toNat + 256 * acc) 0

def toLittleEndian (n : ℕ) : Bytes := (List.range 32).map fun i ↦ UInt8.ofNat (n >>> (8 * i))

/-- The bits of a scalar that are fixed. -/
def clamp (n : ℕ) : ℕ := (n % 2 ^ 254 - n % 8) + 2 ^ 254

/-- The exchange, which an implementation refuses when the shared secret is zero. -/
def exchange (privateKey publicKey : Bytes) : Option Bytes :=
  let x₁ := ofLittleEndian publicKey % 2 ^ 255 % prime
  let scalar := clamp (ofLittleEndian privateKey)
  let s := ((List.range 255).reverse).foldl (step x₁ scalar) ⟨1, 0, x₁, 1⟩
  let shared := mul s.x₂ (pow s.z₂ (prime - 2))
  if shared = 0 then none else some (toLittleEndian shared)

/-- The public key of a private key: the exchange with the base point. -/
def publicKey (privateKey : Bytes) : Bytes :=
  (exchange privateKey (9 :: List.replicate 31 0)).getD []

end X25519

end Ferry
