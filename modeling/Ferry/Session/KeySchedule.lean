import Ferry.Base.Hkdf
import Ferry.Session.Handshake

/-!
# Session keys

How the two implementations derive the session keys and the short authentication string from the
handshake data.  The X25519 exchange and the message authentication code are parameters; the
exchange gives nothing when the implementation refuses the peer's point.
-/

namespace Ferry

/-- What the platform provides: the code under HKDF and the X25519 exchange of a private key with a
public key. -/
structure Primitives where
  hmac : Bytes → Bytes → Bytes
  exchange : Bytes → Bytes → Option Bytes

/-- The bytes of an ASCII literal. -/
def asciiBytes (s : String) : Bytes := (Text.lit s).map fun c ↦ UInt8.ofNat c.val

def sessionKeyInfoInitiator : Bytes := asciiBytes "ferry-session-initiator-v1"
def sessionKeyInfoResponder : Bytes := asciiBytes "ferry-session-responder-v1"
def sasHkdfInfo : Bytes := asciiBytes "ferry-sas-v1"
def sessionKeyLen : ℕ := 32
def sasBytesLen : ℕ := 3

/-- `DerivedKeys`. -/
structure DerivedKeys where
  sendKey : Bytes
  recvKey : Bytes
  sasBytes : Bytes
  deriving DecidableEq

/-- A decimal number, filled with zeros on the left to six digits. -/
def sixDigits (n : ℕ) : Text :=
  let digits := Text.lit (toString n)
  List.replicate (6 - digits.length) (Text.lit "0").head! ++ digits

/-! ## Linux session -/

namespace FerrySession

/-- `derive_keys`, for the private key of the local ephemeral key. -/
def deriveKeys (prim : Primitives) (session : FerrySession) (ephPrivate : Bytes) :
    Option DerivedKeys := do
  let localHs ← session.localHs
  let remoteHs ← session.remoteHs
  let remoteEphPub ← publicKeyFromBytes remoteHs.ephemeralPubKey
  let dhShared ← prim.exchange ephPrivate remoteEphPub
  let (initHs, respHs) := if session.isInitiator then (localHs, remoteHs) else (remoteHs, localHs)
  let transcriptSalt := initHs.staticPubKey ++ respHs.staticPubKey ++
    initHs.ephemeralPubKey ++ respHs.ephemeralPubKey ++ initHs.nonce ++ respHs.nonce
  let initKey ← Hkdf.derive prim.hmac dhShared transcriptSalt sessionKeyInfoInitiator sessionKeyLen
  let respKey ← Hkdf.derive prim.hmac dhShared transcriptSalt sessionKeyInfoResponder sessionKeyLen
  let sasRaw ← Hkdf.derive prim.hmac dhShared transcriptSalt sasHkdfInfo sasBytesLen
  if session.isInitiator then return ⟨initKey, respKey, sasRaw⟩
  else return ⟨respKey, initKey, sasRaw⟩

/-- `sas_code`: `int.from_bytes(sas_bytes, "big") % 1_000_000`, as six digits. -/
def sasCode (keys : DerivedKeys) : Text :=
  sixDigits (keys.sasBytes.foldl (fun acc b ↦ acc * 256 + b.toNat) 0 % 1000000)

end FerrySession

/-! ## Android session -/

/-- `t.copyInto(result, offset, 0, toCopy)`, which throws past the end of either array. -/
def copyInto (t result : Bytes) (offset toCopy : ℕ) : Option Bytes :=
  if toCopy ≤ t.length ∧ offset + toCopy ≤ result.length then
    some (result.take offset ++ t.take toCopy ++ result.drop (offset + toCopy))
  else none

namespace AndroidFerrySession

/-- The local variables of the expand loop of `hkdfSha256`. -/
structure ExpandLoop where
  result : Bytes
  t : Bytes
  offset : ℕ
  counter : ℕ

/-- The expand loop. -/
def expandLoop (hmac : Bytes → Bytes → Bytes) (prk info : Bytes) (length : ℕ) (s : ExpandLoop) :
    Option Bytes :=
  if s.offset < length then do
    let t := hmac prk (s.t ++ info ++ [UInt8.ofNat s.counter])
    let toCopy := min Hkdf.hashLen (length - s.offset)
    let result ← copyInto t s.result s.offset toCopy
    expandLoop hmac prk info length ⟨result, t, s.offset + toCopy, s.counter + 1⟩
  else some s.result
termination_by length - s.offset
decreasing_by
  simp only [Hkdf.hashLen]
  omega

/-- `hkdfSha256`; `SecretKeySpec` throws on an empty key. -/
def hkdfSha256 (hmac : Bytes → Bytes → Bytes) (inputKeyMaterial salt info : Bytes) (length : ℕ) :
    Option Bytes :=
  if salt = [] then none
  else
    let prk := hmac salt inputKeyMaterial
    if prk = [] then none
    else expandLoop hmac prk info length ⟨List.replicate length 0, [], 0, 1⟩

/-- `deriveKeys`, for the private key of the local ephemeral key.  The encoding of the remote key
is valid when the key has 32 bytes. -/
def deriveKeys (prim : Primitives) (session : AndroidFerrySession) (ephemeralPrivate : Bytes) :
    Option DerivedKeys := do
  let remoteEph ← session.remoteEphPub
  let remotePublicKey ← publicKeyFromBytes remoteEph
  let dhShared ← prim.exchange ephemeralPrivate remotePublicKey
  let localStaticPub ← session.localStaticPub
  let remoteStaticPub ← session.remoteStaticPub
  let localEphPub ← session.localEphPub
  let localNonce ← session.localNonce
  let remoteNonce ← session.remoteNonce
  let (initStaticPub, respStaticPub) :=
    if session.isInitiator then (localStaticPub, remoteStaticPub) else (remoteStaticPub, localStaticPub)
  let (initEphPub, respEphPub) :=
    if session.isInitiator then (localEphPub, remoteEph) else (remoteEph, localEphPub)
  let (initNonce, respNonce) :=
    if session.isInitiator then (localNonce, remoteNonce) else (remoteNonce, localNonce)
  let transcriptSalt := initStaticPub ++ respStaticPub ++ initEphPub ++ respEphPub ++
    initNonce ++ respNonce
  let initKey ← hkdfSha256 prim.hmac dhShared transcriptSalt sessionKeyInfoInitiator sessionKeyLen
  let respKey ← hkdfSha256 prim.hmac dhShared transcriptSalt sessionKeyInfoResponder sessionKeyLen
  let sas ← hkdfSha256 prim.hmac dhShared transcriptSalt sasHkdfInfo sasBytesLen
  if session.isInitiator then return ⟨initKey, respKey, sas⟩
  else return ⟨respKey, initKey, sas⟩

/-- `sasCode`: the three bytes shifted into one number, as six digits. -/
def sasCode (keys : DerivedKeys) : Text :=
  let b₀ := (keys.sasBytes.getD 0 0).toNat
  let b₁ := (keys.sasBytes.getD 1 0).toNat
  let b₂ := (keys.sasBytes.getD 2 0).toNat
  sixDigits ((((b₀ &&& 0xFF) <<< 16) ||| ((b₁ &&& 0xFF) <<< 8) ||| (b₂ &&& 0xFF)) % 1000000)

end AndroidFerrySession

/-! ## The expand loop computes HKDF -/

section Expand

open Hkdf AndroidFerrySession

variable {hmac : Bytes → Bytes → Bytes} {prk info : Bytes} {length : ℕ}

/-- The variables of the loop after `k` rounds. -/
def afterRounds (hmac : Bytes → Bytes → Bytes) (prk info : Bytes) (length k : ℕ) : ExpandLoop where
  result := (blocks hmac prk info k).take length ++ List.replicate (length - k * hashLen) 0
  t := block hmac prk info k
  offset := min (k * hashLen) length
  counter := k + 1

variable (hlength : ∀ key message, (hmac key message).length = hashLen)

include hlength

/-- One round of the loop copies one more block. -/
theorem copyInto_afterRounds {k : ℕ} (h : k * hashLen < length) :
    copyInto (block hmac prk info (k + 1)) (afterRounds hmac prk info length k).result
        (k * hashLen) (min hashLen (length - k * hashLen)) =
      some (afterRounds hmac prk info length (k + 1)).result := by
  have hblocks : (blocks hmac prk info k).length = k * hashLen := length_blocks hlength k
  have hblock : (block hmac prk info (k + 1)).length = hashLen := length_block_succ hlength k
  have hresult : (afterRounds hmac prk info length k).result =
      blocks hmac prk info k ++ List.replicate (length - k * hashLen) 0 := by
    rw [afterRounds, List.take_of_length_le (by omega)]
  have hbounds : min hashLen (length - k * hashLen) ≤ (block hmac prk info (k + 1)).length ∧
      k * hashLen + min hashLen (length - k * hashLen) ≤
        (blocks hmac prk info k ++ List.replicate (length - k * hashLen) (0 : UInt8)).length := by
    rw [hblock, List.length_append, hblocks, List.length_replicate]
    omega
  rw [hresult, copyInto, if_pos hbounds]
  have htake : (blocks hmac prk info k ++ List.replicate (length - k * hashLen) (0 : UInt8)).take
      (k * hashLen) = blocks hmac prk info k := by
    rw [← hblocks, List.take_left]
  have hdrop : (blocks hmac prk info k ++ List.replicate (length - k * hashLen) (0 : UInt8)).drop
      (k * hashLen + min hashLen (length - k * hashLen)) =
        List.replicate (length - (k + 1) * hashLen) 0 := by
    rw [← hblocks, List.drop_append, hblocks, List.drop_eq_nil_of_le (by omega), List.nil_append,
      List.drop_replicate]
    congr 1
    rw [Nat.add_one_mul]
    omega
  have hprefix : blocks hmac prk info k ++
      (block hmac prk info (k + 1)).take (min hashLen (length - k * hashLen)) =
        (blocks hmac prk info (k + 1)).take length := by
    have hwhole : (blocks hmac prk info k).take length = blocks hmac prk info k :=
      List.take_of_length_le (by omega)
    rw [blocks_succ, List.take_append, hblocks, hwhole]
    congr 1
    rw [List.take_eq_take_iff, hblock]
    omega
  rw [htake, hdrop, hprefix, afterRounds]

theorem expandLoop_afterRounds {k : ℕ} (hk : k * hashLen < length + hashLen) :
    expandLoop hmac prk info length (afterRounds hmac prk info length k) =
      some (expand hmac prk info length) := by
  have hblocks : (blocks hmac prk info k).length = k * hashLen := length_blocks hlength k
  by_cases hlt : k * hashLen < length
  · have hoffset : (afterRounds hmac prk info length k).offset = k * hashLen :=
      Nat.min_eq_left hlt.le
    have hnext : (k + 1) * hashLen < length + hashLen := by
      rw [Nat.add_one_mul]
      omega
    have hstate : (⟨(afterRounds hmac prk info length (k + 1)).result, block hmac prk info (k + 1),
        k * hashLen + min hashLen (length - k * hashLen), k + 1 + 1⟩ : ExpandLoop) =
          afterRounds hmac prk info length (k + 1) := by
      have hmin : k * hashLen + min hashLen (length - k * hashLen) =
          min ((k + 1) * hashLen) length := by
        rw [Nat.add_one_mul]
        omega
      rw [hmin]
      rfl
    rw [expandLoop, hoffset, if_pos hlt]
    have hcopy := @copyInto_afterRounds hmac prk info length hlength k hlt
    rw [block] at hcopy
    simp only [afterRounds] at hcopy ⊢
    rw [hcopy]
    have hrec := expandLoop_afterRounds hnext
    rw [← hstate] at hrec
    exact hrec
  · have hoffset : (afterRounds hmac prk info length k).offset = length := Nat.min_eq_right (by omega)
    rw [expandLoop, hoffset, if_neg (lt_irrefl _)]
    have hcount : (length + hashLen - 1) / hashLen = k := by
      unfold hashLen at *
      omega
    rw [expand, hcount, afterRounds, Nat.sub_eq_zero_of_le (by omega), List.replicate_zero,
      List.append_nil]
termination_by length - k * hashLen
decreasing_by
  unfold hashLen at *
  omega

/-- The hand-written function is HKDF for every salt that is not empty and every output length that
HKDF allows. -/
theorem hkdfSha256_eq_derive (ikm : Bytes) {salt : Bytes} (hsalt : salt ≠ []) (info : Bytes)
    (hmax : length ≤ 255 * hashLen) :
    hkdfSha256 hmac ikm salt info length = derive hmac ikm salt info length := by
  have hprk : hmac salt ikm ≠ [] := by
    apply List.ne_nil_of_length_pos
    rw [hlength]
    decide
  rw [hkdfSha256, if_neg hsalt, if_neg hprk, derive, if_pos hmax]
  have hstart : (⟨List.replicate length 0, [], 0, 1⟩ : ExpandLoop) =
      afterRounds hmac (hmac salt ikm) info length 0 := by
    simp [afterRounds, block]
  rw [hstart]
  exact expandLoop_afterRounds hlength (by simp [hashLen])

end Expand

end Ferry
