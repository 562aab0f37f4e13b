import Ferry.Base.X25519
import Ferry.Session.KeySchedule

/-!
# Both ends derive the same keys

Two ends of one handshake, each by either implementation, compute the same transcript and the same
short authentication string, and each one's sending key is the other one's receiving key.
-/

namespace Ferry

open Hkdf

/-- The Android session after `buildLocalHandshake` and `acceptRemoteHandshake`. -/
def AndroidFerrySession.ofHandshake (isInitiator : Bool) (localHs remoteHs : HandshakeData) :
    AndroidFerrySession where
  isInitiator := isInitiator
  localStaticPub := some localHs.staticPubKey
  localEphPub := some localHs.ephemeralPubKey
  localNonce := some localHs.nonce
  remoteStaticPub := some remoteHs.staticPubKey
  remoteEphPub := some remoteHs.ephemeralPubKey
  remoteNonce := some remoteHs.nonce

namespace Implementation

/-- The transcript that one end signs. -/
def transcript (impl : Implementation) (isInitiator : Bool) (localHs remoteHs : HandshakeData) :
    Option Bytes :=
  match impl with
  | linux => FerrySession.buildAuthTranscript ⟨isInitiator, some localHs, some remoteHs⟩
  | android => (AndroidFerrySession.ofHandshake isInitiator localHs remoteHs).buildAuthTranscript

/-- The keys that one end derives. -/
def deriveKeys (impl : Implementation) (prim : Primitives) (isInitiator : Bool)
    (localHs remoteHs : HandshakeData) (ephPrivate : Bytes) : Option DerivedKeys :=
  match impl with
  | linux => FerrySession.deriveKeys prim ⟨isInitiator, some localHs, some remoteHs⟩ ephPrivate
  | android =>
    AndroidFerrySession.deriveKeys prim (.ofHandshake isInitiator localHs remoteHs) ephPrivate

/-- The digits that one end shows. -/
def sasCode : Implementation → DerivedKeys → Text
  | linux => FerrySession.sasCode
  | android => AndroidFerrySession.sasCode

end Implementation

/-- The salt of the key schedule. -/
def transcriptSalt (initHs respHs : HandshakeData) : Bytes :=
  initHs.staticPubKey ++ respHs.staticPubKey ++ initHs.ephemeralPubKey ++ respHs.ephemeralPubKey ++
    initHs.nonce ++ respHs.nonce

/-- The keys of one end, from the shared secret and the salt. -/
def scheduledKeys (hmac : Bytes → Bytes → Bytes) (isInitiator : Bool) (dhShared salt : Bytes) :
    DerivedKeys :=
  let prk := extract hmac salt dhShared
  let initKey := expand hmac prk sessionKeyInfoInitiator sessionKeyLen
  let respKey := expand hmac prk sessionKeyInfoResponder sessionKeyLen
  let sasRaw := expand hmac prk sasHkdfInfo sasBytesLen
  if isInitiator then ⟨initKey, respKey, sasRaw⟩ else ⟨respKey, initKey, sasRaw⟩

/-- The other end's keys. -/
def DerivedKeys.swap (keys : DerivedKeys) : DerivedKeys :=
  ⟨keys.recvKey, keys.sendKey, keys.sasBytes⟩

theorem swap_scheduledKeys (hmac : Bytes → Bytes → Bytes) (dhShared salt : Bytes) :
    (scheduledKeys hmac true dhShared salt).swap = scheduledKeys hmac false dhShared salt := rfl

theorem transcriptSalt_ne_nil {initHs respHs : HandshakeData}
    (hstatic : initHs.staticPubKey.length = 32) : transcriptSalt initHs respHs ≠ [] := by
  apply List.ne_nil_of_length_pos
  simp only [transcriptSalt, List.length_append, hstatic]
  omega

theorem derive_of_le (hmac : Bytes → Bytes → Bytes) (ikm salt info : Bytes) {length : ℕ}
    (h : length ≤ 255 * hashLen) :
    derive hmac ikm salt info length = some (expand hmac (extract hmac salt ikm) info length) :=
  if_pos h

section KeyAgreement

variable {prim : Primitives} (hlength : ∀ key message, (prim.hmac key message).length = hashLen)
  {localHs remoteHs : HandshakeData} (hlocal : localHs.staticPubKey.length = 32)
  (hremote : remoteHs.staticPubKey.length = 32) (heph : remoteHs.ephemeralPubKey.length = 32)

include hlength hlocal hremote heph

/-- Both implementations follow one schedule. -/
theorem deriveKeys_eq_scheduledKeys (impl : Implementation) (isInitiator : Bool) (ephPrivate : Bytes) :
    impl.deriveKeys prim isInitiator localHs remoteHs ephPrivate =
      (prim.exchange ephPrivate remoteHs.ephemeralPubKey).map fun dhShared ↦
        scheduledKeys prim.hmac isInitiator dhShared
          (transcriptSalt (if isInitiator then localHs else remoteHs)
            (if isInitiator then remoteHs else localHs)) := by
  have hkey : sessionKeyLen ≤ 255 * hashLen := by decide
  have hsas : sasBytesLen ≤ 255 * hashLen := by decide
  have hparse : publicKeyFromBytes remoteHs.ephemeralPubKey = some remoteHs.ephemeralPubKey := if_pos heph
  have hkotlin (ikm info : Bytes) {salt : Bytes} (hsalt : salt ≠ []) {length : ℕ}
      (h : length ≤ 255 * hashLen) :
      AndroidFerrySession.hkdfSha256 prim.hmac ikm salt info length =
        some (expand prim.hmac (extract prim.hmac salt ikm) info length) := by
    rw [hkdfSha256_eq_derive hlength ikm hsalt info h, derive_of_le _ _ _ _ h]
  cases hdh : prim.exchange ephPrivate remoteHs.ephemeralPubKey with
  | none =>
    cases impl <;>
      simp [Implementation.deriveKeys, FerrySession.deriveKeys, AndroidFerrySession.deriveKeys,
        AndroidFerrySession.ofHandshake, hparse, hdh]
  | some dhShared =>
    have hsalt := @transcriptSalt_ne_nil localHs remoteHs hlocal
    have hsalt' := @transcriptSalt_ne_nil remoteHs localHs hremote
    unfold transcriptSalt at hsalt hsalt'
    cases impl with
    | linux =>
      cases isInitiator <;>
        simp [Implementation.deriveKeys, FerrySession.deriveKeys, hparse, hdh, derive_of_le _ _ _ _ hkey,
          derive_of_le _ _ _ _ hsas, scheduledKeys, transcriptSalt]
    | android =>
      cases isInitiator with
      | true =>
        simp only [Implementation.deriveKeys, AndroidFerrySession.deriveKeys,
          AndroidFerrySession.ofHandshake, hparse, hdh, if_true, Option.bind_eq_bind, Option.bind_some,
          hkotlin _ _ hsalt hkey, hkotlin _ _ hsalt hsas, scheduledKeys, transcriptSalt, Option.map_some,
          Option.pure_def]
      | false =>
        simp only [Implementation.deriveKeys, AndroidFerrySession.deriveKeys,
          AndroidFerrySession.ofHandshake, hparse, hdh, Bool.false_eq_true, if_false,
          Option.bind_eq_bind, Option.bind_some, hkotlin _ _ hsalt' hkey, hkotlin _ _ hsalt' hsas,
          scheduledKeys, transcriptSalt, Option.map_some, Option.pure_def]

end KeyAgreement

/-! ## The digits -/

theorem length_expand {hmac : Bytes → Bytes → Bytes}
    (hlength : ∀ key message, (hmac key message).length = hashLen) (prk info : Bytes) (length : ℕ) :
    (expand hmac prk info length).length = length := by
  rw [expand, List.length_take, length_blocks hlength]
  unfold hashLen
  omega

/-- Shifting three bytes into one number reads them as a big-endian number. -/
theorem shift_three_bytes (b₀ b₁ b₂ : UInt8) :
    ((b₀.toNat &&& 0xFF) <<< 16) ||| ((b₁.toNat &&& 0xFF) <<< 8) ||| (b₂.toNat &&& 0xFF) =
      (b₀.toNat * 256 + b₁.toNat) * 256 + b₂.toNat := by
  have hmask (b : UInt8) : b.toNat &&& 0xFF = b.toNat := by
    rw [Nat.and_two_pow_sub_one_eq_mod b.toNat 8]
    exact Nat.mod_eq_of_lt b.toNat_lt
  have hlow : b₂.toNat < 2 ^ 8 := b₂.toNat_lt
  have hmid : b₁.toNat < 2 ^ 8 := b₁.toNat_lt
  have hsplit : b₀.toNat <<< 16 = (b₀.toNat <<< 8) <<< 8 := by rw [← Nat.shiftLeft_add]
  calc
    ((b₀.toNat &&& 0xFF) <<< 16) ||| ((b₁.toNat &&& 0xFF) <<< 8) ||| (b₂.toNat &&& 0xFF) =
        ((b₀.toNat <<< 8 ||| b₁.toNat) <<< 8) ||| b₂.toNat := by
      rw [hmask, hmask, hmask, hsplit, ← Nat.shiftLeft_or_distrib]
    _ = ((b₀.toNat <<< 8 + b₁.toNat) <<< 8) + b₂.toNat := by
      rw [← Nat.shiftLeft_add_eq_or_of_lt hmid, ← Nat.shiftLeft_add_eq_or_of_lt hlow]
    _ = (b₀.toNat * 256 + b₁.toNat) * 256 + b₂.toNat := by
      rw [Nat.shiftLeft_eq, Nat.shiftLeft_eq]

theorem sasCode_eq {keys : DerivedKeys} (hsas : keys.sasBytes.length = sasBytesLen)
    (impl : Implementation) : impl.sasCode keys = FerrySession.sasCode keys := by
  cases impl with
  | linux => rfl
  | android =>
    obtain ⟨b₀, b₁, b₂, hbytes⟩ := List.length_eq_three.mp hsas
    simp only [Implementation.sasCode, AndroidFerrySession.sasCode, FerrySession.sasCode, hbytes,
      List.getD_cons_zero, List.getD_cons_succ, shift_three_bytes, List.foldl_cons, List.foldl_nil,
      Nat.zero_mul, Nat.zero_add]

/-- One end's view of its keys is the other end's view of the swapped keys. -/
theorem view_swap {keys : DerivedKeys} (hsas : keys.sasBytes.length = sasBytesLen)
    (impl impl' : Implementation) :
    (impl.sasCode keys, keys.sendKey, keys.recvKey) =
      (impl'.sasCode keys.swap, keys.swap.recvKey, keys.swap.sendKey) := by
  have hswap : keys.swap.sasBytes.length = sasBytesLen := hsas
  have hcode : FerrySession.sasCode keys.swap = FerrySession.sasCode keys := by
    unfold FerrySession.sasCode
    rfl
  rw [sasCode_eq hsas, sasCode_eq hswap, hcode]
  rfl

theorem transcript_agree (implI implR : Implementation) (initHs respHs : HandshakeData) :
    implI.transcript true initHs respHs = implR.transcript false respHs initHs := by
  cases implI <;> cases implR <;> rfl

/-! ## Agreement -/

/-- The two ends of a handshake agree: the same transcript, the same digits, and crossed keys.  The
hand-written HKDF of Android is HKDF for every salt that is not empty. -/
theorem key_agreement (prim : Primitives) (implI implR : Implementation)
    (initHs respHs : HandshakeData) (initPrivate respPrivate : Bytes)
    (hlength : ∀ key message, (prim.hmac key message).length = hashLen)
    (hcommutes : prim.exchange initPrivate respHs.ephemeralPubKey =
      prim.exchange respPrivate initHs.ephemeralPubKey)
    (hinitStatic : initHs.staticPubKey.length = 32) (hrespStatic : respHs.staticPubKey.length = 32)
    (hinitEph : initHs.ephemeralPubKey.length = 32) (hrespEph : respHs.ephemeralPubKey.length = 32) :
    (implI.transcript true initHs respHs = implR.transcript false respHs initHs ∧
      (implI.transcript true initHs respHs).isSome) ∧
    ((implI.deriveKeys prim true initHs respHs initPrivate).map fun keys ↦
        (implI.sasCode keys, keys.sendKey, keys.recvKey)) =
      ((implR.deriveKeys prim false respHs initHs respPrivate).map fun keys ↦
        (implR.sasCode keys, keys.recvKey, keys.sendKey)) ∧
    ((prim.exchange initPrivate respHs.ephemeralPubKey).isSome →
      (implI.deriveKeys prim true initHs respHs initPrivate).isSome) ∧
    ∀ ikm salt info length, salt ≠ [] → length ≤ 255 * 32 →
      AndroidFerrySession.hkdfSha256 prim.hmac ikm salt info length =
        Hkdf.derive prim.hmac ikm salt info length := by
  have hI := deriveKeys_eq_scheduledKeys hlength hinitStatic hrespStatic hrespEph implI true initPrivate
  have hR := deriveKeys_eq_scheduledKeys hlength hrespStatic hinitStatic hinitEph implR false respPrivate
  refine ⟨⟨transcript_agree implI implR initHs respHs, by cases implI <;> rfl⟩, ?_, ?_, ?_⟩
  · rw [hI, hR, ← hcommutes, Option.map_map, Option.map_map]
    congr 1
    funext dhShared
    have hsas : (scheduledKeys prim.hmac true dhShared (transcriptSalt initHs respHs)).sasBytes.length =
        sasBytesLen := length_expand hlength _ _ _
    rw [Function.comp_apply, Function.comp_apply, if_neg Bool.false_ne_true, if_neg Bool.false_ne_true,
      if_pos rfl, if_pos rfl, ← swap_scheduledKeys]
    exact view_swap hsas implI implR
  · intro hdh
    rw [hI, Option.isSome_map]
    exact hdh
  · intro ikm salt info length hsalt hmax
    exact hkdfSha256_eq_derive hlength ikm hsalt info hmax

/-- HMAC-SHA256 and X25519. -/
def rfcPrimitives : Primitives where
  hmac := hmacSha256
  exchange := X25519.exchange

/-- Handshake data for a private key, with a fixed static key and a nonce of one byte. -/
def sampleHandshake (ephPrivate : Bytes) : HandshakeData :=
  ⟨List.replicate 32 1, X25519.publicKey ephPrivate, [7]⟩

theorem key_agreement_sample :
    let initPrivate := List.replicate 32 3
    let respPrivate := List.replicate 32 5
    let initHs := sampleHandshake initPrivate
    let respHs := sampleHandshake respPrivate
    (Implementation.linux.transcript true initHs respHs =
        Implementation.android.transcript false respHs initHs ∧
      (Implementation.linux.transcript true initHs respHs).isSome) ∧
    ((Implementation.linux.deriveKeys rfcPrimitives true initHs respHs initPrivate).map fun keys ↦
        (Implementation.linux.sasCode keys, keys.sendKey, keys.recvKey)) =
      ((Implementation.android.deriveKeys rfcPrimitives false respHs initHs respPrivate).map fun keys ↦
        (Implementation.android.sasCode keys, keys.recvKey, keys.sendKey)) ∧
    ((rfcPrimitives.exchange initPrivate respHs.ephemeralPubKey).isSome →
      (Implementation.linux.deriveKeys rfcPrimitives true initHs respHs initPrivate).isSome) ∧
    ∀ ikm salt info length, salt ≠ [] → length ≤ 255 * 32 →
      AndroidFerrySession.hkdfSha256 rfcPrimitives.hmac ikm salt info length =
        Hkdf.derive rfcPrimitives.hmac ikm salt info length :=
  key_agreement rfcPrimitives .linux .android (sampleHandshake (List.replicate 32 3))
    (sampleHandshake (List.replicate 32 5)) (List.replicate 32 3) (List.replicate 32 5)
    length_hmacSha256 (by decide +kernel) rfl rfl (by decide +kernel) (by decide +kernel)

end Ferry
