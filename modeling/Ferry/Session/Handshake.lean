import Ferry.Base.Base64

/-!
# Handshake data and the authentication transcript

The public material that the two sides exchange before the session is authenticated, and the byte
string that both sign.  A session view is what a session holds when it reaches the signature check:
the local triple was built by `build_local_handshake`, and the remote keys were parsed, but no check
looks at the length of the remote nonce.
-/

namespace Ferry

/-- One side of the handshake: Ed25519 key, X25519 key and nonce. -/
structure HandshakeData where
  staticPubKey : Bytes
  ephemeralPubKey : Bytes
  nonce : Bytes
  deriving DecidableEq

/-- The handshake fields of a received HANDSHAKE_INIT or HANDSHAKE_RESPONSE. -/
structure HandshakePayload where
  publicKey : Text
  ephemeralKey : Text
  nonce : Text
  deriving DecidableEq

/-- `IdentityManager.decode_public_key_b64`, where `none` stands for the `ValueError`. -/
def decodePublicKeyB64 (b64Str : Text) : Option Bytes :=
  let padding := 4 - b64Str.length % 4
  Base64.urlsafeB64decode
    (if padding ≠ 4 then b64Str ++ List.replicate padding Base64.padChar else b64Str)

theorem decodePublicKeyB64_encode (data : Bytes) :
    decodePublicKeyB64 (Base64.urlsafeB64encode data) = some data := by
  have hpad : decodePublicKeyB64 (Base64.urlsafeB64encode data) =
      Base64.urlsafeB64decode
        (Base64.urlsafeB64encode data ++ Base64.paddingFor (Base64.urlsafeB64encode data)) := by
    simp only [decodePublicKeyB64, Base64.paddingFor]
    congr 1
    split
    · next hne =>
      have hmod : (4 - (Base64.urlsafeB64encode data).length % 4) % 4 =
          4 - (Base64.urlsafeB64encode data).length % 4 := by omega
      rw [hmod]
    · next heq =>
      have hmod : (4 - (Base64.urlsafeB64encode data).length % 4) % 4 = 0 := by omega
      rw [hmod, List.replicate_zero, List.append_nil]
  rw [hpad, Base64.urlsafeB64decode_encode]

/-- `Ed25519PublicKey.from_public_bytes` and `X25519PublicKey.from_public_bytes` raise unless the
key has 32 bytes. -/
def publicKeyFromBytes (data : Bytes) : Option Bytes := if data.length = 32 then some data else none

/-! ## Linux session -/

/-- The transcript inputs of the Python `FerrySession`. -/
structure FerrySession where
  isInitiator : Bool
  localHs : Option HandshakeData
  remoteHs : Option HandshakeData
  deriving DecidableEq

/-- `b"ferry-auth-v1|"`. -/
def authPrefix : Bytes :=
  [0x66, 0x65, 0x72, 0x72, 0x79, 0x2D, 0x61, 0x75, 0x74, 0x68, 0x2D, 0x76, 0x31, 0x7C]

namespace FerrySession

/-- `build_auth_transcript`, where `none` stands for the `RuntimeError`. -/
def buildAuthTranscript (session : FerrySession) : Option Bytes := do
  let localHs ← session.localHs
  let remoteHs ← session.remoteHs
  if session.isInitiator then
    return authPrefix ++ localHs.staticPubKey ++ localHs.ephemeralPubKey ++ localHs.nonce ++
      remoteHs.staticPubKey ++ remoteHs.ephemeralPubKey ++ remoteHs.nonce
  else
    return authPrefix ++ remoteHs.staticPubKey ++ remoteHs.ephemeralPubKey ++ remoteHs.nonce ++
      localHs.staticPubKey ++ localHs.ephemeralPubKey ++ localHs.nonce

/-- `_run_handshake` from the peer's payload to the signature check.  The random values of
`build_local_handshake` are arguments; `derive_keys` parses the remote X25519 key and
`IdentityManager.verify` the remote Ed25519 key. -/
def runHandshake (isInitiator : Bool) (localHs : HandshakeData) (payload : HandshakePayload) :
    Option FerrySession := do
  let staticPubKey ← decodePublicKeyB64 payload.publicKey
  let ephemeralPubKey ← decodePublicKeyB64 payload.ephemeralKey
  let nonce ← decodePublicKeyB64 payload.nonce
  let _ ← publicKeyFromBytes ephemeralPubKey
  let _ ← publicKeyFromBytes staticPubKey
  return ⟨isInitiator, some localHs, some ⟨staticPubKey, ephemeralPubKey, nonce⟩⟩

end FerrySession

/-! ## Android session -/

/-- The transcript inputs of the Kotlin `FerrySession`. -/
structure AndroidFerrySession where
  isInitiator : Bool
  localStaticPub : Option Bytes
  localEphPub : Option Bytes
  localNonce : Option Bytes
  remoteStaticPub : Option Bytes
  remoteEphPub : Option Bytes
  remoteNonce : Option Bytes
  deriving DecidableEq

/-- `buildAuthTranscript`, where `none` stands for the failed `!!`. -/
def AndroidFerrySession.buildAuthTranscript (session : AndroidFerrySession) : Option Bytes := do
  let localStaticPub ← session.localStaticPub
  let localEphPub ← session.localEphPub
  let localNonce ← session.localNonce
  let remoteStaticPub ← session.remoteStaticPub
  let remoteEphPub ← session.remoteEphPub
  let remoteNonce ← session.remoteNonce
  if session.isInitiator then
    return authPrefix ++ localStaticPub ++ localEphPub ++ localNonce ++
      remoteStaticPub ++ remoteEphPub ++ remoteNonce
  else
    return authPrefix ++ remoteStaticPub ++ remoteEphPub ++ remoteNonce ++
      localStaticPub ++ localEphPub ++ localNonce

/-! ## Views that reach the signature check -/

/-- The handshake data of a session at the signature check. -/
structure SessionView where
  localHs : HandshakeData
  remoteHs : HandshakeData
  localStatic : localHs.staticPubKey.length = 32
  localEphemeral : localHs.ephemeralPubKey.length = 32
  localNonce : localHs.nonce.length = 16
  remoteStatic : remoteHs.staticPubKey.length = 32
  remoteEphemeral : remoteHs.ephemeralPubKey.length = 32

/-- The two implementations of the session. -/
inductive Implementation
  | linux
  | android
  deriving DecidableEq

namespace SessionView

def linuxSession (isInitiator : Bool) (view : SessionView) : FerrySession :=
  ⟨isInitiator, some view.localHs, some view.remoteHs⟩

def androidSession (isInitiator : Bool) (view : SessionView) : AndroidFerrySession where
  isInitiator := isInitiator
  localStaticPub := some view.localHs.staticPubKey
  localEphPub := some view.localHs.ephemeralPubKey
  localNonce := some view.localHs.nonce
  remoteStaticPub := some view.remoteHs.staticPubKey
  remoteEphPub := some view.remoteHs.ephemeralPubKey
  remoteNonce := some view.remoteHs.nonce

/-- What a session with this view signs, and what it checks the peer's signature against. -/
def transcript (impl : Implementation) (isInitiator : Bool) (view : SessionView) : Option Bytes :=
  match impl with
  | .linux => (view.linuxSession isInitiator).buildAuthTranscript
  | .android => (view.androidSession isInitiator).buildAuthTranscript

/-- The transcript as the list of its fields. -/
def fields (isInitiator : Bool) (view : SessionView) : List Bytes :=
  let initiator := if isInitiator then view.localHs else view.remoteHs
  let responder := if isInitiator then view.remoteHs else view.localHs
  [authPrefix, initiator.staticPubKey, initiator.ephemeralPubKey, initiator.nonce,
    responder.staticPubKey, responder.ephemeralPubKey, responder.nonce]

theorem transcript_eq_fields (impl : Implementation) (isInitiator : Bool) (view : SessionView) :
    view.transcript impl isInitiator = some (view.fields isInitiator).flatten := by
  cases impl <;> cases isInitiator <;>
    simp [transcript, linuxSession, androidSession, FerrySession.buildAuthTranscript,
      AndroidFerrySession.buildAuthTranscript, fields]

/-- The sessions that reach the signature check are exactly those of a view: every byte string is
the remote nonce of some payload. -/
theorem runHandshake_iff (isInitiator : Bool) (localHs : HandshakeData) (session : FerrySession)
    (hstatic : localHs.staticPubKey.length = 32) (heph : localHs.ephemeralPubKey.length = 32)
    (hnonce : localHs.nonce.length = 16) :
    (∃ payload, FerrySession.runHandshake isInitiator localHs payload = some session) ↔
      ∃ view : SessionView, view.localHs = localHs ∧ view.linuxSession isInitiator = session := by
  constructor
  · rintro ⟨payload, hrun⟩
    simp only [FerrySession.runHandshake, Option.bind_eq_bind, Option.bind_eq_some_iff,
      publicKeyFromBytes, Option.ite_none_right_eq_some, Option.pure_def] at hrun
    obtain ⟨static, -, eph, -, nonce, -, _, ⟨hlenEph, -⟩, _, ⟨hlenStatic, -⟩, hsession⟩ := hrun
    exact ⟨⟨localHs, ⟨static, eph, nonce⟩, hstatic, heph, hnonce, hlenStatic, hlenEph⟩, rfl,
      Option.some.inj hsession⟩
  · rintro ⟨view, rfl, rfl⟩
    refine ⟨⟨Base64.urlsafeB64encode view.remoteHs.staticPubKey,
      Base64.urlsafeB64encode view.remoteHs.ephemeralPubKey,
      Base64.urlsafeB64encode view.remoteHs.nonce⟩, ?_⟩
    simp [FerrySession.runHandshake, decodePublicKeyB64_encode, publicKeyFromBytes,
      view.remoteStatic, view.remoteEphemeral, linuxSession]

end SessionView

end Ferry
