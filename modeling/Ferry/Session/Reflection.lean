import Ferry.Session.KeyAgreement

/-!
# Reflected signatures

Any number of sessions on one network, up to the check of the peer's signature.  The attacker carries
every frame: it picks the handshake data that a session receives and the bytes of the AUTH frame.  Both
roles sign the same transcript, so an initiator that is shown its own public key accepts the signature
that it has just sent.
-/

namespace Ferry

/-- The Ed25519 calls of the platform, with private keys as byte strings. -/
structure SignatureScheme where
  publicKey : Bytes → Bytes
  sign : Bytes → Bytes → Bytes
  verify : Bytes → Bytes → Bytes → Bool

/-- A signature passes the check for its key and message, and for no other key. -/
structure SignatureScheme.Lawful (scheme : SignatureScheme) : Prop where
  complete : ∀ privateKey message,
    scheme.verify (scheme.publicKey privateKey) message (scheme.sign privateKey message) = true
  binding : ∀ key message privateKey message',
    scheme.verify key message (scheme.sign privateKey message') = true → key = scheme.publicKey privateKey

/-! ## Sessions -/

/-- What a session waits for: the handshake data of the peer, or its signature. -/
inductive AuthPhase
  | handshaking
  | authenticating (remoteHs : HandshakeData) (transcript : Bytes)
  | authenticated (remoteHs : HandshakeData) (signature : Bytes)
  | failed

/-- The session of an endpoint, with the private keys behind its handshake data. -/
structure AuthSession where
  impl : Implementation
  isInitiator : Bool
  privateKey : Bytes
  ephPrivate : Bytes
  localHs : HandshakeData
  phase : AuthPhase

/-- Derive the keys and build the transcript. -/
def AuthSession.acceptRemote (prim : Primitives) (session : AuthSession) (remoteHs : HandshakeData) :
    Option Bytes := do
  let _ ← session.impl.deriveKeys prim session.isInitiator session.localHs remoteHs session.ephPrivate
  session.impl.transcript session.isInitiator session.localHs remoteHs

/-- The sessions, and the signatures on the wire with the sessions that sent them. -/
structure AuthNetwork where
  sessions : ℕ → Option AuthSession
  frames : List (ℕ × Bytes)

/-- A session starts, receives handshake data, or receives an AUTH frame. -/
inductive AuthEvent
  | opens (i : ℕ) (impl : Implementation) (isInitiator : Bool)
      (privateKey ephPrivate ephemeralPubKey nonce : Bytes)
  | handshake (i : ℕ) (remoteHs : HandshakeData)
  | auth (i : ℕ) (signature : Bytes)

namespace AuthNetwork

def empty : AuthNetwork := ⟨fun _ ↦ none, []⟩

def setPhase (w : AuthNetwork) (i : ℕ) (session : AuthSession) (phase : AuthPhase) : AuthNetwork :=
  { w with sessions := Function.update w.sessions i (some { session with phase }) }

theorem setPhase_self (w : AuthNetwork) (i : ℕ) (session : AuthSession) (phase : AuthPhase) :
    (w.setPhase i session phase).sessions i = some { session with phase } := Function.update_self ..

/-- Put a signature on the wire. -/
def emit (w : AuthNetwork) (i : ℕ) (signature : Bytes) : AuthNetwork :=
  { w with frames := w.frames ++ [(i, signature)] }

section Steps

variable (scheme : SignatureScheme) (prim : Primitives)

/-- The session after `build_local_handshake`.  The Android client is always the initiator. -/
def newSession (impl : Implementation) (isInitiator : Bool)
    (privateKey ephPrivate ephemeralPubKey nonce : Bytes) : AuthSession where
  impl
  isInitiator := isInitiator || impl = .android
  privateKey
  ephPrivate
  localHs := ⟨scheme.publicKey privateKey, ephemeralPubKey, nonce⟩
  phase := .handshaking

/-- The handshake data of the peer: the session signs, and an initiator sends its AUTH_CHALLENGE. -/
def receiveHandshake (w : AuthNetwork) (i : ℕ) (session : AuthSession) (remoteHs : HandshakeData) :
    AuthNetwork :=
  match session.acceptRemote prim remoteHs with
  | none => w.setPhase i session .failed
  | some transcript =>
    let w := w.setPhase i session (.authenticating remoteHs transcript)
    if session.isInitiator then w.emit i (scheme.sign session.privateKey transcript) else w

/-- The signature of the peer: a responder sends its AUTH_RESPONSE before the check. -/
def receiveAuth (w : AuthNetwork) (i : ℕ) (session : AuthSession) (remoteHs : HandshakeData)
    (transcript signature : Bytes) : AuthNetwork :=
  let w := if session.isInitiator then w else w.emit i (scheme.sign session.privateKey transcript)
  if scheme.verify remoteHs.staticPubKey transcript signature then
    w.setPhase i session (.authenticated remoteHs signature)
  else w.setPhase i session .failed

/-- One event.  A frame that the session does not wait for does nothing. -/
def step (w : AuthNetwork) : AuthEvent → AuthNetwork
  | .opens i impl isInitiator privateKey ephPrivate ephemeralPubKey nonce =>
    match w.sessions i with
    | none =>
      let session := newSession scheme impl isInitiator privateKey ephPrivate ephemeralPubKey nonce
      { w with sessions := Function.update w.sessions i (some session) }
    | some _ => w
  | .handshake i remoteHs =>
    match w.sessions i with
    | none => w
    | some session =>
      match session.phase with
      | .handshaking => receiveHandshake scheme prim w i session remoteHs
      | _ => w
  | .auth i signature =>
    match w.sessions i with
    | none => w
    | some session =>
      match session.phase with
      | .authenticating remoteHs transcript =>
        receiveAuth scheme w i session remoteHs transcript signature
      | _ => w

def run (events : List AuthEvent) : AuthNetwork := events.foldl (step scheme prim) empty

end Steps

/-- A session has passed the check. -/
def IsAuthenticated (w : AuthNetwork) (i : ℕ) : Prop :=
  ∃ session remoteHs signature,
    w.sessions i = some session ∧ session.phase = .authenticated remoteHs signature

/-! ## What a session has sent -/

/-- A session has sent its own signature when it is an initiator that waits for the peer's, and nothing
before. -/
def Sends (scheme : SignatureScheme) (w : AuthNetwork) (i : ℕ) (session : AuthSession) : Prop :=
  match session.phase with
  | .handshaking => ∀ signature, (i, signature) ∉ w.frames
  | .authenticating _ transcript => ∀ signature, (i, signature) ∈ w.frames ↔
      session.isInitiator = true ∧ signature = scheme.sign session.privateKey transcript
  | _ => True

/-- What holds of every session of a run. -/
structure Consistent (scheme : SignatureScheme) (w : AuthNetwork) : Prop where
  own : ∀ i session, w.sessions i = some session →
    session.localHs.staticPubKey = scheme.publicKey session.privateKey
  sends : ∀ i session, w.sessions i = some session → Sends scheme w i session
  unopened : ∀ i, w.sessions i = none → ∀ signature, (i, signature) ∉ w.frames

variable {scheme : SignatureScheme} {prim : Primitives} {w w' : AuthNetwork} {i : ℕ}
  {session : AuthSession}

theorem consistent_empty : Consistent scheme empty where
  own _ _ h := nomatch h
  sends _ _ h := nomatch h
  unopened _ _ _ := List.not_mem_nil

/-- Another session has sent what it had sent before. -/
theorem Sends.other {j : ℕ} (h : Sends scheme w j session)
    (hframes : ∀ signature, (j, signature) ∈ w'.frames ↔ (j, signature) ∈ w.frames) :
    Sends scheme w' j session := by
  unfold Sends at h ⊢
  split at h
  · exact fun signature hmem ↦ h signature ((hframes signature).mp hmem)
  · exact fun signature ↦ (hframes signature).trans (h signature)
  · trivial

/-- A step that replaces one session and sends frames of this session only. -/
theorem Consistent.replace (h : Consistent scheme w) (i : ℕ) (session : AuthSession)
    (hown : session.localHs.staticPubKey = scheme.publicKey session.privateKey)
    (hsessions : w'.sessions = Function.update w.sessions i (some session))
    (hframes : ∀ j, j ≠ i → ∀ signature, (j, signature) ∈ w'.frames ↔ (j, signature) ∈ w.frames)
    (hsends : Sends scheme w' i session) : Consistent scheme w' := by
  have hcases : ∀ j, j = i ∧ w'.sessions j = some session ∨ j ≠ i ∧ w'.sessions j = w.sessions j := by
    intro j
    by_cases hj : j = i
    · subst hj
      exact .inl ⟨rfl, by rw [hsessions, Function.update_self]⟩
    · exact .inr ⟨hj, by rw [hsessions, Function.update_of_ne hj]⟩
  refine ⟨fun j other hother ↦ ?_, fun j other hother ↦ ?_, fun j hnone ↦ ?_⟩
  · rcases hcases j with ⟨-, hsame⟩ | ⟨-, hkept⟩
    · obtain rfl := Option.some.inj (hsame.symm.trans hother)
      exact hown
    · exact h.own j other (hkept ▸ hother)
  · rcases hcases j with ⟨rfl, hsame⟩ | ⟨hne, hkept⟩
    · obtain rfl := Option.some.inj (hsame.symm.trans hother)
      exact hsends
    · exact (h.sends j other (hkept ▸ hother)).other (hframes j hne)
  · rcases hcases j with ⟨-, hsame⟩ | ⟨hne, hkept⟩
    · exact (nomatch hsame.symm.trans hnone)
    · exact fun signature hmem ↦ h.unopened j (hkept ▸ hnone) signature
        ((hframes j hne signature).mp hmem)

theorem mem_emit {j : ℕ} {signature signature' : Bytes} :
    (j, signature') ∈ (w.emit i signature).frames ↔
      (j, signature') ∈ w.frames ∨ j = i ∧ signature' = signature := by
  simp [emit]

theorem Consistent.receiveHandshake (h : Consistent scheme w) (hi : w.sessions i = some session)
    (hphase : session.phase = .handshaking) (remoteHs : HandshakeData) :
    Consistent scheme (receiveHandshake scheme prim w i session remoteHs) := by
  have hunsent : ∀ signature, (i, signature) ∉ w.frames := by
    have hsends := h.sends i session hi
    simpa only [Sends, hphase] using hsends
  unfold AuthNetwork.receiveHandshake
  split
  · exact h.replace i { session with phase := .failed } (h.own i session hi) rfl (fun _ _ _ ↦ .rfl)
      trivial
  · next transcript _ =>
    have hown : session.localHs.staticPubKey = scheme.publicKey session.privateKey := h.own i session hi
    dsimp only
    split
    · next hinitiator =>
      refine h.replace i { session with phase := .authenticating remoteHs transcript } hown rfl
        (fun j hne signature ↦ ?_) fun signature ↦ ?_
      · simp [mem_emit, hne, setPhase]
      · simp [mem_emit, setPhase, hunsent signature, hinitiator]
    · next hresponder =>
      refine h.replace i { session with phase := .authenticating remoteHs transcript } hown rfl
        (fun _ _ _ ↦ .rfl) fun signature ↦ ?_
      simp [setPhase, hunsent signature, hresponder]

theorem Consistent.receiveAuth (h : Consistent scheme w) (hi : w.sessions i = some session)
    (remoteHs : HandshakeData) (transcript signature : Bytes) :
    Consistent scheme (receiveAuth scheme w i session remoteHs transcript signature) := by
  have hframes : ∀ (w' : AuthNetwork), w' = (if session.isInitiator then w
      else w.emit i (scheme.sign session.privateKey transcript)) →
      w'.sessions = w.sessions ∧
        ∀ j, j ≠ i → ∀ signature, (j, signature) ∈ w'.frames ↔ (j, signature) ∈ w.frames := by
    rintro _ rfl
    split
    · exact ⟨rfl, fun _ _ _ ↦ .rfl⟩
    · exact ⟨rfl, fun j hne signature ↦ by simp [mem_emit, hne]⟩
  unfold AuthNetwork.receiveAuth
  dsimp only
  generalize hw' : (if session.isInitiator then w
    else w.emit i (scheme.sign session.privateKey transcript)) = w'
  obtain ⟨hsessions, hother⟩ := hframes w' hw'.symm
  split
  · exact h.replace i { session with phase := .authenticated remoteHs signature } (h.own i session hi)
      (by rw [← hsessions]; rfl) hother trivial
  · exact h.replace i { session with phase := .failed } (h.own i session hi) (by rw [← hsessions]; rfl)
      hother trivial

theorem Consistent.step (h : Consistent scheme w) (event : AuthEvent) :
    Consistent scheme (step scheme prim w event) := by
  cases event with
  | opens i impl isInitiator privateKey ephPrivate ephemeralPubKey nonce =>
    dsimp only [AuthNetwork.step]
    split
    · next hnone => exact h.replace i _ rfl rfl (fun _ _ _ ↦ .rfl) (h.unopened i hnone)
    · exact h
  | handshake i remoteHs =>
    dsimp only [AuthNetwork.step]
    split
    · exact h
    · next session hi =>
      split
      · next hphase => exact h.receiveHandshake hi hphase remoteHs
      · exact h
  | auth i signature =>
    dsimp only [AuthNetwork.step]
    split
    · exact h
    · next session hi =>
      split
      · next remoteHs transcript _ => exact h.receiveAuth hi remoteHs transcript signature
      · exact h

theorem consistent_run (events : List AuthEvent) : Consistent scheme (run scheme prim events) :=
  List.foldlRecOn events (AuthNetwork.step scheme prim) consistent_empty fun _ h event _ ↦ h.step event

/-! ## The check -/

/-- A session that waits for the peer's signature passes the check exactly for the signatures that
verify under the key that it was shown. -/
theorem isAuthenticated_step_iff {remoteHs : HandshakeData} {transcript signature : Bytes}
    (hi : w.sessions i = some session) (hphase : session.phase = .authenticating remoteHs transcript) :
    (step scheme prim w (.auth i signature)).IsAuthenticated i ↔
      scheme.verify remoteHs.staticPubKey transcript signature = true := by
  simp only [AuthNetwork.step, hi, hphase, receiveAuth]
  split
  · next hverify => exact ⟨fun _ ↦ hverify, fun _ ↦ ⟨_, _, _, setPhase_self .., rfl⟩⟩
  · next hverify =>
    constructor
    · rintro ⟨other, remote, passed, hother, hpassed⟩
      obtain rfl := Option.some.inj ((setPhase_self ..).symm.trans hother)
      exact (nomatch hpassed)
    · exact fun htrue ↦ absurd htrue hverify

/-- In every run, a session that waits for the peer's signature refuses its own exactly when it is a
responder or was not shown its own public key. -/
theorem reflection_rejected_iff (hlawful : scheme.Lawful) (events : List AuthEvent) (i : ℕ)
    (session : AuthSession) (remoteHs : HandshakeData) (transcript : Bytes)
    (hi : (run scheme prim events).sessions i = some session)
    (hphase : session.phase = .authenticating remoteHs transcript) :
    (∀ signature, (step scheme prim (run scheme prim events) (.auth i signature)).IsAuthenticated i →
        (i, signature) ∉ (run scheme prim events).frames) ↔
      session.isInitiator = false ∨ remoteHs.staticPubKey ≠ session.localHs.staticPubKey := by
  have hconsistent := @consistent_run scheme prim events
  have hown := hconsistent.own i session hi
  have hsends := hconsistent.sends i session hi
  simp only [Sends, hphase] at hsends
  simp only [isAuthenticated_step_iff hi hphase, hsends]
  constructor
  · intro hrefuses
    by_contra hreflected
    push Not at hreflected
    obtain ⟨hinitiator, hkey⟩ := hreflected
    refine hrefuses (scheme.sign session.privateKey transcript) ?_ ⟨by simpa using hinitiator, rfl⟩
    rw [hkey, hown]
    exact hlawful.complete session.privateKey transcript
  · rintro hkeys signature hverify ⟨hinitiator, rfl⟩
    rcases hkeys with hresponder | hkey
    · exact Bool.false_ne_true (hresponder.symm.trans hinitiator)
    · exact hkey ((hlawful.binding _ _ _ _ hverify).trans hown.symm)

/-! ## An echo -/

/-- Signatures that show the public key and the message. -/
def sampleScheme : SignatureScheme where
  publicKey privateKey := (privateKey ++ List.replicate 32 0).take 32
  sign privateKey message := (privateKey ++ List.replicate 32 0).take 32 ++ message
  verify key message signature := key.length = 32 && signature = key ++ message

theorem lawful_sampleScheme : sampleScheme.Lawful where
  complete privateKey message := by simp [sampleScheme]
  binding key message privateKey message' h := by
    simp only [sampleScheme, Bool.and_eq_true, decide_eq_true_eq] at h
    exact (List.append_inj_left h.2 (by simp [h.1])).symm

/-- The private keys of a laptop, and the handshake data that an attacker shows it: the laptop's own
public key with an ephemeral key and a nonce of the attacker. -/
def echoed : List AuthEvent :=
  [.opens 0 .linux true (List.replicate 32 1) (List.replicate 32 3)
      (X25519.publicKey (List.replicate 32 3)) (List.replicate 16 7),
    .handshake 0 ⟨List.replicate 32 1, X25519.publicKey (List.replicate 32 5), List.replicate 16 9⟩]

/-- An initiator that was shown its own public key. -/
def isMirrored (session : AuthSession) : Bool :=
  match session.phase with
  | .authenticating remoteHs _ =>
    session.isInitiator && remoteHs.staticPubKey = session.localHs.staticPubKey
  | _ => false

theorem authenticating_of_isMirrored {session : AuthSession} (h : isMirrored session = true) :
    ∃ remoteHs transcript, session.phase = .authenticating remoteHs transcript ∧
      session.isInitiator = true ∧ remoteHs.staticPubKey = session.localHs.staticPubKey := by
  unfold isMirrored at h
  split at h
  · next remoteHs transcript hphase => exact ⟨remoteHs, transcript, hphase, by simpa using h⟩
  · exact absurd h Bool.false_ne_true

/-- The laptop has derived keys and waits for the signature. -/
theorem echoed_run : ∃ session, (run sampleScheme rfcPrimitives echoed).sessions 0 = some session ∧
    isMirrored session = true := by
  have hmirrored : ((run sampleScheme rfcPrimitives echoed).sessions 0).any isMirrored = true := by
    decide +kernel
  exact Option.any_eq_true _ _ |>.mp hmirrored

theorem reflection_rejected_iff_sample : ∃ session remoteHs transcript,
    (run sampleScheme rfcPrimitives echoed).sessions 0 = some session ∧
      session.phase = .authenticating remoteHs transcript ∧
      ((∀ signature,
          (step sampleScheme rfcPrimitives (run sampleScheme rfcPrimitives echoed)
            (.auth 0 signature)).IsAuthenticated 0 →
          (0, signature) ∉ (run sampleScheme rfcPrimitives echoed).frames) ↔
        session.isInitiator = false ∨ remoteHs.staticPubKey ≠ session.localHs.staticPubKey) := by
  obtain ⟨session, hi, hmirrored⟩ := echoed_run
  obtain ⟨remoteHs, transcript, hphase, -⟩ := authenticating_of_isMirrored hmirrored
  exact ⟨session, remoteHs, transcript, hi, hphase, reflection_rejected_iff lawful_sampleScheme echoed 0
    session remoteHs transcript hi hphase⟩

/-- The laptop accepts the echo of its own AUTH_CHALLENGE. -/
theorem echo_accepted : ∃ signature, (0, signature) ∈ (run sampleScheme rfcPrimitives echoed).frames ∧
    (step sampleScheme rfcPrimitives (run sampleScheme rfcPrimitives echoed)
      (.auth 0 signature)).IsAuthenticated 0 := by
  obtain ⟨session, hi, hmirrored⟩ := echoed_run
  obtain ⟨remoteHs, transcript, hphase, hinitiator, hkey⟩ :=
    authenticating_of_isMirrored hmirrored
  have hconsistent := @consistent_run sampleScheme rfcPrimitives echoed
  have hsends := hconsistent.sends 0 session hi
  simp only [Sends, hphase] at hsends
  refine ⟨_, (hsends _).mpr ⟨hinitiator, rfl⟩, (isAuthenticated_step_iff hi hphase).mpr ?_⟩
  rw [hkey, hconsistent.own 0 session hi]
  exact lawful_sampleScheme.complete session.privateKey transcript

end AuthNetwork

end Ferry
