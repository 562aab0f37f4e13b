import Ferry.Session.Handshake

/-!
# What a signature over the transcript binds

Concatenated fields of known lengths determine the fields.  The remote nonce is the one field whose
length nothing checks, and a peer that sends a nonce of another length makes the transcript of an
initiator equal to the transcript of a responder that sees other keys.
-/

namespace Ferry

/-! ## Concatenations of fields -/

/-- Two concatenations agree exactly when the fields do, once the fields have the same lengths. -/
theorem fields_eq_of_flatten_eq {fields fields' : List Bytes}
    (hlengths : fields.map List.length = fields'.map List.length)
    (hflatten : fields.flatten = fields'.flatten) : fields = fields' :=
  List.eq_iff_flatten_eq.mpr ⟨hflatten, hlengths⟩

/-- A byte string can be cut into fields of any lengths that add up to its own. -/
theorem exists_fields_of_lengths (lengths : List ℕ) (data : Bytes) (hsum : lengths.sum = data.length) :
    ∃ fields : List Bytes, fields.map List.length = lengths ∧ fields.flatten = data := by
  induction lengths generalizing data with
  | nil =>
    have hnil : data = [] := List.eq_nil_of_length_eq_zero (by simpa using hsum.symm)
    exact ⟨[], rfl, by simp [hnil]⟩
  | cons n lengths ih =>
    rw [List.sum_cons] at hsum
    obtain ⟨fields, hlengths, hflatten⟩ := ih (data.drop n) (by rw [List.length_drop]; omega)
    refine ⟨data.take n :: fields, ?_, ?_⟩
    · rw [List.map_cons, hlengths, List.length_take, Nat.min_eq_left (by omega)]
    · rw [List.flatten_cons, hflatten, List.take_append_drop]

/-! ## Ideal signatures -/

/-- An unforgeable signature: it names its signer and the message. -/
structure IdealSignature where
  signer : Bytes
  message : Option Bytes

def IdealSignature.sign (publicKey : Bytes) (message : Option Bytes) : IdealSignature :=
  ⟨publicKey, message⟩

/-- `IdentityManager.verify`. -/
def IdealSignature.verify (publicKey : Bytes) (message : Option Bytes) (signature : IdealSignature) :
    Prop :=
  signature.signer = publicKey ∧ signature.message = message

namespace SessionView

/-- Each side's local triple is the other side's remote triple. -/
def IsMirror (initiator responder : SessionView) : Prop :=
  initiator.localHs = responder.remoteHs ∧ responder.localHs = initiator.remoteHs

instance (initiator responder : SessionView) : Decidable (IsMirror initiator responder) :=
  inferInstanceAs (Decidable (_ ∧ _))

/-- The signature that the session of `signer` makes passes the check of the session of `checker`. -/
def Authenticates (impl impl' : Implementation) (isInitiator : Bool) (signer checker : SessionView) :
    Prop :=
  IdealSignature.verify checker.remoteHs.staticPubKey (checker.transcript impl' !isInitiator)
    (IdealSignature.sign signer.localHs.staticPubKey (signer.transcript impl isInitiator))

/-- The law for one pair of views: equal transcripts belong to mirror images, and a signature
authenticates only a session that sees the signer's ephemeral key. -/
structure Bound (impl impl' : Implementation) (initiator responder : SessionView) : Prop where
  mirror : initiator.transcript impl true = responder.transcript impl' false →
    IsMirror initiator responder
  initiatorKey : Authenticates impl impl' true initiator responder →
    responder.remoteHs.ephemeralPubKey = initiator.localHs.ephemeralPubKey
  responderKey : Authenticates impl' impl false responder initiator →
    initiator.remoteHs.ephemeralPubKey = responder.localHs.ephemeralPubKey

theorem bound_of_mirror {impl impl' : Implementation} {initiator responder : SessionView}
    (h : initiator.transcript impl true = responder.transcript impl' false →
      IsMirror initiator responder) : Bound impl impl' initiator responder where
  mirror := h
  initiatorKey := fun hauth ↦ by rw [(h hauth.2).1]
  responderKey := fun hauth ↦ by rw [(h hauth.2.symm).2]

/-! ## Transcripts of two views -/

theorem length_fields (view : SessionView) (isInitiator : Bool) :
    ((view.fields isInitiator).flatten).length = 158 + view.remoteHs.nonce.length := by
  cases isInitiator <;>
    simp [fields, authPrefix, view.localStatic, view.localEphemeral, view.localNonce,
      view.remoteStatic, view.remoteEphemeral] <;> omega

/-- Equal transcripts carry remote nonces of one length. -/
theorem nonce_length_eq {impl impl' : Implementation} {initiator responder : SessionView}
    (h : initiator.transcript impl true = responder.transcript impl' false) :
    initiator.remoteHs.nonce.length = responder.remoteHs.nonce.length := by
  rw [transcript_eq_fields, transcript_eq_fields, Option.some.injEq] at h
  have hlength := congrArg List.length h
  rw [length_fields, length_fields] at hlength
  omega

/-- With remote nonces of 16 bytes the fields of the two transcripts line up. -/
theorem isMirror_of_transcript_eq {impl impl' : Implementation} {initiator responder : SessionView}
    (hnonce : initiator.remoteHs.nonce.length = 16)
    (h : initiator.transcript impl true = responder.transcript impl' false) :
    IsMirror initiator responder := by
  have hnonce' : responder.remoteHs.nonce.length = 16 := (nonce_length_eq h).symm.trans hnonce
  rw [transcript_eq_fields, transcript_eq_fields, Option.some.injEq] at h
  have hfields := fields_eq_of_flatten_eq (by
    simp [fields, initiator.localStatic, initiator.localEphemeral, initiator.localNonce,
      initiator.remoteStatic, initiator.remoteEphemeral, responder.localStatic,
      responder.localEphemeral, responder.localNonce, responder.remoteStatic,
      responder.remoteEphemeral, hnonce, hnonce']) h
  simp only [fields, if_true, Bool.false_eq_true, if_false, List.cons.injEq, and_true, true_and]
    at hfields
  obtain ⟨h₁, h₂, h₃, h₄, h₅, h₆⟩ := hfields
  constructor
  · cases hlocal : initiator.localHs
    cases hremote : responder.remoteHs
    simp_all
  · cases hlocal : responder.localHs
    cases hremote : initiator.remoteHs
    simp_all

/-- Any six fields whose lengths add up to those of a view can be cut out of its transcript. -/
theorem exists_six_fields (view : SessionView) (isInitiator : Bool) (lengths : List ℕ)
    (hsum : lengths.sum = 144 + view.remoteHs.nonce.length) :
    ∃ fields : List Bytes, fields.map List.length = lengths ∧
      authPrefix ++ fields.flatten = (view.fields isInitiator).flatten := by
  obtain ⟨fields, hlengths, hflatten⟩ := exists_fields_of_lengths lengths
    (view.fields isInitiator).tail.flatten (by
      have hlength := length_fields view isInitiator
      simp only [SessionView.fields, List.flatten_cons, List.length_append, List.tail_cons]
        at hlength ⊢
      simp only [authPrefix, List.length_cons, List.length_nil] at hlength
      omega)
  exact ⟨fields, hlengths, by rw [hflatten]; rfl⟩

/-- A responder whose transcript is that of a given initiator, with the fields cut where the
responder's own lengths put them. -/
theorem exists_responder (impl impl' : Implementation) (initiator : SessionView) :
    ∃ responder : SessionView,
      initiator.transcript impl true = responder.transcript impl' false := by
  obtain ⟨fields, hlengths, hflatten⟩ := initiator.exists_six_fields true
    [32, 32, initiator.remoteHs.nonce.length, 32, 32, 16] (by simp; omega)
  simp only [List.map_eq_cons_iff, List.map_eq_nil_iff] at hlengths
  obtain ⟨rS, _, rfl, hrS, rE, _, rfl, hrE, rN, _, rfl, -, lS, _, rfl, hlS, lE, _, rfl, hlE, lN, _,
    rfl, hlN, rfl⟩ := hlengths
  refine ⟨⟨⟨lS, lE, lN⟩, ⟨rS, rE, rN⟩, hlS, hlE, hlN, hrS, hrE⟩, ?_⟩
  rw [transcript_eq_fields, transcript_eq_fields, ← hflatten]
  rfl

/-- An initiator whose transcript is that of a given responder. -/
theorem exists_initiator (impl impl' : Implementation) (responder : SessionView) :
    ∃ initiator : SessionView,
      initiator.transcript impl true = responder.transcript impl' false := by
  obtain ⟨fields, hlengths, hflatten⟩ := responder.exists_six_fields false
    [32, 32, 16, 32, 32, responder.remoteHs.nonce.length] (by simp; omega)
  simp only [List.map_eq_cons_iff, List.map_eq_nil_iff] at hlengths
  obtain ⟨lS, _, rfl, hlS, lE, _, rfl, hlE, lN, _, rfl, hlN, rS, _, rfl, hrS, rE, _, rfl, hrE, rN, _,
    rfl, -, rfl⟩ := hlengths
  refine ⟨⟨⟨lS, lE, lN⟩, ⟨rS, rE, rN⟩, hlS, hlE, hlN, hrS, hrE⟩, ?_⟩
  rw [transcript_eq_fields, transcript_eq_fields, ← hflatten]
  rfl

/-! ## The binding law -/

/-- An initiator's view is bound to its peer exactly when the remote nonce has 16 bytes. -/
theorem initiator_bound_iff (impl impl' : Implementation) (initiator : SessionView) :
    (∀ responder, Bound impl impl' initiator responder) ↔
      initiator.remoteHs.nonce.length = 16 := by
  constructor
  · intro hbound
    obtain ⟨responder, htranscript⟩ := exists_responder impl impl' initiator
    have hmirror := (hbound responder).mirror htranscript
    rw [← hmirror.2]
    exact responder.localNonce
  · intro hnonce responder
    exact bound_of_mirror (isMirror_of_transcript_eq hnonce)

theorem responder_bound_iff (impl impl' : Implementation) (responder : SessionView) :
    (∀ initiator, Bound impl impl' initiator responder) ↔
      responder.remoteHs.nonce.length = 16 := by
  constructor
  · intro hbound
    obtain ⟨initiator, htranscript⟩ := exists_initiator impl impl' responder
    have hmirror := (hbound initiator).mirror htranscript
    rw [← hmirror.1]
    exact initiator.localNonce
  · intro hnonce initiator
    exact bound_of_mirror fun h ↦
      isMirror_of_transcript_eq ((nonce_length_eq h).trans hnonce) h

/-- The transcript binds a session to its peer exactly when the peer's nonce has 16 bytes, on
either side and for every pairing of the two implementations. -/
theorem transcript_binds_iff (impl impl' : Implementation) :
    (∀ initiator : SessionView, (∀ responder, Bound impl impl' initiator responder) ↔
      initiator.remoteHs.nonce.length = 16) ∧
    (∀ responder : SessionView, (∀ initiator, Bound impl impl' initiator responder) ↔
      responder.remoteHs.nonce.length = 16) :=
  ⟨initiator_bound_iff impl impl', responder_bound_iff impl impl'⟩

/-! ## Misaligned nonces -/

/-- A man in the middle shows the initiator the responder's static key in the place of its
ephemeral key, and moves the true ephemeral key into a nonce of 48 bytes. -/
def shiftedInitiator : SessionView where
  localHs := ⟨List.replicate 32 0xA1, List.replicate 32 0xA2, List.replicate 16 0xA3⟩
  remoteHs := ⟨List.replicate 32 0xB1, List.replicate 32 0xB1,
    List.replicate 32 0xB2 ++ List.replicate 16 0xB3⟩
  localStatic := by decide
  localEphemeral := by decide
  localNonce := by decide
  remoteStatic := by decide
  remoteEphemeral := by decide

/-- The responder sees the initiator's keys and a nonce that ends in its own static key. -/
def shiftedResponder : SessionView where
  localHs := ⟨List.replicate 32 0xB1, List.replicate 32 0xB2, List.replicate 16 0xB3⟩
  remoteHs := ⟨List.replicate 32 0xA1, List.replicate 32 0xA2,
    List.replicate 16 0xA3 ++ List.replicate 32 0xB1⟩
  localStatic := by decide
  localEphemeral := by decide
  localNonce := by decide
  remoteStatic := by decide
  remoteEphemeral := by decide

/-- The two transcripts agree, the responder's signature passes the initiator's check, and the
initiator sees another ephemeral key than the responder's. -/
theorem not_bound_shifted :
    ¬Bound .linux .linux shiftedInitiator shiftedResponder ∧
      shiftedInitiator.transcript .linux true = shiftedResponder.transcript .linux false ∧
      Authenticates .linux .linux false shiftedResponder shiftedInitiator ∧
      shiftedInitiator.remoteHs.ephemeralPubKey ≠ shiftedResponder.localHs.ephemeralPubKey := by
  have htranscript : shiftedInitiator.transcript .linux true =
      shiftedResponder.transcript .linux false := by decide +kernel
  have hkey : shiftedInitiator.remoteHs.ephemeralPubKey ≠
      shiftedResponder.localHs.ephemeralPubKey := by decide
  have hauth : Authenticates .linux .linux false shiftedResponder shiftedInitiator :=
    ⟨by decide, htranscript.symm⟩
  exact ⟨fun hbound ↦ hkey (hbound.responderKey hauth), htranscript, hauth, hkey⟩

end SessionView

end Ferry
