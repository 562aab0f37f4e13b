import Ferry.Android.Pairing

/-!
# Pairing between the desktop and the phone

The two sessions of one connection after the authentication, with their trust decisions, the clicks of
the users and the messages of the pairing in flight in both directions.  When nothing is left to
deliver and nobody is asked any more, both sessions are ESTABLISHED and both keys are stored, unless
the desktop trusts the phone and the phone does not trust the desktop.  In that case the desktop is
ESTABLISHED at once and does not answer the ACCEPT of the phone, which waits for it.
-/

namespace Ferry

open Exec Text

/-! ## The trust decisions -/

/-- The trust decision at the end of `_run_handshake`. -/
def PairingSession.decideTrust (now : ℤ) : Exec PyError PairingSession Unit := do
  let ps ← get
  let isPaired ← zoom PairingSession.db (fun db ps ↦ { ps with db := db }) (trustExisting now ps.remote)
  if isPaired then
    transition .established
    tryCatch (sendEncrypted .capabilities) fun _ ↦ pure ()
  else transition .pairing

/-- The trust decision of `runSession`. -/
def ClientSession.decideTrust (remoteIsPaired : Bool) : Exec KotlinException ClientSession Unit := do
  modify fun cs ↦
    { cs with isTrusted := cs.trustStore.isKnownPeer cs.peer.staticB64 && remoteIsPaired }
  let cs ← get
  if cs.isTrusted then
    transition .established
    tryCatch (writeMessage .capabilities) fun _ ↦ pure ()
  else transition .pairing

/-- The decrypted frame of a message. -/
def SessionMessage.plaintext : SessionMessage → Plaintext
  | .pairDecision true =>
    .control ⟨some .pairDecision, .obj [(lit "decision", .str (lit "ACCEPT"))] []⟩
  | .pairDecision false =>
    .control ⟨some .pairDecision, .obj [(lit "decision", .str (lit "REJECT"))] []⟩
  | .capabilities =>
    .control ⟨some .capabilities, .obj [(lit "capabilities", .arr [.str (lit "notify.v1")] [])] []⟩

/-! ## The connection -/

/-- Both ends before the trust decisions: the database of the desktop and what the phone sent of
itself, and the trust store of the phone and what the desktop sent.  The phone sends an id and a
name, the texts are such that SQLite can store them, and no statement fails. -/
structure PairingSetup where
  now : ℤ
  db : Database
  phoneId : Text
  phoneName : Text
  phoneKey : Text
  trustStore : FerryTrustStore
  desktop : HandshakePeer
  pendingPeer : Option HandshakePeer
  phoneId_ne : phoneId ≠ []
  phoneName_ne : phoneName ≠ []
  plain : ∀ t ∈ [phoneId, phoneName, phoneKey], t.any isSurrogate = false
  stored : ∀ row ∈ db.devices.rows, row.publicKey.any isSurrogate = false
  reliable : ∀ fault ∈ db.faults, fault = false

/-- One connection.  `asked` says that the desktop asked its user, and the counters say how many
messages of the other side each side has processed. -/
structure Connection where
  desktop : PairingSession
  asked : Bool
  phone : ClientSession
  deliveredToPhone : ℕ
  deliveredToDesktop : ℕ

/-- What may happen to a connection that nobody rejects and nothing cuts. -/
inductive ConnectionEvent
  | desktopAccepts (now : ℤ) (uuid : Text)
  | phoneAccepts (now : ℤ)
  | startLoop
  | stepLaunched (index : ℕ)
  | deliverToPhone (now : ℤ)
  | deliverToDesktop (now : ℤ) (uuid : Text)

namespace PairingSetup

/-- The phone as the desktop sees it. -/
def phone (setup : PairingSetup) : RemotePeer :=
  ⟨.str setup.phoneId, .str setup.phoneName, setup.phoneKey⟩

/-- The desktop trusts the key of the phone, which is also the `is_paired` of its response. -/
def DesktopTrusts (setup : PairingSetup) : Prop :=
  (setup.db.devices.byPublicKey setup.phoneKey).isSome

instance (setup : PairingSetup) : Decidable setup.DesktopTrusts := inferInstanceAs (Decidable (_ = true))

/-- The phone trusts the key of the desktop. -/
def PhoneTrusts (setup : PairingSetup) : Prop :=
  setup.trustStore.isKnownPeer setup.desktop.staticB64

instance (setup : PairingSetup) : Decidable setup.PhoneTrusts := inferInstanceAs (Decidable (_ = true))

/-- The session of the desktop after the authentication. -/
def desktopSession (setup : PairingSetup) : PairingSession where
  state := .authenticating
  remote := setup.phone
  db := setup.db
  running := true
  active := true
  rejecting := 0
  sent := []
  localAccepted := false
  remoteAccepted := false
  localRejected := false
  remoteRejected := false

/-- The session of the phone after the authentication. -/
def phoneSession (setup : PairingSetup) : ClientSession where
  state := .authenticating
  peer := setup.desktop
  isTrusted := false
  pendingPeer := setup.pendingPeer
  trustStore := setup.trustStore
  activeOutput := false
  connected := true
  running := false
  ended := false
  launched := []
  sent := []
  acceptCalled := false
  acceptedByPeer := false

/-- Both sides have decided whether they trust the other. -/
def start (setup : PairingSetup) : Connection :=
  let desktop := (PairingSession.decideTrust setup.now setup.desktopSession).2
  let isPaired := (setup.db.devices.byPublicKey setup.phoneKey).isSome
  { desktop
    asked := desktop.state = .pairing
    phone := (ClientSession.decideTrust isPaired setup.phoneSession).2
    deliveredToPhone := 0
    deliveredToDesktop := 0 }

end PairingSetup

namespace Connection

def step (c : Connection) : ConnectionEvent → Connection
  | .desktopAccepts now uuid =>
    if c.asked then { c with desktop := c.desktop.step (.acceptPairing now uuid) } else c
  | .phoneAccepts now => { c with phone := c.phone.step (.acceptPairing now) }
  | .startLoop => { c with phone := c.phone.step .startLoop }
  | .stepLaunched index => { c with phone := c.phone.step (.stepLaunched index) }
  | .deliverToPhone now =>
    match c.desktop.sent[c.deliveredToPhone]? with
    | some message =>
      if c.phone.running then
        { c with
          phone := c.phone.step (.frame message.plaintext now false)
          deliveredToPhone := c.deliveredToPhone + 1 }
      else c
    | none => c
  | .deliverToDesktop now uuid =>
    match c.phone.sent[c.deliveredToDesktop]? with
    | some message =>
      { c with
        desktop := c.desktop.step (.frame message.plaintext now uuid false false)
        deliveredToDesktop := c.deliveredToDesktop + 1 }
    | none => c

def run (c : Connection) (events : List ConnectionEvent) : Connection := events.foldl step c

/-- The messages that the phone has processed. -/
def heardByPhone (c : Connection) : List SessionMessage := c.desktop.sent.take c.deliveredToPhone

/-- The messages that the desktop has processed. -/
def heardByDesktop (c : Connection) : List SessionMessage := c.phone.sent.take c.deliveredToDesktop

/-- No message is in flight or about to be sent, and no user is asked. -/
structure Quiescent (c : Connection) : Prop where
  toPhone : c.deliveredToPhone = c.desktop.sent.length
  toDesktop : c.deliveredToDesktop = c.phone.sent.length
  running : c.phone.running = true
  launched : c.phone.launched = []
  desktopDecided : c.desktop.state ∉ [.pairing, .waitingForLocalDecision]
  phoneDecided : c.phone.state ≠ .pairing

/-- Both sessions are ESTABLISHED and both keys are stored. -/
structure Agreed (c : Connection) : Prop where
  desktop : c.desktop.state = .established
  phone : c.phone.state = .established
  desktopTrusts : c.desktop.Trusted
  phoneTrusts : c.phone.Trusted

/-- The coroutine that sends the ACCEPT of a click runs when the loop of the phone has set
`activeOutput`. -/
def LaunchesInLoop (c : Connection) : ConnectionEvent → Prop
  | .stepLaunched index =>
    c.phone.launched[index]? = some .acceptance → c.phone.activeOutput = true
  | _ => True

/-- Every event of a run meets the condition in the state that it starts in. -/
def RunLaunchesInLoop : Connection → List ConnectionEvent → Prop
  | _, [] => True
  | c, event :: events => c.LaunchesInLoop event ∧ RunLaunchesInLoop (c.step event) events

end Connection

/-! ## The desktop -/

namespace PairingSession

/-- The state after an `accept_pairing`. -/
def afterClick : SessionState → SessionState
  | .pairing => .waitingForRemoteDecision
  | .waitingForLocalDecision => .established
  | state => state

/-- The state after an ACCEPT of the peer. -/
def afterAccept : SessionState → SessionState
  | .pairing => .waitingForLocalDecision
  | .waitingForRemoteDecision => .established
  | state => state

/-- What holds of the session of the desktop throughout a connection. -/
structure Ready (setup : PairingSetup) (ps : PairingSession) : Prop where
  remote : ps.remote = setup.phone
  running : ps.running = true
  active : ps.active = true
  reliable : ∀ fault ∈ ps.db.faults, fault = false
  state : ps.state ∈
    [.pairing, .waitingForLocalDecision, .waitingForRemoteDecision, .established]
  trusted : ps.state = .established → ps.Trusted

/-- Outcomes of statements are used up. -/
def UsesFaults (db db' : Database) : Prop := db'.faults <:+ db.faults

instance : IsPreorder Database UsesFaults where
  refl := fun _ ↦ List.suffix_rfl
  trans := fun _ _ _ h h' ↦ h'.trans h

theorem usesFaults_addOrUpdateDevice (deviceId deviceName : JsonValue) (publicKey key : Text)
    (pairedAt lastSeen : ℤ) :
    Stays UsesFaults (Database.addOrUpdateDevice deviceId deviceName publicKey key pairedAt lastSeen) := by
  have haccess : Stays UsesFaults Database.access := by
    apply stays_get_bind
    intro db
    have htail : Stays UsesFaults (modify fun db : Database ↦ { db with faults := db.faults.tail } :
        Exec PyError Database PUnit) := stays_modify fun db ↦ List.tail_suffix db.faults
    exact stays_bind htail (fun _ ↦ stays_raiseIf _ _) db
  exact stays_bind haccess fun _ ↦ stays_bind (stays_ofResult _) fun _ ↦
    stays_bind (stays_ofResult _) fun _ ↦ stays_bind (stays_raiseIf _ _) fun _ ↦
      stays_bind (stays_raiseIf _ _) fun _ ↦ stays_bind (stays_ofResult _) fun _ ↦
        stays_modify fun _ ↦ List.suffix_rfl

section Desktop

variable {setup : PairingSetup} {ps : PairingSession}

theorem Ready.persistable (h : ps.Ready setup) (uuid : Text) : Persistable uuid ps.remote ps.db := by
  have hfault : ps.db.faults.headD false = false := by
    have hreliable := h.reliable
    cases hfaults : ps.db.faults with
    | nil => rfl
    | cons fault rest => exact hreliable fault (by simp [hfaults])
  have hid : setup.phoneId.any isSurrogate = false := setup.plain _ (by simp)
  have hname : setup.phoneName.any isSurrogate = false := setup.plain _ (by simp)
  have hkey : setup.phoneKey.any isSurrogate = false := setup.plain _ (by simp)
  rw [h.remote]
  refine ⟨hfault, ⟨some setup.phoneId, ?_⟩, ⟨setup.phoneName, ?_⟩, hkey⟩
  · simp [PairingSetup.phone, JsonValue.or, JsonValue.truthy, setup.phoneId_ne, Database.column, hid]
  · simp [PairingSetup.phone, JsonValue.or, JsonValue.truthy, setup.phoneName_ne, Database.column, hname]

/-- A completed pairing keeps the session ready. -/
theorem establish_spec (h : ps.Ready setup) (hvalid : .pairAccepted ∈ ps.state.validTransitions)
    (now : ℤ) (uuid : Text) :
    wp (establish now uuid) (fun r t ↦ r = .ok () ∧ t.Ready setup ∧ t.state = .established ∧
      t.sent = ps.sent) ps := by
  unfold establish persist
  rw [wp_bind]
  apply wp_transition hvalid
  rw [wp_bind, wp_get_bind, wp_zoom]
  apply wp_mono (wp_and (wp_persistTrust now uuid ps.remote)
    (usesFaults_addOrUpdateDevice _ _ _ _ _ _ ps.db))
  intro r db hwritten
  obtain ⟨⟨rfl, hstored⟩ | ⟨e, rfl, hnot, -⟩, hfaults⟩ := hwritten
  · apply wp_transition List.mem_cons_self
    exact ⟨rfl, ⟨h.remote, h.running, h.active, fun fault hmem ↦ h.reliable fault (hfaults.subset hmem),
      by simp, fun _ ↦ hstored⟩, rfl, rfl⟩
  · exact absurd (h.persistable uuid) hnot

/-- A move between two states of the pairing before its end keeps the session ready. -/
theorem Ready.wait (h : ps.Ready setup) {state : SessionState}
    (hstate : state ∈ [.waitingForLocalDecision, .waitingForRemoteDecision]) :
    Ready setup { ps with state := state } := by
  refine ⟨h.remote, h.running, h.active, h.reliable, ?_, fun hestablished ↦ ?_⟩
  · simp only [List.mem_cons, List.not_mem_nil, or_false] at hstate ⊢
    tauto
  · rw [show state = .established from hestablished] at hstate
    exact absurd hstate (by decide)

/-- A click of the user, in any state. -/
theorem acceptPairing_spec (h : ps.Ready setup) (now : ℤ) (uuid : Text) :
    wp (acceptPairing now uuid) (fun _ t ↦ t.Ready setup ∧ t.state = afterClick ps.state ∧
      t.sent = ps.sent ++ [.pairDecision true]) ps := by
  have hlocal : wp (acceptLocally now uuid) (fun r t ↦ r = .ok () ∧ t.Ready setup ∧
      t.state = afterClick ps.state ∧ t.sent = ps.sent) { ps with localAccepted := true } := by
    have hready : Ready setup { ps with localAccepted := true } :=
      ⟨h.remote, h.running, h.active, h.reliable, h.state, h.trusted⟩
    unfold acceptLocally
    rw [wp_get_bind, wp_ite, wp_ite, wp_pure]
    refine ⟨fun hstate ↦ ?_, fun hpairing ↦ ⟨fun hstate ↦ ?_, fun hwaiting ↦ ?_⟩⟩
    · replace hstate : ps.state = .pairing := hstate
      apply wp_transition
      · rw [hstate]
        decide
      · exact ⟨rfl, hready.wait (by decide), by rw [hstate]; rfl, rfl⟩
    · replace hstate : ps.state = .waitingForLocalDecision := hstate
      have hvalid : SessionState.pairAccepted ∈ ps.state.validTransitions := by
        rw [hstate]
        decide
      apply wp_mono (establish_spec hready hvalid now uuid)
      intro r t ht
      rw [hstate]
      exact ht
    · refine ⟨rfl, hready, ?_, rfl⟩
      change ps.state = _
      unfold afterClick
      split <;> first | rfl | exact absurd (by assumption) ‹¬_›
  unfold acceptPairing
  rw [wp_modify_bind]
  apply wp_bind_of hlocal (fun _ _ ht ↦ by simp at ht)
  intro u t ht
  obtain ⟨-, hready, hstate, hsent⟩ := ht
  have hsends : t.state ∉ SessionState.refusesToSend := by
    have hmem := hready.state
    simp only [List.mem_cons, List.not_mem_nil, or_false] at hmem
    rcases hmem with hmem | hmem | hmem | hmem <;> rw [hmem] <;> decide
  unfold sendEncrypted
  rw [wp_get_bind, wp_raiseIf_bind, wp_modify]
  refine ⟨fun hrefuses ↦ absurd hrefuses hsends, fun _ ↦ ⟨?_, hstate, ?_⟩⟩
  · exact ⟨hready.remote, hready.running, hready.active, hready.reliable, hready.state, hready.trusted⟩
  · rw [← hsent]

/-- An ACCEPT of the phone, in any state. -/
theorem acceptRemotely_spec (h : ps.Ready setup) (now : ℤ) (uuid : Text) :
    wp (acceptRemotely now uuid) (fun r t ↦ r = .ok () ∧ t.Ready setup ∧
      t.state = afterAccept ps.state ∧
      (t.sent = ps.sent ∨ t.sent = ps.sent ++ [.capabilities])) ps := by
  unfold acceptRemotely
  rw [wp_get_bind, wp_ite, wp_ite, wp_pure]
  refine ⟨fun hstate ↦ ?_, fun hpairing ↦ ⟨fun hstate ↦ ?_, fun hwaiting ↦ ?_⟩⟩
  · apply wp_transition
    · rw [hstate]
      decide
    · exact ⟨rfl, h.wait (by decide), by rw [hstate]; rfl, .inl rfl⟩
  · have hvalid : SessionState.pairAccepted ∈ ps.state.validTransitions := by
      rw [hstate]
      decide
    apply wp_bind_of (establish_spec h hvalid now uuid) (fun _ _ ht ↦ by simp at ht)
    intro u t ht
    obtain ⟨-, hready, hestablished, hsent⟩ := ht
    have hafter : t.state = afterAccept ps.state := by
      rw [hestablished, hstate]
      rfl
    have hkeeps : ∀ sent, Ready setup { t with sent := sent } := fun sent ↦
      ⟨hready.remote, hready.running, hready.active, hready.reliable, hready.state, hready.trusted⟩
    unfold sendEncrypted
    rw [wp_tryCatch, wp_get_bind, wp_raiseIf_bind, wp_modify]
    refine ⟨fun _ ↦ ⟨rfl, hready, hafter, .inl hsent⟩, fun _ ↦ ⟨rfl, hkeeps _, hafter, .inr ?_⟩⟩
    rw [← hsent]
  · refine ⟨rfl, h, ?_, .inl rfl⟩
    unfold afterAccept
    split <;> first | rfl | exact absurd (by assumption) ‹¬_›

theorem processFrame_accept (now : ℤ) (uuid : Text) (raises : Bool) :
    processFrame (SessionMessage.pairDecision true).plaintext now uuid raises = do
      modify fun ps ↦ { ps with remoteAccepted := true }
      acceptRemotely now uuid
      return false := rfl

/-- A message of the phone, which rejects nothing. -/
theorem frame_spec (h : ps.Ready setup) {message : SessionMessage}
    (hmessage : message ≠ .pairDecision false) (now : ℤ) (uuid : Text) :
    (ps.step (.frame message.plaintext now uuid false false)).Ready setup ∧
    (ps.step (.frame message.plaintext now uuid false false)).state =
      (if message = .pairDecision true then afterAccept ps.state else ps.state) ∧
    ((ps.step (.frame message.plaintext now uuid false false)).sent = ps.sent ∨
      (ps.step (.frame message.plaintext now uuid false false)).sent = ps.sent ++ [.capabilities]) := by
  have hround : wp (processFrame message.plaintext now uuid false) (fun r t ↦ r = .ok false ∧
      t.Ready setup ∧
      t.state = (if message = .pairDecision true then afterAccept ps.state else ps.state) ∧
      (t.sent = ps.sent ∨ t.sent = ps.sent ++ [.capabilities])) ps := by
    cases message with
    | capabilities => exact ⟨rfl, h, rfl, .inl rfl⟩
    | pairDecision accept =>
      cases accept with
      | false => exact absurd rfl hmessage
      | true =>
        have hready : Ready setup { ps with remoteAccepted := true } :=
          ⟨h.remote, h.running, h.active, h.reliable, h.state, h.trusted⟩
        rw [processFrame_accept, wp_modify_bind]
        apply wp_bind_of (acceptRemotely_spec hready now uuid) (fun _ _ ht ↦ by simp at ht)
        intro u t ht
        exact ⟨rfl, ht.2⟩
  rcases hrun : processFrame message.plaintext now uuid false ps with ⟨r, t⟩
  rw [wp, hrun] at hround
  obtain ⟨rfl, hpost⟩ := hround
  have hstep : ps.step (.frame message.plaintext now uuid false false) = t := by
    rw [step, if_pos h.running, hrun]
  rw [hstep]
  exact hpost

end Desktop

end PairingSession

/-! ## The phone -/

namespace ClientSession

/-- What holds of the session of the phone throughout a connection. -/
structure Ready (setup : PairingSetup) (cs : ClientSession) : Prop where
  connected : cs.connected = true
  ended : cs.ended = false
  output : cs.activeOutput = cs.running
  pending : cs.running = true → cs.state ≠ .established → cs.pendingPeer = some cs.peer
  untrusted : cs.state ≠ .established → cs.isTrusted = false
  state : cs.state ∈ [.pairing, .waitingForRemoteDecision, .established]
  trusted : cs.state = .established → cs.Trusted
  launched : .rejection ∉ cs.launched

section Phone

variable {setup : PairingSetup} {cs : ClientSession}

theorem startLoop_spec (h : cs.Ready setup) :
    (cs.step .startLoop).Ready setup ∧ (cs.step .startLoop).state = cs.state ∧
      (cs.step .startLoop).sent = cs.sent ∧ (cs.step .startLoop).launched = cs.launched := by
  rw [step]
  split
  · exact ⟨h, rfl, rfl, rfl⟩
  · refine ⟨⟨h.connected, h.ended, rfl, fun _ hstate ↦ ?_, h.untrusted, h.state, h.trusted, h.launched⟩,
      rfl, rfl, rfl⟩
    exact if_neg (by simp [h.untrusted hstate])

/-- A click of the user, in any state. -/
theorem acceptPairing_spec (h : cs.Ready setup) (now : ℤ) :
    (cs.step (.acceptPairing now)).Ready setup ∧ (cs.step (.acceptPairing now)).sent = cs.sent ∧
    (cs.state = .pairing ∧ (cs.step (.acceptPairing now)).state = .waitingForRemoteDecision ∧
        (cs.step (.acceptPairing now)).launched = cs.launched ++ [.acceptance] ∨
      cs.state ≠ .pairing ∧ (cs.step (.acceptPairing now)).state = cs.state ∧
        (cs.step (.acceptPairing now)).launched = cs.launched) := by
  have hlaunched : Launched.rejection ∉ cs.launched ++ [.acceptance] := by
    simp [h.launched]
  have hwaiting : cs.state = .pairing → Ready setup { cs with
      acceptCalled := true
      state := .waitingForRemoteDecision
      launched := cs.launched ++ [.acceptance] } := by
    intro hstate
    have hnot : cs.state ≠ .established := by
      rw [hstate]
      decide
    exact ⟨h.connected, h.ended, h.output, fun hrunning _ ↦ h.pending hrunning hnot,
      fun _ ↦ h.untrusted hnot, by simp, fun hestablished ↦ by simp at hestablished, hlaunched⟩
  have hclick : wp (acceptPairing now) (fun _ t ↦ t.Ready setup ∧ t.sent = cs.sent ∧
      (cs.state = .pairing ∧ t.state = .waitingForRemoteDecision ∧
          t.launched = cs.launched ++ [.acceptance] ∨
        cs.state ≠ .pairing ∧ t.state = cs.state ∧ t.launched = cs.launched)) cs := by
    unfold acceptPairing acceptLocally
    rw [wp_modify_bind, wp_get_bind, wp_ite, wp_pure]
    refine ⟨fun hstate ↦ ?_, fun hstate ↦ ?_⟩
    · have hmem := h.state
      replace hstate : cs.state = .pairing := by
        refine hstate.resolve_right fun hwaiting ↦ ?_
        rw [show cs.state = .waitingForLocalDecision from hwaiting] at hmem
        exact absurd hmem (by decide)
      rw [wp_bind, wp_get_bind, wp_ite]
      refine ⟨fun _ ↦ ?_, fun hnot ↦ absurd hstate hnot⟩
      apply wp_transition
      · intro _
        exact ⟨hwaiting hstate, rfl, .inl ⟨hstate, rfl, rfl⟩⟩
      · intro hnot
        exact absurd (by simp [hstate, SessionState.kotlinTransitions]) hnot
    · refine ⟨⟨h.connected, h.ended, h.output, h.pending, h.untrusted, h.state, h.trusted, h.launched⟩,
        rfl, .inr ⟨fun hpairing ↦ hstate (.inl hpairing), rfl, rfl⟩⟩
  exact hclick

/-- A message that the loop of the phone writes. -/
theorem wp_sends (h : cs.Ready setup) (hrunning : cs.running = true) {message : SessionMessage}
    {Q : Except KotlinException Unit → ClientSession → Prop}
    (hQ : Q (.ok ()) { cs with sent := cs.sent ++ [message] }) :
    wp (tryCatch (sendEncrypted message) fun _ ↦ pure ()) Q cs := by
  unfold sendEncrypted writeMessage
  rw [wp_tryCatch, wp_get_bind, wp_ite, wp_get_bind, wp_raiseIf_bind, wp_modify]
  refine ⟨fun _ ↦ ⟨fun hdown ↦ ?_, fun _ ↦ hQ⟩, fun hnone ↦ ?_⟩
  · exact absurd h.connected (by simp [hdown])
  · exact absurd h.output (by simp [hrunning, hnone])

theorem Ready.withSent (h : cs.Ready setup) (sent : List SessionMessage) :
    Ready setup { cs with sent := sent } :=
  ⟨h.connected, h.ended, h.output, h.pending, h.untrusted, h.state, h.trusted, h.launched⟩

/-- A message of a launched coroutine, which is written when the loop has started. -/
theorem wp_maySend (h : cs.Ready setup) {message : SessionMessage}
    {Q : Except KotlinException Unit → ClientSession → Prop}
    (hsent : cs.running = true → Q (.ok ()) { cs with sent := cs.sent ++ [message] })
    (hnot : cs.running = false → Q (.ok ()) cs) :
    wp (tryCatch (sendEncrypted message) fun _ ↦ pure ()) Q cs := by
  cases hrunning : cs.running with
  | true => exact wp_sends h hrunning (hsent hrunning)
  | false =>
    unfold sendEncrypted
    rw [wp_tryCatch, wp_get_bind, wp_ite, wp_pure]
    refine ⟨fun houtput ↦ ?_, fun _ ↦ hnot hrunning⟩
    exact absurd h.output (by simp [hrunning, houtput])

/-- A step of a launched coroutine sends no rejection, and loses no acceptance when the loop runs. -/
theorem stepLaunched_spec (h : cs.Ready setup) {index : ℕ}
    (hloop : cs.launched[index]? = some .acceptance → cs.running = true) :
    (cs.step (.stepLaunched index)).Ready setup ∧
    (cs.step (.stepLaunched index)).state = cs.state ∧
    ∃ extra, (cs.step (.stepLaunched index)).sent = cs.sent ++ extra ∧ .pairDecision false ∉ extra ∧
      (.acceptance ∈ cs.launched → .pairDecision true ∈ extra ∨
        .acceptance ∈ (cs.step (.stepLaunched index)).launched) := by
  have herased : ∀ rest : List Launched, .rejection ∉ rest →
      ∀ sent, Ready setup { cs with sent := sent, launched := cs.launched.eraseIdx index ++ rest } := by
    intro rest hrest sent
    refine ⟨h.connected, h.ended, h.output, h.pending, h.untrusted, h.state, h.trusted, ?_⟩
    rw [List.mem_append]
    exact fun hmem ↦ hmem.elim (fun hmem ↦ h.launched (List.mem_of_mem_eraseIdx hmem)) hrest
  have hother : ∀ {task}, cs.launched[index]? = some task → task ≠ .acceptance →
      .acceptance ∈ cs.launched → .acceptance ∈ cs.launched.eraseIdx index := by
    intro task htask hne hmem
    obtain ⟨i, hi⟩ := List.mem_iff_getElem?.mp hmem
    apply List.mem_eraseIdx_iff_getElem?.mpr
    refine ⟨i, fun hsame ↦ hne ?_, hi⟩
    rw [hsame, htask] at hi
    exact Option.some.inj hi
  rw [step, runLaunched]
  cases htask : cs.launched[index]? with
  | none => exact ⟨h, rfl, [], by simp, by simp, .inr⟩
  | some task =>
    have hstepped : wp (stepLaunched task) (fun r t ↦ ∃ rest extra, r = .ok rest ∧
        t = { cs with sent := cs.sent ++ extra } ∧ .rejection ∉ rest ∧ .pairDecision false ∉ extra ∧
        (task = .acceptance → .pairDecision true ∈ extra)) cs := by
      cases task with
      | rejection => exact absurd (List.mem_of_getElem? htask) h.launched
      | acceptance =>
        unfold stepLaunched
        rw [wp_bind]
        apply wp_sends h (hloop htask)
        exact ⟨[.capabilities], [.pairDecision true], rfl, rfl, by simp, by simp, by simp⟩
      | capabilities =>
        unfold stepLaunched advertiseCapabilities
        rw [wp_bind, wp_get_bind, wp_ite, wp_pure]
        have hsilent : cs = { cs with sent := cs.sent ++ [] } := by rw [List.append_nil]
        refine ⟨fun _ ↦ ?_, fun _ ↦ ⟨[], [], rfl, hsilent, by simp, by simp, by simp⟩⟩
        apply wp_maySend h
        · exact fun _ ↦ ⟨[], [.capabilities], rfl, rfl, by simp, by simp, by simp⟩
        · exact fun _ ↦ ⟨[], [], rfl, hsilent, by simp, by simp, by simp⟩
    rcases hrun : stepLaunched task cs with ⟨r, t⟩
    rw [wp, hrun] at hstepped
    obtain ⟨rest, extra, rfl, rfl, hrest, hextra, haccept⟩ := hstepped
    simp only [hrun]
    refine ⟨herased rest hrest _, trivial, extra, rfl, hextra, fun hmem ↦ ?_⟩
    by_cases hacceptance : task = .acceptance
    · exact .inl (haccept hacceptance)
    · exact .inr (List.mem_append_left _ (hother htask hacceptance hmem))

/-- A completed pairing. -/
theorem establish_spec (h : cs.Ready setup) (hrunning : cs.running = true)
    (hstate : cs.state = .pairing ∨ cs.state = .waitingForRemoteDecision) (now : ℤ) :
    wp (establish now) (fun r t ↦ r = .ok () ∧ t.Ready setup ∧ t.running = true ∧
      t.state = .established ∧ t.sent = cs.sent ∧ t.launched = cs.launched) cs := by
  have hpending : cs.pendingPeer = some cs.peer := by
    apply h.pending hrunning
    rcases hstate with hstate | hstate <;> simp [hstate]
  have hknown : (cs.trustStore.persistTrust now cs.peer.deviceId cs.peer.deviceName
      cs.peer.staticB64).isKnownPeer cs.peer.staticB64 :=
    FerryTrustStore.isKnownPeer_persistTrust.mpr (.inl rfl)
  unfold establish persistPendingTrust
  rw [wp_bind]
  apply wp_transition
  · intro _
    rw [wp_modify_bind]
    simp only [hpending]
    apply wp_transition
    · intro _
      exact ⟨rfl, ⟨h.connected, h.ended, h.output, fun _ hnot ↦ absurd rfl hnot,
        fun hnot ↦ absurd rfl hnot, by simp, fun _ ↦ hknown, h.launched⟩, hrunning, rfl, rfl, rfl⟩
    · intro hnot
      exact absurd List.mem_cons_self hnot
  · intro hnot
    rcases hstate with hstate | hstate <;>
      exact absurd (by simp [hstate, SessionState.kotlinTransitions]) hnot

/-- An ACCEPT of the desktop, in any state. -/
theorem acceptRemotely_spec (h : cs.Ready setup) (hrunning : cs.running = true) (now : ℤ) :
    wp (acceptRemotely now) (fun r t ↦ r = .ok () ∧ t.Ready setup ∧ t.state = .established ∧
      t.launched = cs.launched ∧ ∃ extra, t.sent = cs.sent ++ extra ∧ .pairDecision false ∉ extra ∧
        (cs.state = .pairing → .pairDecision true ∈ extra)) cs := by
  unfold acceptRemotely
  rw [wp_get_bind, wp_ite, wp_ite, wp_ite, wp_pure, wp_modify_bind]
  refine ⟨fun hstate ↦ ?_, fun hpairing ↦ ⟨fun hstate ↦ ?_, fun hwaiting ↦
    ⟨fun hstate ↦ ?_, fun hestablished ↦ ?_⟩⟩⟩
  · have hready : Ready setup { cs with acceptedByPeer := true } :=
      ⟨h.connected, h.ended, h.output, h.pending, h.untrusted, h.state, h.trusted, h.launched⟩
    apply wp_bind_of (establish_spec hready hrunning (.inl hstate) now) (fun _ _ ht ↦ by simp at ht)
    intro u t ht
    obtain ⟨-, hready, hrunning, hestablished, hsent, hlaunched⟩ := ht
    rw [wp_bind]
    apply wp_sends hready hrunning
    dsimp only
    apply wp_sends (hready.withSent (t.sent ++ [SessionMessage.pairDecision true])) hrunning
    refine ⟨rfl, hready.withSent _, hestablished, hlaunched,
      [.pairDecision true, .capabilities], ?_, by simp, by simp⟩
    simp [hsent]
  · apply wp_mono (establish_spec h hrunning (.inr hstate) now)
    intro r t ht
    obtain ⟨hr, hready, -, hestablished, hsent, hlaunched⟩ := ht
    exact ⟨hr, hready, hestablished, hlaunched, [], by simp [hsent], by simp,
      fun hpairing' ↦ absurd hpairing' hpairing⟩
  · apply wp_sends h hrunning
    exact ⟨rfl, h.withSent _, hstate, rfl, [.pairDecision true], rfl, by simp, by simp⟩
  · have hmem := h.state
    simp_all

theorem processFrame_accept (now : ℤ) (raises : Bool) :
    processFrame (SessionMessage.pairDecision true).plaintext now raises = do
      acceptRemotely now
      return false := rfl

/-- A message of the desktop, which rejects nothing. -/
theorem frame_spec (h : cs.Ready setup) (hrunning : cs.running = true) {message : SessionMessage}
    (hmessage : message ≠ .pairDecision false) (now : ℤ) :
    (cs.step (.frame message.plaintext now false)).Ready setup ∧
    (cs.step (.frame message.plaintext now false)).state =
      (if message = .pairDecision true then .established else cs.state) ∧
    (cs.step (.frame message.plaintext now false)).launched = cs.launched ∧
    ∃ extra, (cs.step (.frame message.plaintext now false)).sent = cs.sent ++ extra ∧
      .pairDecision false ∉ extra ∧
      (message = .pairDecision true → cs.state = .pairing → .pairDecision true ∈ extra) := by
  have hround : wp (processFrame message.plaintext now false) (fun r t ↦ r = .ok false ∧
      t.Ready setup ∧ t.state = (if message = .pairDecision true then .established else cs.state) ∧
      t.launched = cs.launched ∧ ∃ extra, t.sent = cs.sent ++ extra ∧ .pairDecision false ∉ extra ∧
        (message = .pairDecision true → cs.state = .pairing → .pairDecision true ∈ extra)) cs := by
    cases message with
    | capabilities =>
      exact ⟨rfl, h, rfl, rfl, [], (List.append_nil cs.sent).symm, by simp, by simp⟩
    | pairDecision accept =>
      cases accept with
      | false => exact absurd rfl hmessage
      | true =>
        rw [processFrame_accept]
        apply wp_bind_of (acceptRemotely_spec h hrunning now) (fun _ _ ht ↦ by simp at ht)
        intro u t ht
        obtain ⟨-, hready, hestablished, hlaunched, extra, hsent, hextra, haccept⟩ := ht
        exact ⟨rfl, hready, hestablished, hlaunched, extra, hsent, hextra, fun _ ↦ haccept⟩
  rcases hrun : processFrame message.plaintext now false cs with ⟨r, t⟩
  rw [wp, hrun] at hround
  obtain ⟨rfl, hpost⟩ := hround
  have hstep : cs.step (.frame message.plaintext now false) = t := by
    rw [step, if_pos hrunning, hrun]
  rw [hstep]
  exact hpost

end Phone

end ClientSession

/-! ## Both ends -/

namespace Connection

/-- Both ends are ready, and no rejection was sent. -/
structure Calm (setup : PairingSetup) (c : Connection) : Prop where
  desktop : c.desktop.Ready setup
  phone : c.phone.Ready setup
  toPhone : c.deliveredToPhone ≤ c.desktop.sent.length
  toDesktop : c.deliveredToDesktop ≤ c.phone.sent.length
  desktopSends : .pairDecision false ∉ c.desktop.sent
  phoneSends : .pairDecision false ∉ c.phone.sent

/-- Both users were asked: what each side has sent and heard shows in the states. -/
structure Exchange (c : Connection) : Prop where
  desktopSends : .pairDecision true ∈ c.desktop.sent ↔
    c.desktop.state ∈ [.waitingForRemoteDecision, .established]
  desktopHears : .pairDecision true ∈ c.heardByDesktop ↔
    c.desktop.state ∈ [.waitingForLocalDecision, .established]
  phoneHears : .pairDecision true ∈ c.heardByPhone ↔ c.phone.state = .established
  phoneSends : c.phone.state ≠ .pairing →
    .pairDecision true ∈ c.phone.sent ∨ .acceptance ∈ c.phone.launched

/-- Both sides trusted each other from the start. -/
structure Settled (c : Connection) : Prop where
  asked : c.asked = false
  desktop : c.desktop.state = .established
  phone : c.phone.state = .established

/-- What an event has to keep. -/
def Keeps (setup : PairingSetup) (c c' : Connection) : Prop :=
  c'.Calm setup ∧ (c.Exchange → c'.Exchange) ∧ (c.Settled → c'.Settled)

section Steps

variable {setup : PairingSetup} {c : Connection}

theorem take_next {sent : List SessionMessage} {n : ℕ} {message : SessionMessage}
    (h : sent[n]? = some message) : sent.take (n + 1) = sent.take n ++ [message] := by
  rw [List.take_add_one, h, Option.toList_some]

theorem not_rejection {sent : List SessionMessage} {n : ℕ} {message : SessionMessage}
    (hsent : .pairDecision false ∉ sent) (h : sent[n]? = some message) :
    message ≠ .pairDecision false := by
  intro hreject
  exact hsent (hreject ▸ List.mem_of_getElem? h)

theorem keeps_desktopAccepts (h : c.Calm setup) (now : ℤ) (uuid : Text) :
    Keeps setup c (c.step (.desktopAccepts now uuid)) := by
  rw [step]
  split
  · next hasked =>
    obtain ⟨hready, hstate, hsent⟩ : wp _ _ c.desktop :=
      PairingSession.acceptPairing_spec h.desktop now uuid
    have hstep : c.desktop.step (.acceptPairing now uuid) =
        (PairingSession.acceptPairing now uuid c.desktop).2 := by
      rw [PairingSession.step, if_pos h.desktop.active]
    rw [hstep]
    have hmem := h.desktop.state
    refine ⟨⟨hready, h.phone, ?_, h.toDesktop, ?_, h.phoneSends⟩, fun hex ↦ ⟨?_, ?_, ?_, hex.phoneSends⟩,
      fun hsettled ↦ absurd hsettled.asked (by simp [hasked])⟩
    · rw [hsent, List.length_append]
      exact h.toPhone.trans (Nat.le_add_right _ _)
    · simp [hsent, h.desktopSends]
    · rw [hsent, hstate]
      cases hcase : c.desktop.state <;> simp_all [PairingSession.afterClick]
    · change _ ∈ c.heardByDesktop ↔ _
      rw [hex.desktopHears, hstate]
      cases hcase : c.desktop.state <;> simp_all [PairingSession.afterClick]
    · change _ ∈ List.take c.deliveredToPhone _ ↔ _
      rw [hsent, List.take_append_of_le_length h.toPhone]
      exact hex.phoneHears
  · exact ⟨h, id, id⟩

/-- A step of the phone that hears nothing. -/
theorem keeps_phone (h : c.Calm setup) {phone : ClientSession} {extra : List SessionMessage}
    (hready : phone.Ready setup) (hsent : phone.sent = c.phone.sent ++ extra)
    (hextra : .pairDecision false ∉ extra)
    (hstate : c.phone.state = .established ↔ phone.state = .established)
    (hsends : (c.phone.state ≠ .pairing → .pairDecision true ∈ c.phone.sent ∨
        .acceptance ∈ c.phone.launched) →
      phone.state ≠ .pairing → .pairDecision true ∈ phone.sent ∨ .acceptance ∈ phone.launched) :
    Keeps setup c { c with phone := phone } := by
  have hheard : phone.sent.take c.deliveredToDesktop = c.heardByDesktop := by
    rw [hsent, List.take_append_of_le_length h.toDesktop]
    rfl
  refine ⟨⟨h.desktop, hready, h.toPhone, ?_, h.desktopSends, ?_⟩,
    fun hex ↦ ⟨hex.desktopSends, ?_, ?_, hsends hex.phoneSends⟩,
    fun hsettled ↦ ⟨hsettled.asked, hsettled.desktop, hstate.mp hsettled.phone⟩⟩
  · rw [hsent, List.length_append]
    exact h.toDesktop.trans (Nat.le_add_right _ _)
  · simp [hsent, h.phoneSends, hextra]
  · change _ ∈ phone.sent.take c.deliveredToDesktop ↔ _
    rw [hheard]
    exact hex.desktopHears
  · change _ ∈ c.heardByPhone ↔ _
    rw [hex.phoneHears]
    exact hstate

theorem keeps_phoneAccepts (h : c.Calm setup) (now : ℤ) :
    Keeps setup c (c.step (.phoneAccepts now)) := by
  obtain ⟨hready, hsent, hclick⟩ := ClientSession.acceptPairing_spec h.phone now
  apply keeps_phone h hready (hsent.trans (List.append_nil _).symm) List.not_mem_nil
  · rcases hclick with ⟨hbefore, hafter, -⟩ | ⟨-, hafter, -⟩
    · simp [hbefore, hafter]
    · rw [hafter]
  · intro hsends hstate
    rcases hclick with ⟨-, -, hlaunched⟩ | ⟨hnot, -, hlaunched⟩
    · simp [hlaunched]
    · rw [hsent, hlaunched]
      exact hsends hnot

theorem keeps_startLoop (h : c.Calm setup) : Keeps setup c (c.step .startLoop) := by
  obtain ⟨hready, hstate, hsent, hlaunched⟩ := ClientSession.startLoop_spec h.phone
  apply keeps_phone h hready (hsent.trans (List.append_nil _).symm) List.not_mem_nil
  · rw [hstate]
  · rw [hstate, hsent, hlaunched]
    exact id

theorem keeps_stepLaunched (h : c.Calm setup) {index : ℕ}
    (hloop : c.LaunchesInLoop (.stepLaunched index)) :
    Keeps setup c (c.step (.stepLaunched index)) := by
  obtain ⟨hready, hstate, extra, hsent, hextra, hacceptance⟩ :=
    ClientSession.stepLaunched_spec h.phone fun htask ↦ h.phone.output.symm.trans (hloop htask)
  apply keeps_phone h hready hsent hextra
  · rw [hstate]
  · intro hsends hnot
    rw [hstate] at hnot
    rw [hsent, List.mem_append]
    rcases hsends hnot with hold | hold
    · exact .inl (.inl hold)
    · exact (hacceptance hold).imp .inr id

theorem keeps_deliverToPhone (h : c.Calm setup) (now : ℤ) :
    Keeps setup c (c.step (.deliverToPhone now)) := by
  rw [step]
  cases hmessage : c.desktop.sent[c.deliveredToPhone]? with
  | none => exact ⟨h, id, id⟩
  | some message =>
    dsimp only
    split
    · next hrunning =>
      obtain ⟨hready, hstate, hlaunched, extra, hsent, hextra, haccept⟩ := ClientSession.frame_spec h.phone
        hrunning (not_rejection h.desktopSends hmessage) now
      have hheard : (c.phone.sent ++ extra).take c.deliveredToDesktop = c.heardByDesktop :=
        List.take_append_of_le_length h.toDesktop
      refine ⟨⟨h.desktop, hready, ?_, ?_, h.desktopSends, ?_⟩,
        fun hex ↦ ⟨hex.desktopSends, ?_, ?_, ?_⟩,
        fun hsettled ↦ ⟨hsettled.asked, hsettled.desktop, ?_⟩⟩
      · exact (List.getElem?_eq_some_iff.mp hmessage).1
      · dsimp only
        rw [hsent, List.length_append]
        exact h.toDesktop.trans (Nat.le_add_right _ _)
      · simp [hsent, h.phoneSends, hextra]
      · change _ ∈ List.take c.deliveredToDesktop _ ↔ _
        dsimp only
        rw [hsent, hheard]
        exact hex.desktopHears
      · change _ ∈ List.take (c.deliveredToPhone + 1) c.desktop.sent ↔ _
        rw [take_next hmessage, hstate, List.mem_append, List.mem_singleton]
        change _ ∈ c.heardByPhone ∨ _ ↔ _
        rw [hex.phoneHears]
        by_cases hm : message = .pairDecision true
        · simp [hm]
        · simp [hm, Ne.symm hm]
      · intro hnot
        dsimp only at hnot ⊢
        rw [hsent, hlaunched, List.mem_append]
        by_cases hpairing : c.phone.state = .pairing
        · by_cases hm : message = .pairDecision true
          · exact .inl (.inr (haccept hm hpairing))
          · rw [hstate, if_neg hm] at hnot
            exact absurd hpairing hnot
        · exact (hex.phoneSends hpairing).imp .inl id
      · dsimp only
        rw [hstate, hsettled.phone, ite_self]
    · exact ⟨h, id, id⟩

theorem keeps_deliverToDesktop (h : c.Calm setup) (now : ℤ) (uuid : Text) :
    Keeps setup c (c.step (.deliverToDesktop now uuid)) := by
  rw [step]
  cases hmessage : c.phone.sent[c.deliveredToDesktop]? with
  | none => exact ⟨h, id, id⟩
  | some message =>
    obtain ⟨hready, hstate, hsent⟩ := PairingSession.frame_spec h.desktop
      (not_rejection h.phoneSends hmessage) now uuid
    have hgrows : ∃ extra, .pairDecision true ∉ extra ∧ .pairDecision false ∉ extra ∧
        (c.desktop.step (.frame message.plaintext now uuid false false)).sent =
          c.desktop.sent ++ extra := by
      rcases hsent with hsent | hsent
      · exact ⟨[], List.not_mem_nil, List.not_mem_nil, by rw [hsent, List.append_nil]⟩
      · exact ⟨[.capabilities], by simp, by simp, hsent⟩
    obtain ⟨extra, hnoaccept, hnoreject, hgrown⟩ := hgrows
    have hmem := h.desktop.state
    refine ⟨⟨hready, h.phone, ?_, ?_, ?_, h.phoneSends⟩, fun hex ↦ ⟨?_, ?_, ?_, hex.phoneSends⟩,
      fun hsettled ↦ ⟨hsettled.asked, ?_, hsettled.phone⟩⟩
    · dsimp only
      rw [hgrown, List.length_append]
      exact h.toPhone.trans (Nat.le_add_right _ _)
    · exact (List.getElem?_eq_some_iff.mp hmessage).1
    · simp [hgrown, h.desktopSends, hnoreject]
    · have hsends := hex.desktopSends
      dsimp only
      rw [hgrown, hstate, List.mem_append, or_iff_left hnoaccept, hsends]
      split
      · cases hcase : c.desktop.state <;> simp_all [PairingSession.afterAccept]
      · rfl
    · change _ ∈ List.take (c.deliveredToDesktop + 1) c.phone.sent ↔ _
      rw [take_next hmessage, List.mem_append, List.mem_singleton]
      change _ ∈ c.heardByDesktop ∨ _ ↔ _
      dsimp only
      rw [hex.desktopHears, hstate]
      by_cases hm : message = .pairDecision true
      · rw [if_pos hm]
        cases hcase : c.desktop.state <;> simp_all [PairingSession.afterAccept]
      · rw [if_neg hm, or_iff_left (Ne.symm hm)]
    · change _ ∈ List.take c.deliveredToPhone _ ↔ _
      dsimp only
      rw [hgrown, List.take_append_of_le_length h.toPhone]
      exact hex.phoneHears
    · dsimp only
      rw [hstate, hsettled.desktop]
      split <;> rfl

/-- Every event keeps what holds of a connection. -/
theorem keeps_step (h : c.Calm setup) {event : ConnectionEvent} (hloop : c.LaunchesInLoop event) :
    Keeps setup c (c.step event) := by
  cases event with
  | desktopAccepts now uuid => exact keeps_desktopAccepts h now uuid
  | phoneAccepts now => exact keeps_phoneAccepts h now
  | startLoop => exact keeps_startLoop h
  | stepLaunched index => exact keeps_stepLaunched h hloop
  | deliverToPhone now => exact keeps_deliverToPhone h now
  | deliverToDesktop now uuid => exact keeps_deliverToDesktop h now uuid

theorem keeps_run (h : c.Calm setup) {events : List ConnectionEvent} (hloop : c.RunLaunchesInLoop events) :
    Keeps setup c (c.run events) := by
  induction events generalizing c with
  | nil => exact ⟨h, id, id⟩
  | cons event events ih =>
    obtain ⟨hcalm, hexchange, hsettled⟩ := keeps_step h hloop.1
    obtain ⟨hcalm', hexchange', hsettled'⟩ := ih hcalm hloop.2
    exact ⟨hcalm', hexchange' ∘ hexchange, hsettled' ∘ hsettled⟩

/-- When nothing is left to happen, two sides that asked their users agree. -/
theorem Exchange.agreed (h : c.Exchange) (hcalm : c.Calm setup) (hquiet : c.Quiescent) : c.Agreed := by
  have hphoneHeard : c.heardByPhone = c.desktop.sent := by
    rw [heardByPhone, hquiet.toPhone, List.take_length]
  have hdesktopHeard : c.heardByDesktop = c.phone.sent := by
    rw [heardByDesktop, hquiet.toDesktop, List.take_length]
  have hready := hcalm.desktop.state
  have hdecided := hquiet.desktopDecided
  have hsent : .pairDecision true ∈ c.desktop.sent := by
    apply h.desktopSends.mpr
    simp only [List.mem_cons, List.not_mem_nil, or_false] at hready hdecided ⊢
    tauto
  have hphone : c.phone.state = .established := h.phoneHears.mp (hphoneHeard ▸ hsent)
  have hanswered : .pairDecision true ∈ c.phone.sent := by
    apply (h.phoneSends hquiet.phoneDecided).resolve_right
    simp [hquiet.launched]
  have hheard := h.desktopHears.mp (hdesktopHeard ▸ hanswered)
  have hdesktop : c.desktop.state = .established := by
    simp only [List.mem_cons, List.not_mem_nil, or_false] at hheard hdecided
    tauto
  exact ⟨hdesktop, hphone, hcalm.desktop.trusted hdesktop, hcalm.phone.trusted hphone⟩

end Steps

end Connection

/-! ## The start of a connection -/

namespace Database

variable {db : Database}

/-- A query that meets no fault. -/
theorem wp_getDeviceByPublicKey {key : Text} {Q : Except PyError (Option TrustedDevice) → Database → Prop}
    (hfault : db.faults.headD false = false) (hkey : key.any isSurrogate = false)
    (hQ : Q (.ok (db.devices.byPublicKey key)) { db with faults := db.faults.tail }) :
    wp (getDeviceByPublicKey key) Q db := by
  unfold getDeviceByPublicKey access bindText
  rw [wp_bind, wp_get_bind, wp_modify_bind, wp_raiseIf]
  refine ⟨fun hdown ↦ absurd (hfault.symm.trans hdown) Bool.false_ne_true, fun _ ↦ ?_⟩
  dsimp only
  rw [wp_raiseIf_bind]
  exact ⟨fun hbad ↦ absurd hbad (by simp [hkey]), fun _ ↦ hQ⟩

/-- A write that meets no fault, of values that SQLite stores. -/
theorem wp_addOrUpdateDevice {deviceId deviceName : JsonValue} {publicKey key : Text}
    {pairedAt lastSeen : ℤ} {id : Option Text} {name : Text} {Q : Except PyError Unit → Database → Prop}
    (hfault : db.faults.headD false = false) (hid : column deviceId = .ok id)
    (hname : column deviceName = .ok (some name)) (hpublic : publicKey.any isSurrogate = false)
    (hkey : key.any isSurrogate = false)
    (hQ : Q (.ok ()) { db with
      devices := db.devices.upsert ⟨id, name, publicKey, key, pairedAt, lastSeen⟩
      faults := db.faults.tail }) :
    wp (addOrUpdateDevice deviceId deviceName publicKey key pairedAt lastSeen) Q db := by
  unfold addOrUpdateDevice access bindText
  rw [wp_bind, wp_get_bind, wp_modify_bind, wp_raiseIf]
  refine ⟨fun hdown ↦ absurd (hfault.symm.trans hdown) Bool.false_ne_true, fun _ ↦ ?_⟩
  dsimp only
  rw [hid, hname, wp_ofResult_bind]
  refine ⟨fun _ he ↦ by simp at he, fun id' hid' ↦ ?_⟩
  rw [wp_ofResult_bind]
  refine ⟨fun _ he ↦ by simp at he, fun name' hname' ↦ ?_⟩
  cases hid'
  cases hname'
  rw [wp_raiseIf_bind]
  refine ⟨fun hbad ↦ absurd hbad (by simp [hpublic]), fun _ ↦ ?_⟩
  rw [wp_raiseIf_bind]
  exact ⟨fun hbad ↦ absurd hbad (by simp [hkey]), fun _ ↦ hQ⟩

end Database

namespace PairingSetup

variable (setup : PairingSetup)

/-- The desktop finds the key of the phone or not, and does not fail. -/
theorem trustExisting_spec :
    wp (trustExisting setup.now setup.phone) (fun r t ↦
      r = .ok (setup.db.devices.byPublicKey setup.phoneKey).isSome ∧
      (∀ fault ∈ t.faults, fault = false) ∧
      (setup.DesktopTrusts → (t.devices.byPublicKey setup.phoneKey).isSome)) setup.db := by
  have hhead : ∀ faults : List Bool, (∀ fault ∈ faults, fault = false) → faults.headD false = false := by
    intro faults hall
    cases faults with
    | nil => rfl
    | cons fault rest => exact hall fault List.mem_cons_self
  have hrest : ∀ fault ∈ setup.db.faults.tail, fault = false :=
    fun fault hmem ↦ setup.reliable fault (List.mem_of_mem_tail hmem)
  have hid : setup.phoneId.any isSurrogate = false := setup.plain _ (by simp)
  have hname : setup.phoneName.any isSurrogate = false := setup.plain _ (by simp)
  have hkey : setup.phoneKey.any isSurrogate = false := setup.plain _ (by simp)
  unfold trustExisting
  rw [wp_bind]
  apply Database.wp_getDeviceByPublicKey (hhead _ setup.reliable) hkey
  dsimp only
  cases hfound : setup.db.devices.byPublicKey setup.phoneKey with
  | none =>
    refine ⟨rfl, hrest, fun htrusts ↦ ?_⟩
    rw [DesktopTrusts, hfound] at htrusts
    exact absurd htrusts (by simp)
  | some device =>
    obtain ⟨hmem, hsame⟩ := DeviceTable.byPublicKey_eq_some hfound
    dsimp only
    rw [wp_bind]
    apply Database.wp_addOrUpdateDevice (hhead _ hrest)
    · simp [phone, JsonValue.or, JsonValue.truthy, setup.phoneId_ne, Database.column, hid]
      rfl
    · simp [phone, JsonValue.or, JsonValue.truthy, setup.phoneName_ne, Database.column, hname]
      rfl
    · exact setup.stored device hmem
    · rw [hsame, hkey]
    · refine ⟨rfl, fun fault hfault ↦ hrest fault (List.mem_of_mem_tail hfault), fun _ ↦ ?_⟩
      rw [← hsame]
      exact DeviceTable.byPublicKey_upsert_isSome _ _

/-- The desktop after its decision: trusted and ESTABLISHED, or asking its user. -/
theorem desktop_spec :
    wp (PairingSession.decideTrust setup.now) (fun _ t ↦ t.Ready setup ∧
      (setup.DesktopTrusts ∧ t.state = .established ∧ t.sent = [.capabilities] ∨
        ¬setup.DesktopTrusts ∧ t.state = .pairing ∧ t.sent = [])) setup.desktopSession := by
  have hready : ∀ (state : SessionState) (db : Database) (sent : List SessionMessage),
      (∀ fault ∈ db.faults, fault = false) →
      (state = .established ∧ (db.devices.byPublicKey setup.phoneKey).isSome ∨ state = .pairing) →
        PairingSession.Ready setup
          { setup.desktopSession with state := state, db := db, sent := sent } := by
    intro state db sent hfaults hstate
    refine ⟨rfl, rfl, rfl, hfaults, ?_, fun hestablished ↦ ?_⟩
    · rcases hstate with ⟨rfl, -⟩ | rfl <;> simp
    · rcases hstate with ⟨-, hstored⟩ | rfl
      · exact hstored
      · exact absurd hestablished (by simp)
  have hestablishes : SessionState.established ∈ SessionState.authenticating.validTransitions := by decide
  have hpairs : SessionState.pairing ∈ SessionState.authenticating.validTransitions := by decide
  have hsends : SessionState.established ∉ SessionState.refusesToSend := by decide
  unfold PairingSession.decideTrust
  rw [wp_get_bind, wp_bind, wp_zoom]
  apply wp_mono setup.trustExisting_spec
  intro r db hspec
  obtain ⟨rfl, hfaults, hstored⟩ := hspec
  dsimp only
  cases hfound : (setup.db.devices.byPublicKey setup.phoneKey).isSome with
  | true =>
    rw [if_pos rfl, wp_bind]
    apply PairingSession.wp_transition
    · exact hestablishes
    · dsimp only
      unfold PairingSession.sendEncrypted
      rw [wp_tryCatch, wp_get_bind, wp_raiseIf_bind, wp_modify]
      refine ⟨fun hrefuses ↦ absurd hrefuses hsends, fun _ ↦ ⟨?_, .inl ⟨hfound, rfl, rfl⟩⟩⟩
      exact hready _ _ _ hfaults (.inl ⟨rfl, hstored hfound⟩)
  | false =>
    rw [if_neg Bool.false_ne_true]
    apply PairingSession.wp_transition
    · exact hpairs
    · refine ⟨hready _ _ _ hfaults (.inr rfl), .inr ⟨?_, rfl, rfl⟩⟩
      rw [DesktopTrusts, hfound]
      exact Bool.false_ne_true

/-- The phone after its decision. -/
theorem phone_spec (isPaired : Bool) :
    wp (ClientSession.decideTrust isPaired) (fun _ t ↦ t.Ready setup ∧
      (t.running = false ∧ t.launched = []) ∧
      (setup.PhoneTrusts ∧ isPaired = true ∧ t.state = .established ∧ t.sent = [.capabilities] ∨
        ¬(setup.PhoneTrusts ∧ isPaired = true) ∧ t.state = .pairing ∧ t.sent = []))
      setup.phoneSession := by
  have hestablishes : SessionState.established ∈ SessionState.authenticating.kotlinTransitions := by decide
  have hpairs : SessionState.pairing ∈ SessionState.authenticating.kotlinTransitions := by decide
  unfold ClientSession.decideTrust
  rw [wp_modify_bind, wp_get_bind, wp_ite]
  refine ⟨fun htrusted ↦ ?_, fun huntrusted ↦ ?_⟩
  · obtain ⟨hknown, hpaired⟩ := (Bool.and_eq_true _ _).mp htrusted
    rw [wp_bind]
    apply ClientSession.wp_transition
    · intro _
      unfold ClientSession.writeMessage
      rw [wp_tryCatch, wp_get_bind, wp_raiseIf_bind, wp_modify]
      refine ⟨fun hdown ↦ Bool.noConfusion hdown, fun _ ↦
        ⟨?_, ⟨rfl, rfl⟩, .inl ⟨hknown, hpaired, rfl, rfl⟩⟩⟩
      exact ⟨rfl, rfl, rfl, fun _ hnot ↦ absurd rfl hnot, fun hnot ↦ absurd rfl hnot, by simp,
        fun _ ↦ hknown, List.not_mem_nil⟩
    · intro hnot
      exact absurd hestablishes hnot
  · apply ClientSession.wp_transition
    · intro _
      refine ⟨⟨rfl, rfl, rfl, ?_, ?_, by simp, ?_, List.not_mem_nil⟩, ⟨rfl, rfl⟩, .inr ⟨?_, rfl, rfl⟩⟩
      · exact fun hrunning ↦ absurd hrunning Bool.false_ne_true
      · exact fun _ ↦ Bool.not_eq_true _ ▸ huntrusted
      · exact fun hestablished ↦ by simp at hestablished
      · exact fun hboth ↦ huntrusted ((Bool.and_eq_true _ _).mpr hboth)
    · intro hnot
      exact absurd hpairs hnot

/-- After the decisions both ends are calm. -/
theorem calm_start : setup.start.Calm setup := by
  obtain ⟨hdesktop, hdesktopCase⟩ : wp _ _ _ := setup.desktop_spec
  obtain ⟨hphone, -, hphoneCase⟩ : wp _ _ _ := setup.phone_spec
    (setup.db.devices.byPublicKey setup.phoneKey).isSome
  refine ⟨hdesktop, hphone, Nat.zero_le _, Nat.zero_le _, ?_, ?_⟩
  · change _ ∉ (PairingSession.decideTrust setup.now setup.desktopSession).2.sent
    rcases hdesktopCase with ⟨-, -, hsent⟩ | ⟨-, -, hsent⟩ <;> simp [hsent]
  · change _ ∉ (ClientSession.decideTrust _ setup.phoneSession).2.sent
    rcases hphoneCase with ⟨-, -, -, hsent⟩ | ⟨-, -, hsent⟩ <;> simp [hsent]

/-- A desktop that does not trust the phone makes both ask. -/
theorem exchange_start (h : ¬setup.DesktopTrusts) : setup.start.Exchange := by
  obtain ⟨-, hdesktop⟩ : wp _ _ _ := setup.desktop_spec
  obtain ⟨-, -, hphone⟩ : wp _ _ _ := setup.phone_spec
    (setup.db.devices.byPublicKey setup.phoneKey).isSome
  obtain ⟨-, hstate, hsent⟩ := hdesktop.resolve_left fun htrusts ↦ h htrusts.1
  obtain ⟨-, hstate', -⟩ := hphone.resolve_left fun htrusts ↦ h htrusts.2.1
  constructor
  · change _ ∈ (PairingSession.decideTrust setup.now setup.desktopSession).2.sent ↔
      (PairingSession.decideTrust setup.now setup.desktopSession).2.state ∈ _
    simp [hsent, hstate]
  · change _ ∈ List.take 0 _ ↔ (PairingSession.decideTrust setup.now setup.desktopSession).2.state ∈ _
    simp [hstate]
  · change _ ∈ List.take 0 _ ↔ (ClientSession.decideTrust _ setup.phoneSession).2.state = _
    simp [hstate']
  · exact fun hnot ↦ absurd hstate' hnot

/-- Two sides that trust each other are ESTABLISHED at once. -/
theorem settled_start (hdesktop : setup.DesktopTrusts) (hphone : setup.PhoneTrusts) :
    setup.start.Settled := by
  obtain ⟨-, hdesktopCase⟩ : wp _ _ _ := setup.desktop_spec
  obtain ⟨-, -, hphoneCase⟩ : wp _ _ _ := setup.phone_spec
    (setup.db.devices.byPublicKey setup.phoneKey).isSome
  obtain ⟨-, hstate, -⟩ := hdesktopCase.resolve_right fun hnot ↦ hnot.1 hdesktop
  obtain ⟨-, -, hstate', -⟩ := hphoneCase.resolve_right fun hnot ↦ hnot.1 ⟨hphone, hdesktop⟩
  refine ⟨?_, hstate, hstate'⟩
  change decide ((PairingSession.decideTrust setup.now setup.desktopSession).2.state = .pairing) = false
  rw [hstate]
  rfl

end PairingSetup

namespace Connection

/-- The user of the phone accepts, and everything is delivered. -/
def phoneAlone : List ConnectionEvent :=
  [.startLoop, .phoneAccepts 0, .stepLaunched 0, .stepLaunched 0, .deliverToPhone 0,
    .deliverToDesktop 0 []]

/-- A desktop that is ESTABLISHED does not answer an ACCEPT. -/
theorem desktop_ignores {ps : PairingSession} (hstate : ps.state = .established)
    (hrunning : ps.running = true) :
    ps.step (.frame (SessionMessage.pairDecision true).plaintext 0 [] false false) =
      { ps with remoteAccepted := true } := by
  have hround : PairingSession.processFrame (SessionMessage.pairDecision true).plaintext 0 [] false ps =
      (.ok false, { ps with remoteAccepted := true }) := by
    rw [PairingSession.processFrame_accept, modify_bind_run]
    change Exec.andThen (PairingSession.acceptRemotely 0 []) _ _ = _
    have haccept : PairingSession.acceptRemotely 0 [] { ps with remoteAccepted := true } =
        (.ok (), { ps with remoteAccepted := true }) := by
      unfold PairingSession.acceptRemotely
      rw [get_bind_run]
      simp only [hstate, reduceCtorEq, if_false]
      rfl
    unfold Exec.andThen
    rw [haccept]
    rfl
  rw [PairingSession.step, if_pos hrunning, hround]

theorem phoneAlone_run {c : Connection} (hdesktop : c.desktop.state = .established)
    (hrunning : c.desktop.running = true) (hsent : c.desktop.sent = [.capabilities])
    (hphone : c.phone.state = .pairing) (hconnected : c.phone.connected = true)
    (hended : c.phone.ended = false) (hloop : c.phone.running = false)
    (hlaunched : c.phone.launched = []) (hsilent : c.phone.sent = [])
    (htoPhone : c.deliveredToPhone = 0) (htoDesktop : c.deliveredToDesktop = 0) :
    (c.run phoneAlone).Quiescent ∧ (c.run phoneAlone).phone.state = .waitingForRemoteDecision ∧
      c.RunLaunchesInLoop phoneAlone := by
  obtain ⟨desktop, asked, phone, toPhone, toDesktop⟩ := c
  obtain ⟨state, peer, isTrusted, pendingPeer, trustStore, activeOutput, connected, running, ended,
    launched, sent, acceptCalled, acceptedByPeer⟩ := phone
  dsimp only at hdesktop hrunning hsent hphone hconnected hended hloop hlaunched hsilent htoPhone htoDesktop
  subst hphone hconnected hended hloop hlaunched hsilent htoPhone htoDesktop
  have hsteps : ∀ phone : ClientSession, phone.sent = [.pairDecision true] → phone.running = true →
      (⟨desktop, asked, phone, 0, 0⟩ : Connection).run [.deliverToPhone 0, .deliverToDesktop 0 []] =
        ⟨{ desktop with remoteAccepted := true }, asked, phone, 1, 1⟩ := by
    intro phone hphone hphoneRunning
    have hround : phone.step (.frame SessionMessage.capabilities.plaintext 0 false) = phone := by
      rw [ClientSession.step, if_pos hphoneRunning]
      rfl
    rw [run, List.foldl_cons, List.foldl_cons, List.foldl_nil]
    have hfirst : (⟨desktop, asked, phone, 0, 0⟩ : Connection).step (.deliverToPhone 0) =
        ⟨desktop, asked, phone, 1, 0⟩ := by
      simp only [step, hsent, List.getElem?_cons_zero, hphoneRunning, if_true, hround]
    rw [hfirst]
    simp only [step, hphone, List.getElem?_cons_zero, desktop_ignores hdesktop hrunning]
  have hrun : run ⟨desktop, asked, ⟨.pairing, peer, isTrusted, pendingPeer, trustStore, activeOutput, true,
      false, false, [], [], acceptCalled, acceptedByPeer⟩, 0, 0⟩ phoneAlone =
      ⟨{ desktop with remoteAccepted := true }, asked, ⟨.waitingForRemoteDecision, peer, isTrusted,
        if isTrusted then pendingPeer else some peer, trustStore, true, true, true, false, [],
        [.pairDecision true], true, acceptedByPeer⟩, 1, 1⟩ := hsteps _ rfl rfl
  rw [hrun]
  refine ⟨⟨?_, rfl, rfl, rfl, ?_, ?_⟩, rfl, ?_⟩
  · exact (congrArg List.length hsent).symm
  · dsimp only
    rw [hdesktop]
    decide
  · dsimp only
    decide
  · exact ⟨trivial, trivial, fun _ ↦ rfl, fun _ ↦ rfl, trivial, trivial, trivial⟩

end Connection

/-! ## Agreement -/

/-- The two sides agree at the end of every run in which the ACCEPT of a click on the phone is sent in
the loop, unless the desktop trusts the phone and the phone does not trust the desktop. -/
theorem pairing_agreement_iff (setup : PairingSetup) :
    (∀ events, setup.start.RunLaunchesInLoop events → (setup.start.run events).Quiescent →
      (setup.start.run events).Agreed) ↔ ¬(setup.DesktopTrusts ∧ ¬setup.PhoneTrusts) := by
  constructor
  · intro h hasymmetric
    obtain ⟨hdesktop, hphone⟩ := hasymmetric
    obtain ⟨hready, hdesktopCase⟩ : wp _ _ _ := setup.desktop_spec
    obtain ⟨hready', ⟨hloop, hlaunched⟩, hphoneCase⟩ : wp _ _ _ := setup.phone_spec
      (setup.db.devices.byPublicKey setup.phoneKey).isSome
    obtain ⟨-, hstate, hsent⟩ := hdesktopCase.resolve_right fun hnot ↦ hnot.1 hdesktop
    obtain ⟨-, hstate', hsent'⟩ := hphoneCase.resolve_left fun hboth ↦ hphone hboth.1
    obtain ⟨hquiet, hwaits, hlaunches⟩ := Connection.phoneAlone_run (c := setup.start) hstate
      hready.running hsent hstate' hready'.connected hready'.ended hloop hlaunched hsent' rfl rfl
    have hagreed := (h Connection.phoneAlone hlaunches hquiet).phone
    rw [hwaits] at hagreed
    exact absurd hagreed (by decide)
  · intro h events hlaunches hquiet
    obtain ⟨hcalm, hexchange, hsettled⟩ := Connection.keeps_run setup.calm_start hlaunches
    by_cases hdesktop : setup.DesktopTrusts
    · have hphone : setup.PhoneTrusts := by_contra fun hnot ↦ h ⟨hdesktop, hnot⟩
      have hdone := hsettled (setup.settled_start hdesktop hphone)
      exact ⟨hdone.desktop, hdone.phone, hcalm.desktop.trusted hdone.desktop,
        hcalm.phone.trusted hdone.phone⟩
    · exact (hexchange (setup.exchange_start hdesktop)).agreed hcalm hquiet

/-- A desktop that trusts the phone, and a phone that has lost its trust store. -/
def sampleAsymmetric : PairingSetup where
  now := 100
  db := ⟨⟨[⟨some (lit "phone"), lit "Phone", sampleKey 1, sampleKey 1, 50, 50⟩],
    List.pairwise_singleton _ _⟩, ∅, []⟩
  phoneId := lit "phone"
  phoneName := lit "Phone"
  phoneKey := sampleKey 1
  trustStore := []
  desktop := ⟨lit "laptop", lit "Laptop", sampleKey 2⟩
  pendingPeer := none
  phoneId_ne := by decide
  phoneName_ne := by decide
  plain := by decide +kernel
  stored := by decide +kernel
  reliable := by decide

/-- The desktop is ESTABLISHED and the phone waits for an ACCEPT that never comes. -/
theorem pairing_disagrees : ¬∀ (setup : PairingSetup) (events : List ConnectionEvent),
    (setup.start.run events).Quiescent → (setup.start.run events).Agreed := by
  intro h
  have hasymmetric : sampleAsymmetric.DesktopTrusts ∧ ¬sampleAsymmetric.PhoneTrusts := by
    decide +kernel
  have hstate : (sampleAsymmetric.start.run Connection.phoneAlone).phone.state =
      .waitingForRemoteDecision := by
    decide +kernel
  have hquiet : (sampleAsymmetric.start.run Connection.phoneAlone).Quiescent := by
    constructor <;> decide +kernel
  have hagreed := (h _ _ hquiet).phone
  rw [hstate] at hagreed
  exact absurd hagreed (by decide)

end Ferry
