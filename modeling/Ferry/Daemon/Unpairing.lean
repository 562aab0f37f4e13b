import Ferry.Daemon.AcceptanceTimer
import Ferry.Daemon.Sessions
import Ferry.Service.Belonging

/-!
# Unpairing a peer

The trust, the history and the staged files over whole runs of one host: handshakes, pairings and
transfers of the daemon, interrupted transfers, expiries and REMOVE_TRUSTED_DEVICE.  Of all these only
the last one takes a key out of `trusted_devices`, and it looks neither at the history nor at the staged
files.
-/

namespace Ferry

open Exec Text IncomingTransfer

namespace Daemon

/-! ## The events of a host -/

/-- The time until an interrupted transfer expires, in milliseconds. -/
def resumeTtlMs : ℤ := 7 * 24 * 60 * 60 * 1000

/-- The row for what `interrupt_info` returns. -/
def interruptedInfo (info : IncomingTransfer.InterruptInfo) (now : ℤ) : InterruptedTransferInfo where
  bytesReceived := info.bytesReceived
  resumeChunkIndex := info.resumeChunkIndex
  partialSha256 := info.partialSha256
  senderIdentity := info.senderIdentity
  originalMetadata := info.originalMetadata
  interruptedAt := now
  expireAt := now + resumeTtlMs

/-- `interrupt`, and then what its docstring asks of the caller. -/
def interruptTransfer (object : ℕ) (now : ℤ) : Segment Unit := do
  onObject object IncomingTransfer.interrupt
  let s ← get
  match (s.objects object).interruptInfo with
  | none => pure ()
  | some info =>
    onDb (Database.saveInterruptedTransfer info.transferId (interruptedInfo info now) now)

/-- What happens on a host: an event of the daemon, the trusted branch of a handshake, a transfer is
interrupted, rows expire, or the user removes a device. -/
inductive HostEvent
  | daemon (event : Event)
  | handshake (now : ℤ) (remote : RemotePeer)
  | interrupted (object : ℕ) (now : ℤ)
  | expired (now : ℤ)
  | removeTrustedDevice (publicKeyB64 : Text)

def hostStep (s : Daemon) : HostEvent → Daemon
  | .daemon event => s.step event
  | .handshake now remote => (onDb (trustExisting now remote) s).2
  | .interrupted object now => (interruptTransfer object now s).2
  | .expired now => (onDb (Database.expireInterruptedTransfers now) s).2
  | .removeTrustedDevice publicKeyB64 => (onDb (Database.removeDeviceByPublicKey publicKeyB64) s).2

def hostRun (s : Daemon) (events : List HostEvent) : Daemon := events.foldl hostStep s

/-- Every step of a run meets a condition. -/
def HostAlways (good : Daemon → HostEvent → Prop) (s : Daemon) : List HostEvent → Prop
  | [] => True
  | event :: events => good s event ∧ HostAlways good (s.hostStep event) events

instance decidableHostAlways (good : Daemon → HostEvent → Prop) [∀ s event, Decidable (good s event)]
    (s : Daemon) : ∀ events, Decidable (HostAlways good s events)
  | [] => isTrue trivial
  | event :: events =>
    have := decidableHostAlways good (s.hostStep event) events
    inferInstanceAs (Decidable (_ ∧ _))

/-! ## What a removal has to clean up -/

/-- The `.part` file of a transfer. -/
def partFile (s : Daemon) (transferId : Text) : Path :=
  (Path.join s.downloadDir.staging (transferId ++ lit ".part")).resolve

/-- Right after a device is removed nothing is left of its INTERRUPTED transfers, and all others are as
they were. -/
structure Cleaned (s : Daemon) (key : Text) (t : Daemon) : Prop where
  rows : ¬t.db.Retains key
  files : ∀ transferId info, s.db.interrupted transferId = some info → info.senderIdentity = key →
    ¬t.disk.Exists (s.partFile transferId)
  others : ∀ transferId, (∀ info, s.db.interrupted transferId = some info → info.senderIdentity ≠ key) →
    t.db.transfers.get transferId = s.db.transfers.get transferId ∧
      t.disk.nodes (s.partFile transferId) = s.disk.nodes (s.partFile transferId)

/-- A removal that is carried out cleans up. -/
def CleansUp (s : Daemon) (event : HostEvent) : Prop :=
  ∀ key, event = .removeTrustedDevice key → s.db.Removes key → s.Cleaned key (s.hostStep event)

/-! ## When it does -/

/-- The session whose pairing an event stores, and when. -/
def pairing (s : Daemon) : Event → Option (ℕ × ℤ × Text)
  | .frame ps plaintext now uuid =>
    match (s.sessions ps).loop with
    | .reading =>
      if acceptsPairing plaintext = true ∧ (s.sessions ps).state = .waitingForRemoteDecision then
        some (ps, now.wall, uuid)
      else none
    | _ => none
  | event => s.callPairs event

/-- What an interrupted transfer leaves to be saved. -/
def interruptedTo (s : Daemon) (object : ℕ) : Option IncomingTransfer.InterruptInfo :=
  (IncomingTransfer.interrupt ⟨s.disk, s.objects object⟩).2.self.interruptInfo

/-- The condition on an event: a removed key has no INTERRUPTED row, a stored pairing and a handshake
overwrite no row of `trusted_devices` on which one rests, and a row is saved for a trusted key. -/
def KeepsBelonging (s : Daemon) : HostEvent → Prop
  | .daemon event => ∀ stored ∈ s.pairing event,
    s.db.SparesRetained (.pairing stored.2.2) (s.sessions stored.1).remote
  | .handshake _ remote => s.db.SparesRetained .handshake remote
  | .interrupted object now => ∀ info ∈ s.interruptedTo object,
    s.db.Savable info.transferId (interruptedInfo info now) → s.db.Trusts info.senderIdentity
  | .expired _ => True
  | .removeTrustedDevice key => s.db.Removes key → ¬s.db.Retains key

instance (s : Daemon) : ∀ event, Decidable (s.KeepsBelonging event)
  | .daemon event => inferInstanceAs (Decidable (∀ stored ∈ s.pairing event, _))
  | .handshake _ _ => inferInstanceAs (Decidable (s.db.SparesRetained _ _))
  | .interrupted object _ => inferInstanceAs (Decidable (∀ info ∈ s.interruptedTo object, _ → _))
  | .expired _ => isTrue trivial
  | .removeTrustedDevice key => inferInstanceAs (Decidable (s.db.Removes key → _))

/-! ## The database of the daemon -/

variable {s t u : Daemon}

theorem Unpaired.bookkeeps (h : Unpaired s t) : s.db.Bookkeeps t.db :=
  ⟨h .devices (by decide), h .rows (by decide)⟩

theorem Settled.bookkeeps {ps : ℕ} {r : Except PyError LoopFlow} (hend : Settled ps r t u) :
    t.db.Bookkeeps u.db := by
  cases hend with
  | reads | awaits => exact refl_of _ _
  | ends _ hended => exact hended.database

theorem Suspended.db {kind : Await → Prop} (hleft : Suspended kind t u) : u.db = t.db := by
  cases hleft with
  | returned | awaits => rfl

/-- A step settles rows, and stores at most one pairing before. -/
theorem step_database (s : Daemon) (event : Event) : s.db.Bookkeeps (s.step event).db ∨
    ∃ ps now uuid, s.pairing event = some (ps, now, uuid) ∧
      (s.pairWith ps now uuid).db.Bookkeeps (s.step event).db := by
  have htrans : ∀ {a b c : Database}, a.Bookkeeps b → b.Bookkeeps c → a.Bookkeeps c :=
    fun h h' ↦ trans_of Database.Bookkeeps h h'
  have hmove := step_move s event
  generalize s.step event = u at hmove
  cases hmove with
  | idle | connected => exact .inl (refl_of _ _)
  | framed hreading hframe hend =>
    rcases hframe.unpaired with hkept | ⟨haccept, hstate, hkept⟩
    · exact .inl (htrans (Unpaired.bookkeeps hkept) hend.bookkeeps)
    · refine .inr ⟨_, _, _, ?_, htrans (Unpaired.bookkeeps hkept) hend.bookkeeps⟩
      simp [pairing, hreading, haccept, hstate]
  | handled _ hhandler hend => exact .inl (htrans (Unpaired.bookkeeps hhandler.unpaired) hend.bookkeeps)
  | ended _ hended => exact .inl hended.database
  | resumed _ hawait hleft =>
    rw [hleft.db]
    exact .inl (Unpaired.bookkeeps (s := { s with tasks := s.tasks.pop _ }) hawait.unpaired)
  | expired _ hexpiry hleft =>
    rw [hleft.db]
    exact .inl (Unpaired.bookkeeps (s := s.mapLedger _) hexpiry.unpaired)
  | called hcall hleft =>
    rw [hleft.db]
    rcases hcall.unpaired with hkept | ⟨ps, now, uuid, hpairs, hkept⟩
    · exact .inl (Unpaired.bookkeeps hkept)
    · refine .inr ⟨ps, now, uuid, ?_, Unpaired.bookkeeps hkept⟩
      cases event <;> first | exact hpairs | exact (nomatch hpairs)

/-! ## The invariant -/

theorem belongs_interrupted (h : s.db.Belongs) {object : ℕ} {now : ℤ}
    (hkeeps : s.KeepsBelonging (.interrupted object now)) :
    wp (interruptTransfer object now) (fun _ t ↦ t.db.Belongs) s := by
  have hinterrupted : wp (onObject object IncomingTransfer.interrupt) (fun _ t ↦
      t.db = s.db ∧ (t.objects object).interruptInfo = s.interruptedTo object) s := by
    refine ⟨rfl, ?_⟩
    change (Function.update s.objects object _ object).interruptInfo = _
    rw [Function.update_self]
    rfl
  unfold interruptTransfer
  apply wp_bind_of hinterrupted
  · intro e t ht
    rwa [ht.1]
  · rintro _ t ⟨hdb, hinfo⟩
    rw [wp_get_bind, hinfo]
    cases hsaved : s.interruptedTo object with
    | none =>
      dsimp only
      rw [wp_pure, hdb]
      exact h
    | some info =>
      dsimp only
      rw [onDb, wp_zoom, hdb]
      exact h.save (hkeeps info (Option.mem_def.mpr hsaved)) now

/-- The INTERRUPTED rows go on belonging to trusted devices. -/
theorem belongs_hostStep (s : Daemon) (event : HostEvent) (h : s.db.Belongs)
    (hkeeps : s.KeepsBelonging event) : (s.hostStep event).db.Belongs := by
  cases event with
  | daemon event =>
    rcases s.step_database event with hkept | ⟨ps, now, uuid, hpairing, hkept⟩
    · exact h.bookkeeps hkept
    · have hpaired : (s.pairWith ps now uuid).db.Belongs := by
        refine h.trust (hkeeps (ps, now, uuid) hpairing) now ?_ (Database.settles_of_eq rfl)
        change (persistTrust now uuid (s.sessions ps).remote s.db).2.devices =
          (Exec.andThen (persistTrust now uuid (s.sessions ps).remote) _ s.db).2.devices
        unfold Exec.andThen
        rcases persistTrust now uuid (s.sessions ps).remote s.db with ⟨r, db⟩
        cases r <;> rfl
      exact hpaired.bookkeeps hkept
  | handshake now remote =>
    exact h.trust hkeeps now rfl (Database.settles_of_eq (sameTransfers_trustExisting now remote s.db))
  | interrupted object now => exact belongs_interrupted h hkeeps
  | expired now => exact h.bookkeeps (Database.bookkeeps_expireInterruptedTransfers now s.db)
  | removeTrustedDevice key => exact Database.Belongs.remove h hkeeps

theorem cleansUp_hostStep (s : Daemon) (event : HostEvent) (hkeeps : s.KeepsBelonging event) :
    s.CleansUp event := by
  rintro key rfl hremoves
  have hnone : ¬s.db.Retains key := hkeeps hremoves
  have hrows : ((s.hostStep (.removeTrustedDevice key)).db).transfers = s.db.transfers :=
    Database.sameTransfers_removeDeviceByPublicKey key s.db
  refine ⟨fun hretains ↦ hnone ?_, fun transferId info hinfo hkey ↦ ?_, fun transferId _ ↦ ⟨?_, rfl⟩⟩
  · exact (Database.settles_of_eq hrows).retains hretains
  · exact absurd (Database.retains_iff.mpr ⟨transferId, info, hinfo, hkey⟩) hnone
  · rw [hrows]

/-- A file of two chunks that a phone sends under its own identity. -/
def retainedMetadata : TransferMetadata :=
  { sampleMetadata "" with fileSize := 6, chunkSize := 3, chunkCount := 2, senderIdentity := sampleKey 1 }

/-- A phone is paired and sends the first chunk, and the transfer is interrupted. -/
def retainingRun : List HostEvent :=
  [.daemon (.connect samplePhone ⟨.str (lit "phone"), .str (lit "Phone"), sampleKey 1⟩ false []),
    .daemon (message .pairDecision [(lit "decision", .str (lit "ACCEPT"))]),
    .daemon (.acceptPairing samplePhone 0 []),
    .daemon (message .transferRequest retainedMetadata.toDict),
    .daemon (.acceptTransfer samplePhone retainedMetadata.transferId),
    .daemon sampleChunk,
    .interrupted 1 0]

end Daemon

end Ferry
