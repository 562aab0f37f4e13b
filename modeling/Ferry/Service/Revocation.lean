import Ferry.Service.Trust
import Ferry.Session.Handshake

/-!
# Removing a trusted device

Histories of handshakes, pairings and removals.  A signature is checked on the decoded key, but the
table is searched for the text that the peer sent, and many texts decode to one key.  Trust follows
the key, and a removal is final until the next pairing, in every history in which each key is
presented in the spelling under which it is stored and a removal by device id meets no second row
of its key.
-/

namespace Ferry

open Exec Text

/-! ## Histories -/

/-- One event of a history: a handshake or a pairing of a peer, `remove_device_by_public_key` or
`remove_device`. -/
inductive TrustEvent
  | operation (op : TrustOperation) (now : ℤ) (remote : RemotePeer)
  | removeByPublicKey (identityPublicKeyB64 : Text)
  | remove (deviceId : Text)

namespace TrustEvent

def run : TrustEvent → Exec PyError Database Unit
  | operation op now remote => do
    let _ ← op.run now remote
    return ()
  | removeByPublicKey identityPublicKeyB64 => Database.removeDeviceByPublicKey identityPublicKeyB64
  | remove deviceId => Database.removeDevice deviceId

/-- The rows that a removal selects. -/
def selects (row : TrustedDevice) : TrustEvent → Bool
  | operation _ _ _ => false
  | removeByPublicKey identityPublicKeyB64 => row.identityPublicKeyB64 = identityPublicKeyB64
  | remove deviceId => row.deviceId = some deviceId

end TrustEvent

namespace Database

/-- The database after an event, whether it returned or raised. -/
def step (db : Database) (event : TrustEvent) : Database := (event.run db).2

def after (db : Database) (events : List TrustEvent) : Database := events.foldl step db

/-- Every event of a history meets a condition in the state that it starts in. -/
def AlongRun (P : Database → TrustEvent → Prop) : Database → List TrustEvent → Prop
  | _, [] => True
  | db, event :: events => P db event ∧ AlongRun P (db.step event) events

end Database

/-! ## Spellings -/

/-- The text is the one under which its key is stored, if the key is stored. -/
def DeviceTable.Spelled (table : DeviceTable) (key : Text) : Prop :=
  ∀ row ∈ table.rows, decodePublicKeyB64 key ≠ none →
    decodePublicKeyB64 row.identityPublicKeyB64 = decodePublicKeyB64 key →
      row.identityPublicKeyB64 = key

instance (table : DeviceTable) (key : Text) : Decidable (table.Spelled key) :=
  inferInstanceAs (Decidable (∀ row ∈ table.rows, _ → _))

/-- Every key is stored under one spelling. -/
def DeviceTable.Consistent (table : DeviceTable) : Prop :=
  ∀ row ∈ table.rows, table.Spelled row.identityPublicKeyB64

instance (table : DeviceTable) : Decidable table.Consistent :=
  inferInstanceAs (Decidable (∀ row ∈ table.rows, _))

/-- The condition on an event: a peer presents its key as it is stored, and a removal by device id
meets no second row of the key. -/
def OneSpelling (db : Database) : TrustEvent → Prop
  | .operation _ _ remote => db.devices.Spelled remote.staticPubB64
  | .removeByPublicKey _ => True
  | .remove deviceId => ∀ row ∈ db.devices.rows, row.deviceId = some deviceId →
      ∀ row' ∈ db.devices.rows, row'.identityPublicKeyB64 = row.identityPublicKeyB64 →
        row'.deviceId = some deviceId

/-- A pairing with a key completes. -/
def PairsKey (bytes : Bytes) (db : Database) (event : TrustEvent) : Prop :=
  ∃ uuid now remote, event = .operation (.pairing uuid) now remote ∧
    decodePublicKeyB64 remote.staticPubB64 = some bytes ∧ (event.run db).1 = .ok ()

/-! ## What an event does to the table -/

section Steps

variable {db : Database}

theorem getDeviceByPublicKey_devices (key : Text) :
    wp (Database.getDeviceByPublicKey key) (fun _ t ↦ t.devices = db.devices) db := by
  unfold Database.getDeviceByPublicKey Database.bindText
  apply wp_bind_of (access_devices db)
  · intro e t ht
    exact ht
  · intro u t ht
    simp only [wp_raiseIf_bind, wp_get_bind, wp_pure]
    exact ⟨fun _ ↦ ht, fun _ ↦ ht⟩

theorem TrustOperation.run_raised (op : TrustOperation) (now : ℤ) (remote : RemotePeer) :
    wp (op.run now remote) (fun r t ↦ ∀ e, r = .error e → t.devices = db.devices) db := by
  cases op with
  | handshake =>
    unfold TrustOperation.run trustExisting
    apply wp_bind_of (getDeviceByPublicKey_devices remote.staticPubB64)
    · intro e t ht _ _
      exact ht
    · intro existing t ht
      cases existing with
      | none => exact fun _ h ↦ by simp at h
      | some device =>
        apply wp_bind_of addOrUpdateDevice_raised
        · intro e t' ht' e' _
          exact (ht' e rfl).trans ht
        · exact fun _ _ _ _ h ↦ by simp at h
  | pairing uuid =>
    unfold TrustOperation.run persistTrust
    apply wp_bind_of addOrUpdateDevice_raised
    · intro e t' ht' e' _
      exact ht' e rfl
    · exact fun _ _ _ _ h ↦ by simp at h

/-- A session is trusted without pairing only when the table holds the text of its key. -/
theorem trustExisting_isSome {now : ℤ} {remote : RemotePeer}
    (h : (trustExisting now remote db).1 = .ok true) :
    (db.devices.byPublicKey remote.staticPubB64).isSome := by
  have hrun : trustExisting now remote db = (.ok true, (trustExisting now remote db).2) :=
    Prod.ext h rfl
  unfold trustExisting at hrun
  rw [bind_run_eq_ok] at hrun
  obtain ⟨existing, t, hget, hrest⟩ := hrun
  rw [← (getDeviceByPublicKey_returned hget).1]
  cases existing with
  | none => simp [pure] at hrest
  | some device => rfl

theorem removeDeviceByPublicKey_step (key : Text) :
    wp (Database.removeDeviceByPublicKey key) (fun r t ↦ (∀ row ∈ t.devices.rows, row ∈ db.devices.rows) ∧
      (r = .ok () → ∀ row ∈ t.devices.rows, row.identityPublicKeyB64 ≠ key)) db := by
  unfold Database.removeDeviceByPublicKey Database.bindText
  apply wp_bind_of (access_devices db)
  · intro e t ht
    rw [ht]
    exact ⟨fun _ ↦ id, fun h ↦ by simp at h⟩
  · intro u t ht
    simp only [wp_raiseIf_bind, wp_modify, ht, DeviceTable.mem_delete]
    simp +contextual

theorem removeDevice_step (deviceId : Text) :
    wp (Database.removeDevice deviceId) (fun r t ↦ (∀ row ∈ t.devices.rows, row ∈ db.devices.rows) ∧
      (r = .ok () → ∀ row ∈ t.devices.rows, row.deviceId ≠ some deviceId)) db := by
  unfold Database.removeDevice Database.bindText
  apply wp_bind_of (access_devices db)
  · intro e t ht
    rw [ht]
    exact ⟨fun _ ↦ id, fun h ↦ by simp at h⟩
  · intro u t ht
    simp only [wp_raiseIf_bind, wp_modify, ht, DeviceTable.mem_delete]
    simp +contextual

/-- Where the rows after an event come from. -/
theorem mem_step {event : TrustEvent} {row : TrustedDevice} (h : row ∈ (db.step event).devices.rows) :
    row ∈ db.devices.rows ∨ ∃ op now remote, event = .operation op now remote ∧
      row.identityPublicKeyB64 = remote.staticPubB64 ∧ (op.run now remote db).1 = .ok true := by
  cases event with
  | operation op now remote =>
    have hstep : (db.step (.operation op now remote)).devices = (op.run now remote db).2.devices := by
      change (Exec.andThen (op.run now remote) _ db).2.devices = _
      unfold Exec.andThen
      rcases op.run now remote db with ⟨r, t⟩
      cases r <;> rfl
    rw [hstep] at h
    rcases hrun : op.run now remote db with ⟨r, t⟩
    rw [hrun] at h
    cases r with
    | error e =>
      have hraised : ∀ e', (op.run now remote db).1 = .error e' →
          (op.run now remote db).2.devices = db.devices := TrustOperation.run_raised op now remote
      rw [hrun] at hraised
      exact .inl (hraised e rfl ▸ h)
    | ok r =>
      rcases TrustOperation.run_returned hrun with ⟨-, -, hsame⟩ | ⟨device, hr, -, hkey, hdevices⟩
      · exact .inl (hsame ▸ h)
      · dsimp only at h
        rw [hdevices] at h
        rcases DeviceTable.mem_upsertRows h with hold | ⟨-, hnew⟩
        · exact .inl hold
        · exact .inr ⟨op, now, remote, rfl, hnew.trans hkey, by rw [hrun, hr]⟩
  | removeByPublicKey key =>
    have hstep := (removeDeviceByPublicKey_step key : wp _ _ db)
    exact .inl (hstep.1 row h)
  | remove deviceId =>
    have hstep := (removeDevice_step deviceId : wp _ _ db)
    exact .inl (hstep.1 row h)

/-- A removal that returns leaves none of the rows that it selects. -/
theorem selects_step {event : TrustEvent} (hrun : (event.run db).1 = .ok ()) {row : TrustedDevice}
    (h : row ∈ (db.step event).devices.rows) : event.selects row = false := by
  cases event with
  | operation op now remote => rfl
  | removeByPublicKey key =>
    have hstep := (removeDeviceByPublicKey_step key : wp _ _ db)
    simpa [TrustEvent.selects] using hstep.2 hrun row h
  | remove deviceId =>
    have hstep := (removeDevice_step deviceId : wp _ _ db)
    simpa [TrustEvent.selects] using hstep.2 hrun row h

/-! ## Invariants of a history -/

theorem consistent_step {event : TrustEvent} (h : db.devices.Consistent) (hevent : OneSpelling db event) :
    (db.step event).devices.Consistent := by
  intro row hrow row' hrow' hne hsame
  rcases mem_step hrow with hold | ⟨op, now, remote, rfl, hkey, -⟩
  · rcases mem_step hrow' with hold' | ⟨op, now, remote, rfl, hkey', -⟩
    · exact h row hold row' hold' hne hsame
    · rw [hkey'] at hsame ⊢
      rw [← hsame] at hne
      exact (hevent row hold hne hsame.symm).symm
  · rcases mem_step hrow' with hold' | ⟨op', now', remote', heq, hkey', -⟩
    · rw [hkey] at hne hsame ⊢
      exact hevent row' hold' hne hsame
    · injection heq with _ _ hremote
      rw [hkey, hkey', hremote]

theorem consistent_after {events : List TrustEvent} (h : db.devices.Consistent)
    (hrun : db.AlongRun OneSpelling events) : (db.after events).devices.Consistent := by
  induction events generalizing db with
  | nil => exact h
  | cons event events ih => exact ih (consistent_step h hrun.1) hrun.2

/-- No row has a key with these bytes. -/
def NoKey (bytes : Bytes) (table : DeviceTable) : Prop :=
  ∀ row ∈ table.rows, decodePublicKeyB64 row.identityPublicKeyB64 ≠ some bytes

/-- A removal of one row of a key removes all of them. -/
theorem noKey_removal {event : TrustEvent} {row : TrustedDevice} {bytes : Bytes}
    (hconsistent : db.devices.Consistent) (hevent : OneSpelling db event)
    (hrow : row ∈ db.devices.rows) (hselects : event.selects row = true)
    (hbytes : decodePublicKeyB64 row.identityPublicKeyB64 = some bytes)
    (hrun : (event.run db).1 = .ok ()) : NoKey bytes (db.step event).devices := by
  intro row' hrow' hbytes'
  have hleft := selects_step hrun hrow'
  have hold : row' ∈ db.devices.rows := by
    rcases mem_step hrow' with hold | ⟨op, now, remote, rfl, -⟩
    · exact hold
    · exact absurd hselects Bool.false_ne_true
  have hkey : row'.identityPublicKeyB64 = row.identityPublicKeyB64 :=
    hconsistent row hrow row' hold (by simp [hbytes]) (hbytes'.trans hbytes.symm)
  cases event with
  | operation op now remote => exact absurd hselects Bool.false_ne_true
  | removeByPublicKey key =>
    simp only [TrustEvent.selects, decide_eq_true_eq, decide_eq_false_iff_not] at hselects hleft
    exact hleft (hkey.trans hselects)
  | remove deviceId =>
    simp only [TrustEvent.selects, decide_eq_true_eq, decide_eq_false_iff_not] at hselects hleft
    exact hleft (hevent row hrow hselects row' hold hkey)

/-- Only a pairing brings a key back. -/
theorem noKey_step {event : TrustEvent} {bytes : Bytes} (h : NoKey bytes db.devices)
    (hevent : ¬PairsKey bytes db event) : NoKey bytes (db.step event).devices := by
  intro row hrow hbytes
  rcases mem_step hrow with hold | ⟨op, now, remote, rfl, hkey, hrun⟩
  · exact h row hold hbytes
  · rw [hkey] at hbytes
    cases op with
    | handshake =>
      obtain ⟨row', hrow', hkey'⟩ := DeviceTable.byPublicKey_isSome.mp (trustExisting_isSome hrun)
      exact h row' hrow' (hkey' ▸ hbytes)
    | pairing uuid =>
      apply hevent ⟨uuid, now, remote, rfl, hbytes, _⟩
      have hok : TrustOperation.run now remote (.pairing uuid) db =
          (.ok true, (TrustOperation.run now remote (.pairing uuid) db).2) := Prod.ext hrun rfl
      change (Exec.andThen _ _ db).1 = _
      unfold Exec.andThen
      rw [hok]
      rfl

theorem noKey_after {events : List TrustEvent} {bytes : Bytes} (h : NoKey bytes db.devices)
    (hrun : db.AlongRun (fun db event ↦ ¬PairsKey bytes db event) events) :
    NoKey bytes (db.after events).devices := by
  induction events generalizing db with
  | nil => exact h
  | cons event events ih => exact ih (noKey_step h hrun.1) hrun.2

end Steps

/-! ## Trust follows the key -/

/-- The decision of a handshake: whether a query for the text of the key returns a row. -/
def trustDecision (db : Database) (key : Text) : Except PyError Bool :=
  (Database.getDeviceByPublicKey key db).1.map Option.isSome

theorem not_surrogate_of_decode {key : Text} {bytes : Bytes} (h : decodePublicKeyB64 key = some bytes) :
    key.any isSurrogate = false := by
  unfold decodePublicKeyB64 Base64.urlsafeB64decode at h
  rw [Option.ite_none_right_eq_some, List.all_eq_true] at h
  rw [List.any_eq_false]
  intro c hc
  have hascii : decide (c.val < 0x80) = true := by
    apply h.1
    split
    · exact List.mem_append_left _ hc
    · exact hc
  simp only [isSurrogate, Bool.and_eq_true, decide_eq_true_eq] at hascii ⊢
  omega

/-- For a text that decodes, the decision depends on the table and on a fault only. -/
theorem trustDecision_eq {db : Database} {key : Text} {bytes : Bytes}
    (h : decodePublicKeyB64 key = some bytes) :
    trustDecision db key = if db.faults.headD false = true then .error .database
      else .ok (db.devices.byPublicKey key).isSome := by
  have hplain := not_surrogate_of_decode h
  change wp (Database.getDeviceByPublicKey key) (fun r _ ↦ r.map Option.isSome = _) db
  unfold Database.getDeviceByPublicKey Database.access Database.bindText
  rw [List.headD_eq_head?_getD]
  by_cases hfault : db.faults.head?.getD false = true
  · simp [hfault, Except.map]
  · simp [hfault, hplain, Except.map]

theorem byPublicKey_isSome_of_spelled {table : DeviceTable} {key₁ key₂ : Text} {bytes : Bytes}
    (h₁ : decodePublicKeyB64 key₁ = some bytes) (h₂ : decodePublicKeyB64 key₂ = some bytes)
    (hspelled : table.Spelled key₂) (h : (table.byPublicKey key₁).isSome) :
    (table.byPublicKey key₂).isSome := by
  obtain ⟨row, hrow, hkey⟩ := DeviceTable.byPublicKey_isSome.mp h
  apply DeviceTable.byPublicKey_isSome.mpr
  refine ⟨row, hrow, hspelled row hrow (by simp [h₂]) ?_⟩
  rw [hkey, h₁, h₂]

/-- In a history in which every key is presented as it is stored, two such spellings of one key get
the same decision; and after a removal of a device no handshake with its key is trusted before a
pairing with the key completes. -/
theorem revocation_complete (db : Database) (events : List TrustEvent)
    (hdb : db.devices.Consistent) (h : db.AlongRun OneSpelling events) :
    (∀ key₁ key₂ bytes, decodePublicKeyB64 key₁ = some bytes → decodePublicKeyB64 key₂ = some bytes →
      (db.after events).devices.Spelled key₁ → (db.after events).devices.Spelled key₂ →
        trustDecision (db.after events) key₁ = trustDecision (db.after events) key₂) ∧
    ∀ (removal : TrustEvent) (row : TrustedDevice) (bytes : Bytes) (later : List TrustEvent) (now : ℤ)
      (remote : RemotePeer), row ∈ (db.after events).devices.rows → removal.selects row = true →
        decodePublicKeyB64 row.identityPublicKeyB64 = some bytes →
        (removal.run (db.after events)).1 = .ok () → OneSpelling (db.after events) removal →
        ((db.after events).step removal).AlongRun (fun db event ↦ ¬PairsKey bytes db event) later →
        decodePublicKeyB64 remote.staticPubB64 = some bytes →
          (trustExisting now remote (((db.after events).step removal).after later)).1 ≠ .ok true := by
  have hconsistent := consistent_after hdb h
  constructor
  · intro key₁ key₂ bytes h₁ h₂ hspelled₁ hspelled₂
    have hsame : ((db.after events).devices.byPublicKey key₁).isSome =
        ((db.after events).devices.byPublicKey key₂).isSome := by
      apply Bool.eq_iff_iff.mpr
      exact ⟨byPublicKey_isSome_of_spelled h₁ h₂ hspelled₂, byPublicKey_isSome_of_spelled h₂ h₁ hspelled₁⟩
    rw [trustDecision_eq h₁, trustDecision_eq h₂, hsame]
  · intro removal row bytes later now remote hrow hselects hbytes hrun hone hlater hremote htrusted
    have hgone := noKey_after (noKey_removal hconsistent hone hrow hselects hbytes hrun) hlater
    obtain ⟨row', hrow', hkey'⟩ := DeviceTable.byPublicKey_isSome.mp (trustExisting_isSome htrusted)
    exact hgone row' hrow' (hkey' ▸ hremote)

/-- A second spelling of the sample key: its padding is not stripped. -/
def paddedKey (b : UInt8) : Text := sampleKey b ++ [Base64.padChar]

/-- Pairings of one peer under the two spellings. -/
def spelledTwice : List TrustEvent :=
  [.operation (.pairing []) 100 ⟨.str (lit "phone"), .str (lit "Phone"), sampleKey 1⟩,
    .operation (.pairing []) 200 ⟨.str (lit "phone-2"), .str (lit "Phone"), paddedKey 1⟩]

def emptyDatabase : Database := ⟨⟨[], List.Pairwise.nil⟩, ∅, []⟩

theorem revocation_complete_sample :
    (∀ key₁ key₂ bytes, decodePublicKeyB64 key₁ = some bytes → decodePublicKeyB64 key₂ = some bytes →
      (emptyDatabase.after (spelledTwice.take 1)).devices.Spelled key₁ →
      (emptyDatabase.after (spelledTwice.take 1)).devices.Spelled key₂ →
        trustDecision (emptyDatabase.after (spelledTwice.take 1)) key₁ =
          trustDecision (emptyDatabase.after (spelledTwice.take 1)) key₂) ∧
    ∀ (removal : TrustEvent) (row : TrustedDevice) (bytes : Bytes) (later : List TrustEvent) (now : ℤ)
      (remote : RemotePeer), row ∈ (emptyDatabase.after (spelledTwice.take 1)).devices.rows →
        removal.selects row = true → decodePublicKeyB64 row.identityPublicKeyB64 = some bytes →
        (removal.run (emptyDatabase.after (spelledTwice.take 1))).1 = .ok () →
        OneSpelling (emptyDatabase.after (spelledTwice.take 1)) removal →
        ((emptyDatabase.after (spelledTwice.take 1)).step removal).AlongRun
          (fun db event ↦ ¬PairsKey bytes db event) later →
        decodePublicKeyB64 remote.staticPubB64 = some bytes →
          (trustExisting now remote
            (((emptyDatabase.after (spelledTwice.take 1)).step removal).after later)).1 ≠ .ok true :=
  revocation_complete emptyDatabase (spelledTwice.take 1) (fun _ h ↦ absurd h List.not_mem_nil)
    ⟨fun _ h ↦ absurd h List.not_mem_nil, trivial⟩

/-- The second spelling of a trusted key is not trusted, and once paired it stays trusted when the
first one is removed. -/
theorem revocation_incomplete :
    (¬∀ (events : List TrustEvent) (key₁ key₂ : Text) (bytes : Bytes),
      decodePublicKeyB64 key₁ = some bytes → decodePublicKeyB64 key₂ = some bytes →
        trustDecision (emptyDatabase.after events) key₁ =
          trustDecision (emptyDatabase.after events) key₂) ∧
    ¬∀ (events : List TrustEvent) (removal : TrustEvent) (row : TrustedDevice) (bytes : Bytes)
      (later : List TrustEvent) (now : ℤ) (remote : RemotePeer),
        row ∈ (emptyDatabase.after events).devices.rows → removal.selects row = true →
        decodePublicKeyB64 row.identityPublicKeyB64 = some bytes →
        (removal.run (emptyDatabase.after events)).1 = .ok () →
        ((emptyDatabase.after events).step removal).AlongRun
          (fun db event ↦ ¬PairsKey bytes db event) later →
        decodePublicKeyB64 remote.staticPubB64 = some bytes →
          (trustExisting now remote
            (((emptyDatabase.after events).step removal).after later)).1 ≠ .ok true := by
  have hplain : decodePublicKeyB64 (sampleKey 1) = some (List.replicate 32 1) := by decide +kernel
  have hpadded : decodePublicKeyB64 (paddedKey 1) = some (List.replicate 32 1) := by decide +kernel
  constructor
  · intro h
    have hsame := h (spelledTwice.take 1) _ _ _ hplain hpadded
    have htrusted : trustDecision (emptyDatabase.after (spelledTwice.take 1)) (sampleKey 1) = .ok true := by
      decide +kernel
    have huntrusted : trustDecision (emptyDatabase.after (spelledTwice.take 1)) (paddedKey 1) =
        .ok false := by decide +kernel
    rw [htrusted, huntrusted] at hsame
    exact absurd hsame (by simp)
  · intro h
    apply h spelledTwice (.removeByPublicKey (sampleKey 1))
      ⟨some (lit "phone"), lit "Phone", sampleKey 1, sampleKey 1, 100, 100⟩ _ [] 300
      ⟨.str (lit "phone-2"), .str (lit "Phone"), paddedKey 1⟩ _ _ hplain _ trivial hpadded
    · decide +kernel
    · decide +kernel
    · decide +kernel
    · decide +kernel

end Ferry
