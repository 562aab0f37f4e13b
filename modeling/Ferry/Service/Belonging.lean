import Ferry.Service.Revocation

/-!
# To whom the interrupted transfers belong

The INTERRUPTED rows of the history name the identity of the peer that the transfer came from.  No
statement of the database ties that column to `trusted_devices`: a row belongs to a trusted device
as long as it was saved for one, and no statement about devices takes the key of a row away.
-/

namespace Ferry

open Exec Text

namespace Database

/-- The key is in `trusted_devices`. -/
def Trusts (db : Database) (key : Text) : Prop :=
  ∃ row ∈ db.devices.rows, row.identityPublicKeyB64 = key

instance (db : Database) (key : Text) : Decidable (db.Trusts key) :=
  inferInstanceAs (Decidable (∃ row ∈ db.devices.rows, _))

/-- Every INTERRUPTED row has the identity of a trusted device. -/
def Belongs (db : Database) : Prop :=
  ∀ transferId info, db.interrupted transferId = some info → db.Trusts info.senderIdentity

/-- The INTERRUPTED rows. -/
def retained (db : Database) : List (Text × TransferRow) :=
  db.transfers.items.filter fun item ↦ item.2.record.status = .interrupted

/-- Some INTERRUPTED row has the identity. -/
def Retains (db : Database) (key : Text) : Prop :=
  ∃ item ∈ db.retained, item.2.resume.senderIdentity = key

instance (db : Database) (key : Text) : Decidable (db.Retains key) :=
  inferInstanceAs (Decidable (∃ item ∈ db.retained, _))

variable {db db' : Database}

theorem mem_retained {transferId : Text} {row : TransferRow} (h : (transferId, row) ∈ db.retained) :
    db.interrupted transferId = some row.resume := by
  obtain ⟨hitem, hstatus⟩ := List.mem_filter.mp h
  rw [interrupted, Dict.mem_items.mp hitem]
  exact if_pos (of_decide_eq_true hstatus)

theorem retains_iff {key : Text} : db.Retains key ↔
    ∃ transferId info, db.interrupted transferId = some info ∧ info.senderIdentity = key := by
  constructor
  · rintro ⟨⟨transferId, row⟩, hitem, hkey⟩
    exact ⟨transferId, row.resume, mem_retained hitem, hkey⟩
  · rintro ⟨transferId, info, hinfo, hkey⟩
    unfold interrupted at hinfo
    split at hinfo
    · next row hrow =>
      split at hinfo
      · next hstatus =>
        cases hinfo
        have hitem := Dict.mem_items.mpr hrow
        exact ⟨(transferId, row), List.mem_filter.mpr ⟨hitem, decide_eq_true hstatus⟩, hkey⟩
      · exact (nomatch hinfo)
    · exact (nomatch hinfo)

theorem Settles.retains (h : db.Settles db') {key : Text} (hretains : db'.Retains key) :
    db.Retains key := by
  obtain ⟨transferId, info, hinfo, hkey⟩ := retains_iff.mp hretains
  exact retains_iff.mpr ⟨transferId, info, h.interrupted hinfo, hkey⟩

/-- Rows are settled, and the keys that the others name stay. -/
theorem Belongs.settle (h : db.Belongs) (hsettles : db.Settles db')
    (hkeys : ∀ key, db.Retains key → db.Trusts key → db'.Trusts key) : db'.Belongs := by
  intro transferId info hinfo
  have hbefore := hsettles.interrupted hinfo
  exact hkeys _ (retains_iff.mpr ⟨transferId, info, hbefore, rfl⟩) (h transferId info hbefore)

theorem Belongs.bookkeeps (h : db.Belongs) (hkept : db.Bookkeeps db') : db'.Belongs :=
  h.settle hkept.2 fun _ _ ⟨row, hrow, hkey⟩ ↦ ⟨row, hkept.1 ▸ hrow, hkey⟩

/-! ## Saving a row -/

/-- A statement meets no fault and can bind the values of the row. -/
def Savable (db : Database) (transferId : Text) (info : InterruptedTransferInfo) : Prop :=
  db.faults.headD false = false ∧ transferId.any isSurrogate = false ∧ Storable info.interruptedAt ∧
    Storable info.bytesReceived ∧ Storable info.resumeChunkIndex ∧
    info.partialSha256.any isSurrogate = false ∧ info.senderIdentity.any isSurrogate = false ∧
    Storable info.expireAt

instance (db : Database) (transferId : Text) (info : InterruptedTransferInfo) :
    Decidable (db.Savable transferId info) := inferInstanceAs (Decidable (_ ∧ _))

/-- The row is saved, or nothing but a fault is used up. -/
theorem saveInterruptedTransfer_effect (transferId : Text) (info : InterruptedTransferInfo) (now : ℤ)
    (db : Database) : wp (saveInterruptedTransfer transferId info now) (fun _ t ↦
      t = { db with faults := db.faults.tail } ∨ db.Savable transferId info ∧
        t = { db with
          faults := db.faults.tail
          transfers := db.transfers.set transferId
            (interruptedRow info now (db.transfers.get transferId)) }) db := by
  unfold saveInterruptedTransfer bindText bindInt
  apply wp_bind_of (access_effect db)
  · exact fun e t ht ↦ .inl ht.1
  rintro _ t ⟨rfl, ⟨-, hfault⟩ | ⟨⟨e, he⟩, -⟩⟩
  · simp only [wp_raiseIf_bind, wp_modify, not_not, Bool.not_eq_true, true_or, implies_true, true_and]
    intro hid hinterrupted hbytes hindex hsha hsender hexpire
    exact .inr ⟨⟨hfault, hid, hinterrupted, hbytes, hindex, hsha, hsender, hexpire⟩, trivial⟩
  · cases he

theorem interrupted_save (transferId other : Text) (info : InterruptedTransferInfo) (now : ℤ)
    (db : Database) (faults : List Bool) :
    ({ db with
      faults
      transfers := db.transfers.set transferId
        (interruptedRow info now (db.transfers.get transferId)) } : Database).interrupted other =
      if other = transferId then some info else db.interrupted other := by
  by_cases hother : other = transferId
  · subst hother
    rw [if_pos rfl, interrupted, Dict.get_set_self]
    cases db.transfers.get other <;> rfl
  · rw [if_neg hother, interrupted, Dict.get_set_of_ne _ _ hother, interrupted]

theorem Belongs.save (h : db.Belongs) {transferId : Text} {info : InterruptedTransferInfo}
    (htrusted : db.Savable transferId info → db.Trusts info.senderIdentity) (now : ℤ) :
    wp (saveInterruptedTransfer transferId info now) (fun _ t ↦ t.Belongs) db := by
  apply wp_mono (saveInterruptedTransfer_effect transferId info now db)
  rintro _ t (rfl | ⟨hsavable, rfl⟩)
  · exact h
  · intro other info' hinfo
    rw [interrupted_save] at hinfo
    split at hinfo
    · cases hinfo
      exact htrusted hsavable
    · exact h other info' hinfo

/-! ## Expiry -/

theorem settles_expireRow (db : Database) (item : Text × TransferRow) :
    db.Settles { db with transfers := expireRow db.transfers item } := by
  intro other
  by_cases hother : other = item.1
  · subst hother
    exact .inr (by simp [interrupted, expireRow])
  · exact .inl (Dict.get_set_of_ne _ _ hother)

theorem bookkeeps_expired (db : Database) (items : List (Text × TransferRow)) :
    db.Bookkeeps { db with transfers := items.foldl expireRow db.transfers } := by
  induction items generalizing db with
  | nil => exact ⟨rfl, .refl db⟩
  | cons item rest ih =>
    have hrest := ih { db with transfers := expireRow db.transfers item }
    exact ⟨rfl, (settles_expireRow db item).trans hrest.2⟩

theorem bookkeeps_expireInterruptedTransfers (now : ℤ) :
    Stays Bookkeeps (expireInterruptedTransfers now) := by
  refine stays_bind bookkeeps_access fun _ ↦ stays_bind (stays_raiseIf _ _) fun _ ↦ ?_
  refine stays_get_bind fun db ↦ ?_
  exact stays_bind (stays_modify fun db ↦ bookkeeps_expired db _) (fun _ ↦ stays_pure _) db

/-! ## Trusting and removing -/

/-- The key has a row that is not the one under the written id. -/
def Spares (db : Database) (id : Option Text) (key : Text) : Prop :=
  ∃ row ∈ db.devices.rows, row.identityPublicKeyB64 = key ∧ (id = none ∨ row.deviceId ≠ id)

instance (db : Database) (id : Option Text) (key : Text) : Decidable (db.Spares id key) :=
  inferInstanceAs (Decidable (∃ row ∈ db.devices.rows, _))

end Database

theorem DeviceTable.mem_upsertRows_of_ne {device row : TrustedDevice} {rows : List TrustedDevice}
    (h : row ∈ rows) (hid : device.deviceId = none ∨ row.deviceId ≠ device.deviceId) :
    row ∈ upsertRows device rows := by
  induction rows with
  | nil => exact absurd h List.not_mem_nil
  | cons first rows ih =>
    rw [upsertRows]
    rcases List.mem_cons.mp h with rfl | hrest
    · rw [if_neg fun hsame ↦ hid.elim hsame.1 fun hne ↦ hne hsame.2]
      exact List.mem_cons_self
    · split
      · exact List.mem_cons_of_mem _ hrest
      · exact List.mem_cons_of_mem _ (ih hrest)

namespace Database

variable {db db' : Database}

/-- A handshake or a pairing of a peer overwrites no row of `trusted_devices` on which an INTERRUPTED
row of another key rests. -/
def SparesRetained (db : Database) (op : TrustOperation) (remote : RemotePeer) : Prop :=
  ∀ item ∈ db.retained, item.2.resume.senderIdentity ≠ remote.staticPubB64 →
    op.writtenId remote db.devices ≠ none →
      db.Spares (op.writtenId remote db.devices) item.2.resume.senderIdentity

instance (db : Database) (op : TrustOperation) (remote : RemotePeer) :
    Decidable (db.SparesRetained op remote) :=
  inferInstanceAs (Decidable (∀ item ∈ db.retained, _ → _ → _))

theorem trusts_run (now : ℤ) {op : TrustOperation} {remote : RemotePeer} {key : Text}
    (htrusted : db.Trusts key) (hspares : key ≠ remote.staticPubB64 →
      op.writtenId remote db.devices ≠ none → db.Spares (op.writtenId remote db.devices) key) :
    (op.run now remote db).2.Trusts key := by
  rcases hrun : op.run now remote db with ⟨r, t⟩
  cases r with
  | error e =>
    have hraised : ∀ e', (op.run now remote db).1 = .error e' →
        (op.run now remote db).2.devices = db.devices := TrustOperation.run_raised op now remote
    rw [hrun] at hraised
    obtain ⟨row, hrow, hkey⟩ := htrusted
    exact ⟨row, (hraised e rfl).symm ▸ hrow, hkey⟩
  | ok r =>
    rcases TrustOperation.run_returned hrun with ⟨-, -, hsame⟩ | ⟨device, -, hid, hdevice, hdevices⟩
    · obtain ⟨row, hrow, hkey⟩ := htrusted
      exact ⟨row, hsame.symm ▸ hrow, hkey⟩
    · dsimp only [Trusts]
      rw [hdevices]
      by_cases hkey : key = remote.staticPubB64
      · rw [hkey, ← hdevice]
        exact DeviceTable.exists_upsertRows device db.devices.rows
      · have hrow : ∃ row ∈ db.devices.rows, row.identityPublicKeyB64 = key ∧
            (device.deviceId = none ∨ row.deviceId ≠ device.deviceId) := by
          rw [hid]
          by_cases hnone : op.writtenId remote db.devices = none
          · obtain ⟨row, hrow, hrowkey⟩ := htrusted
            exact ⟨row, hrow, hrowkey, .inl hnone⟩
          · exact hspares hkey hnone
        obtain ⟨row, hrow, hrowkey, hne⟩ := hrow
        exact ⟨row, DeviceTable.mem_upsertRows_of_ne hrow hne, hrowkey⟩

theorem Belongs.trust (h : db.Belongs) {op : TrustOperation} {remote : RemotePeer}
    (hspares : db.SparesRetained op remote) (now : ℤ) (hdb : db'.devices = (op.run now remote db).2.devices)
    (hsettles : db.Settles db') : db'.Belongs := by
  refine h.settle hsettles fun key ⟨item, hitem, hkey⟩ htrusted ↦ ?_
  obtain ⟨row, hrow, hrowkey⟩ := trusts_run now htrusted fun hne ↦ hkey ▸ hspares item hitem (hkey ▸ hne)
  exact ⟨row, hdb ▸ hrow, hrowkey⟩

/-- A removal can be run with the key. -/
def Removes (db : Database) (key : Text) : Prop :=
  db.faults.headD false = false ∧ key.any isSurrogate = false

instance (db : Database) (key : Text) : Decidable (db.Removes key) :=
  inferInstanceAs (Decidable (_ ∧ _))

/-- The rows with the key are removed, or nothing but a fault is used up. -/
theorem removeDeviceByPublicKey_effect (key : Text) (db : Database) :
    wp (removeDeviceByPublicKey key) (fun r t ↦
      ((∃ e, r = .error e) ∧ ¬db.Removes key ∧ t = { db with faults := db.faults.tail }) ∨
        (r = .ok () ∧ db.Removes key ∧ t = { db with
          faults := db.faults.tail
          devices := db.devices.delete fun row ↦ row.identityPublicKeyB64 = key })) db := by
  unfold removeDeviceByPublicKey bindText
  apply wp_bind_of (access_effect db)
  · rintro e t ⟨rfl, ⟨he, -⟩ | ⟨-, hfault⟩⟩
    · exact (nomatch he)
    · exact .inl ⟨⟨e, rfl⟩, fun h ↦ Bool.false_ne_true (h.1.symm.trans hfault), rfl⟩
  · rintro _ t ⟨rfl, ⟨-, hfault⟩ | ⟨⟨e, he⟩, -⟩⟩
    · rw [wp_raiseIf_bind, wp_modify]
      refine ⟨fun h ↦ .inl ⟨⟨_, rfl⟩, fun hr ↦ Bool.false_ne_true (hr.2.symm.trans h), rfl⟩, ?_⟩
      exact fun h ↦ .inr ⟨rfl, ⟨hfault, by simpa using h⟩, rfl⟩
    · exact (nomatch he)

theorem Belongs.remove (h : db.Belongs) {key : Text} (hkey : db.Removes key → ¬db.Retains key) :
    wp (removeDeviceByPublicKey key) (fun _ t ↦ t.Belongs) db := by
  apply wp_mono (removeDeviceByPublicKey_effect key db)
  rintro r t (⟨-, -, rfl⟩ | ⟨-, hremoves, rfl⟩)
  · exact h
  · intro transferId info hinfo
    obtain ⟨row, hrow, hrowkey⟩ := h transferId info hinfo
    refine ⟨row, DeviceTable.mem_delete.mpr ⟨hrow, ?_⟩, hrowkey⟩
    have hne : info.senderIdentity ≠ key := fun heq ↦
      hkey hremoves (retains_iff.mpr ⟨transferId, info, hinfo, heq⟩)
    simpa [hrowkey] using hne

end Database

end Ferry
