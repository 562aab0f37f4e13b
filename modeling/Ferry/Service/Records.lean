import Ferry.Service.Database

/-!
# What the statements of the database do

The history entry that `add_transfer` writes or does not write, and what a query for an interrupted
transfer returns.
-/

namespace Ferry

open Exec Text

namespace Database

/-! ## The history entry -/

/-- A statement meets no fault and can bind the values of the record. -/
structure Writable (db : Database) (transferId : Text) (record : TransferRecord) : Prop where
  fault : db.faults.headD false = false
  transferId : transferId.any isSurrogate = false
  deviceId : ∃ deviceId, column record.deviceId = .ok (some deviceId)
  fileName : record.fileName.any isSurrogate = false
  fileSize : Storable record.fileSize
  startedAt : Storable record.startedAt
  sha256 : record.sha256.any isSurrogate = false

/-- What `add_transfer` does: it writes a row with the status of the record, or raises and changes no
row. -/
def Recorded (db : Database) (transferId : Text) (record : TransferRecord) (r : Except PyError Unit)
    (db' : Database) : Prop :=
  db'.faults = db.faults.tail ∧
    ((r = .ok () ∧ db.Writable transferId record ∧ ∃ row : TransferRow,
      row.record.status = record.status ∧ db'.transfers = db.transfers.set transferId row) ∨
    ((∃ e, r = .error e) ∧ ¬db.Writable transferId record ∧ db'.transfers = db.transfers))

theorem access_effect (db : Database) :
    wp access (fun r t ↦ t = { db with faults := db.faults.tail } ∧
      ((r = .ok () ∧ db.faults.headD false = false) ∨
        ((∃ e, r = .error e) ∧ db.faults.headD false = true))) db := by
  unfold access
  rw [wp_get_bind, wp_modify_bind, wp_raiseIf]
  refine ⟨fun hfault ↦ ⟨rfl, .inr ⟨⟨_, rfl⟩, hfault⟩⟩, fun hfault ↦ ⟨rfl, .inl ⟨rfl, ?_⟩⟩⟩
  simpa using hfault

theorem addTransfer_effect (db : Database) (transferId : Text) (record : TransferRecord) :
    wp (addTransfer transferId record) (db.Recorded transferId record) db := by
  have hraised : ∀ e, ¬db.Writable transferId record →
      db.Recorded transferId record (.error e) { db with faults := db.faults.tail } :=
    fun e h ↦ ⟨rfl, .inr ⟨⟨e, rfl⟩, h, rfl⟩⟩
  unfold addTransfer bindText bindInt
  apply wp_bind_of (access_effect db)
  · rintro e t ⟨rfl, ⟨h, -⟩ | ⟨-, hfault⟩⟩
    · simp at h
    · exact hraised e fun h ↦ Bool.false_ne_true (h.fault.symm.trans hfault)
  · rintro _ t ⟨rfl, ⟨-, hfault⟩ | ⟨⟨e, h⟩, -⟩⟩
    · rw [wp_raiseIf_bind]
      refine ⟨fun h ↦ hraised _ fun hw ↦ by simp [hw.transferId] at h, fun hid ↦ ?_⟩
      rw [wp_ofResult_bind]
      refine ⟨fun e h ↦ hraised e fun hw ↦ ?_, fun deviceId hdevice ↦ ?_⟩
      · obtain ⟨deviceId, hdevice⟩ := hw.deviceId
        simp [hdevice] at h
      rw [wp_raiseIf_bind]
      refine ⟨fun h ↦ hraised _ fun hw ↦ by simp [hw.fileName] at h, fun hname ↦ ?_⟩
      rw [wp_raiseIf_bind]
      refine ⟨fun h ↦ hraised _ fun hw ↦ h hw.fileSize, fun hsize ↦ ?_⟩
      rw [wp_raiseIf_bind]
      refine ⟨fun h ↦ hraised _ fun hw ↦ h hw.startedAt, fun hstarted ↦ ?_⟩
      rw [wp_raiseIf_bind]
      refine ⟨fun h ↦ hraised _ fun hw ↦ by simp [hw.sha256] at h, fun hsha ↦ ?_⟩
      rw [wp_ofResult_bind]
      cases deviceId with
      | none =>
        refine ⟨fun e _ ↦ hraised e fun hw ↦ ?_, by simp [require]⟩
        obtain ⟨deviceId, hdevice'⟩ := hw.deviceId
        simp [hdevice'] at hdevice
      | some deviceId =>
        refine ⟨by simp [require], fun deviceId' _ ↦ ?_⟩
        rw [wp_modify]
        have hwritable : db.Writable transferId record :=
          ⟨hfault, by simpa using hid, ⟨deviceId, hdevice⟩, by simpa using hname, not_not.mp hsize,
            not_not.mp hstarted, by simpa using hsha⟩
        refine ⟨rfl, .inl ⟨rfl, hwritable, _, ?_, rfl⟩⟩
        dsimp only
        cases db.transfers.get transferId <;> rfl
    · simp at h

theorem interrupted_congr {db db' : Database} {transferId : Text}
    (h : db'.transfers.get transferId = db.transfers.get transferId) :
    db'.interrupted transferId = db.interrupted transferId := by
  rw [interrupted, h, interrupted]

/-- What `get_interrupted_transfer` returns is the INTERRUPTED row of the transfer. -/
theorem getInterruptedTransfer_effect (db : Database) (transferId : Text) :
    wp (getInterruptedTransfer transferId) (fun r t ↦ t = { db with faults := db.faults.tail } ∧
      ∀ info, r = .ok info → info = db.interrupted transferId) db := by
  unfold getInterruptedTransfer bindText
  apply wp_bind_of (access_effect db)
  · intro e t ht
    exact ⟨ht.1, fun info hinfo ↦ nomatch hinfo⟩
  · rintro _ t ⟨rfl, -⟩
    rw [wp_raiseIf_bind]
    exact ⟨fun _ ↦ ⟨rfl, fun info hinfo ↦ nomatch hinfo⟩, fun _ ↦
      ⟨rfl, fun info hinfo ↦ (Except.ok.inj hinfo).symm⟩⟩

/-! ## The INTERRUPTED rows -/

/-- Every row stays, or is not INTERRUPTED any more. -/
def Settles (db db' : Database) : Prop :=
  ∀ transferId, db'.transfers.get transferId = db.transfers.get transferId ∨
    db'.interrupted transferId = none

@[simp] theorem Settles.refl (db : Database) : Settles db db := fun _ ↦ .inl rfl

theorem Settles.trans {db db' db'' : Database} (h : Settles db db') (h' : Settles db' db'') :
    Settles db db'' := by
  intro transferId
  rcases h' transferId with hsame' | hnone'
  · rcases h transferId with hsame | hnone
    · exact .inl (hsame'.trans hsame)
    · exact .inr ((interrupted_congr hsame').trans hnone)
  · exact .inr hnone'

theorem settles_of_eq {db db' : Database} (h : db'.transfers = db.transfers) : Settles db db' :=
  fun transferId ↦ .inl (by rw [h])

/-- An INTERRUPTED row that is left was there before. -/
theorem Settles.interrupted {db db' : Database} (h : Settles db db') {transferId : Text}
    {info : InterruptedTransferInfo} (hinfo : db'.interrupted transferId = some info) :
    db.interrupted transferId = some info := by
  rcases h transferId with hsame | hnone
  · rw [← interrupted_congr hsame, hinfo]
  · rw [hnone] at hinfo
    simp at hinfo

/-- A computation that leaves the devices and settles rows. -/
def Bookkeeps (db db' : Database) : Prop := db'.devices = db.devices ∧ Settles db db'

instance : IsPreorder Database Bookkeeps where
  refl := fun db ↦ ⟨rfl, Settles.refl db⟩
  trans := fun _ _ _ h h' ↦ ⟨h'.1.trans h.1, h.2.trans h'.2⟩

theorem bookkeeps_access : Stays Bookkeeps access :=
  stays_get_bind fun _ ↦ stays_bind
    (stays_modify fun _ ↦ ⟨rfl, settles_of_eq rfl⟩) (fun _ ↦ stays_raiseIf _ _) _

theorem bookkeeps_bindText (t : Text) : Stays Bookkeeps (bindText t) := stays_raiseIf _ _

theorem bookkeeps_getInterruptedTransfer (transferId : Text) :
    Stays Bookkeeps (getInterruptedTransfer transferId) :=
  stays_bind bookkeeps_access fun _ ↦ stays_bind (bookkeeps_bindText _) fun _ ↦
    stays_get_bind fun db ↦ stays_pure _ db

theorem bookkeeps_deleteInterruptedTransfer (transferId : Text) :
    Stays Bookkeeps (deleteInterruptedTransfer transferId) := by
  refine stays_bind bookkeeps_access fun _ ↦ stays_bind (bookkeeps_bindText _) fun _ ↦ ?_
  refine stays_modify fun db ↦ ⟨rfl, fun other ↦ ?_⟩
  dsimp only
  rcases hrow : db.transfers.get transferId with _ | row
  · exact .inl rfl
  · dsimp only
    split
    · by_cases hother : other = transferId
      · subst hother
        exact .inr (by simp [interrupted])
      · exact .inl (Dict.get_set_of_ne _ _ hother)
    · exact .inl rfl

theorem bookkeeps_addTransfer (transferId : Text) {record : TransferRecord}
    (hstatus : record.status ≠ .interrupted) : Stays Bookkeeps (addTransfer transferId record) := by
  refine stays_bind bookkeeps_access fun _ ↦ stays_bind (bookkeeps_bindText _) fun _ ↦ ?_
  refine stays_bind (stays_ofResult _) fun deviceId ↦ stays_bind (bookkeeps_bindText _) fun _ ↦ ?_
  refine stays_bind (stays_raiseIf _ _) fun _ ↦ stays_bind (stays_raiseIf _ _) fun _ ↦ ?_
  refine stays_bind (bookkeeps_bindText _) fun _ ↦ stays_bind (stays_ofResult _) fun _ ↦ ?_
  refine stays_modify fun db ↦ ⟨rfl, fun other ↦ ?_⟩
  by_cases hother : other = transferId
  · subst hother
    refine .inr ?_
    rcases hrow : db.transfers.get other with _ | row <;> simp [interrupted, upsertedRow, hstatus]
  · exact .inl (Dict.get_set_of_ne _ _ hother)

/-! ## The statements about devices -/

/-- The history is as it was. -/
def SameTransfers (db db' : Database) : Prop := db'.transfers = db.transfers

instance : IsPreorder Database SameTransfers where
  refl := fun _ ↦ rfl
  trans := fun _ _ _ h h' ↦ h'.trans h

theorem sameTransfers_access : Stays SameTransfers access :=
  stays_get_bind fun _ ↦
    stays_bind (R := SameTransfers) (stays_modify fun _ ↦ rfl) (fun _ ↦ stays_raiseIf _ _) _

theorem sameTransfers_addOrUpdateDevice (deviceId deviceName : JsonValue) (publicKey key : Text)
    (pairedAt lastSeen : ℤ) :
    Stays SameTransfers (addOrUpdateDevice deviceId deviceName publicKey key pairedAt lastSeen) := by
  refine stays_bind sameTransfers_access fun _ ↦ stays_bind (stays_ofResult _) fun _ ↦ ?_
  refine stays_bind (stays_ofResult _) fun _ ↦ stays_bind (stays_raiseIf _ _) fun _ ↦ ?_
  refine stays_bind (stays_raiseIf _ _) fun _ ↦ stays_bind (stays_ofResult _) fun _ ↦ ?_
  exact stays_modify fun _ ↦ rfl

theorem sameTransfers_getDeviceByPublicKey (key : Text) :
    Stays SameTransfers (getDeviceByPublicKey key) :=
  stays_bind sameTransfers_access fun _ ↦ stays_bind (stays_raiseIf _ _) fun _ ↦
    stays_get_bind fun db ↦ stays_pure _ db

theorem sameTransfers_removeDeviceByPublicKey (key : Text) :
    Stays SameTransfers (removeDeviceByPublicKey key) :=
  stays_bind sameTransfers_access fun _ ↦ stays_bind (stays_raiseIf _ _) fun _ ↦
    stays_modify fun _ ↦ rfl

end Database

end Ferry
