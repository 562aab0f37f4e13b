import Ferry.Service.Incoming
import Ferry.Service.Records
import Ferry.Transfer.Delivery

/-!
# What the end of a session loop leaves

Every way out of a session loop cancels the incoming transfers of the session, which removes their
`.part` files and records them as FAILED.  An interrupted transfer is therefore retained only when the
file system refuses to remove the file and the history entry is not written, and the database already
held a row that describes the file.
-/

namespace Ferry

open Exec Text

namespace IncomingTransfer

/-! ## The disk after a cancel -/

/-- The disk when the file of a transfer is closed. -/
def closedDisk (disk : Disk) (self : IncomingTransfer) : Disk :=
  match self.tempFh with
  | none => disk
  | some handle => (Handle.close (disk, handle)).2.1

/-- The disk when the file at the temporary path is removed, if it is there and can be. -/
def unlinkedDisk (disk : Disk) : Option Path → Disk
  | none => disk
  | some temp => if disk.Exists temp then (Disk.unlink temp disk).2 else disk

/-- The disk after `cancel`. -/
def cancelledDisk (disk : Disk) (self : IncomingTransfer) : Disk :=
  unlinkedDisk (closedDisk disk self) self.tempPath

/-- The disk without the outcomes that the calls of `cancel` take. -/
def spendDisk (disk : Disk) (self : IncomingTransfer) : Disk :=
  let closed := if self.tempFh.any fun handle ↦ !handle.closed then disk.advance .close else disk
  match self.tempPath with
  | none => closed
  | some temp => if disk.Exists temp then closed.advance .unlink else closed

theorem close_closed (s : Disk × Handle) : (Handle.close s).2.2.closed = true := by
  have hclose : wp Handle.close (fun _ s' ↦ s'.2.closed = true) s := by
    rw [Handle.wp_close]
    exact ⟨id, fun _ ↦ ⟨fun _ ↦ rfl, fun _ ↦ rfl⟩⟩
  exact hclose

theorem close_of_closed {s : Disk × Handle} (h : s.2.closed = true) : (Handle.close s).2 = s := by
  have hclose : wp Handle.close (fun _ s' ↦ s' = s) s := by
    rw [Handle.wp_close]
    exact ⟨fun _ ↦ rfl, fun hopen ↦ absurd h hopen⟩
  exact hclose

theorem faults_close (s : Disk × Handle) :
    (Handle.close s).2.1.faults = (if s.2.closed then s.1 else s.1.advance .close).faults := by
  have hclose : wp Handle.close
      (fun _ s' ↦ s'.1.faults = (if s.2.closed then s.1 else s.1.advance .close).faults) s := by
    rw [Handle.wp_close]
    refine ⟨fun hclosed ↦ by rw [if_pos hclosed], fun hopen ↦ ?_⟩
    rw [if_neg hopen]
    exact ⟨fun _ ↦ Disk.faults_append _ _ _, fun _ ↦ Disk.faults_append _ _ _⟩
  exact hclose

theorem close_eq_none_iff (s : Disk × Handle) (p : Path) :
    (Handle.close s).2.1.nodes p = none ↔ s.1.nodes p = none := by
  have hkind := kinds_close s p
  rw [← Option.map_eq_none_iff, hkind, Option.map_eq_none_iff]

theorem closedDisk_exists_iff (disk : Disk) (self : IncomingTransfer) (p : Path) :
    (closedDisk disk self).Exists p ↔ disk.Exists p := by
  unfold closedDisk Disk.Exists
  cases self.tempFh with
  | none => rfl
  | some handle => exact not_congr (close_eq_none_iff (disk, handle) p)

/-- Closing the file puts its last bytes on the disk. -/
theorem closeTempFh_effect (w : World) :
    wp closeTempFh (fun r w' ↦ r = .ok () ∧
      w' = { w with disk := closedDisk w.disk w.self, self := { w.self with tempFh := none } }) w := by
  unfold closeTempFh
  rw [wp_get_bind, wp_ite]
  cases hfh : w.self.tempFh with
  | none =>
    refine ⟨by simp, fun _ ↦ ?_⟩
    rw [wp_pure]
    refine ⟨rfl, ?_⟩
    rw [closedDisk, hfh]
    dsimp only
    rw [← hfh]
  | some handle =>
    refine ⟨fun _ ↦ ?_, by simp⟩
    have hclosed : wp (tryCatch (onTempFh Handle.close) fun _ ↦ pure () : Method Unit)
        (fun r t ↦ r = .ok () ∧ t = { w with
          disk := (Handle.close (w.disk, handle)).2.1
          self := { w.self with tempFh := some (Handle.close (w.disk, handle)).2.2 } }) w := by
      rw [wp_tryCatch, wp_onTempFh_some hfh]
      unfold wp
      cases (Handle.close (w.disk, handle)).1 with
      | error e => exact ⟨rfl, rfl⟩
      | ok u => exact ⟨rfl, rfl⟩
    apply wp_bind_of hclosed
    · intro e t ht
      simp at ht
    · rintro _ t ⟨-, rfl⟩
      unfold assignTempFh
      rw [wp_get_bind, wp_update_bind]
      refine ⟨rfl, ?_⟩
      have hdrop := close_of_closed (close_closed (w.disk, handle))
      rw [closedDisk, hfh]
      exact congrArg (fun s ↦ ({ disk := s.1, self := { w.self with tempFh := none } } : World)) hdrop

theorem cleanupTemp_effect (w : World) :
    wp cleanupTemp (fun r w' ↦ r = .ok () ∧
      w' = { w with disk := unlinkedDisk w.disk w.self.tempPath }) w := by
  unfold cleanupTemp
  rw [wp_get_bind]
  cases w.self.tempPath with
  | none => exact ⟨rfl, rfl⟩
  | some temp =>
    rw [wp_ite]
    refine ⟨fun hexists ↦ ?_, fun hmissing ↦ ?_⟩
    · rw [wp_tryCatch, unlinkedDisk, if_pos hexists]
      unfold onDisk
      rw [wp_zoom, wp_mapError]
      unfold wp
      cases (Disk.unlink temp w.disk).1 with
      | error e => exact ⟨rfl, rfl⟩
      | ok u => exact ⟨rfl, rfl⟩
    · rw [unlinkedDisk, if_neg hmissing]
      exact ⟨rfl, rfl⟩

/-- `cancel` closes the file and removes it. -/
theorem cancel_effect (w : World) :
    wp cancel (fun r w' ↦ r = .ok () ∧ w' = {
      disk := cancelledDisk w.disk w.self
      self := { w.self with tempFh := none, state := .cancelled } }) w := by
  unfold cancel
  apply wp_bind_of (closeTempFh_effect w)
  · intro e t ht
    simp at ht
  · rintro _ t ⟨-, rfl⟩
    apply wp_bind_of (cleanupTemp_effect _)
    · intro e t ht
      simp at ht
    · rintro _ t ⟨-, rfl⟩
      exact ⟨rfl, rfl⟩

theorem nodes_spendDisk (disk : Disk) (self : IncomingTransfer) :
    (spendDisk disk self).nodes = disk.nodes := by
  unfold spendDisk
  cases self.tempPath with
  | none =>
    dsimp only
    split <;> rfl
  | some temp =>
    dsimp only
    split <;> split <;> rfl

theorem faults_unlink (temp : Path) (disk : Disk) :
    (Disk.unlink temp disk).2.faults = (disk.advance .unlink).faults := by
  have hunlink : wp (Disk.unlink temp) (fun _ d ↦ d.faults = (disk.advance .unlink).faults) disk := by
    unfold Disk.unlink
    rw [Disk.wp_perform_bind, wp_get_bind, wp_raiseIf_bind]
    refine ⟨fun _ ↦ rfl, fun _ ↦ ?_⟩
    split <;> rfl
  exact hunlink

/-- Other files stay. -/
theorem nodes_cancelledDisk {disk : Disk} {self : IncomingTransfer} {q : Path}
    (htemp : ∀ p, self.tempPath = some p → q ≠ p)
    (hfh : ∀ handle, self.tempFh = some handle → q ≠ handle.path) :
    (cancelledDisk disk self).nodes q = disk.nodes q := by
  have hclosed : (closedDisk disk self).nodes q = disk.nodes q := by
    unfold closedDisk
    cases hself : self.tempFh with
    | none => rfl
    | some handle => exact (Handle.stays_close (disk, handle)).disk.nodes q (hfh handle hself)
  unfold cancelledDisk unlinkedDisk
  cases hself : self.tempPath with
  | none => exact hclosed
  | some temp =>
    dsimp only
    split
    · exact ((Disk.stays_unlink temp (closedDisk disk self)).nodes q (htemp temp hself)).trans hclosed
    · exact hclosed

/-- The calls of `cancel` take the same outcomes on every disk where the file is present or not. -/
theorem faults_cancelledDisk {disk disk' : Disk} {self : IncomingTransfer}
    (hfaults : disk.faults = disk'.faults)
    (hnodes : ∀ p, self.tempPath = some p → disk.nodes p = disk'.nodes p) :
    (cancelledDisk disk self).faults = (spendDisk disk' self).faults := by
  have hadvance : ∀ {d d' : Disk} (call : Syscall), d.faults = d'.faults →
      (d.advance call).faults = (d'.advance call).faults := by
    intro d d' call h
    simp only [Disk.advance, h]
  have hclosed : (closedDisk disk self).faults =
      (if self.tempFh.any fun handle ↦ !handle.closed then disk'.advance .close else disk').faults := by
    unfold closedDisk
    cases self.tempFh with
    | none => simpa using hfaults
    | some handle =>
      rw [faults_close]
      cases hclosed : handle.closed with
      | false => simpa [hclosed] using hadvance .close hfaults
      | true => simpa [hclosed] using hfaults
  unfold cancelledDisk unlinkedDisk spendDisk
  cases htemp : self.tempPath with
  | none => exact hclosed
  | some temp =>
    have hexists : (closedDisk disk self).Exists temp ↔ disk'.Exists temp := by
      rw [closedDisk_exists_iff, Disk.Exists, Disk.Exists, hnodes temp htemp]
    dsimp only
    by_cases h : disk'.Exists temp
    · rw [if_pos (hexists.mpr h), if_pos h, faults_unlink]
      exact hadvance .unlink hclosed
    · rw [if_neg (fun h' ↦ h (hexists.mp h')), if_neg h]
      exact hclosed

/-- The bytes that closing leaves depend on the file and the outcome of the call only. -/
theorem nodes_closedDisk {disk disk' : Disk} {self : IncomingTransfer} {p : Path}
    (hfaults : disk.faults = disk'.faults) (hnodes : disk.nodes p = disk'.nodes p)
    (hfh : ∀ handle, self.tempFh = some handle → handle.path = p) :
    (closedDisk disk self).nodes p = (closedDisk disk' self).nodes p := by
  have happend : ∀ {d d' : Disk} (data : Bytes), d.nodes p = d'.nodes p →
      (d.append p data).nodes p = (d'.append p data).nodes p := by
    intro d d' data h
    unfold Disk.append
    rw [h]
    cases hnode : d'.nodes p with
    | none => rw [h, hnode]
    | some node => cases node <;> simp [h, hnode]
  unfold closedDisk
  cases hself : self.tempFh with
  | none => exact hnodes
  | some handle =>
    have hpath := hfh handle hself
    have houtcome : disk.outcome .close = disk'.outcome .close := by rw [Disk.outcome, hfaults, Disk.outcome]
    have hclose : wp Handle.close
        (fun _ s ↦ s.1.nodes p = (Handle.close (disk', handle)).2.1.nodes p) (disk, handle) := by
      have hclose' : wp Handle.close (fun _ s' ↦ wp Handle.close
          (fun _ s ↦ s.1.nodes p = s'.1.nodes p) (disk, handle)) (disk', handle) := by
        rw [Handle.wp_close]
        refine ⟨fun hclosed ↦ ?_, fun hopen ↦ ⟨fun hfails ↦ ?_, fun hfails ↦ ?_⟩⟩
        · rw [Handle.wp_close]
          exact ⟨fun _ ↦ hnodes, fun hopen ↦ absurd hclosed hopen⟩
        · rw [Handle.wp_close]
          refine ⟨fun hclosed ↦ absurd hclosed hopen, fun _ ↦ ⟨fun _ ↦ ?_, fun h ↦ ?_⟩⟩
          · dsimp only
            rw [hpath, houtcome]
            exact happend _ hnodes
          · exact absurd (houtcome ▸ hfails) h
        · rw [Handle.wp_close]
          refine ⟨fun hclosed ↦ absurd hclosed hopen, fun _ ↦ ⟨fun h ↦ ?_, fun _ ↦ ?_⟩⟩
          · exact absurd (houtcome ▸ h) hfails
          · dsimp only
            rw [hpath]
            exact happend _ hnodes
      exact hclose'
    exact hclose

theorem isFile_closedDisk {disk : Disk} {self : IncomingTransfer} {p : Path} (h : disk.IsFile p)
    (hfh : ∀ handle, self.tempFh = some handle → handle.path = p) :
    (closedDisk disk self).IsFile p := by
  unfold closedDisk
  cases hself : self.tempFh with
  | none => exact h
  | some handle =>
    have hpath := hfh handle hself
    have hclose : wp Handle.close (fun _ s ↦ s.1.IsFile p) (disk, handle) := by
      rw [Handle.wp_close]
      refine ⟨fun _ ↦ h, fun _ ↦ ⟨fun _ ↦ ?_, fun _ ↦ ?_⟩⟩
      · exact hpath ▸ (Handle.isFile_advance_append .close _ (hpath.symm ▸ h)).1
      · exact hpath ▸ (Handle.isFile_advance_append .close _ (hpath.symm ▸ h)).1
    exact hclose

/-- The file of a transfer survives the cancel, as closing leaves it, when it cannot be removed, and
is gone otherwise. -/
theorem nodes_cancelledDisk_temp {disk : Disk} {self : IncomingTransfer} {p : Path}
    (htemp : self.tempPath = some p) (h : disk.IsFile p)
    (hfh : ∀ handle, self.tempFh = some handle → handle.path = p) :
    (cancelledDisk disk self).nodes p =
      if (disk.outcome .unlink).fails then (closedDisk disk self).nodes p else none := by
  obtain ⟨data, hdata⟩ := isFile_closedDisk h hfh
  have houtcome : (closedDisk disk self).outcome .unlink = disk.outcome .unlink := by
    unfold closedDisk
    cases self.tempFh with
    | none => rfl
    | some handle =>
      rw [Disk.outcome, faults_close]
      cases handle.closed <;> rfl
  have hunlink : wp (Disk.unlink p) (fun _ d ↦ d.nodes p =
      if (disk.outcome .unlink).fails then (closedDisk disk self).nodes p else none)
      (closedDisk disk self) := by
    unfold Disk.unlink
    rw [Disk.wp_perform_bind, wp_get_bind, wp_raiseIf_bind, houtcome]
    refine ⟨fun hfails ↦ by rw [if_pos hfails, Disk.nodes_advance], fun hfails ↦ ?_⟩
    rw [Disk.nodes_advance, hdata, if_neg hfails]
    exact if_pos rfl
  have hexists : (closedDisk disk self).Exists p := by simp [Disk.Exists, hdata]
  rw [cancelledDisk, htemp, unlinkedDisk, if_pos hexists]
  exact hunlink

end IncomingTransfer

namespace FerryService

open IncomingTransfer

/-! ## One transfer -/

/-- The history entry of a cancelled transfer is not written: one was already, or it cannot be. -/
def Unwritten (s : FerryService) (ps : ℕ) (transferId : Text) (incoming : IncomingTransfer) : Prop :=
  transferId ∈ s.recordedTransferIds ∨
    ¬s.db.Writable transferId (incomingRecord (s.sessions ps) incoming.metadata .failed [])

/-- The effect of `_record_transfer_once`. -/
structure Noted (transferId : Text) (record : TransferRecord) (s s' : FerryService) : Prop where
  sessions : s'.sessions = s.sessions
  disk : s'.disk = s.disk
  faults : s'.db.faults =
    if transferId ∈ s.recordedTransferIds then s.db.faults else s.db.faults.tail
  transfers : ∀ key, key ≠ transferId → s'.db.transfers.get key = s.db.transfers.get key
  recorded : ∀ key, key ≠ transferId → (key ∈ s'.recordedTransferIds ↔ key ∈ s.recordedTransferIds)
  kept : transferId ∈ s.recordedTransferIds ∨ ¬s.db.Writable transferId record →
    s'.db.transfers = s.db.transfers
  written : ¬(transferId ∈ s.recordedTransferIds ∨ ¬s.db.Writable transferId record) →
    ∃ row, s'.db.transfers.get transferId = some row ∧ row.record.status = record.status

theorem recordTransferOnce_effect (transferId : Text) (record : TransferRecord) (s : FerryService) :
    wp (recordTransferOnce transferId record) (fun r s' ↦ r = .ok () ∧ Noted transferId record s s')
      s := by
  unfold recordTransferOnce
  rw [wp_get_bind, wp_ite]
  refine ⟨fun hmem ↦ ?_, fun hmem ↦ ?_⟩
  · rw [wp_pure]
    exact ⟨rfl, rfl, rfl, by rw [if_pos hmem], fun _ _ ↦ rfl, fun _ _ ↦ Iff.rfl, fun _ ↦ rfl,
      fun h ↦ absurd (.inl hmem) h⟩
  · have hadd : wp (onDb (Database.addTransfer transferId record))
        (fun r t ↦ s.db.Recorded transferId record r t.db ∧ t = { s with db := t.db }) s :=
      ⟨Database.addTransfer_effect s.db transferId record, rfl⟩
    rw [wp_tryCatch]
    apply wp_bind_of hadd
    · rintro e t ⟨⟨hfaults, ⟨h, -⟩ | ⟨-, hunwritable, hsame⟩⟩, ht⟩
      · simp at h
      · dsimp only
        rw [wp_pure, ht]
        exact ⟨rfl, rfl, rfl, by rw [if_neg hmem, hfaults], fun _ _ ↦ by rw [hsame], fun _ _ ↦ Iff.rfl,
          fun _ ↦ hsame, fun h ↦ absurd (.inr hunwritable) h⟩
    · rintro _ t ⟨⟨hfaults, ⟨-, hwritable, row, hstatus, hset⟩ | ⟨⟨e, h⟩, -⟩⟩, ht⟩
      · rw [wp_modify, ht]
        refine ⟨rfl, rfl, rfl, by rw [if_neg hmem, hfaults], fun key hkey ↦ ?_, fun key hkey ↦ ?_,
          fun h ↦ ?_, fun _ ↦ ⟨row, ?_, hstatus⟩⟩
        · rw [hset, Dict.get_set_of_ne _ _ hkey]
        · simp [hkey]
        · rcases h with h | h
          · exact absurd h hmem
          · exact absurd hwritable h
        · rw [hset, Dict.get_set_self]
      · simp at h

/-- The effect of one round of `_cancel_incoming_transfer_for_peer`. -/
structure Cancelled (ps : ℕ) (transferId : Text) (incoming : IncomingTransfer) (s s' : FerryService) :
    Prop where
  sessions : s'.sessions = s.sessions
  disk : s'.disk = cancelledDisk s.disk incoming
  faults : s'.db.faults =
    if transferId ∈ s.recordedTransferIds then s.db.faults else s.db.faults.tail
  transfers : ∀ key, key ≠ transferId → s'.db.transfers.get key = s.db.transfers.get key
  recorded : ∀ key, key ≠ transferId → (key ∈ s'.recordedTransferIds ↔ key ∈ s.recordedTransferIds)
  kept : s.Unwritten ps transferId incoming → s'.db.transfers = s.db.transfers
  failed : ¬s.Unwritten ps transferId incoming → s'.db.interrupted transferId = none

theorem cancelForPeer_effect (ps : ℕ) (transferId : Text) (incoming : IncomingTransfer)
    (s : FerryService) :
    wp (cancelForPeer ps transferId incoming) (fun r s' ↦ r = .ok () ∧
      Cancelled ps transferId incoming s s') s := by
  have hcancel : ∀ t : FerryService, wp (onDetached incoming cancel) (fun r t' ↦
      r = .ok ((), { incoming with tempFh := none, state := .cancelled }) ∧
        t' = { t with disk := cancelledDisk t.disk incoming }) t := by
    intro t
    obtain ⟨hr, hw⟩ := cancel_effect ⟨t.disk, incoming⟩
    have hrun : cancel ⟨t.disk, incoming⟩ = (.ok (), _) := Prod.ext hr hw
    unfold wp onDetached
    rw [hrun]
    exact ⟨rfl, rfl⟩
  unfold cancelForPeer popIncoming popPeer popTimers notifyTransferComplete
  rw [wp_modify_bind, wp_modify_bind, wp_modify_bind, wp_get_bind]
  apply wp_bind_of (hcancel _)
  · rintro e t ⟨h, -⟩
    simp at h
  · rintro ⟨_, object⟩ t ⟨h, rfl⟩
    obtain rfl : { incoming with tempFh := none, state := .cancelled } = object := by
      simpa using h.symm
    apply wp_bind_of (recordTransferOnce_effect _ _ _)
    · rintro e u ⟨h, -⟩
      simp at h
    · rintro _ u ⟨-, hu⟩
      rw [wp_modify]
      refine ⟨rfl, hu.sessions, hu.disk, hu.faults, hu.transfers, hu.recorded, hu.kept, fun h ↦ ?_⟩
      obtain ⟨row, hget, hstatus⟩ := hu.written h
      have hfailed : row.record.status = .failed := hstatus
      rw [Database.interrupted, hget]
      dsimp only
      rw [if_neg]
      rw [hfailed]
      decide

/-! ## The transfers of a session -/

/-- The state without the outcomes that the cancel of a transfer takes. -/
def spend (s : FerryService) (item : Text × IncomingTransfer) : FerryService :=
  { s with
    disk := spendDisk s.disk item.2
    db := { s.db with
      faults := if item.1 ∈ s.recordedTransferIds then s.db.faults else s.db.faults.tail } }

/-- The state with the outcomes that are left for the next transfer. -/
def atTurn (s : FerryService) (earlier : List (Text × IncomingTransfer)) : FerryService :=
  earlier.foldl spend s

theorem nodes_atTurn (s : FerryService) (earlier : List (Text × IncomingTransfer)) :
    (s.atTurn earlier).disk.nodes = s.disk.nodes := by
  induction earlier generalizing s with
  | nil => rfl
  | cons item rest ih => exact (ih (s.spend item)).trans (nodes_spendDisk s.disk item.2)

/-- The transfer is registered under its own id, which is a UUID, and uses its own `.part` file. -/
def OwnPart (dir : DownloadDir) (item : Text × IncomingTransfer) : Prop :=
  item.2.metadata.transferId = item.1 ∧ (∃ n, uuidInt item.1 = .ok n) ∧
    (∀ p, item.2.tempPath = some p → p = item.2.metadata.partPath dir) ∧
    ∀ handle, item.2.tempFh = some handle → handle.path = item.2.metadata.partPath dir

/-- Two transfers with different ids and different `.part` files. -/
def Apart (dir : DownloadDir) (item item' : Text × IncomingTransfer) : Prop :=
  item.1 ≠ item'.1 ∧ item.2.metadata.partPath dir ≠ item'.2.metadata.partPath dir

/-- For the transfers that are left, `t` is like `s`. -/
structure Agrees (dir : DownloadDir) (items : List (Text × IncomingTransfer)) (s t : FerryService) :
    Prop where
  sessions : t.sessions = s.sessions
  faults : t.disk.faults = s.disk.faults
  statements : t.db.faults = s.db.faults
  nodes : ∀ item ∈ items,
    t.disk.nodes (item.2.metadata.partPath dir) = s.disk.nodes (item.2.metadata.partPath dir)
  transfers : ∀ item ∈ items, t.db.transfers.get item.1 = s.db.transfers.get item.1
  recorded : ∀ item ∈ items, (item.1 ∈ t.recordedTransferIds ↔ item.1 ∈ s.recordedTransferIds)

section Turn

variable {dir : DownloadDir} {ps : ℕ}

theorem Agrees.refl (items : List (Text × IncomingTransfer)) (s : FerryService) :
    Agrees dir items s s :=
  ⟨rfl, rfl, rfl, fun _ _ ↦ rfl, fun _ _ ↦ rfl, fun _ _ ↦ Iff.rfl⟩

/-- The cancel of one transfer touches nothing of the others. -/
theorem Cancelled.frame {item item' : Text × IncomingTransfer} {s s' : FerryService}
    (h : Cancelled ps item.1 item.2 s s') (hown : OwnPart dir item) (hapart : Apart dir item item') :
    s'.disk.nodes (item'.2.metadata.partPath dir) = s.disk.nodes (item'.2.metadata.partPath dir) ∧
      s'.db.transfers.get item'.1 = s.db.transfers.get item'.1 ∧
      (item'.1 ∈ s'.recordedTransferIds ↔ item'.1 ∈ s.recordedTransferIds) := by
  obtain ⟨-, -, htemp, hfh⟩ := hown
  refine ⟨?_, h.transfers _ hapart.1.symm, h.recorded _ hapart.1.symm⟩
  rw [h.disk]
  apply nodes_cancelledDisk
  · intro p hp
    exact (htemp p hp).symm ▸ hapart.2.symm
  · intro handle hhandle
    exact (hfh handle hhandle).symm ▸ hapart.2.symm

theorem Agrees.cancelled {item : Text × IncomingTransfer} {rest : List (Text × IncomingTransfer)}
    {s t t' : FerryService} (h : Agrees dir (item :: rest) s t) (hown : OwnPart dir item)
    (hapart : ∀ item' ∈ rest, Apart dir item item') (hstep : Cancelled ps item.1 item.2 t t') :
    Agrees dir rest (s.spend item) t' where
  sessions := hstep.sessions.trans h.sessions
  faults := by
    rw [hstep.disk]
    apply faults_cancelledDisk h.faults
    intro p hp
    rw [hown.2.2.1 p hp]
    exact h.nodes item List.mem_cons_self
  statements := by
    rw [hstep.faults, h.statements]
    simp only [h.recorded item List.mem_cons_self]
    rfl
  nodes := by
    intro item' hmem
    rw [(hstep.frame hown (hapart item' hmem)).1, h.nodes item' (List.mem_cons_of_mem _ hmem), spend,
      nodes_spendDisk]
  transfers := by
    intro item' hmem
    rw [(hstep.frame hown (hapart item' hmem)).2.1, h.transfers item' (List.mem_cons_of_mem _ hmem)]
    rfl
  recorded := by
    intro item' hmem
    exact (hstep.frame hown (hapart item' hmem)).2.2.trans
      (h.recorded item' (List.mem_cons_of_mem _ hmem))

/-- The rounds before the turn of a transfer take their outcomes and leave what is its own. -/
theorem cancelEach_agrees {earlier later : List (Text × IncomingTransfer)} {s t : FerryService}
    (h : Agrees dir (earlier ++ later) s t) (hown : ∀ item ∈ earlier, OwnPart dir item)
    (hapart : (earlier ++ later).Pairwise (Apart dir)) :
    wp (cancelEach ps earlier) (fun r t' ↦ r = .ok () ∧ Agrees dir later (s.atTurn earlier) t') t := by
  induction earlier generalizing s t with
  | nil => exact ⟨rfl, h⟩
  | cons item rest ih =>
    obtain ⟨hhead, htail⟩ := List.pairwise_cons.mp hapart
    apply wp_bind_of (cancelForPeer_effect ps item.1 item.2 t)
    · rintro e t' ⟨hr, -⟩
      simp at hr
    · rintro _ t' ⟨-, hstep⟩
      have hagrees := h.cancelled (hown item List.mem_cons_self) hhead hstep
      exact ih hagrees (fun item' hmem ↦ hown item' (List.mem_cons_of_mem _ hmem)) htail

/-- The rounds after it leave what is its own. -/
theorem cancelEach_frame {item : Text × IncomingTransfer} {later : List (Text × IncomingTransfer)}
    (hown : ∀ item' ∈ later, OwnPart dir item') (hapart : ∀ item' ∈ later, Apart dir item' item)
    (t : FerryService) :
    wp (cancelEach ps later) (fun r t' ↦ r = .ok () ∧
      t'.disk.nodes (item.2.metadata.partPath dir) = t.disk.nodes (item.2.metadata.partPath dir) ∧
        t'.db.transfers.get item.1 = t.db.transfers.get item.1) t := by
  induction later generalizing t with
  | nil => exact ⟨rfl, rfl, rfl⟩
  | cons head rest ih =>
    apply wp_bind_of (cancelForPeer_effect ps head.1 head.2 t)
    · rintro e t' ⟨hr, -⟩
      simp at hr
    · rintro _ t' ⟨-, hstep⟩
      obtain ⟨hnodes, htransfers, -⟩ := hstep.frame (hown head List.mem_cons_self)
        (hapart head List.mem_cons_self)
      apply wp_mono (ih (fun item' hmem ↦ hown item' (List.mem_cons_of_mem _ hmem))
        (fun item' hmem ↦ hapart item' (List.mem_cons_of_mem _ hmem)) t')
      rintro r u ⟨hr, hnodes', htransfers'⟩
      exact ⟨hr, hnodes'.trans hnodes, htransfers'.trans htransfers⟩

end Turn

/-! ## What is retained -/

/-- A row describes the bytes of a `.part` file. -/
structure Describes (info : InterruptedTransferInfo) (chunkSize : ℤ) (data : Bytes) : Prop where
  bytesReceived : info.bytesReceived = data.length
  chunkIndex : info.resumeChunkIndex * chunkSize = info.bytesReceived
  partialSha256 : info.partialSha256 = Sha256.hexdigest data

/-- The `.part` file is there, and the database holds an INTERRUPTED row that describes it. -/
def Retained (dir : DownloadDir) (item : Text × IncomingTransfer) (s : FerryService) : Prop :=
  ∃ data info, s.disk.nodes (item.2.metadata.partPath dir) = some (.file data) ∧
    s.db.interrupted item.1 = some info ∧ Describes info item.2.metadata.chunkSize data

/-- The next removal fails, the history entry is not written, and the database holds an INTERRUPTED row
that describes the `.part` file as closing leaves it. -/
structure Spared (dir : DownloadDir) (ps : ℕ) (item : Text × IncomingTransfer) (s : FerryService) :
    Prop where
  removal : (s.disk.outcome .unlink).fails = true
  unwritten : s.Unwritten ps item.1 item.2
  described : ∃ info, s.db.interrupted item.1 = some info ∧ Describes info item.2.metadata.chunkSize
    ((closedDisk s.disk item.2).content (item.2.metadata.partPath dir))

/-- Every registered transfer uses its own `.part` file. -/
def Sound (s : FerryService) : Prop :=
  ∀ transferId incoming, s.incomingTransfers.get transferId = some incoming →
    OwnPart s.downloadDir (transferId, incoming)

/-- The transfers of the session that were registered before. -/
def earlierThan (s : FerryService) (ps : ℕ) (transferId : Text) : List (Text × IncomingTransfer) :=
  (s.incomingOf ps).takeWhile fun item ↦ item.1 ≠ transferId

section Retained

variable {dir : DownloadDir} {ps : ℕ}

theorem retained_congr {item : Text × IncomingTransfer} {s t : FerryService}
    (hnodes : t.disk.nodes (item.2.metadata.partPath dir) = s.disk.nodes (item.2.metadata.partPath dir))
    (hrow : t.db.transfers.get item.1 = s.db.transfers.get item.1) :
    Retained dir item t ↔ Retained dir item s := by
  rw [Retained, hnodes, Database.interrupted_congr hrow, Retained]

/-- The round of the transfer itself. -/
theorem Cancelled.retained_iff {item : Text × IncomingTransfer} {s t : FerryService}
    (h : Cancelled ps item.1 item.2 s t) (hown : OwnPart dir item) (htemp : item.2.tempPath ≠ none)
    (hfile : s.disk.IsFile (item.2.metadata.partPath dir)) :
    Retained dir item t ↔ Spared dir ps item s := by
  obtain ⟨temp, htemp⟩ := Option.ne_none_iff_exists'.mp htemp
  obtain rfl := hown.2.2.1 temp htemp
  have hnodes := nodes_cancelledDisk_temp htemp hfile hown.2.2.2
  have hleft := (isFile_closedDisk hfile hown.2.2.2).nodes
  rw [← h.disk] at hnodes
  constructor
  · rintro ⟨data, info, hdata, hinfo, hdescribes⟩
    have hfails : (s.disk.outcome .unlink).fails = true := by
      by_contra hfails
      rw [hnodes, if_neg hfails] at hdata
      simp at hdata
    have hunwritten : s.Unwritten ps item.1 item.2 := by
      by_contra hwritten
      rw [h.failed hwritten] at hinfo
      simp at hinfo
    rw [hnodes, if_pos hfails, hleft] at hdata
    obtain rfl : _ = data := by simpa using hdata
    refine ⟨hfails, hunwritten, info, ?_, hdescribes⟩
    rw [← hinfo]
    exact (Database.interrupted_congr (by rw [h.kept hunwritten])).symm
  · rintro ⟨hfails, hunwritten, info, hinfo, hdescribes⟩
    refine ⟨_, info, ?_, ?_, hdescribes⟩
    · rw [hnodes, if_pos hfails, hleft]
    · rw [← hinfo]
      exact Database.interrupted_congr (by rw [h.kept hunwritten])

theorem Agrees.spared_iff {item : Text × IncomingTransfer} {later : List (Text × IncomingTransfer)}
    {s t : FerryService} (h : Agrees dir (item :: later) s t) (hown : OwnPart dir item) :
    Spared dir ps item t ↔ Spared dir ps item s := by
  have hmem : item ∈ item :: later := List.mem_cons_self
  have houtcome : t.disk.outcome .unlink = s.disk.outcome .unlink := by
    rw [Disk.outcome, h.faults, Disk.outcome]
  have hwritable : ∀ record, t.db.Writable item.1 record ↔ s.db.Writable item.1 record := by
    intro record
    constructor
    · intro hw
      exact ⟨h.statements ▸ hw.fault, hw.transferId, hw.deviceId, hw.fileName, hw.fileSize, hw.startedAt,
        hw.sha256⟩
    · intro hw
      exact ⟨h.statements.symm ▸ hw.fault, hw.transferId, hw.deviceId, hw.fileName, hw.fileSize,
        hw.startedAt, hw.sha256⟩
  have hunwritten : t.Unwritten ps item.1 item.2 ↔ s.Unwritten ps item.1 item.2 := by
    rw [Unwritten, Unwritten, h.recorded item hmem, h.sessions, hwritable]
  have hcontent : (closedDisk t.disk item.2).content (item.2.metadata.partPath dir) =
      (closedDisk s.disk item.2).content (item.2.metadata.partPath dir) := by
    rw [Disk.content, nodes_closedDisk h.faults (h.nodes item hmem) hown.2.2.2, Disk.content]
  have hrow := Database.interrupted_congr (h.transfers item hmem)
  constructor
  · rintro ⟨hremoval, hw, hdescribed⟩
    rw [hrow, hcontent] at hdescribed
    exact ⟨houtcome ▸ hremoval, hunwritten.mp hw, hdescribed⟩
  · rintro ⟨hremoval, hw, hdescribed⟩
    rw [← hrow, ← hcontent] at hdescribed
    exact ⟨houtcome.symm ▸ hremoval, hunwritten.mpr hw, hdescribed⟩

theorem wp_cancelEach_append {earlier later : List (Text × IncomingTransfer)} {s : FerryService}
    {Q : Except PyError Unit → FerryService → Prop} :
    wp (cancelEach ps (earlier ++ later)) Q s ↔
      wp (cancelEach ps earlier >>= fun _ ↦ cancelEach ps later) Q s := by
  induction earlier generalizing s with
  | nil => rfl
  | cons item rest ih =>
    have hhead : cancelEach ps (item :: rest) =
        cancelForPeer ps item.1 item.2 >>= fun _ ↦ cancelEach ps rest := rfl
    have hwhole : cancelEach ps (item :: rest ++ later) =
        cancelForPeer ps item.1 item.2 >>= fun _ ↦ cancelEach ps (rest ++ later) := rfl
    rw [hhead, hwhole, wp_bind_assoc, wp_bind_iff, wp_bind_iff]
    simp only [ih]

/-- The cancels of a session retain a transfer when it is spared. -/
theorem cancelEach_retained_iff {earlier later : List (Text × IncomingTransfer)}
    {item : Text × IncomingTransfer} {s : FerryService}
    (hown : ∀ item' ∈ earlier ++ item :: later, OwnPart dir item')
    (hapart : (earlier ++ item :: later).Pairwise (Apart dir)) (htemp : item.2.tempPath ≠ none)
    (hfile : s.disk.IsFile (item.2.metadata.partPath dir)) :
    wp (cancelEach ps (earlier ++ item :: later)) (fun r s' ↦ r = .ok () ∧
      (Retained dir item s' ↔ Spared dir ps item (s.atTurn earlier))) s := by
  have hitem : OwnPart dir item := hown item (List.mem_append_right _ List.mem_cons_self)
  obtain ⟨-, hafter, -⟩ := List.pairwise_append.mp hapart
  obtain ⟨hlater, -⟩ := List.pairwise_cons.mp hafter
  rw [wp_cancelEach_append]
  apply wp_bind_of (cancelEach_agrees (Agrees.refl _ s)
    (fun item' hmem ↦ hown item' (List.mem_append_left _ hmem)) hapart)
  · rintro e t ⟨hr, -⟩
    simp at hr
  rintro _ t ⟨-, hagrees⟩
  have hthere : t.disk.IsFile (item.2.metadata.partPath dir) := by
    rw [Disk.IsFile, hagrees.nodes item List.mem_cons_self, nodes_atTurn]
    exact hfile
  apply wp_bind_of (cancelForPeer_effect ps item.1 item.2 t)
  · rintro e u ⟨hu, -⟩
    simp at hu
  · rintro _ u ⟨-, hstep⟩
    have hframe := @cancelEach_frame dir ps item later
      (fun item' hmem ↦ hown item' (List.mem_append_right _ (List.mem_cons_of_mem _ hmem)))
      (fun item' hmem ↦ ⟨(hlater item' hmem).1.symm, (hlater item' hmem).2.symm⟩) u
    apply wp_mono hframe
    rintro r v ⟨hr, hnodes, hrow⟩
    refine ⟨hr, ?_⟩
    calc
      Retained dir item v ↔ Retained dir item u := retained_congr hnodes hrow
      _ ↔ Spared dir ps item t := hstep.retained_iff hitem htemp hthere
      _ ↔ Spared dir ps item (s.atTurn earlier) := hagrees.spared_iff hitem

end Retained

/-! ## The end of a session loop -/

/-- Transfers with different UUIDs have different `.part` files. -/
theorem apart_of_ne {dir : DownloadDir} {item item' : Text × IncomingTransfer} (hown : OwnPart dir item)
    (hown' : OwnPart dir item') (hne : item.1 ≠ item'.1) : Apart dir item item' := by
  obtain ⟨hid, ⟨n, hn⟩, -⟩ := hown
  obtain ⟨hid', ⟨n', hn'⟩, -⟩ := hown'
  refine ⟨hne, fun hpath ↦ hne ?_⟩
  rw [← hid] at hn
  rw [← hid'] at hn'
  rw [partPath_eq hn, partPath_eq hn'] at hpath
  have hname := List.append_cancel_left hpath
  rw [List.singleton_inj] at hname
  rw [← hid, ← hid']
  exact List.append_cancel_right hname

/-- A transfer of the session that is under way, with at least one whole chunk on the disk. -/
structure UnderWay (ps : ℕ) (item : Text × IncomingTransfer) (s : FerryService) : Prop where
  registered : s.incomingTransfers.get item.1 = some item.2
  peer : s.incomingPeers.get item.1 = some ps
  state : item.2.state = .transferring ∨ item.2.state = .resuming
  tempPath : item.2.tempPath ≠ none
  chunk : ∃ data, s.disk.nodes (item.2.metadata.partPath s.downloadDir) = some (.file data) ∧
    0 < item.2.metadata.chunkSize ∧ item.2.metadata.chunkSize ≤ data.length

theorem cancelIncomingTransferForPeer_retained_iff {ps : ℕ} {item : Text × IncomingTransfer}
    {s : FerryService} (hsound : s.Sound) (h : s.UnderWay ps item) :
    wp (cancelIncomingTransferForPeer ps) (fun r s' ↦ r = .ok () ∧
      (Retained s.downloadDir item s' ↔
        Spared s.downloadDir ps item (s.atTurn (s.earlierThan ps item.1)))) s := by
  have hmem : item ∈ s.incomingOf ps :=
    List.mem_filter.mpr ⟨Dict.mem_items.mpr h.registered, by simpa using h.peer⟩
  have hnodup : ((s.incomingOf ps).map Prod.fst).Nodup :=
    (Dict.nodup_items s.incomingTransfers).sublist (List.filter_sublist.map Prod.fst)
  have hown : ∀ item' ∈ s.incomingOf ps, OwnPart s.downloadDir item' := by
    intro item' hitem'
    exact hsound item'.1 item'.2 (Dict.mem_items.mp (List.mem_of_mem_filter hitem'))
  have hapart : (s.incomingOf ps).Pairwise (Apart s.downloadDir) := by
    have hkeys := List.pairwise_map.mp hnodup
    exact hkeys.imp_of_mem fun hm hm' hne ↦ apart_of_ne (hown _ hm) (hown _ hm') hne
  obtain ⟨data, hdata, -⟩ := h.chunk
  obtain ⟨later, hsplit⟩ := exists_split_of_nodup hnodup hmem
  unfold cancelIncomingTransferForPeer
  rw [wp_get_bind]
  rw [hsplit] at hown hapart ⊢
  exact cancelEach_retained_iff hown hapart h.tempPath ⟨data, hdata⟩

/-- A transition of a session touches neither files nor rows. -/
theorem transitionSession_effect (ps : ℕ) (new : SessionState) (s : FerryService) :
    wp (transitionSession ps new) (fun _ t ↦ t.disk = s.disk ∧ t.db = s.db) s := by
  unfold transitionSession
  rw [wp_get_bind, wp_raiseIf_bind, wp_modify]
  exact ⟨fun _ ↦ ⟨rfl, rfl⟩, fun _ ↦ ⟨rfl, rfl⟩⟩

theorem closeSession_retained_iff {ps : ℕ} {item : Text × IncomingTransfer} {s : FerryService}
    (hsound : s.Sound) (h : s.UnderWay ps item) :
    wp (closeSession ps) (fun _ s' ↦ Retained s.downloadDir item s' ↔
      Spared s.downloadDir ps item (s.atTurn (s.earlierThan ps item.1))) s := by
  have hsame : ∀ {t u : FerryService}, u.disk = t.disk ∧ u.db = t.db →
      (Retained s.downloadDir item u ↔ Retained s.downloadDir item t) :=
    fun hu ↦ retained_congr (by rw [hu.1]) (by rw [hu.2])
  apply wp_bind_of (cancelIncomingTransferForPeer_retained_iff hsound h)
  · rintro e t ⟨hr, -⟩
    simp at hr
  rintro _ t ⟨-, hretained⟩
  apply wp_bind_of (transitionSession_effect ps .closing t)
  · intro e u hu
    exact (hsame hu).trans hretained
  intro _ u hu
  apply wp_mono (transitionSession_effect ps .disconnected u)
  intro r v hv
  exact (hsame hv).trans ((hsame hu).trans hretained)

/-- Whatever ends the session loop, a transfer under way is retained if and only if its `.part` file
cannot be removed, its history entry is not written, and the database already describes the file. -/
theorem session_end_retains_iff (ps : ℕ) (body : Handler Unit) (item : Text × IncomingTransfer)
    (s : FerryService) (hsound : (body s).2.Sound) (h : (body s).2.UnderWay ps item) :
    Retained (body s).2.downloadDir item (runSessionLoop ps body s).2 ↔
      Spared (body s).2.downloadDir ps item
        ((body s).2.atTurn ((body s).2.earlierThan ps item.1)) := by
  have hclose := closeSession_retained_iff hsound h
  change wp (runSessionLoop ps body) (fun _ s' ↦ Retained (body s).2.downloadDir item s' ↔ _) s
  have hbody : wp body (fun _ t ↦ t = (body s).2) s := rfl
  unfold runSessionLoop
  rw [wp_bind, wp_tryCatch]
  apply wp_mono hbody
  rintro r t rfl
  cases r with
  | error e => exact hclose
  | ok u => exact hclose

/-! ## A connection that is closed in the middle of a file -/

/-- A file of two chunks. -/
def twoChunks : TransferMetadata := { sampleMetadata "" with chunkSize := 2, chunkCount := 2 }

/-- The transfer after its first chunk. -/
def halfReceived : IncomingTransfer where
  metadata := twoChunks
  downloadDir := sampleDir
  state := .transferring
  tempPath := some (twoChunks.partPath sampleDir)
  finalPath := none
  hasher := [1, 2]
  bytesReceived := 2
  nextSeq := 1
  tempFh := some ⟨twoChunks.partPath sampleDir, [], false⟩

/-- A service with this transfer in an ESTABLISHED session. -/
def halfReceivedService : FerryService where
  downloadDir := sampleDir
  disk := {
    nodes := fun p ↦ if p = twoChunks.partPath sampleDir then some (.file [1, 2]) else
      if p <+: sampleDir.staging then some .directory else none
    faults := fun _ ↦ [] }
  db := { devices := ⟨[], .nil⟩, transfers := ∅, faults := [] }
  sessions := fun _ ↦ ⟨.established, lit "10.0.0.2:4000", .str (lit "phone"), [], []⟩
  activeSessions := Dict.set ∅ (lit "10.0.0.2:4000") 0
  incomingTransfers := Dict.set ∅ twoChunks.transferId halfReceived
  incomingPeers := Dict.set ∅ twoChunks.transferId 0
  activeBatches := ∅
  acceptTimeoutTasks := ∅
  lastChunkTime := Dict.set ∅ twoChunks.transferId 0
  recordedTransferIds := []
  completions := []

theorem underWay_halfReceived : halfReceivedService.UnderWay 0 (twoChunks.transferId, halfReceived) where
  registered := rfl
  peer := rfl
  state := .inl rfl
  tempPath := by decide
  chunk := ⟨[1, 2], by decide +kernel, by decide, by decide⟩

theorem sound_halfReceived : halfReceivedService.Sound := by
  intro transferId incoming hget
  have hset : (Dict.set ∅ twoChunks.transferId halfReceived : Dict Text IncomingTransfer).get transferId =
      some incoming := hget
  rw [Dict.get_set] at hset
  split at hset
  · next hid =>
    obtain rfl := Option.some.inj hset
    subst hid
    refine ⟨rfl, ⟨0x0123456789ab4def8123456789abcdef, by decide +kernel⟩, ?_, ?_⟩
    · intro p hp
      exact (Option.some.inj hp).symm
    · intro handle hhandle
      obtain rfl := Option.some.inj hhandle
      rfl
  · simp at hset

theorem session_end_retains_iff_sample :
    Retained sampleDir (twoChunks.transferId, halfReceived)
        (runSessionLoop 0 (pure ()) halfReceivedService).2 ↔
      Spared sampleDir 0 (twoChunks.transferId, halfReceived)
        (halfReceivedService.atTurn (halfReceivedService.earlierThan 0 twoChunks.transferId)) :=
  session_end_retains_iff 0 (pure ()) (twoChunks.transferId, halfReceived) halfReceivedService
    sound_halfReceived underWay_halfReceived

/-- The peer closes the connection after the first chunk: the `.part` file is removed, and the history
says FAILED. -/
theorem session_end_removes :
    halfReceivedService.UnderWay 0 (twoChunks.transferId, halfReceived) ∧
      (runSessionLoop 0 (pure ()) halfReceivedService).2.disk.nodes (twoChunks.partPath sampleDir) =
        none ∧
      (runSessionLoop 0 (pure ()) halfReceivedService).2.db.interrupted twoChunks.transferId = none ∧
      ((runSessionLoop 0 (pure ()) halfReceivedService).2.db.transfers.get twoChunks.transferId).map
        (fun row ↦ row.record.status) = some .failed :=
  ⟨underWay_halfReceived, by decide +kernel, by decide +kernel, by decide +kernel⟩

end FerryService

end Ferry
