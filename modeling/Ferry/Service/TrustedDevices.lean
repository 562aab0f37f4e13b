import Ferry.Base.Json

/-!
# The table of trusted devices

The rows of `trusted_devices` in the order of their row ids, which is the order in which a query
without `ORDER BY` returns them.  The primary key is the device id that the peer sent; a NULL id
conflicts with no other.
-/

namespace Ferry

/-- `TrustedDevice`.  There is no id when the column is NULL. -/
structure TrustedDevice where
  deviceId : Option Text
  deviceName : Text
  publicKey : Text
  identityPublicKeyB64 : Text
  pairedAt : ℤ
  lastSeen : ℤ
  deriving DecidableEq

/-- Two rows of one table. -/
def TrustedDevice.Distinct (row row' : TrustedDevice) : Prop :=
  row.deviceId ≠ none → row.deviceId ≠ row'.deviceId

instance (row row' : TrustedDevice) : Decidable (row.Distinct row') :=
  inferInstanceAs (Decidable (_ → _))

/-- The table, whose primary key is the device id. -/
structure DeviceTable where
  rows : List TrustedDevice
  primaryKey : rows.Pairwise TrustedDevice.Distinct

namespace DeviceTable

/-- The row that `ON CONFLICT(device_id) DO UPDATE` leaves. -/
def updated (row device : TrustedDevice) : TrustedDevice := { device with pairedAt := row.pairedAt }

/-- Insert a row, or update the one with its id. -/
def upsertRows (device : TrustedDevice) : List TrustedDevice → List TrustedDevice
  | [] => [device]
  | row :: rows =>
    if device.deviceId ≠ none ∧ row.deviceId = device.deviceId then updated row device :: rows
    else row :: upsertRows device rows

theorem mem_upsertRows {device row : TrustedDevice} {rows : List TrustedDevice}
    (h : row ∈ upsertRows device rows) : row ∈ rows ∨ row.deviceId = device.deviceId ∧
      row.identityPublicKeyB64 = device.identityPublicKeyB64 := by
  induction rows with
  | nil =>
    rw [upsertRows, List.mem_singleton] at h
    exact .inr ⟨by rw [h], by rw [h]⟩
  | cons first rows ih =>
    rw [upsertRows] at h
    by_cases hid : device.deviceId ≠ none ∧ first.deviceId = device.deviceId
    · rw [if_pos hid] at h
      rcases List.mem_cons.mp h with rfl | hrest
      · exact .inr ⟨rfl, rfl⟩
      · exact .inl (List.mem_cons_of_mem _ hrest)
    · rw [if_neg hid] at h
      rcases List.mem_cons.mp h with rfl | hrest
      · exact .inl List.mem_cons_self
      · exact (ih hrest).imp_left (List.mem_cons_of_mem _)

theorem exists_upsertRows (device : TrustedDevice) (rows : List TrustedDevice) :
    ∃ row ∈ upsertRows device rows, row.identityPublicKeyB64 = device.identityPublicKeyB64 := by
  induction rows with
  | nil => exact ⟨device, List.mem_singleton_self device, rfl⟩
  | cons first rows ih =>
    rw [upsertRows]
    split
    · exact ⟨updated first device, List.mem_cons_self, rfl⟩
    · obtain ⟨row, hrow, hkey⟩ := ih
      exact ⟨row, List.mem_cons_of_mem first hrow, hkey⟩

theorem pairwise_upsertRows (device : TrustedDevice) {rows : List TrustedDevice}
    (h : rows.Pairwise TrustedDevice.Distinct) :
    (upsertRows device rows).Pairwise TrustedDevice.Distinct := by
  induction rows with
  | nil => exact List.pairwise_singleton _ _
  | cons row rows ih =>
    obtain ⟨hrow, hrows⟩ := List.pairwise_cons.mp h
    rw [upsertRows]
    by_cases hid : device.deviceId ≠ none ∧ row.deviceId = device.deviceId
    · rw [if_pos hid]
      apply List.pairwise_cons.mpr ⟨_, hrows⟩
      intro row' hrow' hne
      rw [updated, ← hid.2] at hne ⊢
      exact hrow row' hrow' hne
    · rw [if_neg hid]
      apply List.pairwise_cons.mpr ⟨_, ih hrows⟩
      intro row' hrow' hne
      rcases mem_upsertRows hrow' with hold | ⟨hnew, -⟩
      · exact hrow row' hold hne
      · intro hsame
        rw [hsame, hnew] at hne
        exact hid ⟨hne, hsame.trans hnew⟩

/-- `INSERT INTO trusted_devices … ON CONFLICT(device_id) DO UPDATE`. -/
def upsert (table : DeviceTable) (device : TrustedDevice) : DeviceTable :=
  ⟨upsertRows device table.rows, pairwise_upsertRows device table.primaryKey⟩

/-- `DELETE FROM trusted_devices`, of the rows that a column selects. -/
def delete (table : DeviceTable) (selected : TrustedDevice → Bool) : DeviceTable :=
  ⟨table.rows.filter fun row ↦ !selected row, table.primaryKey.filter _⟩

/-- The first row with a key. -/
def byPublicKey (table : DeviceTable) (identityPublicKeyB64 : Text) : Option TrustedDevice :=
  table.rows.find? fun row ↦ row.identityPublicKeyB64 = identityPublicKeyB64

theorem mem_delete {table : DeviceTable} {selected : TrustedDevice → Bool} {row : TrustedDevice} :
    row ∈ (table.delete selected).rows ↔ row ∈ table.rows ∧ selected row = false := by
  simp [delete]

theorem byPublicKey_isSome {table : DeviceTable} {key : Text} :
    (table.byPublicKey key).isSome ↔ ∃ row ∈ table.rows, row.identityPublicKeyB64 = key := by
  simp [byPublicKey]

/-- The key that was written is found. -/
theorem byPublicKey_upsert_isSome (table : DeviceTable) (device : TrustedDevice) :
    ((table.upsert device).byPublicKey device.identityPublicKeyB64).isSome :=
  byPublicKey_isSome.mpr (exists_upsertRows device table.rows)

theorem byPublicKey_eq_some {table : DeviceTable} {key : Text} {row : TrustedDevice}
    (h : table.byPublicKey key = some row) : row ∈ table.rows ∧ row.identityPublicKeyB64 = key := by
  have hkey := List.find?_some h
  exact ⟨List.mem_of_find?_eq_some h, by simpa using hkey⟩

/-! ## Lookups after an upsert -/

/-- No row has the id, so the new one is the last. -/
theorem upsertRows_of_absent {device : TrustedDevice} {rows : List TrustedDevice}
    (h : ∀ row ∈ rows, device.deviceId ≠ none → row.deviceId ≠ device.deviceId) :
    upsertRows device rows = rows ++ [device] := by
  induction rows with
  | nil => rfl
  | cons row rows ih =>
    have hnot : ¬(device.deviceId ≠ none ∧ row.deviceId = device.deviceId) :=
      fun hid ↦ h row List.mem_cons_self hid.1 hid.2
    rw [upsertRows, if_neg hnot, ih fun row' hrow' ↦ h row' (List.mem_cons_of_mem row hrow')]
    rfl

/-- The row with the id stays in its place. -/
theorem upsertRows_of_split {device row : TrustedDevice} {before after : List TrustedDevice}
    (h : (before ++ row :: after).Pairwise TrustedDevice.Distinct) (hid : device.deviceId ≠ none)
    (hrow : row.deviceId = device.deviceId) :
    upsertRows device (before ++ row :: after) = before ++ updated row device :: after := by
  induction before with
  | nil => exact if_pos ⟨hid, hrow⟩
  | cons first before ih =>
    obtain ⟨hfirst, hrest⟩ := List.pairwise_cons.mp h
    have hnot : ¬(device.deviceId ≠ none ∧ first.deviceId = device.deviceId) := by
      rintro ⟨-, hsame⟩
      have hne : first.deviceId ≠ none := hsame ▸ hid
      exact hfirst row (List.mem_append_right before List.mem_cons_self) hne (hsame.trans hrow.symm)
    rw [List.cons_append, upsertRows, if_neg hnot, ih hrest]
    rfl

end DeviceTable

end Ferry
