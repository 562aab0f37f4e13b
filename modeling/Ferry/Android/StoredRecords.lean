import Ferry.Android.InterruptedIndex
import Ferry.Android.Outgoing

/-!
# The store of the client against the preferences

The client is modelled with a dictionary of records. Over preferences that are kept as a map, saving,
deleting and loading a record do to the dictionary what they do to the preferences.
-/

namespace Ferry

namespace Preferences

/-- A record of the client, whose metadata is the map that the JSON text is read as. -/
def InterruptedRecord.toClient (readMap : Text → String → Kotlin.MapValue)
    (record : InterruptedRecord) : Ferry.InterruptedRecord where
  transferId := record.transferId
  fileName := record.fileName
  fileSize := record.fileSize.toInt
  mimeType := record.mimeType
  sha256 := record.sha256
  chunkSize := record.chunkSize.toInt
  chunkCount := record.chunkCount.toInt
  senderIdentity := record.senderIdentity
  receiverIdentity := record.receiverIdentity
  originalMetadata := readMap record.originalMetadataJson
  bytesReceived := record.bytesReceived.toInt
  resumeChunkIndex := record.resumeChunkIndex.toInt
  partialSha256 := record.partialSha256
  interruptedAt := record.interruptedAt.toInt
  expireAt := record.expireAt.toInt
  direction := record.direction
  contentUriString := record.contentUriString

/-- The dictionary has the records that are stored. -/
def Represents (codec : OrgJson) (readMap : Text → String → Kotlin.MapValue)
    (store : InterruptedTransferStore) (prefs : SharedPreferences) : Prop :=
  ∀ transferId, store.get transferId =
    (stored codec prefs transferId).map (InterruptedRecord.toClient readMap)

variable {codec : OrgJson} {readMap : Text → String → Kotlin.MapValue}
  {store : InterruptedTransferStore} {prefs : SharedPreferences}

theorem Represents.save (h : Represents codec readMap store prefs) {record : InterruptedRecord}
    (hparse : codec.parse (codec.print record.toJson) = some record.toJson) :
    Represents codec readMap (store.set record.transferId (record.toClient readMap))
      (Preferences.save codec prefs record) := by
  intro transferId
  rw [Dict.get_set, stored, entry_save]
  split
  · rw [Option.bind_some, parseRecord, hparse, Option.bind_some, fromJson_toJson]
    rfl
  · exact h transferId

theorem Represents.delete (h : Represents codec readMap store prefs) (deleted : Text) :
    Represents codec readMap (store.pop deleted) (Preferences.delete prefs deleted) := by
  intro transferId
  rw [Dict.get_pop, stored, entry_delete]
  split
  · rfl
  · exact h transferId

/-- Loading gives the same record and leaves the dictionary with what is stored. -/
theorem Represents.load (h : Represents codec readMap store prefs) (now : ℤ) (transferId : Text) :
    (store.load now transferId).1 =
        (get codec prefs now transferId).1.map (InterruptedRecord.toClient readMap) ∧
      Represents codec readMap (store.load now transferId).2
        (get codec prefs now transferId).2 := by
  have hget := h transferId
  unfold InterruptedTransferStore.load get
  unfold stored at hget
  cases hentry : entry prefs transferId with
  | none =>
    rw [hentry, Option.bind_none, Option.map_none] at hget
    rw [hget]
    exact ⟨rfl, h⟩
  | some raw =>
    rw [hentry, Option.bind_some] at hget
    dsimp only
    cases hrecord : parseRecord codec raw with
    | none =>
      rw [hrecord, Option.map_none] at hget
      rw [hget]
      exact ⟨rfl, h⟩
    | some record =>
      rw [hrecord, Option.map_some] at hget
      rw [hget]
      dsimp only
      have hsame : isExpired now record = true ↔ (record.toClient readMap).expireAt < now :=
        isExpired_iff
      by_cases hexpired : (record.toClient readMap).expireAt < now
      · rw [if_pos hexpired, if_pos (hsame.mpr hexpired)]
        exact ⟨rfl, h.delete transferId⟩
      · rw [if_neg hexpired, if_neg (mt hsame.mp hexpired)]
        exact ⟨rfl, h⟩

end Preferences

end Ferry
