import Ferry.Android.InterruptedPrefs

/-!
# The store of interrupted transfers as a map

The entries and the index are two copies of one fact, and reads remove what has expired from both.
Over every run of calls on a clock that does not go back, the index is the set of the identifiers
that have an entry, and what the calls return is what a map of the saved records would return: an
entry is missing only where its record is expired for good.
-/

namespace Ferry

open Text

namespace Preferences

/-! ## Calls -/

/-- The time that a call takes: the clock as it reads when a record is checked lies between its
beginning and its end. -/
structure Timing where
  begins : ℤ
  ends : ℤ
  reads : Text → ℤ
  begins_le : ∀ transferId, begins ≤ reads transferId
  le_ends : ∀ transferId, reads transferId ≤ ends

/-- A call of the store. -/
inductive Call where
  | save (record : InterruptedRecord)
  | delete (transferId : Text)
  | clear
  | get (transferId : Text)
  | listForSender (senderIdentity : Option Text)
  | pruneExpired

/-- The preferences after a call. -/
def step (codec : OrgJson) (prefs : SharedPreferences) (timing : Timing) :
    Call → SharedPreferences
  | .save record => save codec prefs record
  | .delete transferId => delete prefs transferId
  | .clear => clear prefs
  | .get transferId => (get codec prefs (timing.reads transferId) transferId).2
  | .listForSender senderIdentity => (listForSender codec prefs timing.reads senderIdentity).2
  | .pruneExpired => (pruneExpired codec prefs timing.reads).2

/-- The preferences after a run of calls. -/
def run (codec : OrgJson) (prefs : SharedPreferences) (calls : List (Timing × Call)) :
    SharedPreferences :=
  calls.foldl (fun prefs call ↦ step codec prefs call.1 call.2) prefs

/-- The map that the store stands for: what was saved last under each identifier. -/
abbrev Records : Type := Text → Option InterruptedRecord

/-- The map after a call. -/
def record (records : Records) : Call → Records
  | .save saved => Function.update records saved.transferId (some saved)
  | .delete transferId => Function.update records transferId none
  | .clear => fun _ ↦ none
  | _ => records

/-- The map after a run of calls. -/
def recordAll (records : Records) (calls : List (Timing × Call)) : Records :=
  calls.foldl (fun records call ↦ record records call.2) records

/-- The clock does not go back from call to call. -/
def Ordered (latest : ℤ) : List (Timing × Call) → Prop
  | [] => True
  | call :: calls => latest ≤ call.1.begins ∧ Ordered call.1.ends calls

/-- When the last call of a run ended. -/
def latestAfter (latest : ℤ) (calls : List (Timing × Call)) : ℤ :=
  calls.foldl (fun _ call ↦ call.1.ends) latest

/-- An identifier that the index can hold: a UUID has no comma and is not blank. -/
def Plain (transferId : Text) : Prop := comma ∉ transferId ∧ isBlank transferId = false

/-- What a call saves can be indexed, and `org.json` reads the object that it has printed. -/
def Storable (codec : OrgJson) : Call → Prop
  | .save record =>
    Plain record.transferId ∧ codec.parse (codec.print record.toJson) = some record.toJson
  | _ => True

/-- A call is about an identifier. -/
def Call.Names (transferId : Text) : Call → Prop
  | .save record => record.transferId = transferId
  | .delete deleted => deleted = transferId
  | .clear => True
  | .get read => read = transferId
  | _ => False

/-! ## Keys and the index -/

theorem entryKey_injective : Function.Injective entryKey :=
  fun _ _ h ↦ List.append_cancel_left h

theorem entryKey_ne_keyIndex (transferId : Text) : entryKey transferId ≠ keyIndex := by
  intro h
  have hlength := congrArg List.length h
  have hprefix : (lit "interrupted_").length = 12 := by decide
  have hindex : keyIndex.length = 5 := by decide
  rw [entryKey, List.length_append, hprefix, hindex] at hlength
  omega

section Index

variable {prefs prefs' : SharedPreferences} {index : List Text} {transferId : Text}

theorem foldl_linked {set items : List Text} (hnodup : (set ++ items).Nodup) :
    items.foldl (fun set item ↦ if item ∈ set then set else set ++ [item]) set = set ++ items := by
  induction items generalizing set with
  | nil => simp
  | cons item items ih =>
    have hnew : item ∉ set := fun hmem ↦
      (List.nodup_append.mp hnodup).2.2 item hmem item List.mem_cons_self rfl
    have hsplit : set ++ item :: items = set ++ [item] ++ items := by simp
    rw [List.foldl_cons, if_neg hnew, ih (hsplit ▸ hnodup), hsplit]

theorem linkedSet_eq_self {items : List Text} (hnodup : items.Nodup) : linkedSet items = items :=
  foldl_linked (by simpa using hnodup)

theorem nodup_foldl_linked {items set : List Text} (hset : set.Nodup) :
    (items.foldl (fun set item ↦ if item ∈ set then set else set ++ [item]) set).Nodup := by
  induction items generalizing set with
  | nil => exact hset
  | cons item items ih =>
    rw [List.foldl_cons]
    split
    · exact ih hset
    · next hnew =>
      refine ih (List.nodup_append.mpr ⟨hset, List.nodup_singleton _, ?_⟩)
      rintro old hold new hmem rfl
      exact hnew (List.mem_singleton.mp hmem ▸ hold)

theorem nodup_loadIndex (prefs : SharedPreferences) : (loadIndex prefs).Nodup := by
  unfold loadIndex
  dsimp only
  split
  · exact List.nodup_nil
  · exact nodup_foldl_linked List.nodup_nil

theorem loadIndex_congr (h : prefs.get keyIndex = prefs'.get keyIndex) :
    loadIndex prefs = loadIndex prefs' := by
  unfold loadIndex
  rw [h]

theorem isBlank_intercalate {head : Text} {rest : List Text} (h : isBlank head = false) :
    isBlank ([comma].intercalate (head :: rest)) = false := by
  obtain ⟨c, hc, hvisible⟩ := List.all_eq_false.mp h
  refine List.all_eq_false.mpr ⟨c, ?_, hvisible⟩
  cases rest with
  | nil => simpa [List.intercalate] using hc
  | cons next rest =>
    rw [List.intercalate_cons_cons]
    exact List.mem_append_left _ (List.mem_append_left _ hc)

/-- An index that was saved is loaded again. -/
theorem loadIndex_saveIndex (hnodup : index.Nodup) (hplain : ∀ transferId ∈ index, Plain transferId) :
    loadIndex (saveIndex prefs index) = index := by
  unfold loadIndex saveIndex
  rw [Dict.get_set_self, Option.getD_some]
  dsimp only
  cases index with
  | nil => rfl
  | cons head rest =>
    have hne : head :: rest ≠ [] := List.cons_ne_nil _ _
    have hsplit : ([comma].intercalate (head :: rest)).splitOn comma = head :: rest :=
      List.splitOn_intercalate _ (fun transferId hmem ↦ (hplain transferId hmem).1) hne
    have hkept : (head :: rest).filter (fun transferId ↦ !isBlank transferId) = head :: rest :=
      List.filter_eq_self.mpr fun transferId hmem ↦ by simp [(hplain transferId hmem).2]
    rw [isBlank_intercalate (hplain head List.mem_cons_self).2, hsplit, hkept]
    exact linkedSet_eq_self hnodup

@[simp] theorem entry_saveIndex (prefs : SharedPreferences) (index : List Text) (transferId : Text) :
    entry (saveIndex prefs index) transferId = entry prefs transferId :=
  Dict.get_set_of_ne _ _ (entryKey_ne_keyIndex transferId)

end Index

/-! ## The loops -/

section Loops

variable {codec : OrgJson} {prefs : SharedPreferences} {reads : Text → ℤ}

/-- The stored record of an identifier, as far as it can be read. -/
def stored (codec : OrgJson) (prefs : SharedPreferences) (transferId : Text) :
    Option InterruptedRecord :=
  (entry prefs transferId).bind (parseRecord codec)

/-- A record is listed. -/
def Listed (senderIdentity : Option Text) (now : ℤ) (record : InterruptedRecord) : Bool :=
  !isExpired now record && decide (∀ sender ∈ senderIdentity, record.senderIdentity = sender)

theorem listLoop_fst (senderIdentity : Option Text) (index : List Text) :
    (listLoop codec prefs reads senderIdentity index).1 =
      index.filterMap fun transferId ↦
        (stored codec prefs transferId).filter (Listed senderIdentity (reads transferId)) := by
  induction index with
  | nil => rfl
  | cons transferId rest ih =>
    rw [listLoop, List.filterMap_cons, ← ih]
    dsimp only
    cases hentry : entry prefs transferId with
    | none => simp [stored, hentry]
    | some raw =>
      have hstored : stored codec prefs transferId = parseRecord codec raw := by
        simp [stored, hentry]
      rw [hstored]
      dsimp only
      cases hrecord : parseRecord codec raw with
      | none => simp
      | some record =>
        dsimp only
        by_cases hexpired : isExpired (reads transferId) record = true
        · have hhidden : Listed senderIdentity (reads transferId) record = false := by
            rw [Listed, hexpired]
            rfl
          rw [if_pos hexpired, Option.filter_some, hhidden]
          rfl
        · by_cases hsender : ∀ sender ∈ senderIdentity, record.senderIdentity = sender
          · have hlisted : Listed senderIdentity (reads transferId) record = true := by
              rw [Listed, decide_eq_true hsender, Bool.and_true]
              simpa using hexpired
            rw [if_neg hexpired, if_pos hsender, Option.filter_some, hlisted]
            rfl
          · have hhidden : Listed senderIdentity (reads transferId) record = false := by
              rw [Listed, decide_eq_false hsender, Bool.and_false]
            rw [if_neg hexpired, if_neg hsender, Option.filter_some, hhidden]
            rfl

theorem listLoop_snd (senderIdentity : Option Text) (index : List Text) :
    (listLoop codec prefs reads senderIdentity index).2 =
      index.filter fun transferId ↦ (entry prefs transferId).isSome &&
        (stored codec prefs transferId).all (isExpired (reads transferId)) := by
  induction index with
  | nil => rfl
  | cons transferId rest ih =>
    rw [listLoop, List.filter_cons, ← ih]
    dsimp only
    cases hentry : entry prefs transferId with
    | none => simp
    | some raw =>
      have hstored : stored codec prefs transferId = parseRecord codec raw := by
        simp [stored, hentry]
      rw [hstored]
      dsimp only
      cases hrecord : parseRecord codec raw with
      | none => simp
      | some record =>
        by_cases hexpired : isExpired (reads transferId) record = true
        · simp [hexpired]
        · have hkeep : ¬((some raw).isSome &&
              (some record).all (isExpired (reads transferId))) = true := by
            simpa using hexpired
          dsimp only
          rw [if_neg hexpired, if_neg hkeep]
          split
          · rfl
          · rfl

theorem pruneLoop_eq (index : List Text) :
    pruneLoop codec prefs reads index =
      index.filter fun transferId ↦
        (stored codec prefs transferId).all (isExpired (reads transferId)) := by
  induction index with
  | nil => rfl
  | cons transferId rest ih =>
    rw [pruneLoop, List.filter_cons, ← ih]
    cases hentry : entry prefs transferId with
    | none => simp [stored, hentry]
    | some raw =>
      have hstored : stored codec prefs transferId = parseRecord codec raw := by
        simp [stored, hentry]
      rw [hstored]
      dsimp only
      cases hrecord : parseRecord codec raw with
      | none => simp
      | some record => simp

end Loops

/-! ## The map behind the preferences -/

/-- The preferences at a time against the map of what was saved. -/
structure Refines (codec : OrgJson) (records : Records) (latest : ℤ) (prefs : SharedPreferences) :
    Prop where
  plain : ∀ transferId ∈ loadIndex prefs, Plain transferId
  indexed : ∀ transferId, transferId ∈ loadIndex prefs ↔ (entry prefs transferId).isSome
  parsed : ∀ transferId raw, entry prefs transferId = some raw →
    ∃ record, parseRecord codec raw = some record ∧ records transferId = some record
  named : ∀ transferId record, records transferId = some record → record.transferId = transferId
  gone : ∀ transferId record, records transferId = some record → entry prefs transferId = none →
    record.expireAt.toInt < latest

section Refinement

variable {codec : OrgJson} {records records' : Records} {latest latest' now : ℤ}
  {prefs prefs' : SharedPreferences} {transferId : Text}

theorem refines_empty (codec : OrgJson) (latest : ℤ) : Refines codec (fun _ ↦ none) latest ∅ where
  plain := fun _ h ↦ nomatch h
  indexed := fun _ ↦ ⟨fun h ↦ (nomatch h), fun h ↦ (nomatch h)⟩
  parsed := fun _ _ h ↦ nomatch h
  named := fun _ _ h ↦ nomatch h
  gone := fun _ _ h ↦ nomatch h

theorem Refines.later (h : Refines codec records latest prefs) (hle : latest ≤ latest') :
    Refines codec records latest' prefs :=
  { h with gone := fun transferId record hrecord hnone ↦
      (h.gone transferId record hrecord hnone).trans_le hle }

/-- What is stored is what was saved. -/
theorem Refines.stored_eq_some (h : Refines codec records latest prefs) {record : InterruptedRecord}
    (hstored : stored codec prefs transferId = some record) : records transferId = some record := by
  obtain ⟨raw, hentry, hrecord⟩ := Option.bind_eq_some_iff.mp hstored
  obtain ⟨record', hparsed, hsaved⟩ := h.parsed transferId raw hentry
  rw [hrecord, Option.some.injEq] at hparsed
  exact hparsed ▸ hsaved

theorem Refines.stored_isSome (h : Refines codec records latest prefs)
    (hentry : (entry prefs transferId).isSome) : ∃ record, stored codec prefs transferId = some record := by
  obtain ⟨raw, hraw⟩ := Option.isSome_iff_exists.mp hentry
  obtain ⟨record, hparsed, -⟩ := h.parsed transferId raw hraw
  exact ⟨record, by rw [stored, hraw, Option.bind_some, hparsed]⟩

/-- At any later time the unexpired part of the map is stored. -/
theorem Refines.stored_filter (h : Refines codec records latest prefs) (hnow : latest ≤ now)
    (transferId : Text) :
    (stored codec prefs transferId).filter (fun record ↦ !isExpired now record) =
      (records transferId).filter fun record ↦ !isExpired now record := by
  cases hentry : entry prefs transferId with
  | none =>
    rw [stored, hentry, Option.bind_none, Option.filter_none]
    cases hrecord : records transferId with
    | none => rfl
    | some record =>
      have hgone : isExpired now record = true :=
        decide_eq_true ((h.gone transferId record hrecord hentry).trans_le hnow)
      rw [Option.filter_some, hgone]
      rfl
  | some raw =>
    obtain ⟨record, hstored⟩ := h.stored_isSome (by rw [hentry, Option.isSome_some])
    rw [hstored, h.stored_eq_some hstored]

/-- The entries of some identifiers are removed, and of those only expired records stay on the
map. -/
theorem Refines.remove (h : Refines codec records latest prefs) (removed : List Text)
    (hle : latest ≤ latest')
    (hentry : ∀ transferId, entry prefs' transferId =
      if transferId ∈ removed then none else entry prefs transferId)
    (hindex : loadIndex prefs' = (loadIndex prefs).filter (· ∉ removed))
    (hkept : ∀ transferId, transferId ∉ removed → records' transferId = records transferId)
    (hremoved : ∀ transferId ∈ removed, ∀ record, records' transferId = some record →
      records transferId = some record ∧ record.expireAt.toInt < latest') :
    Refines codec records' latest' prefs' where
  plain := by
    intro transferId hmem
    rw [hindex] at hmem
    exact h.plain transferId (List.mem_filter.mp hmem).1
  indexed := by
    intro transferId
    rw [hindex, hentry, List.mem_filter, h.indexed]
    by_cases hmem : transferId ∈ removed
    · simp [hmem]
    · simp [hmem]
  parsed := by
    intro transferId raw hraw
    rw [hentry] at hraw
    split at hraw
    · exact nomatch hraw
    · next hmem =>
      rw [hkept transferId hmem]
      exact h.parsed transferId raw hraw
  named := by
    intro transferId record hrecord
    by_cases hmem : transferId ∈ removed
    · exact h.named transferId record (hremoved transferId hmem record hrecord).1
    · exact h.named transferId record (hkept transferId hmem ▸ hrecord)
  gone := by
    intro transferId record hrecord hnone
    by_cases hmem : transferId ∈ removed
    · exact (hremoved transferId hmem record hrecord).2
    · rw [hentry, if_neg hmem] at hnone
      rw [hkept transferId hmem] at hrecord
      exact (h.gone transferId record hrecord hnone).trans_le hle

/-! ## What the operations do to entries and index -/

theorem entry_set (prefs : SharedPreferences) (transferId other raw : Text) :
    entry (prefs.set (entryKey transferId) raw) other =
      if other = transferId then some raw else entry prefs other := by
  unfold entry
  rw [Dict.get_set]
  simp only [entryKey_injective.eq_iff]

theorem entry_pop (prefs : SharedPreferences) (transferId other : Text) :
    entry (prefs.pop (entryKey transferId)) other =
      if other = transferId then none else entry prefs other := by
  unfold entry
  rw [Dict.get_pop]
  simp only [entryKey_injective.eq_iff]

theorem entry_popAll (prefs : SharedPreferences) (removed : List Text) (other : Text) :
    entry (prefs.popAll (removed.map entryKey)) other =
      if other ∈ removed then none else entry prefs other := by
  unfold entry
  rw [Dict.get_popAll]
  simp only [List.mem_map_of_injective entryKey_injective]

theorem loadIndex_pop (prefs : SharedPreferences) (transferId : Text) :
    loadIndex (prefs.pop (entryKey transferId)) = loadIndex prefs :=
  loadIndex_congr (Dict.get_pop_of_ne _ (entryKey_ne_keyIndex transferId).symm)

theorem loadIndex_set (prefs : SharedPreferences) (transferId raw : Text) :
    loadIndex (prefs.set (entryKey transferId) raw) = loadIndex prefs :=
  loadIndex_congr (Dict.get_set_of_ne _ _ (entryKey_ne_keyIndex transferId).symm)

@[simp] theorem entry_addToIndex (prefs : SharedPreferences) (transferId other : Text) :
    entry (addToIndex prefs transferId) other = entry prefs other := by
  unfold addToIndex
  dsimp only
  split
  · rfl
  · exact entry_saveIndex _ _ _

@[simp] theorem entry_removeFromIndex (prefs : SharedPreferences) (transferId other : Text) :
    entry (removeFromIndex prefs transferId) other = entry prefs other := by
  unfold removeFromIndex
  dsimp only
  split
  · exact entry_saveIndex _ _ _
  · rfl

theorem entry_delete (prefs : SharedPreferences) (transferId other : Text) :
    entry (delete prefs transferId) other =
      if other = transferId then none else entry prefs other := by
  rw [delete, entry_removeFromIndex, entry_pop]

theorem entry_save (codec : OrgJson) (prefs : SharedPreferences) (record : InterruptedRecord)
    (other : Text) :
    entry (save codec prefs record) other =
      if other = record.transferId then some (codec.print record.toJson) else entry prefs other := by
  rw [save, entry_addToIndex, entry_set]

theorem entry_removeFound (prefs : SharedPreferences) (index toDelete : List Text) (other : Text) :
    entry (removeFound prefs index toDelete) other =
      if other ∈ toDelete then none else entry prefs other := by
  unfold removeFound
  split
  · next hnone => simp [hnone]
  · rw [entry_saveIndex, entry_popAll]

section Plain

variable (hplain : ∀ transferId ∈ loadIndex prefs, Plain transferId)
include hplain

theorem loadIndex_filter (prefs' : SharedPreferences) (p : Text → Bool) :
    loadIndex (saveIndex prefs' ((loadIndex prefs).filter p)) = (loadIndex prefs).filter p :=
  loadIndex_saveIndex ((nodup_loadIndex prefs).filter _)
    fun transferId hmem ↦ hplain transferId (List.mem_filter.mp hmem).1

theorem loadIndex_delete (transferId : Text) :
    loadIndex (delete prefs transferId) = (loadIndex prefs).filter (· ∉ [transferId]) := by
  unfold delete removeFromIndex
  dsimp only
  rw [loadIndex_pop]
  simp only [List.mem_singleton]
  by_cases hmem : transferId ∈ loadIndex prefs
  · rw [if_pos hmem]
    exact loadIndex_filter hplain _ _
  · rw [if_neg hmem, loadIndex_pop]
    refine (List.filter_eq_self.mpr fun other hother ↦ decide_eq_true ?_).symm
    rintro rfl
    exact hmem hother

theorem loadIndex_removeFound (toDelete : List Text) :
    loadIndex (removeFound prefs (loadIndex prefs) toDelete) =
      (loadIndex prefs).filter (· ∉ toDelete) := by
  unfold removeFound
  split
  · next hnone => simp [hnone]
  · exact loadIndex_filter hplain _ _

theorem loadIndex_save (codec : OrgJson) {record : InterruptedRecord}
    (hrecord : Plain record.transferId) :
    loadIndex (save codec prefs record) =
      if record.transferId ∈ loadIndex prefs then loadIndex prefs
      else loadIndex prefs ++ [record.transferId] := by
  unfold save addToIndex
  dsimp only
  rw [loadIndex_set]
  split
  · exact loadIndex_set _ _ _
  · next hnew =>
    refine loadIndex_saveIndex (List.nodup_append.mpr ⟨nodup_loadIndex prefs,
      List.nodup_singleton _, ?_⟩) ?_
    · rintro old hold new hmem rfl
      exact hnew (List.mem_singleton.mp hmem ▸ hold)
    · intro transferId hmem
      rcases List.mem_append.mp hmem with hold | hmem
      · exact hplain transferId hold
      · exact List.mem_singleton.mp hmem ▸ hrecord

end Plain

/-! ## One call -/

theorem isExpired_iff {record : InterruptedRecord} :
    isExpired now record = true ↔ record.expireAt.toInt < now := by
  unfold isExpired
  exact decide_eq_true_iff

theorem Refines.save (h : Refines codec records latest prefs) {record : InterruptedRecord}
    (hplain : Plain record.transferId)
    (hparse : codec.parse (codec.print record.toJson) = some record.toJson) :
    Refines codec (Function.update records record.transferId (some record)) latest
      (Preferences.save codec prefs record) := by
  have hread : parseRecord codec (codec.print record.toJson) = some record := by
    rw [parseRecord, hparse, Option.bind_some, fromJson_toJson]
  have hindex := loadIndex_save h.plain codec hplain
  refine ⟨?_, ?_, ?_, ?_, ?_⟩
  · intro transferId hmem
    rw [hindex] at hmem
    split at hmem
    · exact h.plain transferId hmem
    · rcases List.mem_append.mp hmem with hold | hnew
      · exact h.plain transferId hold
      · exact List.mem_singleton.mp hnew ▸ hplain
  · intro transferId
    have hmem : transferId ∈ loadIndex (Preferences.save codec prefs record) ↔
        transferId ∈ loadIndex prefs ∨ transferId = record.transferId := by
      rw [hindex]
      split
      · next hold => exact ⟨.inl, fun hor ↦ hor.elim id fun heq ↦ heq ▸ hold⟩
      · rw [List.mem_append, List.mem_singleton]
    rw [hmem, entry_save, h.indexed]
    by_cases heq : transferId = record.transferId
    · simp [heq]
    · simp [heq]
  · intro transferId raw hraw
    rw [entry_save] at hraw
    split at hraw
    · next heq =>
      obtain rfl := Option.some.inj hraw
      exact ⟨record, hread, heq ▸ Function.update_self _ _ _⟩
    · next hne =>
      rw [Function.update_of_ne hne]
      exact h.parsed transferId raw hraw
  · intro transferId saved hsaved
    by_cases heq : transferId = record.transferId
    · subst heq
      rw [Function.update_self, Option.some.injEq] at hsaved
      exact hsaved ▸ rfl
    · rw [Function.update_of_ne heq] at hsaved
      exact h.named transferId saved hsaved
  · intro transferId saved hsaved hnone
    rw [entry_save] at hnone
    split at hnone
    · exact nomatch hnone
    · next hne =>
      rw [Function.update_of_ne hne] at hsaved
      exact h.gone transferId saved hsaved hnone

theorem Refines.delete (h : Refines codec records latest prefs) (transferId : Text) :
    Refines codec (Function.update records transferId none) latest
      (Preferences.delete prefs transferId) := by
  refine h.remove [transferId] le_rfl (fun other ↦ ?_) (loadIndex_delete h.plain transferId)
    (fun other hother ↦ ?_) fun other hother record hrecord ↦ ?_
  · simp only [entry_delete, List.mem_singleton]
  · exact Function.update_of_ne (fun heq ↦ hother (List.mem_singleton.mpr heq)) _ _
  · rw [List.mem_singleton.mp hother, Function.update_self] at hrecord
    exact nomatch hrecord

theorem Refines.clear (h : Refines codec records latest prefs) :
    Refines codec (fun _ ↦ none) latest (Preferences.clear prefs) := by
  have hindex : loadIndex (Preferences.clear prefs) = [] := by
    unfold loadIndex Preferences.clear
    rw [Dict.get_set_self]
    rfl
  have hentry (transferId : Text) : entry (Preferences.clear prefs) transferId = none := by
    have hpopped : entry (Preferences.clear prefs) transferId =
        entry (prefs.popAll ((loadIndex prefs).map entryKey)) transferId :=
      Dict.get_set_of_ne _ _ (entryKey_ne_keyIndex transferId)
    rw [hpopped, entry_popAll]
    split
    · rfl
    · next hmem => exact Option.not_isSome_iff_eq_none.mp (mt (h.indexed transferId).mpr hmem)
  refine ⟨?_, ?_, ?_, fun _ _ hrecord ↦ (nomatch hrecord), fun _ _ hrecord _ ↦ (nomatch hrecord)⟩
  · intro transferId hmem
    rw [hindex] at hmem
    exact nomatch hmem
  · intro transferId
    rw [hindex, hentry]
    simp
  · intro transferId raw hraw
    rw [hentry] at hraw
    exact nomatch hraw

/-- What is found to be expired is removed. -/
theorem Refines.removeFound (h : Refines codec records latest prefs) {toDelete : List Text}
    (hle : latest ≤ latest')
    (hexpired : ∀ transferId ∈ toDelete, ∀ record, records transferId = some record →
      record.expireAt.toInt < latest') :
    Refines codec records latest' (Preferences.removeFound prefs (loadIndex prefs) toDelete) :=
  h.remove toDelete hle (entry_removeFound prefs (loadIndex prefs) toDelete)
    (loadIndex_removeFound h.plain toDelete) (fun _ _ ↦ rfl)
    fun transferId hmem record hrecord ↦ ⟨hrecord, hexpired transferId hmem record hrecord⟩

/-- What the loops delete has an entry and is expired. -/
theorem Refines.expired_of_all (h : Refines codec records latest prefs)
    (hmem : transferId ∈ loadIndex prefs)
    (hall : (stored codec prefs transferId).all (isExpired now) = true) {record : InterruptedRecord}
    (hrecord : records transferId = some record) : record.expireAt.toInt < now := by
  obtain ⟨record', hstored⟩ := h.stored_isSome ((h.indexed transferId).mp hmem)
  have hsame := (h.stored_eq_some hstored).symm.trans hrecord
  rw [hstored, Option.all_some] at hall
  exact Option.some.inj hsame ▸ isExpired_iff.mp hall

variable {timing : Timing}

/-- `get` answers as the map does at that time. -/
theorem Refines.get_fst (h : Refines codec records latest prefs) (hnow : latest ≤ now)
    (transferId : Text) :
    (Preferences.get codec prefs now transferId).1 =
      (records transferId).filter fun record ↦ !isExpired now record := by
  rw [← h.stored_filter hnow]
  unfold Preferences.get stored
  cases hentry : entry prefs transferId with
  | none => rfl
  | some raw =>
    rw [Option.bind_some]
    dsimp only
    cases hrecord : parseRecord codec raw with
    | none => rfl
    | some record =>
      dsimp only
      rw [Option.filter_some]
      by_cases hexpired : isExpired now record = true
      · rw [if_pos hexpired, hexpired]
        rfl
      · rw [if_neg hexpired, Bool.eq_false_iff.mpr hexpired]
        rfl

theorem Refines.get_snd (h : Refines codec records latest prefs) (hle : latest ≤ latest')
    (hnow : now ≤ latest') (transferId : Text) :
    Refines codec records latest' (Preferences.get codec prefs now transferId).2 := by
  unfold Preferences.get
  cases hentry : entry prefs transferId with
  | none => exact h.later hle
  | some raw =>
    dsimp only
    cases hrecord : parseRecord codec raw with
    | none => exact h.later hle
    | some record =>
      dsimp only
      have hsaved : records transferId = some record :=
        h.stored_eq_some (by rw [stored, hentry, Option.bind_some, hrecord])
      split
      · next hexpired =>
        refine h.remove [transferId] hle (fun other ↦ ?_) (loadIndex_delete h.plain transferId)
          (fun _ _ ↦ rfl) fun other hother record' hrecord' ↦ ⟨hrecord', ?_⟩
        · simp only [entry_delete, List.mem_singleton]
        · rw [List.mem_singleton.mp hother, hsaved, Option.some.injEq] at hrecord'
          exact hrecord' ▸ (isExpired_iff.mp hexpired).trans_le hnow
      · exact h.later hle

theorem Refines.step (h : Refines codec records latest prefs) (hbegins : latest ≤ timing.begins)
    {call : Call} (hstorable : Storable codec call) :
    Refines codec (record records call) timing.ends (step codec prefs timing call) := by
  have hle : latest ≤ timing.ends :=
    hbegins.trans ((timing.begins_le []).trans (timing.le_ends []))
  cases call with
  | save saved => exact (h.save hstorable.1 hstorable.2).later hle
  | delete transferId => exact (h.delete transferId).later hle
  | clear => exact h.clear.later hle
  | get transferId => exact h.get_snd hle (timing.le_ends transferId) transferId
  | listForSender senderIdentity =>
    refine h.removeFound hle fun transferId hmem found hfound ↦ ?_
    rw [listLoop_snd] at hmem
    obtain ⟨hindexed, hall⟩ := List.mem_filter.mp hmem
    rw [Bool.and_eq_true] at hall
    exact (h.expired_of_all hindexed hall.2 hfound).trans_le (timing.le_ends transferId)
  | pruneExpired =>
    refine h.removeFound hle fun transferId hmem found hfound ↦ ?_
    rw [pruneLoop_eq] at hmem
    obtain ⟨hindexed, hall⟩ := List.mem_filter.mp hmem
    exact (h.expired_of_all hindexed hall hfound).trans_le (timing.le_ends transferId)

/-- `listForSender` returns the unexpired records of the sender, each once. -/
theorem Refines.listForSender (h : Refines codec records latest prefs) {reads : Text → ℤ}
    (hreads : ∀ transferId, latest ≤ reads transferId) (senderIdentity : Option Text) :
    let result := (Preferences.listForSender codec prefs reads senderIdentity).1
    (∀ found, found ∈ result ↔ records found.transferId = some found ∧
      isExpired (reads found.transferId) found = false ∧
      ∀ sender ∈ senderIdentity, found.senderIdentity = sender) ∧
    (result.map InterruptedRecord.transferId).Nodup := by
  intro result
  have hresult : result = (loadIndex prefs).filterMap fun transferId ↦
      (stored codec prefs transferId).filter (Listed senderIdentity (reads transferId)) :=
    listLoop_fst senderIdentity (loadIndex prefs)
  have hown {transferId : Text} {found : InterruptedRecord}
      (hfound : stored codec prefs transferId = some found) : found.transferId = transferId :=
    h.named transferId found (h.stored_eq_some hfound)
  constructor
  · intro found
    rw [hresult, List.mem_filterMap]
    constructor
    · rintro ⟨transferId, -, hfound⟩
      obtain ⟨hstored, hlisted⟩ := Option.filter_eq_some_iff.mp hfound
      obtain rfl := hown hstored
      rw [Listed, Bool.and_eq_true, decide_eq_true_iff, Bool.not_eq_true'] at hlisted
      exact ⟨h.stored_eq_some hstored, hlisted⟩
    · rintro ⟨hrecord, hfresh, hsender⟩
      have hentry : (entry prefs found.transferId).isSome := by
        rw [Option.isSome_iff_ne_none]
        intro hnone
        have hgone := (h.gone _ found hrecord hnone).trans_le (hreads found.transferId)
        rw [isExpired_iff.mpr hgone] at hfresh
        exact nomatch hfresh
      obtain ⟨found', hstored⟩ := h.stored_isSome hentry
      obtain rfl := Option.some.inj ((h.stored_eq_some hstored).symm.trans hrecord)
      have hlisted : Listed senderIdentity (reads found'.transferId) found' = true := by
        rw [Listed, hfresh, decide_eq_true hsender]
        rfl
      exact ⟨found'.transferId, (h.indexed _).mpr hentry,
        Option.filter_eq_some_iff.mpr ⟨hstored, hlisted⟩⟩
  · rw [hresult, List.map_filterMap]
    refine List.Nodup.filterMap (fun transferId transferId' owner howner howner' ↦ ?_)
      (nodup_loadIndex prefs)
    obtain ⟨found, hfound, rfl⟩ := Option.map_eq_some_iff.mp howner
    obtain ⟨found', hfound', heq⟩ := Option.map_eq_some_iff.mp howner'
    rw [← hown (Option.filter_eq_some_iff.mp hfound).1,
      ← hown (Option.filter_eq_some_iff.mp hfound').1, heq]

/-- The identifiers in the index whose record is expired. -/
def expiredEntries (records : Records) (prefs : SharedPreferences) (reads : Text → ℤ) : List Text :=
  (loadIndex prefs).filter fun transferId ↦
    (records transferId).any (isExpired (reads transferId))

/-- `pruneExpired` removes the expired entries, and says how many there were. -/
theorem Refines.pruneExpired (h : Refines codec records latest prefs) (reads : Text → ℤ) :
    (Preferences.pruneExpired codec prefs reads).1 = (expiredEntries records prefs reads).length ∧
    ∀ transferId, entry (Preferences.pruneExpired codec prefs reads).2 transferId =
      if transferId ∈ expiredEntries records prefs reads then none else entry prefs transferId := by
  have hloop : pruneLoop codec prefs reads (loadIndex prefs) =
      expiredEntries records prefs reads := by
    rw [pruneLoop_eq]
    refine List.filter_congr fun transferId hmem ↦ ?_
    obtain ⟨record, hstored⟩ := h.stored_isSome ((h.indexed transferId).mp hmem)
    rw [hstored, h.stored_eq_some hstored]
    rfl
  unfold Preferences.pruneExpired
  dsimp only
  rw [hloop]
  exact ⟨rfl, entry_removeFound prefs (loadIndex prefs) _⟩

theorem record_of_not_names {call : Call} (h : ¬call.Names transferId) :
    record records call transferId = records transferId := by
  cases call with
  | save saved => exact Function.update_of_ne (fun heq ↦ h heq.symm) _ _
  | delete deleted => exact Function.update_of_ne (fun heq ↦ h heq.symm) _ _
  | clear => exact absurd trivial h
  | get read => rfl
  | listForSender senderIdentity => rfl
  | pruneExpired => rfl

/-- A call leaves what `get` returns for any other identifier. -/
theorem Refines.get_step (h : Refines codec records latest prefs) (hbegins : latest ≤ timing.begins)
    {call : Call} (hstorable : Storable codec call) (hother : ¬call.Names transferId)
    (hends : timing.ends ≤ now) :
    (Preferences.get codec (Preferences.step codec prefs timing call) now transferId).1 =
      (Preferences.get codec prefs now transferId).1 := by
  have hnow : latest ≤ now :=
    hbegins.trans ((timing.begins_le []).trans ((timing.le_ends []).trans hends))
  rw [(h.step hbegins hstorable).get_fst hends, h.get_fst hnow, record_of_not_names hother]

end Refinement

/-! ## A run -/

theorem Refines.run {codec : OrgJson} {records : Records} {latest : ℤ} {prefs : SharedPreferences}
    (h : Refines codec records latest prefs) {calls : List (Timing × Call)}
    (hordered : Ordered latest calls) (hstorable : ∀ call ∈ calls, Storable codec call.2) :
    Refines codec (recordAll records calls) (latestAfter latest calls)
      (run codec prefs calls) := by
  induction calls generalizing records latest prefs with
  | nil => exact h
  | cons call calls ih =>
    rw [List.forall_mem_cons] at hstorable
    exact ih (h.step hordered.1 hstorable.1) hordered.2 hstorable.2

/-- After every run of calls on a clock that does not go back, whose saved records can be stored,
the index is the set of the identifiers that have an entry, and the store answers as the map of what
was saved: `get` with the unexpired record, `listForSender` with all those of the sender.
`pruneExpired` removes and counts the expired entries, and no call changes what `get` returns for an
identifier that it is not about. -/
theorem run_refines {codec : OrgJson} {start : ℤ} {calls : List (Timing × Call)}
    (hordered : Ordered start calls) (hstorable : ∀ call ∈ calls, Storable codec call.2) :
    let prefs := run codec ∅ calls
    let records := recordAll (fun _ ↦ none) calls
    (loadIndex prefs).Nodup ∧
    (∀ transferId, transferId ∈ loadIndex prefs ↔ (entry prefs transferId).isSome) ∧
    ∀ timing : Timing, latestAfter start calls ≤ timing.begins →
      (∀ transferId, (get codec prefs (timing.reads transferId) transferId).1 =
        (records transferId).filter fun record ↦ !isExpired (timing.reads transferId) record) ∧
      (∀ senderIdentity,
        let result := (listForSender codec prefs timing.reads senderIdentity).1
        (∀ found, found ∈ result ↔ records found.transferId = some found ∧
          isExpired (timing.reads found.transferId) found = false ∧
          ∀ sender ∈ senderIdentity, found.senderIdentity = sender) ∧
        (result.map InterruptedRecord.transferId).Nodup) ∧
      ((pruneExpired codec prefs timing.reads).1 =
          (expiredEntries records prefs timing.reads).length ∧
        ∀ transferId, entry (pruneExpired codec prefs timing.reads).2 transferId =
          if transferId ∈ expiredEntries records prefs timing.reads then none
          else entry prefs transferId) ∧
      ∀ call transferId now, Storable codec call → ¬call.Names transferId → timing.ends ≤ now →
        (get codec (step codec prefs timing call) now transferId).1 =
          (get codec prefs now transferId).1 := by
  intro prefs records
  have h : Refines codec records (latestAfter start calls) prefs :=
    (refines_empty codec start).run hordered hstorable
  refine ⟨nodup_loadIndex prefs, h.indexed, fun timing hbegins ↦ ?_⟩
  have hreads (transferId : Text) : latestAfter start calls ≤ timing.reads transferId :=
    hbegins.trans (timing.begins_le transferId)
  exact ⟨fun transferId ↦ h.get_fst (hreads transferId) transferId,
    fun senderIdentity ↦ h.listForSender hreads senderIdentity, h.pruneExpired timing.reads,
    fun call transferId now hcall hother hends ↦ h.get_step hbegins hcall hother hends⟩

/-! ## A run of two transfers -/

/-- A call at one moment. -/
def Timing.at (now : ℤ) : Timing where
  begins := now
  ends := now
  reads := fun _ ↦ now
  begins_le := fun _ ↦ le_rfl
  le_ends := fun _ ↦ le_rfl

/-- A text between quotes, where quotes, slashes and backslashes are escaped. -/
def quoted (t : Text) : Text :=
  lit "\"" ++ t.flatMap (fun c ↦ if c ∈ lit "\"/\\" then [backslash, c] else [c]) ++ lit "\""

/-- The text of an object whose texts have no control characters. -/
def printed (json : JsonObject) : Text :=
  lit "\x7b" ++ [comma].intercalate (json.map fun field ↦
    quoted (lit field.1) ++ lit ":" ++
      match field.2 with
      | .text t => quoted t
      | .number n => lit (toString n)
      | .null => lit "null") ++ lit "\x7d"

def sampleRecord (transferId sender : String) (expireAt : Int64) : InterruptedRecord where
  transferId := lit transferId
  fileName := lit "notes.txt"
  fileSize := 200000
  mimeType := lit "text/plain"
  sha256 := lit "e3b0c44298fc1c149afbf4c8996fb92427ae41e4649b934ca495991b7852b855"
  chunkSize := 65536
  chunkCount := 4
  senderIdentity := lit sender
  receiverIdentity := []
  originalMetadataJson := lit "\x7b\x7d"
  bytesReceived := 65536
  resumeChunkIndex := 1
  partialSha256 := []
  interruptedAt := 0
  expireAt := expireAt
  direction := .incoming
  contentUriString := none

def sampleOld : InterruptedRecord := sampleRecord "00000000-0000-4000-8000-000000000001" "laptop" 10
def sampleNew : InterruptedRecord := sampleRecord "00000000-0000-4000-8000-000000000002" "laptop" 100

/-- A codec for the two records. -/
def sampleCodec : OrgJson where
  print := printed
  parse := fun raw ↦ [sampleOld.toJson, sampleNew.toJson].find? fun json ↦ printed json = raw
  parseLong := fun t ↦ (parseInt 10 t).map Int64.ofInt
  parseInt := fun t ↦ (parseInt 10 t).map Int32.ofInt

/-- Two transfers are saved, and the first one expires before the list is read. -/
def sampleCalls : List (Timing × Call) :=
  [(.at 0, .save sampleOld), (.at 1, .save sampleNew), (.at 20, .listForSender none)]

theorem run_refines_sample :
    let prefs := run sampleCodec ∅ sampleCalls
    loadIndex prefs = [sampleNew.transferId] ∧
    (∀ transferId, transferId ∈ loadIndex prefs ↔ (entry prefs transferId).isSome) ∧
    (get sampleCodec prefs 30 sampleNew.transferId).1 = some sampleNew ∧
    (get sampleCodec prefs 30 sampleOld.transferId).1 = none ∧
    (pruneExpired sampleCodec prefs fun _ ↦ 200).1 = 1 := by
  have hordered : Ordered 0 sampleCalls := by simp [sampleCalls, Ordered, Timing.at]
  have hstorable : ∀ call ∈ sampleCalls, Storable sampleCodec call.2 := by
    simp only [sampleCalls, List.forall_mem_cons, List.not_mem_nil, false_imp_iff, implies_true,
      Storable, Plain]
    decide +kernel
  obtain ⟨-, hindexed, hanswers⟩ := run_refines hordered hstorable
  have hlatest (now : ℤ) (hnow : 20 ≤ now) : latestAfter 0 sampleCalls ≤ (Timing.at now).begins := hnow
  have hrecords : recordAll (fun _ ↦ none) sampleCalls sampleNew.transferId = some sampleNew ∧
      recordAll (fun _ ↦ none) sampleCalls sampleOld.transferId = some sampleOld := by
    decide +kernel
  have hget := (hanswers (.at 30) (hlatest 30 (by decide))).1
  have hpruned := (hanswers (.at 200) (hlatest 200 (by decide))).2.2.1.1
  refine ⟨by decide +kernel, hindexed, ?_, ?_, hpruned.trans (by decide +kernel)⟩
  · exact (hget sampleNew.transferId).trans (hrecords.1 ▸ by decide +kernel)
  · exact (hget sampleOld.transferId).trans (hrecords.2 ▸ by decide +kernel)

end Preferences

end Ferry
