import Ferry.Base.Dict

/-!
# Bounded dictionaries in order of storing

Storing under a key moves it to the end, and a dictionary that has grown too large drops items from
its front. Against the history of the stores the items then stand in order of recency, so an item
is dropped only when as many keys as the dictionary may hold have been stored after it.
-/

namespace Ferry.Dict

variable {κ ν : Type} [DecidableEq κ]

/-! ## Items -/

theorem kerase_eq_filter {key : κ} {entries : List (Sigma fun _ : κ ↦ ν)}
    (hnodup : entries.NodupKeys) : entries.kerase key = entries.filter fun entry ↦ entry.1 ≠ key := by
  induction entries with
  | nil => rfl
  | cons entry entries ih =>
    have hrest := List.nodupKeys_cons.mp hnodup
    by_cases hkey : key = entry.1
    · have hothers : ∀ other ∈ entries, decide (other.1 ≠ key) = true := by
        intro other hother
        have hne : other.1 ≠ key := fun heq ↦
          hrest.1 (hkey ▸ heq ▸ List.mem_map_of_mem hother)
        exact decide_eq_true hne
      rw [List.kerase_cons_eq hkey, List.filter_cons_of_neg (by simp [hkey])]
      exact (List.filter_eq_self.mpr hothers).symm
    · rw [List.kerase_cons_ne hkey, ih hrest.2, List.filter_cons_of_pos]
      simpa using fun heq ↦ hkey heq.symm

theorem items_pop (d : Dict κ ν) (key : κ) :
    (d.pop key).items = d.items.filter fun item ↦ item.1 ≠ key := by
  have hentries : (d.pop key).entries = d.entries.filter fun entry ↦ entry.1 ≠ key :=
    kerase_eq_filter d.nodupKeys
  unfold items
  rw [hentries, ← List.filter_reverse, List.filter_map]
  rfl

theorem items_set_of_get_none {d : Dict κ ν} {key : κ} (h : d.get key = none) (value : ν) :
    (d.set key value).items = d.items ++ [(key, value)] := by
  have hmem : key ∉ d := AList.lookup_eq_none.mp h
  unfold items set
  rw [if_neg hmem, AList.entries_insert_of_notMem hmem]
  simp

/-- Assigning to the key that was stored last keeps it last. -/
theorem items_set_set {d : Dict κ ν} {key : κ} (h : d.get key = none) (old value : ν) :
    ((d.set key old).set key value).items = d.items ++ [(key, value)] := by
  have hmem : key ∉ d := AList.lookup_eq_none.mp h
  have hentries : (d.set key old).entries = ⟨key, old⟩ :: d.entries := by
    unfold set
    rw [if_neg hmem, AList.entries_insert_of_notMem hmem]
  have hhead : (if key = key then some (⟨key, value⟩ : Sigma fun _ : κ ↦ ν) else none) =
      some ⟨key, value⟩ := if_pos rfl
  have hstored : key ∈ d.set key old := by
    rw [← AList.lookup_isSome]
    exact Option.isSome_iff_exists.mpr ⟨old, get_set_self d key old⟩
  have hset : (d.set key old).set key value = AList.replace key value (d.set key old) :=
    if_pos hstored
  have hnew : ((d.set key old).set key value).entries = ⟨key, value⟩ :: d.entries := by
    rw [hset]
    change (d.set key old).entries.kreplace key value = _
    rw [hentries, List.kreplace, List.lookmap_cons_some _ _ hhead]
  unfold items
  rw [hnew]
  simp

theorem get_isSome_of_mem_keys {d : Dict κ ν} {key : κ} (h : key ∈ d.items.map Prod.fst) :
    (d.get key).isSome := by
  obtain ⟨⟨_, value⟩, hitem, rfl⟩ := List.mem_map.mp h
  exact Option.isSome_iff_exists.mpr ⟨value, mem_items.mp hitem⟩

/-! ## Storing at the end and dropping from the front -/

/-- `d.move_to_end(key)` where the key is present. -/
def moveToEnd (d : Dict κ ν) (key : κ) : Dict κ ν :=
  match d.get key with
  | none => d
  | some value => (d.pop key).set key value

/-- `d.popitem(last=False)`, as the dictionary that is left. -/
def popFirst (d : Dict κ ν) : Dict κ ν :=
  match d.items with
  | [] => d
  | item :: _ => d.pop item.1

/-- A key moved to the end if it is there, and then assigned to. -/
def store (d : Dict κ ν) (key : κ) (value : ν) : Dict κ ν :=
  (if (d.get key).isSome then d.moveToEnd key else d).set key value

/-- At most `passes` passes of `while len(d) > limit: d.popitem(last=False)`. -/
def trimPasses (limit : ℕ) : ℕ → Dict κ ν → Dict κ ν
  | 0, d => d
  | passes + 1, d =>
    if limit < d.items.length then trimPasses limit passes d.popFirst else d

/-- `while len(d) > limit: d.popitem(last=False)`.  Each pass removes an item. -/
def trim (limit : ℕ) (d : Dict κ ν) : Dict κ ν := trimPasses limit d.items.length d

theorem items_store (d : Dict κ ν) (key : κ) (value : ν) :
    (d.store key value).items = d.items.filter (fun item ↦ item.1 ≠ key) ++ [(key, value)] := by
  unfold store
  cases hget : d.get key with
  | none =>
    have hkeep : ∀ item ∈ d.items, decide (item.1 ≠ key) = true := by
      rintro ⟨other, old⟩ hitem
      refine decide_eq_true fun heq ↦ ?_
      rw [← heq, mem_items.mp hitem] at hget
      exact nomatch hget
    rw [if_neg (by simp), items_set_of_get_none hget, List.filter_eq_self.mpr hkeep]
  | some old =>
    rw [if_pos (by simp), moveToEnd, hget]
    dsimp only
    rw [items_set_set (get_pop_self d key), items_pop]

@[simp] theorem get_moveToEnd (d : Dict κ ν) (key key' : κ) :
    (d.moveToEnd key).get key' = d.get key' := by
  unfold moveToEnd
  cases hget : d.get key with
  | none => rfl
  | some value =>
    dsimp only
    rw [get_set]
    split
    · next heq => rw [heq, hget]
    · next hne => exact get_pop_of_ne d hne

theorem get_store (d : Dict κ ν) (key key' : κ) (value : ν) :
    (d.store key value).get key' = if key' = key then some value else d.get key' := by
  unfold store
  rw [get_set]
  split
  · rfl
  · split
    · exact get_moveToEnd d key key'
    · rfl

theorem items_popFirst (d : Dict κ ν) : d.popFirst.items = d.items.tail := by
  unfold popFirst
  cases hitems : d.items with
  | nil => simpa using hitems
  | cons item rest =>
    have hnodup := d.nodup_items
    rw [hitems, List.map_cons, List.nodup_cons] at hnodup
    have hkeep : ∀ other ∈ rest, decide (other.1 ≠ item.1) = true := fun other hother ↦
      decide_eq_true fun heq ↦ hnodup.1 (heq ▸ List.mem_map_of_mem hother)
    dsimp only
    rw [items_pop, hitems, List.filter_cons_of_neg (by simp), List.tail_cons]
    exact List.filter_eq_self.mpr hkeep

theorem items_trimPasses {limit passes : ℕ} {d : Dict κ ν} (h : d.items.length ≤ passes) :
    (trimPasses limit passes d).items = d.items.drop (d.items.length - limit) := by
  induction passes generalizing d with
  | zero =>
    have hempty : d.items = [] := List.length_eq_zero_iff.mp (Nat.le_zero.mp h)
    simp [trimPasses, hempty]
  | succ passes ih =>
    unfold trimPasses
    split
    · next hlong =>
      have htail : d.popFirst.items.length = d.items.length - 1 := by
        rw [items_popFirst, List.length_tail]
      rw [ih (by omega), items_popFirst, List.drop_tail, List.length_tail]
      congr 1
      omega
    · next hshort =>
      have hnothing : d.items.length - limit = 0 := by omega
      rw [hnothing, List.drop_zero]

theorem items_trim (limit : ℕ) (d : Dict κ ν) :
    (trim limit d).items = d.items.drop (d.items.length - limit) :=
  items_trimPasses le_rfl

theorem length_trim_le (limit : ℕ) (d : Dict κ ν) : (trim limit d).items.length ≤ limit := by
  rw [items_trim, List.length_drop]
  omega

theorem items_trim_sublist (limit : ℕ) (d : Dict κ ν) : (trim limit d).items.Sublist d.items := by
  rw [items_trim]
  exact List.drop_sublist _ _

theorem get_of_get_trim {limit : ℕ} {d : Dict κ ν} {key : κ} {value : ν}
    (h : (trim limit d).get key = some value) : d.get key = some value :=
  mem_items.mp ((items_trim_sublist limit d).subset (mem_items.mpr h))

/-- `for key in keys: d.pop(key, None)`. -/
def popAll (d : Dict κ ν) (keys : List κ) : Dict κ ν := keys.foldl pop d

theorem get_popAll (d : Dict κ ν) (keys : List κ) (key : κ) :
    (d.popAll keys).get key = if key ∈ keys then none else d.get key := by
  induction keys generalizing d with
  | nil => simp [popAll]
  | cons head keys ih =>
    have hstep : (d.popAll (head :: keys)) = (d.pop head).popAll keys := rfl
    rw [hstep, ih, get_pop]
    by_cases hkey : key = head
    · simp [hkey]
    · simp [hkey]

theorem items_popAll_sublist (d : Dict κ ν) (keys : List κ) :
    (d.popAll keys).items.Sublist d.items := by
  induction keys generalizing d with
  | nil => exact List.Sublist.refl _
  | cons head keys ih =>
    refine (ih (d.pop head)).trans ?_
    rw [items_pop]
    exact List.filter_sublist

/-! ## Order of recency -/

/-- The items stand in the order in which their keys were last stored, by a history that lists the
latest store first. -/
def Recent (d : Dict κ ν) (history : List κ) : Prop :=
  (d.items.map Prod.fst).Pairwise fun older newer ↦ history.idxOf newer < history.idxOf older

theorem recent_empty (history : List κ) : (∅ : Dict κ ν).Recent history := List.Pairwise.nil

theorem Recent.of_sublist {d d' : Dict κ ν} {history : List κ} (h : d.Recent history)
    (hsub : d'.items.Sublist d.items) : d'.Recent history :=
  List.Pairwise.sublist (hsub.map Prod.fst) h

theorem Recent.pop {d : Dict κ ν} {history : List κ} (h : d.Recent history) (key : κ) :
    (d.pop key).Recent history := by
  refine h.of_sublist ?_
  rw [items_pop]
  exact List.filter_sublist

theorem Recent.trim {d : Dict κ ν} {history : List κ} (h : d.Recent history) (limit : ℕ) :
    (d.trim limit).Recent history :=
  h.of_sublist (items_trim_sublist limit d)

theorem Recent.store {d : Dict κ ν} {history : List κ} (h : d.Recent history) (key : κ)
    (value : ν) : (d.store key value).Recent (key :: history) := by
  unfold Recent
  rw [items_store, List.map_append, List.pairwise_append]
  have hother : ∀ other ∈ (d.items.filter fun item ↦ item.1 ≠ key).map Prod.fst, other ≠ key := by
    intro other hmem
    obtain ⟨item, hitem, rfl⟩ := List.mem_map.mp hmem
    exact of_decide_eq_true (List.mem_filter.mp hitem).2
  refine ⟨?_, List.pairwise_singleton _ _, ?_⟩
  · have hkept : ((d.items.filter fun item ↦ item.1 ≠ key).map Prod.fst).Pairwise
        fun older newer ↦ history.idxOf newer < history.idxOf older :=
      List.Pairwise.sublist (List.filter_sublist.map Prod.fst) h
    refine hkept.imp_of_mem fun {older newer} holder hnewer hlt ↦ ?_
    rw [List.idxOf_cons_ne _ (hother newer hnewer).symm, List.idxOf_cons_ne _ (hother older holder).symm]
    exact Nat.succ_lt_succ hlt
  · intro older holder newer hnewer
    obtain rfl := List.mem_singleton.mp hnewer
    rw [List.idxOf_cons_self, List.idxOf_cons_ne _ (hother older holder).symm]
    exact Nat.succ_pos _

/-- What is dropped from the front makes room for as many keys as may stay, all stored later. -/
theorem Recent.exists_newer {d : Dict κ ν} {history : List κ} (h : d.Recent history) {limit : ℕ}
    {key : κ} (hget : (d.get key).isSome) (hdropped : (d.trim limit).get key = none) :
    ∃ newer : List κ, newer.Nodup ∧ newer.length = limit ∧
      ∀ other ∈ newer, (d.get other).isSome ∧ history.idxOf other < history.idxOf key := by
  obtain ⟨value, hvalue⟩ := Option.isSome_iff_exists.mp hget
  have hsplit := List.take_append_drop (d.items.length - limit) d.items
  have hkept := items_trim limit d
  have hfront : (key, value) ∈ d.items.take (d.items.length - limit) := by
    have hmem := mem_items.mpr hvalue
    rw [← hsplit, List.mem_append] at hmem
    refine hmem.resolve_right fun hback ↦ ?_
    rw [← hkept, mem_items, hdropped] at hback
    exact nomatch hback
  have hlong : limit < d.items.length := by
    by_contra hshort
    rw [Nat.sub_eq_zero_of_le (not_lt.mp hshort), List.take_zero] at hfront
    exact nomatch hfront
  unfold Recent at h
  rw [← hsplit, List.map_append, List.pairwise_append] at h
  refine ⟨(d.items.drop (d.items.length - limit)).map Prod.fst, ?_, ?_, fun other hother ↦ ⟨?_, ?_⟩⟩
  · exact d.nodup_items.sublist ((List.drop_sublist _ _).map Prod.fst)
  · rw [List.length_map, List.length_drop]
    omega
  · exact get_isSome_of_mem_keys (((List.drop_sublist _ _).map Prod.fst).subset hother)
  · exact h.2.2 key (List.mem_map_of_mem (f := Prod.fst) hfront) other hother

end Ferry.Dict
