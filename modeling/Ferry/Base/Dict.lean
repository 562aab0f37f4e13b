import Mathlib.Data.List.AList

/-!
# Dictionaries in insertion order

A finite map whose items are listed in the order in which their keys were first inserted: assigning
to a key that is present keeps its place, and a removed key comes back at the end.
-/

namespace Ferry

/-- A dictionary.  The newest key is the first entry. -/
abbrev Dict (κ ν : Type) : Type := AList fun _ : κ ↦ ν

namespace Dict

variable {κ ν : Type} [DecidableEq κ]

/-- `d.get(key)`. -/
def get (d : Dict κ ν) (key : κ) : Option ν := AList.lookup key d

/-- `d[key] = value`. -/
def set (d : Dict κ ν) (key : κ) (value : ν) : Dict κ ν :=
  if key ∈ d then AList.replace key value d else AList.insert key value d

/-- `d.pop(key, None)`, as the dictionary that is left. -/
def pop (d : Dict κ ν) (key : κ) : Dict κ ν := AList.erase key d

/-- `list(d.items())`. -/
def items (d : Dict κ ν) : List (κ × ν) := d.entries.reverse.map fun entry ↦ (entry.1, entry.2)

@[simp] theorem get_empty (key : κ) : get (∅ : Dict κ ν) key = none := rfl

theorem dlookup_kreplace (key key' : κ) (value : ν) (entries : List (Sigma fun _ : κ ↦ ν)) :
    (entries.kreplace key value).dlookup key' =
      if key' = key ∧ key ∈ entries.keys then some value else entries.dlookup key' := by
  induction entries with
  | nil => simp [List.kreplace]
  | cons entry entries ih =>
    obtain ⟨k, v⟩ := entry
    by_cases hk : key = k
    · subst hk
      have hhead : (if key = key then some (⟨key, value⟩ : Sigma fun _ : κ ↦ ν) else none) =
          some ⟨key, value⟩ := if_pos rfl
      rw [List.kreplace, List.lookmap_cons_some _ _ hhead]
      by_cases hkey : key' = key
      · subst hkey
        simp
      · rw [List.dlookup_cons_ne entries (⟨key, value⟩ : Sigma fun _ : κ ↦ ν) hkey,
          List.dlookup_cons_ne entries (⟨key, v⟩ : Sigma fun _ : κ ↦ ν) hkey]
        simp [hkey]
    · rw [List.kreplace, List.lookmap_cons_none _ _ (by simp [hk])]
      rw [List.kreplace] at ih
      by_cases hkey : key' = k
      · subst hkey
        have hne : ¬key' = key := fun h ↦ hk h.symm
        simp [hne]
      · rw [List.dlookup_cons_ne _ (⟨k, v⟩ : Sigma fun _ : κ ↦ ν) hkey, ih,
          List.dlookup_cons_ne _ (⟨k, v⟩ : Sigma fun _ : κ ↦ ν) hkey]
        simp [hk]

theorem get_set (d : Dict κ ν) (key key' : κ) (value : ν) :
    (d.set key value).get key' = if key' = key then some value else d.get key' := by
  unfold set get
  by_cases hmem : key ∈ d
  · rw [if_pos hmem, AList.lookup, AList.replace, dlookup_kreplace]
    have hkeys : key ∈ d.entries.keys := hmem
    simp only [hkeys, and_true]
    rfl
  · rw [if_neg hmem]
    by_cases hkey : key' = key
    · subst hkey
      rw [if_pos rfl, AList.lookup_insert]
    · rw [if_neg hkey, AList.lookup_insert_ne hkey]

@[simp] theorem get_set_self (d : Dict κ ν) (key : κ) (value : ν) :
    (d.set key value).get key = some value := by
  rw [get_set, if_pos rfl]

theorem get_set_of_ne (d : Dict κ ν) {key key' : κ} (value : ν) (h : key' ≠ key) :
    (d.set key value).get key' = d.get key' := by
  rw [get_set, if_neg h]

theorem get_pop (d : Dict κ ν) (key key' : κ) :
    (d.pop key).get key' = if key' = key then none else d.get key' := by
  unfold pop get
  by_cases hkey : key' = key
  · subst hkey
    rw [if_pos rfl, AList.lookup_erase]
  · rw [if_neg hkey, AList.lookup_erase_ne hkey]

@[simp] theorem get_pop_self (d : Dict κ ν) (key : κ) : (d.pop key).get key = none := by
  rw [get_pop, if_pos rfl]

theorem get_pop_of_ne (d : Dict κ ν) {key key' : κ} (h : key' ≠ key) :
    (d.pop key).get key' = d.get key' := by
  rw [get_pop, if_neg h]

/-- Nothing is popped from a dictionary that does not have the key. -/
theorem pop_of_get {d : Dict κ ν} {key : κ} (h : d.get key = none) : d.pop key = d := by
  refine AList.ext (List.kerase_of_notMem_keys ?_)
  exact AList.lookup_eq_none.mp h

theorem mem_items {d : Dict κ ν} {key : κ} {value : ν} :
    (key, value) ∈ d.items ↔ d.get key = some value := by
  have hentry : (⟨key, value⟩ : Sigma fun _ : κ ↦ ν) ∈ d.entries ↔ d.get key = some value :=
    @AList.mem_lookup_iff _ _ _ key value d |>.symm
  rw [← hentry, items, List.mem_map]
  constructor
  · rintro ⟨⟨k, v⟩, hmem, heq⟩
    obtain ⟨rfl, rfl⟩ := Prod.mk.inj heq
    exact List.mem_reverse.mp hmem
  · exact fun hmem ↦ ⟨⟨key, value⟩, List.mem_reverse.mpr hmem, rfl⟩

omit [DecidableEq κ] in
/-- No key is listed twice. -/
theorem nodup_items (d : Dict κ ν) : (d.items.map Prod.fst).Nodup := by
  have hkeys : d.items.map Prod.fst = d.entries.keys.reverse := by
    simp [items, List.keys, List.map_reverse, Function.comp_def]
  rw [hkeys, List.nodup_reverse]
  exact d.nodupKeys

end Dict

/-- A list of items without a key twice, split at one of them. -/
theorem exists_split_of_nodup {κ ν : Type} [DecidableEq κ] {items : List (κ × ν)}
    (h : (items.map Prod.fst).Nodup) {item : κ × ν} (hmem : item ∈ items) :
    ∃ later, items = items.takeWhile (fun other ↦ other.1 ≠ item.1) ++ item :: later := by
  induction items with
  | nil => simp at hmem
  | cons head rest ih =>
    rw [List.map_cons, List.nodup_cons] at h
    rcases List.mem_cons.mp hmem with rfl | hrest
    · exact ⟨rest, by simp⟩
    · have hne : head.1 ≠ item.1 := fun heq ↦ h.1 (heq ▸ List.mem_map_of_mem hrest)
      obtain ⟨later, hlater⟩ := ih h.2 hrest
      refine ⟨later, ?_⟩
      rw [List.takeWhile_cons_of_pos (by simpa using hne), List.cons_append, ← hlater]

end Ferry
