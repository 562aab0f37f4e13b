import Ferry.Discovery.Manager

/-!
# The list of devices and the advertised services

When all tasks have finished the list shows what is advertised, as long as no reply comes after the
removal of its service, a service keeps its device, a device that is removed has no other service, and
no service that was removed comes back without a reply.
-/

namespace Ferry

open Machine Text

namespace DiscoveryManager

/-- The device is on the list. -/
def Available (m : DiscoveryManager) (deviceId : Text) : Prop :=
  ∃ device, m.devices.get deviceId = some device ∧ device.isAvailable = true

/-- Every device is stored under its identifier. -/
def Keyed (m : DiscoveryManager) : Prop :=
  ∀ deviceId device, m.devices.get deviceId = some device → device.deviceId = deviceId

theorem mem_getDevices {m : DiscoveryManager} (hkeyed : m.Keyed) {deviceId : Text} :
    (∃ device ∈ m.getDevices, device.deviceId = deviceId) ↔ m.Available deviceId := by
  constructor
  · rintro ⟨device, hmem, rfl⟩
    obtain ⟨hitem, havailable⟩ := List.mem_filter.mp hmem
    obtain ⟨⟨key, value⟩, hkey, rfl⟩ := List.mem_map.mp hitem
    have hget := Dict.mem_items.mp hkey
    rw [← hkeyed key value hget] at hget
    exact ⟨value, hget, havailable⟩
  · rintro ⟨device, hget, havailable⟩
    have hitem : device ∈ m.devices.items.map Prod.snd :=
      List.mem_map.mpr ⟨(deviceId, device), Dict.mem_items.mpr hget, rfl⟩
    exact ⟨device, List.mem_filter.mpr ⟨hitem, havailable⟩, hkeyed deviceId device hget⟩

/-! ## A device that was found -/

theorem found_of_own {m : DiscoveryManager} {device : DiscoveredDevice} (name : Text)
    (h : device.deviceId = m.ownDeviceId) : m.found name device = m := if_pos h

theorem serviceToDevice_found {m : DiscoveryManager} {device : DiscoveredDevice} (name other : Text)
    (h : device.deviceId ≠ m.ownDeviceId) : (m.found name device).serviceToDevice.get other =
      if other = name then some device.deviceId else m.serviceToDevice.get other := by
  rw [found, if_neg h]
  exact Dict.get_set _ _ _ _

theorem available_found {m : DiscoveryManager} {device : DiscoveredDevice} (name deviceId : Text)
    (h : device.deviceId ≠ m.ownDeviceId) (havailable : device.isAvailable = true) :
    (m.found name device).Available deviceId ↔ deviceId = device.deviceId ∨ m.Available deviceId := by
  rw [found, if_neg h, Available, Dict.get_set]
  by_cases hid : deviceId = device.deviceId
  · simp [hid, havailable]
  · simp [hid, Available]

theorem keyed_found {m : DiscoveryManager} (hkeyed : m.Keyed) (name : Text) (device : DiscoveredDevice) :
    (m.found name device).Keyed := by
  by_cases h : device.deviceId = m.ownDeviceId
  · rw [found_of_own name h]
    exact hkeyed
  · intro deviceId stored hget
    rw [found, if_neg h, Dict.get_set] at hget
    by_cases hid : deviceId = device.deviceId
    · rw [if_pos hid] at hget
      rw [← Option.some.inj hget, hid]
    · rw [if_neg hid] at hget
      exact hkeyed deviceId stored hget

@[simp] theorem ownDeviceId_found (m : DiscoveryManager) (name : Text) (device : DiscoveredDevice) :
    (m.found name device).ownDeviceId = m.ownDeviceId := by
  unfold found
  split <;> rfl

@[simp] theorem isRunning_found (m : DiscoveryManager) (name : Text) (device : DiscoveredDevice) :
    (m.found name device).isRunning = m.isRunning := by
  unfold found
  split <;> rfl

/-! ## A service that was removed -/

theorem setUnavailable_eq (m : DiscoveryManager) (deviceId : Text) : m.setUnavailable deviceId =
    { m with devices := (m.setUnavailable deviceId).devices } := by
  unfold setUnavailable
  split <;> rfl

theorem devices_setUnavailable (m : DiscoveryManager) (deviceId other : Text) :
    (m.setUnavailable deviceId).devices.get other =
      if other = deviceId then (m.devices.get other).map fun device ↦ { device with isAvailable := false }
      else m.devices.get other := by
  unfold setUnavailable
  split
  · next hnone =>
    by_cases hid : other = deviceId
    · rw [if_pos hid, hid, hnone]
      rfl
    · rw [if_neg hid]
  · next device hdevice =>
    rw [Dict.get_set]
    by_cases hid : other = deviceId
    · rw [if_pos hid, if_pos hid, hid, hdevice]
      rfl
    · rw [if_neg hid, if_neg hid]

theorem serviceToDevice_removed (m : DiscoveryManager) (name other : Text) :
    (m.removed name).serviceToDevice.get other =
      if other = name then none else m.serviceToDevice.get other := by
  unfold removed
  split
  · next hnone =>
    by_cases hname : other = name
    · rw [if_pos hname, hname, hnone]
    · rw [if_neg hname]
  · next deviceId hdevice =>
    dsimp only
    split
    · exact Dict.get_pop _ _ _
    · rw [setUnavailable_eq]
      exact Dict.get_pop _ _ _

theorem devices_removed {m : DiscoveryManager} (hkeyed : m.Keyed) (name other : Text) :
    (m.removed name).devices.get other = if m.serviceToDevice.get name = some other then
      (m.devices.get other).map fun device ↦ { device with isAvailable := false }
      else m.devices.get other := by
  unfold removed
  split
  · next hnone => rw [if_neg (by simp [hnone])]
  · next deviceId hdevice =>
    rw [hdevice]
    dsimp only
    split
    · next hempty =>
      -- No device is stored under the empty identifier.
      have habsent : m.devices.get [] = none := Option.eq_none_iff_forall_ne_some.mpr fun device hget ↦
        device.identified (hkeyed [] device hget)
      by_cases hother : some deviceId = some other
      · obtain rfl := Option.some.inj hother
        rw [if_pos rfl, hempty, habsent]
        rfl
      · rw [if_neg hother]
    · rw [devices_setUnavailable]
      simp only [Option.some.injEq, eq_comm]

theorem available_removed {m : DiscoveryManager} (hkeyed : m.Keyed) (name deviceId : Text) :
    (m.removed name).Available deviceId ↔
      m.Available deviceId ∧ m.serviceToDevice.get name ≠ some deviceId := by
  rw [Available, devices_removed hkeyed]
  by_cases hid : m.serviceToDevice.get name = some deviceId
  · simp [hid]
  · simp [hid, Available]

theorem keyed_removed {m : DiscoveryManager} (hkeyed : m.Keyed) (name : Text) : (m.removed name).Keyed := by
  intro deviceId device hget
  rw [devices_removed hkeyed] at hget
  split at hget
  · obtain ⟨stored, hstored, rfl⟩ := Option.map_eq_some_iff.mp hget
    exact hkeyed deviceId stored hstored
  · exact hkeyed deviceId device hget

theorem removed_eq (m : DiscoveryManager) (name : Text) : m.removed name =
    { m with devices := (m.removed name).devices, serviceToDevice := (m.removed name).serviceToDevice } := by
  unfold removed
  split
  · rfl
  · dsimp only
    split
    · rfl
    · rw [setUnavailable_eq]

end DiscoveryManager

namespace Discovery

/-! ## The condition -/

/-- The removal of the service is still to be handled. -/
def AwaitsRemoval (s : Discovery) (name : Text) : Prop := ⟨name, .removed⟩ ∈ s.ready

instance (s : Discovery) (name : Text) : Decidable (s.AwaitsRemoval name) :=
  inferInstanceAs (Decidable (_ ∈ _))

/-- A request for the service is still to return. -/
def AwaitsReply (s : Discovery) (name : Text) : Prop :=
  name ∈ s.requests ∨ ∃ task ∈ s.ready, task.name = name ∧ task.change ≠ .removed

instance (s : Discovery) (name : Text) : Decidable (s.AwaitsReply name) :=
  inferInstanceAs (Decidable (_ ∨ _))

/-- Every other service of the device is about to be removed as well. -/
def SoleService (s : Discovery) (name deviceId : Text) : Prop :=
  ∀ item ∈ s.manager.serviceToDevice.items, item.2 = deviceId → item.1 = name ∨ s.AwaitsRemoval item.1

instance (s : Discovery) (name deviceId : Text) : Decidable (s.SoleService name deviceId) :=
  inferInstanceAs (Decidable (∀ item ∈ s.manager.serviceToDevice.items, _ → _))

/-- The device of the service stays on the list through another service. -/
def OtherService (s : Discovery) (name deviceId : Text) : Prop :=
  ∃ item ∈ s.manager.serviceToDevice.items, item.1 ≠ name ∧ item.2 = deviceId

instance (s : Discovery) (name deviceId : Text) : Decidable (s.OtherService name deviceId) :=
  inferInstanceAs (Decidable (∃ item ∈ s.manager.serviceToDevice.items, _ ∧ _))

/-- A request that gives nothing leaves the service on the list, or another one is still to return. -/
def Unneeded (s : Discovery) (name : Text) : Prop :=
  s.Advertised name → ∀ deviceId ∈ s.lastResolution name, deviceId ≠ s.manager.ownDeviceId →
    s.manager.serviceToDevice.get name = some deviceId ∨ s.AwaitsReply name

instance (s : Discovery) (name : Text) : Decidable (s.Unneeded name) :=
  inferInstanceAs (Decidable (_ → ∀ deviceId ∈ s.lastResolution name, _ → _))

/-- A request gives a device before the removal of its service was handled, and the device that the
service had before is the same or keeps another service. -/
def InTime (s : Discovery) (name deviceId : Text) : Prop :=
  (s.Advertised name ∨ s.AwaitsRemoval name) ∧
    ∀ old ∈ s.manager.serviceToDevice.get name,
      old = deviceId ∨ deviceId ≠ s.manager.ownDeviceId ∧ s.OtherService name old

instance (s : Discovery) (name deviceId : Text) : Decidable (s.InTime name deviceId) :=
  inferInstanceAs (Decidable (_ ∧ ∀ old ∈ s.manager.serviceToDevice.get name, _))

def OrderlyReply (s : Discovery) (name : Text) : Option DiscoveredDevice → Prop
  | none => s.Unneeded name
  | some device => s.InTime name device.deviceId

instance decidableOrderlyReply (s : Discovery) (name : Text) :
    ∀ device, Decidable (s.OrderlyReply name device)
  | none => inferInstanceAs (Decidable (s.Unneeded name))
  | some device => inferInstanceAs (Decidable (s.InTime name device.deviceId))

def Orderly (s : Discovery) : DiscoveryEvent → Prop
  | .change _ _ => True
  | .start => ∀ task ∈ s.ready.head?, task.change = .removed →
      ∀ deviceId ∈ s.manager.serviceToDevice.get task.name, s.SoleService task.name deviceId
  | .reply request info now => ∀ name ∈ s.requests[request]?,
      OrderlyReply { s with requests := s.requests.eraseIdx request } name
        (info.bind (DiscoveredDevice.fromServiceInfo now))

instance decidableOrderly (s : Discovery) : ∀ event, Decidable (s.Orderly event)
  | .change _ _ => isTrue trivial
  | .start => inferInstanceAs (Decidable (∀ task ∈ s.ready.head?, task.change = .removed →
      ∀ deviceId ∈ s.manager.serviceToDevice.get task.name, s.SoleService task.name deviceId))
  | .reply request info now => inferInstanceAs (Decidable (∀ name ∈ s.requests[request]?,
      OrderlyReply { s with requests := s.requests.eraseIdx request } name
        (info.bind (DiscoveredDevice.fromServiceInfo now))))

/-! ## The invariant -/

/-- The two dictionaries follow the changes and the requests that were handled. -/
structure Tracks (s : Discovery) : Prop where
  running : s.manager.isRunning = true
  keyed : s.manager.Keyed
  queued : s.ready.reverse <+: s.changes
  advertised : ∀ deviceId, s.manager.Available deviceId →
    ∃ name, s.manager.serviceToDevice.get name = some deviceId
  available : ∀ name deviceId, s.manager.serviceToDevice.get name = some deviceId →
    s.manager.Available deviceId ∨ s.AwaitsRemoval name
  resolved : ∀ name deviceId, s.manager.serviceToDevice.get name = some deviceId →
    s.lastResolution name = some deviceId ∧ deviceId ≠ s.manager.ownDeviceId
  withdrawn : ∀ name deviceId, s.manager.serviceToDevice.get name = some deviceId →
    s.Advertised name ∨ s.AwaitsRemoval name
  needed : ∀ name, s.Unneeded name

theorem tracks_new (ownDeviceId : Text) : (new ownDeviceId).Tracks where
  running := rfl
  keyed := by simp [DiscoveryManager.Keyed, new]
  queued := List.prefix_refl []
  advertised := by simp [DiscoveryManager.Available, new]
  available := by simp [new]
  resolved := by simp [new]
  withdrawn := by simp [new]
  needed := by simp [Unneeded, Advertised, lastChange, new]

theorem lastChange_onServiceStateChange (s : Discovery) (name other : Text)
    (change : ServiceStateChange) : (s.onServiceStateChange name change).lastChange other =
      if other = name then some change else s.lastChange other := by
  rw [lastChange, onServiceStateChange, List.find?_cons]
  by_cases hname : other = name
  · simp [hname]
  · simp [hname, Ne.symm hname, lastChange]

theorem advertised_onServiceStateChange {s : Discovery} {name other : Text} {change : ServiceStateChange} :
    (s.onServiceStateChange name change).Advertised other ↔
      if other = name then change ≠ .removed else s.Advertised other := by
  rw [Advertised, lastChange_onServiceStateChange]
  by_cases hname : other = name
  · cases change <;> simp [hname]
  · simp [hname, Advertised]

theorem tracks_onServiceStateChange {s : Discovery} (h : s.Tracks) (name : Text)
    (change : ServiceStateChange) : (s.onServiceStateChange name change).Tracks := by
  have hremoval : ∀ other, s.AwaitsRemoval other →
      (s.onServiceStateChange name change).AwaitsRemoval other :=
    fun other hmem ↦ List.mem_append_left _ hmem
  have hnew : (⟨name, change⟩ : HandlerTask) ∈ (s.onServiceStateChange name change).ready :=
    List.mem_append_right _ (List.mem_singleton_self _)
  refine ⟨h.running, h.keyed, ?_, h.advertised, ?_, h.resolved, ?_, ?_⟩
  · rw [onServiceStateChange, List.reverse_append]
    exact List.prefix_cons_inj _ |>.mpr h.queued
  · exact fun other deviceId hget ↦ (h.available other deviceId hget).imp_right (hremoval other)
  · intro other deviceId hget
    rw [advertised_onServiceStateChange]
    by_cases hname : other = name
    · rw [if_pos hname, hname]
      by_cases hchange : change = .removed
      · exact .inr (hchange ▸ hnew)
      · exact .inl hchange
    · rw [if_neg hname]
      exact (h.withdrawn other deviceId hget).imp_right (hremoval other)
  · intro other hadvertised deviceId hresolved hown
    rw [advertised_onServiceStateChange] at hadvertised
    by_cases hname : other = name
    · rw [if_pos hname] at hadvertised
      exact .inr (.inr ⟨_, hnew, hname.symm, hadvertised⟩)
    · rw [if_neg hname] at hadvertised
      apply (h.needed other hadvertised deviceId hresolved hown).imp_right
      rintro (hrequest | ⟨task, htask, hother⟩)
      · exact .inl hrequest
      · exact .inr ⟨task, List.mem_append_left _ htask, hother⟩

/-- The oldest task is the removal of a service that is advertised again: another task of the service
waits behind it. -/
theorem awaitsReply_of_advertised {s : Discovery} {name : Text} {ready : List HandlerTask}
    (hqueued : s.ready.reverse <+: s.changes) (hready : s.ready = ⟨name, .removed⟩ :: ready)
    (hadvertised : s.Advertised name) : ∃ task ∈ ready, task.name = name ∧ task.change ≠ .removed := by
  obtain ⟨earlier, hchanges⟩ := hqueued
  rw [hready, List.reverse_cons, List.append_assoc] at hchanges
  have hlast : s.lastChange name ≠ some .removed := by
    intro hlast
    rcases hadvertised with h | h
    · exact nomatch hlast.symm.trans h
    · exact nomatch hlast.symm.trans h
  rw [lastChange, ← hchanges, List.find?_append] at hlast
  cases hfind : ready.reverse.find? (·.name = name) with
  | none =>
    rw [hfind] at hlast
    simp at hlast
  | some task =>
    rw [hfind, Option.some_or, Option.map_some] at hlast
    refine ⟨task, List.mem_reverse.mp (List.mem_of_find?_eq_some hfind), ?_, ?_⟩
    · simpa using List.find?_some hfind
    · exact fun hchange ↦ hlast (congrArg some hchange)

theorem tracks_request {s : Discovery} (h : s.Tracks) {task : HandlerTask} {ready : List HandlerTask}
    (hready : s.ready = task :: ready) (htask : task.change ≠ .removed) :
    Tracks { s with ready, requests := s.requests ++ [task.name] } := by
  have hremoval : ∀ name, s.AwaitsRemoval name → ⟨name, .removed⟩ ∈ ready := by
    intro name hmem
    rw [AwaitsRemoval, hready] at hmem
    rcases List.mem_cons.mp hmem with heq | hmem
    · exact absurd (congrArg HandlerTask.change heq).symm htask
    · exact hmem
  refine ⟨h.running, h.keyed, ?_, h.advertised, ?_, h.resolved, ?_, ?_⟩
  · have hqueued := h.queued
    rw [hready, List.reverse_cons] at hqueued
    exact (List.prefix_append _ _).trans hqueued
  · exact fun name deviceId hget ↦ (h.available name deviceId hget).imp_right (hremoval name)
  · exact fun name deviceId hget ↦ (h.withdrawn name deviceId hget).imp_right (hremoval name)
  · intro name hadvertised deviceId hresolved hown
    apply (h.needed name hadvertised deviceId hresolved hown).imp_right
    rintro (hrequest | ⟨other, hother, hname, hchange⟩)
    · exact .inl (List.mem_append_left _ hrequest)
    · rw [hready] at hother
      rcases List.mem_cons.mp hother with rfl | hother
      · exact .inl (List.mem_append_right _ (List.mem_singleton.mpr hname.symm))
      · exact .inr ⟨other, hother, hname, hchange⟩

theorem tracks_removed {s : Discovery} (h : s.Tracks) {name : Text} {ready : List HandlerTask}
    (hready : s.ready = ⟨name, .removed⟩ :: ready)
    (hsole : ∀ deviceId ∈ s.manager.serviceToDevice.get name, s.SoleService name deviceId) :
    Tracks { s with ready, manager := s.manager.removed name } := by
  have hmap := s.manager.serviceToDevice_removed name
  have hremoval : ∀ other, other ≠ name → s.AwaitsRemoval other → ⟨other, .removed⟩ ∈ ready := by
    intro other hother hmem
    rw [AwaitsRemoval, hready] at hmem
    rcases List.mem_cons.mp hmem with heq | hmem
    · exact absurd (congrArg HandlerTask.name heq) hother
    · exact hmem
  have hstill : ∀ other deviceId, (s.manager.removed name).serviceToDevice.get other = some deviceId →
      other ≠ name ∧ s.manager.serviceToDevice.get other = some deviceId := by
    intro other deviceId hget
    rw [hmap] at hget
    by_cases hother : other = name
    · rw [if_pos hother] at hget
      exact nomatch hget
    · rw [if_neg hother] at hget
      exact ⟨hother, hget⟩
  have hown : (s.manager.removed name).ownDeviceId = s.manager.ownDeviceId := by
    rw [DiscoveryManager.removed_eq]
  refine ⟨?_, DiscoveryManager.keyed_removed h.keyed name, ?_, ?_, ?_, ?_, ?_, ?_⟩
  · change (s.manager.removed name).isRunning = true
    rw [DiscoveryManager.removed_eq]
    exact h.running
  · have hqueued := h.queued
    rw [hready, List.reverse_cons] at hqueued
    exact (List.prefix_append _ _).trans hqueued
  · intro deviceId havailable
    obtain ⟨havailable, hne⟩ := (DiscoveryManager.available_removed h.keyed name deviceId).mp havailable
    obtain ⟨other, hother⟩ := h.advertised deviceId havailable
    have hdiff : other ≠ name := fun heq ↦ hne (heq ▸ hother)
    exact ⟨other, by rw [hmap, if_neg hdiff, hother]⟩
  · intro other deviceId hget
    obtain ⟨hother, hget⟩ := hstill other deviceId hget
    by_cases hsame : s.manager.serviceToDevice.get name = some deviceId
    · rcases hsole deviceId hsame (other, deviceId) (Dict.mem_items.mpr hget) rfl with heq | hmem
      · exact absurd heq hother
      · exact .inr (hremoval other hother hmem)
    · apply (h.available other deviceId hget).imp _ (hremoval other hother)
      exact fun havailable ↦ (DiscoveryManager.available_removed h.keyed name deviceId).mpr
        ⟨havailable, hsame⟩
  · intro other deviceId hget
    change s.lastResolution other = some deviceId ∧ deviceId ≠ (s.manager.removed name).ownDeviceId
    rw [hown]
    exact h.resolved other deviceId (hstill other deviceId hget).2
  · intro other deviceId hget
    obtain ⟨hother, hget⟩ := hstill other deviceId hget
    exact (h.withdrawn other deviceId hget).imp_right (hremoval other hother)
  · intro other hadvertised deviceId hresolved hne
    change deviceId ≠ (s.manager.removed name).ownDeviceId at hne
    rw [hown] at hne
    by_cases hother : other = name
    · rw [hother] at hadvertised ⊢
      exact .inr (.inr (awaitsReply_of_advertised h.queued hready hadvertised))
    · rcases h.needed other hadvertised deviceId hresolved hne with hget | hrequest | hpending
      · refine .inl ?_
        change (s.manager.removed name).serviceToDevice.get other = some deviceId
        rw [hmap, if_neg hother, hget]
      · exact .inr (.inl hrequest)
      · obtain ⟨task, htask, hname, hchange⟩ := hpending
        rw [hready] at htask
        rcases List.mem_cons.mp htask with rfl | htask
        · exact absurd rfl hchange
        · exact .inr (.inr ⟨task, htask, hname, hchange⟩)

theorem mem_requests_of_ne {s : Discovery} {request : ℕ} {name other : Text}
    (hname : s.requests[request]? = some name) (hne : other ≠ name) (h : other ∈ s.requests) :
    other ∈ s.requests.eraseIdx request := by
  obtain ⟨i, hi⟩ := List.mem_iff_getElem?.mp h
  refine List.mem_eraseIdx_iff_getElem?.mpr ⟨i, ?_, hi⟩
  rintro rfl
  exact hne (Option.some.inj (hi.symm.trans hname))

/-- A request returns: the services that still need it are the others. -/
theorem needed_of_ne {s : Discovery} (h : s.Tracks) {request : ℕ} {name other : Text}
    (hname : s.requests[request]? = some name) (hne : other ≠ name) :
    Unneeded { s with requests := s.requests.eraseIdx request } other := by
  intro hadvertised deviceId hresolved hown
  apply (h.needed other hadvertised deviceId hresolved hown).imp_right
  rintro (hrequest | hpending)
  · exact .inl (mem_requests_of_ne hname hne hrequest)
  · exact .inr hpending

theorem tracks_nothing {s : Discovery} (h : s.Tracks) {request : ℕ} {name : Text}
    (hname : s.requests[request]? = some name)
    (hneeded : Unneeded { s with requests := s.requests.eraseIdx request } name) :
    Tracks { s with requests := s.requests.eraseIdx request } where
  running := h.running
  keyed := h.keyed
  queued := h.queued
  advertised := h.advertised
  available := h.available
  resolved := h.resolved
  withdrawn := h.withdrawn
  needed other := by
    by_cases hne : other = name
    · exact hne ▸ hneeded
    · exact needed_of_ne h hname hne

theorem lastResolution_finish (s : Discovery) (name other : Text) (device : DiscoveredDevice) :
    (s.finish name (some device)).lastResolution other =
      if other = name then some device.deviceId else s.lastResolution other := by
  rw [lastResolution, finish, List.find?_cons]
  by_cases hname : other = name
  · simp [hname]
  · simp [hname, Ne.symm hname, lastResolution]

/-- A request gives the device of this host, which the service did not have. -/
theorem tracks_own {s : Discovery} (h : s.Tracks) {request : ℕ} {name : Text} {device : DiscoveredDevice}
    (hname : s.requests[request]? = some name) (hown : device.deviceId = s.manager.ownDeviceId)
    (hnone : s.manager.serviceToDevice.get name = none) :
    Tracks (finish { s with requests := s.requests.eraseIdx request } name (some device)) := by
  have hmanager : (finish { s with requests := s.requests.eraseIdx request } name
      (some device)).manager = s.manager := DiscoveryManager.found_of_own name hown
  have hresolution := lastResolution_finish { s with requests := s.requests.eraseIdx request } name
  refine ⟨?_, ?_, h.queued, ?_, ?_, ?_, ?_, ?_⟩
  · rw [hmanager]
    exact h.running
  · rw [hmanager]
    exact h.keyed
  · rw [hmanager]
    exact h.advertised
  · rw [hmanager]
    exact h.available
  · intro other deviceId hget
    rw [hmanager] at hget ⊢
    have hne : other ≠ name := by
      rintro rfl
      exact nomatch hnone.symm.trans hget
    rw [hresolution, if_neg hne]
    exact h.resolved other deviceId hget
  · rw [hmanager]
    exact h.withdrawn
  · intro other hadvertised deviceId hresolved hne
    rw [hmanager] at hne ⊢
    rw [Option.mem_def, hresolution] at hresolved
    by_cases hother : other = name
    · rw [if_pos hother, Option.some.injEq] at hresolved
      exact absurd (hresolved.symm.trans hown) hne
    · rw [if_neg hother] at hresolved
      exact needed_of_ne h hname hother hadvertised deviceId hresolved hne

theorem tracks_found {s : Discovery} (h : s.Tracks) {request : ℕ} {name : Text}
    {device : DiscoveredDevice} (hname : s.requests[request]? = some name)
    (hown : device.deviceId ≠ s.manager.ownDeviceId) (havailable : device.isAvailable = true)
    (htime : s.InTime name device.deviceId) :
    Tracks (finish { s with requests := s.requests.eraseIdx request } name (some device)) := by
  have hmap := fun other ↦ DiscoveryManager.serviceToDevice_found (m := s.manager) name other hown
  have hlist := fun deviceId ↦ DiscoveryManager.available_found (m := s.manager) name deviceId hown havailable
  have hresolution := lastResolution_finish { s with requests := s.requests.eraseIdx request } name
  refine ⟨?_, DiscoveryManager.keyed_found h.keyed name device, h.queued, ?_, ?_, ?_, ?_, ?_⟩
  · change (s.manager.found name device).isRunning = true
    rw [DiscoveryManager.isRunning_found]
    exact h.running
  · intro deviceId hlisted
    change ∃ other, (s.manager.found name device).serviceToDevice.get other = some deviceId
    rcases (hlist deviceId).mp hlisted with rfl | hbefore
    · exact ⟨name, by rw [hmap, if_pos rfl]⟩
    · obtain ⟨other, hother⟩ := h.advertised deviceId hbefore
      by_cases hne : other = name
      · rw [hne] at hother
        rcases htime.2 deviceId hother with rfl | ⟨-, ⟨third, id⟩, hitem, hthird, rfl⟩
        · exact ⟨name, by rw [hmap, if_pos rfl]⟩
        · exact ⟨third, by rw [hmap, if_neg hthird]; exact Dict.mem_items.mp hitem⟩
      · exact ⟨other, by rw [hmap, if_neg hne, hother]⟩
  · intro other deviceId hget
    change (s.manager.found name device).serviceToDevice.get other = some deviceId at hget
    rw [hmap] at hget
    by_cases hne : other = name
    · rw [if_pos hne, Option.some.injEq] at hget
      exact .inl ((hlist deviceId).mpr (.inl hget.symm))
    · rw [if_neg hne] at hget
      exact (h.available other deviceId hget).imp_left fun hbefore ↦ (hlist deviceId).mpr (.inr hbefore)
  · intro other deviceId hget
    change (s.manager.found name device).serviceToDevice.get other = some deviceId at hget
    change _ ∧ deviceId ≠ (s.manager.found name device).ownDeviceId
    rw [hmap] at hget
    rw [hresolution, DiscoveryManager.ownDeviceId_found]
    by_cases hne : other = name
    · rw [if_pos hne] at hget
      rw [if_pos hne]
      exact ⟨hget, Option.some.inj hget ▸ hown⟩
    · rw [if_neg hne] at hget
      rw [if_neg hne]
      exact h.resolved other deviceId hget
  · intro other deviceId hget
    change (s.manager.found name device).serviceToDevice.get other = some deviceId at hget
    rw [hmap] at hget
    by_cases hne : other = name
    · exact hne ▸ htime.1
    · rw [if_neg hne] at hget
      exact h.withdrawn other deviceId hget
  · intro other hadvertised deviceId hresolved hdiff
    change deviceId ≠ (s.manager.found name device).ownDeviceId at hdiff
    rw [DiscoveryManager.ownDeviceId_found] at hdiff
    change (s.manager.found name device).serviceToDevice.get other = some deviceId ∨ _
    rw [Option.mem_def, hresolution] at hresolved
    rw [hmap]
    by_cases hne : other = name
    · rw [if_pos hne] at hresolved
      rw [if_pos hne]
      exact .inl hresolved
    · rw [if_neg hne] at hresolved
      rw [if_neg hne]
      exact needed_of_ne h hname hne hadvertised deviceId hresolved hdiff

theorem tracks_finish {s : Discovery} (h : s.Tracks) {request : ℕ} {name : Text}
    {device : Option DiscoveredDevice} (hname : s.requests[request]? = some name)
    (havailable : ∀ d ∈ device, d.isAvailable = true)
    (horderly : OrderlyReply { s with requests := s.requests.eraseIdx request } name device) :
    Tracks (finish { s with requests := s.requests.eraseIdx request } name device) := by
  cases device with
  | none => exact tracks_nothing h hname horderly
  | some device =>
    have htime : s.InTime name device.deviceId := horderly
    by_cases hown : device.deviceId = s.manager.ownDeviceId
    · refine tracks_own h hname hown (Option.eq_none_iff_forall_ne_some.mpr fun old hget ↦ ?_)
      rcases htime.2 old hget with rfl | ⟨hne, -⟩
      · exact (h.resolved name device.deviceId hget).2 hown
      · exact hne hown
    · exact tracks_found h hname hown (havailable device rfl) htime

/-! ## Runs -/

theorem tracks_step {s : Discovery} (h : s.Tracks) {event : DiscoveryEvent} (horderly : s.Orderly event) :
    (s.step event).Tracks := by
  cases event with
  | change name change => exact tracks_onServiceStateChange h name change
  | start =>
    rw [step]
    split
    · exact h
    · next task ready hready =>
      rw [begin, if_neg (by simp [h.running])]
      obtain ⟨name, change⟩ := task
      cases change with
      | added => exact tracks_request h hready nofun
      | updated => exact tracks_request h hready nofun
      | removed =>
        have hhead : (⟨name, .removed⟩ : HandlerTask) ∈ s.ready.head? := by
          rw [hready]
          rfl
        exact tracks_removed h hready (horderly _ hhead rfl)
  | reply request info now =>
    rw [step]
    split
    · exact h
    · next name hname =>
      refine tracks_finish h hname (fun device hdevice ↦ ?_) (horderly name hname)
      obtain ⟨_, -, hparsed⟩ := Option.bind_eq_some_iff.mp hdevice
      exact DiscoveredDevice.isAvailable_of_fromServiceInfo hparsed

theorem accurate_of_tracks {s : Discovery} (h : s.Tracks) (hsettled : s.Settled) : s.Accurate := by
  have hremoval : ∀ name, ¬s.AwaitsRemoval name := fun name ↦ by
    rw [AwaitsRemoval, hsettled.1]
    exact List.not_mem_nil
  have hreply : ∀ name, ¬s.AwaitsReply name := fun name ↦ by
    rw [AwaitsReply, hsettled.1, hsettled.2]
    simp
  intro deviceId hown
  rw [DiscoveryManager.mem_getDevices h.keyed]
  constructor
  · intro havailable
    obtain ⟨name, hget⟩ := h.advertised deviceId havailable
    exact ⟨name, (h.withdrawn name deviceId hget).resolve_right (hremoval name),
      (h.resolved name deviceId hget).1⟩
  · rintro ⟨name, hadvertised, hresolved⟩
    have hget := (h.needed name hadvertised deviceId hresolved hown).resolve_right (hreply name)
    exact (h.available name deviceId hget).resolve_right (hremoval name)

/-- After an orderly run the list shows what is advertised whenever all tasks have finished. -/
theorem accurate_of_orderly (ownDeviceId : Text) (events : List DiscoveryEvent)
    (horderly : Always step Orderly (new ownDeviceId) events)
    (hsettled : (run step (new ownDeviceId) events).Settled) :
    (run step (new ownDeviceId) events).Accurate :=
  accurate_of_tracks
    (run_induction (P := Tracks) (fun _ _ h ↦ tracks_step h) (tracks_new ownDeviceId) horderly) hsettled

/-! ## Sample runs -/

def sampleInfo (deviceId : String) : ServiceInfo where
  name := lit "Ferry-phone._ferry._tcp.local."
  properties := ((∅ : Dict Bytes (Option Bytes)).set [0x76] (some [0x31])).set [0x69, 0x64]
    (some ((lit deviceId).map fun c ↦ UInt8.ofNat c.val))
  v4Addresses := [lit "127.0.0.1", lit "192.168.1.7"]
  v6Addresses := []
  port := 45455

def sampleService : Text := lit "Ferry-phone._ferry._tcp.local."

/-- A phone appears, is updated while the first request is awaited, and disappears. -/
def sampleVisit : List DiscoveryEvent :=
  [.change sampleService .added, .start, .change sampleService .updated,
    .reply 0 (some (sampleInfo "phone")) 1000, .start, .reply 0 none 4000,
    .change sampleService .removed, .start]

theorem accurate_of_orderly_sampleVisit :
    (run step (new (lit "laptop")) (sampleVisit.take 6)).Accurate ∧
      (run step (new (lit "laptop")) sampleVisit).Accurate :=
  ⟨accurate_of_orderly _ _ (by decide +kernel) (by decide +kernel),
    accurate_of_orderly _ _ (by decide +kernel) (by decide +kernel)⟩

/-- The phone disappears while the request is awaited, and the reply comes afterwards. -/
def sampleLateReply : List DiscoveryEvent :=
  [.change sampleService .added, .start, .change sampleService .removed, .start,
    .reply 0 (some (sampleInfo "phone")) 1000]

theorem mem_resolutions_of_lastResolution {s : Discovery} {name deviceId : Text}
    (h : s.lastResolution name = some deviceId) : (name, deviceId) ∈ s.resolutions := by
  obtain ⟨⟨other, id⟩, hfind, rfl⟩ := Option.map_eq_some_iff.mp h
  obtain rfl : other = name := by simpa using List.find?_some hfind
  exact List.mem_of_find?_eq_some hfind

/-- The phone stays on the list although no service advertises it. -/
theorem late_reply_stays_listed : ¬∀ (ownDeviceId : Text) (events : List DiscoveryEvent),
    (run step (new ownDeviceId) events).Settled → (run step (new ownDeviceId) events).Accurate := by
  intro h
  have hsettled : (run step (new (lit "laptop")) sampleLateReply).Settled := by decide +kernel
  obtain ⟨name, hadvertised, hresolved⟩ :=
    (h (lit "laptop") sampleLateReply hsettled (lit "phone") (by decide +kernel)).mp (by decide +kernel)
  have hresolutions : (run step (new (lit "laptop")) sampleLateReply).resolutions =
      [(sampleService, lit "phone")] := by decide +kernel
  have hname := mem_resolutions_of_lastResolution hresolved
  rw [hresolutions, List.mem_singleton] at hname
  obtain rfl := (Prod.mk.inj hname).1
  exact absurd hadvertised (by decide +kernel)

end Discovery

end Ferry
