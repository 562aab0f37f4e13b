import Ferry.Android.Discovery

/-!
# Services that are lost

What `onServiceLost` removes, and a resolution that completes after its service was lost.  Both are right
step by step exactly when the names that are matched are those of the lost service, no device has another
service besides, and no late resolution gives a device.
-/

namespace Ferry

open Kotlin Machine Text

namespace FerryDiscoveryEngine

/-! ## The property -/

/-- The device is in `deviceMap`. -/
def Lists (e : FerryDiscoveryEngine) (deviceId : Text) : Prop :=
  ∃ device, e.deviceMap.get deviceId = some device

/-- A service whose name is that of the lost one, up to its escapes, maps to the device. -/
def AdvertisedBy (e : FerryDiscoveryEngine) (lost deviceId : Text) : Prop :=
  ∃ name, unescape name = unescape lost ∧ e.serviceNameToDeviceId.get name = some deviceId

/-- Another service maps to the device. -/
def AdvertisedElsewhere (e : FerryDiscoveryEngine) (lost deviceId : Text) : Prop :=
  ∃ name, unescape name ≠ unescape lost ∧ e.serviceNameToDeviceId.get name = some deviceId

/-- The last callback about the service was its loss. -/
def IsLost (e : FerryDiscoveryEngine) (serviceName : Text) : Prop :=
  (e.callbacks.find? (unescape ·.1 = unescape serviceName)).map Prod.snd = some false

instance (e : FerryDiscoveryEngine) (serviceName : Text) : Decidable (e.IsLost serviceName) :=
  inferInstanceAs (Decidable (_ = _))

/-- A loss leaves the other services, and of the devices those that another service maps to.  A resolution
that completes after the loss of its service adds no device. -/
def RemovesOwn (e : FerryDiscoveryEngine) : NsdEvent → Prop
  | .serviceLost lost =>
    (∀ name, unescape name ≠ unescape lost → (e.onServiceLost lost).serviceNameToDeviceId.get name =
      e.serviceNameToDeviceId.get name) ∧
    ∀ deviceId, (e.onServiceLost lost).Lists deviceId ↔
      e.Lists deviceId ∧ e.AdvertisedElsewhere lost deviceId
  | .serviceResolved info => e.IsLost info.serviceName →
    ∀ deviceId, (e.step (.serviceResolved info)).Lists deviceId → e.Lists deviceId
  | .serviceFound _ | .resolveFailed | .restartDiscovery => True

/-- Only the names of the lost service match it, and each device is advertised either by this service or
by others.  A resolution that completes after the loss of its service gives no device, this phone or a
device that is listed. -/
def Separate (e : FerryDiscoveryEngine) : NsdEvent → Prop
  | .serviceLost lost =>
    (∀ name deviceId, e.serviceNameToDeviceId.get name = some deviceId → matchesLost lost name = true →
      unescape name = unescape lost) ∧
    ∀ deviceId, e.Lists deviceId → (e.AdvertisedBy lost deviceId ↔ ¬e.AdvertisedElsewhere lost deviceId)
  | .serviceResolved info => e.resolving ≠ none → e.IsLost info.serviceName →
    ∀ device ∈ DiscoveredDevice.fromNsdServiceInfo info,
      device.deviceId = e.deviceId ∨ e.Lists device.deviceId
  | .serviceFound _ | .resolveFailed | .restartDiscovery => True

/-! ## What is removed -/

theorem serviceNameToDeviceId_removeService (e : FerryDiscoveryEngine) (key name : Text) :
    (e.removeService key).serviceNameToDeviceId.get name =
      if name = key then none else e.serviceNameToDeviceId.get name := by
  unfold removeService
  split
  · next hnone =>
    by_cases h : name = key
    · rw [if_pos h, h, hnone]
    · rw [if_neg h]
  · exact Dict.get_pop _ _ _

theorem lists_removeService (e : FerryDiscoveryEngine) (key deviceId : Text) :
    (e.removeService key).Lists deviceId ↔
      e.Lists deviceId ∧ e.serviceNameToDeviceId.get key ≠ some deviceId := by
  unfold removeService Lists
  split
  · next hnone => simp [hnone]
  · next removed hremoved =>
    rw [Dict.get_pop, hremoved]
    by_cases h : deviceId = removed
    · simp [h]
    · simp [h, Ne.symm h]

/-- Removing names in turn removes them and the devices that they mapped to. -/
theorem foldl_removeService (keys : List Text) (e : FerryDiscoveryEngine) :
    (∀ name, (keys.foldl removeService e).serviceNameToDeviceId.get name =
      if name ∈ keys then none else e.serviceNameToDeviceId.get name) ∧
    ∀ deviceId, (keys.foldl removeService e).Lists deviceId ↔
      e.Lists deviceId ∧ ∀ key ∈ keys, e.serviceNameToDeviceId.get key ≠ some deviceId := by
  induction keys generalizing e with
  | nil => simp
  | cons key keys ih =>
    obtain ⟨hnames, hdevices⟩ := ih (e.removeService key)
    refine ⟨fun name ↦ ?_, fun deviceId ↦ ?_⟩
    · rw [List.foldl_cons, hnames, serviceNameToDeviceId_removeService]
      by_cases hkey : name = key
      · simp [hkey]
      · simp [hkey]
    · rw [List.foldl_cons, hdevices, lists_removeService, List.forall_mem_cons, and_assoc]
      refine and_congr_right fun _ ↦ and_congr_right fun hkey ↦ forall₂_congr fun other _ ↦ ?_
      rw [serviceNameToDeviceId_removeService]
      by_cases hother : other = key
      · rw [if_pos hother, hother]
        exact ⟨fun _ ↦ hkey, fun _ ↦ nofun⟩
      · rw [if_neg hother]

theorem mem_matchingKeys {e : FerryDiscoveryEngine} {lost name : Text} : name ∈ e.matchingKeys lost ↔
    matchesLost lost name = true ∧ ∃ deviceId, e.serviceNameToDeviceId.get name = some deviceId := by
  rw [matchingKeys, List.mem_filter, and_comm]
  refine and_congr_right fun _ ↦ ⟨fun h ↦ ?_, fun ⟨deviceId, h⟩ ↦ ?_⟩
  · obtain ⟨⟨key, deviceId⟩, hitem, rfl⟩ := List.mem_map.mp h
    exact ⟨deviceId, Dict.mem_items.mp hitem⟩
  · exact List.mem_map.mpr ⟨(name, deviceId), Dict.mem_items.mpr h, rfl⟩

theorem serviceNameToDeviceId_onServiceLost (e : FerryDiscoveryEngine) (lost name : Text) :
    (e.onServiceLost lost).serviceNameToDeviceId.get name =
      if matchesLost lost name then none else e.serviceNameToDeviceId.get name := by
  rw [onServiceLost, (foldl_removeService _ _).1]
  by_cases hmatch : matchesLost lost name = true
  · cases hname : e.serviceNameToDeviceId.get name <;> simp [mem_matchingKeys, hmatch, hname]
  · simp [mem_matchingKeys, hmatch]

theorem lists_onServiceLost (e : FerryDiscoveryEngine) (lost deviceId : Text) :
    (e.onServiceLost lost).Lists deviceId ↔ e.Lists deviceId ∧
      ∀ name, e.serviceNameToDeviceId.get name = some deviceId → matchesLost lost name = false := by
  rw [onServiceLost, (foldl_removeService _ _).2]
  refine and_congr_right fun _ ↦ ⟨fun h name hname ↦ ?_, fun h name hname hdevice ↦ ?_⟩
  · rw [← Bool.not_eq_true]
    exact fun hmatch ↦ h name (mem_matchingKeys.mpr ⟨hmatch, deviceId, hname⟩) hname
  · exact Bool.false_ne_true ((h name hdevice).symm.trans (mem_matchingKeys.mp hname).1)

theorem matchesLost_of_unescape {lost name : Text} (h : unescape name = unescape lost) :
    matchesLost lost name = true := by
  simp [matchesLost, h]

theorem removesOwn_serviceLost_iff (e : FerryDiscoveryEngine) (lost : Text) :
    e.RemovesOwn (.serviceLost lost) ↔ e.Separate (.serviceLost lost) := by
  have hnames : (∀ name, unescape name ≠ unescape lost →
      (e.onServiceLost lost).serviceNameToDeviceId.get name = e.serviceNameToDeviceId.get name) ↔
      ∀ name deviceId, e.serviceNameToDeviceId.get name = some deviceId → matchesLost lost name = true →
        unescape name = unescape lost := by
    simp only [serviceNameToDeviceId_onServiceLost]
    constructor
    · intro h name deviceId hname hmatch
      by_contra hother
      have hsame := h name hother
      rw [if_pos hmatch, hname] at hsame
      exact nomatch hsame
    · intro h name hother
      by_cases hmatch : matchesLost lost name = true
      · rw [if_pos hmatch]
        refine (Option.eq_none_iff_forall_ne_some.mpr fun deviceId hname ↦ ?_).symm
        exact hother (h name deviceId hname hmatch)
      · rw [if_neg hmatch]
  rw [RemovesOwn, Separate, hnames]
  refine and_congr_right fun honly ↦ forall_congr' fun deviceId ↦ ?_
  have hkept : (∀ name, e.serviceNameToDeviceId.get name = some deviceId → matchesLost lost name = false) ↔
      ¬e.AdvertisedBy lost deviceId := by
    constructor
    · rintro h ⟨name, hown, hname⟩
      exact Bool.false_ne_true ((h name hname).symm.trans (matchesLost_of_unescape hown))
    · intro h name hname
      rw [← Bool.not_eq_true]
      exact fun hmatch ↦ h ⟨name, honly name deviceId hname hmatch, hname⟩
  rw [lists_onServiceLost, hkept]
  tauto

/-! ## Late resolutions -/

@[simp] theorem lists_processNextResolve (e : FerryDiscoveryEngine) (deviceId : Text) :
    e.processNextResolve.Lists deviceId ↔ e.Lists deviceId := by
  unfold processNextResolve
  split <;> rfl

theorem lists_addDevice (e : FerryDiscoveryEngine) (serviceName : Text)
    (device : Option Kotlin.DiscoveredDevice) (deviceId : Text) :
    (e.addDevice serviceName device).Lists deviceId ↔ e.Lists deviceId ∨
      ∃ d ∈ device, d.deviceId ≠ e.deviceId ∧ d.deviceId = deviceId := by
  cases device with
  | none => simp [addDevice]
  | some d =>
    rw [addDevice]
    by_cases hown : d.deviceId = e.deviceId
    · simp [hown]
    · rw [if_neg hown, Lists, Dict.get_set]
      by_cases h : deviceId = d.deviceId
      · simp [h, hown]
      · simp [h, Ne.symm h, Lists]

theorem removesOwn_serviceResolved_iff (e : FerryDiscoveryEngine) (info : NsdServiceInfo) :
    e.RemovesOwn (.serviceResolved info) ↔ e.Separate (.serviceResolved info) := by
  rw [RemovesOwn, Separate, step]
  by_cases hresolving : e.resolving = none
  · simp [hresolving]
  · rw [if_neg hresolving]
    simp only [lists_processNextResolve, lists_addDevice, ne_eq, hresolving, not_false_eq_true,
      forall_const]
    refine forall_congr' fun _ ↦ ⟨fun h device hdevice ↦ ?_, fun h deviceId ↦ ?_⟩
    · by_contra hnew
      rw [not_or] at hnew
      exact hnew.2 (h device.deviceId (.inr ⟨device, hdevice, hnew.1, rfl⟩))
    · rintro (hlisted | ⟨device, hdevice, hown, rfl⟩)
      · exact hlisted
      · exact (h device hdevice).resolve_left hown

/-! ## Runs -/

theorem removesOwn_iff (e : FerryDiscoveryEngine) (event : NsdEvent) :
    e.RemovesOwn event ↔ e.Separate event := by
  cases event with
  | serviceLost lost => exact removesOwn_serviceLost_iff e lost
  | serviceResolved info => exact removesOwn_serviceResolved_iff e info
  | serviceFound | resolveFailed | restartDiscovery => exact Iff.rfl

/-- Every loss and every late resolution of a run is right exactly when every step is separate. -/
theorem losses_remove_own_iff (deviceId : Text) (events : List NsdEvent) :
    Always step RemovesOwn (new deviceId) events ↔ Always step Separate (new deviceId) events :=
  always_congr removesOwn_iff _ _

/-! ## A sample run -/

def sampleNsdInfo (serviceName deviceId : String) : NsdServiceInfo where
  serviceName := lit serviceName
  attributes := (∅ : Dict Text (Option Bytes)).set (lit "id")
    (some ((lit deviceId).map fun c ↦ UInt8.ofNat c.val))
  hostAddress := some (lit "192.168.1.7")
  port := 45455

/-- Two devices advertise the same name, so the platform numbers the second one.  The first is lost. -/
def sampleLoss : List NsdEvent :=
  [.serviceFound (lit "Ferry-peer"), .serviceResolved (sampleNsdInfo "Ferry-peer" "laptop"),
    .serviceFound (lit "Ferry-peer (2)"), .serviceResolved (sampleNsdInfo "Ferry-peer (2)" "desktop"),
    .serviceLost (lit "Ferry-peer")]

/-- The second device is not listed any more although its service was not lost. -/
theorem loss_removes_other_device :
    ¬∀ (deviceId : Text) (events : List NsdEvent), Always step RemovesOwn (new deviceId) events := by
  intro h
  have hlost := (h (lit "0123456789") sampleLoss).2.2.2.2.1
  have hdesktop := hlost.1 (lit "Ferry-peer (2)") (by decide +kernel)
  exact absurd hdesktop (by decide +kernel)

end FerryDiscoveryEngine

end Ferry
