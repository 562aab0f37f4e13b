import Ferry.Base.Recency
import Ferry.Desktop.TokenBucket

/-!
# The notification bridge of the desktop

Mirrored notifications are handed to the notification server of the desktop, which answers with an
id of its own. The bridge remembers the id under the id of the phone's notification, so that a
later post replaces the notification on screen and a removal closes it. The memory is bounded, it
forgets entries that are too old, and it forgets what the server reports as closed.
-/

namespace Ferry

/-- `_IdEntry`. -/
structure IdEntry where
  dbusId : ℕ
  expiresAt : ℚ
deriving DecidableEq

/-- The arguments of a `Notify` call. -/
structure DesktopNotification where
  appName : String
  replacesId : ℕ
  icon : String
  summary : String
  body : String
  actions : List String
  hints : List (String × String)
  timeout : ℕ
deriving DecidableEq

/-- A call to the notification server. -/
inductive BusCall where
  | notify (notification : DesktopNotification)
  | closeNotification (dbusId : ℕ)
deriving DecidableEq

/-- What becomes of a `Notify` call.  A reply may be lost after the server has acted. -/
inductive NotifyReply where
  | issued (dbusId : ℕ)
  | lost (dbusId : ℕ)
  | failed
deriving DecidableEq

/-- The id that the server issued, whether or not the caller learns of it. -/
def NotifyReply.id? : NotifyReply → Option ℕ
  | .issued dbusId => some dbusId
  | .lost dbusId => some dbusId
  | .failed => none

/-- The clock readings of one `post`: of the token bucket, of `_store_id` and of `_expire_old`. -/
structure PostClock where
  consumed : ℚ
  stored : ℚ
  expired : ℚ
deriving DecidableEq

/-- `NotificationBridge`. -/
structure NotificationBridge where
  proxy : Bool
  available : Bool
  idMap : Dict String IdEntry
  rate : TokenBucket

namespace NotificationBridge

/-- `_LRU_MAX`. -/
def lruMax : ℕ := 200

/-- `_LRU_TTL_SECS`. -/
def lruTtlSecs : ℚ := 4 * 3600

/-- `_RL_BURST`. -/
def rlBurst : ℚ := 10

/-- `_RL_RATE`. -/
def rlRate : ℚ := 1

/-- `text.replace(old, new)` for a single character. -/
def replaceChar (old : Char) (new text : String) : String :=
  String.ofList (text.toList.flatMap fun c ↦ if c = old then new.toList else [c])

/-- `_escape`, which is `html.escape` with `quote=False`. -/
def escape (text : String) : String :=
  replaceChar '>' "&gt;" (replaceChar '<' "&lt;" (replaceChar '&' "&amp;" text))

/-- `NotificationBridge.__init__`, with the clock at `now`. -/
def new (now : ℚ) : NotificationBridge :=
  { proxy := false, available := false, idMap := ∅, rate := TokenBucket.new rlBurst rlRate now }

/-- `start`, by whether the proxy was made and whether it then answered. -/
def start (bridge : NotificationBridge) (proxied answered : Bool) : NotificationBridge :=
  if proxied then
    { bridge with proxy := true, available := answered }
  else
    { bridge with available := false }

/-- `_get_replaces_id`. -/
def getReplacesId (bridge : NotificationBridge) (ferryId : String) : ℕ :=
  match bridge.idMap.get ferryId with
  | some entry => entry.dbusId
  | none => 0

/-- `_store_id`, with the clock at `now`. -/
def storeId (bridge : NotificationBridge) (ferryId : String) (dbusId : ℕ) (now : ℚ) :
    NotificationBridge :=
  { bridge with
    idMap := (bridge.idMap.store ferryId { dbusId, expiresAt := now + lruTtlSecs }).trim lruMax }

/-- `_remove_by_dbus_id`. -/
def removeByDbusId (bridge : NotificationBridge) (dbusId : ℕ) : NotificationBridge :=
  let toDelete := (bridge.idMap.items.filter fun item ↦ item.2.dbusId = dbusId).map Prod.fst
  { bridge with idMap := bridge.idMap.popAll toDelete }

/-- `_expire_old`, with the clock at `now`. -/
def expireOld (bridge : NotificationBridge) (now : ℚ) : NotificationBridge :=
  let expired := (bridge.idMap.items.filter fun item ↦ item.2.expiresAt < now).map Prod.fst
  { bridge with idMap := bridge.idMap.popAll expired }

/-- `_on_dbus_signal`; a signal whose parameters are malformed carries no id. -/
def onDbusSignal (bridge : NotificationBridge) (signalName : String) (dbusId : Option ℕ) :
    NotificationBridge :=
  if signalName = "NotificationClosed" then
    match dbusId with
    | some dbusId => bridge.removeByDbusId dbusId
    | none => bridge
  else
    bridge

/-- The arguments of the call by which `post` shows a notification. -/
def notification (replacesId : ℕ) (appLabel title body : String) : DesktopNotification where
  appName := "Raven"
  replacesId := replacesId
  icon := ""
  summary := escape appLabel
  body := if body = "" then escape title else escape title ++ "\n" ++ escape body
  actions := []
  hints := []
  timeout := 5000

/-- `post`: its answer, the calls to the server and the bridge that is left. -/
def post (bridge : NotificationBridge) (ferryId appLabel title body : String) (clock : PostClock)
    (reply : NotifyReply) : Bool × List BusCall × NotificationBridge :=
  if bridge.available ∧ bridge.proxy then
    let (allowed, rate) := bridge.rate.consume clock.consumed
    if allowed then
      let replacesId := bridge.getReplacesId ferryId
      let calls := [.notify (notification replacesId appLabel title body)]
      match reply with
      | .issued issuedId =>
        let stored := { bridge with rate }.storeId ferryId issuedId clock.stored
        (true, calls, stored.expireOld clock.expired)
      | .lost _ => (false, calls, { bridge with rate })
      | .failed => (false, calls, { bridge with rate })
    else
      (false, [], { bridge with rate })
  else
    (false, [], bridge)

/-- `remove`.  A call that fails is only logged, so its outcome changes nothing. -/
def remove (bridge : NotificationBridge) (ferryId : String) : List BusCall × NotificationBridge :=
  if bridge.available ∧ bridge.proxy then
    match bridge.idMap.get ferryId with
    | none => ([], bridge)
    | some entry =>
      ([.closeNotification entry.dbusId], { bridge with idMap := bridge.idMap.pop ferryId })
  else
    ([], bridge)

/-! ## Markup -/

theorem mem_replaceChar {old c : Char} {new text : String} :
    c ∈ (replaceChar old new text).toList ↔
      (c ∈ text.toList ∧ c ≠ old) ∨ (old ∈ text.toList ∧ c ∈ new.toList) := by
  simp only [replaceChar, String.toList_ofList, List.mem_flatMap]
  constructor
  · rintro ⟨c', hmem, hc⟩
    split at hc
    · next heq => exact .inr ⟨heq ▸ hmem, hc⟩
    · next hne =>
      obtain rfl := List.mem_singleton.mp hc
      exact .inl ⟨hmem, hne⟩
  · rintro (⟨hmem, hne⟩ | ⟨hmem, hc⟩)
    · exact ⟨c, hmem, by simp [hne]⟩
    · exact ⟨old, hmem, by simpa using hc⟩

/-- Nothing that is shown opens or closes a tag. -/
theorem escape_not_markup (text : String) :
    '<' ∉ (escape text).toList ∧ '>' ∉ (escape text).toList := by
  simp [escape, mem_replaceChar]

/-! ## One operation -/

variable {bridge : NotificationBridge} {f g : String} {entry : IdEntry}

theorem getReplacesId_of_get (h : bridge.idMap.get f = some entry) :
    bridge.getReplacesId f = entry.dbusId := by
  simp [getReplacesId, h]

theorem getReplacesId_of_get_none (h : bridge.idMap.get f = none) :
    bridge.getReplacesId f = 0 := by
  simp [getReplacesId, h]

theorem start_idMap (proxied answered : Bool) :
    (bridge.start proxied answered).idMap = bridge.idMap := by
  unfold start
  split <;> rfl

theorem mem_fst_filter_iff {d : Dict String IdEntry} {p : IdEntry → Bool} :
    f ∈ (d.items.filter fun item ↦ p item.2).map Prod.fst ↔
      ∃ entry, d.get f = some entry ∧ p entry = true := by
  constructor
  · intro hmem
    obtain ⟨⟨_, entry⟩, hitem, rfl⟩ := List.mem_map.mp hmem
    obtain ⟨hitem, hp⟩ := List.mem_filter.mp hitem
    exact ⟨entry, Dict.mem_items.mp hitem, hp⟩
  · rintro ⟨entry, hget, hp⟩
    exact List.mem_map.mpr ⟨(f, entry), List.mem_filter.mpr ⟨Dict.mem_items.mpr hget, hp⟩, rfl⟩

/-- Only the entries of the closed notification go. -/
theorem get_removeByDbusId (dbusId : ℕ) (hget : bridge.idMap.get f = some entry)
    (hother : entry.dbusId ≠ dbusId) :
    (bridge.removeByDbusId dbusId).idMap.get f = some entry := by
  refine (Dict.get_popAll _ _ f).trans ?_
  rw [if_neg, hget]
  intro hmem
  obtain ⟨entry', hget', hp⟩ :=
    (mem_fst_filter_iff (p := fun entry ↦ decide (entry.dbusId = dbusId))).mp hmem
  rw [hget, Option.some.injEq] at hget'
  exact hother (hget' ▸ of_decide_eq_true hp)

/-- Only entries past their time go. -/
theorem get_expireOld (now : ℚ) (hget : bridge.idMap.get f = some entry)
    (hfresh : ¬entry.expiresAt < now) : (bridge.expireOld now).idMap.get f = some entry := by
  refine (Dict.get_popAll _ _ f).trans ?_
  rw [if_neg, hget]
  intro hmem
  obtain ⟨entry', hget', hp⟩ :=
    (mem_fst_filter_iff (p := fun entry ↦ decide (entry.expiresAt < now))).mp hmem
  rw [hget, Option.some.injEq] at hget'
  exact hfresh (hget' ▸ of_decide_eq_true hp)

theorem items_removeByDbusId_sublist (dbusId : ℕ) :
    (bridge.removeByDbusId dbusId).idMap.items.Sublist bridge.idMap.items :=
  Dict.items_popAll_sublist _ _

theorem items_expireOld_sublist (now : ℚ) :
    (bridge.expireOld now).idMap.items.Sublist bridge.idMap.items :=
  Dict.items_popAll_sublist _ _

/-- What `post` can do: nothing is called, or the notification is shown in place of the one that is
on record, and the id is stored if it comes back. -/
theorem post_cases (bridge : NotificationBridge) (ferryId appLabel title body : String)
    (clock : PostClock) (reply : NotifyReply) :
    let after := bridge.post ferryId appLabel title body clock reply
    (after.1 = false ∧ after.2.1 = [] ∧ after.2.2.idMap = bridge.idMap) ∨
    (after.2.1 =
        [.notify (notification (bridge.getReplacesId ferryId) appLabel title body)] ∧
      ((∃ issuedId, reply = .issued issuedId ∧ after.1 = true ∧
          after.2.2.idMap =
            ((bridge.storeId ferryId issuedId clock.stored).expireOld clock.expired).idMap) ∨
        (∀ issuedId, reply ≠ .issued issuedId) ∧ after.1 = false ∧
          after.2.2.idMap = bridge.idMap)) := by
  unfold post
  by_cases hready : bridge.available ∧ bridge.proxy
  · rw [if_pos hready]
    cases hconsumed : bridge.rate.consume clock.consumed with
    | mk allowed rate =>
      cases allowed with
      | false => exact .inl ⟨rfl, rfl, rfl⟩
      | true =>
        cases reply with
        | issued issuedId => exact .inr ⟨rfl, .inl ⟨issuedId, rfl, rfl, rfl⟩⟩
        | lost issuedId => exact .inr ⟨rfl, .inr ⟨by simp, rfl, rfl⟩⟩
        | failed => exact .inr ⟨rfl, .inr ⟨by simp, rfl, rfl⟩⟩
  · rw [if_neg hready]
    exact .inl ⟨rfl, rfl, rfl⟩

theorem remove_cases (bridge : NotificationBridge) (ferryId : String) :
    ((bridge.remove ferryId).1 = [] ∧ (bridge.remove ferryId).2.idMap = bridge.idMap) ∨
    ∃ entry, bridge.idMap.get ferryId = some entry ∧
      (bridge.remove ferryId).1 = [.closeNotification entry.dbusId] ∧
      (bridge.remove ferryId).2.idMap = bridge.idMap.pop ferryId := by
  unfold remove
  by_cases hready : bridge.available ∧ bridge.proxy
  · rw [if_pos hready]
    cases hget : bridge.idMap.get ferryId with
    | none => exact .inl ⟨rfl, rfl⟩
    | some entry => exact .inr ⟨entry, rfl, rfl, rfl⟩
  · rw [if_neg hready]
    exact .inl ⟨rfl, rfl⟩

end NotificationBridge

end Ferry
