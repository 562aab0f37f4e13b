import Ferry.Desktop.NotificationBridge

/-!
# The ids on record against the ids issued

The bridge runs against a server that gives the id it was asked to replace back and otherwise an id
that was never used. Beside the bridge stand two histories: the ids that the server has issued, and
the stores into the map. Against them the map holds for every notification the id that was issued
last for it, no two notifications share an id, and the entries stand in order of recency.
-/

namespace Ferry

open NotificationBridge

/-- The bridge beside what has happened so far, the latest first. -/
structure Desktop where
  bridge : NotificationBridge
  issued : List (String × ℕ)
  stored : List (String × ℚ)

namespace Desktop

/-- What may happen next. -/
inductive Event where
  | start (proxied answered : Bool)
  | post (ferryId appLabel title body : String) (clock : PostClock) (reply : NotifyReply)
  | remove (ferryId : String)
  | signal (signalName : String) (dbusId : Option ℕ)

/-- A bridge that has just been made, with the clock at `now`. -/
def opened (now : ℚ) : Desktop := { bridge := .new now, issued := [], stored := [] }

/-- The id that the server issued last for a notification. -/
def lastIssued (desktop : Desktop) (ferryId : String) : Option ℕ := desktop.issued.lookup ferryId

/-- The ids issued once the server was called. -/
def issuedAfter (desktop : Desktop) (ferryId : String) (calls : List BusCall)
    (reply : NotifyReply) : List (String × ℕ) :=
  match calls, reply.id? with
  | _ :: _, some dbusId => (ferryId, dbusId) :: desktop.issued
  | _, _ => desktop.issued

/-- The desktop after an event, and the calls to the server. -/
def step (desktop : Desktop) : Event → List BusCall × Desktop
  | .start proxied answered =>
    ([], { desktop with bridge := desktop.bridge.start proxied answered })
  | .post ferryId appLabel title body clock reply =>
    let (shown, calls, bridge) := desktop.bridge.post ferryId appLabel title body clock reply
    (calls,
      { bridge
        issued := desktop.issuedAfter ferryId calls reply
        stored := if shown then (ferryId, clock.stored) :: desktop.stored else desktop.stored })
  | .remove ferryId =>
    let (calls, bridge) := desktop.bridge.remove ferryId
    (calls, { desktop with bridge })
  | .signal signalName dbusId =>
    ([], { desktop with bridge := desktop.bridge.onDbusSignal signalName dbusId })

/-- The desktop after a run of events. -/
def run (desktop : Desktop) (events : List Event) : Desktop :=
  events.foldl (fun desktop event ↦ (desktop.step event).2) desktop

/-- The server gives the id that it is to replace back, and otherwise one that is not zero and was
never used. -/
def Honest (desktop : Desktop) : Event → Prop
  | .post ferryId _ _ _ _ reply =>
    ∀ dbusId, reply.id? = some dbusId →
      if desktop.bridge.getReplacesId ferryId = 0 then
        dbusId ≠ 0 ∧ ∀ old ∈ desktop.issued, old.2 ≠ dbusId
      else
        dbusId = desktop.bridge.getReplacesId ferryId
  | _ => True

/-- The server was honest in every event of a run. -/
def HonestRun : Desktop → List Event → Prop
  | _, [] => True
  | desktop, event :: events => desktop.Honest event ∧ HonestRun (desktop.step event).2 events

/-- Why an entry is no longer in the map after an event, by the history of stores that the event
leaves. -/
inductive Dropped (desktop : Desktop) (stored : List (String × ℚ)) (f : String) (entry : IdEntry) :
    Event → Prop
  | removed : Dropped desktop stored f entry (.remove f)
  | closed :
    Dropped desktop stored f entry (.signal "NotificationClosed" (some entry.dbusId))
  | expired (ferryId appLabel title body : String) (clock : PostClock) (reply : NotifyReply)
    (storedAt : ℚ) (hstored : stored.lookup f = some storedAt)
    (hlate : storedAt + lruTtlSecs < clock.expired) :
    Dropped desktop stored f entry (.post ferryId appLabel title body clock reply)
  | evicted (ferryId appLabel title body : String) (clock : PostClock) (reply : NotifyReply)
    (newer : List String) (hnodup : newer.Nodup) (hmany : newer.length = lruMax)
    (hnewer : ∀ g ∈ newer, (g = ferryId ∨ (desktop.bridge.idMap.get g).isSome) ∧
      (stored.map Prod.fst).idxOf g < (stored.map Prod.fst).idxOf f) :
    Dropped desktop stored f entry (.post ferryId appLabel title body clock reply)

/-! ## The map against the histories -/

/-- What holds between the map and the histories. -/
structure Sound (desktop : Desktop) : Prop where
  small : desktop.bridge.idMap.items.length ≤ lruMax
  recent : desktop.bridge.idMap.Recent (desktop.stored.map Prod.fst)
  recorded : ∀ f entry, desktop.bridge.idMap.get f = some entry →
    desktop.lastIssued f = some entry.dbusId
  dated : ∀ f entry, desktop.bridge.idMap.get f = some entry →
    ∃ storedAt, desktop.stored.lookup f = some storedAt ∧ entry.expiresAt = storedAt + lruTtlSecs
  nonzero : ∀ old ∈ desktop.issued, old.2 ≠ 0
  single : ∀ old ∈ desktop.issued, ∀ other ∈ desktop.issued, old.2 = other.2 → old.1 = other.1

theorem mem_of_lookup {β : Type} {f : String} {value : β} {pairs : List (String × β)}
    (h : pairs.lookup f = some value) : (f, value) ∈ pairs := by
  induction pairs with
  | nil => exact nomatch h
  | cons pair pairs ih =>
    obtain ⟨g, old⟩ := pair
    by_cases hfg : f = g
    · subst hfg
      rw [List.lookup_cons_self, Option.some.injEq] at h
      exact h ▸ List.mem_cons_self
    · rw [List.lookup_cons, beq_eq_false_iff_ne.mpr hfg] at h
      exact List.mem_cons_of_mem _ (ih h)

theorem lookup_cons_of_ne {β : Type} {f g : String} (value : β) {pairs : List (String × β)}
    (h : f ≠ g) : ((g, value) :: pairs).lookup f = pairs.lookup f := by
  rw [List.lookup_cons, beq_eq_false_iff_ne.mpr h]

variable {desktop : Desktop} {f g : String}

theorem sound_opened (now : ℚ) : (opened now).Sound where
  small := Nat.zero_le _
  recent := Dict.recent_empty _
  recorded := fun _ _ h ↦ nomatch h
  dated := fun _ _ h ↦ nomatch h
  nonzero := fun _ h ↦ nomatch h
  single := fun _ h ↦ nomatch h

/-- The id on record belongs to this notification alone. -/
theorem Sound.eq_of_issued (hsound : desktop.Sound) {dbusId : ℕ}
    (hlast : desktop.lastIssued f = some dbusId) (hissued : (g, dbusId) ∈ desktop.issued) : g = f :=
  hsound.single _ hissued _ (mem_of_lookup hlast) rfl

/-- No two notifications are on record with one id. -/
theorem Sound.injective (hsound : desktop.Sound) {entry entry' : IdEntry}
    (hf : desktop.bridge.idMap.get f = some entry) (hg : desktop.bridge.idMap.get g = some entry')
    (hid : entry.dbusId = entry'.dbusId) : f = g :=
  hsound.eq_of_issued (hsound.recorded g entry' hg)
    (hid ▸ mem_of_lookup (hsound.recorded f entry hf))

/-- Dropping entries leaves the rest as it was. -/
theorem Sound.of_sublist (hsound : desktop.Sound) {bridge : NotificationBridge}
    (hsub : bridge.idMap.items.Sublist desktop.bridge.idMap.items) :
    Sound { desktop with bridge } where
  small := hsub.length_le.trans hsound.small
  recent := hsound.recent.of_sublist hsub
  recorded := fun f entry h ↦
    hsound.recorded f entry (Dict.mem_items.mp (hsub.subset (Dict.mem_items.mpr h)))
  dated := fun f entry h ↦
    hsound.dated f entry (Dict.mem_items.mp (hsub.subset (Dict.mem_items.mpr h)))
  nonzero := hsound.nonzero
  single := hsound.single

/-- The server has issued an id for a notification that is not on record, or the one on record. -/
theorem Sound.issue (hsound : desktop.Sound) {dbusId : ℕ}
    (hhonest : if desktop.bridge.getReplacesId f = 0 then
        dbusId ≠ 0 ∧ ∀ old ∈ desktop.issued, old.2 ≠ dbusId
      else dbusId = desktop.bridge.getReplacesId f) :
    Sound { desktop with issued := (f, dbusId) :: desktop.issued } := by
  cases hget : desktop.bridge.idMap.get f with
  | none =>
    rw [if_pos (getReplacesId_of_get_none hget)] at hhonest
    refine ⟨hsound.small, hsound.recent, fun g entry hg ↦ ?_, hsound.dated, ?_, ?_⟩
    · have hne : g ≠ f := fun heq ↦ nomatch (heq ▸ hg).symm.trans hget
      exact (lookup_cons_of_ne dbusId hne).trans (hsound.recorded g entry hg)
    · exact List.forall_mem_cons.mpr ⟨hhonest.1, hsound.nonzero⟩
    · have hfresh : ∀ old ∈ desktop.issued, old.2 ≠ dbusId := hhonest.2
      intro old hold other hother heq
      rcases List.mem_cons.mp hold with rfl | hold
      · rcases List.mem_cons.mp hother with rfl | hother
        · rfl
        · exact absurd heq.symm (hfresh other hother)
      · rcases List.mem_cons.mp hother with rfl | hother
        · exact absurd heq (hfresh old hold)
        · exact hsound.single old hold other hother heq
  | some entry =>
    have hissued : (f, entry.dbusId) ∈ desktop.issued := mem_of_lookup (hsound.recorded f entry hget)
    have hnonzero : desktop.bridge.getReplacesId f ≠ 0 := by
      rw [getReplacesId_of_get hget]
      exact hsound.nonzero _ hissued
    rw [if_neg hnonzero, getReplacesId_of_get hget] at hhonest
    subst hhonest
    refine ⟨hsound.small, hsound.recent, fun g entry' hg ↦ ?_, hsound.dated, ?_, ?_⟩
    · by_cases hgf : g = f
      · subst hgf
        rw [hget, Option.some.injEq] at hg
        exact hg ▸ List.lookup_cons_self
      · exact (lookup_cons_of_ne _ hgf).trans (hsound.recorded g entry' hg)
    · exact List.forall_mem_cons.mpr ⟨hsound.nonzero _ hissued, hsound.nonzero⟩
    · have hknown : ∀ old ∈ (f, entry.dbusId) :: desktop.issued, old ∈ desktop.issued :=
        fun old hold ↦ (List.mem_cons.mp hold).elim (fun heq ↦ heq ▸ hissued) id
      exact fun old hold other hother ↦ hsound.single old (hknown old hold) other (hknown other hother)

/-- The id that was issued last is stored. -/
theorem Sound.storeId (hsound : desktop.Sound) {dbusId : ℕ} (now : ℚ)
    (hlast : desktop.lastIssued f = some dbusId) :
    Sound { desktop with
      bridge := desktop.bridge.storeId f dbusId now
      stored := (f, now) :: desktop.stored } := by
  have hentry (g : String) (entry : IdEntry)
      (h : (desktop.bridge.storeId f dbusId now).idMap.get g = some entry) :
      (g = f ∧ entry = { dbusId, expiresAt := now + lruTtlSecs }) ∨
        (g ≠ f ∧ desktop.bridge.idMap.get g = some entry) := by
    have hstored := Dict.get_of_get_trim h
    rw [Dict.get_store] at hstored
    split at hstored
    · next heq => exact .inl ⟨heq, (Option.some.inj hstored).symm⟩
    · next hne => exact .inr ⟨hne, hstored⟩
  refine ⟨Dict.length_trim_le _ _, (hsound.recent.store f _).trim lruMax, ?_, ?_, hsound.nonzero,
    hsound.single⟩
  · intro g entry h
    rcases hentry g entry h with ⟨rfl, rfl⟩ | ⟨_, hget⟩
    · exact hlast
    · exact hsound.recorded g entry hget
  · intro g entry h
    rcases hentry g entry h with ⟨rfl, rfl⟩ | ⟨hne, hget⟩
    · exact ⟨now, List.lookup_cons_self, rfl⟩
    · obtain ⟨storedAt, hstored, hexpires⟩ := hsound.dated g entry hget
      exact ⟨storedAt, (lookup_cons_of_ne now hne).trans hstored, hexpires⟩

/-! ## One event -/

theorem issuedAfter_nil (reply : NotifyReply) : desktop.issuedAfter f [] reply = desktop.issued := rfl

theorem issuedAfter_of_id {reply : NotifyReply} {dbusId : ℕ} (call : BusCall)
    (h : reply.id? = some dbusId) :
    desktop.issuedAfter f [call] reply = (f, dbusId) :: desktop.issued := by
  simp [issuedAfter, h]

theorem issuedAfter_of_id_none {reply : NotifyReply} (calls : List BusCall)
    (h : reply.id? = none) : desktop.issuedAfter f calls reply = desktop.issued := by
  cases calls <;> simp [issuedAfter, h]

/-- A bridge with the same map is as sound. -/
theorem Sound.of_idMap_eq (hsound : desktop.Sound) {bridge : NotificationBridge}
    (hidMap : bridge.idMap = desktop.bridge.idMap) : Sound { desktop with bridge } :=
  hsound.of_sublist (hidMap ▸ List.Sublist.refl _)

theorem Sound.post (hsound : desktop.Sound) {ferryId appLabel title body : String}
    {clock : PostClock} {reply : NotifyReply}
    (hhonest : desktop.Honest (.post ferryId appLabel title body clock reply)) :
    (desktop.step (.post ferryId appLabel title body clock reply)).2.Sound := by
  have hcases := post_cases desktop.bridge ferryId appLabel title body clock reply
  unfold Desktop.step
  rcases hafter : desktop.bridge.post ferryId appLabel title body clock reply with
    ⟨shown, calls, bridge⟩
  rw [hafter] at hcases
  simp only [hafter]
  rcases hcases with ⟨hshown, hcalls, hidMap⟩ | ⟨hcalls, hreply⟩
  · dsimp only at hshown hcalls hidMap
    rw [hshown, hcalls, issuedAfter_nil]
    exact hsound.of_idMap_eq hidMap
  · dsimp only at hcalls hreply
    rw [hcalls]
    rcases hreply with ⟨issuedId, hid, hshown, hidMap⟩ | ⟨hid, hshown, hidMap⟩
    · have hanswer : reply.id? = some issuedId := hid ▸ rfl
      have hissued := hsound.issue (hhonest issuedId hanswer)
      have hstored := hissued.storeId clock.stored List.lookup_cons_self
      rw [hshown, issuedAfter_of_id _ hanswer]
      refine hstored.of_sublist ?_
      rw [hidMap]
      exact items_expireOld_sublist _
    · rw [hshown]
      cases hanswer : reply.id? with
      | none =>
        rw [issuedAfter_of_id_none _ hanswer]
        exact hsound.of_idMap_eq hidMap
      | some dbusId =>
        rw [issuedAfter_of_id _ hanswer]
        exact (hsound.issue (hhonest dbusId hanswer)).of_idMap_eq hidMap

theorem onDbusSignal_sublist (bridge : NotificationBridge) (signalName : String)
    (dbusId : Option ℕ) :
    (bridge.onDbusSignal signalName dbusId).idMap.items.Sublist bridge.idMap.items := by
  unfold onDbusSignal
  split
  · cases dbusId with
    | none => exact List.Sublist.refl _
    | some dbusId => exact items_removeByDbusId_sublist dbusId
  · exact List.Sublist.refl _

theorem Sound.step (hsound : desktop.Sound) {event : Event} (hhonest : desktop.Honest event) :
    (desktop.step event).2.Sound := by
  cases event with
  | start proxied answered => exact hsound.of_idMap_eq (start_idMap proxied answered)
  | post ferryId appLabel title body clock reply => exact hsound.post hhonest
  | remove ferryId =>
    rcases remove_cases desktop.bridge ferryId with ⟨_, hidMap⟩ | ⟨entry, _, _, hidMap⟩
    · exact hsound.of_idMap_eq hidMap
    · have hsub : (desktop.bridge.remove ferryId).2.idMap.items.Sublist
          desktop.bridge.idMap.items := by
        rw [hidMap, Dict.items_pop]
        exact List.filter_sublist
      exact hsound.of_sublist hsub
  | signal signalName dbusId => exact hsound.of_sublist (onDbusSignal_sublist _ signalName dbusId)

/-- A notification is shown for the post that is handled, in place of the one that was issued last
for it, if there is one. -/
theorem Sound.notify_of_step (hsound : desktop.Sound) {event : Event}
    {notification : DesktopNotification} (hcall : .notify notification ∈ (desktop.step event).1) :
    ∃ ferryId appLabel title body clock reply,
      event = .post ferryId appLabel title body clock reply ∧
        (notification.replacesId = 0 ∨
          desktop.lastIssued ferryId = some notification.replacesId) := by
  cases event with
  | start proxied answered => exact nomatch hcall
  | signal signalName dbusId => exact nomatch hcall
  | remove ferryId =>
    change _ ∈ (desktop.bridge.remove ferryId).1 at hcall
    rcases remove_cases desktop.bridge ferryId with ⟨hcalls, _⟩ | ⟨entry, _, hcalls, _⟩
    · rw [hcalls] at hcall
      exact nomatch hcall
    · rw [hcalls] at hcall
      exact nomatch List.mem_singleton.mp hcall
  | post ferryId appLabel title body clock reply =>
    change _ ∈ (desktop.bridge.post ferryId appLabel title body clock reply).2.1 at hcall
    refine ⟨ferryId, appLabel, title, body, clock, reply, rfl, ?_⟩
    rcases post_cases desktop.bridge ferryId appLabel title body clock reply with
      ⟨_, hcalls, _⟩ | ⟨hcalls, _⟩
    · rw [hcalls] at hcall
      exact nomatch hcall
    · rw [hcalls, List.mem_singleton, BusCall.notify.injEq] at hcall
      subst hcall
      cases hget : desktop.bridge.idMap.get ferryId with
      | none => exact .inl (getReplacesId_of_get_none hget)
      | some entry =>
        refine .inr ?_
        rw [hsound.recorded ferryId entry hget]
        exact congrArg some (getReplacesId_of_get hget).symm

/-- A notification is closed for the removal that is handled, and it is the one issued last for
it. -/
theorem Sound.close_of_step (hsound : desktop.Sound) {event : Event} {dbusId : ℕ}
    (hcall : .closeNotification dbusId ∈ (desktop.step event).1) :
    ∃ ferryId, event = .remove ferryId ∧ desktop.lastIssued ferryId = some dbusId := by
  cases event with
  | start proxied answered => exact nomatch hcall
  | signal signalName dbusId => exact nomatch hcall
  | remove ferryId =>
    change _ ∈ (desktop.bridge.remove ferryId).1 at hcall
    refine ⟨ferryId, rfl, ?_⟩
    rcases remove_cases desktop.bridge ferryId with ⟨hcalls, _⟩ | ⟨entry, hget, hcalls, _⟩
    · rw [hcalls] at hcall
      exact nomatch hcall
    · rw [hcalls, List.mem_singleton, BusCall.closeNotification.injEq] at hcall
      exact hcall ▸ hsound.recorded ferryId entry hget
  | post ferryId appLabel title body clock reply =>
    change _ ∈ (desktop.bridge.post ferryId appLabel title body clock reply).2.1 at hcall
    rcases post_cases desktop.bridge ferryId appLabel title body clock reply with
      ⟨_, hcalls, _⟩ | ⟨hcalls, _⟩
    · rw [hcalls] at hcall
      exact nomatch hcall
    · rw [hcalls] at hcall
      exact nomatch List.mem_singleton.mp hcall

theorem Sound.dropped_of_post (hsound : desktop.Sound)
    {ferryId appLabel title body : String} {clock : PostClock} {reply : NotifyReply}
    (hhonest : desktop.Honest (.post ferryId appLabel title body clock reply)) {entry : IdEntry}
    (hget : desktop.bridge.idMap.get f = some entry)
    (hgone : (desktop.step (.post ferryId appLabel title body clock reply)).2.bridge.idMap.get f =
      none) :
    Dropped desktop (desktop.step (.post ferryId appLabel title body clock reply)).2.stored f entry
      (.post ferryId appLabel title body clock reply) := by
  have hcases := post_cases desktop.bridge ferryId appLabel title body clock reply
  unfold Desktop.step at hgone ⊢
  rcases hafter : desktop.bridge.post ferryId appLabel title body clock reply with
    ⟨shown, calls, bridge⟩
  rw [hafter] at hcases
  simp only [hafter] at hgone ⊢
  dsimp only at hcases
  rcases hcases with ⟨_, _, hidMap⟩ | ⟨_, ⟨issuedId, hid, hshown, hidMap⟩ | ⟨_, _, hidMap⟩⟩
  · rw [hidMap, hget] at hgone
    cases hgone
  · rw [hidMap] at hgone
    rw [hshown, if_pos rfl]
    have hanswer : reply.id? = some issuedId := hid ▸ rfl
    have hstored := (hsound.issue (hhonest issuedId hanswer)).storeId clock.stored
      List.lookup_cons_self
    cases hkept : (desktop.bridge.storeId ferryId issuedId clock.stored).idMap.get f with
    | none =>
      have hthere : ((desktop.bridge.idMap.store ferryId
          { dbusId := issuedId, expiresAt := clock.stored + lruTtlSecs }).get f).isSome := by
        rw [Dict.get_store]
        split
        · rfl
        · rw [hget, Option.isSome_some]
      obtain ⟨newer, hnodup, hmany, hnewer⟩ :=
        (hsound.recent.store ferryId _).exists_newer hthere hkept
      refine .evicted _ _ _ _ _ _ newer hnodup hmany fun g hg ↦ ⟨?_, (hnewer g hg).2⟩
      have hin := (hnewer g hg).1
      rw [Dict.get_store] at hin
      split at hin
      · next heq => exact .inl heq
      · exact .inr hin
    | some kept =>
      obtain ⟨storedAt, hwhen, hexpires⟩ := hstored.dated f kept hkept
      have hlate : kept.expiresAt < clock.expired := by
        by_contra hfresh
        rw [get_expireOld clock.expired hkept hfresh] at hgone
        cases hgone
      exact .expired _ _ _ _ _ _ storedAt hwhen (hexpires ▸ hlate)
  · rw [hidMap, hget] at hgone
    cases hgone

theorem Sound.dropped_of_step (hsound : desktop.Sound) {event : Event}
    (hhonest : desktop.Honest event) {entry : IdEntry}
    (hget : desktop.bridge.idMap.get f = some entry)
    (hgone : (desktop.step event).2.bridge.idMap.get f = none) :
    Dropped desktop (desktop.step event).2.stored f entry event := by
  cases event with
  | start proxied answered =>
    change (desktop.bridge.start proxied answered).idMap.get f = none at hgone
    rw [start_idMap, hget] at hgone
    cases hgone
  | post ferryId appLabel title body clock reply => exact hsound.dropped_of_post hhonest hget hgone
  | remove ferryId =>
    change (desktop.bridge.remove ferryId).2.idMap.get f = none at hgone
    rcases remove_cases desktop.bridge ferryId with ⟨_, hidMap⟩ | ⟨_, _, _, hidMap⟩
    · rw [hidMap, hget] at hgone
      cases hgone
    · rw [hidMap, Dict.get_pop, hget] at hgone
      split at hgone
      · next heq => exact heq ▸ .removed
      · cases hgone
  | signal signalName dbusId =>
    change (desktop.bridge.onDbusSignal signalName dbusId).idMap.get f = none at hgone
    unfold onDbusSignal at hgone
    split at hgone
    · next hname =>
      cases dbusId with
      | none => cases hgone.symm.trans hget
      | some dbusId =>
        have hown : entry.dbusId = dbusId := by
          by_contra hother
          cases hgone.symm.trans (get_removeByDbusId dbusId hget hother)
        exact hname ▸ hown ▸ .closed
    · cases hgone.symm.trans hget

/-! ## A run -/

theorem Sound.run (hsound : desktop.Sound) {events : List Event}
    (hhonest : desktop.HonestRun events) : (desktop.run events).Sound := by
  induction events generalizing desktop with
  | nil => exact hsound
  | cons event events ih => exact ih (hsound.step hhonest.1) hhonest.2

/-- In every run against an honest server the map stays small and holds no id twice, a post takes
the place of nothing but the notification issued last for the same id, a removal closes that one
only, and an entry goes only by its removal, its close signal, its age, or `lruMax` later stores. -/
theorem run_ids {now : ℚ} {events : List Event} (hhonest : (opened now).HonestRun events) :
    let desktop := (opened now).run events
    desktop.bridge.idMap.items.length ≤ lruMax ∧
    (∀ f g entry entry', desktop.bridge.idMap.get f = some entry →
      desktop.bridge.idMap.get g = some entry' → entry.dbusId = entry'.dbusId → f = g) ∧
    ∀ event, desktop.Honest event →
      (∀ notification, .notify notification ∈ (desktop.step event).1 →
        ∃ ferryId appLabel title body clock reply,
          event = .post ferryId appLabel title body clock reply ∧
          (notification.replacesId = 0 ∨
            desktop.lastIssued ferryId = some notification.replacesId ∧
            ∀ g, (g, notification.replacesId) ∈ desktop.issued → g = ferryId)) ∧
      (∀ dbusId, .closeNotification dbusId ∈ (desktop.step event).1 →
        ∃ ferryId, event = .remove ferryId ∧ desktop.lastIssued ferryId = some dbusId ∧
          ∀ g, (g, dbusId) ∈ desktop.issued → g = ferryId) ∧
      ∀ f entry, desktop.bridge.idMap.get f = some entry →
        (desktop.step event).2.bridge.idMap.get f = none →
        Dropped desktop (desktop.step event).2.stored f entry event := by
  intro desktop
  have hsound : desktop.Sound := (sound_opened now).run hhonest
  refine ⟨hsound.small, fun f g entry entry' hf hg hid ↦ hsound.injective hf hg hid,
    fun event hevent ↦ ⟨fun notification hcall ↦ ?_, fun dbusId hcall ↦ ?_,
      fun f entry hget hgone ↦ hsound.dropped_of_step hevent hget hgone⟩⟩
  · obtain ⟨ferryId, appLabel, title, body, clock, reply, rfl, hreplaced⟩ :=
      hsound.notify_of_step hcall
    exact ⟨ferryId, appLabel, title, body, clock, reply, rfl,
      hreplaced.imp_right fun hlast ↦ ⟨hlast, fun g hg ↦ hsound.eq_of_issued hlast hg⟩⟩
  · obtain ⟨ferryId, rfl, hlast⟩ := hsound.close_of_step hcall
    exact ⟨ferryId, rfl, hlast, fun g hg ↦ hsound.eq_of_issued hlast hg⟩

/-- Two notifications are shown, and the first one is posted again after a reply was lost. -/
def sampleEvents : List Event :=
  [.start true true,
    .post "mail" "Mail" "Hello" "" ⟨1, 1, 1⟩ (.issued 7),
    .post "chat" "Chat" "<b>" "Hi & bye" ⟨2, 2, 2⟩ (.lost 8),
    .post "chat" "Chat" "<b>" "Hi & bye" ⟨3, 3, 3⟩ (.issued 9),
    .post "mail" "Mail" "Hello" "again" ⟨4, 4, 4⟩ (.issued 7)]

theorem honestRun_sampleEvents : (opened 0).HonestRun sampleEvents := by
  refine ⟨trivial, ?_, ?_, ?_, ?_, trivial⟩ <;>
  · intro dbusId hid
    obtain rfl := Option.some.inj hid
    decide +kernel

theorem run_ids_sample :
    let desktop := (opened 0).run sampleEvents
    desktop.bridge.idMap.items.length ≤ lruMax ∧
    desktop.issued = [("mail", 7), ("chat", 9), ("chat", 8), ("mail", 7)] ∧
    (desktop.step (.remove "chat")).1 = [.closeNotification 9] ∧
    (∃ ferryId, Event.remove "chat" = .remove ferryId ∧ desktop.lastIssued ferryId = some 9 ∧
      ∀ g, (g, 9) ∈ desktop.issued → g = ferryId) ∧
    Dropped desktop desktop.stored "chat" ⟨9, 3 + lruTtlSecs⟩ (.remove "chat") := by
  have hids := run_ids honestRun_sampleEvents
  have hclosed : (((opened 0).run sampleEvents).step (.remove "chat")).1 =
      [.closeNotification 9] := by decide +kernel
  refine ⟨hids.1, by decide +kernel, hclosed, ?_, ?_⟩
  · exact (hids.2.2 (.remove "chat") trivial).2.1 9 (hclosed ▸ List.mem_singleton_self _)
  · exact (hids.2.2 (.remove "chat") trivial).2.2 "chat" _ (by decide +kernel) (by decide +kernel)

end Desktop

end Ferry
