import Mathlib.Data.List.Nodup
import Mathlib.Tactic.Common
import Ferry.Ipc.Server

/-!
# Delivery to the clients

Broadcasts keep their order as long as none overtakes another: one that comes to a client where an older
one waits has to wait as well, and a client is not given up while a broadcast that waits at it has others
to serve.
-/

namespace Ferry

open Machine

namespace Ipc

namespace IpcServer

variable {s t : IpcServer} {c x event : ℕ} {remaining : List ℕ}

/-! ## The condition -/

/-- No broadcast that waits at the client has a connected client left. -/
def Released (s : IpcServer) (c : ℕ) : Prop :=
  ∀ b ∈ s.broadcasts, b.waitsAt = c → ∀ x ∈ b.remaining, (s.clients x).closed = true

instance (s : IpcServer) (c : ℕ) : Decidable (s.Released c) :=
  inferInstanceAs (Decidable (∀ b ∈ s.broadcasts, _ → ∀ x ∈ b.remaining, _))

/-- A broadcast over the clients waits at each client that is not released. -/
def Queues : List ℕ → List Drain → IpcServer → Prop
  | [], _, _ => True
  | c :: remaining, drains, s =>
    if (s.clients c).closed then Queues remaining drains s
    else match drains with
      | .returns :: drains => s.Released c ∧ Queues remaining drains s
      | .raises :: drains => s.Released c ∧ Queues remaining drains (s.close c)
      | _ => True

instance decidableQueues : ∀ remaining drains s, Decidable (Queues remaining drains s)
  | [], _, _ => isTrue trivial
  | c :: remaining, drains, s => by
    unfold Queues
    have returns (drains : List Drain) := decidableQueues remaining drains s
    have raises (drains : List Drain) := decidableQueues remaining drains (s.close c)
    split
    · exact returns drains
    · split <;> infer_instance

/-- The broadcasts that are woken wait where they have to. -/
def QueuesAll (failed : Bool) : List Broadcast → List (List Drain) → IpcServer → Prop
  | [], _, _ => True
  | b :: bs, drains, s =>
    Queues b.remaining (drains.headD []) (s.woken b failed) ∧
      QueuesAll failed bs drains.tail (s.resume b failed (drains.headD []))

instance decidableQueuesAll (failed : Bool) : ∀ bs drains s, Decidable (QueuesAll failed bs drains s)
  | [], _, _ => isTrue trivial
  | b :: bs, drains, s =>
    have := decidableQueuesAll failed bs drains.tail (s.resume b failed (drains.headD []))
    inferInstanceAs (Decidable (_ ∧ _))

/-- No client subscribes twice, no broadcast overtakes another at a client, and no client is given up
that is not released. -/
def Steady (s : IpcServer) : IpcEvent → Prop
  | .emit => True
  | .start drains => Queues s.subscribed drains s
  | .wake c failed drains => QueuesAll failed (s.waiters c) drains s
  | .subscribe c drain => (s.clients c).joined = none ∧ (drain = .raises → s.Released c)
  | .command c drain => drain = .raises → s.Released c
  | .replied c failed => failed = true → s.Released c
  | .disconnect c => s.Released c

instance (s : IpcServer) : ∀ event, Decidable (s.Steady event)
  | .emit => isTrue trivial
  | .start drains => inferInstanceAs (Decidable (Queues s.subscribed drains s))
  | .wake c failed drains => inferInstanceAs (Decidable (QueuesAll failed (s.waiters c) drains s))
  | .subscribe _ _ => inferInstanceAs (Decidable (_ ∧ (_ → _)))
  | .command _ _ | .replied _ _ => inferInstanceAs (Decidable (_ → _))
  | .disconnect c => inferInstanceAs (Decidable (s.Released c))

/-! ## Writing and closing -/

@[simp] theorem closed_write (s : IpcServer) (c x : ℕ) (frame : IpcFrame) :
    ((s.write c frame).clients x).closed = (s.clients x).closed := by
  rw [write, onClient]
  by_cases h : x = c
  · simp [h]
  · simp [h]

@[simp] theorem joined_write (s : IpcServer) (c x : ℕ) (frame : IpcFrame) :
    ((s.write c frame).clients x).joined = (s.clients x).joined := by
  rw [write, onClient]
  by_cases h : x = c
  · simp [h]
  · simp [h]

theorem written_write (s : IpcServer) (c x : ℕ) (frame : IpcFrame) :
    ((s.write c frame).clients x).written =
      (s.clients x).written ++ if x = c then [frame] else [] := by
  rw [write, onClient]
  by_cases h : x = c
  · simp [h]
  · simp [h]

theorem closed_close (s : IpcServer) (c x : ℕ) :
    ((s.close c).clients x).closed = (decide (x = c) || (s.clients x).closed) := by
  rw [close, onClient]
  by_cases h : x = c
  · simp [h]
  · simp [h]

@[simp] theorem joined_close (s : IpcServer) (c x : ℕ) :
    ((s.close c).clients x).joined = (s.clients x).joined := by
  rw [close, onClient]
  by_cases h : x = c
  · simp [h]
  · simp [h]

@[simp] theorem written_close (s : IpcServer) (c x : ℕ) :
    ((s.close c).clients x).written = (s.clients x).written := by
  rw [close, onClient]
  by_cases h : x = c
  · simp [h]
  · simp [h]

/-- The clients of a list that are connected. -/
def live (s : IpcServer) (l : List ℕ) : List ℕ := l.filter fun x ↦ !(s.clients x).closed

theorem mem_live {l : List ℕ} : x ∈ s.live l ↔ x ∈ l ∧ (s.clients x).closed = false := by
  simp [live]

theorem live_sublist (s : IpcServer) (l : List ℕ) : (s.live l).Sublist l := List.filter_sublist

theorem live_cons_of_open (h : (s.clients c).closed = false) (l : List ℕ) :
    s.live (c :: l) = c :: s.live l := by
  simp [live, h]

theorem live_congr (h : ∀ x, (t.clients x).closed = (s.clients x).closed) : t.live = s.live := by
  funext l
  simp [live, h]

/-- Closing clients leaves fewer that are connected. -/
theorem live_sublist_of_closes (h : ∀ x, (s.clients x).closed = true → (t.clients x).closed = true)
    (l : List ℕ) : (t.live l).Sublist (s.live l) := by
  refine List.monotone_filter_right l fun x hx ↦ ?_
  cases hclosed : (s.clients x).closed with
  | false => rfl
  | true => simp [h x hclosed] at hx

theorem released_iff : s.Released c ↔ ∀ b ∈ s.broadcasts, b.waitsAt = c → s.live b.remaining = [] := by
  simp [Released, live]

/-! ## The order of the broadcasts -/

/-- The broadcasts that wait, and the list of clients.  A newer broadcast is behind the client at which an
older one waits.  The broadcasts at the client `woken` are about to go on. -/
structure Shape (s : IpcServer) (woken : Option ℕ) : Prop where
  subscribed : s.subscribed.Nodup
  joined : ∀ x ∈ s.subscribed, (s.clients x).joined ≠ none
  member : ∀ x, (s.clients x).closed = false → (s.clients x).joined ≠ none → x ∈ s.subscribed
  nodup : ∀ b ∈ s.broadcasts, (b.waitsAt :: b.remaining).Nodup
  dead : ∀ b ∈ s.broadcasts, ∀ x ∈ b.dead, (s.clients x).closed = true
  listed : ∀ b ∈ s.broadcasts, (s.live b.remaining).Sublist s.subscribed
  order : ∀ a ∈ s.broadcasts, ∀ b ∈ s.broadcasts, a.event < b.event → s.live a.remaining ≠ [] →
    (a.waitsAt :: s.live a.remaining).Sublist (b.waitsAt :: b.remaining)
  connected : ∀ b ∈ s.broadcasts, s.live b.remaining ≠ [] → woken ≠ some b.waitsAt →
    (s.clients b.waitsAt).closed = false ∧ (b.waitsAt :: s.live b.remaining).Sublist s.subscribed
  distinct : s.broadcasts.Pairwise fun a b ↦ a.event ≠ b.event
  queue : s.broadcasts.Pairwise fun a b ↦ a.waitsAt = b.waitsAt → a.event < b.event

/-- A broadcast that runs and has the clients `remaining` left. -/
structure Serves (s : IpcServer) (event : ℕ) (remaining : List ℕ) : Prop where
  nodup : remaining.Nodup
  fresh : ∀ b ∈ s.broadcasts, b.event ≠ event
  listed : (s.live remaining).Sublist s.subscribed
  older : ∀ a ∈ s.broadcasts, a.event < event → s.live a.remaining ≠ [] →
    (s.clients a.waitsAt).closed = false ∧ (a.waitsAt :: s.live a.remaining).Sublist remaining
  newer : ∀ b ∈ s.broadcasts, event < b.event → (s.live remaining).Sublist b.remaining

variable {woken : Option ℕ}

theorem Shape.congr (h : s.Shape woken) (hclosed : ∀ x, (t.clients x).closed = (s.clients x).closed)
    (hjoined : ∀ x, (t.clients x).joined = (s.clients x).joined)
    (hsubscribed : t.subscribed = s.subscribed) (hbroadcasts : t.broadcasts = s.broadcasts) :
    t.Shape woken := by
  constructor
  · rw [hsubscribed]
    exact h.subscribed
  · simpa only [hsubscribed, hjoined] using h.joined
  · simpa only [hsubscribed, hjoined, hclosed] using h.member
  · rw [hbroadcasts]
    exact h.nodup
  · simpa only [hbroadcasts, hclosed] using h.dead
  · rw [hbroadcasts, hsubscribed, live_congr hclosed]
    exact h.listed
  · rw [hbroadcasts, live_congr hclosed]
    exact h.order
  · simp only [hbroadcasts, hsubscribed, live_congr hclosed, hclosed]
    exact h.connected
  · rw [hbroadcasts]
    exact h.distinct
  · rw [hbroadcasts]
    exact h.queue

theorem Serves.congr (h : s.Serves event remaining)
    (hclosed : ∀ x, (t.clients x).closed = (s.clients x).closed)
    (hsubscribed : t.subscribed = s.subscribed) (hbroadcasts : t.broadcasts = s.broadcasts) :
    t.Serves event remaining := by
  constructor
  · exact h.nodup
  · rw [hbroadcasts]
    exact h.fresh
  · rw [hsubscribed, live_congr hclosed]
    exact h.listed
  · simp only [hbroadcasts, live_congr hclosed, hclosed]
    exact h.older
  · rw [hbroadcasts, live_congr hclosed]
    exact h.newer

theorem Shape.write (h : s.Shape woken) (c : ℕ) (frame : IpcFrame) : (s.write c frame).Shape woken :=
  h.congr (fun x ↦ closed_write s c x frame) (fun x ↦ joined_write s c x frame) rfl rfl

theorem Serves.write (h : s.Serves event remaining) (c : ℕ) (frame : IpcFrame) :
    (s.write c frame).Serves event remaining :=
  h.congr (fun x ↦ closed_write s c x frame) rfl rfl

theorem closes_close (s : IpcServer) (c : ℕ) :
    ∀ x, (s.clients x).closed = true → ((s.close c).clients x).closed = true := by
  intro x hx
  rw [closed_close, hx, Bool.or_true]

theorem ne_nil_of_close {l : List ℕ} (h : (s.close c).live l ≠ []) : s.live l ≠ [] := by
  intro hnil
  have hsub := live_sublist_of_closes (closes_close s c) l
  rw [hnil] at hsub
  exact h (List.sublist_nil.mp hsub)

/-- Giving up a client that is released, or whose broadcasts are woken. -/
theorem Shape.close (h : s.Shape woken) (hreleased : s.Released c ∨ woken = some c) :
    (s.close c).Shape woken := by
  have hsub := live_sublist_of_closes (closes_close s c)
  refine ⟨h.subscribed, ?_, ?_, h.nodup, ?_, ?_, ?_, ?_, h.distinct, h.queue⟩
  · intro x hx
    rw [joined_close]
    exact h.joined x hx
  · intro x hx hjoined
    rw [closed_close, Bool.or_eq_false_iff] at hx
    rw [joined_close] at hjoined
    exact h.member x hx.2 hjoined
  · exact fun b hb x hx ↦ closes_close s c x (h.dead b hb x hx)
  · exact fun b hb ↦ (hsub b.remaining).trans (h.listed b hb)
  · intro a ha b hb hlt hne
    exact ((hsub a.remaining).cons_cons a.waitsAt).trans (h.order a ha b hb hlt (ne_nil_of_close hne))
  · intro b hb hne hwoken
    obtain ⟨hopen, hlisted⟩ := h.connected b hb (ne_nil_of_close hne) hwoken
    have hother : b.waitsAt ≠ c := by
      rintro rfl
      rcases hreleased with hreleased | hsame
      · exact ne_nil_of_close hne (released_iff.mp hreleased b hb rfl)
      · exact hwoken hsame
    exact ⟨by rw [closed_close, hopen]; simp [hother],
      ((hsub b.remaining).cons_cons b.waitsAt).trans hlisted⟩

theorem Serves.close (h : s.Serves event remaining)
    (hpass : ∀ a ∈ s.broadcasts, a.event < event → s.live a.remaining ≠ [] → a.waitsAt ≠ c) :
    (s.close c).Serves event remaining := by
  have hsub := live_sublist_of_closes (closes_close s c)
  refine ⟨h.nodup, h.fresh, (hsub remaining).trans h.listed, ?_, ?_⟩
  · intro a ha hlt hne
    obtain ⟨hopen, holder⟩ := h.older a ha hlt (ne_nil_of_close hne)
    have hother := hpass a ha hlt (ne_nil_of_close hne)
    exact ⟨by rw [closed_close, hopen]; simp [hother],
      ((hsub a.remaining).cons_cons a.waitsAt).trans holder⟩
  · exact fun b hb hlt ↦ (hsub remaining).trans (h.newer b hb hlt)

/-- The broadcast passes a client at which no older one with clients left waits. -/
theorem Serves.pass (h : s.Serves event (c :: remaining))
    (hpass : ∀ a ∈ s.broadcasts, a.event < event → s.live a.remaining ≠ [] → a.waitsAt ≠ c) :
    s.Serves event remaining := by
  have hsub : (s.live remaining).Sublist (s.live (c :: remaining)) :=
    (List.sublist_cons_self c remaining).filter _
  refine ⟨h.nodup.of_cons, h.fresh, hsub.trans h.listed, ?_, ?_⟩
  · intro a ha hlt hne
    obtain ⟨hopen, holder⟩ := h.older a ha hlt hne
    exact ⟨hopen, List.Sublist.of_cons_of_ne (hpass a ha hlt hne) holder⟩
  · exact fun b hb hlt ↦ hsub.trans (h.newer b hb hlt)

/-- The state with a broadcast that begins to wait. -/
def waiting (s : IpcServer) (b : Broadcast) : IpcServer := { s with broadcasts := s.broadcasts ++ [b] }

/-- A broadcast waits at the client to which it has just written. -/
theorem Shape.waiting (h : s.Shape woken) (hserves : s.Serves event (c :: remaining))
    (hopen : (s.clients c).closed = false) {dead : List ℕ}
    (hdead : ∀ x ∈ dead, (s.clients x).closed = true) :
    (s.waiting ⟨event, c, remaining, dead⟩).Shape woken := by
  have hlive := live_cons_of_open hopen remaining
  have hmem : ∀ b ∈ s.broadcasts ++ [⟨event, c, remaining, dead⟩],
      b ∈ s.broadcasts ∨ b = ⟨event, c, remaining, dead⟩ := fun b hb ↦
    (List.mem_append.mp hb).imp_right List.mem_singleton.mp
  have hlisted : (c :: s.live remaining).Sublist s.subscribed := hlive ▸ hserves.listed
  refine ⟨h.subscribed, h.joined, h.member, ?_, ?_, ?_, ?_, ?_, ?_, ?_⟩
  · intro b hb
    rcases hmem b hb with hb | rfl
    · exact h.nodup b hb
    · exact hserves.nodup
  · intro b hb
    rcases hmem b hb with hb | rfl
    · exact h.dead b hb
    · exact hdead
  · intro b hb
    rcases hmem b hb with hb | rfl
    · exact h.listed b hb
    · exact (List.sublist_cons_self c _).trans hlisted
  · intro a ha b hb hlt hne
    rcases hmem a ha with ha | rfl
    · rcases hmem b hb with hb | rfl
      · exact h.order a ha b hb hlt hne
      · exact (hserves.older a ha hlt hne).2
    · rcases hmem b hb with hb | rfl
      · have hnewer := hserves.newer b hb hlt
        rw [hlive] at hnewer
        exact hnewer.cons b.waitsAt
      · exact absurd hlt (Nat.lt_irrefl _)
  · intro b hb hne hwoken
    rcases hmem b hb with hb | rfl
    · exact h.connected b hb hne hwoken
    · exact ⟨hopen, hlisted⟩
  · refine List.pairwise_append.mpr ⟨h.distinct, List.pairwise_singleton _ _, fun a ha b hb ↦ ?_⟩
    obtain rfl := List.mem_singleton.mp hb
    exact hserves.fresh a ha
  · refine List.pairwise_append.mpr ⟨h.queue, List.pairwise_singleton _ _, fun a ha b hb hsame ↦ ?_⟩
    obtain rfl := List.mem_singleton.mp hb
    refine Nat.lt_of_not_le fun hle ↦ ?_
    -- A newer one that waits here has been served this client before.
    have hlt : event < a.event := Nat.lt_of_le_of_ne hle (hserves.fresh a ha).symm
    have hnewer := hserves.newer a ha hlt
    rw [hlive] at hnewer
    have hnodup := h.nodup a ha
    rw [show a.waitsAt = c from hsame] at hnodup
    exact (List.nodup_cons.mp hnodup).1 (hnewer.subset List.mem_cons_self)

theorem mem_foldl_erase {dead l : List ℕ} (hx : x ∉ dead) : x ∈ dead.foldl List.erase l ↔ x ∈ l := by
  induction dead generalizing l with
  | nil => exact Iff.rfl
  | cons y dead ih =>
    rw [List.mem_cons, not_or] at hx
    rw [List.foldl_cons, ih hx.2, List.mem_erase_of_ne hx.1]

theorem foldl_erase_sublist (dead l : List ℕ) : (dead.foldl List.erase l).Sublist l := by
  induction dead generalizing l with
  | nil => exact List.Sublist.refl l
  | cons y dead ih => exact (ih (l.erase y)).trans List.erase_sublist

theorem Sublist.foldl_erase {dead l l' : List ℕ} (h : l.Sublist l') (hdead : ∀ x ∈ l, x ∉ dead) :
    l.Sublist (dead.foldl List.erase l') := by
  induction dead generalizing l' with
  | nil => exact h
  | cons y dead ih =>
    apply ih _ fun x hx ↦ List.not_mem_of_not_mem_cons (hdead x hx)
    have hy : y ∉ l := fun hmem ↦ hdead y hmem List.mem_cons_self
    have herase := h.erase y
    rwa [List.erase_of_not_mem hy] at herase

/-- Closed clients are taken off the list. -/
theorem Shape.removeDead (h : s.Shape woken) {dead : List ℕ}
    (hdead : ∀ x ∈ dead, (s.clients x).closed = true) : (s.removeDead dead).Shape woken := by
  have hlive : ∀ l : List ℕ, ∀ x ∈ s.live l, x ∉ dead := by
    intro l x hx hmem
    exact Bool.false_ne_true ((mem_live.mp hx).2.symm.trans (hdead x hmem))
  refine ⟨h.subscribed.sublist (foldl_erase_sublist _ _), ?_, ?_, h.nodup, h.dead, ?_, h.order, ?_,
    h.distinct, h.queue⟩
  · exact fun x hx ↦ h.joined x ((foldl_erase_sublist _ _).subset hx)
  · intro x hx hjoined
    have hmem : x ∉ dead := fun hmem ↦ Bool.false_ne_true (hx.symm.trans (hdead x hmem))
    exact (mem_foldl_erase hmem).mpr (h.member x hx hjoined)
  · exact fun b hb ↦ Sublist.foldl_erase (h.listed b hb) (hlive b.remaining)
  · intro b hb hne hwoken
    obtain ⟨hopen, hlisted⟩ := h.connected b hb hne hwoken
    refine ⟨hopen, Sublist.foldl_erase hlisted fun x hx ↦ ?_⟩
    rcases List.mem_cons.mp hx with rfl | hx
    · exact fun hmem ↦ Bool.false_ne_true (hopen.symm.trans (hdead _ hmem))
    · exact hlive b.remaining x hx

/-! ## The events of a client -/

/-- The client gets every event of `owed` that is not before its first one, the next one first.  `first`
was not emitted when it subscribed. -/
structure Receives (s : IpcServer) (owed : ℕ → Prop) (x frames first : ℕ) : Prop where
  snapshot : ((s.clients x).written.drop frames).head? = some .snapshot
  events : ∃ n, first + n ≤ s.emitted ∧ (s.eventsOf x).filter (first ≤ ·) = List.range' first n ∧
    ∀ k, first ≤ k → (owed k ↔ first + n ≤ k ∧ k < s.emitted)

/-- The events that a broadcast which waits or has not started is to write to a client. -/
def Owed (s : IpcServer) (x k : ℕ) : Prop :=
  k ∈ s.ready ∨ ∃ b ∈ s.broadcasts, b.event = k ∧ x ∈ b.remaining

/-- Every connected client that subscribed receives its events, those of the running broadcast included. -/
structure Account (s : IpcServer) (running : ℕ → ℕ → Prop) : Prop where
  past : ∀ x, ∀ k ∈ s.eventsOf x, k < s.emitted
  receives : ∀ x frames first, (s.clients x).closed = false →
    (s.clients x).joined = some (frames, first) →
    s.Receives (fun k ↦ s.Owed x k ∨ running x k) x frames first

theorem head?_drop_append {α : Type} {l l' : List α} {n : ℕ} {a : α} (h : (l.drop n).head? = some a) :
    ((l ++ l').drop n).head? = some a := by
  rw [List.head?_drop] at h ⊢
  rw [List.getElem?_append_left (List.getElem?_eq_some_iff.mp h).1, h]

theorem eventsOf_write (s : IpcServer) (c x event : ℕ) : (s.write c (.event event)).eventsOf x =
    s.eventsOf x ++ if x = c then [event] else [] := by
  rw [eventsOf, written_write, List.filterMap_append, eventsOf]
  by_cases h : x = c
  · simp [h]
  · simp [h]

/-- A client gets the next event that it is owed. -/
theorem Receives.write {owed owed' : ℕ → Prop} {frames first : ℕ} (h : s.Receives owed c frames first)
    (hemitted : event < s.emitted) (howed : owed event) (hnext : ∀ k, first ≤ k → owed k → event ≤ k)
    (howed' : ∀ k, owed' k ↔ owed k ∧ k ≠ event) :
    (s.write c (.event event)).Receives owed' c frames first := by
  obtain ⟨n, hn, hevents, hall⟩ := h.events
  constructor
  · rw [written_write]
    exact head?_drop_append h.snapshot
  · rw [eventsOf_write, if_pos rfl, List.filter_append, hevents]
    by_cases hfirst : first ≤ event
    · have hevent : event = first + n := by
        have hle := (hall event hfirst).mp howed
        have hpending : owed (first + n) := (hall (first + n) (Nat.le_add_right _ _)).mpr
          ⟨Nat.le_refl _, Nat.lt_of_le_of_lt hle.1 hemitted⟩
        exact Nat.le_antisymm (hnext _ (Nat.le_add_right _ _) hpending) hle.1
      refine ⟨n + 1, by rw [hevent] at hemitted; exact hemitted, ?_, fun k hk ↦ ?_⟩
      · rw [List.range'_1_concat, ← hevent]
        simp [hfirst]
      · rw [howed', hall k hk]
        constructor
        · rintro ⟨⟨hle, hlt⟩, hne⟩
          exact ⟨by omega, hlt⟩
        · rintro ⟨hle, hlt⟩
          exact ⟨⟨by omega, hlt⟩, by omega⟩
    · refine ⟨n, hn, by simp [hfirst], fun k hk ↦ ?_⟩
      rw [howed', hall k hk]
      exact and_iff_left fun heq ↦ hfirst (heq ▸ hk)

theorem Receives.congr {owed owed' : ℕ → Prop} {frames first : ℕ} (h : s.Receives owed x frames first)
    (hwritten : (t.clients x).written = (s.clients x).written) (hemitted : t.emitted = s.emitted)
    (howed : ∀ k, first ≤ k → (owed' k ↔ owed k)) : t.Receives owed' x frames first := by
  obtain ⟨n, hn, hevents, hall⟩ := h.events
  refine ⟨by rw [hwritten]; exact h.snapshot, n, by rw [hemitted]; exact hn, ?_, fun k hk ↦ ?_⟩
  · rw [eventsOf, hwritten]
    exact hevents
  · rw [howed k hk, hall k hk, hemitted]

/-- The clients that a running broadcast has left. -/
def Running (event : ℕ) (remaining : List ℕ) (x k : ℕ) : Prop := k = event ∧ x ∈ remaining

/-- A broadcast writes to a connected client. -/
theorem Account.write (h : s.Account (Running event (c :: remaining)))
    (hserves : s.Serves event (c :: remaining)) (hopen : (s.clients c).closed = false)
    (hemitted : event < s.emitted) (hready : ∀ k ∈ s.ready, event < k) :
    (s.write c (.event event)).Account (Running event remaining) := by
  have hnodup := List.nodup_cons.mp hserves.nodup
  -- An older broadcast has no event for the client left, because it waits before it or at it.
  have hnext : ∀ k, s.Owed c k → event < k := by
    rintro k (hk | ⟨b, hb, rfl, hmem⟩)
    · exact hready k hk
    · refine Nat.lt_of_le_of_ne (Nat.le_of_not_lt fun hlt ↦ ?_) (hserves.fresh b hb).symm
      have hlive : c ∈ s.live b.remaining := mem_live.mpr ⟨hmem, hopen⟩
      have hsub := (hserves.older b hb hlt (List.ne_nil_of_mem hlive)).2
      have hdisjoint := hsub.nodup hserves.nodup
      by_cases hsame : b.waitsAt = c
      · exact (List.nodup_cons.mp hdisjoint).1 (hsame ▸ hlive)
      · have hrest := (List.Sublist.of_cons_of_ne hsame hsub).subset (List.mem_cons_of_mem _ hlive)
        exact hnodup.1 hrest
  constructor
  · intro x k hk
    rw [eventsOf_write] at hk
    rcases List.mem_append.mp hk with hk | hk
    · exact h.past x k hk
    · split at hk
      · rwa [List.mem_singleton.mp hk]
      · exact absurd hk List.not_mem_nil
  · intro x frames first hx hjoined
    rw [closed_write] at hx
    rw [joined_write] at hjoined
    have hreceives := h.receives x frames first hx hjoined
    by_cases hxc : x = c
    · subst hxc
      refine hreceives.write hemitted (.inr ⟨rfl, List.mem_cons_self⟩) ?_ fun k ↦ ?_
      · rintro k - (hk | ⟨rfl, -⟩)
        · exact Nat.le_of_lt (hnext k hk)
        · exact Nat.le_refl _
      · constructor
        · rintro (hk | ⟨-, hmem⟩)
          · exact ⟨.inl hk, (Nat.ne_of_lt (hnext k hk)).symm⟩
          · exact absurd hmem hnodup.1
        · rintro ⟨hk | ⟨heq, -⟩, hne⟩
          · exact .inl hk
          · exact absurd heq hne
    · refine hreceives.congr ?_ rfl fun k _ ↦ ?_
      · rw [written_write, if_neg hxc, List.append_nil]
      · simp only [Running, List.mem_cons, hxc, false_or]
        exact Iff.rfl

/-- Changes that connected clients do not notice. -/
theorem Account.congr {running running' : ℕ → ℕ → Prop} (h : s.Account running)
    (hopen : ∀ x, (t.clients x).closed = false → (s.clients x).closed = false)
    (hjoined : ∀ x, (t.clients x).joined = (s.clients x).joined)
    (hwritten : ∀ x, (t.clients x).written = (s.clients x).written) (hemitted : t.emitted = s.emitted)
    (howed : ∀ x, (t.clients x).closed = false →
      ∀ k, (t.Owed x k ∨ running' x k) ↔ (s.Owed x k ∨ running x k)) : t.Account running' := by
  constructor
  · intro x k hk
    rw [eventsOf, hwritten] at hk
    rw [hemitted]
    exact h.past x k hk
  · intro x frames first hx hj
    rw [hjoined] at hj
    exact (h.receives x frames first (hopen x hx) hj).congr (hwritten x) hemitted fun k _ ↦ howed x hx k

theorem Account.close {running : ℕ → ℕ → Prop} (h : s.Account running) (c : ℕ) :
    (s.close c).Account running := by
  refine h.congr (fun x hx ↦ ?_) (joined_close s c) (written_close s c) rfl fun x _ k ↦ Iff.rfl
  rw [closed_close, Bool.or_eq_false_iff] at hx
  exact hx.2

/-! ## One broadcast -/

/-- What holds between two segments of the broadcasts. -/
structure Sound (s : IpcServer) (woken : Option ℕ) (started : ℕ) : Prop where
  shape : s.Shape woken
  ready : s.ready = List.range' started (s.emitted - started)
  bound : started ≤ s.emitted
  before : ∀ b ∈ s.broadcasts, b.event < started

theorem Sound.lt_of_mem_ready {started : ℕ} (h : s.Sound woken started) (hevent : event < started) :
    ∀ k ∈ s.ready, event < k := by
  intro k hk
  rw [h.ready, List.mem_range'_1] at hk
  exact Nat.lt_of_lt_of_le hevent hk.1

theorem Sound.congr {started : ℕ} (h : s.Sound woken started) (hshape : t.Shape woken)
    (hready : t.ready = s.ready) (hemitted : t.emitted = s.emitted)
    (hbefore : ∀ b ∈ t.broadcasts, b.event < started) : t.Sound woken started where
  shape := hshape
  ready := by rw [hready, hemitted, h.ready]
  bound := by rw [hemitted]; exact h.bound
  before := hbefore

theorem queues_congr {drains : List Drain} (h : Queues remaining drains s)
    (hclosed : ∀ x, (t.clients x).closed = (s.clients x).closed) (hbroadcasts : t.broadcasts = s.broadcasts) :
    Queues remaining drains t := by
  induction remaining generalizing s t drains with
  | nil => trivial
  | cons c remaining ih =>
    have hreleased : s.Released c → t.Released c := by
      intro hreleased b hb hc x hx
      rw [hclosed]
      exact hreleased b (hbroadcasts ▸ hb) hc x hx
    unfold Queues at h ⊢
    rw [hclosed]
    by_cases hc : (s.clients c).closed = true
    · rw [if_pos hc] at h ⊢
      exact ih h hclosed hbroadcasts
    · rw [if_neg hc] at h ⊢
      match drains with
      | .returns :: _ => exact ⟨hreleased h.1, ih h.2 hclosed hbroadcasts⟩
      | .raises :: _ =>
        refine ⟨hreleased h.1, ih h.2 (fun x ↦ ?_) hbroadcasts⟩
        rw [closed_close, closed_close, hclosed]
      | .waits :: _ | [] => trivial

/-- What a broadcast that runs leaves behind. -/
structure Served (s : IpcServer) (woken : Option ℕ) (started : ℕ) (remaining : List ℕ) (t : IpcServer) :
    Prop where
  sound : t.Sound woken started
  account : t.Account fun _ _ ↦ False
  broadcasts : ∃ new, t.broadcasts = s.broadcasts ++ new ∧ ∀ b ∈ new, b.waitsAt ∈ remaining

theorem Served.cons {started : ℕ} {u : IpcServer} (h : u.Served woken started remaining t)
    (hbroadcasts : u.broadcasts = s.broadcasts) (c : ℕ) : s.Served woken started (c :: remaining) t := by
  obtain ⟨new, hnew, hwaits⟩ := h.broadcasts
  exact ⟨h.sound, h.account, new, hbroadcasts ▸ hnew, fun b hb ↦ List.mem_cons_of_mem c (hwaits b hb)⟩

/-- A broadcast runs to its end or to a client at which it waits. -/
theorem served_serve {started : ℕ} {dead : List ℕ} {drains : List Drain} (h : s.Sound woken started)
    (haccount : s.Account (Running event remaining)) (hserves : s.Serves event remaining)
    (hevent : event < started) (hdead : ∀ x ∈ dead, (s.clients x).closed = true)
    (hqueues : Queues remaining drains s) :
    s.Served woken started remaining (serve event remaining dead drains s) := by
  induction remaining generalizing s dead drains with
  | nil =>
    refine ⟨h.congr (h.shape.removeDead hdead) rfl rfl h.before, ?_, [], (List.append_nil _).symm, by simp⟩
    refine haccount.congr (fun _ hx ↦ hx) (fun _ ↦ rfl) (fun _ ↦ rfl) rfl fun x _ k ↦ ?_
    rw [or_false]
    exact (or_iff_left fun hrunning ↦ absurd hrunning.2 List.not_mem_nil).symm
  | cons c remaining ih =>
    unfold serve
    unfold Queues at hqueues
    by_cases hclosed : (s.clients c).closed = true
    · rw [if_pos hclosed]
      rw [if_pos hclosed] at hqueues
      refine (ih h ?_ (hserves.pass fun a ha hlt hne hc ↦ ?_) ?_ hqueues).cons rfl c
      · refine haccount.congr (fun _ hx ↦ hx) (fun _ ↦ rfl) (fun _ ↦ rfl) rfl fun x hx k ↦ ?_
        have hne : x ≠ c := by
          rintro rfl
          exact Bool.false_ne_true (hx.symm.trans hclosed)
        simp only [Running, List.mem_cons, hne, false_or]
      · have hopen := (hserves.older a ha hlt hne).1
        rw [hc] at hopen
        exact Bool.false_ne_true (hopen.symm.trans hclosed)
      · intro x hx
        rcases List.mem_append.mp hx with hx | hx
        · exact hdead x hx
        · rw [List.mem_singleton.mp hx]
          exact hclosed
    · rw [if_neg hclosed]
      rw [if_neg hclosed] at hqueues
      have hopen : (s.clients c).closed = false := by simpa using hclosed
      have hwritten : (s.write c (.event event)).Account (Running event remaining) :=
        haccount.write hserves hopen (Nat.lt_of_lt_of_le hevent h.bound) (h.lt_of_mem_ready hevent)
      have hsound : (s.write c (.event event)).Sound woken started :=
        h.congr (h.shape.write c _) rfl rfl h.before
      have hpass (hreleased : s.Released c) : s.Serves event remaining := hserves.pass
        fun a ha _ hne hc ↦ hne (released_iff.mp hreleased a ha hc)
      match drains with
      | .returns :: drains =>
        refine Served.cons (s := s) (ih hsound hwritten ((hpass hqueues.1).write c _) ?_ ?_) rfl c
        · simpa using hdead
        · exact queues_congr hqueues.2 (fun x ↦ closed_write s c x _) rfl
      | .raises :: drains =>
        have hreleased : (s.write c (.event event)).Released c := by
          intro b hb hc x hx
          rw [closed_write]
          exact hqueues.1 b hb hc x hx
        refine Served.cons (s := s) (ih (hsound.congr (hsound.shape.close (.inl hreleased)) rfl rfl
          hsound.before) (hwritten.close c) (((hpass hqueues.1).write c _).close fun a ha _ hne hc ↦
            hne (released_iff.mp hreleased a ha hc)) ?_ ?_) rfl c
        · intro x hx
          rw [closed_close, closed_write]
          rcases List.mem_append.mp hx with hx | hx
          · rw [hdead x hx, Bool.or_true]
          · simp [List.mem_singleton.mp hx]
        · refine queues_congr hqueues.2 (fun x ↦ ?_) rfl
          rw [closed_close, closed_close, closed_write]
      | .waits :: _ | [] =>
        have hdead' : ∀ x ∈ dead, ((s.write c (.event event)).clients x).closed = true := by
          simpa using hdead
        have hshape := hsound.shape.waiting (hserves.write c _) (by rw [closed_write]; exact hopen) hdead'
        refine ⟨hsound.congr hshape rfl rfl fun b hb ↦ ?_, ?_, [_], rfl, fun b hb ↦ ?_⟩
        · rcases List.mem_append.mp hb with hb | hb
          · exact h.before b hb
          · rw [List.mem_singleton.mp hb]
            exact hevent
        · refine hwritten.congr (fun _ hx ↦ hx) (fun _ ↦ rfl) (fun _ ↦ rfl) rfl fun x _ k ↦ ?_
          simp only [Owed, Running, List.mem_append, List.mem_singleton, or_false]
          have hsplit : (∃ b, (b ∈ s.broadcasts ∨ b = ⟨event, c, remaining, dead⟩) ∧ b.event = k ∧
              x ∈ b.remaining) ↔
              (∃ b ∈ s.broadcasts, b.event = k ∧ x ∈ b.remaining) ∨ k = event ∧ x ∈ remaining := by
            constructor
            · rintro ⟨b, hb | rfl, hk, hx⟩
              · exact .inl ⟨b, hb, hk, hx⟩
              · exact .inr ⟨hk.symm, hx⟩
            · rintro (⟨b, hb, hk, hx⟩ | ⟨rfl, hx⟩)
              · exact ⟨b, .inl hb, hk, hx⟩
              · exact ⟨_, .inr rfl, rfl, hx⟩
          exact (or_congr_right hsplit).trans or_assoc.symm
        · rw [List.mem_singleton.mp hb]
          exact List.mem_cons_self

/-! ## Broadcasts that are woken -/

theorem Shape.erase (h : s.Shape woken) (b : Broadcast) :
    Shape { s with broadcasts := s.broadcasts.erase b } woken where
  subscribed := h.subscribed
  joined := h.joined
  member := h.member
  nodup a ha := h.nodup a (List.mem_of_mem_erase ha)
  dead a ha := h.dead a (List.mem_of_mem_erase ha)
  listed a ha := h.listed a (List.mem_of_mem_erase ha)
  order a ha a' ha' := h.order a (List.mem_of_mem_erase ha) a' (List.mem_of_mem_erase ha')
  connected a ha := h.connected a (List.mem_of_mem_erase ha)
  distinct := h.distinct.sublist List.erase_sublist
  queue := h.queue.sublist List.erase_sublist

/-- The first broadcast that waits at a client is the oldest one there. -/
theorem lt_of_waiters (h : s.Shape woken) {b a : Broadcast} {bs : List Broadcast}
    (hwaiters : s.waiters c = b :: bs) (ha : a ∈ s.broadcasts) (hc : a.waitsAt = c) :
    b.event ≤ a.event := by
  have hmem : a ∈ s.waiters c := List.mem_filter.mpr ⟨ha, decide_eq_true hc⟩
  have hqueue := h.queue.sublist (List.filter_sublist (p := fun b ↦ decide (b.waitsAt = c)))
  change (s.waiters c).Pairwise _ at hqueue
  rw [hwaiters] at hqueue hmem
  have hb : b.waitsAt = c := by
    have hfirst : b ∈ s.waiters c := hwaiters ▸ List.mem_cons_self
    simpa using (List.mem_filter.mp hfirst).2
  rcases List.mem_cons.mp hmem with rfl | hmem
  · exact Nat.le_refl _
  · exact Nat.le_of_lt (List.rel_of_pairwise_cons hqueue hmem (hb.trans hc.symm))

/-- The first broadcast at a client goes on. -/
theorem serves_of_waiters (h : s.Shape woken) (hwoken : woken = some c) {b : Broadcast} {bs : List Broadcast}
    (hwaiters : s.waiters c = b :: bs) (hb : b ∈ s.broadcasts) (hc : b.waitsAt = c) :
    Serves { s with broadcasts := s.broadcasts.erase b } b.event b.remaining ∧
      ∀ a ∈ s.broadcasts.erase b, a.event < b.event → s.live a.remaining ≠ [] → a.waitsAt ≠ c := by
  have hpass : ∀ a ∈ s.broadcasts.erase b, a.event < b.event → a.waitsAt ≠ c := by
    intro a ha hlt hac
    exact Nat.not_le_of_lt hlt (lt_of_waiters h hwaiters (List.mem_of_mem_erase ha) hac)
  have hdistinct : (b :: s.broadcasts.erase b).Pairwise fun a b ↦ a.event ≠ b.event :=
    ((List.perm_cons_erase hb).pairwise_iff Ne.symm).mp h.distinct
  refine ⟨⟨(h.nodup b hb).of_cons, ?_, h.listed b hb, ?_, ?_⟩, fun a ha hlt _ ↦ hpass a ha hlt⟩
  · exact fun a ha ↦ (List.rel_of_pairwise_cons hdistinct ha).symm
  · intro a ha hlt hne
    have hold := List.mem_of_mem_erase ha
    have hother := hpass a ha hlt
    have hsub := h.order a hold b hb hlt hne
    have hdiff : woken ≠ some a.waitsAt := by
      rw [hwoken]
      exact fun heq ↦ hother (Option.some.inj heq).symm
    exact ⟨(h.connected a hold hne hdiff).1, List.Sublist.of_cons_of_ne (fun heq ↦ hother (heq.trans hc)) hsub⟩
  · intro a ha hlt
    by_cases hne : s.live b.remaining = []
    · change (s.live b.remaining).Sublist a.remaining
      rw [hne]
      exact List.nil_sublist _
    · have hsub := h.order b hb a (List.mem_of_mem_erase ha) hlt hne
      by_cases hsame : b.waitsAt = a.waitsAt
      · rw [hsame] at hsub
        exact List.cons_sublist_cons.mp hsub
      · exact (List.sublist_cons_self _ _).trans (List.Sublist.of_cons_of_ne hsame hsub)

theorem owed_erase {b : Broadcast} (hb : b ∈ s.broadcasts) (x k : ℕ) :
    s.Owed x k ↔ Owed { s with broadcasts := s.broadcasts.erase b } x k ∨
      Running b.event b.remaining x k := by
  have hmem : ∀ a, a ∈ s.broadcasts ↔ a = b ∨ a ∈ s.broadcasts.erase b := fun a ↦ by
    rw [(List.perm_cons_erase hb).mem_iff, List.mem_cons]
  constructor
  · rintro (hk | ⟨a, ha, hk, hx⟩)
    · exact .inl (.inl hk)
    · rcases (hmem a).mp ha with rfl | ha
      · exact .inr ⟨hk.symm, hx⟩
      · exact .inl (.inr ⟨a, ha, hk, hx⟩)
  · rintro ((hk | ⟨a, ha, hk, hx⟩) | ⟨hk, hx⟩)
    · exact .inl hk
    · exact .inr ⟨a, List.mem_of_mem_erase ha, hk, hx⟩
    · exact .inr ⟨b, hb, hk.symm, hx⟩

/-- One of the woken broadcasts runs. -/
theorem served_resume {started : ℕ} (h : s.Sound (some c) started)
    (haccount : s.Account fun _ _ ↦ False) {b : Broadcast} {bs : List Broadcast}
    (hwaiters : s.waiters c = b :: bs) {failed : Bool} {drains : List Drain}
    (hqueues : Queues b.remaining drains (s.woken b failed)) :
    (s.woken b failed).Served (some c) started b.remaining (s.resume b failed drains) := by
  have hfirst : b ∈ s.waiters c := hwaiters ▸ List.mem_cons_self
  obtain ⟨hb, hc⟩ := List.mem_filter.mp hfirst
  have hc : b.waitsAt = c := by simpa using hc
  obtain ⟨hserves, hpass⟩ := serves_of_waiters h.shape rfl hwaiters hb hc
  have herased : Sound { s with broadcasts := s.broadcasts.erase b } (some c) started :=
    h.congr (h.shape.erase b) rfl rfl fun a ha ↦ h.before a (List.mem_of_mem_erase ha)
  have hrunning : Account { s with broadcasts := s.broadcasts.erase b }
      (Running b.event b.remaining) := by
    refine haccount.congr (fun _ hx ↦ hx) (fun _ ↦ rfl) (fun _ ↦ rfl) rfl fun x _ k ↦ ?_
    rw [or_false]
    exact (owed_erase hb x k).symm
  have hwoken : (s.woken b failed).Sound (some c) started ∧
      (s.woken b failed).Account (Running b.event b.remaining) ∧
      (s.woken b failed).Serves b.event b.remaining ∧
      ∀ x ∈ b.dead, ((s.woken b failed).clients x).closed = true := by
    have hdead := herased.shape.dead
    cases failed with
    | false => exact ⟨herased, hrunning, hserves, h.shape.dead b hb⟩
    | true =>
      rw [woken, if_pos rfl, hc]
      refine ⟨herased.congr (herased.shape.close (.inr rfl)) rfl rfl herased.before, hrunning.close c,
        hserves.close hpass, fun x hx ↦ ?_⟩
      exact closes_close { s with broadcasts := s.broadcasts.erase b } c x (h.shape.dead b hb x hx)
  refine served_serve hwoken.1 hwoken.2.1 hwoken.2.2.1 (h.before b hb) (fun x hx ↦ ?_) hqueues
  unfold deadOf at hx
  split at hx
  · next hclosed =>
    rcases List.mem_append.mp hx with hx | hx
    · exact hwoken.2.2.2 x hx
    · rw [List.mem_singleton.mp hx]
      exact hclosed
  · exact hwoken.2.2.2 x hx

theorem broadcasts_woken (s : IpcServer) (b : Broadcast) (failed : Bool) :
    (s.woken b failed).broadcasts = s.broadcasts.erase b := by
  cases failed <;> rfl

/-- All broadcasts that wait at a client go on. -/
theorem sound_resumeAll {started : ℕ} {failed : Bool} {bs : List Broadcast} {drains : List (List Drain)}
    (h : s.Sound (some c) started) (haccount : s.Account fun _ _ ↦ False) (hwaiters : s.waiters c = bs)
    (hqueues : QueuesAll failed bs drains s) :
    (resumeAll failed bs drains s).Sound none started ∧
      (resumeAll failed bs drains s).Account fun _ _ ↦ False := by
  induction bs generalizing s drains with
  | nil =>
    refine ⟨⟨{ h.shape with connected := fun b hb hne _ ↦ ?_ }, h.ready, h.bound, h.before⟩, haccount⟩
    refine h.shape.connected b hb hne fun heq ↦ ?_
    have hmem : b ∈ s.waiters c :=
      List.mem_filter.mpr ⟨hb, decide_eq_true (Option.some.inj heq).symm⟩
    rw [hwaiters] at hmem
    exact List.not_mem_nil hmem
  | cons b bs ih =>
    have hfirst : b ∈ s.waiters c := hwaiters ▸ List.mem_cons_self
    obtain ⟨hb, hc⟩ := List.mem_filter.mp hfirst
    have hserved := served_resume h haccount hwaiters hqueues.1
    refine ih hserved.sound hserved.account ?_ hqueues.2
    obtain ⟨new, hnew, hwaits⟩ := hserved.broadcasts
    have hnone : new.filter (fun b ↦ decide (b.waitsAt = c)) = [] := by
      refine List.filter_eq_nil_iff.mpr fun a ha hac ↦ ?_
      have hmem := hwaits a ha
      rw [show a.waitsAt = b.waitsAt from (of_decide_eq_true hac).trans (of_decide_eq_true hc).symm] at hmem
      exact (List.nodup_cons.mp (h.shape.nodup b hb)).1 hmem
    rw [waiters, hnew, List.filter_append, hnone, List.append_nil, broadcasts_woken, ← List.erase_filter]
    change (s.waiters c).erase b = bs
    rw [hwaiters, List.erase_cons_head]

end IpcServer

end Ipc

end Ferry
