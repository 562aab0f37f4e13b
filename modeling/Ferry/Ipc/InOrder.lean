import Ferry.Ipc.Delivery

/-!
# Events in order

What every steady event preserves: between two events the broadcasts are in their order, and every
connected client has what it is owed.
-/

namespace Ferry

open Machine

namespace Ipc

namespace IpcServer

variable {s t : IpcServer} {c : ℕ}

/-- The broadcasts are in order, and every subscribed client gets its events. -/
def Orderly (s : IpcServer) : Prop :=
  (∃ started, s.Sound none started) ∧ s.Account fun _ _ ↦ False

theorem orderly_new : new.Orderly := by
  refine ⟨⟨0, ⟨?_, rfl, Nat.le_refl _, by simp [new]⟩⟩, ?_⟩
  · constructor <;> simp [new]
  · constructor <;> simp [new, eventsOf]

/-- Changes of the handlers that no broadcast notices. -/
theorem Orderly.congr (h : s.Orderly) (hclosed : ∀ x, (t.clients x).closed = (s.clients x).closed)
    (hjoined : ∀ x, (t.clients x).joined = (s.clients x).joined)
    (hwritten : ∀ x, (t.clients x).written = (s.clients x).written)
    (hsubscribed : t.subscribed = s.subscribed) (hemitted : t.emitted = s.emitted)
    (hready : t.ready = s.ready) (hbroadcasts : t.broadcasts = s.broadcasts) : t.Orderly := by
  obtain ⟨⟨started, hsound⟩, haccount⟩ := h
  have hshape := hsound.shape.congr hclosed hjoined hsubscribed hbroadcasts
  refine ⟨⟨started, hsound.congr hshape hready hemitted ?_⟩, ?_⟩
  · rw [hbroadcasts]
    exact hsound.before
  · refine haccount.congr (fun x hx ↦ by rw [← hclosed, hx]) hjoined hwritten hemitted fun x _ k ↦ ?_
    rw [Owed, Owed, hready, hbroadcasts]

theorem Orderly.close (h : s.Orderly) (hreleased : s.Released c) : (s.close c).Orderly := by
  obtain ⟨⟨started, hsound⟩, haccount⟩ := h
  exact ⟨⟨started, hsound.congr (hsound.shape.close (.inl hreleased)) rfl rfl hsound.before⟩,
    haccount.close c⟩

theorem onClient_handler (s : IpcServer) (c : ℕ) (handler : HandlerState) (x : ℕ) :
    let t := s.onClient c fun client ↦ { client with handler }
    (t.clients x).closed = (s.clients x).closed ∧ (t.clients x).joined = (s.clients x).joined ∧
      (t.clients x).written = (s.clients x).written := by
  dsimp only
  rw [onClient]
  by_cases h : x = c
  · simp [h]
  · simp [h]

theorem Orderly.handler (h : s.Orderly) (c : ℕ) (handler : HandlerState) :
    (s.onClient c fun client ↦ { client with handler }).Orderly :=
  h.congr (fun x ↦ (onClient_handler s c handler x).1) (fun x ↦ (onClient_handler s c handler x).2.1)
    (fun x ↦ (onClient_handler s c handler x).2.2) rfl rfl rfl rfl

theorem Orderly.drained (h : s.Orderly) {drain : Drain} (hreleased : drain = .raises → s.Released c) :
    (s.drained c drain).Orderly := by
  cases drain with
  | returns => exact h
  | raises => exact h.close (hreleased rfl)
  | waits => exact h.handler c .replying

/-! ## Callbacks and broadcasts -/

theorem Orderly.emit (h : s.Orderly) : (s.step .emit).Orderly := by
  obtain ⟨⟨started, hsound⟩, haccount⟩ := h
  have hbound := hsound.bound
  refine ⟨⟨started, hsound.shape.congr (fun _ ↦ rfl) (fun _ ↦ rfl) rfl rfl, ?_, ?_, hsound.before⟩, ?_⟩
  · change s.ready ++ [s.emitted] = List.range' started (s.emitted + 1 - started)
    rw [hsound.ready, Nat.succ_sub hbound, List.range'_1_concat, Nat.add_sub_cancel' hbound]
  · exact Nat.le_succ_of_le hbound
  · constructor
    · exact fun x k hk ↦ Nat.lt_succ_of_lt (haccount.past x k hk)
    · intro x frames first hx hjoined
      obtain ⟨hsnapshot, n, hn, hevents, hall⟩ := haccount.receives x frames first hx hjoined
      refine ⟨hsnapshot, n, Nat.le_succ_of_le hn, hevents, fun k hk ↦ ?_⟩
      have howed : (s.step .emit).Owed x k ↔ s.Owed x k ∨ k = s.emitted := by
        simp only [Owed, step, List.mem_append, List.mem_singleton]
        exact or_right_comm
      have hold := hall k hk
      rw [or_false] at hold ⊢
      change _ ↔ first + n ≤ k ∧ k < s.emitted + 1
      rw [howed, hold]
      omega

theorem Orderly.start (h : s.Orderly) {drains : List Drain} (hqueues : Queues s.subscribed drains s) :
    (s.start drains).Orderly := by
  obtain ⟨⟨started, hsound⟩, haccount⟩ := h
  unfold IpcServer.start
  split
  · exact ⟨⟨started, hsound⟩, haccount⟩
  · next event ready hready =>
    have hrange := hsound.ready
    rw [hready] at hrange
    obtain ⟨hevent, hmore, hrest⟩ : event = started ∧ started < s.emitted ∧
        ready = List.range' (started + 1) (s.emitted - (started + 1)) := by
      cases hleft : s.emitted - started with
      | zero =>
        rw [hleft] at hrange
        exact nomatch hrange
      | succ n =>
        rw [hleft, List.range'_succ] at hrange
        obtain ⟨hhead, htail⟩ := List.cons.inj hrange
        refine ⟨hhead, by omega, ?_⟩
        rw [htail, show s.emitted - (started + 1) = n by omega]
    subst hevent
    have hsound' : Sound { s with ready } none (event + 1) :=
      ⟨hsound.shape.congr (fun _ ↦ rfl) (fun _ ↦ rfl) rfl rfl, hrest, hmore,
        fun b hb ↦ Nat.lt_succ_of_lt (hsound.before b hb)⟩
    have hserves : Serves { s with ready } event s.subscribed := by
      refine ⟨hsound.shape.subscribed, fun b hb ↦ Nat.ne_of_lt (hsound.before b hb),
        live_sublist s s.subscribed, ?_, fun b hb hlt ↦ ?_⟩
      · exact fun a ha _ hne ↦ hsound.shape.connected a ha hne nofun
      · exact absurd (hsound.before b hb) (Nat.lt_asymm hlt)
    have hrunning : Account { s with ready } (Running event s.subscribed) := by
      refine ⟨haccount.past, fun x frames first hx hjoined ↦ ?_⟩
      have hmem := hsound.shape.member x hx (by rw [hjoined]; exact nofun)
      refine (haccount.receives x frames first hx hjoined).congr rfl rfl fun k _ ↦ ?_
      simp only [Owed, hready, List.mem_cons, Running, and_iff_left hmem, or_false]
      rw [or_comm, ← or_assoc]
    have hserved := served_serve hsound' hrunning hserves (Nat.lt_succ_self event)
      (fun x hx ↦ absurd hx List.not_mem_nil) (queues_congr hqueues (fun _ ↦ rfl) rfl)
    exact ⟨⟨event + 1, hserved.sound⟩, hserved.account⟩

theorem Orderly.wake (h : s.Orderly) {failed : Bool} {drains : List (List Drain)}
    (hqueues : QueuesAll failed (s.waiters c) drains s) :
    (resumeAll failed (s.waiters c) drains s).Orderly := by
  obtain ⟨⟨started, hsound⟩, haccount⟩ := h
  have hwoken : s.Sound (some c) started :=
    ⟨{ hsound.shape with connected := fun b hb hne _ ↦ hsound.shape.connected b hb hne nofun },
      hsound.ready, hsound.bound, hsound.before⟩
  obtain ⟨hsound', haccount'⟩ := sound_resumeAll hwoken haccount rfl hqueues
  exact ⟨⟨started, hsound'⟩, haccount'⟩

/-! ## Handlers -/

theorem reply_ne_event (k : ℕ) : IpcFrame.reply ≠ .event k := nofun

theorem snapshot_ne_event (k : ℕ) : IpcFrame.snapshot ≠ .event k := nofun

theorem eventsOf_write_of_ne (s : IpcServer) (c x : ℕ) {frame : IpcFrame} (h : ∀ k, frame ≠ .event k) :
    (s.write c frame).eventsOf x = s.eventsOf x := by
  rw [eventsOf, written_write, List.filterMap_append, eventsOf]
  by_cases hx : x = c
  · cases frame with
    | event k => exact absurd rfl (h k)
    | snapshot | reply => simp [hx]
  · simp [hx]

theorem Receives.write_of_ne {owed : ℕ → Prop} {x frames first : ℕ} (h : s.Receives owed x frames first)
    {frame : IpcFrame} (hframe : ∀ k, frame ≠ .event k) : (s.write c frame).Receives owed x frames first := by
  constructor
  · rw [written_write]
    exact head?_drop_append h.snapshot
  · rw [eventsOf_write_of_ne s c x hframe]
    exact h.events

/-- A frame that is no event. -/
theorem Orderly.write (h : s.Orderly) {frame : IpcFrame} (hframe : ∀ k, frame ≠ .event k) :
    (s.write c frame).Orderly := by
  obtain ⟨⟨started, hsound⟩, haccount⟩ := h
  refine ⟨⟨started, hsound.congr (hsound.shape.write c frame) rfl rfl hsound.before⟩, ?_, ?_⟩
  · intro x k hk
    rw [eventsOf_write_of_ne s c x hframe] at hk
    exact haccount.past x k hk
  · intro x frames first hx hjoined
    rw [closed_write] at hx
    rw [joined_write] at hjoined
    exact (haccount.receives x frames first hx hjoined).write_of_ne hframe

theorem Orderly.command (h : s.Orderly) {drain : Drain} (hreleased : drain = .raises → s.Released c) :
    (s.reply c .reply drain).Orderly := by
  unfold reply
  split
  · exact h
  · refine (h.write reply_ne_event).drained fun hraises b hb hc x hx ↦ ?_
    rw [closed_write]
    exact hreleased hraises b hb hc x hx

/-- The client is on the list before its snapshot is written. -/
def enlisted (s : IpcServer) (c : ℕ) : IpcServer :=
  let t := s.onClient c fun client ↦
    { client with joined := client.joined.or (some (client.written.length, s.emitted)) }
  { t with subscribed := s.subscribed ++ [c] }

theorem enlisted_clients (s : IpcServer) (c x : ℕ) :
    ((s.enlisted c).clients x).closed = (s.clients x).closed ∧
    ((s.enlisted c).clients x).written = (s.clients x).written ∧
    ((s.enlisted c).clients x).joined = if x = c then
      (s.clients c).joined.or (some ((s.clients c).written.length, s.emitted)) else (s.clients x).joined := by
  rw [enlisted, onClient]
  by_cases h : x = c
  · simp [h]
  · simp [h]

theorem Shape.enlisted (h : s.Shape none) (hnew : (s.clients c).joined = none) :
    (s.enlisted c).Shape none := by
  have hclosed : ∀ x, ((s.enlisted c).clients x).closed = (s.clients x).closed := fun x ↦
    (enlisted_clients s c x).1
  have hjoined := fun x ↦ (enlisted_clients s c x).2.2
  have hlive := live_congr hclosed
  have hsub : s.subscribed.Sublist (s.enlisted c).subscribed := List.sublist_append_left _ _
  refine ⟨?_, ?_, ?_, h.nodup, ?_, ?_, ?_, ?_, h.distinct, h.queue⟩
  · refine List.nodup_append.mpr ⟨h.subscribed, List.nodup_singleton c, fun x hx y hy heq ↦ ?_⟩
    rw [List.mem_singleton] at hy
    exact h.joined x hx (by rw [heq, hy, hnew])
  · intro x hx
    rw [hjoined]
    by_cases hxc : x = c
    · rw [if_pos hxc, hnew]
      exact nofun
    · rw [if_neg hxc]
      exact h.joined x ((List.mem_append.mp hx).resolve_right fun hmem ↦ hxc (List.mem_singleton.mp hmem))
  · intro x hx hj
    rw [hclosed] at hx
    rw [hjoined] at hj
    by_cases hxc : x = c
    · exact List.mem_append_right _ (List.mem_singleton.mpr hxc)
    · rw [if_neg hxc] at hj
      exact List.mem_append_left _ (h.member x hx hj)
  · intro b hb x hx
    rw [hclosed]
    exact h.dead b hb x hx
  · rw [hlive]
    exact fun b hb ↦ (h.listed b hb).trans hsub
  · rw [hlive]
    exact h.order
  · rw [hlive]
    intro b hb hne hwoken
    rw [hclosed]
    obtain ⟨hopen, hlisted⟩ := h.connected b hb hne hwoken
    exact ⟨hopen, hlisted.trans hsub⟩

theorem Orderly.subscribe (h : s.Orderly) (hnew : (s.clients c).joined = none) {drain : Drain}
    (hreleased : drain = .raises → s.Released c) : (s.subscribe c drain).Orderly := by
  obtain ⟨⟨started, hsound⟩, haccount⟩ := h
  have hclients := enlisted_clients s c
  have hshape := hsound.shape.enlisted hnew
  have hbefore : ∀ x k, s.Owed x k → k < s.emitted := by
    rintro x k (hk | ⟨b, hb, rfl, -⟩)
    · rw [hsound.ready, List.mem_range'_1] at hk
      omega
    · exact Nat.lt_of_lt_of_le (hsound.before b hb) hsound.bound
  have hold : ∀ x frames first, x ≠ c → ((s.enlisted c).clients x).closed = false →
      ((s.enlisted c).clients x).joined = some (frames, first) →
      (s.enlisted c).Receives (fun k ↦ (s.enlisted c).Owed x k ∨ False) x frames first := by
    intro x frames first hxc hx hjoined
    rw [(hclients x).1] at hx
    rw [(hclients x).2.2, if_neg hxc] at hjoined
    exact (haccount.receives x frames first hx hjoined).congr (hclients x).2.1 rfl fun _ _ ↦ Iff.rfl
  have hpast : ∀ x, (s.enlisted c).eventsOf x = s.eventsOf x := fun x ↦ by
    rw [eventsOf, (hclients x).2.1, eventsOf]
  change ((s.enlisted c).reply c .snapshot drain).Orderly
  unfold reply
  rw [(hclients c).1]
  by_cases hclosed : (s.clients c).closed = true
  · rw [if_pos hclosed]
    refine ⟨⟨started, hsound.congr hshape rfl rfl hsound.before⟩, fun x k hk ↦ ?_,
      fun x frames first hx hjoined ↦ hold x frames first ?_ hx hjoined⟩
    · rw [hpast] at hk
      exact haccount.past x k hk
    · rintro rfl
      rw [(hclients x).1] at hx
      exact Bool.false_ne_true (hx.symm.trans hclosed)
  · rw [if_neg hclosed]
    have hwritten : ((s.enlisted c).write c .snapshot).Orderly := by
      refine ⟨⟨started, hsound.congr (hshape.write c _) rfl rfl hsound.before⟩, fun x k hk ↦ ?_,
        fun x frames first hx hjoined ↦ ?_⟩
      · rw [eventsOf_write_of_ne _ _ _ snapshot_ne_event, hpast] at hk
        exact haccount.past x k hk
      · rw [closed_write] at hx
        rw [joined_write] at hjoined
        by_cases hxc : x = c
        · rw [(hclients x).2.2, if_pos hxc, hnew, Option.none_or, Option.some.injEq,
            Prod.mk.injEq] at hjoined
          obtain ⟨rfl, rfl⟩ := hjoined
          constructor
          · rw [written_write, (hclients x).2.1, hxc, if_pos rfl, List.drop_left]
            rfl
          · refine ⟨0, Nat.le_refl _, ?_, fun k hk ↦ ?_⟩
            · rw [eventsOf_write_of_ne _ _ _ snapshot_ne_event, hpast]
              refine List.filter_eq_nil_iff.mpr fun k hk ↦ ?_
              simpa using haccount.past x k hk
            · change s.Owed x k ∨ False ↔ s.emitted + 0 ≤ k ∧ k < s.emitted
              have hlt := hbefore x k
              rw [or_false]
              exact ⟨fun howed ↦ absurd (hlt howed) (Nat.not_lt.mpr hk), fun hboth ↦ by omega⟩
        · exact (hold x frames first hxc hx hjoined).write_of_ne snapshot_ne_event
    refine hwritten.drained fun hraises b hb hc x hx ↦ ?_
    rw [closed_write, (hclients x).1]
    exact hreleased hraises b hb hc x hx

theorem Orderly.removeDead (h : s.Orderly) {dead : List ℕ}
    (hdead : ∀ x ∈ dead, (s.clients x).closed = true) : (s.removeDead dead).Orderly := by
  obtain ⟨⟨started, hsound⟩, haccount⟩ := h
  exact ⟨⟨started, hsound.congr (hsound.shape.removeDead hdead) rfl rfl hsound.before⟩,
    haccount.congr (fun _ hx ↦ hx) (fun _ ↦ rfl) (fun _ ↦ rfl) rfl fun _ _ _ ↦ Iff.rfl⟩

theorem Orderly.disconnect (h : s.Orderly) (hreleased : s.Released c) : (s.endHandler c).Orderly := by
  have hended : s.endHandler c =
      ((s.close c).onClient c fun client ↦ { client with handler := .ended }).removeDead [c] := by
    simp [endHandler, IpcServer.close, onClient, IpcServer.removeDead]
  rw [hended]
  refine ((h.close hreleased).handler c .ended).removeDead fun x hx ↦ ?_
  rw [(onClient_handler (s.close c) c .ended x).1, closed_close, List.mem_singleton.mp hx]
  simp

/-! ## Runs -/

theorem orderly_step (h : s.Orderly) {event : IpcEvent} (hsteady : s.Steady event) :
    (s.step event).Orderly := by
  cases event with
  | emit => exact h.emit
  | start drains => exact h.start hsteady
  | wake c failed drains => exact h.wake hsteady
  | subscribe c drain =>
    rw [step]
    split
    · exact h.subscribe hsteady.1 hsteady.2
    · exact h
  | command c drain =>
    rw [step]
    split
    · exact h.command hsteady
    · exact h
  | replied c failed =>
    rw [step]
    split
    · cases failed with
      | false => exact h.handler c .reading
      | true =>
        refine (h.handler c .reading).close fun b hb hc x hx ↦ ?_
        rw [(onClient_handler s c .reading x).1]
        exact hsteady rfl b hb hc x hx
    · exact h
  | disconnect c => exact h.disconnect hsteady

theorem Orderly.delivers (h : s.Orderly) : s.Delivers := by
  intro c frames first hopen hjoined
  obtain ⟨hsnapshot, n, hn, hevents, hall⟩ := h.2.receives c frames first hopen hjoined
  refine ⟨hsnapshot, n, hn, hevents, fun hidle ↦ ?_⟩
  -- The event after the last one that was written is owed to nobody.
  by_contra hless
  have howed := (hall (first + n) (Nat.le_add_right _ _)).mpr ⟨Nat.le_refl _, by omega⟩
  rw [or_false, Owed, hidle.1, hidle.2] at howed
  simp at howed

/-- After every run of steady events every connected client has the snapshot, and the events since its
subscription in their order. -/
theorem delivers_of_steady (events : List IpcEvent) (hsteady : Always step Steady new events) :
    (run step new events).Delivers :=
  Orderly.delivers (run_induction (P := Orderly) (fun _ _ h ↦ orderly_step h) orderly_new hsteady)

/-- Two clients subscribe.  The first is slow for both of two events, and then leaves. -/
def sampleDelivery : List IpcEvent :=
  [.subscribe 0 .returns, .subscribe 1 .waits, .emit, .start [.waits], .replied 1 false, .emit,
    .start [.waits], .wake 0 true [[.returns], [.returns]], .disconnect 0, .emit, .start [.returns]]

theorem delivers_of_steady_sampleDelivery : (run step new sampleDelivery).Delivers :=
  delivers_of_steady sampleDelivery (by decide)

/-- The first client is slow for the first of two events.  It has caught up when the second one is
written, but the first broadcast has not gone on. -/
def sampleOvertaking : List IpcEvent :=
  [.subscribe 0 .returns, .subscribe 1 .returns, .emit, .start [.waits], .emit,
    .start [.returns, .returns], .wake 0 false [[.returns]]]

/-- The second client gets the two events in the wrong order. -/
theorem overtaken_events : ¬∀ events : List IpcEvent, (run step new events).Delivers := by
  intro h
  obtain ⟨-, n, -, hevents, -⟩ := h sampleOvertaking 1 0 0 (by decide) (by decide)
  have hactual : ((run step new sampleOvertaking).eventsOf 1).filter (0 ≤ ·) = [1, 0] := by decide
  rw [hactual] at hevents
  have hhead := congrArg List.head? hevents
  cases n with
  | zero => exact nomatch hevents
  | succ n => exact absurd hhead (by simp [List.range'_succ])

end IpcServer

end Ipc

end Ferry
