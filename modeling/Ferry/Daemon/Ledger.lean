import Ferry.Daemon.CallMoves

/-!
# The dictionaries of the incoming transfers

What a look-up finds after each change of the dictionaries, and the invariant that every change keeps:
every object and every timer is numbered below the next number, an object is registered under one id
only, and every registered transfer has a session.
-/

namespace Ferry

namespace Daemon

namespace Ledger

variable (l : Ledger) (i j : Text) (object ps k : ℕ)

/-! ## Look-ups -/

@[simp, grind =] theorem popIncoming_incoming : (l.popIncoming i).incomingTransfers.get j =
    if j = i then none else l.incomingTransfers.get j := Dict.get_pop ..
@[simp, grind =] theorem popIncoming_peers : (l.popIncoming i).incomingPeers = l.incomingPeers := rfl
@[simp, grind =] theorem popIncoming_timeouts :
    (l.popIncoming i).acceptTimeoutTasks = l.acceptTimeoutTasks := rfl
@[simp, grind =] theorem popIncoming_lastChunk :
    (l.popIncoming i).lastChunkTime = l.lastChunkTime := rfl
@[simp, grind =] theorem popIncoming_timers : (l.popIncoming i).timers = l.timers := rfl
@[simp, grind =] theorem popIncoming_accepted : (l.popIncoming i).accepted = l.accepted := rfl

@[simp, grind =] theorem popLastChunk_incoming :
    (l.popLastChunk i).incomingTransfers = l.incomingTransfers := rfl
@[simp, grind =] theorem popLastChunk_peers : (l.popLastChunk i).incomingPeers = l.incomingPeers := rfl
@[simp, grind =] theorem popLastChunk_timeouts :
    (l.popLastChunk i).acceptTimeoutTasks = l.acceptTimeoutTasks := rfl
@[simp, grind =] theorem popLastChunk_lastChunk : (l.popLastChunk i).lastChunkTime.get j =
    if j = i then none else l.lastChunkTime.get j := Dict.get_pop ..
@[simp, grind =] theorem popLastChunk_timers : (l.popLastChunk i).timers = l.timers := rfl
@[simp, grind =] theorem popLastChunk_accepted : (l.popLastChunk i).accepted = l.accepted := rfl

@[simp, grind =] theorem popTimeout_incoming :
    (l.popTimeout i).incomingTransfers = l.incomingTransfers := rfl
@[simp, grind =] theorem popTimeout_peers : (l.popTimeout i).incomingPeers = l.incomingPeers := rfl
@[simp, grind =] theorem popTimeout_timeouts : (l.popTimeout i).acceptTimeoutTasks.get j =
    if j = i then none else l.acceptTimeoutTasks.get j := Dict.get_pop ..
@[simp, grind =] theorem popTimeout_lastChunk : (l.popTimeout i).lastChunkTime = l.lastChunkTime := rfl
@[simp, grind =] theorem popTimeout_timers : (l.popTimeout i).timers = l.timers := rfl
@[simp, grind =] theorem popTimeout_accepted : (l.popTimeout i).accepted = l.accepted := rfl

@[simp, grind =] theorem forget_incoming : (l.forget i).incomingTransfers.get j =
    if j = i then none else l.incomingTransfers.get j := Dict.get_pop ..
@[simp, grind =] theorem forget_peers : (l.forget i).incomingPeers.get j =
    if j = i then none else l.incomingPeers.get j := Dict.get_pop ..
@[simp, grind =] theorem forget_timeouts :
    (l.forget i).acceptTimeoutTasks = l.acceptTimeoutTasks := rfl
@[simp, grind =] theorem forget_lastChunk : (l.forget i).lastChunkTime = l.lastChunkTime := rfl
@[simp, grind =] theorem forget_timers : (l.forget i).timers = l.timers := rfl
@[simp, grind =] theorem forget_accepted : (l.forget i).accepted = l.accepted := rfl

@[simp, grind =] theorem register_incoming : (l.register i object ps).incomingTransfers.get j =
    if j = i then some object else l.incomingTransfers.get j := Dict.get_set ..
@[simp, grind =] theorem register_peers : (l.register i object ps).incomingPeers.get j =
    if j = i then some ps else l.incomingPeers.get j := Dict.get_set ..
@[simp, grind =] theorem register_timeouts :
    (l.register i object ps).acceptTimeoutTasks = l.acceptTimeoutTasks := rfl
@[simp, grind =] theorem register_lastChunk :
    (l.register i object ps).lastChunkTime = l.lastChunkTime := rfl
@[simp, grind =] theorem register_timers : (l.register i object ps).timers = l.timers := rfl
@[simp, grind =] theorem register_accepted : (l.register i object ps).accepted = l.accepted := rfl

@[simp, grind =] theorem touch_incoming (now : ℤ) :
    (touch i now l).incomingTransfers = l.incomingTransfers := rfl
@[simp, grind =] theorem touch_peers (now : ℤ) : (touch i now l).incomingPeers = l.incomingPeers := rfl
@[simp, grind =] theorem touch_timeouts (now : ℤ) :
    (touch i now l).acceptTimeoutTasks = l.acceptTimeoutTasks := rfl
@[simp, grind =] theorem touch_lastChunk (now : ℤ) : (touch i now l).lastChunkTime.get j =
    if j = i then some now else l.lastChunkTime.get j := Dict.get_set ..
@[simp, grind =] theorem touch_timers (now : ℤ) : (touch i now l).timers = l.timers := rfl
@[simp, grind =] theorem touch_accepted (now : ℤ) : (touch i now l).accepted = l.accepted := rfl

section Arm

variable (sleeping : AcceptanceTimer)

@[simp, grind =] theorem arm_incoming : (arm k sleeping l).incomingTransfers = l.incomingTransfers := rfl
@[simp, grind =] theorem arm_peers : (arm k sleeping l).incomingPeers = l.incomingPeers := rfl
@[simp, grind =] theorem arm_timeouts : (arm k sleeping l).acceptTimeoutTasks.get j =
    if j = sleeping.transferId then some k else l.acceptTimeoutTasks.get j := Dict.get_set ..
@[simp, grind =] theorem arm_lastChunk : (arm k sleeping l).lastChunkTime = l.lastChunkTime := rfl
@[simp, grind =] theorem arm_timers (k' : ℕ) : (arm k sleeping l).timers.get k' =
    if k' = k then some sleeping else l.timers.get k' := Dict.get_set ..
@[simp, grind =] theorem arm_accepted : (arm k sleeping l).accepted = l.accepted := rfl

end Arm

@[simp, grind =] theorem cancelTimeout_incoming :
    (l.cancelTimeout i).incomingTransfers = l.incomingTransfers := by
  unfold cancelTimeout
  split <;> rfl

@[simp, grind =] theorem cancelTimeout_peers :
    (l.cancelTimeout i).incomingPeers = l.incomingPeers := by
  unfold cancelTimeout
  split <;> rfl

@[simp, grind =] theorem cancelTimeout_timeouts : (l.cancelTimeout i).acceptTimeoutTasks.get j =
    if j = i then none else l.acceptTimeoutTasks.get j := by
  unfold cancelTimeout
  split <;> exact popTimeout_timeouts l i j

@[simp, grind =] theorem cancelTimeout_lastChunk :
    (l.cancelTimeout i).lastChunkTime = l.lastChunkTime := by
  unfold cancelTimeout
  split <;> rfl

@[simp, grind =] theorem cancelTimeout_timers : (l.cancelTimeout i).timers.get k =
    if l.acceptTimeoutTasks.get i = some k then none else l.timers.get k := by
  unfold cancelTimeout
  split
  · next hnone => simp [hnone]
  · next timer htimer =>
    rw [htimer, Dict.get_pop]
    simp only [Option.some.injEq, eq_comm]

@[simp, grind =] theorem cancelTimeout_accepted : (l.cancelTimeout i).accepted = l.accepted := by
  unfold cancelTimeout
  split <;> rfl

@[simp, grind =] theorem accept_incoming :
    (l.accept i object).incomingTransfers = l.incomingTransfers := cancelTimeout_incoming l i
@[simp, grind =] theorem accept_peers : (l.accept i object).incomingPeers = l.incomingPeers :=
  cancelTimeout_peers l i
@[simp, grind =] theorem accept_timeouts : (l.accept i object).acceptTimeoutTasks.get j =
    if j = i then none else l.acceptTimeoutTasks.get j := cancelTimeout_timeouts l i j
@[simp, grind =] theorem accept_lastChunk : (l.accept i object).lastChunkTime = l.lastChunkTime :=
  cancelTimeout_lastChunk l i
@[simp, grind =] theorem accept_timers : (l.accept i object).timers.get k =
    if l.acceptTimeoutTasks.get i = some k then none else l.timers.get k := cancelTimeout_timers l i k
@[simp, grind =] theorem accept_accepted : (l.accept i object).accepted = object :: l.accepted := rfl

@[simp, grind =] theorem drop_incoming : (l.drop i).incomingTransfers.get j =
    if j = i then none else l.incomingTransfers.get j := by
  simp [drop, popPeer]

@[simp, grind =] theorem drop_peers : (l.drop i).incomingPeers.get j =
    if j = i then none else l.incomingPeers.get j := by
  simp [drop, popPeer, Dict.get_pop]

@[simp, grind =] theorem drop_timeouts : (l.drop i).acceptTimeoutTasks.get j =
    if j = i then none else l.acceptTimeoutTasks.get j := by
  simp [drop, popPeer]

@[simp, grind =] theorem drop_lastChunk : (l.drop i).lastChunkTime.get j =
    if j = i then none else l.lastChunkTime.get j := by
  simp [drop, popPeer]

@[simp, grind =] theorem drop_timers : (l.drop i).timers.get k =
    if l.acceptTimeoutTasks.get i = some k then none else l.timers.get k := by
  simp [drop, popPeer]

@[simp, grind =] theorem drop_accepted : (l.drop i).accepted = l.accepted := by simp [drop, popPeer]

section DropAll

variable (items : List (Text × ℕ))

theorem dropAll_cons (item : Text × ℕ) : l.dropAll (item :: items) = (l.drop item.1).dropAll items := rfl

@[simp, grind =] theorem dropAll_incoming : (l.dropAll items).incomingTransfers.get j =
    if j ∈ items.map Prod.fst then none else l.incomingTransfers.get j := by
  induction items generalizing l with
  | nil => rfl
  | cons item rest ih =>
    rw [dropAll_cons, ih, drop_incoming, List.map_cons]
    grind

@[simp, grind =] theorem dropAll_peers : (l.dropAll items).incomingPeers.get j =
    if j ∈ items.map Prod.fst then none else l.incomingPeers.get j := by
  induction items generalizing l with
  | nil => rfl
  | cons item rest ih =>
    rw [dropAll_cons, ih, drop_peers, List.map_cons]
    grind

@[simp, grind =] theorem dropAll_timeouts : (l.dropAll items).acceptTimeoutTasks.get j =
    if j ∈ items.map Prod.fst then none else l.acceptTimeoutTasks.get j := by
  induction items generalizing l with
  | nil => rfl
  | cons item rest ih =>
    rw [dropAll_cons, ih, drop_timeouts, List.map_cons]
    grind

@[simp, grind =] theorem dropAll_lastChunk : (l.dropAll items).lastChunkTime.get j =
    if j ∈ items.map Prod.fst then none else l.lastChunkTime.get j := by
  induction items generalizing l with
  | nil => rfl
  | cons item rest ih =>
    rw [dropAll_cons, ih, drop_lastChunk, List.map_cons]
    grind

end DropAll

/-- A timer fires. -/
def fire (timer : ℕ) : Ledger := { l with timers := l.timers.pop timer }

@[simp, grind =] theorem fire_incoming : (l.fire k).incomingTransfers = l.incomingTransfers := rfl
@[simp, grind =] theorem fire_peers : (l.fire k).incomingPeers = l.incomingPeers := rfl
@[simp, grind =] theorem fire_timeouts : (l.fire k).acceptTimeoutTasks = l.acceptTimeoutTasks := rfl
@[simp, grind =] theorem fire_lastChunk : (l.fire k).lastChunkTime = l.lastChunkTime := rfl
@[simp, grind =] theorem fire_timers (k' : ℕ) : (l.fire k).timers.get k' =
    if k' = k then none else l.timers.get k' := Dict.get_pop ..
@[simp, grind =] theorem fire_accepted : (l.fire k).accepted = l.accepted := rfl

/-! ## What every change keeps -/

/-- The numbers are below the next one, and every registered transfer has a session. -/
structure Sane (l : Ledger) (next : ℕ) : Prop where
  object_lt : ∀ i object, l.incomingTransfers.get i = some object → object < next
  object_inj : ∀ i j object, l.incomingTransfers.get i = some object →
    l.incomingTransfers.get j = some object → i = j
  owned : ∀ i object, l.incomingTransfers.get i = some object → ∃ ps, l.incomingPeers.get i = some ps
  timeout_lt : ∀ i k, l.acceptTimeoutTasks.get i = some k → k < next
  timer_lt : ∀ k sleeping, l.timers.get k = some sleeping → k < next ∧ sleeping.object < next
  timer_id : ∀ i k sleeping, l.acceptTimeoutTasks.get i = some k → l.timers.get k = some sleeping →
    sleeping.transferId = i
  accepted_lt : ∀ object ∈ l.accepted, object < next

namespace Sane

variable {l} {next next' : ℕ}

theorem mono (h : l.Sane next) (hle : next ≤ next') : l.Sane next' where
  object_lt i object hi := (h.object_lt i object hi).trans_le hle
  object_inj := h.object_inj
  owned := h.owned
  timeout_lt i k hi := (h.timeout_lt i k hi).trans_le hle
  timer_lt k sleeping hk := ⟨(h.timer_lt k sleeping hk).1.trans_le hle,
    (h.timer_lt k sleeping hk).2.trans_le hle⟩
  timer_id := h.timer_id
  accepted_lt object hmem := (h.accepted_lt object hmem).trans_le hle

theorem drop (h : l.Sane next) (i : Text) : (l.drop i).Sane next := by
  cases h
  constructor <;> grind

theorem dropAll (h : l.Sane next) (items : List (Text × ℕ)) : (l.dropAll items).Sane next := by
  induction items generalizing l with
  | nil => exact h
  | cons item rest ih => exact ih (h.drop item.1)

theorem touch (h : l.Sane next) (i : Text) (now : ℤ) : (Daemon.touch i now l).Sane next := by
  cases h
  constructor <;> grind

theorem refuse (h : l.Sane next) (i : Text) : ((l.popIncoming i).popLastChunk i).Sane next := by
  cases h
  constructor <;> grind

theorem register (h : l.Sane next) (i : Text) (ps : ℕ) : (l.register i next ps).Sane (next + 1) := by
  cases h
  constructor <;> grind

theorem finalise (h : l.Sane next) (i : Text) : ((l.cancelTimeout i).popLastChunk i).Sane next := by
  cases h
  constructor <;> grind

theorem forget (h : l.Sane next) (i : Text) : (l.forget i).Sane next := by
  cases h
  constructor <;> grind

theorem accept (h : l.Sane next) {i : Text} {object : ℕ}
    (hobject : l.incomingTransfers.get i = some object) : (l.accept i object).Sane next := by
  cases h
  constructor <;> grind

theorem popIncoming (h : l.Sane next) (i : Text) : (l.popIncoming i).Sane next := by
  cases h
  constructor <;> grind

theorem cancelTimeout (h : l.Sane next) (i : Text) : (l.cancelTimeout i).Sane next := by
  cases h
  constructor <;> grind

theorem popTimeout (h : l.Sane next) (i : Text) : (l.popTimeout i).Sane next := by
  cases h
  constructor <;> grind

theorem fire (h : l.Sane next) (k : ℕ) : (l.fire k).Sane next := by
  cases h
  constructor <;> grind

theorem arm (h : l.Sane next) {sleeping : AcceptanceTimer} (hlt : sleeping.object < next) :
    (Daemon.arm next sleeping l).Sane (next + 1) := by
  cases h
  constructor <;> grind

end Sane

end Ledger

/-! ## The transfers of a session -/

variable {s t u : Daemon}

theorem mem_incomingOf {ps : ℕ} {i : Text} {object : ℕ} : (i, object) ∈ s.incomingOf ps ↔
    s.ledger.incomingTransfers.get i = some object ∧ s.ledger.incomingPeers.get i = some ps := by
  rw [incomingOf, List.mem_filter, Dict.mem_items, decide_eq_true_iff]

/-- The ids that the end of a session loop drops. -/
theorem mem_ids_incomingOf {ps : ℕ} {i : Text} : i ∈ (s.incomingOf ps).map Prod.fst ↔
    (∃ object, s.ledger.incomingTransfers.get i = some object) ∧
      s.ledger.incomingPeers.get i = some ps := by
  rw [List.mem_map]
  constructor
  · rintro ⟨⟨_, object⟩, hmem, rfl⟩
    obtain ⟨hobject, hps⟩ := mem_incomingOf.mp hmem
    exact ⟨⟨object, hobject⟩, hps⟩
  · rintro ⟨⟨object, hobject⟩, hps⟩
    exact ⟨(i, object), mem_incomingOf.mpr ⟨hobject, hps⟩, rfl⟩

/-- What the end of a session loop leaves registered belongs to another session. -/
theorem LoopEnded.registered {ps : ℕ} (hend : s.LoopEnded ps t) {i : Text} {object : ℕ}
    (hi : t.ledger.incomingTransfers.get i = some object) :
    s.ledger.incomingTransfers.get i = some object ∧ s.ledger.incomingPeers.get i ≠ some ps := by
  rw [hend.ledger, Ledger.dropAll_incoming] at hi
  split at hi
  · exact (nomatch hi)
  · next hmem => exact ⟨hi, fun hps ↦ hmem (mem_ids_incomingOf.mpr ⟨⟨object, hi⟩, hps⟩)⟩

/-! ## Steps -/

/-- The numbers of the daemon are in order. -/
abbrev Sane (s : Daemon) : Prop := s.ledger.Sane s.next

theorem Sane.quiet (h : s.Sane) (hquiet : Quiet s t) : t.Sane := by
  unfold Sane
  rw [hquiet.ledger]
  exact Ledger.Sane.mono h hquiet.next

theorem Sane.ended {ps : ℕ} (h : s.Sane) (hend : s.LoopEnded ps t) : t.Sane := by
  unfold Sane
  rw [hend.ledger]
  exact Ledger.Sane.mono (Ledger.Sane.dropAll h _) hend.next

theorem Sane.settled {ps : ℕ} {r : Except PyError LoopFlow} (h : t.Sane) (hend : Settled ps r t u) :
    u.Sane := by
  cases hend with
  | reads | awaits => exact h
  | ends _ hended => exact h.ended hended

theorem Sane.suspended {kind : Await → Prop} (h : t.Sane) (hleft : Suspended kind t u) : u.Sane := by
  cases hleft with
  | returned => exact h
  | awaits => exact Ledger.Sane.mono h (Nat.le_succ _)

theorem Sane.framed {ps : ℕ} {now : Clock} {uuid : Text} {plaintext : Plaintext} {r : Except PyError LoopFlow}
    (h : s.Sane) (hmove : FrameMove s ps now uuid plaintext r t) : t.Sane := by
  cases hmove with
  | quiet hquiet => exact h.quiet hquiet
  | paired _ _ hquiet => exact Sane.quiet (s := s.pairWith _ _ _) h hquiet
  | received _ _ hquiet => exact Sane.quiet (Ledger.Sane.touch h _ _) hquiet
  | unwritten _ hquiet => exact Sane.quiet ((Ledger.Sane.touch h _ _).drop _) hquiet
  | refused _ _ _ hquiet => exact Sane.quiet ((Ledger.Sane.touch h _ _).refuse _) hquiet
  | registeredItem _ _ _ _ hquiet => exact Sane.quiet (Ledger.Sane.register h _ _) hquiet
  | registeredPending _ _ _ htimer hnext hquiet =>
    subst htimer
    unfold Sane
    rw [hquiet.ledger]
    exact Ledger.Sane.mono (Ledger.Sane.arm (Ledger.Sane.register h _ _) (Nat.lt_succ_self _)) hnext
  | unnotified _ _ _ hquiet => exact Sane.quiet (Ledger.Sane.register h _ _) hquiet
  | finalised _ _ _ _ _ _ hquiet => exact Sane.quiet (Ledger.Sane.finalise h _) hquiet
  | unfinalised _ _ _ _ _ hquiet => exact Sane.quiet (Ledger.Sane.finalise h _) hquiet
  | dropped _ hquiet => exact Sane.quiet (Ledger.Sane.drop h _) hquiet
  | swept _ hquiet => exact Sane.quiet (Ledger.Sane.drop h _) hquiet
  | resumed _ _ _ _ _ hquiet => exact Sane.quiet (Ledger.Sane.register h _ _) hquiet

theorem Sane.handled {failed : Bool} {await : LoopAwait} {r : Except PyError LoopFlow} (h : s.Sane)
    (hmove : HandlerMove s failed await r t) : t.Sane := by
  cases hmove with
  | quiet _ hquiet _ => exact h.quiet hquiet
  | forgotten _ hquiet => exact Sane.quiet (Ledger.Sane.forget h _) hquiet

theorem Sane.called {event : Event} (h : s.Sane) (hmove : CallMove s event t) : t.Sane := by
  cases hmove with
  | quiet hquiet => exact h.quiet hquiet
  | paired _ _ hquiet => exact Sane.quiet (s := s.pairWith _ _ _) h hquiet
  | accepted hregistered _ _ hquiet => exact Sane.quiet (Ledger.Sane.accept h hregistered) hquiet
  | rejectedAway _ hquiet => exact Sane.quiet (Ledger.Sane.popIncoming h _) hquiet
  | rejected _ hquiet => exact Sane.quiet ((Ledger.Sane.popIncoming h _).cancelTimeout _) hquiet
  | cancelled _ hquiet => exact Sane.quiet (Ledger.Sane.drop h _) hquiet
  | discarded hquiet => exact Sane.quiet (Ledger.Sane.forget h _) hquiet
  | requested _ _ _ _ hquiet => exact Sane.quiet (Ledger.Sane.register h _ _) hquiet

theorem Sane.awaited {failed : Bool} {await : Await} (h : s.Sane)
    (hmove : AwaitMove s failed await t) : t.Sane := by
  cases hmove with
  | quiet hquiet => exact h.quiet hquiet
  | resumed _ hquiet => exact Sane.quiet (s := s.setObject _ _) h hquiet
  | abandoned _ hquiet => exact Sane.quiet (Ledger.Sane.forget h _) hquiet

theorem Sane.expired {sleeping : AcceptanceTimer} (h : s.Sane) (hmove : ExpiryMove s sleeping t) :
    t.Sane := by
  cases hmove with
  | quiet _ hquiet => exact h.quiet hquiet
  | expired _ hquiet => exact Sane.quiet ((Ledger.Sane.forget h _).popTimeout _) hquiet

/-- The numbers stay in order. -/
theorem sane_step (h : s.Sane) (event : Event) : (s.step event).Sane := by
  have hmove := step_move s event
  generalize s.step event = u at hmove
  cases hmove with
  | idle => exact h
  | connected => exact Ledger.Sane.mono h (Nat.le_succ _)
  | framed _ hframe hend => exact (h.framed hframe).settled hend
  | handled _ hhandler hend => exact (h.handled hhandler).settled hend
  | ended _ hend => exact h.ended hend
  | resumed _ hawait hleft =>
    exact (Sane.awaited (s := { s with tasks := s.tasks.pop _ }) h hawait).suspended hleft
  | expired _ hexpiry hleft => exact (Sane.expired (Ledger.Sane.fire h _) hexpiry).suspended hleft
  | called hcall hleft => exact (h.called hcall).suspended hleft

theorem Started.sane (h : s.Started) : s.Sane := by
  unfold Sane
  rw [h.ledger]
  constructor <;> simp [Ledger.empty]

end Daemon

end Ferry
