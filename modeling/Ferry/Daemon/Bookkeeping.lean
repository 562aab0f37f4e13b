import Ferry.Daemon.Watch

/-!
# The bookkeeping of the incoming transfers

The dictionaries of the incoming transfers have the same keys where they must, the sessions in them run
their loops, and no registered transfer has failed.  Some paths take an id out of a part of the
dictionaries only, or leave a failed transfer registered; every run without them keeps the dictionaries
in order.
-/

namespace Ferry

open Exec Text
open IncomingTransfer (sampleMetadata)

namespace Daemon

/-! ## The dictionaries -/

namespace Ledger

/-- Whatever is known about an id, a transfer is registered under it, and its session runs. -/
structure Tidy (l : Ledger) (runs : ℕ → Prop) : Prop where
  peers : ∀ i, l.incomingPeers.get i ≠ none → l.incomingTransfers.get i ≠ none
  timeouts : ∀ i, l.acceptTimeoutTasks.get i ≠ none → l.incomingTransfers.get i ≠ none
  lastChunks : ∀ i, l.lastChunkTime.get i ≠ none → l.incomingTransfers.get i ≠ none
  owners : ∀ i ps, l.incomingPeers.get i = some ps → runs ps

/-- An acceptance timeout or a time of a chunk is on record for an id. -/
def isTimed (l : Ledger) (i : Text) : Bool :=
  (l.acceptTimeoutTasks.get i).isSome || (l.lastChunkTime.get i).isSome

namespace Tidy

variable {l : Ledger} {runs runs' : ℕ → Prop}

theorem mono (h : l.Tidy runs) (himp : ∀ ps, runs ps → runs' ps) : l.Tidy runs' :=
  ⟨h.peers, h.timeouts, h.lastChunks, fun i ps hi ↦ himp ps (h.owners i ps hi)⟩

theorem drop (h : l.Tidy runs) (i : Text) : (l.drop i).Tidy runs := by
  cases h
  constructor <;> grind

theorem touch (h : l.Tidy runs) {i : Text} {object : ℕ}
    (hi : l.incomingTransfers.get i = some object) (now : ℤ) : (Daemon.touch i now l).Tidy runs := by
  cases h
  constructor <;> grind

theorem register (h : l.Tidy runs) {ps : ℕ} (hps : runs ps) (i : Text) (object : ℕ) :
    (l.register i object ps).Tidy runs := by
  cases h
  constructor <;> grind

theorem arm (h : l.Tidy runs) {ps : ℕ} (hps : runs ps) (i : Text) (object k : ℕ)
    (metadata : TransferMetadata) :
    (Daemon.arm k ⟨ps, i, metadata, object⟩ (l.register i object ps)).Tidy runs := by
  cases h
  constructor <;> grind

theorem finalise (h : l.Tidy runs) (i : Text) : ((l.cancelTimeout i).popLastChunk i).Tidy runs := by
  cases h
  constructor <;> grind

theorem forget (h : l.Tidy runs) {i : Text} (htimed : l.isTimed i = false) :
    (l.forget i).Tidy runs := by
  rw [isTimed, Bool.or_eq_false_iff, Option.isSome_eq_false_iff, Option.isSome_eq_false_iff,
    Option.isNone_iff_eq_none, Option.isNone_iff_eq_none] at htimed
  cases h
  constructor <;> grind

theorem accept (h : l.Tidy runs) (i : Text) (object : ℕ) : (l.accept i object).Tidy runs := by
  cases h
  constructor <;> grind

theorem fire (h : l.Tidy runs) (k : ℕ) : (l.fire k).Tidy runs := by
  cases h
  constructor <;> grind

theorem expire (h : l.Tidy runs) {i : Text} (hlast : l.lastChunkTime.get i = none) :
    ((l.forget i).popTimeout i).Tidy runs := by
  cases h
  constructor <;> grind

/-- Nothing is left of a session whose transfers are dropped. -/
theorem dropAll (h : l.Tidy runs) {ps : ℕ} {items : List (Text × ℕ)}
    (hitems : ∀ i, i ∈ items.map Prod.fst ↔
      (∃ object, l.incomingTransfers.get i = some object) ∧ l.incomingPeers.get i = some ps) :
    (l.dropAll items).Tidy fun other ↦ runs other ∧ other ≠ ps := by
  have hpeers := h.peers
  constructor
  · intro i
    have := h.peers i
    grind
  · intro i
    have := h.timeouts i
    grind
  · intro i
    have := h.lastChunks i
    grind
  · intro i other hi
    rw [dropAll_peers] at hi
    split at hi
    · cases hi
    · next hmem =>
      refine ⟨h.owners i other hi, fun heq ↦ hmem ?_⟩
      rw [heq] at hi
      exact (hitems i).mpr ⟨Option.ne_none_iff_exists'.mp (h.peers i (by simp [hi])), hi⟩

end Tidy

end Ledger

/-! ## The objects -/

/-- A transfer has failed or is cancelled. -/
def isDead (incoming : IncomingTransfer) : Bool :=
  incoming.state = .failed ∨ incoming.state = .cancelled

/-- No registered transfer is dead, with some exceptions. -/
def Live (s : Daemon) (exempt : Text → ℕ → Prop) : Prop :=
  ∀ i object, s.ledger.incomingTransfers.get i = some object → isDead (s.objects object) = true →
    exempt i object

variable {s t u : Daemon} {exempt exempt' : Text → ℕ → Prop}

namespace Live

theorem mono (h : s.Live exempt) (himp : ∀ i object,
    s.ledger.incomingTransfers.get i = some object → exempt i object → exempt' i object) :
    s.Live exempt' := fun i object hi hdead ↦ himp i object hi (h i object hi hdead)

/-- Transfers are only taken out. -/
theorem mapLedger (h : s.Live exempt) {f : Ledger → Ledger}
    (hf : ∀ i object, (f s.ledger).incomingTransfers.get i = some object →
      s.ledger.incomingTransfers.get i = some object) : (s.mapLedger f).Live exempt :=
  fun i object hi ↦ h i object (hf i object hi)

/-- The object of a transfer is not worse than before. -/
theorem setObject (h : s.Live exempt) {object : ℕ} {incoming : IncomingTransfer}
    (himp : isDead incoming = true → isDead (s.objects object) = true) :
    (s.setObject object incoming).Live exempt := by
  intro i other hi hdead
  by_cases hother : other = object
  · subst hother
    rw [setObject_self] at hdead
    exact h i other hi (himp hdead)
  · rw [setObject_of_ne _ _ hother] at hdead
    exact h i other hi hdead

theorem setObject_exempt (h : s.Live exempt) (object : ℕ) (incoming : IncomingTransfer) :
    (s.setObject object incoming).Live fun i other ↦ exempt i other ∨
      other = object ∧ isDead incoming = true := by
  intro i other hi hdead
  by_cases hother : other = object
  · subst hother
    rw [setObject_self] at hdead
    exact .inr ⟨rfl, hdead⟩
  · rw [setObject_of_ne _ _ hother] at hdead
    exact .inl (h i other hi hdead)

/-- A transfer is taken out, and its object changes. -/
theorem remove (h : s.Live exempt) (hsane : s.Sane) {f : Ledger → Ledger} {i : Text} {object : ℕ}
    (hi : s.ledger.incomingTransfers.get i = some object)
    (hf : ∀ j, (f s.ledger).incomingTransfers.get j =
      if j = i then none else s.ledger.incomingTransfers.get j) (incoming : IncomingTransfer) :
    ((s.mapLedger f).setObject object incoming).Live exempt := by
  intro j other hj hdead
  have hold : (f s.ledger).incomingTransfers.get j = some other := hj
  rw [hf] at hold
  split at hold
  · cases hold
  · next hji =>
    have hother : other ≠ object := fun heq ↦ hji (hsane.object_inj j i object (heq ▸ hold) hi)
    rw [setObject_of_ne _ _ hother] at hdead
    exact h j other hold hdead

/-- A new object is registered. -/
theorem register (h : s.Live exempt) (hsane : s.Sane) (i : Text) (ps : ℕ)
    (incoming : IncomingTransfer) :
    ((s.addObject incoming).mapLedger fun ledger ↦ ledger.register i s.next ps).Live
      fun j other ↦ exempt j other ∨ j = i ∧ isDead incoming = true := by
  intro j other hj hdead
  have hnew : (s.ledger.register i s.next ps).incomingTransfers.get j = some other := hj
  rw [Ledger.register_incoming] at hnew
  split at hnew
  · next hji =>
    obtain rfl := Option.some.inj hnew
    exact .inr ⟨hji, by rwa [mapLedger_objects, addObject_self] at hdead⟩
  · have hother : other ≠ s.next := (hsane.object_lt j other hnew).ne
    rw [mapLedger_objects, addObject_of_ne _ hother] at hdead
    exact .inl (h j other hnew hdead)

/-- A new object that is not dead. -/
theorem register_live (h : s.Live exempt) (hsane : s.Sane) (i : Text) (ps : ℕ)
    {incoming : IncomingTransfer} (hincoming : isDead incoming = false) :
    ((s.addObject incoming).mapLedger fun ledger ↦ ledger.register i s.next ps).Live exempt :=
  (h.register hsane i ps incoming).mono fun _ _ _ hj ↦
    hj.resolve_right fun hdead ↦ by simp [hincoming] at hdead

end Live

theorem live_quiet (hquiet : Quiet s t)
    (hlt : ∀ i object, s.ledger.incomingTransfers.get i = some object → object < s.next)
    (h : s.Live exempt) : t.Live exempt := by
  intro i object hi hdead
  rw [hquiet.ledger] at hi
  rw [hquiet.objects (hlt i object hi)] at hdead
  exact h i object hi hdead

/-! ## Events that leave the bookkeeping out of order -/

/-- The registered transfer whose chunk raises a `ValueError` or a `RuntimeError`. -/
def refusesChunk (s : Daemon) (plaintext : Plaintext) : Option Text :=
  match plaintext with
  | .chunk data =>
    match decodeChunkFrame data with
    | .ok chunk => (s.ledger.incomingTransfers.get chunk.transferId).bind fun object ↦
      match (IncomingTransfer.receiveChunk chunk ⟨s.disk, s.objects object⟩).1 with
      | .error e => if e.isValueOrRuntimeError then some chunk.transferId else none
      | .ok _ => none
    | .error _ => none
  | _ => none

/-- The transfer of another session that a TRANSFER_COMPLETE finds damaged without an answer. -/
def leavesFailed (s : Daemon) (ps : ℕ) (plaintext : Plaintext) : Option Text :=
  match plaintext with
  | .control ⟨some .transferComplete, .obj payload _⟩ =>
    match (Payload.getD payload "transfer_id" (.str [])).key with
    | .ok (some transferId) => (s.ledger.incomingTransfers.get transferId).bind fun object ↦
      if s.ledger.incomingPeers.get transferId = some ps ∨ s.canSend ps = true then none
      else match (IncomingTransfer.finalise ⟨s.disk, s.objects object⟩).1 with
        | .ok false => some transferId
        | _ => none
    | _ => none
  | _ => none

/-- The transfer that an event leaves in some of the dictionaries only. -/
def misfiles (s : Daemon) : Event → Option Text
  | .frame ps plaintext _ _ =>
    match (s.sessions ps).loop with
    | .reading => s.refusesChunk plaintext
    | _ => none
  | .loopResumes ps failed =>
    match (s.sessions ps).loop with
    | .handling (.transferResult transferId _ _ _) =>
      if failed = false ∧ s.ledger.isTimed transferId = true then some transferId else none
    | _ => none
  | .resume task failed _ =>
    match s.tasks.get task with
    | some (.resumeResponse transferId object _ resumeChunkIndex waiter) =>
      if s.abandonsResume failed object resumeChunkIndex waiter = true ∧
          s.ledger.isTimed transferId = true then some transferId
      else none
    | _ => none
  | .expire timer =>
    (s.ledger.timers.get timer).bind fun sleeping ↦
      if s.ledger.incomingTransfers.get sleeping.transferId ≠ none ∧
          s.ledger.lastChunkTime.get sleeping.transferId ≠ none then some sleeping.transferId
      else none
  | .rejectTransfer _ transferId =>
    if s.ledger.incomingTransfers.get transferId = none then none else some transferId
  | .discard transferId => if s.ledger.isTimed transferId then some transferId else none
  | _ => none

/-- The failed transfer that an event leaves registered. -/
def leavesDead (s : Daemon) : Event → Option Text
  | .frame ps plaintext _ _ =>
    match (s.sessions ps).loop with
    | .reading => s.leavesFailed ps plaintext
    | _ => none
  | .loopResumes ps failed =>
    match (s.sessions ps).loop with
    | .handling (.transferResult transferId object _ _) =>
      if failed = true ∧ s.ledger.incomingTransfers.get transferId = some object ∧
          s.ledger.incomingPeers.get transferId ≠ some ps ∧ isDead (s.objects object) = true then
        some transferId
      else none
    | _ => none
  | .acceptTransfer remoteAddr transferId =>
    if s.activeSessions.get remoteAddr = none then none
    else (s.ledger.incomingTransfers.get transferId).bind fun object ↦
      match (IncomingTransfer.begin ⟨s.disk, s.objects object⟩).1 with
      | .error e => if e.isTransferError then some transferId else none
      | .ok _ => none
  | _ => none

/-- An event leaves no transfer in some of the dictionaries only. -/
abbrev KeepsFiled (s : Daemon) (event : Event) : Prop := s.misfiles event = none

/-- An event leaves no transfer out of order. -/
abbrev KeepsTidy (s : Daemon) (event : Event) : Prop :=
  s.misfiles event = none ∧ s.leavesDead event = none

/-! ## What is registered -/

/-- Whatever is registered was registered before under the same id, or is new. -/
def RegistersNew (s t : Daemon) : Prop :=
  ∀ i object, t.ledger.incomingTransfers.get i = some object →
    s.ledger.incomingTransfers.get i = some object ∨ s.next ≤ object

namespace RegistersNew

theorem quiet (hquiet : Quiet s t) : s.RegistersNew t := by
  intro i object hi
  rw [hquiet.ledger] at hi
  exact .inl hi

/-- Transfers are only taken out. -/
theorem removes (hledger : t.ledger = u.ledger) (hremoves : ∀ i object,
    u.ledger.incomingTransfers.get i = some object →
      s.ledger.incomingTransfers.get i = some object) : s.RegistersNew t := by
  intro i object hi
  rw [hledger] at hi
  exact .inl (hremoves i object hi)

/-- A new object is registered. -/
theorem registers (hledger : t.ledger = u.ledger) {i : Text} (hregisters : ∀ j,
    u.ledger.incomingTransfers.get j =
      if j = i then some s.next else s.ledger.incomingTransfers.get j) : s.RegistersNew t := by
  intro j object hj
  rw [hledger, hregisters] at hj
  split at hj
  · exact .inr (Option.some.inj hj).le
  · exact .inl hj

theorem framed {ps : ℕ} {now : Clock} {plaintext : Plaintext} {r : Except PyError LoopFlow}
    (h : FrameMove s ps now uuid plaintext r t) : s.RegistersNew t := by
  cases h with
  | quiet hquiet => exact quiet hquiet
  | paired _ _ hquiet => exact removes hquiet.ledger fun _ _ ↦ id
  | received _ _ hquiet => exact removes hquiet.ledger (by simp)
  | unwritten _ hquiet => exact removes hquiet.ledger (by simp +contextual)
  | refused _ _ _ hquiet => exact removes hquiet.ledger (by simp +contextual)
  | registeredItem _ _ _ _ hquiet => exact registers hquiet.ledger fun _ ↦ Ledger.register_incoming _ _ _ _ ps
  | registeredPending _ _ _ _ _ hquiet =>
    exact registers hquiet.ledger fun _ ↦ Ledger.register_incoming _ _ _ _ ps
  | unnotified _ _ _ hquiet => exact registers hquiet.ledger fun _ ↦ Ledger.register_incoming _ _ _ _ ps
  | finalised _ _ _ _ _ _ hquiet => exact removes hquiet.ledger (by simp)
  | unfinalised _ _ _ _ _ hquiet => exact removes hquiet.ledger (by simp)
  | dropped _ hquiet => exact removes hquiet.ledger (by simp +contextual)
  | swept _ hquiet => exact removes hquiet.ledger (by simp +contextual)
  | resumed _ _ _ _ _ hquiet => exact registers hquiet.ledger fun _ ↦ Ledger.register_incoming _ _ _ _ ps

theorem handled {failed : Bool} {await : LoopAwait} {r : Except PyError LoopFlow}
    (h : HandlerMove s failed await r t) : s.RegistersNew t := by
  cases h with
  | quiet _ hquiet _ => exact quiet hquiet
  | forgotten _ hquiet => exact removes hquiet.ledger (by simp +contextual)

theorem called {event : Event} (h : CallMove s event t) : s.RegistersNew t := by
  cases h with
  | quiet hquiet => exact quiet hquiet
  | paired _ _ hquiet => exact removes hquiet.ledger fun _ _ ↦ id
  | accepted _ _ _ hquiet => exact removes hquiet.ledger (by simp)
  | rejectedAway _ hquiet => exact removes hquiet.ledger (by simp +contextual)
  | rejected _ hquiet => exact removes hquiet.ledger (by simp +contextual)
  | cancelled _ hquiet => exact removes hquiet.ledger (by simp +contextual)
  | discarded hquiet => exact removes hquiet.ledger (by simp +contextual)
  | @requested _ _ _ ps _ _ _ _ _ _ _ hquiet =>
    exact registers hquiet.ledger fun _ ↦ Ledger.register_incoming _ _ _ _ ps

theorem awaited {failed : Bool} {await : Await} (h : AwaitMove s failed await t) :
    s.RegistersNew t := by
  cases h with
  | quiet hquiet => exact quiet hquiet
  | resumed _ hquiet => exact removes hquiet.ledger (by simp)
  | abandoned _ hquiet => exact removes hquiet.ledger (by simp +contextual)

theorem expired {sleeping : AcceptanceTimer} (h : ExpiryMove s sleeping t) : s.RegistersNew t := by
  cases h with
  | quiet _ hquiet => exact quiet hquiet
  | expired _ hquiet => exact removes hquiet.ledger (by simp +contextual)

theorem ended {ps : ℕ} (h : s.LoopEnded ps t) : s.RegistersNew t :=
  fun _ _ hi ↦ .inl (h.registered hi).1

theorem settled {ps : ℕ} {r : Except PyError LoopFlow} (h : s.RegistersNew t)
    (hend : Settled ps r t u) : s.RegistersNew u := by
  cases hend with
  | reads | awaits => exact h
  | ends _ hended => exact fun i object hi ↦ h i object (hended.registered hi).1

end RegistersNew

/-- The transfer of a suspended `request_resume` is registered under its id only. -/
def Resuming (s : Daemon) : Prop :=
  ∀ task await i object, s.tasks.get task = some await → await.resuming = some (i, object) →
    object < s.next ∧ ∀ j, s.ledger.incomingTransfers.get j = some object → j = i

namespace Resuming

/-- Whatever is registered on the way, the suspended coroutines stay. -/
theorem kept (h : s.Resuming) (hnext : s.next ≤ t.next) (htasks : t.tasks = s.tasks)
    (hregisters : s.RegistersNew t) : t.Resuming := by
  intro task await i object htask hawait
  rw [htasks] at htask
  obtain ⟨hlt, hunique⟩ := h task await i object htask hawait
  refine ⟨hlt.trans_le hnext, fun j hj ↦ hunique j ?_⟩
  exact (hregisters j object hj).resolve_right (Nat.not_le_of_lt hlt)

/-- A coroutine that is left behind waits for a transfer like the others. -/
theorem suspended {kind : Await → Prop} (h : t.Resuming) (hleft : Suspended kind t u)
    (hkind : ∀ left i object, kind left → left.resuming = some (i, object) →
      object < t.next ∧ ∀ j, t.ledger.incomingTransfers.get j = some object → j = i) :
    u.Resuming := by
  cases hleft with
  | returned => exact h
  | awaits left hleft =>
    intro task await i object htask hawait
    have hold : object < t.next ∧ ∀ j, t.ledger.incomingTransfers.get j = some object → j = i := by
      change (t.tasks.set t.next left).get task = some await at htask
      rw [Dict.get_set] at htask
      split at htask
      · obtain rfl := Option.some.inj htask
        exact hkind left i object hleft hawait
      · exact h task await i object htask hawait
    exact ⟨hold.1.trans (Nat.lt_succ_self _), hold.2⟩

theorem settled {ps : ℕ} {r : Except PyError LoopFlow} (h : s.Resuming) (hkept : Bookkept s t)
    (hregisters : s.RegistersNew t) (hend : Settled ps r t u) : u.Resuming := by
  have htasks : t.tasks = s.tasks := hkept .tasks (by decide)
  refine h.kept ?_ ?_ (hregisters.settled hend)
  · cases hend with
    | reads | awaits => exact hkept.next
    | ends _ hended => exact hkept.next.trans hended.next
  · cases hend with
    | reads | awaits => exact htasks
    | ends _ hended => exact hended.tasks.trans htasks

theorem step (h : s.Resuming) (hsane : s.Sane) (event : Event) : (s.step event).Resuming := by
  have hmove := step_move s event
  generalize s.step event = u at hmove
  cases hmove with
  | idle => exact h
  | connected => exact h.kept (Nat.le_succ _) rfl fun _ _ hi ↦ .inl hi
  | framed _ hframe hend => exact h.settled hframe.bookkept (.framed hframe) hend
  | handled _ hhandler hend => exact h.settled hhandler.bookkept (.handled hhandler) hend
  | ended _ hend => exact h.kept hend.next hend.tasks (.ended hend)
  | @resumed task _ _ await _ _ htask hawait hleft =>
    have hpopped : Resuming { s with tasks := s.tasks.pop task } := by
      intro other await i object hother
      rw [Dict.get_pop] at hother
      split at hother
      · exact (nomatch hother)
      · exact h other await i object hother
    have hregisters := RegistersNew.awaited hawait
    have hnext := hawait.bookkept.next
    refine (hpopped.kept hnext (hawait.bookkept .tasks (by decide)) hregisters).suspended hleft ?_
    intro left i object hkind hresuming
    obtain ⟨hlt, hunique⟩ := h task await i object htask (by
      rcases hkind with hnone | hsame
      · exact (nomatch hnone.symm.trans hresuming)
      · exact hsame.symm.trans hresuming)
    refine ⟨hlt.trans_le hnext, fun j hj ↦ hunique j ?_⟩
    exact (hregisters j object hj).resolve_right (Nat.not_le_of_lt hlt)
  | @expired timer _ _ _ _ hexpiry hleft =>
    have hfired : (s.mapLedger fun ledger ↦ ledger.fire timer).Resuming := h
    refine (hfired.kept hexpiry.bookkept.next (hexpiry.bookkept .tasks (by decide))
      (RegistersNew.expired hexpiry)).suspended hleft ?_
    intro left i object hnone hresuming
    exact (nomatch hnone.symm.trans hresuming)
  | called hcall hleft =>
    refine (h.kept hcall.bookkept.next (hcall.bookkept .tasks (by decide))
      (RegistersNew.called hcall)).suspended hleft ?_
    intro left i object hnew hresuming
    obtain ⟨rfl, hlt, hi⟩ := hnew i object hresuming
    exact ⟨hlt, fun j hj ↦ (hsane.called hcall).object_inj j i s.next hj hi⟩

end Resuming

/-! ## What a session loop leaves in order -/

/-- The loop of a session has not ended. -/
def Runs (s : Daemon) (ps : ℕ) : Prop := (s.sessions ps).loop ≠ .ended

theorem tidy_settled {ps : ℕ} {r : Except PyError LoopFlow} (h : t.ledger.Tidy t.Runs)
    (hend : Settled ps r t u) : u.ledger.Tidy u.Runs := by
  have hset : ∀ {loop : LoopState}, loop ≠ .ended → (t.setLoop ps loop).ledger.Tidy
      (t.setLoop ps loop).Runs := by
    intro loop hloop
    refine h.mono fun other hother ↦ ?_
    change (Function.update t.sessions ps _ other).loop ≠ .ended
    by_cases heq : other = ps
    · subst heq
      rwa [Function.update_self]
    · rwa [Function.update_of_ne heq]
  cases hend with
  | reads => exact hset (by simp)
  | awaits => exact hset (by simp)
  | ends _ hended =>
    rw [hended.ledger]
    refine (h.dropAll fun i ↦ mem_ids_incomingOf).mono fun other hother ↦ ?_
    rw [Runs, hended.loop_of_ne other hother.2]
    exact hother.1

/-- The end of a session loop leaves the transfers of the other sessions as they are. -/
theorem Live.ended {ps : ℕ} (h : t.Live exempt) (hsane : t.Sane) (hend : t.LoopEnded ps u) :
    u.Live exempt := by
  intro i object hi hdead
  obtain ⟨hold, howner⟩ := hend.registered hi
  have hother : object ∉ (t.incomingOf ps).map Prod.snd := by
    intro hmem
    obtain ⟨⟨j, _⟩, hj, rfl⟩ := List.mem_map.mp hmem
    obtain ⟨hregistered, hps⟩ := mem_incomingOf.mp hj
    exact howner (hsane.object_inj i j _ hold hregistered ▸ hps)
  rw [hend.objects object (hsane.object_lt i object hold) hother] at hdead
  exact h i object hold hdead

theorem live_settled {ps : ℕ} {r : Except PyError LoopFlow} (h : t.Live (s.LeftOpen ps r t))
    (hsane : t.Sane) (hkept : Bookkept s t) (hend : Settled ps r t u) : u.Live u.InCompletion := by
  have hlive : u.Live (s.LeftOpen ps r t) := by
    cases hend with
    | reads | awaits => exact h
    | ends _ hended => exact h.ended hsane hended
  exact hlive.mono fun i object hi ↦ inCompletion_settled hkept hend hi

/-! ## Steps -/

section Frames

variable {ps : ℕ} {plaintext : Plaintext} {now : Clock} {uuid : Text} {r : Except PyError LoopFlow}

/-- No chunk is refused. -/
theorem refusesChunk_none (hreading : (s.sessions ps).loop = .reading)
    (hkeeps : s.KeepsFiled (.frame ps plaintext now uuid)) : s.refusesChunk plaintext = none := by
  simpa only [KeepsFiled, misfiles, hreading] using hkeeps

theorem refusesChunk_refused {chunk : ChunkFrame} {object : ℕ} {e : PyError}
    (hchunk : s.IsChunkFor plaintext chunk object)
    (hraised : (IncomingTransfer.receiveChunk chunk ⟨s.disk, s.objects object⟩).1 = .error e)
    (he : e.isValueOrRuntimeError = true) : s.refusesChunk plaintext = some chunk.transferId := by
  obtain ⟨data, rfl, hdecoded⟩ := hchunk.decoded
  simp [refusesChunk, hdecoded, hchunk.registered, hraised, he]

/-- A TRANSFER_COMPLETE that finds a damaged file and is not answered comes from the session of the
transfer. -/
theorem owner_of_leavesFailed {payload : Payload} {transferId : Text} {object : ℕ}
    (hmessage : IsMessage plaintext .transferComplete payload)
    (hkey : (payload.getD "transfer_id" (.str [])).key = .ok (some transferId))
    (hregistered : s.ledger.incomingTransfers.get transferId = some object)
    (hreturned : (IncomingTransfer.finalise ⟨s.disk, s.objects object⟩).1 = .ok false)
    (hsend : s.canSend ps = false) (hnone : s.leavesFailed ps plaintext = none) :
    s.ledger.incomingPeers.get transferId = some ps := by
  obtain ⟨text, rfl⟩ := hmessage
  by_contra howner
  simp [leavesFailed, hkey, hregistered, howner, hsend, hreturned] at hnone

theorem tidy_framed (h : s.ledger.Tidy s.Runs) (hreading : (s.sessions ps).loop = .reading)
    (hkeeps : s.KeepsFiled (.frame ps plaintext now uuid))
    (hmove : FrameMove s ps now uuid plaintext r t) : t.ledger.Tidy s.Runs := by
  have hruns : s.Runs ps := by
    rw [Runs, hreading]
    simp
  have htidy : ∀ {l : Ledger}, t.ledger = l → l.Tidy s.Runs → t.ledger.Tidy s.Runs := by
    rintro l rfl hl
    exact hl
  cases hmove with
  | quiet hquiet => exact htidy hquiet.ledger h
  | paired _ _ hquiet => exact htidy hquiet.ledger h
  | received hchunk _ hquiet => exact htidy hquiet.ledger (h.touch hchunk.registered _)
  | unwritten hchunk hquiet => exact htidy hquiet.ledger ((h.touch hchunk.registered _).drop _)
  | refused hchunk hraised he _ =>
    have hrefuses := refusesChunk_refused hchunk hraised he
    exact (nomatch (refusesChunk_none hreading hkeeps).symm.trans hrefuses)
  | registeredItem _ _ _ _ hquiet => exact htidy hquiet.ledger (h.register hruns _ _)
  | registeredPending _ _ _ _ _ hquiet => exact htidy hquiet.ledger (h.arm hruns _ _ _ _)
  | unnotified _ _ _ hquiet => exact htidy hquiet.ledger (h.register hruns _ _)
  | finalised _ _ _ _ _ _ hquiet => exact htidy hquiet.ledger (h.finalise _)
  | unfinalised _ _ _ _ _ hquiet => exact htidy hquiet.ledger (h.finalise _)
  | dropped _ hquiet => exact htidy hquiet.ledger (h.drop _)
  | swept _ hquiet => exact htidy hquiet.ledger (h.drop _)
  | resumed _ _ _ _ _ hquiet => exact htidy hquiet.ledger (h.register hruns _ _)

theorem isDead_congr {incoming incoming' : IncomingTransfer} (h : incoming.state = incoming'.state) :
    isDead incoming = isDead incoming' := by
  rw [isDead, isDead, h]

theorem live_framed (h : s.Live s.InCompletion) (hsane : s.Sane)
    (hreading : (s.sessions ps).loop = .reading)
    (hkeeps : s.KeepsTidy (.frame ps plaintext now uuid))
    (hmove : FrameMove s ps now uuid plaintext r t) : t.Live (s.LeftOpen ps r t) := by
  have hlive : s.Live fun i object ↦ s.LeftOpen ps r t i object := by
    refine h.mono ?_
    rintro i object - ⟨other, success, sha256, hloop⟩
    refine .inl ⟨other, ?_, success, sha256, hloop⟩
    rintro rfl
    exact (nomatch hreading.symm.trans hloop)
  cases hmove with
  | quiet hquiet => exact live_quiet hquiet hsane.object_lt hlive
  | paired _ _ hquiet => exact live_quiet hquiet hsane.object_lt hlive
  | received _ hstate hquiet =>
    refine live_quiet hquiet (hsane.touch _ _).object_lt ((hlive.mapLedger ?_).setObject ?_)
    · exact fun _ _ hi ↦ hi
    · exact fun hdead ↦ (isDead_congr hstate).symm.trans hdead
  | @unwritten chunk _ _ _ _ hchunk hquiet =>
    have hremoved := hlive.remove (f := fun ledger ↦
      (touch chunk.transferId now.monotonic ledger).drop chunk.transferId) hsane hchunk.registered
      fun _ ↦ Ledger.drop_incoming ..
    exact live_quiet hquiet ((hsane.touch _ _).drop _).object_lt (hremoved _)
  | refused hchunk hraised he _ =>
    have hrefuses := refusesChunk_refused hchunk hraised he
    exact (nomatch (refusesChunk_none hreading hkeeps.1).symm.trans hrefuses)
  | registeredItem _ _ _ hstate hquiet =>
    refine live_quiet hquiet (hsane.register _ _).object_lt ((hlive.register hsane _ ps _).mono ?_)
    rintro i object - (hopen | ⟨rfl, hdead⟩)
    · exact hopen
    · rcases hstate with hstate | he
      · simp [isDead, hstate] at hdead
      · exact .inr (.inr ⟨he, by simp [hquiet.ledger]⟩)
  | registeredPending _ _ _ _ _ hquiet =>
    refine live_quiet hquiet (hsane.register _ ps).object_lt
      ((hlive.register_live hsane _ ps rfl).mapLedger ?_)
    exact fun _ _ hi ↦ hi
  | unnotified _ _ _ hquiet =>
    exact live_quiet hquiet (hsane.register _ _).object_lt (hlive.register_live hsane _ ps rfl)
  | @finalised _ transferId object _ success _ _ hmessage hkey hregistered hreturned hstate hr hquiet =>
    refine live_quiet hquiet (hsane.finalise _).object_lt
      (((hlive.mapLedger (by simp)).setObject_exempt object _).mono ?_)
    rintro i other hi (hopen | ⟨rfl, hdead⟩)
    · exact hopen
    · have hfailed : success = false := by
        cases success
        · rfl
        · simp [isDead, hstate] at hdead
      obtain rfl := hsane.object_inj i transferId other (by simpa using hi) hregistered
      rcases hr with ⟨he, hsend⟩ | ⟨sha256, hr⟩
      · subst hfailed
        have hleaves : s.leavesFailed ps plaintext = none := by
          simpa only [leavesDead, hreading] using hkeeps.2
        have howner := owner_of_leavesFailed hmessage hkey hregistered hreturned hsend hleaves
        exact .inr (.inr ⟨he, by simpa [hquiet.ledger] using howner⟩)
      · exact .inr (.inl ⟨_, sha256, hr⟩)
  | unfinalised _ _ _ _ hstate hquiet =>
    refine live_quiet hquiet (hsane.finalise _).object_lt ((hlive.mapLedger (by simp)).setObject ?_)
    exact fun hdead ↦ (isDead_congr hstate).symm.trans hdead
  | dropped hregistered hquiet =>
    exact live_quiet hquiet (hsane.drop _).object_lt
      (hlive.remove hsane hregistered (fun _ ↦ Ledger.drop_incoming ..) _)
  | swept _ hquiet =>
    exact live_quiet hquiet (hsane.drop _).object_lt (hlive.mapLedger (by simp +contextual))
  | resumed _ _ _ _ hstate hquiet =>
    exact live_quiet hquiet (hsane.register _ _).object_lt
      (hlive.register_live hsane _ ps (by simp [isDead, hstate]))

end Frames

theorem tidy_handled {ps : ℕ} {failed : Bool} {await : LoopAwait} {r : Except PyError LoopFlow}
    (h : s.ledger.Tidy s.Runs) (hawait : (s.sessions ps).loop = .handling await)
    (hkeeps : s.KeepsFiled (.loopResumes ps failed)) (hmove : HandlerMove s failed await r t) :
    t.ledger.Tidy s.Runs := by
  cases hmove with
  | quiet _ hquiet _ => rwa [hquiet.ledger]
  | forgotten _ hquiet =>
    rw [hquiet.ledger]
    refine h.forget ?_
    simpa [KeepsFiled, misfiles, hawait] using hkeeps

theorem live_handled {ps : ℕ} {failed : Bool} {await : LoopAwait} {r : Except PyError LoopFlow}
    (h : s.Live s.InCompletion) (hsane : s.Sane) (hawait : (s.sessions ps).loop = .handling await)
    (hkeeps : s.KeepsTidy (.loopResumes ps failed)) (hmove : HandlerMove s failed await r t) :
    t.Live (s.LeftOpen ps r t) := by
  cases hmove with
  | quiet _ hquiet hfails =>
    refine live_quiet hquiet hsane.object_lt fun i object hi hdead ↦ ?_
    rcases completes_of_ne hawait (h i object hi hdead) with hother | ⟨success, sha256, rfl⟩
    · exact .inl hother
    · obtain ⟨rfl, he⟩ := hfails i object success sha256 rfl
      have howner : s.ledger.incomingPeers.get i = some ps := by
        by_contra hne
        simp [KeepsTidy, leavesDead, hawait, hi, hne, hdead] at hkeeps
      exact .inr (.inr ⟨he, hquiet.ledger ▸ howner⟩)
  | forgotten _ hquiet =>
    refine live_quiet hquiet (hsane.forget _).object_lt fun i object hi hdead ↦ ?_
    simp only [mapLedger_ledger, Ledger.forget_incoming] at hi
    split at hi
    · cases hi
    · next hne =>
      rcases completes_of_ne hawait (h i object hi hdead) with hother | ⟨_, _, heq⟩
      · exact .inl hother
      · cases heq
        exact absurd rfl hne

theorem tidy_called {event : Event} (h : s.ledger.Tidy s.Runs) (hsessions : s.SessionsSane)
    (hkeeps : s.KeepsFiled event) (hmove : CallMove s event t) : t.ledger.Tidy s.Runs := by
  cases hmove with
  | quiet hquiet => rwa [hquiet.ledger]
  | paired _ _ hquiet => rwa [hquiet.ledger]
  | accepted _ _ _ hquiet =>
    rw [hquiet.ledger]
    exact h.accept _ _
  | rejectedAway hregistered _ | rejected hregistered _ =>
    simp [KeepsFiled, misfiles, hregistered] at hkeeps
  | cancelled _ hquiet =>
    rw [hquiet.ledger]
    exact h.drop _
  | discarded hquiet =>
    rw [hquiet.ledger]
    refine h.forget ?_
    simpa [KeepsFiled, misfiles] using hkeeps
  | requested hactive _ _ _ hquiet =>
    rw [hquiet.ledger]
    exact h.register (hsessions.active _ _ hactive).2 _ _

theorem live_called {event : Event} (h : s.Live exempt) (hsane : s.Sane) (hkeeps : s.KeepsTidy event)
    (hmove : CallMove s event t) : t.Live exempt := by
  cases hmove with
  | quiet hquiet => exact live_quiet hquiet hsane.object_lt h
  | paired _ _ hquiet => exact live_quiet hquiet hsane.object_lt h
  | accepted hregistered hactive hstate hquiet =>
    refine live_quiet hquiet (hsane.accept hregistered).object_lt ((h.mapLedger (by simp)).setObject ?_)
    intro hdead
    rcases hstate with ⟨_, hstate⟩ | ⟨⟨e, w, hbegin, he⟩, _⟩ | hstate | hstate
    · simp [isDead, hstate] at hdead
    · simp [KeepsTidy, leavesDead, hregistered, hactive, hbegin, he] at hkeeps
    · simp [isDead, hstate] at hdead
    · exact (isDead_congr hstate).symm.trans hdead
  | rejectedAway hregistered _ | rejected hregistered _ =>
    simp [KeepsTidy, misfiles, hregistered] at hkeeps
  | cancelled hregistered hquiet =>
    exact live_quiet hquiet (hsane.drop _).object_lt
      (h.remove hsane hregistered (fun _ ↦ Ledger.drop_incoming ..) _)
  | discarded hquiet =>
    exact live_quiet hquiet (hsane.forget _).object_lt (h.mapLedger (by simp +contextual))
  | requested _ _ _ hstate hquiet =>
    exact live_quiet hquiet (hsane.register _ _).object_lt
      (h.register_live hsane _ _ (by simp [isDead, hstate]))

theorem tidy_resumed {task : ℕ} {failed : Bool} {now : Clock} {await : Await}
    (h : s.ledger.Tidy s.Runs) (hkeeps : s.KeepsFiled (.resume task failed now))
    (htask : s.tasks.get task = some await)
    (hmove : AwaitMove { s with tasks := s.tasks.pop task } failed await t) :
    t.ledger.Tidy s.Runs := by
  cases hmove with
  | quiet hquiet => rwa [hquiet.ledger]
  | resumed _ hquiet => rwa [hquiet.ledger]
  | abandoned habandons hquiet =>
    rw [hquiet.ledger]
    refine h.forget ?_
    have habandons' : s.abandonsResume failed _ _ _ = true := habandons
    simpa [KeepsFiled, misfiles, htask, habandons'] using hkeeps

theorem live_awaited {failed : Bool} {await : Await} (h : s.Live exempt) (hsane : s.Sane)
    (hunique : ∀ i object, await.resuming = some (i, object) →
      ∀ j, s.ledger.incomingTransfers.get j = some object → j = i)
    (hmove : AwaitMove s failed await t) : t.Live exempt := by
  cases hmove with
  | quiet hquiet => exact live_quiet hquiet hsane.object_lt h
  | resumed hstate hquiet =>
    exact live_quiet hquiet hsane.object_lt (h.setObject (by simp [isDead, hstate]))
  | @abandoned transferId object _ _ _ incoming _ _ hquiet =>
    refine live_quiet hquiet (hsane.forget _).object_lt fun j other hj hdead ↦ ?_
    simp only [mapLedger_ledger, setObject_ledger, Ledger.forget_incoming] at hj
    split at hj
    · cases hj
    · next hne =>
      have hother : other ≠ object := by
        rintro rfl
        exact hne (hunique transferId other rfl j hj)
      rw [mapLedger_objects, setObject_of_ne _ _ hother] at hdead
      exact h j other hj hdead

theorem expire_untimed {timer : ℕ} {sleeping : AcceptanceTimer} {object : ℕ}
    (hkeeps : s.KeepsFiled (.expire timer)) (htimer : s.ledger.timers.get timer = some sleeping)
    (hregistered : s.ledger.incomingTransfers.get sleeping.transferId = some object) :
    s.ledger.lastChunkTime.get sleeping.transferId = none := by
  simpa [KeepsFiled, misfiles, htimer, hregistered] using hkeeps

theorem tidy_expired {timer : ℕ} {sleeping : AcceptanceTimer} (h : s.ledger.Tidy s.Runs)
    (hkeeps : s.KeepsFiled (.expire timer)) (htimer : s.ledger.timers.get timer = some sleeping)
    (hmove : ExpiryMove (s.mapLedger fun ledger ↦ ledger.fire timer) sleeping t) :
    t.ledger.Tidy s.Runs := by
  cases hmove with
  | quiet _ hquiet =>
    rw [hquiet.ledger]
    exact h.fire timer
  | expired hregistered hquiet =>
    rw [hquiet.ledger]
    exact (h.fire timer).expire (expire_untimed hkeeps htimer hregistered)

theorem live_expired {sleeping : AcceptanceTimer} (h : s.Live exempt) (hsane : s.Sane)
    (hmove : ExpiryMove s sleeping t) : t.Live exempt := by
  cases hmove with
  | quiet _ hquiet => exact live_quiet hquiet hsane.object_lt h
  | expired hregistered hquiet =>
    have hexpired := (Ledger.Sane.forget hsane sleeping.transferId).popTimeout sleeping.transferId
    exact live_quiet hquiet hexpired.object_lt
      (h.remove hsane hregistered (fun _ ↦ Ledger.forget_incoming ..) _)

theorem tidy_kept (hkept : Bookkept s t) (h : t.ledger.Tidy s.Runs) : t.ledger.Tidy t.Runs := by
  refine h.mono fun ps hruns ↦ ?_
  rwa [Runs, Bookkept.loop hkept]

theorem tidy_suspended {kind : Await → Prop} (hkept : Bookkept s t) (htidy : t.ledger.Tidy s.Runs)
    (hleft : Suspended kind t u) : u.ledger.Tidy u.Runs := by
  have hboth := tidy_kept hkept htidy
  cases hleft with
  | returned | awaits => exact hboth

theorem live_suspended {kind : Await → Prop} (hkept : Bookkept s t) (hlive : t.Live s.InCompletion)
    (hleft : Suspended kind t u) : u.Live u.InCompletion := by
  cases hleft with
  | returned | awaits => exact hlive.mono fun _ _ _ ↦ inCompletion_kept hkept

/-- What the keys of the dictionaries rest on. -/
structure Filed (s : Daemon) : Prop where
  tidy : s.ledger.Tidy s.Runs
  sane : s.Sane
  sessions : s.SessionsSane

theorem filed_step (s : Daemon) (event : Event) (h : s.Filed) (hkeeps : s.KeepsFiled event) :
    (s.step event).Filed := by
  refine ⟨?_, sane_step h.sane event, h.sessions.step event⟩
  have hmove := step_move s event
  generalize s.step event = u at hmove
  cases hmove with
  | idle => exact h.tidy
  | connected =>
    refine h.tidy.mono fun ps hps ↦ ?_
    have hne : ps ≠ s.next := fun heq ↦ hps (h.sessions.fresh ps heq.ge)
    change (Function.update s.sessions s.next _ ps).loop ≠ _
    rwa [Function.update_of_ne hne]
  | framed hreading hframe hend =>
    exact tidy_settled (tidy_kept hframe.bookkept (tidy_framed h.tidy hreading hkeeps hframe)) hend
  | handled hawait hhandler hend =>
    exact tidy_settled (tidy_kept hhandler.bookkept (tidy_handled h.tidy hawait hkeeps hhandler)) hend
  | @ended ps _ _ hend =>
    exact tidy_settled (r := .ok .stop) h.tidy (.ends (.inl rfl) hend)
  | resumed htask hawait hleft =>
    have htidy := tidy_resumed h.tidy hkeeps htask hawait
    exact tidy_suspended hawait.bookkept htidy hleft
  | expired htimer hexpiry hleft =>
    exact tidy_suspended ((bookkept_mapLedger s _).trans hexpiry.bookkept)
      (tidy_expired h.tidy hkeeps htimer hexpiry) hleft
  | called hcall hleft =>
    exact tidy_suspended hcall.bookkept (tidy_called h.tidy h.sessions hkeeps hcall) hleft

/-- What the states of the registered transfers rest on. -/
structure Booked (s : Daemon) : Prop extends Filed s where
  live : s.Live s.InCompletion
  resuming : s.Resuming

theorem live_step (s : Daemon) (event : Event) (h : s.Booked) (hkeeps : s.KeepsTidy event) :
    (s.step event).Live (s.step event).InCompletion := by
  have hmove := step_move s event
  generalize s.step event = u at hmove
  cases hmove with
  | idle => exact h.live
  | connected => exact h.live.mono fun _ _ _ ↦ inCompletion_connect h.sessions _
  | framed hreading hframe hend =>
    exact live_settled (live_framed h.live h.sane hreading hkeeps hframe) (h.sane.framed hframe)
      hframe.bookkept hend
  | handled hawait hhandler hend =>
    exact live_settled (live_handled h.live h.sane hawait hkeeps hhandler) (h.sane.handled hhandler)
      hhandler.bookkept hend
  | @ended ps _ hreading hend =>
    have hopen : s.Live (s.LeftOpen ps (.ok .stop) s) := by
      refine h.live.mono ?_
      rintro i object - ⟨other, success, sha256, hloop⟩
      refine .inl ⟨other, ?_, success, sha256, hloop⟩
      rintro rfl
      exact (nomatch hreading.symm.trans hloop)
    exact live_settled hopen h.sane (within_refl s) (.ends (.inl rfl) hend)
  | @resumed task _ _ _ _ _ htask hawait hleft =>
    have hunique := fun i object hresuming ↦ (h.resuming task _ i object htask hresuming).2
    have hlive := live_awaited (s := { s with tasks := s.tasks.pop task }) h.live h.sane hunique hawait
    exact live_suspended hawait.bookkept hlive hleft
  | @expired timer _ _ _ _ hexpiry hleft =>
    have hfired := h.live.mapLedger (f := fun ledger ↦ ledger.fire timer) fun _ _ hi ↦ hi
    have hlive := live_expired hfired (h.sane.fire timer) hexpiry
    exact live_suspended ((bookkept_mapLedger s _).trans hexpiry.bookkept) hlive hleft
  | called hcall hleft =>
    exact live_suspended hcall.bookkept (live_called h.live h.sane hkeeps hcall) hleft

theorem booked_step (s : Daemon) (event : Event) (h : s.Booked) (hkeeps : s.KeepsTidy event) :
    (s.step event).Booked :=
  ⟨filed_step s event h.toFiled hkeeps.1, live_step s event h hkeeps, h.resuming.step h.sane event⟩

/-! ## Runs -/

/-- The dictionaries of the incoming transfers agree, the sessions in them run their loops, and no
transfer is FAILED or CANCELLED between handlers. -/
structure InOrder (s : Daemon) : Prop where
  peers : ∀ i, s.ledger.incomingPeers.get i ≠ none → s.ledger.incomingTransfers.get i ≠ none
  timeouts : ∀ i, s.ledger.acceptTimeoutTasks.get i ≠ none → s.ledger.incomingTransfers.get i ≠ none
  lastChunks : ∀ i, s.ledger.lastChunkTime.get i ≠ none → s.ledger.incomingTransfers.get i ≠ none
  transfers : ∀ i, s.ledger.incomingTransfers.get i ≠ none → s.ledger.incomingPeers.get i ≠ none
  owners : ∀ i ps, s.ledger.incomingPeers.get i = some ps → (s.sessions ps).loop ≠ .ended
  alive : ∀ i object, s.ledger.incomingTransfers.get i = some object → ¬s.InCompletion i object →
    (s.objects object).state ≠ .failed ∧ (s.objects object).state ≠ .cancelled

theorem Booked.inOrder (h : s.Booked) : s.InOrder where
  peers := h.tidy.peers
  timeouts := h.tidy.timeouts
  lastChunks := h.tidy.lastChunks
  transfers i hi := by
    obtain ⟨object, hobject⟩ := Option.ne_none_iff_exists'.mp hi
    obtain ⟨ps, hps⟩ := h.sane.owned i object hobject
    simp [hps]
  owners := h.tidy.owners
  alive i object hi hbetween := by
    have halive : ¬isDead (s.objects object) = true := fun hdead ↦ hbetween (h.live i object hi hdead)
    simpa [isDead] using halive

theorem Started.filed (h : s.Started) : s.Filed := by
  refine ⟨?_, h.sane, h.sessionsSane⟩
  rw [h.ledger]
  constructor <;> simp [Ledger.empty]

theorem Started.booked (h : s.Started) : s.Booked := by
  refine ⟨h.filed, fun i object hi _ ↦ ?_, fun task await i object htask ↦ ?_⟩
  · rw [h.ledger] at hi
    exact (nomatch hi)
  · rw [h.tasks] at htask
    exact (nomatch htask)

end Daemon

end Ferry
