import Ferry.Daemon.AcceptanceTimer
import Ferry.Daemon.Sessions

/-!
# The watchdogs of the incoming transfers

A transfer is watched by its acceptance timeout until the user decides, and by the stall monitor from
its first chunk on.  Nothing watches it between `accept_transfer` and the first chunk, nor a transfer
that is registered for an accepted batch or resumed, nor one whose TRANSFER_COMPLETE comes from another
session and fails.
-/

namespace Ferry

open Exec Text
open IncomingTransfer (sampleMetadata)

namespace Daemon

namespace Ledger

/-- An acceptance timeout sleeps for a transfer, or the stall monitor has a time for it. -/
def Watched (l : Ledger) (i : Text) : Prop :=
  (∃ k sleeping, l.acceptTimeoutTasks.get i = some k ∧ l.timers.get k = some sleeping) ∨
    ∃ last, l.lastChunkTime.get i = some last

/-- `Watched`, as a look-up. -/
def isWatched (l : Ledger) (i : Text) : Bool :=
  ((l.acceptTimeoutTasks.get i).bind l.timers.get).isSome || (l.lastChunkTime.get i).isSome

theorem isWatched_iff (l : Ledger) (i : Text) : l.isWatched i = true ↔ l.Watched i := by
  simp [isWatched, Watched, Option.isSome_iff_exists, Option.bind_eq_some_iff, exists_comm]

/-- Every registered transfer is watched, with some exceptions. -/
def Guards (l : Ledger) (exempt : Text → ℕ → Prop) : Prop :=
  ∀ i object, l.incomingTransfers.get i = some object → exempt i object ∨ l.Watched i

namespace Guards

variable {l : Ledger} {exempt exempt' : Text → ℕ → Prop} {next : ℕ}

theorem mono (h : l.Guards exempt) (himp : ∀ i object, exempt i object → exempt' i object) :
    l.Guards exempt' := fun i object hi ↦ (h i object hi).imp_left (himp i object)

theorem drop (h : l.Guards exempt) (hsane : l.Sane next) (i : Text) : (l.drop i).Guards exempt := by
  intro j object hj
  have := h j object
  have := hsane.timer_id
  grind [Watched]

/-- What is left after the transfers of a list are dropped. -/
theorem dropAll (h : l.Guards exempt) (hsane : l.Sane next) (items : List (Text × ℕ)) :
    (l.dropAll items).Guards exempt := by
  induction items generalizing l with
  | nil => exact h
  | cons item rest ih => exact ih (h.drop hsane item.1) (hsane.drop item.1)

theorem touch (h : l.Guards exempt) (i : Text) (now : ℤ) : (Daemon.touch i now l).Guards exempt := by
  intro j object hj
  have := h j object hj
  grind [Watched]

theorem refuse (h : l.Guards exempt) (i : Text) :
    ((l.popIncoming i).popLastChunk i).Guards exempt := by
  intro j object hj
  have := h j object
  grind [Watched]

/-- A transfer is registered under an id that is watched already. -/
theorem register (h : l.Guards exempt) {i : Text} (hwatched : l.Watched i) (object ps : ℕ) :
    (l.register i object ps).Guards exempt := by
  intro j other hj
  have := h j other
  grind [Watched]

/-- A transfer is registered for nobody to watch. -/
theorem register_exempt (h : l.Guards exempt) (i : Text) (object ps : ℕ) :
    (l.register i object ps).Guards fun j other ↦ exempt j other ∨ j = i := by
  intro j other hj
  have := h j other
  grind [Watched]

theorem arm (h : l.Guards exempt) (hsane : l.Sane next) (i : Text) (object ps k : ℕ)
    (metadata : TransferMetadata) (hnext : next ≤ k) :
    (Daemon.arm k ⟨ps, i, metadata, object⟩ (l.register i object ps)).Guards exempt := by
  intro j other hj
  by_cases hji : j = i
  · subst hji
    exact .inr (.inl ⟨k, ⟨ps, j, metadata, object⟩, by simp, by simp⟩)
  · have := h j other
    have := hsane.timer_lt
    grind [Watched]

theorem finalise (h : l.Guards exempt) (hsane : l.Sane next) (i : Text) :
    ((l.cancelTimeout i).popLastChunk i).Guards fun j other ↦ exempt j other ∨ j = i := by
  intro j object hj
  have := h j object
  have := hsane.timer_id
  grind [Watched]

theorem forget (h : l.Guards exempt) (i : Text) : (l.forget i).Guards exempt := by
  intro j object hj
  have := h j object
  grind [Watched]

/-- An accepted transfer is watched if a chunk has come already. -/
theorem accept (h : l.Guards exempt) (hsane : l.Sane next) {i : Text} {last : ℤ}
    (hlast : l.lastChunkTime.get i = some last) (object : ℕ) : (l.accept i object).Guards exempt := by
  intro j other hj
  have := h j other
  have := hsane.timer_id
  grind [Watched]

theorem popIncoming (h : l.Guards exempt) (i : Text) : (l.popIncoming i).Guards exempt := by
  intro j object hj
  have := h j object
  grind [Watched]

theorem reject (h : l.Guards exempt) (hsane : l.Sane next) (i : Text) :
    ((l.popIncoming i).cancelTimeout i).Guards exempt := by
  intro j object hj
  have := h j object
  have := hsane.timer_id
  grind [Watched]

/-- The transfer of a timeout that fires is gone. -/
theorem expire (h : l.Guards exempt) (hsane : l.Sane next) {k : ℕ} {sleeping : AcceptanceTimer}
    (hk : l.timers.get k = some sleeping) :
    (((l.fire k).forget sleeping.transferId).popTimeout sleeping.transferId).Guards exempt := by
  intro j object hj
  have := h j object
  have := hsane.timer_id
  grind [Watched]

theorem expire_none (h : l.Guards exempt) (hsane : l.Sane next) {k : ℕ} {sleeping : AcceptanceTimer}
    (hk : l.timers.get k = some sleeping)
    (hnone : l.incomingTransfers.get sleeping.transferId = none) : (l.fire k).Guards exempt := by
  intro j object hj
  have := h j object
  have := hsane.timer_id
  grind [Watched]

end Guards

end Ledger

/-! ## Events that leave a transfer without a watchdog -/

/-- The transfer whose TRANSFER_COMPLETE comes from another session and fails. -/
def failsToComplete (s : Daemon) (ps : ℕ) (plaintext : Plaintext) : Option Text :=
  match plaintext with
  | .control ⟨some .transferComplete, .obj payload _⟩ =>
    match (Payload.getD payload "transfer_id" (.str [])).key with
    | .ok (some transferId) => (s.ledger.incomingTransfers.get transferId).bind fun object ↦
      if s.ledger.incomingPeers.get transferId = some ps then none
      else if s.canSend ps = true ∧
          (IncomingTransfer.finalise ⟨s.disk, s.objects object⟩).1.isOk = true then none
      else some transferId
    | _ => none
  | _ => none

/-- The transfer that a frame registers for nobody to watch: an item of an accepted batch, or a resumed
transfer. -/
def registersUnwatched (s : Daemon) (ps : ℕ) (plaintext : Plaintext) (now : Clock) : Option Text :=
  (((s.requests plaintext now).filter fun metadata ↦ metadata.batchId ≠ []).map
    TransferMetadata.transferId).or (s.resumes ps plaintext now)

/-- The transfer that an event leaves without a watchdog. -/
def unwatches (s : Daemon) : Event → Option Text
  | .acceptTransfer remoteAddr transferId =>
    if s.ledger.incomingTransfers.get transferId = none ∨ s.activeSessions.get remoteAddr = none ∨
        (s.ledger.lastChunkTime.get transferId).isSome then none
    else some transferId
  | .frame ps plaintext now _ =>
    match (s.sessions ps).loop with
    | .reading => ((s.registersUnwatched ps plaintext now).filter fun transferId ↦
        !s.ledger.isWatched transferId).or (s.failsToComplete ps plaintext)
    | _ => none
  | .loopResumes ps failed =>
    match (s.sessions ps).loop with
    | .handling (.transferResult transferId object _ _) =>
      if failed = true ∧ s.ledger.incomingTransfers.get transferId = some object ∧
          s.ledger.incomingPeers.get transferId ≠ some ps then some transferId
      else none
    | _ => none
  | .requestResume remoteAddr transferId now =>
    (s.registers (.requestResume remoteAddr transferId now)).filter fun transferId ↦
      !s.ledger.isWatched transferId
  | _ => none

/-- An event leaves no transfer without a watchdog. -/
abbrev KeepsWatch (s : Daemon) (event : Event) : Prop := s.unwatches event = none

/-- The TRANSFER_COMPLETE of a transfer is being answered by a session. -/
def Completes (s : Daemon) (ps : ℕ) (transferId : Text) (object : ℕ) : Prop :=
  ∃ success sha256, (s.sessions ps).loop = .handling (.transferResult transferId object success sha256)

/-- The handler of its TRANSFER_COMPLETE has not returned. -/
def InCompletion (s : Daemon) (transferId : Text) (object : ℕ) : Prop :=
  ∃ ps, s.Completes ps transferId object

/-- Every transfer is watched, but for those whose TRANSFER_COMPLETE is being answered. -/
def AllWatched (s : Daemon) : Prop := s.ledger.Guards s.InCompletion

variable {s t u : Daemon}

/-- A transfer that a segment of a session loop leaves to what follows: its TRANSFER_COMPLETE is being
answered, or its session ends. -/
def LeftOpen (s : Daemon) (ps : ℕ) (r : Except PyError LoopFlow) (t : Daemon) (i : Text)
    (object : ℕ) : Prop :=
  (∃ other, other ≠ ps ∧ s.Completes other i object) ∨
    (∃ success sha256, r = .ok (.await (.transferResult i object success sha256))) ∨
    (∃ e, r = .error e) ∧ t.ledger.incomingPeers.get i = some ps

/-- Every transfer is watched after a segment of a session loop, but for those that are left open. -/
def LoopGuards (s : Daemon) (ps : ℕ) (r : Except PyError LoopFlow) (t : Daemon) : Prop :=
  t.ledger.Guards (s.LeftOpen ps r t)

/-- A transfer that is left open and stays registered is in completion. -/
theorem inCompletion_settled {ps : ℕ} {r : Except PyError LoopFlow} (hkept : Bookkept s t)
    (hend : Settled ps r t u) {i : Text} {object : ℕ}
    (hi : u.ledger.incomingTransfers.get i = some object) (hopen : s.LeftOpen ps r t i object) :
    u.InCompletion i object := by
  have hother : ∀ {other loop}, other ≠ ps → s.Completes other i object →
      (t.setLoop ps loop).Completes other i object := by
    intro other loop hne hcompletes
    unfold Completes
    change ∃ success sha256, (Function.update t.sessions ps _ other).loop = _
    rw [Function.update_of_ne hne, Bookkept.loop hkept]
    exact hcompletes
  cases hend with
  | reads =>
    rcases hopen with ⟨other, hne, hcompletes⟩ | ⟨_, _, hr⟩ | ⟨⟨_, hr⟩, _⟩
    · exact ⟨other, hother hne hcompletes⟩
    · exact (nomatch hr)
    · exact (nomatch hr)
  | awaits await =>
    rcases hopen with ⟨other, hne, hcompletes⟩ | ⟨success, sha256, hr⟩ | ⟨⟨_, hr⟩, _⟩
    · exact ⟨other, hother hne hcompletes⟩
    · refine ⟨ps, success, sha256, ?_⟩
      cases hr
      exact congrArg PeerSession.loop (Function.update_self ps _ t.sessions)
    · exact (nomatch hr)
  | ends hr hended =>
    rcases hopen with ⟨other, hne, success, sha256, hcompletes⟩ | ⟨_, _, hr'⟩ | ⟨_, howner⟩
    · refine ⟨other, success, sha256, ?_⟩
      rw [hended.loop_of_ne other hne, Bookkept.loop hkept]
      exact hcompletes
    · rcases hr with hr | ⟨_, hr⟩
      · exact (nomatch hr.symm.trans hr')
      · exact (nomatch hr.symm.trans hr')
    · exact absurd howner (hended.registered hi).2

theorem allWatched_settled {ps : ℕ} {r : Except PyError LoopFlow} (h : s.LoopGuards ps r t)
    (hsane : t.Sane) (hkept : Bookkept s t) (hend : Settled ps r t u) : u.AllWatched := by
  have hguards : u.ledger.Guards (s.LeftOpen ps r t) := by
    cases hend with
    | reads | awaits => exact h
    | ends _ hended =>
      rw [hended.ledger]
      exact Ledger.Guards.dropAll h hsane _
  exact fun i object hi ↦ (hguards i object hi).imp_left (inCompletion_settled hkept hend hi)

theorem allWatched_suspended {kind : Await → Prop} (h : t.AllWatched) (hleft : Suspended kind t u) :
    u.AllWatched := by
  cases hleft with
  | returned | awaits => exact h

theorem inCompletion_kept (hkept : Bookkept s t) {i : Text} {object : ℕ}
    (h : s.InCompletion i object) : t.InCompletion i object := by
  obtain ⟨ps, success, sha256, hloop⟩ := h
  exact ⟨ps, success, sha256, (Bookkept.loop hkept ps).trans hloop⟩

theorem inCompletion_connect (hsessions : s.SessionsSane) (session : PeerSession) {i : Text}
    {object : ℕ} (h : s.InCompletion i object) : (s.connect session).InCompletion i object := by
  obtain ⟨ps, success, sha256, hloop⟩ := h
  refine ⟨ps, success, sha256, ?_⟩
  have hne : ps ≠ s.next := fun heq ↦ nomatch (hsessions.fresh ps heq.ge).symm.trans hloop
  change (Function.update s.sessions s.next _ ps).loop = _
  rw [Function.update_of_ne hne]
  exact hloop

/-- A segment that is no part of a session loop. -/
theorem allWatched_kept (hkept : Bookkept s t) (h : t.ledger.Guards s.InCompletion) : t.AllWatched :=
  h.mono fun _ _ ↦ inCompletion_kept hkept

theorem guards_quiet {exempt : Text → ℕ → Prop} (hquiet : Quiet s t) (h : s.ledger.Guards exempt) :
    t.ledger.Guards exempt := by
  rwa [hquiet.ledger]

/-! ## Steps -/

section Frames

variable {ps : ℕ} {plaintext : Plaintext} {now : Clock} {uuid : Text} {payload : Payload}

/-- What a frame may not do. -/
theorem keepsWatch_frame (hreading : (s.sessions ps).loop = .reading)
    (hwatch : s.KeepsWatch (.frame ps plaintext now uuid)) :
    (∀ transferId, s.registersUnwatched ps plaintext now = some transferId →
      s.ledger.Watched transferId) ∧ s.failsToComplete ps plaintext = none := by
  simp only [KeepsWatch, unwatches, hreading, Option.or_eq_none_iff, Option.filter_eq_none_iff] at hwatch
  refine ⟨fun transferId hregisters ↦ ?_, hwatch.2⟩
  have hnot := hwatch.1 transferId hregisters
  rw [Bool.not_eq_true, Bool.not_eq_false'] at hnot
  exact (Ledger.isWatched_iff _ _).mp hnot

theorem registersUnwatched_item {metadata : TransferMetadata}
    (hrequests : s.requests plaintext now = some metadata) (hbatch : metadata.batchId ≠ []) :
    s.registersUnwatched ps plaintext now = some metadata.transferId := by
  simp [registersUnwatched, hrequests, hbatch]

theorem registersUnwatched_resume {transferId : Text}
    (hmessage : IsMessage plaintext .transferResumeRequest payload)
    (hresumes : s.resumes ps plaintext now = some transferId) :
    s.registersUnwatched ps plaintext now = some transferId := by
  have hrequests : s.requests plaintext now = none := by
    obtain ⟨text, rfl⟩ := hmessage
    rfl
  simp [registersUnwatched, hrequests, hresumes]

/-- The TRANSFER_COMPLETE that fails comes from the session of the transfer. -/
theorem owner_of_failsToComplete {transferId : Text} {object : ℕ}
    (hmessage : IsMessage plaintext .transferComplete payload)
    (hkey : (payload.getD "transfer_id" (.str [])).key = .ok (some transferId))
    (hregistered : s.ledger.incomingTransfers.get transferId = some object)
    (hfails : s.canSend ps = false ∨
      ∃ e, (IncomingTransfer.finalise ⟨s.disk, s.objects object⟩).1 = .error e)
    (hnone : s.failsToComplete ps plaintext = none) :
    s.ledger.incomingPeers.get transferId = some ps := by
  have hrefused : ¬(s.canSend ps = true ∧
      (IncomingTransfer.finalise ⟨s.disk, s.objects object⟩).1.isOk = true) := by
    rintro ⟨hsend, hok⟩
    rcases hfails with hfails | ⟨e, he⟩
    · exact absurd hsend (by simp [hfails])
    · rw [he] at hok
      exact (nomatch hok)
  obtain ⟨text, rfl⟩ := hmessage
  by_contra howner
  simp only [failsToComplete, hkey, hregistered, Option.bind_some, if_neg howner, if_neg hrefused]
    at hnone
  exact (nomatch hnone)

theorem loopGuards_framed (h : s.AllWatched) (hsane : s.Sane)
    (hreading : (s.sessions ps).loop = .reading)
    (hwatch : s.KeepsWatch (.frame ps plaintext now uuid)) {r : Except PyError LoopFlow}
    (hmove : FrameMove s ps now uuid plaintext r t) : s.LoopGuards ps r t := by
  obtain ⟨hregisters, hcompletes⟩ := keepsWatch_frame hreading hwatch
  have hguards : s.ledger.Guards fun i object ↦ ∃ other, other ≠ ps ∧ s.Completes other i object := by
    refine h.mono ?_
    rintro i object ⟨other, success, sha256, hloop⟩
    refine ⟨other, ?_, success, sha256, hloop⟩
    rintro rfl
    exact (nomatch hreading.symm.trans hloop)
  have hwatched : ∀ {l : Ledger} {v : Daemon}, v.ledger = l →
      l.Guards (fun i object ↦ ∃ other, other ≠ ps ∧ s.Completes other i object) →
      s.LoopGuards ps r v := by
    rintro l v rfl hl
    exact hl.mono fun _ _ ↦ .inl
  cases hmove with
  | quiet hquiet => exact hwatched hquiet.ledger hguards
  | paired _ _ hquiet => exact hwatched hquiet.ledger hguards
  | received _ _ hquiet => exact hwatched hquiet.ledger (hguards.touch _ _)
  | unwritten _ hquiet =>
    exact hwatched hquiet.ledger
      ((hguards.touch _ _).drop (Ledger.Sane.touch hsane _ _) _)
  | refused _ _ _ hquiet =>
    exact hwatched hquiet.ledger
      ((hguards.touch _ _).refuse _)
  | registeredItem hmessage hmetadata hitem _ hquiet =>
    have hrequests := requests_message hmessage hmetadata (acceptsRequest_item hitem)
    exact hwatched hquiet.ledger
      (hguards.register (hregisters _ (registersUnwatched_item hrequests hitem.1)) _ _)
  | registeredPending _ _ _ htimer _ hquiet =>
    subst htimer
    exact hwatched hquiet.ledger
      (hguards.arm hsane _ _ _ _ _ (Nat.le_succ _))
  | unnotified _ _ _ hquiet =>
    unfold LoopGuards
    rw [hquiet.ledger]
    refine (hguards.register_exempt _ _ _).mono fun i object hi ↦ ?_
    rcases hi with hi | rfl
    · exact .inl hi
    · exact .inr (.inr ⟨⟨_, rfl⟩, by simp [hquiet.ledger]⟩)
  | finalised hmessage hkey hregistered _ _ hr hquiet =>
    intro i other hi
    rw [hquiet.ledger] at hi ⊢
    rcases (hguards.finalise hsane _) i other hi with (hother | rfl) | hwatched
    · exact .inl (.inl hother)
    · rcases hr with ⟨hr, hsend⟩ | ⟨sha256, hr⟩
      · have howner := owner_of_failsToComplete hmessage hkey hregistered (.inl hsend) hcompletes
        exact .inl (.inr (.inr ⟨hr, by simpa [hquiet.ledger] using howner⟩))
      · have hobject : some _ = some other := hregistered.symm.trans (by simpa using hi)
        cases hobject
        exact .inl (.inr (.inl ⟨_, sha256, hr⟩))
    · exact .inr hwatched
  | unfinalised hmessage hkey hregistered hraised _ hquiet =>
    unfold LoopGuards
    rw [hquiet.ledger]
    refine (hguards.finalise hsane _).mono fun i object hi ↦ ?_
    rcases hi with hi | rfl
    · exact .inl hi
    · have howner := owner_of_failsToComplete hmessage hkey hregistered (.inr ⟨_, hraised⟩) hcompletes
      exact .inr (.inr ⟨⟨_, rfl⟩, by simpa [hquiet.ledger] using howner⟩)
  | dropped _ hquiet => exact hwatched hquiet.ledger (hguards.drop hsane _)
  | swept _ hquiet => exact hwatched hquiet.ledger (hguards.drop hsane _)
  | resumed hmessage hkey hrecord hgranted _ hquiet =>
    have hresumes := resumes_message hmessage hkey hrecord hgranted
    exact hwatched hquiet.ledger
      (hguards.register (hregisters _ (registersUnwatched_resume hmessage hresumes)) _ _)

end Frames

/-- The transfer that a handler completes is open in its own session only. -/
theorem completes_of_ne {ps : ℕ} {await : LoopAwait} {i : Text} {object : ℕ}
    (hawait : (s.sessions ps).loop = .handling await) (h : s.InCompletion i object) :
    (∃ other, other ≠ ps ∧ s.Completes other i object) ∨
      ∃ success sha256, await = .transferResult i object success sha256 := by
  obtain ⟨other, success, sha256, hloop⟩ := h
  by_cases hps : other = ps
  · subst hps
    exact .inr ⟨success, sha256, LoopState.handling.inj (hawait.symm.trans hloop)⟩
  · exact .inl ⟨other, hps, success, sha256, hloop⟩

theorem loopGuards_handled {ps : ℕ} {failed : Bool} {await : LoopAwait} {r : Except PyError LoopFlow}
    (h : s.AllWatched) (hawait : (s.sessions ps).loop = .handling await)
    (hwatch : s.KeepsWatch (.loopResumes ps failed)) (hmove : HandlerMove s failed await r t) :
    s.LoopGuards ps r t := by
  cases hmove with
  | quiet hr hquiet hfails =>
    intro i object hi
    rw [hquiet.ledger] at hi ⊢
    rcases h i object hi with hcompletion | hwatched
    · rcases completes_of_ne hawait hcompletion with hother | ⟨success, sha256, rfl⟩
      · exact .inl (.inl hother)
      · obtain ⟨rfl, he⟩ := hfails i object success sha256 rfl
        have howner : s.ledger.incomingPeers.get i = some ps := by
          by_contra hne
          simp [KeepsWatch, unwatches, hawait, hi, hne] at hwatch
        exact .inl (.inr (.inr ⟨he, hquiet.ledger ▸ howner⟩))
    · exact .inr hwatched
  | forgotten hr hquiet =>
    intro i object hi
    rw [hquiet.ledger] at hi ⊢
    rcases (Ledger.Guards.forget h _) i object hi with hcompletion | hwatched
    · rcases completes_of_ne hawait hcompletion with hother | ⟨success, sha256, heq⟩
      · exact .inl (.inl hother)
      · cases heq
        simp at hi
    · exact .inr hwatched

theorem guards_called {event : Event} (h : s.AllWatched) (hsane : s.Sane)
    (hwatch : s.KeepsWatch event) (hmove : CallMove s event t) : t.ledger.Guards s.InCompletion := by
  cases hmove with
  | quiet hquiet => exact guards_quiet hquiet h
  | paired _ _ hquiet => exact guards_quiet hquiet h
  | accepted hregistered hactive _ hquiet =>
    simp only [KeepsWatch, unwatches, hregistered, hactive, reduceCtorEq, false_or, ite_eq_left_iff,
      Option.isSome_iff_exists, imp_false, not_not] at hwatch
    obtain ⟨last, hlast⟩ := hwatch
    exact guards_quiet hquiet (Ledger.Guards.accept h hsane hlast _)
  | rejectedAway _ hquiet => exact guards_quiet hquiet (Ledger.Guards.popIncoming h _)
  | rejected _ hquiet => exact guards_quiet hquiet (Ledger.Guards.reject h hsane _)
  | cancelled _ hquiet => exact guards_quiet hquiet (Ledger.Guards.drop h hsane _)
  | discarded hquiet => exact guards_quiet hquiet (Ledger.Guards.forget h _)
  | requested hactive hrecord hprepared _ hquiet =>
    have hregisters := registers_requestResume hactive hrecord hprepared
    rw [KeepsWatch, unwatches, hregisters, Option.filter_eq_none_iff] at hwatch
    have hwatched := hwatch _ rfl
    rw [Bool.not_eq_true, Bool.not_eq_false', Ledger.isWatched_iff] at hwatched
    exact guards_quiet hquiet (Ledger.Guards.register h hwatched _ _)

theorem allWatched_connect (h : s.AllWatched) (hsessions : s.SessionsSane) (session : PeerSession) :
    (s.connect session).AllWatched :=
  h.mono fun _ _ ↦ inCompletion_connect hsessions session

/-- Everything that the watchdogs rest on. -/
structure Watching (s : Daemon) : Prop where
  watched : s.AllWatched
  sane : s.Sane
  sessions : s.SessionsSane

theorem watching_step (s : Daemon) (event : Event) (h : s.Watching) (hwatch : s.KeepsWatch event) :
    (s.step event).Watching := by
  refine ⟨?_, sane_step h.sane event, h.sessions.step event⟩
  have hmove := step_move s event
  generalize s.step event = u at hmove
  cases hmove with
  | idle => exact h.watched
  | connected => exact allWatched_connect h.watched h.sessions _
  | framed hreading hframe hend =>
    exact allWatched_settled (loopGuards_framed h.watched h.sane hreading hwatch hframe)
      (h.sane.framed hframe) hframe.bookkept hend
  | handled hawait hhandler hend =>
    exact allWatched_settled (loopGuards_handled h.watched hawait hwatch hhandler)
      (h.sane.handled hhandler) hhandler.bookkept hend
  | ended hreading hend =>
    refine allWatched_settled (r := .ok .stop) ?_ h.sane (within_refl s) (.ends (.inl rfl) hend)
    refine h.watched.mono ?_
    rintro i object ⟨other, success, sha256, hloop⟩
    refine .inl ⟨other, ?_, success, sha256, hloop⟩
    rintro rfl
    exact (nomatch hreading.symm.trans hloop)
  | resumed _ hawait hleft =>
    refine allWatched_suspended (allWatched_kept hawait.bookkept ?_) hleft
    cases hawait with
    | quiet hquiet => exact guards_quiet hquiet h.watched
    | resumed _ hquiet => exact guards_quiet hquiet h.watched
    | abandoned _ hquiet => exact guards_quiet hquiet (Ledger.Guards.forget h.watched _)
  | expired htimer hexpiry hleft =>
    refine allWatched_suspended ?_ hleft
    refine allWatched_kept ((bookkept_mapLedger s _).trans hexpiry.bookkept) ?_
    cases hexpiry with
    | quiet hnone hquiet =>
      exact guards_quiet hquiet (Ledger.Guards.expire_none h.watched h.sane htimer hnone)
    | expired _ hquiet => exact guards_quiet hquiet (Ledger.Guards.expire h.watched h.sane htimer)
  | called hcall hleft =>
    exact allWatched_suspended
      (allWatched_kept hcall.bookkept (guards_called h.watched h.sane hwatch hcall)) hleft

/-! ## What the watchdogs do -/

/-- A transfer whose sender goes silent is removed when its timeout fires, or its session is closed when
the stall monitor runs. -/
def Recovers (s : Daemon) (transferId : Text) : Prop :=
  (∃ timer, s.ledger.acceptTimeoutTasks.get transferId = some timer ∧
    (s.step (.expire timer)).ledger.incomingTransfers.get transferId = none) ∨
  ∃ last ps, s.ledger.lastChunkTime.get transferId = some last ∧
    s.ledger.incomingPeers.get transferId = some ps ∧
    ∀ now, last + stallTimeout < now → ((s.step (.stall now)).sessions ps).closed = true

theorem closes_forEach (sessions : List ℕ) (s : Daemon) :
    wp (forEach (fun ps ↦ onSession ps fun session ↦ { session with closed := true }) sessions)
      (fun _ t ↦ ∀ ps, (s.sessions ps).closed = true ∨ ps ∈ sessions → (t.sessions ps).closed = true)
      s := by
  induction sessions generalizing s with
  | nil => exact fun ps hps ↦ hps.resolve_right List.not_mem_nil
  | cons head rest ih =>
    rw [forEach, onSession, wp_modify_bind]
    refine wp_mono (ih _) fun _ t ht ps hps ↦ ht ps ?_
    change (Function.update s.sessions head _ ps).closed = true ∨ _
    by_cases hhead : ps = head
    · subst hhead
      rw [Function.update_self]
      exact .inl rfl
    · rw [Function.update_of_ne hhead]
      exact hps.imp_right fun hmem ↦ (List.mem_cons.mp hmem).resolve_left hhead

theorem stall_closes {transferId : Text} {last now : ℤ} {ps : ℕ}
    (hlast : s.ledger.lastChunkTime.get transferId = some last)
    (howner : s.ledger.incomingPeers.get transferId = some ps) (hnow : last + stallTimeout < now) :
    ((s.step (.stall now)).sessions ps).closed = true := by
  have hmem : ps ∈ s.ledger.lastChunkTime.items.filterMap (s.stalledSession now) := by
    refine List.mem_filterMap.mpr ⟨(transferId, last), Dict.mem_items.mpr hlast, ?_⟩
    rw [stalledSession, if_pos (by omega)]
    exact howner
  exact closes_forEach _ s ps (.inr hmem)

theorem expire_removes {transferId : Text} {timer : ℕ} {sleeping : AcceptanceTimer}
    (hsleeping : s.ledger.timers.get timer = some sleeping) (hid : sleeping.transferId = transferId) :
    (s.step (.expire timer)).ledger.incomingTransfers.get transferId = none := by
  subst hid
  have hstep : s.step (.expire timer) = runCall (acceptanceTimeout sleeping)
      (s.mapLedger fun ledger ↦ { ledger with timers := ledger.timers.pop timer }) := by
    simp only [step, hsleeping]
    rfl
  obtain ⟨t, hexpiry, hleft⟩ := acceptanceTimeout_suspended sleeping
    (s.mapLedger fun ledger ↦ { ledger with timers := ledger.timers.pop timer })
  rw [hstep, hleft.ledger]
  cases hexpiry with
  | quiet hnone hquiet =>
    rw [hquiet.ledger]
    exact hnone
  | expired _ hquiet =>
    rw [hquiet.ledger]
    simp

/-- A watched transfer does not stay for ever. -/
theorem recovers_of_watched (hsane : s.Sane) {transferId : Text} {object : ℕ}
    (hregistered : s.ledger.incomingTransfers.get transferId = some object)
    (hwatched : s.ledger.Watched transferId) : s.Recovers transferId := by
  rcases hwatched with ⟨timer, sleeping, htimer, hsleeping⟩ | ⟨last, hlast⟩
  · have hid := hsane.timer_id transferId timer sleeping htimer hsleeping
    exact .inl ⟨timer, htimer, expire_removes hsleeping hid⟩
  · obtain ⟨ps, howner⟩ := hsane.owned transferId object hregistered
    exact .inr ⟨last, ps, hlast, howner, fun now hnow ↦ stall_closes hlast howner hnow⟩

/-- In every run that leaves no transfer without a watchdog, every registered transfer is watched and is
freed from a silent sender, or its TRANSFER_COMPLETE is being answered. -/
theorem incoming_transfers_watched {s : Daemon} (hstarted : s.Started) {events : List Event}
    (hwatch : Always KeepsWatch s events) (transferId : Text) (object : ℕ)
    (hregistered : (s.run events).ledger.incomingTransfers.get transferId = some object) :
    (s.run events).InCompletion transferId object ∨
      (s.run events).ledger.Watched transferId ∧ (s.run events).Recovers transferId := by
  have hinit : s.Watching := by
    refine ⟨fun i o hi ↦ ?_, hstarted.sane, hstarted.sessionsSane⟩
    rw [hstarted.ledger] at hi
    exact (nomatch hi)
  have hwatching := run_induction watching_step hinit hwatch
  refine (hwatching.watched transferId object hregistered).imp_right fun hwatched ↦ ?_
  exact ⟨hwatched, recovers_of_watched hwatching.sane hregistered hwatched⟩

/-- A request that the user has not decided. -/
theorem incoming_transfers_watched_sample :
    (sampleDaemon.run [phoneConnects, sampleRequest]).InCompletion (sampleMetadata "").transferId 1 ∨
      (sampleDaemon.run [phoneConnects, sampleRequest]).ledger.Watched (sampleMetadata "").transferId ∧
      (sampleDaemon.run [phoneConnects, sampleRequest]).Recovers (sampleMetadata "").transferId :=
  incoming_transfers_watched started_sampleDaemon (by decide +kernel) _ _ (by decide +kernel)

/-- The user accepts the request: until the first chunk comes, nothing watches the transfer. -/
theorem accepted_transfer_unwatched :
    let s := sampleDaemon.run [phoneConnects, sampleRequest,
      .acceptTransfer samplePhone (sampleMetadata "").transferId]
    s.ledger.incomingTransfers.get (sampleMetadata "").transferId = some 1 ∧
      ¬(s.InCompletion (sampleMetadata "").transferId 1 ∨
        s.ledger.Watched (sampleMetadata "").transferId) := by
  intro s
  refine ⟨by decide +kernel, ?_⟩
  rintro (⟨ps, success, sha256, hloop⟩ | hwatched)
  · have hsessions : s.SessionsSane := started_sampleDaemon.sessionsSane.run _
    have hnext : s.next = 3 := by decide +kernel
    have hidle : ∀ ps < 3, (s.sessions ps).loop.isHandling = false := by decide +kernel
    by_cases hlt : ps < 3
    · have hnone := hidle ps hlt
      rw [hloop] at hnone
      cases hnone
    · cases (hsessions.fresh ps (by omega)).symm.trans hloop
  · have hnot : s.ledger.isWatched (sampleMetadata "").transferId = false := by decide +kernel
    rw [← Ledger.isWatched_iff, hnot] at hwatched
    cases hwatched

end Daemon

end Ferry
