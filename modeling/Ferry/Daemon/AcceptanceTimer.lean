import Ferry.Daemon.Ledger
import Ferry.Transfer.Confinement

/-!
# The acceptance timeout

`_acceptance_timeout` finds its request by the transfer id when it fires.  It removes the request that
it was started for, and no other, as long as no transfer is registered under an id for which an older
timeout still sleeps.
-/

namespace Ferry

open Text
open IncomingTransfer (sampleDir rootDisk sampleMetadata)

namespace Daemon

/-! ## Registering under an id -/

/-- `_on_transfer_request` registers a transfer for this metadata. -/
def acceptsRequest (s : Daemon) (metadata : TransferMetadata) : Bool :=
  if metadata.batchId = [] then s.ledger.incomingTransfers.keys = []
  else s.acceptedBatch metadata.batchId

/-- The metadata of a TRANSFER_REQUEST that `_on_transfer_request` registers a transfer for. -/
def requests (s : Daemon) (plaintext : Plaintext) (now : Clock) : Option TransferMetadata :=
  match plaintext with
  | .control ⟨some .transferRequest, .obj payload _⟩ =>
    match TransferMetadata.fromDict now.wall payload with
    | .error _ => none
    | .ok metadata => if s.acceptsRequest metadata then some metadata else none
  | _ => none

/-- The id of a TRANSFER_RESUME_REQUEST that is granted. -/
def resumes (s : Daemon) (ps : ℕ) (plaintext : Plaintext) (now : Clock) : Option Text :=
  match plaintext with
  | .control ⟨some .transferResumeRequest, .obj payload _⟩ =>
    match Payload.getD payload "transfer_id" .null with
    | .str transferId => (s.db.interrupted transferId).bind fun info ↦
      if s.grantsResume ps payload now.wall info then some transferId else none
    | _ => none
  | _ => none

/-- The id that an event registers an incoming transfer under. -/
def registers (s : Daemon) : Event → Option Text
  | .frame ps plaintext now _ =>
    match (s.sessions ps).loop with
    | .reading =>
      ((s.requests plaintext now).map TransferMetadata.transferId).or (s.resumes ps plaintext now)
    | _ => none
  | .requestResume remoteAddr transferId now =>
    if s.activeSessions.get remoteAddr = none then none
    else (s.db.interrupted transferId).bind fun info ↦
      if s.preparesResume now info then some transferId else none
  | _ => none

/-- No acceptance timeout sleeps for the id that an event registers a transfer under. -/
def RegistersAnew (s : Daemon) (event : Event) : Prop :=
  ∀ transferId ∈ s.registers event, ∀ timer ∈ s.ledger.timers.items, timer.2.transferId ≠ transferId

instance (s : Daemon) (event : Event) : Decidable (s.RegistersAnew event) :=
  inferInstanceAs (Decidable (∀ transferId ∈ s.registers event, ∀ timer ∈ s.ledger.timers.items,
    timer.2.transferId ≠ transferId))

/-- When the timeout fires and removes a transfer, it was started for this very transfer, and the user
has not accepted it. -/
def ExpiresOwn (s : Daemon) (timer : ℕ) : Prop :=
  ∀ transferId object, s.ledger.incomingTransfers.get transferId = some object →
    (s.step (.expire timer)).ledger.incomingTransfers.get transferId ≠ some object →
    ∃ sleeping, s.ledger.timers.get timer = some sleeping ∧ sleeping.transferId = transferId ∧
      sleeping.object = object ∧ object ∉ s.ledger.accepted

/-! ## The invariant -/

namespace Ledger

/-- Every sleeping timeout is the one on record for its id, and what is registered under the id is the
undecided request that it was started for. -/
def Timed (l : Ledger) : Prop :=
  ∀ k sleeping, l.timers.get k = some sleeping →
    l.acceptTimeoutTasks.get sleeping.transferId = some k ∧
      ∀ object, l.incomingTransfers.get sleeping.transferId = some object →
        object = sleeping.object ∧ object ∉ l.accepted

/-- No timeout sleeps for an id. -/
def NoTimer (l : Ledger) (i : Text) : Prop :=
  ∀ k sleeping, l.timers.get k = some sleeping → sleeping.transferId ≠ i

namespace Timed

variable {l : Ledger} {next : ℕ}

theorem drop (h : l.Timed) (i : Text) : (l.drop i).Timed := by
  intro k sleeping hk
  have := h k sleeping
  grind

theorem dropAll (h : l.Timed) (items : List (Text × ℕ)) : (l.dropAll items).Timed := by
  induction items generalizing l with
  | nil => exact h
  | cons item rest ih => exact ih (h.drop item.1)

theorem touch (h : l.Timed) (i : Text) (now : ℤ) : (Daemon.touch i now l).Timed := h

theorem refuse (h : l.Timed) (i : Text) : ((l.popIncoming i).popLastChunk i).Timed := by
  intro k sleeping hk
  have := h k sleeping
  grind

theorem register (h : l.Timed) {i : Text} (hanew : l.NoTimer i) (object ps : ℕ) :
    (l.register i object ps).Timed := by
  intro k sleeping hk
  have := h k sleeping
  have := hanew k sleeping
  grind

theorem arm (h : l.Timed) (hsane : l.Sane next) {i : Text} (hanew : l.NoTimer i) (ps k : ℕ)
    (metadata : TransferMetadata) :
    (Daemon.arm k ⟨ps, i, metadata, next⟩ (l.register i next ps)).Timed := by
  have haccepted : next ∉ l.accepted := fun hmem ↦ lt_irrefl next (hsane.accepted_lt next hmem)
  intro k' sleeping hk
  have := h k' sleeping
  have := hanew k' sleeping
  grind

theorem finalise (h : l.Timed) (i : Text) : ((l.cancelTimeout i).popLastChunk i).Timed := by
  intro k sleeping hk
  have := h k sleeping
  grind

theorem forget (h : l.Timed) (i : Text) : (l.forget i).Timed := by
  intro k sleeping hk
  have := h k sleeping
  grind

/-- The timeout of an accepted transfer is cancelled, and no other sleeps for its id. -/
theorem accept (h : l.Timed) (hsane : l.Sane next) {i : Text} {object : ℕ}
    (hobject : l.incomingTransfers.get i = some object) : (l.accept i object).Timed := by
  intro k sleeping hk
  have := h k sleeping
  have := hsane.object_inj i sleeping.transferId object hobject
  grind

theorem popIncoming (h : l.Timed) (i : Text) : (l.popIncoming i).Timed := by
  intro k sleeping hk
  have := h k sleeping
  grind

theorem cancelTimeout (h : l.Timed) (i : Text) : (l.cancelTimeout i).Timed := by
  intro k sleeping hk
  have := h k sleeping
  grind

theorem fire (h : l.Timed) (k : ℕ) : (l.fire k).Timed := by
  intro k' sleeping hk
  have := h k' sleeping
  grind

/-- A timeout that has fired leaves no other behind for its id. -/
theorem expire (h : l.Timed) {k : ℕ} {sleeping : AcceptanceTimer}
    (hk : l.timers.get k = some sleeping) :
    (((l.fire k).forget sleeping.transferId).popTimeout sleeping.transferId).Timed := by
  intro k' other hk'
  have := h k sleeping hk
  have := h k' other
  grind

end Timed

end Ledger

variable {s t u : Daemon}

/-! ## Steps -/

theorem noTimer_of_registersAnew {event : Event} {transferId : Text} (h : s.RegistersAnew event)
    (hregisters : s.registers event = some transferId) : s.ledger.NoTimer transferId := by
  intro k sleeping hk
  exact h transferId hregisters (k, sleeping) (Dict.mem_items.mpr hk)

section Frames

variable {ps : ℕ} {plaintext : Plaintext} {now : Clock} {uuid : Text} {payload : Payload}

theorem requests_message {metadata : TransferMetadata}
    (hmessage : IsMessage plaintext .transferRequest payload)
    (hmetadata : TransferMetadata.fromDict now.wall payload = .ok metadata)
    (haccepted : s.acceptsRequest metadata = true) : s.requests plaintext now = some metadata := by
  obtain ⟨text, rfl⟩ := hmessage
  simp only [requests, hmetadata, haccepted, if_true]

theorem resumes_message {transferId : Text} {info : InterruptedTransferInfo}
    (hmessage : IsMessage plaintext .transferResumeRequest payload)
    (hkey : payload.getD "transfer_id" .null = .str transferId)
    (hrecord : s.db.interrupted transferId = some info)
    (hgranted : s.grantsResume ps payload now.wall info = true) :
    s.resumes ps plaintext now = some transferId := by
  obtain ⟨text, rfl⟩ := hmessage
  simp only [resumes, hkey, hrecord, hgranted, Option.bind_some, if_true]

theorem registers_request {metadata : TransferMetadata} (hreading : (s.sessions ps).loop = .reading)
    (hrequests : s.requests plaintext now = some metadata) :
    s.registers (.frame ps plaintext now uuid) = some metadata.transferId := by
  simp only [registers, hreading, hrequests, Option.map_some, Option.some_or]

theorem registers_resume {transferId : Text} (hreading : (s.sessions ps).loop = .reading)
    (hmessage : IsMessage plaintext .transferResumeRequest payload)
    (hresumes : s.resumes ps plaintext now = some transferId) :
    s.registers (.frame ps plaintext now uuid) = some transferId := by
  have hrequests : s.requests plaintext now = none := by
    obtain ⟨text, rfl⟩ := hmessage
    rfl
  simp only [registers, hreading, hrequests, hresumes, Option.map_none, Option.none_or]

theorem registers_requestResume {remoteAddr transferId : Text} {now : ℤ}
    {info : InterruptedTransferInfo} (hactive : s.activeSessions.get remoteAddr = some ps)
    (hrecord : s.db.interrupted transferId = some info) (hprepared : s.preparesResume now info = true) :
    s.registers (.requestResume remoteAddr transferId now) = some transferId := by
  simp only [registers, hactive, hrecord, hprepared, Option.bind_some, if_true, reduceCtorEq, if_false]

theorem acceptsRequest_item {metadata : TransferMetadata}
    (h : metadata.batchId ≠ [] ∧ s.acceptedBatch metadata.batchId = true) :
    s.acceptsRequest metadata = true := by
  simp only [acceptsRequest, h.1, h.2, if_false]

theorem acceptsRequest_pending {metadata : TransferMetadata}
    (h : metadata.batchId = [] ∧ s.ledger.incomingTransfers.keys = []) :
    s.acceptsRequest metadata = true := by
  simp only [acceptsRequest, h.1, h.2, if_true, decide_true]

end Frames

/-- The timeouts are in order, and so are the numbers. -/
def Timed (s : Daemon) : Prop := s.ledger.Timed ∧ s.Sane

theorem timed_quiet (hquiet : Quiet s t) (h : s.ledger.Timed) : t.ledger.Timed := by
  rwa [hquiet.ledger]

theorem timed_settled {ps : ℕ} {r : Except PyError LoopFlow} (h : t.ledger.Timed)
    (hend : Settled ps r t u) : u.ledger.Timed := by
  cases hend with
  | reads | awaits => exact h
  | ends _ hended =>
    rw [hended.ledger]
    exact h.dropAll _

theorem timed_suspended {kind : Await → Prop} (h : t.ledger.Timed) (hleft : Suspended kind t u) :
    u.ledger.Timed := by
  rwa [hleft.ledger]

theorem timed_framed {ps : ℕ} {now : Clock} {plaintext : Plaintext} {uuid : Text}
    {r : Except PyError LoopFlow} (h : s.Timed) (hreading : (s.sessions ps).loop = .reading)
    (hanew : s.RegistersAnew (.frame ps plaintext now uuid))
    (hmove : FrameMove s ps now uuid plaintext r t) : t.ledger.Timed := by
  obtain ⟨h, hsane⟩ := h
  cases hmove with
  | quiet hquiet => exact timed_quiet hquiet h
  | paired _ _ hquiet => exact timed_quiet hquiet h
  | received _ _ hquiet => exact timed_quiet hquiet (h.touch _ _)
  | unwritten _ hquiet => exact timed_quiet hquiet ((h.touch _ _).drop _)
  | refused _ _ _ hquiet => exact timed_quiet hquiet ((h.touch _ _).refuse _)
  | registeredItem hmessage hmetadata hitem _ hquiet =>
    have htimer := noTimer_of_registersAnew hanew
      (registers_request hreading (requests_message hmessage hmetadata (acceptsRequest_item hitem)))
    exact timed_quiet hquiet (h.register htimer _ _)
  | registeredPending hmessage hmetadata hidle _ _ hquiet =>
    have htimer := noTimer_of_registersAnew hanew
      (registers_request hreading (requests_message hmessage hmetadata (acceptsRequest_pending hidle)))
    exact timed_quiet hquiet (h.arm hsane htimer _ _ _)
  | unnotified hmessage hmetadata hidle hquiet =>
    have htimer := noTimer_of_registersAnew hanew
      (registers_request hreading (requests_message hmessage hmetadata (acceptsRequest_pending hidle)))
    exact timed_quiet hquiet (h.register htimer _ _)
  | finalised _ _ _ _ _ _ hquiet => exact timed_quiet hquiet (h.finalise _)
  | unfinalised _ _ _ _ _ hquiet => exact timed_quiet hquiet (h.finalise _)
  | dropped _ hquiet => exact timed_quiet hquiet (h.drop _)
  | swept _ hquiet => exact timed_quiet hquiet (h.drop _)
  | resumed hmessage hkey hrecord hgranted _ hquiet =>
    have htimer := noTimer_of_registersAnew hanew
      (registers_resume hreading hmessage (resumes_message hmessage hkey hrecord hgranted))
    exact timed_quiet hquiet (h.register htimer _ _)

theorem timed_called {event : Event} (h : s.Timed) (hanew : s.RegistersAnew event)
    (hmove : CallMove s event t) : t.ledger.Timed := by
  obtain ⟨h, hsane⟩ := h
  cases hmove with
  | quiet hquiet => exact timed_quiet hquiet h
  | paired _ _ hquiet => exact timed_quiet hquiet h
  | accepted hregistered _ _ hquiet => exact timed_quiet hquiet (h.accept hsane hregistered)
  | rejectedAway _ hquiet => exact timed_quiet hquiet (h.popIncoming _)
  | rejected _ hquiet => exact timed_quiet hquiet ((h.popIncoming _).cancelTimeout _)
  | cancelled _ hquiet => exact timed_quiet hquiet (h.drop _)
  | discarded hquiet => exact timed_quiet hquiet (h.forget _)
  | requested hactive hrecord hprepared _ hquiet =>
    have htimer := noTimer_of_registersAnew hanew
      (registers_requestResume hactive hrecord hprepared)
    exact timed_quiet hquiet (h.register htimer _ _)

theorem timed_step (s : Daemon) (event : Event) (h : s.Timed) (hanew : s.RegistersAnew event) :
    (s.step event).Timed := by
  refine ⟨?_, sane_step h.2 event⟩
  have hmove := step_move s event
  generalize s.step event = u at hmove
  cases hmove with
  | idle | connected => exact h.1
  | framed hreading hframe hend =>
    exact timed_settled (timed_framed h hreading hanew hframe) hend
  | handled _ hhandler hend =>
    refine timed_settled ?_ hend
    cases hhandler with
    | quiet _ hquiet _ => exact timed_quiet hquiet h.1
    | forgotten _ hquiet => exact timed_quiet hquiet (h.1.forget _)
  | ended _ hend =>
    rw [hend.ledger]
    exact h.1.dropAll _
  | resumed _ hawait hleft =>
    refine timed_suspended ?_ hleft
    cases hawait with
    | quiet hquiet => exact timed_quiet hquiet h.1
    | resumed _ hquiet => exact timed_quiet hquiet h.1
    | abandoned _ hquiet => exact timed_quiet hquiet (h.1.forget _)
  | expired htimer hexpiry hleft =>
    refine timed_suspended ?_ hleft
    cases hexpiry with
    | quiet _ hquiet => exact timed_quiet hquiet (h.1.fire _)
    | expired _ hquiet => exact timed_quiet hquiet (h.1.expire htimer)
  | called hcall hleft => exact timed_suspended (timed_called h hanew hcall) hleft

/-- A firing timeout removes nothing but the transfer that is registered under its id. -/
theorem expire_incoming (s : Daemon) (timer : ℕ) (transferId : Text) (object : ℕ)
    (hregistered : s.ledger.incomingTransfers.get transferId = some object)
    (hremoved : (s.step (.expire timer)).ledger.incomingTransfers.get transferId ≠ some object) :
    ∃ sleeping, s.ledger.timers.get timer = some sleeping ∧ sleeping.transferId = transferId := by
  have hmove := step_move s (.expire timer)
  generalize s.step (.expire timer) = u at hmove hremoved
  cases hmove with
  | idle => exact absurd hregistered hremoved
  | expired htimer hexpiry hleft =>
    refine ⟨_, htimer, ?_⟩
    by_contra hother
    apply hremoved
    rw [hleft.ledger]
    cases hexpiry with
    | quiet _ hquiet =>
      rw [hquiet.ledger]
      exact hregistered
    | expired _ hquiet =>
      rw [hquiet.ledger]
      have hne : ¬transferId = _ := fun h ↦ hother h.symm
      simp [hne, hregistered]
  | called hcall hleft =>
    cases hcall with
    | quiet hquiet =>
      rw [hleft.ledger, hquiet.ledger] at hremoved
      exact absurd hregistered hremoved

/-- In every run that registers no transfer under an id for which an older acceptance timeout sleeps, a
timeout that fires removes nothing but its own undecided request. -/
theorem acceptance_timeout_expires_own {s : Daemon} (hstarted : s.Started) {events : List Event}
    (hanew : Always RegistersAnew s events) (timer : ℕ) : (s.run events).ExpiresOwn timer := by
  have hinit : s.Timed := by
    refine ⟨?_, hstarted.sane⟩
    rw [hstarted.ledger]
    intro k sleeping hk
    exact absurd hk (by simp [Ledger.empty])
  have htimed := run_induction timed_step hinit hanew
  intro transferId object hregistered hremoved
  obtain ⟨sleeping, hsleeping, rfl⟩ := expire_incoming _ timer transferId object hregistered hremoved
  obtain ⟨hobject, haccepted⟩ := (htimed.1 timer sleeping hsleeping).2 object hregistered
  exact ⟨sleeping, hsleeping, rfl, hobject.symm, haccepted⟩

/-! ## A request that comes twice -/

/-- A daemon that has just started, on a disk that has only its root. -/
def sampleDaemon : Daemon where
  downloadDir := sampleDir
  publicKeyB64 := []
  disk := rootDisk
  db := { devices := ⟨[], .nil⟩, transfers := ∅, faults := [] }
  next := 0
  sessions := fun _ ↦ { newSession [] ⟨.null, .null, []⟩ false [] with loop := .ended }
  activeSessions := ∅
  objects := fun _ ↦ IncomingTransfer.new (sampleMetadata "") sampleDir
  outgoing := fun _ ↦ OutgoingTransfer.new [] [] [] []
  batches := fun _ ↦ ⟨⟨[], 0, 0, 0, 0, 0⟩, .requested, .incoming, 0⟩
  responses := fun _ ↦ []
  results := fun _ ↦ []
  ledger := .empty
  activeOutgoingTransfers := ∅
  activeBatches := ∅
  recordedTransferIds := []
  completions := []
  tasks := ∅
  delivered := []

theorem started_sampleDaemon : sampleDaemon.Started where
  ledger := rfl
  outgoing := rfl
  batches := rfl
  active := rfl
  tasks := rfl
  loops _ := rfl
  recorded := rfl
  completions := rfl
  delivered := rfl

/-- A paired phone connects. -/
def phoneConnects : Event :=
  .connect (lit "10.0.0.2:4000") ⟨.str (lit "phone"), .str (lit "Phone"), sampleKey 1⟩ true []

def samplePhone : Text := lit "10.0.0.2:4000"

/-- A control message of the first session. -/
def message (type : MessageType) (payload : Payload) : Event :=
  .frame 0 (.control ⟨some type, .obj payload []⟩) ⟨0, 0⟩ []

/-- A TRANSFER_REQUEST in the first session. -/
def sampleRequest : Event := message .transferRequest (sampleMetadata "").toDict

/-- The first chunk of this transfer. -/
def sampleChunk : Event :=
  .frame 0 (.chunk (chunkMagic ++ [0x01, 0x23, 0x45, 0x67, 0x89, 0xab, 0x4d, 0xef, 0x81, 0x23, 0x45, 0x67,
    0x89, 0xab, 0xcd, 0xef] ++ toBigEndian 4 0 ++ toBigEndian 4 3 ++ [1, 2, 3])) ⟨0, 0⟩ []

/-- A request, and its timeout fires. -/
theorem acceptance_timeout_expires_own_sample :
    (sampleDaemon.run [phoneConnects, sampleRequest]).ExpiresOwn 2 :=
  acceptance_timeout_expires_own started_sampleDaemon (by decide +kernel) 2

/-- A chunk before the answer removes the request but not its timeout.  The same request comes again,
the user accepts it, and the first timeout removes it. -/
theorem acceptance_timeout_expires_other :
    ¬(sampleDaemon.run [phoneConnects, sampleRequest, sampleChunk, sampleRequest,
      .acceptTransfer samplePhone (sampleMetadata "").transferId]).ExpiresOwn 2 := by
  intro h
  have hregistered : (sampleDaemon.run [phoneConnects, sampleRequest, sampleChunk, sampleRequest,
      .acceptTransfer samplePhone (sampleMetadata "").transferId]).ledger.incomingTransfers.get
        (sampleMetadata "").transferId = some 3 := by decide +kernel
  obtain ⟨_, -, -, -, haccepted⟩ := h _ _ hregistered (by decide +kernel)
  exact haccepted (by decide +kernel)

end Daemon

end Ferry
