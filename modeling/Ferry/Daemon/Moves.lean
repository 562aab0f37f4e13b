import Ferry.Daemon.Footprint
import Ferry.Service.Records
import Ferry.Transfer.StateAfter

/-!
# What the segments do to the incoming transfers

Every segment changes the dictionaries of the incoming transfers in one of a few ways.  Each way is a
constructor, with the facts about the event that lead to it, so that an invariant is checked once for
every way and not once for every line of a handler.
-/

namespace Ferry

open Exec Text

namespace Daemon

/-! ## Quiet segments -/

/-- The parts that the bookkeeping of the incoming transfers does not depend on. -/
def quietParts : List Part :=
  [.disk, .database, .states, .waits, .outgoing, .batchObjects, .activeOutgoing, .activeBatches,
    .outcomes, .delivered]

/-- The incoming transfers, the session loops and the suspended coroutines are as they were. -/
abbrev Quiet (s t : Daemon) : Prop := Within Same quietParts s t

variable {α : Type} {parts : List Part} {s t u : Daemon}

theorem quiet_of_keeps {m : Segment α} (h : Keeps parts m) (hsub : ∀ p ∈ parts, p ∈ quietParts)
    (s : Daemon) : wp m (fun _ t ↦ Quiet s t) s := (h s).mono hsub

theorem Quiet.ledger (h : Quiet s t) : t.ledger = s.ledger := h .ledger (by decide)

theorem Quiet.next (h : Quiet s t) : s.next ≤ t.next := h .next (by decide)

theorem Quiet.tasks (h : Quiet s t) : t.tasks = s.tasks := h .tasks (by decide)

theorem Quiet.objects (h : Quiet s t) {object : ℕ} (hlt : object < s.next) :
    t.objects object = s.objects object := (h .objects (by decide)).2 object hlt

theorem Quiet.loop (h : Quiet s t) (ps : ℕ) : (t.sessions ps).loop = (s.sessions ps).loop :=
  ((h .loops (by decide)).2 ps).1

theorem Quiet.remoteAddr (h : Quiet s t) (ps : ℕ) :
    (t.sessions ps).remoteAddr = (s.sessions ps).remoteAddr := ((h .loops (by decide)).2 ps).2.1

theorem Quiet.activeSessions (h : Quiet s t) : t.activeSessions = s.activeSessions :=
  (h .loops (by decide)).1

/-! ## Explicit changes -/

def mapLedger (s : Daemon) (f : Ledger → Ledger) : Daemon := { s with ledger := f s.ledger }

def setObject (s : Daemon) (object : ℕ) (incoming : IncomingTransfer) : Daemon :=
  { s with objects := Function.update s.objects object incoming }

/-- The devices once the pairing with the peer of a session is stored. -/
def pairWith (s : Daemon) (ps : ℕ) (now : ℤ) (uuid : Text) : Daemon :=
  { s with db := { s.db with devices := (persistTrust now uuid (s.sessions ps).remote s.db).2.devices } }

/-- A new object takes the next number. -/
def addObject (s : Daemon) (incoming : IncomingTransfer) : Daemon :=
  { s with next := s.next + 1, objects := Function.update s.objects s.next incoming }

section Changes

variable (f : Ledger → Ledger) (object : ℕ) (incoming : IncomingTransfer)

@[simp] theorem mapLedger_ledger : (s.mapLedger f).ledger = f s.ledger := rfl
@[simp] theorem mapLedger_objects : (s.mapLedger f).objects = s.objects := rfl
@[simp] theorem mapLedger_next : (s.mapLedger f).next = s.next := rfl
@[simp] theorem mapLedger_sessions : (s.mapLedger f).sessions = s.sessions := rfl
@[simp] theorem mapLedger_activeSessions : (s.mapLedger f).activeSessions = s.activeSessions := rfl
@[simp] theorem mapLedger_tasks : (s.mapLedger f).tasks = s.tasks := rfl
@[simp] theorem setObject_ledger : (s.setObject object incoming).ledger = s.ledger := rfl
@[simp] theorem setObject_next : (s.setObject object incoming).next = s.next := rfl
@[simp] theorem setObject_sessions : (s.setObject object incoming).sessions = s.sessions := rfl
@[simp] theorem setObject_activeSessions :
    (s.setObject object incoming).activeSessions = s.activeSessions := rfl
@[simp] theorem setObject_tasks : (s.setObject object incoming).tasks = s.tasks := rfl
@[simp] theorem setObject_self : (s.setObject object incoming).objects object = incoming :=
  Function.update_self ..
@[simp] theorem addObject_ledger : (s.addObject incoming).ledger = s.ledger := rfl
@[simp] theorem addObject_next : (s.addObject incoming).next = s.next + 1 := rfl
@[simp] theorem addObject_sessions : (s.addObject incoming).sessions = s.sessions := rfl
@[simp] theorem addObject_activeSessions :
    (s.addObject incoming).activeSessions = s.activeSessions := rfl
@[simp] theorem addObject_tasks : (s.addObject incoming).tasks = s.tasks := rfl
@[simp] theorem addObject_self : (s.addObject incoming).objects s.next = incoming :=
  Function.update_self ..

@[simp] theorem setObject_setObject (incoming' : IncomingTransfer) :
    (s.setObject object incoming).setObject object incoming' = s.setObject object incoming' := by
  simp [setObject]

@[simp] theorem setObject_addObject (incoming' : IncomingTransfer) :
    ((s.addObject incoming).mapLedger f).setObject s.next incoming' =
      (s.addObject incoming').mapLedger f := by
  simp [setObject, addObject, mapLedger]

@[simp] theorem setObject_addObject_self (incoming' : IncomingTransfer) :
    (s.addObject incoming).setObject s.next incoming' = s.addObject incoming' := by
  simp [setObject, addObject]

theorem setObject_of_ne {other : ℕ} (h : other ≠ object) :
    (s.setObject object incoming).objects other = s.objects other := Function.update_of_ne h ..

theorem addObject_of_ne {other : ℕ} (h : other ≠ s.next) :
    (s.addObject incoming).objects other = s.objects other := Function.update_of_ne h ..

end Changes

/-- An object that is registered nowhere. -/
theorem quiet_addObject (s : Daemon) (incoming : IncomingTransfer) : Quiet s (s.addObject incoming) := by
  intro p hp
  cases p
  case objects => exact ⟨Nat.le_succ _, fun object hlt ↦ addObject_of_ne _ hlt.ne⟩
  all_goals simp_all [Same, addObject, quietParts]

/-- A new object after a quiet change that allocates nothing. -/
theorem Quiet.addObject (h : Quiet s t) (hnext : t.next = s.next) (incoming : IncomingTransfer) :
    Quiet (s.addObject incoming) (t.addObject incoming) := by
  intro p hp
  have hsame := h p hp
  cases p
  case objects =>
    refine ⟨by simp [hnext], fun object hlt ↦ ?_⟩
    by_cases hobject : object = s.next
    · rw [hobject, addObject_self, ← hnext, addObject_self]
    · rw [addObject_of_ne _ (hnext ▸ hobject), addObject_of_ne _ hobject]
      exact hsame.2 object (by simp only [addObject_next] at hlt; omega)
  all_goals simp_all [Same, Daemon.addObject, quietParts]

/-- A method call, up to what it does to the disk. -/
theorem wp_onObject_quiet {object : ℕ} {m : Method α} {P : Except PyError α → World → Prop}
    {Q : Except PyError α → Daemon → Prop} (hm : wp m P ⟨s.disk, s.objects object⟩)
    (hQ : ∀ r w t, r = (m ⟨s.disk, s.objects object⟩).1 → P r w →
      Quiet (s.setObject object w.self) t → Q r t) :
    wp (onObject object m) Q s := by
  apply hQ _ _ _ rfl hm
  intro p hp
  cases p <;> simp_all [Same, setObject, onObject, zoom, quietParts]

theorem wp_onLedger_bind {β : Type} {f : Ledger → Ledger} {g : Unit → Segment β}
    {Q : Except PyError β → Daemon → Prop} :
    wp (onLedger f >>= g) Q s ↔ wp (g ()) Q (s.mapLedger f) := Iff.rfl

/-- What follows a quiet segment. -/
theorem wp_quiet_bind {β : Type} {m : Segment α} {f : α → Segment β}
    {Q : Except PyError β → Daemon → Prop} (h : Keeps parts m) (hsub : ∀ p ∈ parts, p ∈ quietParts)
    (herror : ∀ e t, Quiet s t → Q (.error e) t) (hok : ∀ a t, Quiet s t → wp (f a) Q t) :
    wp (m >>= f) Q s :=
  wp_bind_of (quiet_of_keeps h hsub s) herror hok

/-- What follows a quiet segment that never raises. -/
theorem wp_quiet_bind_of_succeeds {β : Type} {m : Segment α} {f : α → Segment β}
    {Q : Except PyError β → Daemon → Prop} (hm : Succeeds m) (h : Keeps parts m)
    (hsub : ∀ p ∈ parts, p ∈ quietParts) (hok : ∀ a t, Quiet s t → wp (f a) Q t) :
    wp (m >>= f) Q s :=
  wp_bind_of (wp_and (hm s) (quiet_of_keeps h hsub s)) (fun _ _ h ↦ by simp at h) fun a t ht ↦
    hok a t ht.2

/-- A quiet segment at the end. -/
theorem wp_quiet {m : Segment α} {Q : Except PyError α → Daemon → Prop} (h : Keeps parts m)
    (hsub : ∀ p ∈ parts, p ∈ quietParts) (hQ : ∀ r t, Quiet s t → Q r t) : wp m Q s :=
  wp_mono (quiet_of_keeps h hsub s) hQ

/-- A call of `cancel`. -/
theorem cancelObject_quiet (object : ℕ) (s : Daemon) :
    wp (cancelObject object) (fun r t ↦ r = .ok () ∧ (t.objects object).state = .cancelled ∧
      Quiet (s.setObject object (t.objects object)) t) s := by
  have hspec := IncomingTransfer.cancel_spec ⟨s.disk, s.objects object⟩
  have hself : ((cancelObject object s).2.objects object) =
      (IncomingTransfer.cancel ⟨s.disk, s.objects object⟩).2.self := Function.update_self ..
  refine ⟨hspec.1, ?_, ?_⟩
  · rw [hself]
    exact hspec.2
  · intro p hp
    rw [hself]
    cases p <;> simp_all [Same, Daemon.setObject, cancelObject, onObject, zoom, quietParts]

theorem wp_cancelObject_bind {β : Type} {object : ℕ} {f : Unit → Segment β}
    {Q : Except PyError β → Daemon → Prop}
    (h : ∀ x t, x.state = .cancelled → Quiet (s.setObject object x) t → wp (f ()) Q t) :
    wp (cancelObject object >>= f) Q s := by
  apply wp_bind_of (cancelObject_quiet object s)
  · exact fun _ _ h ↦ nomatch h.1
  · exact fun _ t ⟨_, hstate, hquiet⟩ ↦ h _ t hstate hquiet

/-- What a quiet change leaves of an explicit one. -/
theorem Quiet.mapLedger (h : Quiet s t) (f : Ledger → Ledger) :
    Quiet (s.mapLedger f) (t.mapLedger f) := by
  intro p hp
  have hsame := h p hp
  cases p <;> simp_all [Same, Daemon.mapLedger, quietParts]

theorem Quiet.setObject (h : Quiet s t) (object : ℕ) (incoming : IncomingTransfer) :
    Quiet (s.setObject object incoming) (t.setObject object incoming) := by
  intro p hp
  have hsame := h p hp
  cases p
  case objects =>
    refine ⟨hsame.1, fun other hlt ↦ ?_⟩
    by_cases hother : other = object
    · subst hother
      rw [setObject_self, setObject_self]
    · rw [setObject_of_ne _ _ hother, setObject_of_ne _ _ hother]
      exact hsame.2 other hlt
  all_goals simp_all [Same, Daemon.setObject, quietParts]

/-! ## The ways of the session loop -/

/-- The time of a chunk is noted. -/
def touch (transferId : Text) (now : ℤ) (ledger : Ledger) : Ledger :=
  { ledger with lastChunkTime := ledger.lastChunkTime.set transferId now }

/-- The acceptance timeout of a request is started. -/
def arm (timer : ℕ) (sleeping : AcceptanceTimer) (ledger : Ledger) : Ledger :=
  { ledger with
    timers := ledger.timers.set timer sleeping
    acceptTimeoutTasks := ledger.acceptTimeoutTasks.set sleeping.transferId timer }

/-- The payload of a control message. -/
def IsMessage (plaintext : Plaintext) (type : MessageType) (payload : Payload) : Prop :=
  ∃ text, plaintext = .control ⟨some type, .obj payload text⟩

/-- A chunk of a registered transfer. -/
structure IsChunkFor (s : Daemon) (plaintext : Plaintext) (chunk : ChunkFrame) (object : ℕ) : Prop where
  decoded : ∃ data, plaintext = .chunk data ∧ decodeChunkFrame data = .ok chunk
  registered : s.ledger.incomingTransfers.get chunk.transferId = some object

/-- `send_encrypted` writes the next frame, if it is none that is too long. -/
def canSend (s : Daemon) (ps : ℕ) : Bool :=
  (s.sessions ps).state ∉ SessionState.refusesToSend ∧ (s.sessions ps).sendFaults.headD none = none

theorem sendEncrypted_raises (ps : ℕ) (frame : Frame) (s : Daemon) :
    wp (sendEncrypted ps frame) (fun r _ ↦ (∃ e, r = .error e) → s.canSend ps = false) s := by
  unfold sendEncrypted
  rw [wp_get_bind, wp_raiseIf_bind]
  refine ⟨fun hstate _ ↦ by simp [canSend, hstate], fun hstate ↦ ?_⟩
  unfold writeFrame onSession
  rw [wp_get_bind, wp_modify_bind]
  split
  · next length hfault => exact fun _ ↦ by simp only [canSend, hfault]; simp
  · exact fun ⟨_, h⟩ ↦ nomatch h

/-- A TRANSFER_RESUME_REQUEST for an INTERRUPTED record is granted. -/
def grantsResume (s : Daemon) (ps : ℕ) (payload : Payload) (now : ℤ) (info : InterruptedTransferInfo) :
    Bool :=
  match resumeRefusal (s.sessions ps) payload info,
    TransferMetadata.fromDict now info.originalMetadata with
  | .ok none, .ok metadata =>
    (IncomingTransfer.resume info.resumeChunkIndex ⟨s.disk, restored metadata s.downloadDir⟩).1.isOk
  | _, _ => false

/-- A PAIR_DECISION that accepts. -/
def acceptsPairing : Plaintext → Bool
  | .control ⟨some .pairDecision, payload⟩ =>
    match payload.fields with
    | .ok fields =>
      let decision := fields.getD "decision" .null
      !isLiteral decision "REJECT" && isLiteral decision "ACCEPT"
    | .error _ => false
  | _ => false

/-- What the first segment of a handler does to the incoming transfers. -/
inductive FrameMove (s : Daemon) (ps : ℕ) (now : Clock) (uuid : Text) (plaintext : Plaintext) :
    Except PyError LoopFlow → Daemon → Prop
  | quiet {r t} (h : Quiet s t) : FrameMove s ps now uuid plaintext r t
  | paired {r t} (haccept : acceptsPairing plaintext = true)
      (hstate : (s.sessions ps).state = .waitingForRemoteDecision)
      (h : Quiet (s.pairWith ps now.wall uuid) t) : FrameMove s ps now uuid plaintext r t
  | received {chunk object incoming r t} (hchunk : s.IsChunkFor plaintext chunk object)
      (hstate : incoming.state = (s.objects object).state)
      (h : Quiet ((s.mapLedger (touch chunk.transferId now.monotonic)).setObject object incoming) t) :
      FrameMove s ps now uuid plaintext r t
  | unwritten {chunk object incoming r t} (hchunk : s.IsChunkFor plaintext chunk object)
      (h : Quiet (((s.mapLedger (touch chunk.transferId now.monotonic)).setObject object
        incoming).mapLedger fun ledger ↦ ledger.drop chunk.transferId) t) :
      FrameMove s ps now uuid plaintext r t
  | refused {chunk object incoming e t} (hchunk : s.IsChunkFor plaintext chunk object)
      (hraised : (IncomingTransfer.receiveChunk chunk ⟨s.disk, s.objects object⟩).1 = .error e)
      (he : e.isValueOrRuntimeError = true)
      (h : Quiet (((s.mapLedger (touch chunk.transferId now.monotonic)).setObject object
        incoming).mapLedger fun ledger ↦
          (ledger.popIncoming chunk.transferId).popLastChunk chunk.transferId) t) :
      FrameMove s ps now uuid plaintext (.ok .next) t
  | registeredItem {payload metadata incoming r t}
      (hmessage : IsMessage plaintext .transferRequest payload)
      (hmetadata : TransferMetadata.fromDict now.wall payload = .ok metadata)
      (hitem : metadata.batchId ≠ [] ∧ s.acceptedBatch metadata.batchId = true)
      (hstate : incoming.state = .transferring ∨ ∃ e, r = .error e)
      (h : Quiet ((s.addObject incoming).mapLedger fun ledger ↦
        ledger.register metadata.transferId s.next ps) t) :
      FrameMove s ps now uuid plaintext r t
  | registeredPending {payload metadata timer t}
      (hmessage : IsMessage plaintext .transferRequest payload)
      (hmetadata : TransferMetadata.fromDict now.wall payload = .ok metadata)
      (hidle : metadata.batchId = [] ∧ s.ledger.incomingTransfers.keys = [])
      (htimer : timer = s.next + 1) (hnext : s.next + 2 ≤ t.next)
      (h : Quiet (((s.addObject (IncomingTransfer.new metadata s.downloadDir)).mapLedger fun ledger ↦
        ledger.register metadata.transferId s.next ps).mapLedger
          (arm timer ⟨ps, metadata.transferId, metadata, s.next⟩)) t) :
      FrameMove s ps now uuid plaintext (.ok .next) t
  | unnotified {payload metadata e t} (hmessage : IsMessage plaintext .transferRequest payload)
      (hmetadata : TransferMetadata.fromDict now.wall payload = .ok metadata)
      (hidle : metadata.batchId = [] ∧ s.ledger.incomingTransfers.keys = [])
      (h : Quiet ((s.addObject (IncomingTransfer.new metadata s.downloadDir)).mapLedger fun ledger ↦
        ledger.register metadata.transferId s.next ps) t) :
      FrameMove s ps now uuid plaintext (.error e) t
  | finalised {payload transferId object incoming success r t}
      (hmessage : IsMessage plaintext .transferComplete payload)
      (hkey : (payload.getD "transfer_id" (.str [])).key = .ok (some transferId))
      (hregistered : s.ledger.incomingTransfers.get transferId = some object)
      (hreturned : (IncomingTransfer.finalise ⟨s.disk, s.objects object⟩).1 = .ok success)
      (hstate : incoming.state = if success then .completed else .failed)
      (hr : (∃ e, r = .error e) ∧ s.canSend ps = false ∨
        ∃ sha256, r = .ok (.await (.transferResult transferId object success sha256)))
      (h : Quiet ((s.mapLedger fun ledger ↦
        (ledger.cancelTimeout transferId).popLastChunk transferId).setObject object incoming) t) :
      FrameMove s ps now uuid plaintext r t
  | unfinalised {payload transferId object incoming e t}
      (hmessage : IsMessage plaintext .transferComplete payload)
      (hkey : (payload.getD "transfer_id" (.str [])).key = .ok (some transferId))
      (hregistered : s.ledger.incomingTransfers.get transferId = some object)
      (hraised : (IncomingTransfer.finalise ⟨s.disk, s.objects object⟩).1 = .error e)
      (hstate : incoming.state = (s.objects object).state)
      (h : Quiet ((s.mapLedger fun ledger ↦
        (ledger.cancelTimeout transferId).popLastChunk transferId).setObject object incoming) t) :
      FrameMove s ps now uuid plaintext (.error e) t
  | dropped {transferId object incoming r t}
      (hregistered : s.ledger.incomingTransfers.get transferId = some object)
      (h : Quiet ((s.mapLedger fun ledger ↦ ledger.drop transferId).setObject object incoming) t) :
      FrameMove s ps now uuid plaintext r t
  | swept {transferId r t} (hregistered : s.ledger.incomingTransfers.get transferId = none)
      (h : Quiet (s.mapLedger fun ledger ↦ ledger.drop transferId) t) :
      FrameMove s ps now uuid plaintext r t
  | resumed {payload transferId info incoming r t}
      (hmessage : IsMessage plaintext .transferResumeRequest payload)
      (hkey : payload.getD "transfer_id" .null = .str transferId)
      (hrecord : s.db.interrupted transferId = some info)
      (hgranted : s.grantsResume ps payload now.wall info = true)
      (hstate : incoming.state = .resuming)
      (h : Quiet ((s.addObject incoming).mapLedger fun ledger ↦
        ledger.register transferId s.next ps) t) :
      FrameMove s ps now uuid plaintext r t

section FrameMoves

variable {ps : ℕ} {now : Clock} {uuid : Text} {plaintext : Plaintext}

/-! ### Chunks -/

theorem chunkUnwritten_quiet (transferId : Text) (metadata : TransferMetadata) (e : PyError)
    (s : Daemon) : wp (chunkUnwritten transferId metadata e)
      (fun _ t ↦ Quiet (s.mapLedger fun ledger ↦ ledger.drop transferId) t) s := by
  unfold chunkUnwritten
  rw [wp_get_bind, wp_onLedger_bind]
  split
  · exact wp_quiet (touches_bind (keeps_notifyTransferComplete _ _ _ _) fun _ ↦ touches_pure _)
      (by decide) fun _ _ h ↦ h
  · exact wp_quiet (keeps_sendQuietly _ _ _ (keeps_chunkErrorSent _ _ _)) (by decide) fun _ _ h ↦ h

theorem succeeds_countBatchBytes (batchId : Text) (length : ℕ) :
    Succeeds (countBatchBytes batchId length) := by
  refine succeeds_get_bind fun s ↦ ?_
  split
  · exact ⟨(), rfl⟩
  · exact ⟨(), rfl⟩

/-- The `try` block of `_on_chunk_received`. -/
theorem receiveChunk_quiet (chunk : ChunkFrame) (object : ℕ) (batchId : Text) (s : Daemon) :
    wp (do
      onObject object (IncomingTransfer.receiveChunk chunk)
      countBatchBytes batchId chunk.data.length
      pure LoopFlow.next) (fun r t ↦ ∃ incoming, Quiet (s.setObject object incoming) t ∧
        (incoming.state = (s.objects object).state ∨ ∃ e, r = .error e ∧ e.isTransferError = true) ∧
        ∀ e, r = .error e →
          (IncomingTransfer.receiveChunk chunk ⟨s.disk, s.objects object⟩).1 = .error e) s := by
  rw [wp_bind]
  apply wp_onObject_quiet (IncomingTransfer.receiveChunk_state chunk _)
  intro r w t hr hstate hquiet
  cases r with
  | error e =>
    refine ⟨w.self, hquiet, ?_, fun e' he' ↦ Except.error.inj he' ▸ hr.symm⟩
    rcases hstate with ⟨hsame, -⟩ | ⟨e', he', htransfer, -⟩
    · exact .inl hsame
    · exact .inr ⟨e, rfl, Except.error.inj he' ▸ htransfer⟩
  | ok _ =>
    have hsame : w.self.state = (s.objects object).state := by
      rcases hstate with ⟨hsame, -⟩ | ⟨e', he', -⟩
      · exact hsame
      · exact (nomatch he')
    refine wp_quiet_bind_of_succeeds (succeeds_countBatchBytes _ _) (keeps_countBatchBytes _ _)
      (by decide) fun _ u hu ↦ ?_
    exact ⟨w.self, hquiet.trans hu, .inl hsame, fun e he ↦ nomatch he⟩

theorem receiveInto_move {chunk : ChunkFrame} {object : ℕ}
    (hchunk : s.IsChunkFor plaintext chunk object) :
    wp (receiveInto now.monotonic chunk object) (FrameMove s ps now uuid plaintext) s := by
  unfold receiveInto
  rw [wp_get_bind]
  dsimp only
  rw [wp_onLedger_bind]
  apply wp_tryCatch_of (receiveChunk_quiet chunk object _ _)
  · rintro e t ⟨incoming, hquiet, hstate, hraised⟩
    unfold chunkFailed
    rw [wp_ite, wp_ite]
    refine ⟨fun _ ↦ ?_, fun htransfer ↦ ⟨fun he ↦ ?_, fun _ ↦ ?_⟩⟩
    · apply wp_mono (chunkUnwritten_quiet _ _ _ t)
      intro r u hu
      exact .unwritten hchunk ((hquiet.mapLedger _).trans hu)
    · apply wp_cancelObject_bind
      intro cancelled u _ hu
      rw [wp_onLedger_bind]
      have hboth := (hquiet.setObject object cancelled).trans hu
      rw [setObject_setObject] at hboth
      exact .refused hchunk (hraised e rfl) he (Quiet.mapLedger hboth _)
    · refine .received hchunk ?_ hquiet
      rcases hstate with hsame | ⟨e', he', htrue⟩
      · exact hsame
      · cases Except.error.inj he'
        exact absurd htrue htransfer
  · rintro a t ⟨incoming, hquiet, hstate, -⟩
    refine .received hchunk ?_ hquiet
    rcases hstate with hsame | ⟨e', he', -⟩
    · exact hsame
    · exact (nomatch he')

theorem onChunkReceived_move {data : Bytes} :
    wp (onChunkReceived now.monotonic data) (FrameMove s ps now uuid (.chunk data)) s := by
  unfold onChunkReceived
  rw [wp_get_bind]
  split
  · exact wp_quiet (touches_bind (touches_raiseIf _ _) fun _ ↦ touches_pure _ : Keeps [] _)
      (by decide) fun _ _ h ↦ .quiet h
  · next chunk hdecode =>
    split
    · exact .quiet (within_refl s)
    · next object hregistered => exact receiveInto_move ⟨⟨data, rfl, hdecode⟩, hregistered⟩

/-! ### Requests -/

/-- Registering a new object. -/
theorem wp_registerTransfer_bind {β : Type} {metadata : TransferMetadata} {f : ℕ → Segment β}
    {Q : Except PyError β → Daemon → Prop} :
    wp (registerTransfer ps metadata >>= f) Q s ↔
      wp (f s.next) Q ((s.addObject (IncomingTransfer.new metadata s.downloadDir)).mapLedger
        fun ledger ↦ ledger.register metadata.transferId s.next ps) := Iff.rfl

theorem registerItem_move {payload : Payload} {metadata : TransferMetadata}
    (hmessage : IsMessage plaintext .transferRequest payload)
    (hmetadata : TransferMetadata.fromDict now.wall payload = .ok metadata)
    (hitem : metadata.batchId ≠ [] ∧ s.acceptedBatch metadata.batchId = true) :
    wp (registerItem ps metadata) (FrameMove s ps now uuid plaintext) s := by
  unfold registerItem
  rw [wp_registerTransfer_bind, wp_bind]
  apply wp_onObject_quiet (IncomingTransfer.begin_state _)
  intro r w t _ hstate hquiet
  rw [setObject_addObject] at hquiet
  have hmove : ∀ {r' : Except PyError LoopFlow} {u}, Quiet t u →
      (w.self.state = .transferring ∨ ∃ e, r' = .error e) → FrameMove s ps now uuid plaintext r' u :=
    fun hu hr ↦ .registeredItem hmessage hmetadata hitem hr (hquiet.trans hu)
  cases r with
  | error e => exact hmove (within_refl t) (.inr ⟨e, rfl⟩)
  | ok _ =>
    refine wp_quiet (keeps_reply _ _) (by decide) fun r' u hu ↦ hmove hu ?_
    rcases hstate with ⟨-, hstate⟩ | ⟨⟨e, he, -⟩, -⟩ | ⟨⟨e, he⟩, -⟩
    · exact .inl hstate
    · exact (nomatch he)
    · exact (nomatch he)

theorem registerPending_move {payload : Payload} {metadata : TransferMetadata}
    (hmessage : IsMessage plaintext .transferRequest payload)
    (hmetadata : TransferMetadata.fromDict now.wall payload = .ok metadata)
    (hidle : metadata.batchId = [] ∧ s.ledger.incomingTransfers.keys = []) :
    wp (registerPending ps metadata) (FrameMove s ps now uuid plaintext) s := by
  unfold registerPending
  rw [wp_registerTransfer_bind, wp_get_bind]
  dsimp only
  rw [wp_raiseIf_bind]
  refine ⟨fun _ ↦ .unnotified hmessage hmetadata hidle (within_refl _), fun _ ↦ ?_⟩
  refine .registeredPending hmessage hmetadata hidle rfl le_rfl ?_
  intro p hp
  cases p <;> simp [Same, allocate, bind, andThen, onLedger, modify, modifyGet,
    MonadStateOf.modifyGet, pure, mapLedger, addObject, arm]

theorem onTransferRequest_move {payload : Payload}
    (hmessage : IsMessage plaintext .transferRequest payload) :
    wp (onTransferRequest ps payload now.wall) (FrameMove s ps now uuid plaintext) s := by
  unfold onTransferRequest
  rw [wp_get_bind]
  split
  · rw [wp_ite]
    exact ⟨fun _ ↦ wp_quiet (keeps_reply _ _) (by decide) fun _ _ h ↦ .quiet h,
      fun _ ↦ .quiet (within_refl s)⟩
  · next metadata hmetadata =>
    rw [wp_ite, wp_ite, wp_ite]
    refine ⟨fun hbatch ↦ ⟨fun haccepted ↦ ?_, fun _ ↦ ?_⟩, fun hsingle ↦ ⟨fun _ ↦ ?_, fun hidle ↦ ?_⟩⟩
    · exact registerItem_move hmessage hmetadata ⟨hbatch, haccepted⟩
    · exact wp_quiet (keeps_reply _ _) (by decide) fun _ _ h ↦ .quiet h
    · exact wp_quiet (keeps_reply _ _) (by decide) fun _ _ h ↦ .quiet h
    · exact registerPending_move hmessage hmetadata ⟨not_not.mp hsingle, not_not.mp hidle⟩

/-! ### Completion, cancels and errors -/

/-- The answer to a TRANSFER_COMPLETE is refused only by the session it is sent to. -/
theorem finaliseTransfer_raises (ps : ℕ) (transferId : Text) (object : ℕ) (s : Daemon) :
    wp (finaliseTransfer ps transferId object) (fun r _ ↦ (∃ e, r = .error e) →
      (∃ success, (IncomingTransfer.finalise ⟨s.disk, s.objects object⟩).1 = .ok success) →
      s.canSend ps = false) s := by
  unfold finaliseTransfer
  rw [wp_onLedger_bind, wp_bind_iff]
  constructor
  · intro e he _ ⟨success, hok⟩
    exact nomatch hok.symm.trans he
  · intro success _
    rw [wp_modify_bind, wp_get_bind]
    refine wp_bind_of (sendEncrypted_raises ps _ _) (fun e u hu _ _ ↦ ?_) fun _ _ _ ⟨_, h⟩ ↦ nomatch h
    have hfalse := hu ⟨e, rfl⟩
    cases success <;> exact hfalse

theorem finaliseTransfer_move {payload : Payload} {transferId : Text} {object : ℕ}
    (hmessage : IsMessage plaintext .transferComplete payload)
    (hkey : (payload.getD "transfer_id" (.str [])).key = .ok (some transferId))
    (hregistered : s.ledger.incomingTransfers.get transferId = some object) :
    wp (finaliseTransfer ps transferId object) (FrameMove s ps now uuid plaintext) s := by
  have hmove : wp (finaliseTransfer ps transferId object) (fun r t ↦
      (∃ e incoming, r = .error e ∧
        (IncomingTransfer.finalise ⟨s.disk, s.objects object⟩).1 = .error e ∧
        incoming.state = (s.objects object).state ∧ Quiet ((s.mapLedger fun ledger ↦
          (ledger.cancelTimeout transferId).popLastChunk transferId).setObject object incoming) t) ∨
      ∃ success incoming, (IncomingTransfer.finalise ⟨s.disk, s.objects object⟩).1 = .ok success ∧
        (incoming.state = if success then .completed else .failed) ∧ ((∃ e, r = .error e) ∨
          ∃ sha256, r = .ok (.await (.transferResult transferId object success sha256))) ∧
        Quiet ((s.mapLedger fun ledger ↦
          (ledger.cancelTimeout transferId).popLastChunk transferId).setObject object incoming) t)
      s := by
    unfold finaliseTransfer
    rw [wp_onLedger_bind, wp_bind]
    apply wp_onObject_quiet (IncomingTransfer.finalise_state _)
    intro r w t hr hstate hquiet
    cases r with
    | error e =>
      refine .inl ⟨e, w.self, rfl, hr.symm, ?_, hquiet⟩
      rcases hstate with ⟨success, hok, -⟩ | ⟨-, hsame⟩
      · exact (nomatch hok)
      · exact hsame
    | ok success =>
      have hafter : w.self.state = if success then .completed else .failed := by
        rcases hstate with ⟨success', hok, hafter⟩ | ⟨⟨e, he⟩, -⟩
        · cases Except.ok.inj hok
          exact hafter
        · exact (nomatch he)
      have hdelivered : Keeps [.delivered] (modify fun s ↦
          if success then { s with delivered := object :: s.delivered } else s : Segment PUnit) := by
        refine touches_modify fun s p hp ↦ ?_
        split
        · cases p <;> simp_all [Same]
        · exact same_refl p s
      refine wp_quiet_bind_of_succeeds (succeeds_modify _) hdelivered (by decide) fun _ u hu ↦ ?_
      rw [wp_get_bind]
      refine wp_quiet_bind (keeps_sendEncrypted _ _) (by decide) (fun e v hv ↦ .inr ?_)
        fun _ v hv ↦ .inr ?_
      · exact ⟨success, w.self, hr.symm, hafter, .inl ⟨e, rfl⟩, hquiet.trans (hu.trans hv)⟩
      · exact ⟨success, w.self, hr.symm, hafter, .inr ⟨_, rfl⟩, hquiet.trans (hu.trans hv)⟩
  apply wp_mono (wp_and hmove (finaliseTransfer_raises ps transferId object s))
  rintro r t ⟨⟨e, incoming, rfl, hraised, hstate, hquiet⟩ |
    ⟨success, incoming, hreturned, hstate, hr, hquiet⟩, hrefused⟩
  · exact .unfinalised hmessage hkey hregistered hraised hstate hquiet
  · refine .finalised hmessage hkey hregistered hreturned hstate ?_ hquiet
    rcases hr with hr | hr
    · exact .inl ⟨hr, hrefused hr ⟨success, hreturned⟩⟩
    · exact .inr hr

theorem onTransferComplete_move {payload : Payload}
    (hmessage : IsMessage plaintext .transferComplete payload) :
    wp (onTransferComplete ps (payload.getD "transfer_id" (.str []))) (FrameMove s ps now uuid plaintext)
      s := by
  unfold onTransferComplete
  rw [wp_ofResult_bind]
  refine ⟨fun _ _ ↦ .quiet (within_refl s), fun key hkey ↦ ?_⟩
  rw [wp_get_bind]
  cases key with
  | none =>
    exact wp_quiet (touches_bind (touches_ofResult _) fun _ ↦ touches_pure _ : Keeps [] _)
      (by decide) fun _ _ h ↦ .quiet h
  | some transferId =>
    dsimp only
    split
    · exact .quiet (within_refl s)
    · next object hregistered => exact finaliseTransfer_move hmessage hkey hregistered

/-- A transfer is dropped, and its object cancelled if there is one. -/
def Dropped (s : Daemon) (transferId : Text) (t : Daemon) : Prop :=
  match s.ledger.incomingTransfers.get transferId with
  | none => Quiet (s.mapLedger fun ledger ↦ ledger.drop transferId) t
  | some object => ∃ incoming,
    Quiet ((s.mapLedger fun ledger ↦ ledger.drop transferId).setObject object incoming) t

theorem Dropped.quiet {transferId : Text} (h : s.Dropped transferId t) (hquiet : Quiet t u) :
    s.Dropped transferId u := by
  unfold Dropped at h ⊢
  split at h
  · exact h.trans hquiet
  · obtain ⟨incoming, h⟩ := h
    exact ⟨incoming, h.trans hquiet⟩

theorem Dropped.move {transferId : Text} (h : s.Dropped transferId t) (r : Except PyError LoopFlow) :
    FrameMove s ps now uuid plaintext r t := by
  unfold Dropped at h
  split at h
  · next hnone => exact .swept hnone h
  · next object hsome =>
    obtain ⟨incoming, h⟩ := h
    exact .dropped hsome h

theorem keeps_cancelOutgoing (registered : Option (ℕ × ℕ)) :
    Keeps [.disk, .outgoing] (match registered with
      | none => pure ()
      | some (_, xfer) => onOutgoing xfer OutgoingTransfer.cancel : Segment Unit) := by
  cases registered with
  | none => exact touches_pure _
  | some entry => exact keeps_onOutgoing _ _

theorem cancelActive_dropped (ps : ℕ) (transferId : Text) (s : Daemon) :
    wp (cancelActive ps transferId) (fun _ t ↦ s.Dropped transferId t) s := by
  unfold cancelActive
  rw [wp_get_bind, wp_onLedger_bind]
  cases hregistered : s.ledger.incomingTransfers.get transferId with
  | none =>
    dsimp only
    refine wp_quiet (keeps_cancelOutgoing _) (by decide) fun _ t ht ↦ ?_
    rw [Dropped, hregistered]
    exact ht
  | some object =>
    dsimp only
    apply wp_cancelObject_bind
    intro incoming t _ hquiet
    have hdropped : s.Dropped transferId t := by
      rw [Dropped, hregistered]
      exact ⟨incoming, hquiet⟩
    refine wp_quiet_bind (keeps_reportIncoming _ _ _ (by decide) _ _) (by decide)
      (fun _ _ hu ↦ hdropped.quiet hu) fun _ u hu ↦ ?_
    exact wp_quiet (keeps_cancelOutgoing _) (by decide) fun _ v hv ↦ hdropped.quiet (hu.trans hv)

theorem onTransferCancel_move (transferId : JsonValue) :
    wp (onTransferCancel ps transferId) (FrameMove s ps now uuid plaintext) s := by
  unfold onTransferCancel
  rw [wp_ofResult_bind]
  refine ⟨fun _ _ ↦ .quiet (within_refl s), fun _ _ ↦ ?_⟩
  rw [wp_ofResult_bind]
  refine ⟨fun _ _ ↦ .quiet (within_refl s), fun key _ ↦ ?_⟩
  rw [wp_get_bind]
  cases key with
  | none => exact .quiet (within_refl s)
  | some key =>
    have hsignal : Keeps [.waits] (do
        signalCancel ps key
        pure LoopFlow.next) := touches_bind (keeps_signalCancel _ _) fun _ ↦ touches_pure _
    dsimp only
    split
    · exact wp_quiet hsignal (by decide) fun _ _ h ↦ .quiet h
    · apply wp_bind_of (cancelActive_dropped ps key s)
      · exact fun e t h ↦ h.move _
      · exact fun _ t h ↦ wp_quiet hsignal (by decide) fun r _ hu ↦ (h.quiet hu).move r

theorem cancelIncomingTransfer_move (transferId : JsonValue) :
    wp (cancelIncomingTransfer transferId) (FrameMove s ps now uuid plaintext) s := by
  unfold cancelIncomingTransfer
  rw [wp_ofResult_bind]
  refine ⟨fun _ _ ↦ .quiet (within_refl s), fun key _ ↦ ?_⟩
  rw [wp_get_bind]
  cases key with
  | none => exact .quiet (within_refl s)
  | some key =>
    dsimp only
    rw [wp_onLedger_bind]
    split
    · next hnone => exact .swept hnone (within_refl _)
    · next object hsome =>
      apply wp_cancelObject_bind
      intro incoming t _ hquiet
      exact wp_quiet (touches_bind (keeps_notifyTransferComplete _ _ _ _) fun _ ↦ touches_pure _)
        (by decide) fun _ _ hu ↦ .dropped hsome (hquiet.trans hu)

/-! ### Resuming -/

/-- A query of the database. -/
def Queried (s t : Daemon) : Prop := ∃ faults, t = { s with db := { s.db with faults } }

theorem Queried.refl (s : Daemon) : s.Queried s := ⟨s.db.faults, rfl⟩

theorem Queried.quiet (h : s.Queried t) : Quiet s t := by
  obtain ⟨faults, rfl⟩ := h
  intro p hp
  cases p <;> simp_all [Same, quietParts, Database.settles_of_eq]

theorem queried_access (s : Daemon) : wp (onDb Database.access) (fun _ t ↦ s.Queried t) s := by
  rw [onDb, wp_zoom]
  exact wp_mono (Database.access_effect s.db) fun _ _ h ↦ ⟨_, congrArg (fun db ↦ { s with db }) h.1⟩

theorem queried_interrupted (transferId : Text) (s : Daemon) :
    wp (onDb (Database.getInterruptedTransfer transferId)) (fun r t ↦ s.Queried t ∧
      ∀ info, r = .ok info → info = s.db.interrupted transferId) s := by
  rw [onDb, wp_zoom]
  exact wp_mono (Database.getInterruptedTransfer_effect s.db transferId) fun _ _ h ↦
    ⟨⟨_, congrArg (fun db ↦ { s with db }) h.1⟩, h.2⟩

theorem interruptedTransfer_effect (transferId : JsonValue) (s : Daemon) :
    wp (interruptedTransfer transferId) (fun r t ↦ s.Queried t ∧
      ∀ key info, r = .ok (some (key, info)) →
        transferId = .str key ∧ s.db.interrupted key = some info) s := by
  unfold interruptedTransfer
  rw [wp_ofResult_bind]
  refine ⟨fun _ _ ↦ ⟨.refl s, fun _ _ h ↦ nomatch h⟩, fun parameter hparameter ↦ ?_⟩
  cases parameter with
  | none =>
    dsimp only
    apply wp_bind_of (queried_access s)
    · exact fun _ _ h ↦ ⟨h, fun _ _ h ↦ nomatch h⟩
    · exact fun _ _ h ↦ ⟨h, fun _ _ h ↦ nomatch h⟩
  | some key =>
    have hkey : transferId = .str key := by
      cases transferId <;> simp [JsonValue.parameter] at hparameter
      · split at hparameter <;> simp at hparameter
      · split at hparameter <;> simp_all
    apply wp_bind_of (queried_interrupted key s)
    · exact fun e t ht ↦ ⟨ht.1, fun _ _ h ↦ nomatch h⟩
    · intro found t ht
      refine ⟨ht.1, fun key' info h ↦ ?_⟩
      have hmap := Except.ok.inj h
      rw [Option.map_eq_some_iff] at hmap
      obtain ⟨info', hinfo, heq⟩ := hmap
      cases heq
      exact ⟨hkey, (ht.2 found rfl).symm.trans hinfo⟩

theorem wp_newObject_bind {β : Type} {incoming : IncomingTransfer} {f : ℕ → Segment β}
    {Q : Except PyError β → Daemon → Prop} :
    wp (newObject incoming >>= f) Q s ↔ wp (f s.next) Q (s.addObject incoming) := Iff.rfl

/-- The object of a resumed transfer is registered when it could be resumed. -/
theorem resumeIncoming_quiet (ps : ℕ) (transferId : Text) (info : InterruptedTransferInfo) (now : ℤ)
    (s : Daemon) :
    wp (resumeIncoming ps transferId info now) (fun r t ↦ ((∃ e, r = .error e) ∧ Quiet s t) ∨
      ∃ metadata incoming, TransferMetadata.fromDict now info.originalMetadata = .ok metadata ∧
        (IncomingTransfer.resume info.resumeChunkIndex
          ⟨s.disk, restored metadata s.downloadDir⟩).1.isOk = true ∧
        incoming.state = .resuming ∧ Quiet ((s.addObject incoming).mapLedger fun ledger ↦
          ledger.register transferId s.next ps) t) s := by
  unfold resumeIncoming
  rw [wp_get_bind, wp_ofResult_bind]
  refine ⟨fun e _ ↦ .inl ⟨⟨e, rfl⟩, within_refl s⟩, fun metadata hmetadata ↦ ?_⟩
  rw [wp_newObject_bind, wp_bind]
  apply wp_onObject_quiet (IncomingTransfer.resume_state _ _)
  intro r w t hr hstate hquiet
  rw [setObject_addObject_self] at hquiet
  rw [addObject_self] at hr
  cases r with
  | error e => exact .inl ⟨⟨e, rfl⟩, (quiet_addObject s _).trans hquiet⟩
  | ok u =>
    have hresumed : (IncomingTransfer.resume info.resumeChunkIndex
        ⟨s.disk, restored metadata s.downloadDir⟩).1.isOk = true := congrArg Except.isOk hr.symm
    dsimp only
    rw [wp_onLedger_bind]
    have hregistered := Quiet.mapLedger hquiet fun ledger ↦ ledger.register transferId s.next ps
    exact wp_quiet (touches_bind (keeps_sendEncrypted _ _) fun _ ↦ touches_pure _) (by decide)
      fun _ _ hv ↦ .inr ⟨metadata, w.self, hmetadata, hresumed, hstate u rfl,
        Within.trans hregistered hv⟩

theorem resumeRecorded_move {payload : Payload} {transferId : Text} {info : InterruptedTransferInfo}
    (hmessage : IsMessage plaintext .transferResumeRequest payload)
    (hkey : payload.getD "transfer_id" .null = .str transferId)
    (hrecord : s.db.interrupted transferId = some info) {t : Daemon} (ht : s.Queried t) :
    wp (resumeRecorded ps transferId payload info now.wall) (FrameMove s ps now uuid plaintext) t := by
  have hquiet : Quiet s t := ht.quiet
  have hnext : t.next = s.next := by
    obtain ⟨faults, rfl⟩ := ht
    rfl
  have hdisk : t.disk = s.disk ∧ t.downloadDir = s.downloadDir ∧ t.sessions = s.sessions := by
    obtain ⟨faults, rfl⟩ := ht
    exact ⟨rfl, rfl, rfl⟩
  unfold resumeRecorded
  rw [wp_get_bind, wp_ofResult_bind]
  refine ⟨fun _ _ ↦ .quiet hquiet, fun refusal hrefusal ↦ ?_⟩
  cases refusal with
  | some reason =>
    exact wp_quiet (keeps_replyQuietly _ _) (by decide) fun _ _ hu ↦ .quiet (hquiet.trans hu)
  | none =>
    have hmove : ∀ {r' u metadata incoming},
        TransferMetadata.fromDict now.wall info.originalMetadata = .ok metadata →
        (IncomingTransfer.resume info.resumeChunkIndex
          ⟨t.disk, restored metadata t.downloadDir⟩).1.isOk = true → incoming.state = .resuming →
        Quiet ((t.addObject incoming).mapLedger fun ledger ↦ ledger.register transferId t.next ps) u →
        FrameMove s ps now uuid plaintext r' u := by
      intro r' u metadata incoming hmetadata hresumed hstate hu
      have hadded := Quiet.mapLedger (Quiet.addObject hquiet hnext incoming) fun ledger ↦
        ledger.register transferId t.next ps
      have hgranted : s.grantsResume ps payload now.wall info = true := by
        rw [hdisk.1, hdisk.2.1] at hresumed
        rw [hdisk.2.2] at hrefusal
        simp only [grantsResume, hrefusal, hmetadata, hresumed]
      rw [hnext] at hu hadded
      exact .resumed hmessage hkey hrecord hgranted hstate (Within.trans hadded hu)
    have hfailed : Keeps [] (resumeFailed ps transferId) := keeps_replyQuietly _ _
    apply wp_tryCatch_of (resumeIncoming_quiet ps transferId info now.wall t)
    · rintro e u (⟨-, hu⟩ | ⟨metadata, incoming, hmetadata, hresumed, hstate, hu⟩)
      · exact wp_quiet hfailed (by decide) fun _ _ hv ↦ .quiet (hquiet.trans (Within.trans hu hv))
      · exact wp_quiet hfailed (by decide) fun _ _ hv ↦
          hmove hmetadata hresumed hstate (Within.trans hu hv)
    · rintro flow u (⟨⟨e, he⟩, -⟩ | ⟨metadata, incoming, hmetadata, hresumed, hstate, hu⟩)
      · exact (nomatch he)
      · exact hmove hmetadata hresumed hstate hu

theorem onTransferResumeRequest_move {payload : Payload}
    (hmessage : IsMessage plaintext .transferResumeRequest payload) :
    wp (onTransferResumeRequest ps payload now.wall) (FrameMove s ps now uuid plaintext) s := by
  unfold onTransferResumeRequest
  dsimp only
  rw [wp_ite]
  refine ⟨fun _ ↦ ?_, fun _ ↦ .quiet (within_refl s)⟩
  apply wp_bind_of (interruptedTransfer_effect _ s)
  · exact fun _ _ ht ↦ .quiet ht.1.quiet
  · rintro found t ⟨ht, hfound⟩
    cases found with
    | none =>
      exact wp_quiet (keeps_replyQuietly _ _) (by decide) fun _ _ hu ↦
        .quiet (Within.trans ht.quiet hu)
    | some found =>
      obtain ⟨key, info⟩ := found
      obtain ⟨hkey, hinfo⟩ := hfound key info rfl
      exact resumeRecorded_move hmessage hkey hinfo ht

/-! ### Pairing -/

theorem quiet_transitionSession (ps : ℕ) (new : SessionState) (s : Daemon) :
    wp (transitionSession ps new) (fun _ t ↦ Quiet s t ∧ t.db = s.db ∧
      (t.sessions ps).remote = (s.sessions ps).remote) s :=
  wp_mono (keeps_transitionSession ps new s) fun _ _ h ↦
    ⟨h.mono (by decide), h .database (by decide), ((h .loops (by decide)).2 ps).2.2⟩

/-- The pairing is stored, or the session cannot go that far. -/
theorem establish_paired (ps : ℕ) (now : ℤ) (uuid : Text) (s : Daemon) :
    wp (establish ps now uuid) (fun _ t ↦ Quiet s t ∨ Quiet (s.pairWith ps now uuid) t) s := by
  unfold establish
  apply wp_bind_of (quiet_transitionSession ps .pairAccepted s)
  · exact fun _ _ h ↦ .inl h.1
  · rintro _ t ⟨hquiet, hdb, hremote⟩
    rw [wp_get_bind]
    have hstored : wp (onDb (persistTrust now uuid (t.sessions ps).remote))
        (fun _ u ↦ Quiet (s.pairWith ps now uuid) u) t := by
      have hsettles : Database.Settles (s.pairWith ps now uuid).db
          (persistTrust now uuid (s.sessions ps).remote s.db).2 :=
        Database.settles_of_eq (sameTransfers_persistTrust now uuid (s.sessions ps).remote s.db)
      rw [hremote]
      intro p hp
      have hp' := hquiet p hp
      cases p <;> simp_all [Same, quietParts, onDb, zoom, pairWith]
    apply wp_bind_of hstored
    · exact fun _ _ h ↦ .inr h
    · exact fun _ u hu ↦ wp_quiet (keeps_transitionSession _ _) (by decide) fun _ _ hv ↦
        .inr (Within.trans hu hv)

theorem onPairDecision_move (ps : ℕ) (payload : JsonValue) :
    wp (onPairDecision ps payload now.wall uuid)
      (FrameMove s ps now uuid (.control ⟨some .pairDecision, payload⟩)) s := by
  unfold onPairDecision acceptRemotely
  rw [wp_ofResult_bind]
  refine ⟨fun _ _ ↦ .quiet (within_refl s), fun fields hfields ↦ ?_⟩
  dsimp only
  rw [wp_ite]
  refine ⟨fun _ ↦ .quiet (within_refl s), fun hreject ↦ ?_⟩
  rw [wp_ite]
  refine ⟨fun haccept ↦ ?_, fun _ ↦ .quiet (within_refl s)⟩
  rw [wp_get_bind, wp_ite]
  refine ⟨fun _ ↦ ?_, fun _ ↦ ?_⟩
  · exact wp_quiet (touches_bind (keeps_transitionSession _ _) fun _ ↦ touches_pure _) (by decide)
      fun _ _ h ↦ .quiet h
  rw [wp_ite]
  refine ⟨fun hstate ↦ ?_, fun _ ↦ .quiet (within_refl s)⟩
  have hmove : ∀ {r t}, Quiet s t ∨ Quiet (s.pairWith ps now.wall uuid) t →
      FrameMove s ps now uuid (.control ⟨some .pairDecision, payload⟩) r t := fun h ↦
    h.elim .quiet (.paired (by simp [acceptsPairing, hfields, hreject, haccept]) hstate)
  apply wp_bind_of (establish_paired ps now.wall uuid s)
  · exact fun _ _ h ↦ hmove h
  · exact fun _ t h ↦ wp_quiet (keeps_replyQuietly _ _) (by decide) fun _ _ hu ↦
      hmove (h.imp (fun h ↦ Within.trans h hu) fun h ↦ Within.trans h hu)

/-! ### All frames -/

theorem handleTransferMessage_move (ps : ℕ) (type : Option MessageType) (payload : JsonValue) :
    wp (handleTransferMessage ps type payload now.wall)
      (FrameMove s ps now uuid (.control ⟨type, payload⟩)) s := by
  unfold handleTransferMessage
  rw [wp_ofResult_bind]
  refine ⟨fun _ _ ↦ .quiet (within_refl s), fun fields hfields ↦ ?_⟩
  have hpayload : ∃ text, payload = .obj fields text := by
    cases payload <;> simp [JsonValue.fields] at hfields
    exact ⟨_, by rw [hfields]⟩
  obtain ⟨text, rfl⟩ := hpayload
  dsimp only
  split
  · exact onTransferRequest_move ⟨text, rfl⟩
  · exact wp_quiet (keeps_onResponse _ _ _) (by decide) fun _ _ h ↦ .quiet h
  · exact wp_quiet (keeps_onResponse _ _ _) (by decide) fun _ _ h ↦ .quiet h
  · exact onTransferComplete_move ⟨text, rfl⟩
  · exact wp_quiet (keeps_onResult _ _ _) (by decide) fun _ _ h ↦ .quiet h
  · exact onTransferCancel_move _
  · exact cancelIncomingTransfer_move _
  · exact onTransferResumeRequest_move ⟨text, rfl⟩
  · exact wp_quiet (keeps_onResponse _ _ _) (by decide) fun _ _ h ↦ .quiet h
  · exact wp_quiet (keeps_onResponse _ _ _) (by decide) fun _ _ h ↦ .quiet h
  · exact wp_quiet (keeps_onBatchRequest _ _) (by decide) fun _ _ h ↦ .quiet h
  · exact wp_quiet (keeps_onResponse _ _ _) (by decide) fun _ _ h ↦ .quiet h
  · exact wp_quiet (keeps_onResponse _ _ _) (by decide) fun _ _ h ↦ .quiet h
  · exact wp_quiet (keeps_onBatchCancel _) (by decide) fun _ _ h ↦ .quiet h
  · exact wp_quiet (keeps_onBatchComplete _) (by decide) fun _ _ h ↦ .quiet h
  · exact .quiet (within_refl s)

/-- What the first segment of any handler does to the incoming transfers. -/
theorem processFrame_move (s : Daemon) (ps : ℕ) (plaintext : Plaintext) (now : Clock) (uuid : Text) :
    wp (processFrame ps plaintext now uuid) (FrameMove s ps now uuid plaintext) s := by
  unfold processFrame
  split
  · exact .quiet (within_refl s)
  · exact onChunkReceived_move
  · exact .quiet (within_refl s)
  · exact onPairDecision_move ps _
  · refine wp_quiet (?_ : Keeps [] _) ?_ ?_
    · exact touches_bind (touches_ofResult _) fun _ ↦
        touches_bind (touches_ofResult _) fun _ ↦ touches_pure _
    · exact List.forall_mem_nil _
    · exact fun _ _ h ↦ .quiet h
  · rw [wp_ite]
    exact ⟨fun _ ↦ .quiet (within_refl s), fun _ ↦
      wp_quiet (keeps_parseNotification _) (by decide) fun _ _ h ↦ .quiet h⟩
  · exact wp_quiet (keeps_parseNotification _) (by decide) fun _ _ h ↦ .quiet h
  · exact handleTransferMessage_move ps _ _

end FrameMoves

end Daemon

end Ferry
