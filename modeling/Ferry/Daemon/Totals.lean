import Ferry.Daemon.Requests
import Ferry.Transfer.Sizes

/-!
# Declared totals

A BATCH_REQUEST declares how many items there are and how many bytes they have, and the user accepts the
batch on that.  `_on_transfer_request` admits every item that names the accepted batch, and
`_on_chunk_received` adds up what the items receive: neither compares its sum with the declared one.
-/

namespace Ferry

open Exec Text
open IncomingTransfer (Expects FitRun Fits DeliversDeclared sampleMetadata sampleDir rootDisk pairMetadata
  pairFrame afterCalls fitRun_pair shortMetadata overrun overrun_delivers deliversDeclared)

namespace Daemon

variable {α : Type} {parts : List Part} {s t u : Daemon}

/-! ## Batches keep their terms -/

/-- The registered batches have been allocated. -/
def BatchesKnown (s : Daemon) : Prop := ∀ i batch, s.activeBatches.get i = some batch → batch < s.next

/-- No batch changes what it has declared, and only allocated batches are registered. -/
structure Declares (s t : Daemon) : Prop where
  next : s.next ≤ t.next
  terms : ∀ batch < s.next, (s.batches batch).SameTerms (t.batches batch)
  known : s.BatchesKnown → t.BatchesKnown

theorem Batch.SameTerms.refl (batch : Batch) : batch.SameTerms batch := ⟨rfl, rfl, rfl, rfl⟩

theorem Batch.SameTerms.trans {batch batch' batch'' : Batch} (h : batch.SameTerms batch')
    (h' : batch'.SameTerms batch'') : batch.SameTerms batch'' where
  peer := h'.peer.trans h.peer
  direction := h'.direction.trans h.direction
  totalItems := h'.totalItems.trans h.totalItems
  totalBytes := h'.totalBytes.trans h.totalBytes

theorem declares_refl (s : Daemon) : Declares s s := ⟨le_rfl, fun _ _ ↦ .refl _, id⟩

theorem Declares.trans (h : Declares s t) (h' : Declares t u) : Declares s u where
  next := h.next.trans h'.next
  terms batch hlt := (h.terms batch hlt).trans (h'.terms batch (hlt.trans_le h.next))
  known hs := h'.known (h.known hs)

instance : IsPreorder Daemon Declares where
  refl := declares_refl
  trans _ _ _ := Declares.trans

theorem declares_of_same (hnext : s.next ≤ t.next) (hbatches : t.batches = s.batches)
    (hactive : t.activeBatches = s.activeBatches) : Declares s t where
  next := hnext
  terms _ _ := hbatches ▸ .refl _
  known hs i batch hi := (hs i batch (hactive ▸ hi)).trans_le hnext

theorem declares_of_within (h : Within Same parts s t)
    (hparts : ∀ p ∈ parts, p ∉ [Part.next, .batchObjects, .activeBatches]) : Declares s t := by
  have hsame : ∀ p ∈ [Part.next, .batchObjects, .activeBatches], Same p s t :=
    fun p hp ↦ h p fun hmem ↦ hparts p hmem hp
  have hnext : s.next ≤ t.next := hsame .next (by decide)
  have hactive : t.activeBatches = s.activeBatches := hsame .activeBatches (by decide)
  refine ⟨hnext, fun batch hlt ↦ ?_, fun hs i batch hi ↦ (hs i batch (hactive ▸ hi)).trans_le hnext⟩
  rw [(hsame .batchObjects (by decide)).2 batch hlt]
  exact .refl _

theorem declares_of_keeps {m : Segment α} (h : Keeps parts m)
    (hparts : ∀ p ∈ parts, p ∉ [Part.next, .batchObjects, .activeBatches]) : Stays Declares m :=
  fun s ↦ declares_of_within (h s) hparts

instance : Tame Declares where
  within h hparts := declares_of_within h fun p hp hmem ↦
    hparts p hp (List.Sublist.subset (by decide) hmem)
  onBatch {f} h batch s := by
    refine ⟨le_rfl, fun other _ ↦ ?_, fun hs ↦ hs⟩
    change (s.batches other).SameTerms (Function.update s.batches batch _ other)
    by_cases hother : other = batch
    · subst hother
      rw [Function.update_self]
      exact h _
    · rw [Function.update_of_ne hother]
      exact .refl _
  popBatch batchId s := by
    refine ⟨le_rfl, fun _ _ ↦ .refl _, fun hs i batch hi ↦ ?_⟩
    change (s.activeBatches.pop batchId).get i = some batch at hi
    rw [Dict.get_pop] at hi
    split at hi
    · exact (nomatch hi)
    · exact hs i batch hi

theorem declares_registerBatch (batchId : Text) (batch : Batch) :
    Stays Declares (registerBatch batchId batch) := by
  refine fun s ↦ ⟨Nat.le_succ _, fun other hlt ↦ ?_, fun hs i other hi ↦ ?_⟩
  · change (s.batches other).SameTerms (Function.update s.batches s.next batch other)
    rw [Function.update_of_ne hlt.ne]
    exact .refl _
  · change (s.activeBatches.set batchId s.next).get i = some other at hi
    change other < s.next + 1
    rw [Dict.get_set] at hi
    split at hi
    · exact Option.some.inj hi ▸ Nat.lt_succ_self _
    · exact (hs i other hi).trans (Nat.lt_succ_self _)

theorem declares_onBatchRequest (ps : ℕ) (payload : Payload) :
    Stays Declares (onBatchRequest ps payload) := by
  refine tame_get_bind fun s ↦ ?_
  split
  · exact stays_pure _
  · refine stays_ite _ (tame_reply _ _) ?_
    exact stays_bind (declares_registerBatch _ _) fun _ ↦ stays_pure _

theorem declares_processFrame (ps : ℕ) (plaintext : Plaintext) (now : Clock) (uuid : Text) :
    Stays Declares (processFrame ps plaintext now uuid) :=
  fun s ↦ tame_processFrame (R := Declares) (fun _ ↦ declares_onBatchRequest _ _ s) (fun _ _ ↦ id) _ _ _

theorem declares_endLoop (ps : ℕ) : Stays Declares (endLoop ps) := by
  refine stays_bind (tame_cancelForPeer ps) fun _ ↦
    stays_bind (tame_of_keeps (keeps_closeStates ps) (by decide)) fun _ ↦
      stays_bind (fun s ↦ ?_) fun _ s ↦ ?_
  · exact declares_of_same le_rfl rfl rfl
  · exact declares_of_same le_rfl rfl rfl

/-! ### Sending -/

theorem declares_unregistering (transferId : Text) {m : Segment FileFlow} (h : Stays Declares m) :
    Stays Declares (unregistering transferId m) := by
  have hpop : Stays Declares (popOutgoing transferId) :=
    declares_of_keeps (keeps_popOutgoing transferId) (by decide)
  refine stays_bind ?_ fun flow ↦ ?_
  · exact stays_tryCatch h fun _ ↦ stays_bind hpop fun _ ↦ stays_throw _
  · split
    · exact stays_bind hpop fun _ ↦ stays_pure _
    · exact stays_pure _

theorem declares_sendFile (remoteAddr : Text) (item : BatchItem) (caller : Option BatchSend) (now : ℤ) :
    Stays Declares (sendFile remoteAddr item caller now) :=
  declares_of_keeps (keeps_sendFile remoteAddr item caller now) (by decide)

theorem declares_countSent (b : BatchSend) (success : Bool) : Stays Declares (countSent b success) := by
  refine stays_bind (Tame.onBatch (fun _ ↦ ?_) _) fun _ ↦ stays_pure _
  split <;> constructor <;> rfl

theorem declares_completeBatch (b : BatchSend) : Stays Declares (completeBatch b) :=
  declares_of_keeps (keeps_completeBatch b) (by decide)

theorem declares_sendItems (now : ℤ) (b : BatchSend) (items : List BatchItem) :
    Stays Declares (sendItems now b items) := by
  induction items generalizing b with
  | nil => exact declares_completeBatch b
  | cons item rest ih =>
    refine tame_get_bind fun s ↦ ?_
    split
    · exact declares_completeBatch b
    · refine stays_bind (declares_sendFile _ _ _ _) fun flow ↦ ?_
      split
      · exact stays_pure _
      · exact stays_bind (declares_countSent _ _) fun b ↦ ih b

theorem declares_fileReturned (now : ℤ) (caller : Option BatchSend) (flow : FileFlow) :
    Stays Declares (fileReturned now caller flow) := by
  unfold fileReturned
  split
  · exact stays_pure _
  · split
    · exact stays_pure _
    · exact stays_bind (declares_countSent _ _) fun b ↦ declares_sendItems _ _ _

theorem declares_resumeSend (send : FileSend) (failed : Bool) (now : ℤ) (await : FileAwait) :
    Stays Declares (resumeSend send failed now await) :=
  stays_bind (declares_unregistering _ (tame_resumeFile _ _ _)) fun _ ↦ declares_fileReturned _ _ _

theorem declares_startFile (remoteAddr : Text) (item : BatchItem) (now : ℤ) :
    Stays Declares (startFile remoteAddr item now) :=
  stays_bind (declares_sendFile _ _ _ _) fun _ ↦ declares_fileReturned _ _ _

theorem declares_sendBatch (remoteAddr : Text) (files : List BatchItem) (totalBytes : ℤ)
    (batchName batchId : Text) (now : ℤ) :
    Stays Declares (sendBatch remoteAddr files totalBytes batchName batchId now) := by
  refine tame_get_bind fun s ↦ ?_
  split
  · exact stays_pure _
  · refine stays_ite _ (stays_pure _) (stays_bind (declares_registerBatch _ _) fun batch ↦ ?_)
    exact stays_bind (tame_sendEncrypted _ _) fun _ ↦ stays_pure _

theorem declares_resumeBatch (b : BatchSend) (failed : Bool) (now : ℤ) (await : BatchAwait) :
    Stays Declares (resumeBatch b failed now await) := by
  have hdrained : Stays Declares (drained failed) := stays_raiseIf _ _
  unfold resumeBatch
  split
  · refine stays_bind hdrained fun _ ↦ stays_bind ?_ fun _ ↦ stays_pure _
    exact tame_of_keeps (keeps_waitForTransferResponse _ _) (by decide)
  · refine stays_bind hdrained fun _ ↦ stays_bind ?_ fun response ↦ ?_
    · exact tame_of_keeps (keeps_transferResponse _ _ _) (by decide)
    · refine stays_ite _ (declares_sendItems _ _ _) ?_
      exact stays_bind (Tame.popBatch _) fun _ ↦ stays_pure _
  · refine stays_bind hdrained fun _ ↦ stays_bind (Tame.popBatch _) fun _ ↦ ?_
    exact declares_of_keeps (keeps_batchSent b) (by decide)

/-! ### Steps -/

theorem declares_runLoop {ps : ℕ} {m : Segment LoopFlow} (h : Stays Declares m) (s : Daemon) :
    Declares s (runLoop ps m s) := by
  have hm : Declares s (m s).2 := h s
  have hend : ∀ t, Declares s t → Declares s (endLoop ps t).2 :=
    fun t ht ↦ ht.trans (declares_endLoop ps t)
  have hloop : ∀ t loop, Declares s t → Declares s (t.setLoop ps loop) :=
    fun t loop ht ↦ ht.trans (declares_of_same le_rfl rfl rfl)
  unfold runLoop
  split
  · next heq => exact hloop _ _ (by simpa [heq] using hm)
  · next heq => exact hloop _ _ (by simpa [heq] using hm)
  · next heq => exact hend _ (by simpa [heq] using hm)
  · next heq => exact hend _ (by simpa [heq] using hm)

theorem declares_runCall {m : Call} (h : Stays Declares m) (s : Daemon) : Declares s (runCall m s) := by
  rcases runCall_cases m s with ⟨left, -, hrun⟩ | ⟨-, hrun⟩
  · rw [hrun]
    exact (h s).trans (declares_of_same (Nat.le_succ _) rfl rfl)
  · rw [hrun]
    exact h s

theorem declares_ceasing {m : Call} (h : Ceases Declares m) (s : Daemon) : Declares s (runCall m s) :=
  declares_runCall (fun s ↦ (h s).1) s

theorem declares_resumeCall (failed : Bool) (now : Clock) (await : Await) :
    Stays Declares (resumeCall failed now await) := by
  cases hsending : await.isSending with
  | false => exact fun s ↦ (ceases_resumeCall failed now hsending s).1
  | true =>
    cases await with
    | file send await => exact declares_resumeSend _ _ _ _
    | batch b await => exact declares_resumeBatch _ _ _ _
    | _ => exact (nomatch hsending)

theorem declares_step (s : Daemon) (event : Event) : Declares s (s.step event) := by
  cases event with
  | connect remoteAddr remote paired sendFaults => exact declares_of_same (Nat.le_succ _) rfl rfl
  | frame ps plaintext now uuid =>
    dsimp only [step]
    split
    · exact declares_runLoop (declares_processFrame _ _ _ _) s
    · exact declares_refl s
  | loopEnds ps =>
    dsimp only [step]
    split
    · exact declares_endLoop ps s
    · exact declares_refl s
  | loopResumes ps failed =>
    dsimp only [step]
    split
    · exact declares_runLoop (tame_resumeHandler _ _ _) s
    · exact declares_refl s
  | resume task failed now =>
    dsimp only [step]
    split
    · exact declares_refl s
    · split
      · have hpopped : Declares s { s with tasks := s.tasks.pop task } := declares_of_same le_rfl rfl rfl
        exact hpopped.trans (declares_runCall (declares_resumeCall _ _ _) _)
      · exact declares_refl s
  | expire timer =>
    dsimp only [step]
    split
    · exact declares_refl s
    · have hfired : Declares s { s with ledger := { s.ledger with timers := s.ledger.timers.pop timer } } :=
        declares_of_same le_rfl rfl rfl
      exact hfired.trans (declares_ceasing (ceases_acceptanceTimeout _) _)
  | stall now => exact tame_of_keeps (keeps_monitorStallTimeouts now) (by simp) s
  | acceptPairing remoteAddr now uuid => exact declares_ceasing (ceases_acceptPairing _ _ _) s
  | rejectPairing remoteAddr => exact declares_ceasing (ceases_rejectPairing _) s
  | acceptTransfer remoteAddr transferId => exact declares_ceasing (ceases_acceptTransfer _ _) s
  | rejectTransfer remoteAddr transferId => exact declares_ceasing (ceases_rejectTransfer _ _) s
  | acceptBatch remoteAddr batchId => exact declares_ceasing (ceases_acceptBatch _ _) s
  | rejectBatch remoteAddr batchId => exact declares_ceasing (ceases_rejectBatch _ _) s
  | cancelTransfer transferId reason now => exact declares_ceasing (ceases_cancelTransfer _ _ _) s
  | discard transferId => exact declares_ceasing (ceases_discardInterruptedTransfer _) s
  | requestResume remoteAddr transferId now => exact declares_ceasing (ceases_requestResume _ _ _) s
  | sendFile remoteAddr item now => exact declares_runCall (declares_startFile _ _ _) s
  | sendBatch remoteAddr files totalBytes batchName batchId now =>
    exact declares_runCall (declares_sendBatch _ _ _ _ _ _) s

/-! ## What is sent to a batch -/

/-- The batch that an event makes `accept_batch` accept. -/
def approves (s : Daemon) : Event → Option ℕ
  | .acceptBatch remoteAddr batchId =>
    (s.activeSessions.get remoteAddr).bind fun _ ↦ s.activeBatches.get batchId
  | .acceptTransfer remoteAddr transferId =>
    if s.ledger.incomingTransfers.get transferId = none then
      (s.activeSessions.get remoteAddr).bind fun _ ↦ s.activeBatches.get transferId
    else none
  | _ => none

/-- An item that an event makes `_on_transfer_request` admit, and its batch. -/
def admits (s : Daemon) : Event → Option (TransferMetadata × ℕ)
  | .frame ps plaintext now _ =>
    match (s.sessions ps).loop with
    | .reading => (s.requests plaintext now).bind fun metadata ↦
      if metadata.batchId = [] then none
      else (s.activeBatches.get metadata.batchId).map fun batch ↦ (metadata, batch)
    | _ => none
  | _ => none

/-- A chunk that an event hands to `receive_chunk`, and its transfer. -/
def handsOver (s : Daemon) : Event → Option (ChunkFrame × ℕ)
  | .frame ps (.chunk data) _ _ =>
    match (s.sessions ps).loop, decodeChunkFrame data with
    | .reading, .ok chunk =>
      (s.ledger.incomingTransfers.get chunk.transferId).map fun object ↦ (chunk, object)
    | _, _ => none
  | _ => none

/-- The daemon with the history of its batches.  `batchOf` records the batch that an item was last
admitted to under a batch id and a transfer id, `items` and `bytes` how many items were admitted to a
batch and how many bytes `receive_chunk` has taken for them, and `approved` the accepted batches. -/
structure Audit where
  daemon : Daemon
  batchOf : Text → Text → Option ℕ
  items : ℕ → ℕ
  bytes : ℕ → ℕ
  approved : List ℕ

/-- The history of a daemon that starts. -/
def audit (s : Daemon) : Audit := ⟨s, fun _ _ ↦ none, fun _ ↦ 0, fun _ ↦ 0, []⟩

/-- A chunk for an item of a batch, and what `receive_chunk` finds. -/
structure Charge where
  batch : ℕ
  chunk : ChunkFrame
  world : World

/-- The batches of the items after another one is admitted. -/
def fileItem (batchOf : Text → Text → Option ℕ) : Option (TransferMetadata × ℕ) → Text → Text → Option ℕ
  | none => batchOf
  | some (metadata, batch) => fun batchId transferId ↦
    if batchId = metadata.batchId ∧ transferId = metadata.transferId then some batch
    else batchOf batchId transferId

/-- The counts after a batch is charged. -/
def addTo (count : ℕ → ℕ) : Option (ℕ × ℕ) → ℕ → ℕ
  | none => count
  | some (batch, n) => Function.update count batch (count batch + n)

namespace Audit

/-- The chunk that an event brings for an item of a batch.  A resumed item belongs to the batch that it
was admitted to. -/
def charge (a : Audit) (event : Event) : Option Charge :=
  (a.daemon.handsOver event).bind fun (chunk, object) ↦
    let self := a.daemon.objects object
    (a.batchOf self.metadata.batchId self.metadata.transferId).map fun batch ↦
      ⟨batch, chunk, ⟨a.daemon.disk, self⟩⟩

/-- The bytes of the chunk, when `receive_chunk` takes it. -/
def received (a : Audit) (event : Event) : Option (ℕ × ℕ) :=
  (a.charge event).bind fun charge ↦
    match IncomingTransfer.receiveChunk charge.chunk charge.world with
    | (.ok _, _) => some (charge.batch, charge.chunk.data.length)
    | (.error _, _) => none

def step (a : Audit) (event : Event) : Audit where
  daemon := a.daemon.step event
  batchOf := fileItem a.batchOf (a.daemon.admits event)
  items := addTo a.items ((a.daemon.admits event).map fun admitted ↦ (admitted.2, 1))
  bytes := addTo a.bytes (a.received event)
  approved := (a.daemon.approves event).toList ++ a.approved

def run (a : Audit) (events : List Event) : Audit := events.foldl step a

/-- No accepted batch has got more than it has declared. -/
def Bounded (a : Audit) : Prop :=
  ∀ batch ∈ a.approved, (a.items batch : ℤ) ≤ (a.daemon.batches batch).totalItems ∧
    (a.bytes batch : ℤ) ≤ (a.daemon.batches batch).totalBytes

/-- A batch that is accepted declares no negative totals, an item is admitted only while its batch has
items left, and a chunk that passes the checks fits into what its batch has left. -/
def Covers (a : Audit) (event : Event) : Prop :=
  (∀ batch ∈ a.daemon.approves event,
    0 ≤ (a.daemon.batches batch).totalItems ∧ 0 ≤ (a.daemon.batches batch).totalBytes) ∧
  (∀ admitted ∈ a.daemon.admits event,
    (a.items admitted.2 : ℤ) < (a.daemon.batches admitted.2).totalItems) ∧
  ∀ charge ∈ a.charge event, Expects charge.world charge.chunk →
    (a.bytes charge.batch + charge.chunk.data.length : ℤ) ≤ (a.daemon.batches charge.batch).totalBytes

/-- Every event of a run fits. -/
def Covered (a : Audit) : List Event → Prop
  | [] => True
  | event :: events => a.Covers event ∧ Covered (a.step event) events

end Audit

/-! ## The invariant -/

/-- A count by batch is within a limit wherever it has begun, and it has not begun for what is not
allocated. -/
structure Capped (s : Daemon) (limit : Batch → ℤ) (count : ℕ → ℕ) : Prop where
  within : ∀ batch, count batch = 0 ∨ (count batch : ℤ) ≤ limit (s.batches batch)
  fresh : ∀ batch, s.next ≤ batch → count batch = 0

theorem Capped.addTo {limit : Batch → ℤ} {count : ℕ → ℕ} {entry : Option (ℕ × ℕ)}
    (h : Capped s limit count) (hentry : ∀ batch n, entry = some (batch, n) →
      batch < s.next ∧ (count batch + n : ℤ) ≤ limit (s.batches batch)) :
    Capped s limit (addTo count entry) := by
  cases entry with
  | none => exact h
  | some pair =>
    obtain ⟨batch, n⟩ := pair
    obtain ⟨hlt, hle⟩ := hentry batch n rfl
    refine ⟨fun other ↦ ?_, fun other hfresh ↦ ?_⟩
    · change Function.update count batch _ other = 0 ∨ (Function.update count batch _ other : ℤ) ≤ _
      by_cases hother : other = batch
      · subst hother
        rw [Function.update_self]
        exact .inr (by exact_mod_cast hle)
      · rw [Function.update_of_ne hother]
        exact h.within other
    · change Function.update count batch _ other = 0
      rw [Function.update_of_ne (hlt.trans_le hfresh).ne']
      exact h.fresh other hfresh

theorem Capped.declares {limit : Batch → ℤ} {count : ℕ → ℕ} (h : Capped s limit count)
    (hlimit : ∀ batch batch' : Batch, batch.SameTerms batch' → limit batch' = limit batch)
    (hdeclares : Declares s t) : Capped t limit count where
  within batch := by
    by_cases hlt : batch < s.next
    · rw [hlimit _ _ (hdeclares.terms batch hlt)]
      exact h.within batch
    · exact .inl (h.fresh batch (not_lt.mp hlt))
  fresh batch hfresh := h.fresh batch (hdeclares.next.trans hfresh)

namespace Audit

/-- Every batch of the history is allocated, and its counts are within what it has declared. -/
structure Sound (a : Audit) : Prop where
  known : a.daemon.BatchesKnown
  batchOf : ∀ batchId transferId batch, a.batchOf batchId transferId = some batch → batch < a.daemon.next
  items : Capped a.daemon (fun batch ↦ batch.totalItems) a.items
  bytes : Capped a.daemon (fun batch ↦ batch.totalBytes) a.bytes
  approved : ∀ batch ∈ a.approved, batch < a.daemon.next ∧
    0 ≤ (a.daemon.batches batch).totalItems ∧ 0 ≤ (a.daemon.batches batch).totalBytes

theorem sound_audit (h : s.Started) : (audit s).Sound where
  known i batch hi := by
    change s.activeBatches.get i = _ at hi
    rw [h.batches] at hi
    exact (nomatch hi)
  batchOf _ _ _ h := nomatch h
  items := ⟨fun _ ↦ .inl rfl, fun _ _ ↦ rfl⟩
  bytes := ⟨fun _ ↦ .inl rfl, fun _ _ ↦ rfl⟩
  approved _ h := nomatch h

theorem Sound.bounded {a : Audit} (h : a.Sound) : a.Bounded := by
  intro batch hbatch
  obtain ⟨-, hitems, hbytes⟩ := h.approved batch hbatch
  constructor
  · rcases h.items.within batch with hzero | hle
    · rwa [hzero]
    · exact hle
  · rcases h.bytes.within batch with hzero | hle
    · rwa [hzero]
    · exact hle

theorem approves_registered {event : Event} {batch : ℕ} (h : s.approves event = some batch) :
    ∃ i, s.activeBatches.get i = some batch := by
  cases event with
  | acceptBatch remoteAddr batchId =>
    obtain ⟨_, -, hbatch⟩ := Option.bind_eq_some_iff.mp h
    exact ⟨_, hbatch⟩
  | acceptTransfer remoteAddr transferId =>
    obtain ⟨_, -, hbatch⟩ := Option.bind_eq_some_iff.mp (Option.ite_none_right_eq_some.mp h).2
    exact ⟨_, hbatch⟩
  | _ => exact (nomatch h)

theorem admits_registered {event : Event} {metadata : TransferMetadata} {batch : ℕ}
    (h : s.admits event = some (metadata, batch)) : ∃ i, s.activeBatches.get i = some batch := by
  unfold admits at h
  split at h
  · split at h
    · obtain ⟨_, -, h⟩ := Option.bind_eq_some_iff.mp h
      obtain ⟨-, h⟩ := Option.ite_none_left_eq_some.mp h
      obtain ⟨_, hbatch, hpair⟩ := Option.map_eq_some_iff.mp h
      obtain ⟨-, rfl⟩ := Prod.ext_iff.mp hpair
      exact ⟨_, hbatch⟩
    · exact (nomatch h)
  · exact (nomatch h)

theorem charge_batchOf {a : Audit} {event : Event} {charge : Charge} (h : a.charge event = some charge) :
    ∃ batchId transferId, a.batchOf batchId transferId = some charge.batch := by
  obtain ⟨_, -, h⟩ := Option.bind_eq_some_iff.mp h
  obtain ⟨_, hbatch, rfl⟩ := Option.map_eq_some_iff.mp h
  exact ⟨_, _, hbatch⟩

/-- `receive_chunk` takes only what passes its checks. -/
theorem received_expects {a : Audit} {event : Event} {batch n : ℕ}
    (h : a.received event = some (batch, n)) : ∃ charge, a.charge event = some charge ∧
      Expects charge.world charge.chunk ∧ charge.batch = batch ∧ charge.chunk.data.length = n := by
  obtain ⟨charge, hcharge, h⟩ := Option.bind_eq_some_iff.mp h
  split at h
  · next u t hreceive =>
    obtain ⟨rfl, rfl⟩ := Prod.ext_iff.mp (Option.some.inj h)
    refine ⟨charge, hcharge, ?_, rfl, rfl⟩
    unfold IncomingTransfer.receiveChunk at hreceive
    rw [get_bind_run, raiseIf_bind_run_eq_ok, raiseIf_bind_run_eq_ok, raiseIf_bind_run_eq_ok,
      raiseIf_bind_run_eq_ok] at hreceive
    obtain ⟨hstate, hid, hseq, hlength, -⟩ := hreceive
    refine ⟨Classical.not_and_iff_not_or_not.mp hstate |>.imp not_not.mp not_not.mp, not_not.mp hid,
      not_not.mp hseq, not_lt.mp hlength⟩
  · exact (nomatch h)

theorem Sound.step {a : Audit} (h : a.Sound) (event : Event) (hcovers : a.Covers event) :
    (a.step event).Sound := by
  have hdeclares : Declares a.daemon (a.step event).daemon := declares_step a.daemon event
  obtain ⟨happroved, hitems, hbytes⟩ := hcovers
  refine ⟨hdeclares.known h.known, ?_, ?_, ?_, ?_⟩
  · intro batchId transferId batch hbatch
    apply lt_of_lt_of_le ?_ hdeclares.next
    change fileItem a.batchOf (a.daemon.admits event) batchId transferId = some batch at hbatch
    cases hadmits : a.daemon.admits event with
    | none =>
      rw [hadmits] at hbatch
      exact h.batchOf _ _ _ hbatch
    | some admitted =>
      obtain ⟨_, hregistered⟩ := admits_registered hadmits
      rw [hadmits] at hbatch
      rcases ite_eq_iff.mp hbatch with ⟨-, hbatch⟩ | ⟨-, hbatch⟩
      · exact h.known _ _ (Option.some.inj hbatch ▸ hregistered)
      · exact h.batchOf _ _ _ hbatch
  · refine (h.items.addTo fun batch n hentry ↦ ?_).declares (fun _ _ hsame ↦ hsame.totalItems) hdeclares
    obtain ⟨⟨metadata, other⟩, hadmits, hpair⟩ := Option.map_eq_some_iff.mp hentry
    obtain ⟨rfl, rfl⟩ := Prod.ext_iff.mp hpair
    obtain ⟨_, hregistered⟩ := admits_registered hadmits
    exact ⟨h.known _ _ hregistered, hitems _ hadmits⟩
  · refine (h.bytes.addTo fun batch n hentry ↦ ?_).declares (fun _ _ hsame ↦ hsame.totalBytes) hdeclares
    obtain ⟨charge, hcharge, hexpects, rfl, rfl⟩ := received_expects hentry
    obtain ⟨_, _, hbatch⟩ := charge_batchOf hcharge
    exact ⟨h.batchOf _ _ _ hbatch, hbytes _ hcharge hexpects⟩
  · intro batch hbatch
    have hold : batch < a.daemon.next ∧ 0 ≤ (a.daemon.batches batch).totalItems ∧
        0 ≤ (a.daemon.batches batch).totalBytes := by
      rcases List.mem_append.mp hbatch with hnew | hold
      · have happroves := Option.mem_toList.mp hnew
        obtain ⟨_, hregistered⟩ := approves_registered happroves
        exact ⟨h.known _ _ hregistered, happroved _ happroves⟩
      · exact h.approved batch hold
    obtain ⟨hlt, hnonneg⟩ := hold
    have hterms := hdeclares.terms batch hlt
    rw [hterms.totalItems, hterms.totalBytes]
    exact ⟨hlt.trans_le hdeclares.next, hnonneg⟩

theorem Sound.run {a : Audit} (h : a.Sound) {events : List Event} (hcovered : a.Covered events) :
    (a.run events).Sound := by
  induction events generalizing a with
  | nil => exact h
  | cons event events ih => exact ih (h.step event hcovered.1) hcovered.2

/-- The history follows the daemon. -/
theorem run_daemon (a : Audit) (events : List Event) :
    (a.run events).daemon = a.daemon.run events := by
  induction events generalizing a with
  | nil => rfl
  | cons event events ih => exact ih (a.step event)

end Audit

/-! ## Transfers and batches -/

namespace Audit

instance (a : Audit) (event : Event) : Decidable (a.Covers event) :=
  inferInstanceAs (Decidable (_ ∧ _ ∧ _))

instance decidableCovered (a : Audit) : ∀ events, Decidable (a.Covered events)
  | [] => isTrue trivial
  | event :: events =>
    have := decidableCovered (a.step event) events
    inferInstanceAs (Decidable (_ ∧ _))

end Audit

/-- An item of the batch. -/
def sampleItem (transferId : Text) : Event :=
  message .transferRequest { sampleMetadata "" with batchId := lit "b", transferId := transferId }.toDict

/-- A second chunk of the file that the batch consists of. -/
def furtherChunk : Event :=
  .frame 0 (.chunk (chunkMagic ++ [0x01, 0x23, 0x45, 0x67, 0x89, 0xab, 0x4d, 0xef, 0x81, 0x23, 0x45, 0x67,
    0x89, 0xab, 0xcd, 0xef] ++ toBigEndian 4 1 ++ toBigEndian 4 3 ++ [1, 2, 3])) ⟨0, 0⟩ []

end Daemon

end Ferry
