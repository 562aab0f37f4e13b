import Ferry.Base.Machine
import Ferry.Daemon.AcceptanceTimer

/-!
# Messages before ESTABLISHED

The session loop serves a peer from the end of the handshake on, and asks for the state of the session
in the branch PAIR_DECISION only.  A message of a peer that is not paired is handled like any other; it
leaves the service alone exactly when its handler finds nothing to do.
-/

namespace Ferry

open Exec Text

namespace Daemon

variable {α : Type} {s t : Daemon} {ps : ℕ}

/-! ## What a message may change -/

/-- Nothing has changed but the sessions, what was written to the peers, and the failures that the
database still has in store. -/
structure SameService (s t : Daemon) : Prop where
  within : Within Same [.database, .loops, .states, .delivered] s t
  transfers : t.db.transfers = s.db.transfers

instance : IsPreorder Daemon SameService where
  refl s := ⟨within_refl s, rfl⟩
  trans _ _ _ h h' := ⟨h.within.trans h'.within, h'.transfers.trans h.transfers⟩

theorem sameService_of_within {parts : List Part} (h : Within Same parts s t)
    (hparts : ∀ p ∈ parts, p ∈ [.loops, .states]) : SameService s t := by
  refine ⟨h.mono fun p hp ↦ ?_, ?_⟩
  · have hmem := hparts p hp
    revert hmem
    cases p <;> decide
  · have hdb : t.db = s.db := h .database fun hp ↦ absurd (hparts _ hp) (by decide)
    rw [hdb]

theorem sameService_of_keeps {parts : List Part} {m : Segment α} (h : Keeps parts m)
    (hparts : ∀ p ∈ parts, p ∈ [.loops, .states]) : Stays SameService m :=
  fun s ↦ sameService_of_within (h s) hparts

/-! ## Handlers that find nothing to do -/

/-- The session has registered no transfer, in either direction. -/
def Unowned (s : Daemon) (ps : ℕ) : Prop := s.incomingOf ps = [] ∧ s.outgoingOf ps = []

instance (s : Daemon) (ps : ℕ) : Decidable (s.Unowned ps) := inferInstanceAs (Decidable (_ ∧ _))

/-- The end of the loop. -/
def EndsLoop (r : Except PyError LoopFlow) : Prop := r = .ok .stop ∨ ∃ e, r = .error e

/-- A segment of the session loop that changes nothing, and does not end the loop of a session that has
registered a transfer. -/
def Idles (s : Daemon) (ps : ℕ) (m : Segment LoopFlow) : Prop :=
  wp m (fun r t ↦ SameService s t ∧ (EndsLoop r → s.Unowned ps)) s

theorem idles_next : s.Idles ps (pure .next) :=
  ⟨refl_of SameService s, fun h ↦ by rcases h with h | ⟨e, h⟩ <;> cases h⟩

theorem idles_throw (h : s.Unowned ps) (e : PyError) : s.Idles ps (throw e) :=
  ⟨refl_of SameService s, fun _ ↦ h⟩

theorem idles_get_bind {f : Daemon → Segment LoopFlow} (h : s.Idles ps (f s)) : s.Idles ps (get >>= f) := h

theorem idles_ofResult_bind {r : Except PyError α} {f : α → Segment LoopFlow}
    (herror : ∀ e, r = .error e → s.Unowned ps) (hok : ∀ a, r = .ok a → s.Idles ps (f a)) :
    s.Idles ps (ofResult r >>= f) := by
  cases r with
  | error e => exact idles_throw (herror e rfl) e
  | ok a => exact hok a rfl

theorem idles_of_eq {m : Segment PUnit} {f : PUnit → Segment LoopFlow} (hm : m s = (.ok (), s))
    (hf : s.Idles ps (f ())) : s.Idles ps (m >>= f) := by
  unfold Idles wp
  rw [bind_run_of_ok hm]
  exact hf

/-- An answer that the handler awaits. -/
theorem idles_reply (h : s.canSend ps = true ∨ s.Unowned ps) (frame : Frame) :
    s.Idles ps (reply ps frame) := by
  have hsame : wp (reply ps frame) (fun _ t ↦ SameService s t) s :=
    sameService_of_keeps (keeps_reply ps frame) (by simp) s
  have hends : wp (reply ps frame) (fun r _ ↦ EndsLoop r → s.Unowned ps) s := by
    unfold reply
    apply wp_bind_of (sendEncrypted_raises ps frame s)
    · intro e t hraises _
      exact h.resolve_left fun hsend ↦ by simp [hraises ⟨e, rfl⟩] at hsend
    · rintro _ t - (hstop | ⟨e, herror⟩)
      · cases hstop
      · cases herror
  exact wp_and hsame hends

theorem idles_replyQuietly (frame : Frame) : s.Idles ps (replyQuietly ps frame) := by
  have hsame : wp (replyQuietly ps frame) (fun _ t ↦ SameService s t) s :=
    sameService_of_keeps (keeps_replyQuietly ps frame) (by simp) s
  have hends : wp (replyQuietly ps frame) (fun r _ ↦ EndsLoop r → s.Unowned ps) s := by
    unfold replyQuietly sendQuietly
    apply wp_bind_of (P := fun r _ ↦ ∃ written, r = .ok written)
      (succeeds_tryCatch _ (fun _ ↦ succeeds_pure _) s)
    · rintro e t ⟨written, h⟩
      cases h
    · rintro written t - hstop
      cases written <;> rcases hstop with h | ⟨e, h⟩ <;> cases h
  exact wp_and hsame hends

theorem SameService.unowned_iff (h : SameService s t) : t.Unowned ps ↔ s.Unowned ps := by
  have hledger : t.ledger = s.ledger := h.within .ledger (by decide)
  have houtgoing : t.activeOutgoingTransfers = s.activeOutgoingTransfers :=
    h.within .activeOutgoing (by decide)
  unfold Unowned incomingOf outgoingOf
  rw [hledger, houtgoing]

/-- A first part that changes the failures of the database at most. -/
theorem idles_bind {m : Segment α} {f : α → Segment LoopFlow} {P : Except PyError α → Daemon → Prop}
    (hm : wp m P s) (hsame : ∀ r t, P r t → SameService s t)
    (herror : ∀ e t, P (.error e) t → s.Unowned ps) (hok : ∀ a t, P (.ok a) t → t.Idles ps (f a)) :
    s.Idles ps (m >>= f) := by
  apply wp_bind_of hm
  · exact fun e t h ↦ ⟨hsame _ t h, fun _ ↦ herror e t h⟩
  · intro a t h
    apply wp_mono (hok a t h)
    exact fun r u hu ↦ ⟨trans_of SameService (hsame _ t h) hu.1, fun hr ↦
      (hsame _ t h).unowned_iff.mp (hu.2 hr)⟩

/-! ## Lookups -/

/-- A handler that looks its id up: one that is not hashable ends the loop, and one that is not a text is
never found. -/
def LooksUp (s : Daemon) (ps : ℕ) (id : JsonValue) (idle : Text → Prop) : Prop :=
  match id.key with
  | .error _ => s.Unowned ps
  | .ok none => True
  | .ok (some key) => idle key

/-- A handler that writes its id to the log. -/
def Logs (s : Daemon) (ps : ℕ) (id : JsonValue) : Prop :=
  id.sliceOr = .ok () ∨ s.Unowned ps

theorem idles_key_bind {id : JsonValue} {idle : Text → Prop} {f : Option Text → Segment LoopFlow}
    (h : s.LooksUp ps id idle) (hnone : s.Idles ps (f none))
    (hsome : ∀ key, idle key → s.Idles ps (f (some key))) : s.Idles ps (ofResult id.key >>= f) := by
  unfold LooksUp at h
  refine idles_ofResult_bind (fun e he ↦ ?_) fun key hkey ↦ ?_
  · rwa [he] at h
  · rw [hkey] at h
    cases key with
    | none => exact hnone
    | some key => exact hsome key h

theorem idles_slice_bind {id : JsonValue} {f : Unit → Segment LoopFlow} (h : s.Logs ps id)
    (hf : s.Idles ps (f ())) : s.Idles ps (ofResult id.sliceOr >>= f) := by
  refine idles_ofResult_bind (fun e he ↦ h.resolve_left fun hok ↦ ?_) fun _ _ ↦ hf
  cases hok.symm.trans he

theorem signalResponse_unawaited {key : Text} (h : (s.sessions ps).transferEvents.get key = none)
    (value : Response) : signalResponse ps key value s = (.ok (), s) := by
  change (Except.ok (), _) = _
  simp only [h]

theorem signalResult_unawaited {key : Text} (h : (s.sessions ps).resultEvents.get key = none)
    (value : Bool) : signalResult ps key value s = (.ok (), s) := by
  change (Except.ok (), _) = _
  simp only [h]

/-- Nothing is registered under the id. -/
structure Ledger.Lacks (l : Ledger) (key : Text) : Prop where
  incoming : l.incomingTransfers.get key = none
  peer : l.incomingPeers.get key = none
  timeout : l.acceptTimeoutTasks.get key = none
  lastChunk : l.lastChunkTime.get key = none

theorem Ledger.Lacks.drop {l : Ledger} {key : Text} (h : l.Lacks key) : l.drop key = l := by
  simp [Ledger.drop, Ledger.popIncoming, Ledger.popPeer, Ledger.cancelTimeout, Ledger.popTimeout,
    Ledger.popLastChunk, Dict.pop_of_get h.incoming, Dict.pop_of_get h.peer, Dict.pop_of_get h.timeout,
    Dict.pop_of_get h.lastChunk, h.timeout]

/-! ## Messages that find nothing to do -/

/-- A TRANSFER_REQUEST that registers nothing. -/
def IdleRequest (s : Daemon) (ps : ℕ) (payload : Payload) (now : ℤ) : Prop :=
  match TransferMetadata.fromDict now payload with
  | .error e => e.isValueOrKeyError = true ∧ s.canSend ps = true ∨ s.Unowned ps
  | .ok metadata =>
    (if metadata.batchId ≠ [] then s.acceptedBatch metadata.batchId = false
      else s.ledger.incomingTransfers.keys ≠ []) ∧ (s.canSend ps = true ∨ s.Unowned ps)

/-- A resume request that is refused for what the record of the transfer says. -/
def IdleRecord (s : Daemon) (ps : ℕ) (payload : Payload) (now : ℤ) (info : InterruptedTransferInfo) :
    Prop :=
  match resumeRefusal (s.sessions ps) payload info with
  | .error _ => s.Unowned ps
  | .ok (some _) => True
  | .ok none => (TransferMetadata.fromDict now info.originalMetadata).isOk = false

/-- A resume request that is refused. -/
def IdleResume (s : Daemon) (ps : ℕ) (payload : Payload) (now : ℤ) : Prop :=
  let transferId := payload.getD "transfer_id" .null
  transferId.truthy = true →
    match transferId.parameter with
    | .error _ => s.Unowned ps
    | .ok none => s.db.faults.headD false = false ∨ s.Unowned ps
    | .ok (some key) => (s.db.faults.headD false = false ∨ s.Unowned ps) ∧
        ∀ info, s.db.interrupted key = some info → s.IdleRecord ps payload now info

/-- A BATCH_REQUEST that announces nothing. -/
def IdleBatch (s : Daemon) (ps : ℕ) (payload : Payload) : Prop :=
  match BatchRequestPayload.fromDict payload with
  | .error _ => True
  | .ok _ => (s.activeBatches.keys ≠ [] ∨ s.ledger.incomingTransfers.keys ≠ []) ∧
      (s.canSend ps = true ∨ s.Unowned ps)

/-- Nobody waits for the answer to a transfer or a batch. -/
def Unawaited (s : Daemon) (ps : ℕ) (id : JsonValue) : Prop :=
  s.LooksUp ps id fun key ↦ (s.sessions ps).transferEvents.get key = none

/-- A transfer message whose handler finds nothing to do. -/
def IdleMessage (s : Daemon) (ps : ℕ) (type : Option MessageType) (payload : Payload) (now : ℤ) : Prop :=
  let transferId := payload.getD "transfer_id" (.str [])
  let batchId := payload.getD "batch_id" (.str [])
  match type with
  | some .transferRequest => s.IdleRequest ps payload now
  | some .transferAccept | some .transferReject | some .transferResumeAccept
  | some .transferResumeReject => s.Unawaited ps transferId
  | some .transferComplete => s.Logs ps transferId ∧
      s.LooksUp ps transferId fun key ↦ s.ledger.incomingTransfers.get key = none
  | some .transferResult => s.LooksUp ps transferId fun key ↦ (s.sessions ps).resultEvents.get key = none
  | some .transferCancel => s.Logs ps transferId ∧
      s.LooksUp ps transferId fun key ↦ s.ledger.incomingTransfers.get key = none ∧
        s.activeOutgoingTransfers.get key = none ∧ (s.sessions ps).transferEvents.get key = none ∧
        (s.sessions ps).resultEvents.get key = none
  | some .transferError => s.LooksUp ps transferId fun key ↦ s.ledger.Lacks key
  | some .transferResumeRequest => s.IdleResume ps payload now
  | some .batchRequest => s.IdleBatch ps payload
  | some .batchAccept | some .batchReject => s.Unawaited ps batchId
  | some .batchCancel | some .batchComplete =>
    s.LooksUp ps batchId fun key ↦ s.activeBatches.get key = none
  | _ => True

theorem idles_onTransferRequest {payload : Payload} {now : ℤ} (h : s.IdleRequest ps payload now) :
    s.Idles ps (onTransferRequest ps payload now) := by
  unfold onTransferRequest
  apply idles_get_bind
  unfold IdleRequest at h
  split
  · next e he =>
    rw [he] at h
    split
    · exact idles_reply (h.imp_left And.right) _
    · next hkind => exact idles_throw (h.resolve_left fun hleft ↦ hkind hleft.1) e
  · next metadata hmetadata =>
    rw [hmetadata] at h
    obtain ⟨hrefused, hreply⟩ := h
    split
    · next hbatch =>
      rw [if_pos hbatch] at hrefused
      rw [if_neg (by simp [hrefused])]
      exact idles_reply hreply _
    · next hbatch =>
      rw [if_neg hbatch] at hrefused
      rw [if_pos hrefused]
      exact idles_reply hreply _

theorem idles_onResponse {id : JsonValue} (h : s.Unawaited ps id) (value : Response) :
    s.Idles ps (onResponse ps id value) :=
  idles_key_bind h idles_next fun _ hkey ↦
    idles_of_eq (signalResponse_unawaited hkey value) idles_next

theorem idles_onTransferComplete {id : JsonValue} (hlog : s.Logs ps id)
    (h : s.LooksUp ps id fun key ↦ s.ledger.incomingTransfers.get key = none) :
    s.Idles ps (onTransferComplete ps id) := by
  refine idles_key_bind h ?_ fun key hkey ↦ ?_
  · exact idles_get_bind (idles_slice_bind hlog idles_next)
  · apply idles_get_bind
    dsimp only
    rw [hkey]
    exact idles_next

theorem idles_onTransferCancel {id : JsonValue} (hlog : s.Logs ps id)
    (h : s.LooksUp ps id fun key ↦ s.ledger.incomingTransfers.get key = none ∧
      s.activeOutgoingTransfers.get key = none ∧ (s.sessions ps).transferEvents.get key = none ∧
      (s.sessions ps).resultEvents.get key = none) :
    s.Idles ps (onTransferCancel ps id) := by
  refine idles_slice_bind hlog (idles_key_bind h ?_ fun key hkey ↦ ?_)
  · exact idles_get_bind idles_next
  · obtain ⟨hincoming, houtgoing, hresponse, hresult⟩ := hkey
    apply idles_get_bind
    dsimp only
    rw [if_pos ⟨hincoming, houtgoing⟩]
    refine idles_of_eq ?_ idles_next
    unfold signalCancel
    rw [bind_run_of_ok (signalResponse_unawaited hresponse _)]
    exact signalResult_unawaited hresult false

theorem idles_cancelIncomingTransfer {id : JsonValue} (h : s.LooksUp ps id fun key ↦ s.ledger.Lacks key) :
    s.Idles ps (cancelIncomingTransfer id) := by
  refine idles_key_bind h ?_ fun key hkey ↦ ?_
  · exact idles_get_bind idles_next
  · apply idles_get_bind
    dsimp only
    rw [hkey.incoming]
    refine idles_of_eq ?_ idles_next
    change (Except.ok (), { s with ledger := s.ledger.drop key }) = (Except.ok (), s)
    rw [hkey.drop]

theorem idles_onBatchRequest {payload : Payload} (h : s.IdleBatch ps payload) :
    s.Idles ps (onBatchRequest ps payload) := by
  unfold onBatchRequest
  apply idles_get_bind
  unfold IdleBatch at h
  split
  · exact idles_next
  · next request hrequest =>
    rw [hrequest] at h
    rw [if_pos h.1]
    exact idles_reply h.2 _

theorem popBatch_absent {key : Text} (h : s.activeBatches.get key = none) :
    popBatch key s = (.ok (), s) := by
  change (Except.ok (), { s with activeBatches := s.activeBatches.pop key }) = (Except.ok (), s)
  rw [Dict.pop_of_get h]

theorem idles_onBatchComplete {id : JsonValue}
    (h : s.LooksUp ps id fun key ↦ s.activeBatches.get key = none) :
    s.Idles ps (onBatchComplete id) :=
  idles_key_bind h idles_next fun _ hkey ↦ idles_of_eq (popBatch_absent hkey) idles_next

theorem idles_onBatchCancel {id : JsonValue}
    (h : s.LooksUp ps id fun key ↦ s.activeBatches.get key = none) :
    s.Idles ps (onBatchCancel id) := by
  refine idles_key_bind h (idles_get_bind idles_next) fun key hkey ↦ idles_get_bind ?_
  refine idles_of_eq (popBatch_absent hkey) ?_
  rw [hkey]
  exact idles_next

/-- A TRANSFER_RESULT that nobody waits for. -/
theorem idles_onResult {id : JsonValue}
    (h : s.LooksUp ps id fun key ↦ (s.sessions ps).resultEvents.get key = none) (success : Bool) :
    s.Idles ps (onResult ps id success) := by
  refine idles_key_bind h idles_next fun key hkey ↦ idles_of_eq (signalResult_unawaited hkey success) ?_
  refine idles_bind (P := fun r t ↦ SameService s t ∧ r = .ok ()) ?_ (fun _ _ ht ↦ ht.1)
    (fun _ _ ht ↦ by cases ht.2) fun _ _ _ ↦ idles_next
  rw [wp_modify]
  refine ⟨?_, rfl⟩
  split
  · exact ⟨fun p hp ↦ by cases p <;> simp_all [Same], rfl⟩
  · exact refl_of SameService s

/-- The failures that the database has in store are no part of the service. -/
theorem sameService_of_faults (s : Daemon) :
    SameService s { s with db := { s.db with faults := s.db.faults.tail } } :=
  ⟨fun p hp ↦ by cases p <;> simp_all [Same, Database.settles_of_eq], rfl⟩

/-! ## Resume requests -/

/-- The text of a parameter can be bound. -/
theorem parameter_text {id : JsonValue} {key : Text} (h : id.parameter = .ok (some key)) :
    key.any isSurrogate = false := by
  cases id with
  | str t =>
    change (if t.any isSurrogate then .error _ else .ok (some t) : Except PyError _) = _ at h
    split at h
    · cases h
    · next hsurrogate =>
      obtain rfl := Option.some.inj (Except.ok.inj h)
      simpa using hsurrogate
  | int n =>
    change (if -2 ^ 63 ≤ n ∧ n < 2 ^ 63 then .ok none else .error _ : Except PyError _) = _ at h
    split at h <;> cases h
  | null | bool | float | arr | obj => cases h

theorem getInterruptedTransfer_spec {key : Text} (hkey : key.any isSurrogate = false) (db : Database) :
    wp (Database.getInterruptedTransfer key) (fun r t ↦ t = { db with faults := db.faults.tail } ∧
      ((∃ e, r = .error e) → db.faults.headD false = true) ∧
      ∀ info, r = .ok info → info = db.interrupted key) db := by
  unfold Database.getInterruptedTransfer Database.bindText
  apply wp_bind_of (Database.access_effect db)
  · rintro e t ⟨rfl, ⟨h, -⟩ | ⟨-, hfault⟩⟩
    · cases h
    · exact ⟨rfl, fun _ ↦ hfault, by simp⟩
  · rintro _ t ⟨rfl, -⟩
    rw [wp_raiseIf_bind]
    refine ⟨fun hsurrogate ↦ by simp [hkey] at hsurrogate, fun _ ↦ ⟨rfl, ?_, fun info hinfo ↦ ?_⟩⟩
    · rintro ⟨e, he⟩
      cases he
    · exact (Except.ok.inj hinfo).symm

/-- A lookup changes nothing, and raises only when the database fails. -/
theorem interruptedTransfer_spec {id : JsonValue} {parameter : Option Text}
    (hid : id.parameter = .ok parameter) (s : Daemon) :
    wp (interruptedTransfer id) (fun r t ↦ t = { s with db := { s.db with faults := s.db.faults.tail } } ∧
      ((∃ e, r = .error e) → s.db.faults.headD false = true) ∧
      ∀ key info, r = .ok (some (key, info)) →
        parameter = some key ∧ s.db.interrupted key = some info) s := by
  unfold interruptedTransfer onDb
  rw [hid, wp_ofResult_bind]
  refine ⟨by simp, fun _ hparameter ↦ ?_⟩
  obtain rfl := Except.ok.inj hparameter
  cases parameter with
  | none =>
    dsimp only
    rw [wp_bind, wp_zoom]
    apply wp_mono (Database.access_effect s.db)
    rintro r db ⟨rfl, hcases⟩
    rcases hcases with ⟨rfl, -⟩ | ⟨⟨e, rfl⟩, hfault⟩
    · refine ⟨rfl, ?_, fun key info hfound ↦ by cases hfound⟩
      rintro ⟨e, he⟩
      cases he
    · exact ⟨rfl, fun _ ↦ hfault, by simp⟩
  | some key =>
    dsimp only
    rw [wp_bind, wp_zoom]
    apply wp_mono (getInterruptedTransfer_spec (parameter_text hid) s.db)
    rintro r db ⟨rfl, hraises, hinfo⟩
    cases r with
    | error e => exact ⟨rfl, fun _ ↦ hraises ⟨e, rfl⟩, by simp⟩
    | ok info =>
      refine ⟨rfl, ?_, fun key' info' hfound ↦ ?_⟩
      · rintro ⟨e, he⟩
        cases he
      obtain ⟨info'', hinfo'', heq⟩ := Option.map_eq_some_iff.mp (Except.ok.inj hfound)
      obtain ⟨rfl, rfl⟩ := Prod.mk.inj heq
      exact ⟨rfl, (hinfo _ rfl).symm.trans hinfo''⟩

theorem idles_resumeRecorded {key : Text} {payload : Payload} {info : InterruptedTransferInfo} {now : ℤ}
    (h : s.IdleRecord ps payload now info) : s.Idles ps (resumeRecorded ps key payload info now) := by
  unfold resumeRecorded
  apply idles_get_bind
  unfold IdleRecord at h
  refine idles_ofResult_bind (fun e he ↦ ?_) fun refusal hrefusal ↦ ?_
  · rwa [he] at h
  · rw [hrefusal] at h
    cases refusal with
    | some reason => exact idles_replyQuietly _
    | none =>
      dsimp only at h ⊢
      cases hmetadata : TransferMetadata.fromDict now info.originalMetadata with
      | ok metadata =>
        rw [hmetadata] at h
        cases h
      | error e =>
        have hrun : resumeIncoming ps key info now s = (.error e, s) := by
          unfold resumeIncoming
          rw [get_bind_run, hmetadata]
          rfl
        unfold Idles wp
        rw [tryCatch_run_of_raises hrun]
        exact idles_replyQuietly _

theorem idles_onTransferResumeRequest {payload : Payload} {now : ℤ} (h : s.IdleResume ps payload now) :
    s.Idles ps (onTransferResumeRequest ps payload now) := by
  unfold onTransferResumeRequest
  dsimp only
  split
  · next htruthy =>
    have hidle := h htruthy
    cases hparameter : (payload.getD "transfer_id" .null).parameter with
    | error e =>
      rw [hparameter] at hidle
      refine idles_bind (P := fun r t ↦ t = s ∧ r = .error e) ?_ ?_ (fun _ _ _ ↦ hidle) ?_
      · unfold interruptedTransfer
        rw [hparameter]
        exact ⟨rfl, rfl⟩
      · rintro _ _ ⟨rfl, -⟩
        exact refl_of SameService _
      · rintro a _ ⟨-, hr⟩
        cases hr
    | ok parameter =>
      rw [hparameter] at hidle
      have hunowned : s.db.faults.headD false = false ∨ s.Unowned ps := by
        cases parameter with
        | none => exact hidle
        | some key => exact hidle.1
      refine idles_bind (interruptedTransfer_spec hparameter s) ?_ ?_ ?_
      · rintro _ _ ⟨rfl, -⟩
        exact sameService_of_faults s
      · rintro e _ ⟨-, hraises, -⟩
        exact hunowned.resolve_left fun hfault ↦ by cases hfault.symm.trans (hraises ⟨e, rfl⟩)
      · rintro found _ ⟨rfl, -, hfound⟩
        rcases found with _ | ⟨key, info⟩
        · exact idles_replyQuietly _
        · obtain ⟨rfl, hinfo⟩ := hfound key info rfl
          exact idles_resumeRecorded (hidle.2 info hinfo)
  · exact idles_next

theorem idles_handleTransferMessage {type : Option MessageType} {payload : JsonValue} {now : ℤ}
    (herror : ∀ e, payload.fields = .error e → s.Unowned ps)
    (h : ∀ fields, payload.fields = .ok fields → s.IdleMessage ps type fields now) :
    s.Idles ps (handleTransferMessage ps type payload now) := by
  unfold handleTransferMessage
  refine idles_ofResult_bind herror fun fields hfields ↦ ?_
  have hidle := h fields hfields
  unfold IdleMessage at hidle
  dsimp only at hidle ⊢
  split
  · exact idles_onTransferRequest hidle
  · exact idles_onResponse hidle _
  · exact idles_onResponse hidle _
  · exact idles_onTransferComplete hidle.1 hidle.2
  · exact idles_onResult hidle _
  · exact idles_onTransferCancel hidle.1 hidle.2
  · exact idles_cancelIncomingTransfer hidle
  · exact idles_onTransferResumeRequest hidle
  · exact idles_onResponse hidle _
  · exact idles_onResponse hidle _
  · exact idles_onBatchRequest hidle
  · exact idles_onResponse hidle _
  · exact idles_onResponse hidle _
  · exact idles_onBatchCancel hidle
  · exact idles_onBatchComplete hidle
  · exact idles_next

theorem idles_onChunkReceived {now : ℤ} {data : Bytes}
    (herror : ∀ e, decodeChunkFrame data = .error e → e.isValueError = true ∨ s.Unowned ps)
    (h : ∀ chunk, decodeChunkFrame data = .ok chunk →
      s.ledger.incomingTransfers.get chunk.transferId = none) :
    s.Idles ps (onChunkReceived now data) := by
  unfold onChunkReceived
  apply idles_get_bind
  split
  · next e he =>
    cases hkind : e.isValueError with
    | true => exact idles_of_eq (by simp [raiseIf]; rfl) idles_next
    | false =>
      have hunowned := (herror e he).resolve_left fun hvalue ↦ by cases hkind.symm.trans hvalue
      exact idles_throw hunowned e
  · next chunk hchunk =>
    rw [h chunk hchunk]
    exact idles_next

/-! ## The end of the loop -/

/-- The loop of a session that has registered nothing takes nothing with it. -/
theorem sameService_endLoop (h : s.Unowned ps) : SameService s (endLoop ps s).2 := by
  have hcancel : cancelForPeer ps s = (.ok (), s) := by
    unfold cancelForPeer
    rw [get_bind_run, h.1, h.2]
    rfl
  have hrest : Keeps [.loops, .states] (do
      closeStates ps
      modify fun s ↦ { s with activeSessions := s.activeSessions.pop (s.sessions ps).remoteAddr }
      onSession ps fun session ↦ { session with loop := .ended, closed := true } : Segment Unit) := by
    refine touches_bind ((keeps_closeStates ps).mono (by decide)) fun _ ↦ touches_bind ?_ fun _ ↦ ?_
    · exact touches_modify fun s p hp ↦ by cases p <;> simp_all [Same, Database.Settles.refl]
    · refine touches_modify fun s p hp ↦ ?_
      cases p <;> simp_all [Same, Function.update_apply, apply_ite, Database.Settles.refl]
  unfold endLoop
  rw [bind_run_of_ok hcancel]
  exact sameService_of_keeps hrest (by decide) s

theorem sameService_setLoop (s : Daemon) (ps : ℕ) (loop : LoopState) :
    SameService s (s.setLoop ps loop) := by
  refine ⟨fun p hp ↦ ?_, rfl⟩
  cases p <;> simp_all [Same, setLoop, Function.update_apply, apply_ite, Database.Settles.refl]

theorem sameService_runLoop {m : Segment LoopFlow} (h : s.Idles ps m) :
    SameService s (runLoop ps m s) := by
  obtain ⟨hsame, hends⟩ := h
  unfold runLoop
  rcases hrun : m s with ⟨r, t⟩
  rw [hrun] at hsame hends
  rcases r with e | flow
  · exact trans_of SameService hsame
      (sameService_endLoop (hsame.unowned_iff.mpr (hends (.inr ⟨e, rfl⟩))))
  · cases flow with
    | next => exact trans_of SameService hsame (sameService_setLoop t ps _)
    | stop =>
      exact trans_of SameService hsame
        (sameService_endLoop (hsame.unowned_iff.mpr (hends (.inl rfl))))
    | await await => exact trans_of SameService hsame (sameService_setLoop t ps _)

/-! ## Frames -/

def LoopState.isReading : LoopState → Bool
  | .reading => true
  | _ => false

/-- A handler waits until its answer is written. -/
def LoopState.isAnswering : LoopState → Bool
  | .handling .reply | .handling .quietReply => true
  | _ => false

/-- `list(payload.get("capabilities", []))`. -/
def capabilitiesOf (payload : JsonValue) : Except PyError (List JsonValue) := do
  let payload ← payload.fields
  (payload.getD "capabilities" (.arr [] [])).toList

/-- An error that the branches of the notifications catch, or one that ends a loop which takes nothing
with it. -/
def Caught (s : Daemon) (ps : ℕ) {α : Type} : Except PyError α → Prop
  | .ok _ => True
  | .error e => e.isValueOrKeyError = true ∨ s.Unowned ps

/-- A decrypted frame that is handled without an effect on the transfers, the batches, the database and
the files. -/
def IdleFrame (s : Daemon) (ps : ℕ) (now : Clock) : Plaintext → Prop
  | .malformed => s.Unowned ps
  | .chunk data =>
    match decodeChunkFrame data with
    | .error e => e.isValueError = true ∨ s.Unowned ps
    | .ok chunk => s.ledger.incomingTransfers.get chunk.transferId = none
  | .control ⟨some .capabilities, payload⟩ => (capabilitiesOf payload).isOk = true ∨ s.Unowned ps
  | .control ⟨some .notificationPost, payload⟩ =>
    maxNotificationFrameBytes < payload.dumpsLength ∨
      s.Caught ps (NotificationPostPayload.fromDict payload)
  | .control ⟨some .notificationRemove, payload⟩ =>
    s.Caught ps (NotificationRemovePayload.fromDict payload)
  | .control ⟨type, payload⟩ =>
    match payload.fields with
    | .error _ => s.Unowned ps
    | .ok fields => s.IdleMessage ps type fields now.wall

/-- PAIR_DECISION and DISCONNECT. -/
def isSessionMessage : Plaintext → Bool
  | .control ⟨some .pairDecision, _⟩ | .control ⟨some .disconnect, _⟩ => true
  | _ => false

theorem idles_parseNotification {parsed : Except PyError α} (h : s.Caught ps parsed) :
    s.Idles ps (parseNotification parsed) := by
  unfold parseNotification
  split
  · exact idles_next
  · next e =>
    cases hkind : e.isValueOrKeyError with
    | true => exact idles_of_eq (by simp [raiseIf]; rfl) idles_next
    | false => exact idles_throw (h.resolve_left fun hcaught ↦ by cases hkind.symm.trans hcaught) e

theorem idles_processFrame {plaintext : Plaintext} {now : Clock} {uuid : Text}
    (hgated : isSessionMessage plaintext = false) (h : s.IdleFrame ps now plaintext) :
    s.Idles ps (processFrame ps plaintext now uuid) := by
  unfold processFrame
  split
  · exact idles_throw h _
  · next data =>
    refine idles_onChunkReceived (fun e he ↦ ?_) fun chunk hchunk ↦ ?_
    · rwa [IdleFrame, he] at h
    · rwa [IdleFrame, hchunk] at h
  · cases hgated
  · cases hgated
  · next payload =>
    have hends (e : PyError) (he : capabilitiesOf payload = .error e) : s.Unowned ps := by
      refine h.resolve_left fun hok ↦ ?_
      rw [he] at hok
      cases hok
    unfold capabilitiesOf at hends
    refine idles_ofResult_bind (fun e he ↦ hends e ?_) fun fields hfields ↦
      idles_ofResult_bind (fun e he ↦ hends e ?_) fun _ _ ↦ idles_next
    · rw [he]
      rfl
    · rw [hfields]
      exact he
  · next payload =>
    split
    · exact idles_next
    · next hsize => exact idles_parseNotification (h.resolve_left hsize)
  · exact idles_parseNotification h
  · next type payload hother₁ hother₂ hother₃ hother₄ hother₅ =>
    have hmessage : (∀ e, payload.fields = .error e → s.Unowned ps) ∧
        ∀ fields, payload.fields = .ok fields → s.IdleMessage ps type fields now.wall := by
      unfold IdleFrame at h
      refine ⟨fun e he ↦ ?_, fun fields hfields ↦ ?_⟩ <;> split at h <;> simp_all
    exact idles_handleTransferMessage hmessage.1 hmessage.2

/-- A handler goes on after its answer, which may fail. -/
theorem idles_resumeHandler {failed : Bool} {await : LoopAwait}
    (hanswering : (LoopState.handling await).isAnswering = true) (h : failed = false ∨ s.Unowned ps) :
    s.Idles ps (resumeHandler ps failed await) := by
  cases await with
  | reply =>
    cases failed with
    | false => exact idles_next
    | true => exact idles_throw (h.resolve_left (by decide)) _
  | quietReply => exact idles_next
  | resumeAccept | chunkError | transferResult => cases hanswering

/-- A call on the notification bridge. -/
inductive BridgeCall
  | post (payload : NotificationPostPayload)
  | remove (ferryId : Text)

end Daemon

/-! ## The service with its notification bridge -/

/-- `FerryService` with what the last branches of `_run_session_loop` change: `peer_capabilities` of the
sessions, and what is asked of the notification bridge. -/
structure MirroringDaemon where
  daemon : Daemon
  peerCapabilities : ℕ → List JsonValue
  bridgeCalls : List Daemon.BridgeCall

namespace MirroringDaemon

/-- The branches CAPABILITIES, NOTIFICATION_POST and NOTIFICATION_REMOVE. -/
def hear (s : MirroringDaemon) (ps : ℕ) : Plaintext → MirroringDaemon
  | .control ⟨some .capabilities, payload⟩ =>
    match Daemon.capabilitiesOf payload with
    | .ok capabilities =>
      { s with peerCapabilities := Function.update s.peerCapabilities ps capabilities }
    | .error _ => s
  | .control ⟨some .notificationPost, payload⟩ =>
    if maxNotificationFrameBytes < payload.dumpsLength then s
    else
      match NotificationPostPayload.fromDict payload with
      | .ok post => { s with bridgeCalls := s.bridgeCalls ++ [.post post] }
      | .error _ => s
  | .control ⟨some .notificationRemove, payload⟩ =>
    match NotificationRemovePayload.fromDict payload with
    | .ok ferryId => { s with bridgeCalls := s.bridgeCalls ++ [.remove ferryId] }
    | .error _ => s
  | _ => s

/-- One event. -/
def step (s : MirroringDaemon) (event : Daemon.Event) : MirroringDaemon :=
  let heard := match event with
    | .connect _ _ _ _ =>
      { s with peerCapabilities := Function.update s.peerCapabilities s.daemon.next [] }
    | .frame ps plaintext _ _ =>
      if (s.daemon.sessions ps).loop.isReading then s.hear ps plaintext else s
    | _ => s
  { heard with daemon := s.daemon.step event }

/-- A message that is to be handled in ESTABLISHED only reaches a session that is in another state, or
its handler goes on there. -/
def Early (s : MirroringDaemon) : Daemon.Event → Prop
  | .frame ps plaintext _ _ => (s.daemon.sessions ps).loop.isReading = true ∧
      (s.daemon.sessions ps).state ≠ .established ∧ Daemon.isSessionMessage plaintext = false
  | .loopResumes ps _ => (s.daemon.sessions ps).loop.isAnswering = true ∧
      (s.daemon.sessions ps).state ≠ .established
  | _ => False

/-- Nothing has changed but the sessions. -/
structure Same (s t : MirroringDaemon) : Prop where
  service : s.daemon.SameService t.daemon
  capabilities : t.peerCapabilities = s.peerCapabilities
  bridge : t.bridgeCalls = s.bridgeCalls

/-! ## The condition -/

/-- The capabilities are those that the peer has already, and a notification is not passed on. -/
def Unheard (s : MirroringDaemon) (ps : ℕ) : Plaintext → Prop
  | .control ⟨some .capabilities, payload⟩ =>
    match Daemon.capabilitiesOf payload with
    | .ok capabilities => s.peerCapabilities ps = capabilities
    | .error _ => True
  | .control ⟨some .notificationPost, payload⟩ =>
    maxNotificationFrameBytes < payload.dumpsLength ∨
      (NotificationPostPayload.fromDict payload).isOk = false
  | .control ⟨some .notificationRemove, payload⟩ =>
    (NotificationRemovePayload.fromDict payload).isOk = false
  | _ => True

/-- The handler of the message finds nothing to do. -/
def Idle (s : MirroringDaemon) : Daemon.Event → Prop
  | .frame ps plaintext now _ => s.daemon.IdleFrame ps now plaintext ∧ s.Unheard ps plaintext
  | .loopResumes ps failed => failed = false ∨ s.daemon.Unowned ps
  | _ => True

theorem hear_unheard {s : MirroringDaemon} {ps : ℕ} {plaintext : Plaintext} (h : s.Unheard ps plaintext) :
    s.hear ps plaintext = s := by
  unfold hear
  split
  · next payload =>
    split
    · next capabilities hcapabilities =>
      rw [Unheard, hcapabilities] at h
      rw [← h, Function.update_eq_self]
    · rfl
  · next payload =>
    split
    · rfl
    · next hsize =>
      split
      · next post hpost =>
        rw [Unheard, hpost] at h
        cases h.resolve_left hsize
      · rfl
  · next payload =>
    split
    · next ferryId hferryId =>
      rw [Unheard, hferryId] at h
      cases h
    · rfl
  · rfl

/-- A message that comes early and finds nothing to do. -/
theorem same_step {s : MirroringDaemon} {event : Daemon.Event} (hearly : s.Early event)
    (hidle : s.Idle event) : s.Same (s.step event) := by
  cases event with
  | frame ps plaintext now uuid =>
    obtain ⟨hreading, -, hgated⟩ := hearly
    obtain ⟨hframe, hunheard⟩ := hidle
    have hdaemon : s.daemon.SameService (s.daemon.step (.frame ps plaintext now uuid)) := by
      unfold Daemon.step
      dsimp only
      split
      · exact Daemon.sameService_runLoop (Daemon.idles_processFrame hgated hframe)
      · exact refl_of Daemon.SameService _
    unfold step
    simp only [hreading, if_true, hear_unheard hunheard]
    exact ⟨hdaemon, rfl, rfl⟩
  | loopResumes ps failed =>
    refine ⟨?_, rfl, rfl⟩
    unfold step Daemon.step
    dsimp only
    split
    · next await hloop =>
      have hanswering := hearly.1
      rw [hloop] at hanswering
      exact Daemon.sameService_runLoop (Daemon.idles_resumeHandler hanswering hidle)
    · exact refl_of Daemon.SameService _
  | _ => exact hearly.elim

/-- Messages that find nothing to do change nothing before ESTABLISHED. -/
theorem changes_only_established {s : MirroringDaemon} {events : List Daemon.Event}
    (h : Machine.Always step (fun s event ↦ s.Early event → s.Idle event) s events) :
    Machine.Always step (fun s event ↦ s.Early event → s.Same (s.step event)) s events :=
  Machine.always_of_invariant (P := fun _ ↦ True)
    (fun _ _ _ hidle ↦ ⟨fun hearly ↦ same_step hearly (hidle hearly), trivial⟩) trivial h

/-! ## A stranger -/

/-- A phone that is not paired connects. -/
def strangerConnects : Daemon.Event :=
  .connect (lit "10.0.0.2:4000") ⟨.str (lit "phone"), .str (lit "Phone"), sampleKey 1⟩ false []

def sampleService : MirroringDaemon := ⟨Daemon.sampleDaemon, fun _ ↦ [], []⟩

/-- A chunk of a transfer that is not registered. -/
theorem changes_only_established_sample :
    Machine.Always step (fun s event ↦ s.Early event → s.Same (s.step event)) sampleService
      [strangerConnects, Daemon.sampleChunk] := by
  apply changes_only_established
  refine ⟨fun hearly ↦ hearly.elim, fun _ ↦ ⟨?_, trivial⟩, trivial⟩
  have hunknown : ∀ key, (sampleService.step strangerConnects).daemon.ledger.incomingTransfers.get key =
      none := fun _ ↦ rfl
  change Daemon.IdleFrame _ 0 _ (.chunk _)
  rw [Daemon.IdleFrame]
  cases hdecode : decodeChunkFrame _ with
  | error e =>
    have hfails := (congrArg Except.isOk hdecode).trans (show (Except.error e).isOk = false from rfl)
    exfalso
    revert hfails
    decide +kernel
  | ok chunk => exact hunknown _

/-- A request is registered while the session is in PAIRING. -/
theorem early_request_registers :
    ¬Machine.Always step (fun s event ↦ s.Early event → s.Same (s.step event)) sampleService
      [strangerConnects, Daemon.sampleRequest] := by
  rintro ⟨-, hrequest, -⟩
  have hsame := hrequest ⟨by decide +kernel, by decide +kernel, rfl⟩
  have hledger := hsame.service.within .ledger (by decide)
  have hbefore : (sampleService.step strangerConnects).daemon.ledger.incomingTransfers.get
      (IncomingTransfer.sampleMetadata "").transferId = none := by decide +kernel
  have hafter : ((sampleService.step strangerConnects).step
      Daemon.sampleRequest).daemon.ledger.incomingTransfers.get
        (IncomingTransfer.sampleMetadata "").transferId ≠ none := by decide +kernel
  exact hafter (hledger ▸ hbefore)

end MirroringDaemon

end Ferry
