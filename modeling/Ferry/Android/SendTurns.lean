import Mathlib.Data.List.Perm.Basic
import Ferry.Android.Client

/-!
# Turns of the sending coroutines

What one turn of `sendFile`, `sendBatch` or `onResumeRequest` writes, which calls of `sendFile` it
leaves, and which successes it reports.  Everything else that happens to the client writes nothing for
its own transfers and reports none.
-/

namespace Ferry

open Exec

/-- The stream of a call of `sendFile` has not been broken off, and its end is not announced. -/
def SendPhase.Whole : SendPhase → Prop
  | requested | awaiting _ | streaming | streamed true => True
  | streamed false | ending _ => False

/-- The transfer that a frame is part of.  The refusal of a resume is part of none. -/
def OutgoingFrame.transfer : OutgoingFrame → Option Text
  | transferRequest payload => some payload.transferId
  | chunk transferId _ _ | transferComplete transferId | transferCancel transferId _
  | transferResumeAccept transferId _ => some transferId
  | transferResumeReject .. | batchRequest .. | batchComplete _ | batchCancel _ => none

namespace FerryControlClient

/-! ## Reports and calls -/

/-- `sendFile` has returned `true` for a transfer, or the history has a success for it. -/
def Reports (c : FerryControlClient) (transferId : Text) : Prop :=
  (transferId, true) ∈ c.returned ∨ ∃ entry ∈ c.transferHistory,
    entry.direction = .outgoing ∧ entry.success = true ∧ entry.transferId = transferId

/-- A resume request for the transfer finds a record with the URI of its content. -/
def Resumable (c : FerryControlClient) (transferId : Text) : Prop :=
  ∃ record ∈ c.interruptedStore.get transferId, record.contentUriString ≠ none

/-- The calls of `sendFile` that have not returned. -/
def files (c : FerryControlClient) : List FileSend := c.jobs.filterMap SendJob.file

theorem mem_appendHistory {entry old : TransferHistoryEntry} {history : List TransferHistoryEntry}
    (h : old ∈ appendHistory entry history) : old = entry ∨ old ∈ history := by
  unfold appendHistory at h
  split at h
  · exact .inr h
  · exact List.mem_cons.mp (List.mem_of_mem_take h)

/-- The frames are written and no success is reported; the store only loses records. -/
structure Writes (frames : List OutgoingFrame) (c c' : FerryControlClient) : Prop where
  jobs : c'.jobs = c.jobs
  resumeSends : c'.resumeSends = c.resumeSends
  written : c'.written = c.written ++ frames
  resumable : ∀ transferId, c'.Resumable transferId → c.Resumable transferId
  reports : ∀ transferId, c'.Reports transferId → c.Reports transferId

/-- Nothing is written. -/
abbrev Idle : FerryControlClient → FerryControlClient → Prop := Writes []

theorem Idle.refl (c : FerryControlClient) : Idle c c :=
  ⟨rfl, rfl, (List.append_nil _).symm, fun _ ↦ id, fun _ ↦ id⟩

theorem Writes.trans {frames frames' : List OutgoingFrame} {c c' c'' : FerryControlClient}
    (h : Writes frames c c') (h' : Writes frames' c' c'') : Writes (frames ++ frames') c c'' where
  jobs := h'.jobs.trans h.jobs
  resumeSends := h'.resumeSends.trans h.resumeSends
  written := by rw [h'.written, h.written, List.append_assoc]
  resumable := fun transferId ↦ h.resumable transferId ∘ h'.resumable transferId
  reports := fun transferId ↦ h.reports transferId ∘ h'.reports transferId

instance : IsPreorder FerryControlClient Idle where
  refl := Idle.refl
  trans := fun _ _ _ ↦ Writes.trans

/-- An assignment to fields that do not matter here. -/
theorem idle_of_eq {c c' : FerryControlClient} (hjobs : c'.jobs = c.jobs)
    (hresumeSends : c'.resumeSends = c.resumeSends) (hwritten : c'.written = c.written)
    (hstore : c'.interruptedStore = c.interruptedStore)
    (hhistory : c'.transferHistory = c.transferHistory) (hreturned : c'.returned = c.returned) :
    Idle c c' := by
  refine ⟨hjobs, hresumeSends, by rw [hwritten, List.append_nil], fun transferId h ↦ ?_,
    fun transferId h ↦ ?_⟩
  · unfold Resumable at h
    rwa [hstore] at h
  · unfold Reports at h
    rwa [hreturned, hhistory] at h

/-- An assignment to the store whose records with a URI were there before. -/
theorem idle_of_store {c : FerryControlClient} {store : InterruptedTransferStore}
    (h : ∀ transferId, ∀ record ∈ store.get transferId, record.contentUriString ≠ none →
      c.interruptedStore.get transferId = some record) :
    Idle c { c with interruptedStore := store } := by
  refine ⟨rfl, rfl, (List.append_nil _).symm, fun transferId hresumable ↦ ?_, fun _ ↦ id⟩
  obtain ⟨record, hrecord, huri⟩ := hresumable
  exact ⟨record, h transferId record hrecord huri, huri⟩

theorem idle_pop (c : FerryControlClient) (transferId : Text) :
    Idle c { c with interruptedStore := c.interruptedStore.pop transferId } := by
  apply idle_of_store
  intro other record hrecord _
  by_cases hother : other = transferId
  · subst hother
    simp at hrecord
  · rwa [Dict.get_pop_of_ne _ hother] at hrecord

theorem idle_load (c : FerryControlClient) (now : ℤ) (transferId : Text) :
    Idle c { c with interruptedStore := (c.interruptedStore.load now transferId).2 } := by
  unfold InterruptedTransferStore.load
  split
  · exact Idle.refl c
  · split
    · exact idle_pop c transferId
    · exact Idle.refl c

theorem idle_onReceiving {α : Type} (m : TransferClient.Action α) : Stays Idle (onReceiving m) :=
  fun _ ↦ idle_of_eq rfl rfl rfl rfl rfl rfl

/-- The history gets an entry. -/
theorem reports_record {c : FerryControlClient} {entry : TransferHistoryEntry} {transferId : Text}
    (h : Reports { c with transferHistory := appendHistory entry c.transferHistory } transferId) :
    c.Reports transferId ∨
      entry.direction = .outgoing ∧ entry.success = true ∧ entry.transferId = transferId := by
  rcases h with hreturned | ⟨old, hold, hentry⟩
  · exact .inl (.inl hreturned)
  · rcases mem_appendHistory hold with rfl | hold
    · exact .inr hentry
    · exact .inl (.inr ⟨old, hold, hentry⟩)

/-- The entry of a transfer that the client was receiving. -/
theorem idle_incomingEntry (now : ℤ) (transferId : Text) (metadata : Kotlin.TransferMetadata)
    (success : Bool) : Stays Idle (record (incomingEntry now transferId metadata success)) := by
  apply stays_modify
  refine fun c ↦ ⟨rfl, rfl, (List.append_nil _).symm, fun _ ↦ id, fun other hreports ↦ ?_⟩
  rcases reports_record hreports with hbefore | ⟨hdirection, -⟩
  · exact hbefore
  · simp [incomingEntry] at hdirection

theorem idle_completeAccept (value : Bool) : Stays Idle (completeAccept value) :=
  stays_modify fun _ ↦ idle_of_eq rfl rfl rfl rfl rfl rfl

theorem idle_completeBatch (value : Bool) : Stays Idle (completeBatch value) :=
  stays_modify fun _ ↦ idle_of_eq rfl rfl rfl rfl rfl rfl

theorem idle_noteInterrupted (now : ℤ) : Stays Idle (noteInterrupted now) := by
  apply stays_get_bind
  intro client
  split
  · split
    · refine stays_ite _ ?_ (idle_incomingEntry _ _ _ _) client
      refine stays_modify fun c ↦ idle_of_store fun transferId record hrecord huri ↦ ?_
      rw [Dict.get_set] at hrecord
      split at hrecord
      · exact absurd (Option.some.inj hrecord ▸ rfl) huri
      · exact hrecord
    · exact stays_pure _ client
  · exact stays_pure _ client

theorem idle_endLoop (now : ℤ) : Stays Idle (endLoop now) :=
  stays_bind (idle_noteInterrupted now) fun _ ↦ stays_bind (idle_onReceiving _) fun _ ↦
    stays_bind (idle_completeAccept false) fun _ ↦ stays_modify fun _ ↦ idle_of_eq rfl rfl rfl rfl rfl rfl

theorem idle_onTransferComplete (now : ℤ) (transferId : Text) :
    Stays Idle (onTransferComplete now transferId) := by
  apply stays_get_bind
  intro client
  refine stays_bind (idle_onReceiving _) (fun _ ↦ ?_) client
  split
  · exact stays_ite _ (stays_pure _) (stays_get_bind fun after ↦ idle_incomingEntry _ _ _ _ after)
  · exact stays_pure _

theorem idle_onTransferCancel (transferId : Text) : Stays Idle (onTransferCancel transferId) := by
  apply stays_get_bind
  intro client
  refine stays_bind (idle_onReceiving _) (fun _ ↦ stays_ite _ (idle_completeAccept false)
    (stays_bind ?_ fun _ ↦ idle_completeAccept false)) client
  exact stays_modify fun _ ↦ idle_of_eq rfl rfl rfl rfl rfl rfl

theorem idle_onTransferAnswer (transferId : Text) (value : Bool) :
    Stays Idle (onTransferAnswer transferId value) := by
  apply stays_get_bind
  intro client
  exact stays_ite _ (stays_pure _)
    (stays_bind (idle_onReceiving _) fun _ ↦ idle_completeAccept value) client

theorem idle_onResumeReject (now : ℤ) (transferId : Text) : Stays Idle (onResumeReject now transferId) := by
  have hforget : Stays Idle (update fun client ↦ { client with
      interruptedStore := client.interruptedStore.pop transferId }) :=
    stays_modify fun c ↦ idle_pop c transferId
  apply stays_get_bind
  intro client
  refine stays_bind (idle_onReceiving _) (fun _ ↦ ?_) client
  cases client.receiving.activeReceiverMeta with
  | none => exact hforget
  | some metadata => exact stays_bind (idle_incomingEntry _ _ _ _) fun _ ↦ hforget

/-- A message that does not ask for a resume. -/
theorem idle_handleTransferMessage (now : ℤ) {message : ClientMessage}
    (h : ∀ transferId index offset partialSha256,
      message ≠ .transferResumeRequest transferId index offset partialSha256) :
    Stays Idle (handleTransferMessage now message) := by
  cases message with
  | transferComplete transferId => exact idle_onTransferComplete now transferId
  | transferCancel transferId => exact idle_onTransferCancel transferId
  | transferError transferId =>
    exact stays_bind (idle_onReceiving _) fun _ ↦ idle_completeAccept false
  | transferAccept transferId => exact idle_onTransferAnswer transferId true
  | transferReject transferId => exact idle_onTransferAnswer transferId false
  | transferResumeRequest transferId resumeChunkIndex resumeOffsetBytes partialSha256 =>
    exact absurd rfl (h _ _ _ _)
  | transferResumeAccept transferId resumeChunkIndex =>
    refine stays_bind (idle_onReceiving _) fun _ ↦ stays_modify fun c ↦ ?_
    split
    · exact idle_pop c transferId
    · exact Idle.refl c
  | transferResumeReject transferId => exact idle_onResumeReject now transferId
  | batchAccept batchId => exact idle_completeBatch true
  | batchReject batchId => exact idle_completeBatch false
  | batchCancel batchId =>
    refine stays_bind ?_ fun _ ↦ stays_bind (idle_completeBatch false) fun _ ↦ stays_bind ?_ fun _ ↦
      idle_onReceiving _
    · exact stays_modify fun _ ↦ idle_of_eq rfl rfl rfl rfl rfl rfl
    · exact stays_modify fun _ ↦ idle_of_eq rfl rfl rfl rfl rfl rfl
  | transferRequest _ | transferResult _ _ | batchRequest _ _ | batchComplete _ | other =>
    exact idle_onReceiving _

theorem idle_requestResume (now : ℤ) (record : InterruptedRecord) :
    Stays Idle (requestResume now record) := by
  apply stays_get_bind
  intro client
  refine stays_ite _ (stays_pure _) (stays_bind (stays_tryCatch (idle_onReceiving _) fun _ ↦ ?_)
    fun _ ↦ stays_bind (m := get) Idle.refl fun after ↦ ?_) client
  · refine stays_modify fun c ↦ ?_
    split
    · exact idle_pop c record.transferId
    · exact Idle.refl c
  · exact stays_modify fun _ ↦ idle_of_eq rfl rfl rfl rfl rfl rfl

theorem idle_discardInterrupted (transferId : Text) : Stays Idle (discardInterrupted transferId) := by
  have hforget : Stays Idle (update fun client ↦ { client with
      interruptedStore := client.interruptedStore.pop transferId }) :=
    stays_modify fun c ↦ idle_pop c transferId
  apply stays_get_bind
  intro client
  refine stays_bind (idle_onReceiving _) (fun found ↦ ?_) client
  split
  · exact stays_bind (idle_onReceiving _) fun _ ↦ hforget
  · exact hforget

/-! ## Turns of `sendFile` -/

/-- What is left of a coroutine after a turn, which ends it when it raises. -/
def remaining {α : Type} (coroutine : α) : Except KotlinException (Progress α) → Option α
  | .ok .waits => some coroutine
  | .ok (.goesOn next) => some next
  | _ => none

/-- What a turn leaves of a call of `sendFile`, and what it writes. -/
inductive FileMove (file : FileSend) : Option FileSend → List OutgoingFrame → Prop
  | moves (phase : SendPhase) (hwhole : phase ≠ .ending false → file.phase.Whole)
    (hending : phase ≠ .ending true) :
    FileMove file (some { file with phase }) []
  | chunk (data : Bytes) (h : file.phase = .streaming) :
    FileMove file (some { file with
      seq := Kotlin.TransferMetadata.toInt32 (file.seq + 1), digest := file.digest ++ data })
      [.chunk file.payload.transferId file.seq data]
  | completes (h : file.phase = .streamed true) :
    FileMove file (some { file with phase := .ending true }) [.transferComplete file.payload.transferId]
  | cancels (reason : String) (h : file.phase = .streamed false) :
    FileMove file (some { file with phase := .ending false })
      [.transferCancel file.payload.transferId reason]
  | returns : FileMove file none []

/-- A turn of a call of `sendFile`: its own transfer may get a record when its stream was broken off,
and is reported when its last turn follows TRANSFER_COMPLETE. -/
structure FileTurn (file : FileSend) (new : Option FileSend) (frames : List OutgoingFrame)
    (c c' : FerryControlClient) : Prop where
  move : FileMove file new frames
  jobs : c'.jobs = c.jobs
  resumeSends : c'.resumeSends = c.resumeSends
  written : c'.written = c.written ++ frames
  resumable : ∀ transferId, c'.Resumable transferId → c.Resumable transferId ∨
    transferId = file.payload.transferId ∧ file.phase = .streamed false
  reports : ∀ transferId, c'.Reports transferId → c.Reports transferId ∨
    transferId = file.payload.transferId ∧ file.phase = .ending true ∧ new = none

section Turns

variable {c c' : FerryControlClient} {file : FileSend}

theorem Writes.fileTurn {new : Option FileSend} {frames : List OutgoingFrame} (h : Writes frames c c')
    (hmove : FileMove file new frames) : FileTurn file new frames c c' :=
  ⟨hmove, h.jobs, h.resumeSends, h.written, fun transferId ↦ .inl ∘ h.resumable transferId,
    fun transferId ↦ .inl ∘ h.reports transferId⟩

/-- What makes a write of a coroutine fail: its session is over, or the stream is broken. -/
def WriteFails (c : FerryControlClient) (session : ℕ) : Prop :=
  (c.receiving.running = false ∨ session ≠ c.sessions) ∨ c.receiving.sendFaults.headD false = true

theorem wp_write (session : ℕ) (frame : OutgoingFrame) (c : FerryControlClient) :
    wp (write session frame) (fun r c' ↦ (∀ u, r = .ok u → Writes [frame] c c') ∧
      ∀ e, r = .error e → Idle c c' ∧ c.WriteFails session) c := by
  unfold write
  rw [wp_get_bind, wp_raiseIf_bind]
  refine ⟨fun hover ↦ ⟨nofun, fun _ _ ↦ ⟨Idle.refl c, .inl hover⟩⟩, fun _ ↦ ?_⟩
  unfold update
  rw [wp_modify_bind, wp_raiseIf_bind, wp_modify]
  refine ⟨fun hbroken ↦ ⟨nofun, fun _ _ ↦ ⟨idle_of_eq rfl rfl rfl rfl rfl rfl, .inr hbroken⟩⟩,
    fun _ ↦ ⟨fun _ _ ↦ ?_, nofun⟩⟩
  exact ⟨rfl, rfl, rfl, fun _ ↦ id, fun _ ↦ id⟩

/-- A turn that writes a frame and goes on. -/
theorem fileTurn_write {frame : OutgoingFrame} {next : FileSend} (session : ℕ)
    (hmove : FileMove file (some next) [frame]) :
    wp (do write session frame; return .goesOn next : Action (Progress FileSend))
      (fun r c' ↦ ∃ frames, FileTurn file (remaining file r) frames c c') c := by
  apply wp_bind_of (wp_write session frame c)
  · exact fun e c' h ↦ ⟨[], (h.2 e rfl).1.fileTurn .returns⟩
  · exact fun u c' h ↦ ⟨[frame], (h.1 u rfl).fileTurn hmove⟩

theorem fileTurn_returnFile (now : ℤ) (success : Bool)
    (h : success = true → file.phase = .ending true) :
    wp (returnFile now file success)
      (fun r c' ↦ ∃ frames, FileTurn file (remaining file r) frames c c') c := by
  refine ⟨[], .returns, rfl, rfl, (List.append_nil _).symm, fun _ ↦ .inl, fun transferId hreports ↦ ?_⟩
  rcases hreports with hreturned | hhistory
  · rcases List.mem_cons.mp hreturned with heq | hreturned
    · obtain ⟨hid, hsuccess⟩ := Prod.mk.inj heq
      exact .inr ⟨hid, h hsuccess.symm, rfl⟩
    · exact .inl (.inl hreturned)
  · rcases reports_record (c := c) (.inr hhistory) with hbefore | ⟨-, hsuccess, hid⟩
    · exact .inl hbefore
    · exact .inr ⟨hid.symm, h hsuccess, rfl⟩

theorem fileTurn_awaitAccept (hphase : file.phase = .requested) :
    wp (awaitAccept file) (fun r c' ↦ ∃ frames, FileTurn file (remaining file r) frames c c') c := by
  have hidle : Idle c (awaitAccept file c).2 := idle_of_eq rfl rfl rfl rfl rfl rfl
  exact ⟨[], hidle.fileTurn (.moves _ (fun _ ↦ hphase ▸ trivial) nofun)⟩

/-- A turn that only moves the phase. -/
theorem fileTurn_moves {phase : SendPhase} (hwhole : phase ≠ .ending false → file.phase.Whole)
    (hending : phase ≠ .ending true) :
    wp (return .goesOn { file with phase } : Action (Progress FileSend))
      (fun r c' ↦ ∃ frames, FileTurn file (remaining file r) frames c c') c :=
  ⟨[], (Idle.refl c).fileTurn (.moves phase hwhole hending)⟩

/-- A turn that does nothing. -/
theorem fileTurn_waits (hwhole : file.phase.Whole) (hending : file.phase ≠ .ending true) :
    wp (return .waits : Action (Progress FileSend))
      (fun r c' ↦ ∃ frames, FileTurn file (remaining file r) frames c c') c :=
  ⟨[], (Idle.refl c).fileTurn (.moves file.phase (fun _ ↦ hwhole) hending)⟩

theorem fileTurn_onAnswer (now : ℤ) {k : ℕ} (hphase : file.phase = .awaiting k) (answer : Option Bool) :
    wp (onAnswer now file answer)
      (fun r c' ↦ ∃ frames, FileTurn file (remaining file r) frames c c') c := by
  match answer with
  | none => exact fileTurn_waits (hphase ▸ trivial) (by simp [hphase])
  | some true => exact fileTurn_moves (fun _ ↦ hphase ▸ trivial) nofun
  | some false => exact fileTurn_returnFile now false nofun

theorem fileTurn_abandonFile :
    wp (abandonFile file) (fun r c' ↦ ∃ frames, FileTurn file (remaining file r) frames c c') c := by
  refine ⟨[], .returns, rfl, rfl, (List.append_nil _).symm, fun _ ↦ .inl, fun transferId hreports ↦ .inl ?_⟩
  rcases hreports with hreturned | hhistory
  · rcases List.mem_cons.mp hreturned with heq | hreturned
    · exact absurd (congrArg Prod.snd heq) (by simp)
    · exact .inl hreturned
  · exact .inr hhistory

theorem fileTurn_streamChunk (hphase : file.phase = .streaming) (input : SendInput) :
    wp (streamChunk file input)
      (fun r c' ↦ ∃ frames, FileTurn file (remaining file r) frames c c') c := by
  have hwhole : file.phase.Whole := hphase ▸ trivial
  cases input with
  | data data => exact fileTurn_write file.session (.chunk _ hphase)
  | eof => exact fileTurn_moves (fun _ ↦ hwhole) nofun
  | readError => exact ⟨[], (Idle.refl c).fileTurn .returns⟩
  | turn | timeout | opened _ | item _ _ => exact fileTurn_waits hwhole (by simp [hphase])

/-- After a stream that was broken off, the store may get a record of the transfer. -/
theorem fileTurn_abortStream (now : ℤ) (hphase : file.phase = .streamed false) :
    wp (do abortStream now file; return .goesOn { file with phase := .ending false } :
        Action (Progress FileSend))
      (fun r c' ↦ ∃ frames, FileTurn file (remaining file r) frames c c') c := by
  have hmoves : FileMove file (some { file with phase := .ending false }) [] :=
    .moves _ (fun h ↦ absurd rfl h) nofun
  unfold abortStream
  rw [wp_bind_assoc, wp_get_bind]
  split
  · split
    · refine ⟨[], hmoves, rfl, rfl, (List.append_nil _).symm, fun transferId hresumable ↦ ?_, fun _ ↦ .inl⟩
      obtain ⟨record, hrecord, huri⟩ := hresumable
      by_cases hid : transferId = file.payload.transferId
      · exact .inr ⟨hid, hphase⟩
      · have hbefore := (Dict.get_set_of_ne c.interruptedStore (c.outgoingRecord now file) hid).symm
        exact .inl ⟨record, hbefore.trans hrecord, huri⟩
    · exact ⟨[], (Idle.refl c).fileTurn hmoves⟩
  · split
    · exact fileTurn_write file.session (.cancels _ hphase)
    · exact ⟨[], (Idle.refl c).fileTurn hmoves⟩

/-- A turn of a call of `sendFile`. -/
theorem fileTurn_goOnFile (now : ℤ) (input : SendInput) (file : FileSend) (c : FerryControlClient) :
    wp (goOnFile now input file)
      (fun r c' ↦ ∃ frames, FileTurn file (remaining file r) frames c c') c := by
  unfold goOnFile
  rw [wp_get_bind]
  split
  · next hphase => exact fileTurn_awaitAccept hphase
  · next k hphase =>
    split
    · exact fileTurn_abandonFile
    · exact fileTurn_onAnswer now hphase _
  · next hphase =>
    rw [wp_ite]
    exact ⟨fun _ ↦ fileTurn_moves (fun _ ↦ hphase ▸ trivial) nofun, fun _ ↦ fileTurn_streamChunk hphase input⟩
  · next hphase => exact fileTurn_write file.session (.completes hphase)
  · next hphase => exact fileTurn_abortStream now hphase
  · next success hphase => exact fileTurn_returnFile now success fun hsuccess ↦ hsuccess ▸ hphase

/-! ## Turns of `sendBatch` -/

/-- A call of `sendFile` has written its request. -/
structure Begins (transferId : Text) (file : FileSend) (c c' : FerryControlClient) : Prop
    extends Writes [.transferRequest file.payload] c c' where
  transferId_eq : file.payload.transferId = transferId
  phase : file.phase = .requested
  seq : file.seq = 0
  digest : file.digest = []

/-- A turn of a coroutine that sends: one of its call of `sendFile`, the start of such a call, or one of
`sendBatch` alone. -/
inductive JobTurn (input : SendInput) (job : SendJob) (new : Option SendJob)
    (c c' : FerryControlClient) : Prop
  | file {file : FileSend} {frames : List OutgoingFrame} (hfile : job.file = some file)
      (h : FileTurn file (new.bind SendJob.file) frames c c')
  | begins {transferId : Text} {source : SourceFile} {file : FileSend}
      (hinput : input = .item transferId source) (hfile : job.file = none)
      (hnew : new.bind SendJob.file = some file) (h : Begins transferId file c c')
  | batch {frames : List OutgoingFrame} (hfile : job.file = none) (hnew : new.bind SendJob.file = none)
      (hframes : ∀ frame ∈ frames, frame.transfer = none) (h : Writes frames c c')

theorem wp_startFile (now : ℤ) (uri transferId : Text) (source : SourceFile) (batchId : Text)
    (c : FerryControlClient) :
    wp (startFile now uri transferId source batchId) (fun r c' ↦
      (∃ file, r = .ok (.goesOn file) ∧ Begins transferId file c c') ∨
        Idle c c' ∧ (r = .ok (.returns false) ∨ ∃ e, r = .error e)) c := by
  unfold startFile
  rw [wp_get_bind, wp_ite]
  refine ⟨fun _ ↦ .inr ⟨Idle.refl c, .inl rfl⟩, fun _ ↦ ?_⟩
  unfold update
  rw [wp_modify_bind]
  have hcleared : Idle c { c with outgoingCancelled := false, outgoingCancelledByPeer := false } :=
    idle_of_eq rfl rfl rfl rfl rfl rfl
  apply wp_bind_of (wp_write _ _ _)
  · exact fun e c' h ↦ .inr ⟨hcleared.trans (h.2 e rfl).1, .inr ⟨e, rfl⟩⟩
  · exact fun u c' h ↦ .inl ⟨_, rfl, hcleared.trans (h.1 u rfl), rfl, rfl, rfl, rfl⟩

/-- A turn of `sendBatch` that writes no request. -/
theorem wp_goOnBatch (input : SendInput) (batch : BatchSend) (c : FerryControlClient) :
    wp (goOnBatch input batch) (fun _ c' ↦ ∃ frames,
      (∀ frame ∈ frames, frame.transfer = none) ∧ Writes frames c c') c := by
  have hidle {r : Except KotlinException (Progress BatchSend)} {c' : FerryControlClient}
      (h : Idle c c') : ∃ frames : List OutgoingFrame,
        (∀ frame ∈ frames, frame.transfer = none) ∧ Writes frames c c' :=
    ⟨[], by simp, h⟩
  have hreturn (success : Bool) : wp (returnBatch batch success) (fun _ c' ↦ ∃ frames,
      (∀ frame ∈ frames, frame.transfer = none) ∧ Writes frames c c') c := by
    apply wp_bind_of (wp_write _ _ _)
    · exact fun e c' h ↦ ⟨[], by simp, (h.2 e rfl).1⟩
    · refine fun u c' h ↦ ⟨_, ?_, h.1 u rfl⟩
      cases success <;> simp [OutgoingFrame.transfer]
  unfold goOnBatch
  rw [wp_get_bind]
  split
  · exact ⟨[], by simp, idle_of_eq rfl rfl rfl rfl rfl rfl⟩
  · split
    · exact ⟨[], by simp, idle_of_eq rfl rfl rfl rfl rfl rfl⟩
    · split <;> exact ⟨[], by simp, Idle.refl c⟩
  · split
    · exact hreturn batch.success
    · rw [wp_ite]
      exact ⟨fun _ ↦ hreturn false, fun _ ↦ ⟨[], by simp, Idle.refl c⟩⟩

theorem jobTurn_turnBatch (now : ℤ) (input : SendInput) {job : SendJob} {batch : BatchSend}
    (hfile : job.file = none) (c : FerryControlClient) :
    wp (turnBatch now input batch) (fun r c' ↦ JobTurn input job (remaining job r) c c') c := by
  have hbatch (f : Progress BatchSend → Action (Progress SendJob)) (hwaits : f .waits = pure .waits)
      (hgoesOn : ∀ next, f (.goesOn next) = pure (.goesOn ⟨some next, none⟩))
      (hreturns : ∀ value, f (.returns value) = pure (.returns value)) :
      wp (goOnBatch input batch >>= f) (fun r c' ↦ JobTurn input job (remaining job r) c c') c := by
    apply wp_bind_of (wp_goOnBatch input batch c)
    · rintro e c' ⟨frames, hframes, h⟩
      exact .batch hfile rfl hframes h
    · rintro progress c' ⟨frames, hframes, h⟩
      cases progress with
      | waits =>
        rw [hwaits]
        exact .batch hfile hfile hframes h
      | goesOn next =>
        rw [hgoesOn]
        exact .batch hfile rfl hframes h
      | returns value =>
        rw [hreturns]
        exact .batch hfile rfl hframes h
  unfold turnBatch nextItem
  rw [wp_bind_assoc, wp_get_bind]
  split
  · next uri uris transferId source _ _ =>
    split
    · exact hbatch _ rfl (fun _ ↦ rfl) fun _ ↦ rfl
    · rw [wp_bind_assoc]
      apply wp_bind_of (wp_startFile now uri transferId source batch.batchId c)
      · rintro e c' (⟨file, hr, -⟩ | ⟨hidle, -⟩)
        · simp at hr
        · exact .batch hfile rfl (by simp) hidle
      · rintro progress c' (⟨file, hr, h⟩ | ⟨hidle, hr | ⟨e, hr⟩⟩)
        · obtain rfl := Except.ok.inj hr
          exact .begins rfl hfile rfl h
        · obtain rfl := Except.ok.inj hr
          exact .batch hfile rfl (by simp) hidle
        · simp at hr
  · exact hbatch _ rfl (fun _ ↦ rfl) fun _ ↦ rfl

theorem jobTurn_goOnJob (now : ℤ) (input : SendInput) (job : SendJob) (c : FerryControlClient) :
    wp (goOnJob now input job) (fun r c' ↦ JobTurn input job (remaining job r) c c') c := by
  unfold goOnJob
  split
  · next _ _ file hfile =>
    apply wp_bind_of (fileTurn_goOnFile now input file c)
    · rintro e c' ⟨frames, h⟩
      exact .file hfile h
    · rintro progress c' ⟨frames, h⟩
      suffices hmoved : FileTurn file ((remaining job (.ok (afterFile job progress))).bind SendJob.file)
          frames c c' from .file hfile hmoved
      cases progress with
      | waits =>
        have hkept : FileTurn file job.file frames c c' := hfile.symm ▸ h
        exact hkept
      | goesOn next => exact h
      | returns value =>
        unfold afterFile
        cases job.batch <;> exact h
  · next _ _ batch hfile hbatch => exact jobTurn_turnBatch now input hfile c
  · next _ _ hfile _ => exact .batch hfile rfl (by simp) (Idle.refl c)

/-! ## Turns of `onResumeRequest` -/

/-- What breaks a coroutine of `onResumeRequest` off after its ACCEPT: its write or its read fails, or
the source cannot be opened at the offset. -/
def Broken (c : FerryControlClient) (input : SendInput) (resume : ResumeSend) : Prop :=
  c.WriteFails resume.session ∨ input = .readError ∨
    ∃ skipped, input = .opened skipped ∧ skipped ≠ some resume.resumeOffsetBytes

/-- What a turn leaves of a coroutine of `onResumeRequest`, and what it writes. -/
inductive ResumeMove (c : FerryControlClient) (input : SendInput) (resume : ResumeSend) :
    Option ResumeSend → List OutgoingFrame → Prop
  | waits : ResumeMove c input resume (some resume) []
  | accepts {transferId : Text} {source : SourceFile} (uri : Text)
      (hinput : input = .item transferId source) (hphase : resume.phase = .launched)
      (hresumable : c.Resumable resume.transferId)
      (hcomputed : computePrefixSha256FromUri source.content resume.resumeOffsetBytes =
        some resume.partialSha256) :
      ResumeMove c input resume (some { resume with phase := .accepted uri })
        [.transferResumeAccept resume.transferId resume.resumeChunkIndex]
  | rejects (reason : String) (hphase : resume.phase = .launched) :
      ResumeMove c input resume none [.transferResumeReject resume.transferId reason]
  | opens {uri : Text} (hphase : resume.phase = .accepted uri) :
      ResumeMove c input resume (some { resume with phase := .streaming }) []
  | chunk {data : Bytes} (hinput : input = .data data) (hphase : resume.phase = .streaming)
      (hcancelled : c.outgoingCancelled = false) :
      ResumeMove c input resume
        (some { resume with seq := Kotlin.TransferMetadata.toInt32 (resume.seq + 1) })
        [.chunk resume.transferId resume.seq (data.take chunkSizeDefault)]
  | ends (hphase : resume.phase = .streaming) (h : c.outgoingCancelled = true ∨ input = .eof) :
      ResumeMove c input resume (some { resume with phase := .streamed }) []
  | completes (hphase : resume.phase = .streamed) :
      ResumeMove c input resume none [.transferComplete resume.transferId]
  | returns (h : resume.phase = .launched ∨ c.Broken input resume) : ResumeMove c input resume none []

variable {resume : ResumeSend} {input : SendInput}

/-- A turn of a coroutine of `onResumeRequest`. -/
def ResumeTurn (input : SendInput) (resume : ResumeSend) (new : Option ResumeSend)
    (c c' : FerryControlClient) : Prop :=
  ∃ frames, ResumeMove c input resume new frames ∧ Writes frames c c'

/-- The record that `load` finds is in the store. -/
theorem get_of_load {store : InterruptedTransferStore} {now : ℤ} {transferId : Text}
    {record : InterruptedRecord} (h : (store.load now transferId).1 = some record) :
    store.get transferId = some record := by
  unfold InterruptedTransferStore.load at h
  split at h
  · exact nomatch h
  · next found hfound =>
    split at h
    · exact nomatch h
    · rw [hfound, ← h]

theorem resumeTurn_rejectResume (reason : String) (hphase : resume.phase = .launched)
    {c₁ : FerryControlClient} (hidle : Idle c c₁) :
    wp (rejectResume resume reason) (fun r c' ↦ ResumeTurn input resume (remaining resume r) c c')
      c₁ := by
  unfold rejectResume
  have hwrite : wp (tryCatch (write resume.session (.transferResumeReject resume.transferId reason))
      fun _ ↦ pure ()) (fun r c' ↦ (∃ u, r = .ok u) ∧
        (Idle c c' ∨ Writes [.transferResumeReject resume.transferId reason] c c')) c₁ := by
    apply wp_tryCatch_of (wp_write _ _ _)
    · exact fun e c' h ↦ ⟨⟨(), rfl⟩, .inl (hidle.trans (h.2 e rfl).1)⟩
    · exact fun u c' h ↦ ⟨⟨u, rfl⟩, .inr (hidle.trans (h.1 u rfl))⟩
  apply wp_bind_of hwrite
  · rintro e c' ⟨⟨u, hu⟩, -⟩
    exact nomatch hu
  · rintro u c' ⟨-, hidle' | hwritten⟩
    · exact ⟨[], .returns (.inl hphase), hidle'⟩
    · exact ⟨_, .rejects reason hphase, hwritten⟩

theorem resumeTurn_verifyPrefix (now : ℤ) {transferId : Text} {source : SourceFile}
    (hinput : input = .item transferId source) (hphase : resume.phase = .launched) :
    wp (verifyPrefix now source.content resume)
      (fun r c' ↦ ResumeTurn input resume (remaining resume r) c c') c := by
  have hloaded := idle_load c now resume.transferId
  unfold verifyPrefix
  rw [wp_get_bind]
  unfold update
  dsimp only
  rw [wp_modify_bind]
  cases huri : (c.interruptedStore.load now resume.transferId).1.bind
      InterruptedRecord.contentUriString with
  | none => exact resumeTurn_rejectResume _ hphase hloaded
  | some uri =>
    obtain ⟨record, hrecord, huri'⟩ := Option.bind_eq_some_iff.mp huri
    have hresumable : c.Resumable resume.transferId :=
      ⟨record, get_of_load hrecord, by rw [huri']; exact nofun⟩
    rw [wp_ite]
    refine ⟨fun _ ↦ resumeTurn_rejectResume _ hphase hloaded, fun hcomputed ↦ ?_⟩
    have haccept : wp (do
        write resume.session (.transferResumeAccept resume.transferId resume.resumeChunkIndex)
        return .goesOn { resume with phase := .accepted uri } : Action (Progress ResumeSend))
        (fun r c' ↦ (∀ e, r = .error e → Idle c c') ∧ ∀ progress, r = .ok progress →
          ResumeTurn input resume (remaining resume (.ok progress)) c c')
        { c with interruptedStore := (c.interruptedStore.load now resume.transferId).2 } := by
      apply wp_bind_of (wp_write _ _ _)
      · exact fun e c' h ↦ ⟨fun _ _ ↦ hloaded.trans (h.2 e rfl).1, nofun⟩
      · refine fun u c' h ↦ ⟨nofun, fun progress hprogress ↦ ?_⟩
        obtain rfl := Except.ok.inj hprogress
        exact ⟨_, .accepts uri hinput hphase hresumable (not_not.mp hcomputed), hloaded.trans (h.1 u rfl)⟩
    apply wp_tryCatch_of haccept
    · exact fun e c' h ↦ ⟨[], .returns (.inl hphase), h.1 e rfl⟩
    · exact fun progress c' h ↦ h.2 progress rfl

/-- The `finally` deletes the record of a coroutine that ends. -/
theorem resumeTurn_forgetRecord {m : Action (Progress ResumeSend)}
    (h : wp m (fun r c' ↦ ResumeTurn input resume (remaining resume r) c c') c) :
    wp (forgetRecord resume m) (fun r c' ↦ ResumeTurn input resume (remaining resume r) c c') c := by
  have hcaught : wp (tryCatch m fun _ ↦ return .returns false) (fun r c' ↦ ∃ progress,
      r = .ok progress ∧ ResumeTurn input resume (remaining resume (.ok progress)) c c') c := by
    apply wp_tryCatch_of h
    · exact fun e c' hturn ↦ ⟨.returns false, rfl, hturn⟩
    · exact fun progress c' hturn ↦ ⟨progress, rfl, hturn⟩
  unfold forgetRecord
  apply wp_bind_of hcaught
  · rintro e c' ⟨progress, hprogress, -⟩
    exact nomatch hprogress
  · rintro progress c' ⟨_, hprogress, frames, hmove, hwrites⟩
    obtain rfl := Except.ok.inj hprogress
    cases progress with
    | waits => exact ⟨frames, hmove, hwrites⟩
    | goesOn next => exact ⟨frames, hmove, hwrites⟩
    | returns value =>
      refine ⟨frames, hmove, ?_⟩
      have hforgotten := hwrites.trans (idle_pop c' resume.transferId)
      rwa [List.append_nil] at hforgotten

theorem resumeTurn_write {frame : OutgoingFrame} {progress : Progress ResumeSend}
    (hmove : ResumeMove c input resume (remaining resume (.ok progress)) [frame]) :
    wp (do write resume.session frame; return progress : Action (Progress ResumeSend))
      (fun r c' ↦ ResumeTurn input resume (remaining resume r) c c') c := by
  apply wp_bind_of (wp_write _ _ _)
  · exact fun e c' h ↦ ⟨[], .returns (.inr (.inl (h.2 e rfl).2)), (h.2 e rfl).1⟩
  · exact fun u c' h ↦ ⟨_, hmove, h.1 u rfl⟩

/-- A turn that writes nothing and goes on. -/
theorem resumeTurn_goesOn {next : ResumeSend} (hmove : ResumeMove c input resume (some next) []) :
    wp (return .goesOn next : Action (Progress ResumeSend))
      (fun r c' ↦ ResumeTurn input resume (remaining resume r) c c') c :=
  ⟨[], hmove, Idle.refl c⟩

theorem resumeTurn_waits :
    wp (return .waits : Action (Progress ResumeSend))
      (fun r c' ↦ ResumeTurn input resume (remaining resume r) c c') c :=
  ⟨[], .waits, Idle.refl c⟩

/-- A turn of a coroutine of `onResumeRequest`. -/
theorem resumeTurn_goOnResume (now : ℤ) (input : SendInput) (resume : ResumeSend)
    (c : FerryControlClient) :
    wp (goOnResume now input resume)
      (fun r c' ↦ ResumeTurn input resume (remaining resume r) c c') c := by
  unfold goOnResume
  split
  · next hphase =>
    split
    · exact resumeTurn_verifyPrefix now rfl hphase
    · exact resumeTurn_waits
  · next uri hphase =>
    split
    · next skipped =>
      apply resumeTurn_forgetRecord
      rw [wp_ite]
      refine ⟨fun _ ↦ resumeTurn_goesOn (.opens hphase), fun hskipped ↦ ?_⟩
      exact ⟨[], .returns (.inr (.inr (.inr ⟨_, rfl, by simpa using hskipped⟩))), Idle.refl c⟩
    · refine resumeTurn_forgetRecord ⟨[], .returns ?_, Idle.refl c⟩
      exact .inr (.inr (.inr ⟨none, rfl, nofun⟩))
    · exact resumeTurn_waits
  · next hphase =>
    apply resumeTurn_forgetRecord
    unfold streamResumed
    rw [wp_get_bind, wp_ite]
    refine ⟨fun hcancelled ↦ resumeTurn_goesOn (.ends hphase (.inl hcancelled)), fun hcancelled ↦ ?_⟩
    cases input with
    | data data => exact resumeTurn_write (.chunk rfl hphase (Bool.eq_false_iff.mpr hcancelled))
    | eof => exact resumeTurn_goesOn (.ends hphase (.inr rfl))
    | readError => exact ⟨[], .returns (.inr (.inr (.inl rfl))), Idle.refl c⟩
    | turn | timeout | opened _ | item _ _ => exact resumeTurn_waits
  · next hphase => exact resumeTurn_forgetRecord (resumeTurn_write (.completes hphase))

end Turns

/-! ## Turns of the client -/

/-- The identifier that an event gives to a new call of `sendFile`. -/
def newId : ControlEvent → Option Text
  | .sendFile _ _ transferId _ | .goOn _ _ (.item transferId _) => some transferId
  | _ => none

/-- The call of `sendFile` whose turn it is. -/
def turnOf (c : FerryControlClient) : ControlEvent → Option FileSend
  | .goOn _ index _ => c.jobs[index]?.bind SendJob.file
  | _ => none

/-- The coroutine of `onResumeRequest` whose turn it is, with what it is given. -/
def resumingOf (c : FerryControlClient) : ControlEvent → Option (ResumeSend × SendInput)
  | .goOnResuming _ index input => c.resumeSends[index]?.map fun resume ↦ (resume, input)
  | _ => none

/-- The coroutine that an event launches for a resume request. -/
def launchedBy (c : FerryControlClient) : ControlEvent → Option ResumeSend
  | .frame _ (.message (.transferResumeRequest transferId resumeChunkIndex resumeOffsetBytes
      partialSha256)) =>
    some ⟨c.sessions, transferId, resumeChunkIndex, Kotlin.TransferMetadata.toInt32 resumeOffsetBytes,
      partialSha256, resumeChunkIndex, .launched⟩
  | _ => none

theorem launchedBy_phase {c : FerryControlClient} {event : ControlEvent} {resume : ResumeSend}
    (h : c.launchedBy event = some resume) : resume.phase = .launched := by
  unfold launchedBy at h
  split at h
  · rw [← Option.some.inj h]
  · exact nomatch h

/-- What an event does to the coroutines that send: it leaves them, starts a call of `sendFile`, or is a
turn of one; it launches a coroutine of `onResumeRequest`, or is a turn of one. -/
inductive Turn (event : ControlEvent) (c c' : FerryControlClient) : Prop
  | batch {frames : List OutgoingFrame} (hframes : ∀ frame ∈ frames, frame.transfer = none)
      (hfiles : c'.files.Perm c.files) (h : Writes frames c { c' with jobs := c.jobs })
  | begins {transferId : Text} {file : FileSend} (hid : newId event = some transferId)
      (hfiles : c'.files.Perm (file :: c.files)) (h : Begins transferId file c { c' with jobs := c.jobs })
  | file {file : FileSend} {new : Option FileSend} {frames : List OutgoingFrame} {rest : List FileSend}
      (hturn : c.turnOf event = some file) (hbefore : c.files.Perm (file :: rest))
      (hafter : c'.files.Perm (new.toList ++ rest))
      (h : FileTurn file new frames c { c' with jobs := c.jobs })
  | launches {resume : ResumeSend} (hlaunched : c.launchedBy event = some resume)
      (hresumes : c'.resumeSends = c.resumeSends ++ [resume])
      (h : Idle c { c' with resumeSends := c.resumeSends })
  | resume {resume : ResumeSend} {input : SendInput} {new : Option ResumeSend} {rest : List ResumeSend}
      (hturn : c.resumingOf event = some (resume, input))
      (hbefore : c.resumeSends.Perm (resume :: rest)) (hafter : c'.resumeSends.Perm (new.toList ++ rest))
      (h : ResumeTurn input resume new c { c' with resumeSends := c.resumeSends })

variable {c c' : FerryControlClient}

theorem Writes.turn_batch {event : ControlEvent} {frames : List OutgoingFrame} (h : Writes frames c c')
    (hframes : ∀ frame ∈ frames, frame.transfer = none) : Turn event c c' := by
  have hfiles : c'.files = c.files := by rw [files, h.jobs, files]
  exact .batch hframes (.of_eq hfiles) ⟨rfl, h.resumeSends, h.written, h.resumable, h.reports⟩

theorem Writes.turn_idle {event : ControlEvent} (h : Idle c c') : Turn event c c' :=
  h.turn_batch (by simp)

/-- The coroutines after a turn of one of them, in another order. -/
theorem afterTurn_perm {α : Type} {coroutines : List α} {index : ℕ} {coroutine : α}
    (hget : coroutines[index]? = some coroutine) (progress : Progress α) :
    coroutines.Perm (coroutine :: coroutines.eraseIdx index) ∧
      (afterTurn coroutines index progress).Perm
        ((remaining coroutine (.ok progress)).toList ++ coroutines.eraseIdx index) := by
  obtain ⟨hlt, rfl⟩ := List.getElem?_eq_some_iff.mp hget
  have hperm := (List.getElem_cons_eraseIdx_perm hlt).symm
  refine ⟨hperm, ?_⟩
  cases progress with
  | waits => exact hperm
  | goesOn next => exact List.set_perm_cons_eraseIdx hlt next
  | returns value => exact .refl _

/-- The calls of `sendFile` among the coroutines. -/
theorem filterMap_cons_perm {jobs rest : List SendJob} {new : Option SendJob}
    (h : jobs.Perm (new.toList ++ rest)) :
    (jobs.filterMap SendJob.file).Perm
      ((new.bind SendJob.file).toList ++ rest.filterMap SendJob.file) := by
  have hperm := h.filterMap SendJob.file
  rw [List.filterMap_append] at hperm
  cases new with
  | none => exact hperm
  | some job =>
    cases hfile : job.file with
    | none => simpa [hfile] using hperm
    | some file => simpa [hfile] using hperm

theorem wp_settle {α : Type} {turn : Action (Progress α)}
    {Q : Except KotlinException (Progress α) → FerryControlClient → Prop} (h : wp turn Q c)
    (hreturns : ∀ e c', Q (.error e) c' → Q (.ok (.returns false)) c') :
    wp (settle turn) (fun r c' ↦ ∃ progress, r = .ok progress ∧ Q (.ok progress) c') c := by
  apply wp_tryCatch_of h
  · exact fun e c' hQ ↦ ⟨_, rfl, hreturns e c' hQ⟩
  · exact fun progress c' hQ ↦ ⟨progress, rfl, hQ⟩

theorem turn_goOn (now : ℤ) (index : ℕ) (input : SendInput) :
    wp (goOn now index input) (fun _ c' ↦ Turn (.goOn now index input) c c') c := by
  unfold goOn
  rw [wp_get_bind]
  cases hjob : c.jobs[index]? with
  | none => exact (Idle.refl c).turn_idle
  | some job =>
    apply wp_bind_of (wp_settle (jobTurn_goOnJob now input job c) fun _ _ h ↦ h)
    · rintro e c' ⟨progress, hprogress, -⟩
      exact nomatch hprogress
    · rintro progress c' ⟨_, hprogress, hturn⟩
      obtain rfl := Except.ok.inj hprogress
      have hjobs : c'.jobs = c.jobs := by
        cases hturn with
        | file _ h => exact h.jobs
        | begins _ _ _ h => exact h.jobs
        | batch _ _ _ h => exact h.jobs
      obtain ⟨hbefore, hafter⟩ := afterTurn_perm hjob progress
      have hfilesBefore : c.files.Perm
          (job.file.toList ++ (c.jobs.eraseIdx index).filterMap SendJob.file) :=
        @filterMap_cons_perm _ _ (some job) hbefore
      have hfilesAfter := filterMap_cons_perm hafter
      change Turn _ c { c' with jobs := afterTurn c'.jobs index progress }
      rw [hjobs]
      cases hturn with
      | file hfile h =>
        rw [hfile] at hfilesBefore
        refine .file ?_ hfilesBefore hfilesAfter
          ⟨h.move, rfl, h.resumeSends, h.written, h.resumable, h.reports⟩
        rw [turnOf, hjob, Option.bind_some, hfile]
      | begins hinput hfile hnew h =>
        rw [hfile] at hfilesBefore
        rw [hnew] at hfilesAfter
        have hwrites : Writes _ c { c' with jobs := c.jobs } :=
          ⟨rfl, h.resumeSends, h.written, h.resumable, h.reports⟩
        exact .begins (hinput ▸ rfl) (hfilesAfter.trans (hfilesBefore.symm.cons _))
          ⟨hwrites, h.transferId_eq, h.phase, h.seq, h.digest⟩
      | batch hfile hnew hframes h =>
        rw [hfile] at hfilesBefore
        rw [hnew] at hfilesAfter
        exact .batch hframes (hfilesAfter.trans hfilesBefore.symm)
          ⟨rfl, h.resumeSends, h.written, h.resumable, h.reports⟩

theorem turn_goOnResuming (now : ℤ) (index : ℕ) (input : SendInput) :
    wp (goOnResuming now index input) (fun _ c' ↦ Turn (.goOnResuming now index input) c c') c := by
  unfold goOnResuming
  rw [wp_get_bind]
  cases hresume : c.resumeSends[index]? with
  | none => exact (Idle.refl c).turn_idle
  | some resume =>
    apply wp_bind_of (wp_settle (resumeTurn_goOnResume now input resume c) fun _ _ h ↦ h)
    · rintro e c' ⟨progress, hprogress, -⟩
      exact nomatch hprogress
    · rintro progress c' ⟨_, hprogress, frames, hmove, h⟩
      obtain rfl := Except.ok.inj hprogress
      obtain ⟨hbefore, hafter⟩ := afterTurn_perm hresume progress
      change Turn _ c { c' with resumeSends := afterTurn c'.resumeSends index progress }
      rw [h.resumeSends]
      refine .resume ?_ hbefore hafter ⟨frames, hmove, h.jobs, rfl, h.written, h.resumable, h.reports⟩
      rw [resumingOf, hresume, Option.map_some]

/-- A coroutine that ended in its first turn is not added. -/
theorem addJob_of_ne {started : Progress SendJob} (h : ∀ job, started ≠ .goesOn job)
    (c : FerryControlClient) : addJob started c = (.ok (), c) := by
  cases started with
  | waits => rfl
  | goesOn job => exact absurd rfl (h job)
  | returns value => rfl

/-- A call of `sendFile` on its own. -/
theorem turn_sendFile (now : ℤ) (uri transferId : Text) (source : SourceFile) :
    wp (sendFile now uri transferId source) (fun _ c' ↦ Turn (.sendFile now uri transferId source) c c')
      c := by
  unfold sendFile
  apply wp_bind_of (wp_settle (Q := fun r c' ↦
    (∃ file, r = .ok (.goesOn ⟨none, some file⟩) ∧ Begins transferId file c c') ∨
      Idle c c' ∧ ∀ job, r ≠ .ok (.goesOn job)) ?_ ?_)
  · rintro e c' ⟨progress, hprogress, -⟩
    cases hprogress
  · rintro progress c' ⟨_, hprogress, hcases⟩
    obtain rfl := Except.ok.inj hprogress
    rcases hcases with ⟨file, hr, h⟩ | ⟨hidle, hnone⟩
    · obtain rfl := Except.ok.inj hr
      have hwrites : Writes _ c { c' with jobs := c.jobs } :=
        ⟨rfl, h.resumeSends, h.written, h.resumable, h.reports⟩
      refine .begins rfl ?_ ⟨hwrites, h.transferId_eq, h.phase, h.seq, h.digest⟩
      change ((c'.jobs ++ [_]).filterMap SendJob.file).Perm (file :: c.jobs.filterMap SendJob.file)
      rw [h.jobs, List.filterMap_append]
      exact List.perm_append_singleton file _
    · rw [wp, addJob_of_ne fun job hjob ↦ hnone job (congrArg Except.ok hjob)]
      exact hidle.turn_idle
  · apply wp_bind_of (wp_startFile now uri transferId source [] c)
    · rintro e c' (⟨file, hr, -⟩ | ⟨hidle, -⟩)
      · cases hr
      · exact .inr ⟨hidle, fun job ↦ by simp⟩
    · rintro progress c' (⟨file, hr, h⟩ | ⟨hidle, hr | ⟨e, hr⟩⟩)
      · obtain rfl := Except.ok.inj hr
        exact .inl ⟨file, rfl, h⟩
      · obtain rfl := Except.ok.inj hr
        exact .inr ⟨hidle, fun job hjob ↦ absurd (Except.ok.inj hjob) (by simp)⟩
      · cases hr
  · rintro e c' (⟨file, hr, -⟩ | ⟨hidle, -⟩)
    · cases hr
    · exact .inr ⟨hidle, fun job hjob ↦ absurd (Except.ok.inj hjob) (by simp)⟩

/-- A call of `sendBatch`. -/
theorem turn_sendBatch (now : ℤ) (uris : List Text) (batchId batchName : Text) (totalBytes : ℤ) :
    wp (sendBatch now uris batchId batchName totalBytes)
      (fun _ c' ↦ Turn (.sendBatch now uris batchId batchName totalBytes) c c') c := by
  have hbatch : wp (startBatch now uris batchId batchName totalBytes) (fun _ c' ↦
      ∃ frames : List OutgoingFrame, (∀ frame ∈ frames, frame.transfer = none) ∧ Writes frames c c') c := by
    unfold startBatch
    rw [wp_get_bind, wp_ite]
    refine ⟨fun _ ↦ ⟨[], by simp, Idle.refl c⟩, fun _ ↦ ?_⟩
    unfold update
    rw [wp_modify_bind]
    have hcleared : Idle c { c with outgoingCancelled := false, outgoingCancelledByPeer := false } :=
      idle_of_eq rfl rfl rfl rfl rfl rfl
    apply wp_bind_of (wp_write _ _ _)
    · exact fun e c' h ↦ ⟨[], by simp, hcleared.trans (h.2 e rfl).1⟩
    · exact fun u c' h ↦ ⟨_, by simp [OutgoingFrame.transfer], hcleared.trans (h.1 u rfl)⟩
  unfold sendBatch
  apply wp_bind_of (wp_settle (Q := fun r c' ↦
    (∃ frames : List OutgoingFrame, (∀ frame ∈ frames, frame.transfer = none) ∧ Writes frames c c') ∧
      ∀ job, r = .ok (.goesOn job) → job.file = none) ?_ fun _ _ h ↦
    ⟨h.1, fun job hjob ↦ absurd (Except.ok.inj hjob) (by simp)⟩)
  · rintro e c' ⟨progress, hprogress, -⟩
    cases hprogress
  · rintro progress c' ⟨_, hprogress, ⟨frames, hframes, h⟩, hfile⟩
    obtain rfl := Except.ok.inj hprogress
    have hwrites : Writes frames c { c' with jobs := c.jobs } :=
      ⟨rfl, h.resumeSends, h.written, h.resumable, h.reports⟩
    by_cases hgoesOn : ∃ job, progress = .goesOn job
    · obtain ⟨job, rfl⟩ := hgoesOn
      refine .batch hframes (.of_eq ?_) hwrites
      change (c'.jobs ++ [job]).filterMap SendJob.file = c.jobs.filterMap SendJob.file
      rw [h.jobs, List.filterMap_append]
      simp [hfile job rfl]
    · rw [wp, addJob_of_ne fun job hjob ↦ hgoesOn ⟨job, hjob⟩]
      exact h.turn_batch hframes
  · apply wp_bind_of hbatch
    · exact fun e c' h ↦ ⟨h, fun job hjob ↦ by simp at hjob⟩
    · rintro progress c' h
      cases progress with
      | waits => exact ⟨h, fun job hjob ↦ absurd (Except.ok.inj hjob) (by simp)⟩
      | goesOn batch => exact ⟨h, fun job hjob ↦ by cases hjob; rfl⟩
      | returns value => exact ⟨h, fun job hjob ↦ absurd (Except.ok.inj hjob) (by simp)⟩

/-- A round of the loop. -/
theorem turn_receiveFrame (now : ℤ) (frame : ClientFrame) :
    wp (receiveFrame now frame) (fun _ c' ↦ Turn (.frame now frame) c c') c := by
  have hidle {frame : ClientFrame} (h : Stays Idle (processFrame now frame)) :
      wp (receiveFrame now frame) (fun _ c' ↦ Turn (.frame now frame) c c') c :=
    wp_mono (stays_tryCatch h (fun _ ↦ idle_endLoop now) c) fun _ _ h' ↦ h'.turn_idle
  cases frame with
  | chunk plaintext => exact hidle (idle_onReceiving _)
  | message message =>
    cases message with
    | transferResumeRequest transferId resumeChunkIndex resumeOffsetBytes partialSha256 =>
      exact .launches rfl rfl (idle_of_eq rfl rfl rfl rfl rfl rfl)
    | transferComplete _ | transferCancel _ | transferError _ | transferAccept _ | transferReject _
    | transferResumeAccept _ _ | transferResumeReject _ | batchAccept _ | batchReject _ | batchCancel _
    | transferRequest _ | transferResult _ _ | batchRequest _ _ | batchComplete _ | other =>
      exact hidle (idle_handleTransferMessage now nofun)
  | pairDecision accept =>
    refine hidle (stays_get_bind fun client ↦ stays_ite _ ?_ (idle_endLoop now) client)
    refine stays_ite _ ?_ (stays_pure _)
    exact stays_modify fun _ ↦ idle_of_eq rfl rfl rfl rfl rfl rfl

/-- What an event does to the coroutines that send. -/
theorem turn_step (c : FerryControlClient) (event : ControlEvent) : Turn event c (c.step event) := by
  have hidle {m : Action Unit} (h : Stays Idle m) : Turn event c (m c).2 := (h c).turn_idle
  have hsame {f : FerryControlClient → FerryControlClient} (h : ∀ c, Idle c (f c)) :
      Turn event c (update f c).2 := (h c).turn_idle
  unfold step
  split
  · cases event with
    | sendFile now uri transferId source => exact turn_sendFile now uri transferId source
    | sendBatch now uris batchId batchName totalBytes =>
      exact turn_sendBatch now uris batchId batchName totalBytes
    | goOn now index input => exact turn_goOn now index input
    | goOnResuming now index input => exact turn_goOnResuming now index input
    | frame now frame => exact turn_receiveFrame now frame
    | startSession remoteStaticB64 isTrusted =>
      refine hidle (stays_get_bind fun client ↦ stays_bind (idle_onReceiving _) (fun _ ↦ ?_) client)
      exact stays_modify fun _ ↦ idle_of_eq rfl rfl rfl rfl rfl rfl
    | loopEnd now => exact hidle (idle_endLoop now)
    | cancelOutgoingTransfer =>
      refine hidle (stays_bind ?_ fun _ ↦ idle_completeAccept false)
      exact stays_modify fun _ ↦ idle_of_eq rfl rfl rfl rfl rfl rfl
    | requestResume now record => exact hidle (idle_requestResume now record)
    | discardInterrupted transferId => exact hidle (idle_discardInterrupted transferId)
    | acceptIncomingTransfer | rejectIncomingTransfer | cancelIncomingTransfer _ =>
      exact hidle (idle_onReceiving _)
    | acceptPairing | rejectPairing | setAutoAcceptTransfers _ | decideIncoming _ _ | awaitResume _ _
    | disk _ => exact hsame fun _ ↦ idle_of_eq rfl rfl rfl rfl rfl rfl
  · exact (Idle.refl c).turn_idle

end FerryControlClient

end Ferry
