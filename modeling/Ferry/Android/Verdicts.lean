import Ferry.Android.ChunkCodec
import Ferry.Android.Isolation
import Ferry.Android.Ownership
import Ferry.Transfer.Receiving

/-!
# The verdict of the receiver

The client as a sender against a receiver that follows the protocol, over a channel that keeps the order
of the frames.  `sendFile` decides its result by its own streaming and does not look at TRANSFER_RESULT,
so what it reports agrees with the receiver in the runs in which the content does not change between its
two reads and the receiver is faster than the last turn of `sendFile`.
-/

namespace Ferry

/-! ## The receiver -/

/-- A transfer that the receiver has open: the hash of its request, the bytes that arrived, and the
number of the chunk that comes next. -/
structure OpenTransfer where
  sha256 : Text
  received : Bytes
  nextSeq : ℤ
  deriving DecidableEq

namespace OpenTransfer

/-- The transfer after one of its frames; `kept` is what an earlier session left of it.  A chunk that is
not the next one ends the transfer. -/
def after (kept transfer : Option OpenTransfer) : OutgoingFrame → Option OpenTransfer
  | .transferRequest payload => some ⟨payload.sha256, [], 0⟩
  | .chunk _ seq data => transfer.bind fun t ↦
      if seq = t.nextSeq then
        some { t with
          received := t.received ++ data
          nextSeq := Kotlin.TransferMetadata.toInt32 (t.nextSeq + 1) }
      else none
  | .transferResumeAccept _ resumeChunkIndex =>
      kept.map fun t ↦ { t with nextSeq := resumeChunkIndex }
  | .transferComplete _ | .transferCancel _ _ => none
  | _ => transfer

/-- What the receiver finds when it has all chunks, unless it cannot store the file. -/
def verdict (t : OpenTransfer) (works : Bool) : Bool :=
  works && decide (Sha256.hexdigest t.received = Text.asciiLower t.sha256)

/-- A transfer after a frame of any transfer, for a receiver without a failure. -/
def follow (transferId : Text) (transfer : Option OpenTransfer) (frame : OutgoingFrame) :
    Option OpenTransfer :=
  if frame.transfer = some transferId then after none transfer frame else transfer

/-- A transfer after all frames so far. -/
def replay (transferId : Text) (frames : List OutgoingFrame) : Option OpenTransfer :=
  frames.foldl (follow transferId) none

theorem replay_concat (transferId : Text) (frames : List OutgoingFrame) (frame : OutgoingFrame) :
    replay transferId (frames ++ [frame]) = follow transferId (replay transferId frames) frame := by
  simp [replay]

/-- Frames of other transfers. -/
theorem replay_append_of_ne {transferId : Text} (frames : List OutgoingFrame)
    {more : List OutgoingFrame} (h : ∀ frame ∈ more, frame.transfer ≠ some transferId) :
    replay transferId (frames ++ more) = replay transferId frames := by
  induction more generalizing frames with
  | nil => rw [List.append_nil]
  | cons frame more ih =>
    have hframe : replay transferId (frames ++ [frame]) = replay transferId frames := by
      rw [replay_concat, follow, if_neg (h frame List.mem_cons_self)]
    rw [List.append_cons, ih _ fun other hother ↦ h other (List.mem_cons_of_mem frame hother), hframe]

/-! ## The receiver on Linux -/

section Linux

variable {metadata : TransferMetadata} {dir : DownloadDir} {dest : Path} {t : OpenTransfer} {w : World}

/-- An incoming transfer of the Linux side that has `t` open. -/
structure Serves (metadata : TransferMetadata) (dir : DownloadDir) (dest : Path) (t : OpenTransfer)
    (w : World) : Prop where
  sha256 : t.sha256 = metadata.sha256
  receiving : ∃ seq : ℕ, t.nextSeq = seq ∧
    IncomingTransfer.Receiving metadata dir dest .transferring t.received seq w

/-- The next chunk opens what the abstract receiver has open after it, as long as the numbers of the
chunks do not wrap. -/
theorem Serves.chunk (h : Serves metadata dir dest t w) {frame : ChunkFrame}
    (hid : frame.transferId = metadata.transferId) (hlength : (frame.data.length : ℤ) ≤ metadata.chunkSize)
    (hseq : (frame.seq : ℤ) = t.nextSeq) (hbound : frame.seq + 1 < 2 ^ 31) (kept : Option OpenTransfer) :
    Exec.wp (IncomingTransfer.receiveChunk frame) (fun r w' ↦ r = .ok () ∧
      ∃ t', after kept (some t) (.chunk frame.transferId frame.seq frame.data) = some t' ∧
        Serves metadata dir dest t' w') w := by
  obtain ⟨seq, hnext, hreceiving⟩ := h.receiving
  obtain rfl : frame.seq = seq := by exact_mod_cast hseq.trans hnext
  apply Exec.wp_mono (IncomingTransfer.receiveChunk_receiving hreceiving (.inl rfl) hid rfl hlength)
  rintro r w' ⟨hr, hw'⟩
  refine ⟨hr, _, if_pos hseq, h.sha256, frame.seq + 1, ?_, hw'⟩
  calc
    _ = Kotlin.TransferMetadata.toInt32 ((frame.seq + 1 : ℕ) : ℤ) := by rw [hnext]; push_cast; rfl
    _ = _ := toInt32_of_lt hbound

/-- `finalise` returns the verdict of the abstract receiver. -/
theorem Serves.verdict (h : Serves metadata dir dest t w) {n : ℕ}
    (huuid : uuidInt metadata.transferId = .ok n)
    (hdest : resolveSafeDestination dir.path metadata.fileName metadata.relativePath = .ok dest) :
    Exec.wp IncomingTransfer.finalise (fun r _ ↦ r = .ok (t.verdict true)) w := by
  obtain ⟨seq, -, hreceiving⟩ := h.receiving
  by_cases hdigest : Sha256.hexdigest t.received = Text.asciiLower metadata.sha256
  · apply Exec.wp_mono (IncomingTransfer.finalise_receiving huuid hdest hreceiving (.inl rfl) hdigest)
    rintro r w' ⟨hr, -⟩
    rw [hr, OpenTransfer.verdict, h.sha256, decide_eq_true hdigest, Bool.true_and]
  · apply Exec.wp_mono (IncomingTransfer.finalise_refuses hreceiving (.inl rfl) hdigest)
    intro r w' hr
    rw [hr, OpenTransfer.verdict, h.sha256, decide_eq_false hdigest, Bool.and_false]

end Linux

end OpenTransfer

namespace FerryControlClient

open OpenTransfer

/-! ## The sender -/

/-- The calls of `sendFile` stream what the receiver has open, until their stream breaks off, and
TRANSFER_COMPLETE follows chunks whose hash was announced. -/
structure Tracked (c : FerryControlClient) : Prop extends Separate c where
  whole : ∀ file ∈ c.files, file.phase.Whole → replay file.payload.transferId c.written =
    some ⟨file.payload.sha256, file.digest, file.seq⟩
  reported : ∀ transferId, c.Reports transferId → c.Requested transferId ∧ c.Untouched transferId ∧
    ∀ file ∈ c.files, file.payload.transferId ≠ transferId
  complete : ∀ k transferId, c.written[k]? = some (.transferComplete transferId) →
    ¬c.Accepted transferId → ∃ t, replay transferId (c.written.take k) = some t ∧
      t.sha256 = Sha256.hexdigest t.received

/-- At its TRANSFER_COMPLETE a call of `sendFile` has streamed what its request announced, and the
identifier of a new call was not used. -/
def Announces (c : FerryControlClient) (event : ControlEvent) : Prop :=
  c.Fresh event ∧ ∀ file ∈ c.turnOf event, file.phase = .streamed true →
    file.payload.sha256 = Sha256.hexdigest file.digest

instance (c : FerryControlClient) (event : ControlEvent) : Decidable (c.Announces event) :=
  inferInstanceAs (Decidable (_ ∧ _))

section Step

variable {c c' : FerryControlClient} {frames : List OutgoingFrame} {transferId : Text}

theorem lost_of_not_whole {phase : SendPhase} (h : phase = .ending false) : ¬phase.Whole := by
  rw [h]
  exact id

/-- TRANSFER_COMPLETE among the frames that were written before, or among the new ones. -/
theorem complete_later (h : c.Tracked) (hwritten : c'.written = c.written ++ frames)
    (hnew : ∀ transferId, .transferComplete transferId ∈ frames → ¬c'.Accepted transferId →
      frames = [.transferComplete transferId] ∧ ∃ t, replay transferId c.written = some t ∧
        t.sha256 = Sha256.hexdigest t.received)
    (k : ℕ) (transferId : Text) (hk : c'.written[k]? = some (.transferComplete transferId))
    (haccepted : ¬c'.Accepted transferId) : ∃ t, replay transferId (c'.written.take k) = some t ∧
      t.sha256 = Sha256.hexdigest t.received := by
  rw [hwritten] at hk ⊢
  by_cases hlt : k < c.written.length
  · rw [List.getElem?_append_left hlt] at hk
    rw [List.take_append_of_le_length hlt.le]
    exact h.complete k transferId hk fun hbefore ↦ haccepted (hbefore.later hwritten)
  · have hle := not_lt.mp hlt
    rw [List.getElem?_append_right hle] at hk
    obtain ⟨rfl, t, ht, hhash⟩ := hnew transferId (List.mem_of_getElem? hk) haccepted
    have hzero : k - c.written.length = 0 := by
      by_contra hne
      rw [List.getElem?_eq_none (by simp; omega)] at hk
      exact nomatch hk
    have hlength : k = c.written.length := by omega
    rw [hlength, List.take_left']
    · exact ⟨t, ht, hhash⟩
    · rfl

/-- A transfer whose success is reported, to which nothing happens. -/
theorem Tracked.reported_later (h : c.Tracked) (hwritten : c'.written = c.written ++ frames)
    (hreports : c.Reports transferId)
    (hother : (∀ frame ∈ frames, frame.accepts ≠ some transferId) ∧
      (c'.Resumable transferId → c.Resumable transferId))
    (hfiles : ∀ file ∈ c'.files, file ∈ c.files ∨ file.payload.transferId ≠ transferId) :
    c'.Requested transferId ∧ c'.Untouched transferId ∧
      ∀ file ∈ c'.files, file.payload.transferId ≠ transferId := by
  obtain ⟨hrequested, huntouched, hfile⟩ := h.reported transferId hreports
  exact ⟨hrequested.later hwritten, huntouched.later hwritten hother.1 hother.2,
    fun file hmem ↦ (hfiles file hmem).elim (hfile file) id⟩

/-- A step that leaves the calls of `sendFile`, and writes nothing for a transfer that no resume may
touch. -/
theorem Tracked.of_frames (h : c.Tracked) (hseparate : c'.Separate)
    (hwritten : c'.written = c.written ++ frames) (hfiles : c'.files.Perm c.files)
    (hresumable : ∀ transferId, c'.Resumable transferId → c.Resumable transferId)
    (hreports : ∀ transferId, c'.Reports transferId → c.Reports transferId)
    (hother : ∀ transferId, c.Untouched transferId → ∀ frame ∈ frames, frame.transfer ≠ some transferId)
    (hcomplete : ∀ transferId, .transferComplete transferId ∈ frames → c'.Accepted transferId) :
    c'.Tracked where
  toSeparate := hseparate
  whole := by
    intro file hfile hphase
    have hold := hfiles.mem_iff.mp hfile
    have huntouched := (h.owned file hold).untouched fun hlost ↦ lost_of_not_whole hlost hphase
    rw [hwritten, replay_append_of_ne _ (hother _ huntouched), h.whole file hold hphase]
  reported := by
    intro transferId hreported
    have hbefore := hreports transferId hreported
    have huntouched := (h.reported transferId hbefore).2.1
    refine h.reported_later hwritten hbefore ⟨fun frame hframe ↦ ?_, hresumable transferId⟩
      fun file hmem ↦ .inl (hfiles.mem_iff.mp hmem)
    exact OutgoingFrame.accepts_of_transfer_ne (hother transferId huntouched frame hframe)
  complete := complete_later h hwritten fun transferId hmem haccepted ↦
    absurd (hcomplete transferId hmem) haccepted

/-- A new call of `sendFile` whose identifier was not used. -/
theorem Tracked.of_begins (h : c.Tracked) (hseparate : c'.Separate) {file : FileSend}
    (hbegins : Begins transferId file c { c' with jobs := c.jobs })
    (hfiles : c'.files.Perm (file :: c.files)) (hfresh : ¬c.Requested transferId) : c'.Tracked := by
  have hid := hbegins.transferId_eq
  have hwritten : c'.written = c.written ++ [.transferRequest file.payload] := hbegins.written
  refine ⟨hseparate, ?_, ?_, complete_later h hwritten (by simp)⟩
  · intro other hmem hphase
    rcases List.mem_cons.mp (hfiles.mem_iff.mp hmem) with rfl | hold
    · have htransfer : (OutgoingFrame.transferRequest other.payload).transfer =
          some other.payload.transferId := rfl
      rw [hwritten, replay_concat, follow, if_pos htransfer, hbegins.digest, hbegins.seq]
      rfl
    · have hother : ∀ frame ∈ [OutgoingFrame.transferRequest file.payload],
          frame.transfer ≠ some other.payload.transferId := by
        intro frame hframe heq
        obtain rfl := List.mem_singleton.mp hframe
        have hsame : file.payload.transferId = other.payload.transferId := Option.some.inj heq
        exact hfresh (hid ▸ hsame ▸ (h.owned other hold).requested)
      rw [hwritten, replay_append_of_ne _ hother, h.whole other hold hphase]
  · intro other hreported
    have hbefore := hbegins.reports other hreported
    refine h.reported_later hwritten hbefore ⟨by simp [OutgoingFrame.accepts], hbegins.resumable _⟩ ?_
    intro current hmem
    rcases List.mem_cons.mp (hfiles.mem_iff.mp hmem) with rfl | hold
    · right
      rintro rfl
      exact hfresh (hid ▸ (h.reported _ hbefore).1)
    · exact .inl hold

theorem FileMove.complete {file : FileSend} {new : Option FileSend} (h : FileMove file new frames)
    (hmem : .transferComplete transferId ∈ frames) :
    frames = [.transferComplete transferId] ∧ transferId = file.payload.transferId ∧
      file.phase = .streamed true := by
  cases h with
  | completes hphase =>
    obtain rfl := OutgoingFrame.transferComplete.inj (List.mem_singleton.mp hmem)
    exact ⟨rfl, rfl, hphase⟩
  | moves | chunk | cancels | returns => simp at hmem

/-- What the receiver has open after a turn of a call whose stream has not been broken off. -/
theorem FileMove.whole {file next : FileSend} (h : FileMove file (some next) frames)
    (hwhole : file.phase.Whole → replay file.payload.transferId c.written =
      some ⟨file.payload.sha256, file.digest, file.seq⟩) (hphase : next.phase.Whole) :
    replay next.payload.transferId (c.written ++ frames) =
      some ⟨next.payload.sha256, next.digest, next.seq⟩ := by
  cases h with
  | moves phase hkept _ =>
    rw [List.append_nil]
    exact hwhole (hkept fun heq ↦ lost_of_not_whole heq hphase)
  | chunk data hstreaming =>
    rw [replay_concat, hwhole (hstreaming ▸ trivial)]
    simp [follow, OutgoingFrame.transfer, after]
  | completes => exact hphase.elim
  | cancels => exact hphase.elim

/-- A turn of a call of `sendFile`. -/
theorem Tracked.of_file (h : c.Tracked) (hseparate : c'.Separate) {file : FileSend}
    {new : Option FileSend} {rest : List FileSend} (hbefore : c.files.Perm (file :: rest))
    (hafter : c'.files.Perm (new.toList ++ rest))
    (hturn : FileTurn file new frames c { c' with jobs := c.jobs })
    (hannounced : file.phase = .streamed true → file.payload.sha256 = Sha256.hexdigest file.digest) :
    c'.Tracked := by
  have hwritten : c'.written = c.written ++ frames := hturn.written
  obtain ⟨hmem, -, hrest⟩ := h.toSeparate.others hbefore
  have haccepts (other : Text) : ∀ frame ∈ frames, frame.accepts ≠ some other := by
    intro frame hframe
    simp [(hturn.move.transfer frame hframe).2]
  refine ⟨hseparate, ?_, ?_, ?_⟩
  · intro current hcurrent hphase
    rw [hwritten]
    rcases hturn.cases hafter hcurrent with hmove | hother
    · exact hmove.whole (h.whole file hmem) hphase
    · obtain ⟨hold, hne⟩ := hrest current hother
      rw [replay_append_of_ne, h.whole current hold hphase]
      intro frame hframe
      rw [(hturn.move.transfer frame hframe).1]
      exact fun heq ↦ hne (Option.some.inj heq).symm
  · intro other hreported
    rcases hturn.reports other hreported with hold | ⟨rfl, hphase, hgone⟩
    · have hother : file.payload.transferId ≠ other := (h.reported other hold).2.2 file hmem
      refine h.reported_later hwritten hold ⟨haccepts other, fun hresumable ↦ ?_⟩ fun current hcurrent ↦ ?_
      · exact (hturn.resumable other hresumable).resolve_right fun hown ↦ hother hown.1.symm
      · rcases hturn.cases hafter hcurrent with hmove | hkept
        · exact .inr (hmove.payload ▸ hother)
        · exact .inl (hrest current hkept).1
    · have howned := h.owned file hmem
      refine ⟨howned.requested.later hwritten,
        (howned.untouched (by simp [hphase])).later hwritten (haccepts _) ?_, ?_⟩
      · exact fun hresumable ↦ (hturn.resumable _ hresumable).resolve_right fun hown ↦
          by simp [hphase] at hown
      · intro current hcurrent
        rw [hgone] at hafter
        exact (hrest current (hafter.mem_iff.mp hcurrent)).2
  · refine complete_later h hwritten fun other hcomplete _ ↦ ?_
    obtain ⟨hframes, rfl, hphase⟩ := hturn.move.complete hcomplete
    exact ⟨hframes, _, h.whole file hmem (hphase ▸ trivial), hannounced hphase⟩

/-- Every event keeps the calls of `sendFile` tracked. -/
theorem tracked_step (h : c.Tracked) {event : ControlEvent} (hannounces : c.Announces event) :
    (c.step event).Tracked := by
  have hseparate := separate_step h.toSeparate hannounces.1
  cases turn_step c event with
  | batch hframes hfiles hwrites =>
    refine h.of_frames hseparate hwrites.written hfiles hwrites.resumable hwrites.reports ?_ ?_
    · intro transferId _ frame hframe
      simp [hframes frame hframe]
    · intro transferId hmem
      exact nomatch hframes _ hmem
  | begins hid hfiles hbegins =>
    exact h.of_begins hseparate hbegins hfiles (hannounces.1 _ hid).1
  | file hturn hbefore hafter hmove =>
    exact h.of_file hseparate hbefore hafter hmove (hannounces.2 _ hturn)
  | launches hlaunched hresumes hidle =>
    have hfiles : (c.step event).files = c.files := congrArg (List.filterMap SendJob.file) hidle.jobs
    exact h.of_frames hseparate hidle.written (.of_eq hfiles) hidle.resumable hidle.reports (by simp)
      (by simp)
  | resume _ hbefore hafter hturn =>
    obtain ⟨frames, hmove, hwrites⟩ := hturn
    have hfiles : (c.step event).files = c.files := congrArg (List.filterMap SendJob.file) hwrites.jobs
    have hmem := hbefore.mem_iff.mpr List.mem_cons_self
    refine h.of_frames hseparate hwrites.written (.of_eq hfiles) hwrites.resumable hwrites.reports
      (fun _ hsafe ↦ h.toSeparate.resume_frames hmem hmove hsafe) ?_
    intro transferId hcomplete
    cases hmove with
    | completes hphase =>
      obtain rfl := OutgoingFrame.transferComplete.inj (List.mem_singleton.mp hcomplete)
      exact (h.resumes _ hmem (by simp [hphase])).later hwrites.written
    | waits | accepts | rejects | opens | chunk | ends | returns => simp at hcomplete

/-- A success is reported in the turn of `sendFile` after TRANSFER_COMPLETE only. -/
theorem reports_step {event : ControlEvent} (h : (c.step event).Reports transferId) :
    c.Reports transferId ∨
      ∃ file ∈ c.turnOf event, transferId = file.payload.transferId ∧ file.phase = .ending true := by
  cases turn_step c event with
  | batch _ _ hwrites => exact .inl (hwrites.reports _ h)
  | begins _ _ hbegins => exact .inl (hbegins.reports _ h)
  | file hturn _ _ hmove =>
    exact (hmove.reports _ h).imp_right fun hown ↦ ⟨_, hturn, hown.1, hown.2.1⟩
  | launches _ _ hidle => exact .inl (hidle.reports _ h)
  | resume _ _ _ hturn =>
    obtain ⟨frames, -, hwrites⟩ := hturn
    exact .inl (hwrites.reports _ h)

end Step

end FerryControlClient

/-! ## The two sides -/

open OpenTransfer

/-- The sender, and the receiver with the number of frames that have reached it, what it has open, what
it kept of earlier sessions, and the results that it has sent. -/
structure Exchange where
  sender : FerryControlClient
  delivered : ℕ
  transfers : Text → Option OpenTransfer
  kept : Text → Option OpenTransfer
  results : List (Text × Bool)

/-- An event of the sender, whatever the receiver sends; the arrival of a frame, which the receiver may
fail to work off; a transfer that the receiver cancels; the end of a session. -/
inductive ExchangeEvent
  | sender (event : ControlEvent)
  | deliver (works : Bool)
  | drop (transferId : Text)
  | disconnect

namespace Exchange

/-- Both sides before the first session. -/
def new (sender : FerryControlClient) : Exchange := ⟨sender, 0, fun _ ↦ none, fun _ ↦ none, []⟩

/-- The receiver's transfers after a frame. -/
def receive (x : Exchange) (frame : OutgoingFrame) (works : Bool) : Text → Option OpenTransfer :=
  match frame.transfer with
  | none => x.transfers
  | some transferId => Function.update x.transfers transferId
      (if works then after (x.kept transferId) (x.transfers transferId) frame else none)

/-- TRANSFER_RESULT for a transfer that the receiver has open. -/
def answer (x : Exchange) (works : Bool) : OutgoingFrame → List (Text × Bool)
  | .transferComplete transferId => (x.transfers transferId).toList.map fun t ↦
      (transferId, t.verdict works)
  | _ => []

/-- The frame that arrives next. -/
def next (x : Exchange) : Option OutgoingFrame := x.sender.written[x.delivered]?

/-- One event. -/
def step (x : Exchange) : ExchangeEvent → Exchange
  | .sender event => { x with sender := x.sender.step event }
  | .deliver works =>
    match x.next with
    | none => x
    | some frame => { x with
        delivered := x.delivered + 1
        transfers := x.receive frame works
        results := x.answer works frame ++ x.results }
  | .drop transferId => { x with transfers := Function.update x.transfers transferId none }
  | .disconnect => { x with
      delivered := x.sender.written.length
      transfers := fun _ ↦ none
      kept := fun transferId ↦ (x.transfers transferId).or (x.kept transferId) }

def run (x : Exchange) (events : List ExchangeEvent) : Exchange := events.foldl step x

/-- The sender reports a success only for files that the receiver has verified and stored, and for none
that it has not. -/
def Faithful (x : Exchange) : Prop :=
  ∀ transferId, x.sender.Reports transferId →
    (transferId, true) ∈ x.results ∧ (transferId, false) ∉ x.results

/-- The receiver has sent its result when `sendFile` takes its last turn after TRANSFER_COMPLETE. -/
def Awaited (x : Exchange) (event : ControlEvent) : Prop :=
  ∀ file ∈ x.sender.turnOf event, file.phase = .ending true →
    file.payload.transferId ∈ x.results.map Prod.fst

/-- The condition: what is streamed is what was announced, the receiver can store it, and it is faster
than `sendFile`. -/
def Orderly (x : Exchange) : ExchangeEvent → Prop
  | .sender event => x.sender.Announces event ∧ x.Awaited event
  | .deliver works => ∀ frame ∈ x.next, works = true ∨ ∀ transferId, frame ≠ .transferComplete transferId
  | .drop _ | .disconnect => True

instance (x : Exchange) (event : ControlEvent) : Decidable (x.Awaited event) :=
  inferInstanceAs (Decidable (∀ file ∈ x.sender.turnOf event, _))

/-- Every event of a run meets the condition in the state in which it happens. -/
def OrderlyRun (x : Exchange) : List ExchangeEvent → Prop
  | [] => True
  | event :: events => x.Orderly event ∧ (x.step event).OrderlyRun events

/-! ## One step -/

/-- What the receiver has open is what the frames so far make of it, and what it refuses was resumed. -/
structure Sound (x : Exchange) : Prop where
  tracked : x.sender.Tracked
  delivered : x.delivered ≤ x.sender.written.length
  transfers : ∀ transferId t, ¬x.sender.Accepted transferId → x.transfers transferId = some t →
    replay transferId (x.sender.written.take x.delivered) = some t
  results : ∀ transferId value, (transferId, value) ∈ x.results → ¬x.sender.Accepted transferId →
    value = true
  reported : ∀ transferId, x.sender.Reports transferId → transferId ∈ x.results.map Prod.fst

variable {x : Exchange}

/-- The result of a transfer that was not resumed. -/
theorem Sound.faithful (h : x.Sound) : x.Faithful := by
  intro transferId hreports
  obtain ⟨-, huntouched, -⟩ := h.tracked.reported transferId hreports
  obtain ⟨⟨_, value⟩, hmem, rfl⟩ := List.mem_map.mp (h.reported transferId hreports)
  refine ⟨h.results _ value hmem huntouched.1 ▸ hmem, fun hfalse ↦ ?_⟩
  exact nomatch h.results _ false hfalse huntouched.1

theorem Sound.sender (h : x.Sound) {event : ControlEvent} (hannounces : x.sender.Announces event)
    (hawaited : x.Awaited event) : (x.step (.sender event)).Sound := by
  obtain ⟨frames, hwritten⟩ := FerryControlClient.written_step x.sender event
  have hbefore {transferId : Text} (haccepted : ¬(x.sender.step event).Accepted transferId) :
      ¬x.sender.Accepted transferId := fun hold ↦ haccepted (hold.later hwritten)
  refine ⟨FerryControlClient.tracked_step h.tracked hannounces, ?_, ?_, ?_, ?_⟩
  · change x.delivered ≤ (x.sender.step event).written.length
    rw [hwritten, List.length_append]
    exact Nat.le_add_right_of_le h.delivered
  · intro transferId t haccepted ht
    change replay transferId ((x.sender.step event).written.take x.delivered) = some t
    rw [hwritten, List.take_append_of_le_length h.delivered]
    exact h.transfers transferId t (hbefore haccepted) ht
  · exact fun transferId value hmem haccepted ↦ h.results transferId value hmem (hbefore haccepted)
  · intro transferId hreports
    rcases FerryControlClient.reports_step hreports with hold | ⟨file, hturn, rfl, hphase⟩
    · exact h.reported transferId hold
    · exact hawaited file hturn hphase

/-- The receiver's transfer after a frame. -/
theorem receive_cases {frame : OutgoingFrame} {works : Bool} {transferId : Text} {t : OpenTransfer}
    (h : x.receive frame works transferId = some t) :
    (frame.transfer ≠ some transferId ∧ x.transfers transferId = some t) ∨
      frame.transfer = some transferId ∧
        after (x.kept transferId) (x.transfers transferId) frame = some t := by
  unfold receive at h
  cases hframe : frame.transfer with
  | none =>
    rw [hframe] at h
    exact .inl ⟨nofun, h⟩
  | some named =>
    rw [hframe] at h
    dsimp only at h
    by_cases hid : transferId = named
    · subst hid
      rw [Function.update_self] at h
      split at h
      · exact .inr ⟨rfl, h⟩
      · exact nomatch h
    · rw [Function.update_of_ne hid] at h
      exact .inl ⟨fun heq ↦ hid (Option.some.inj heq).symm, h⟩

/-- What the receiver kept matters for a resume only. -/
theorem after_kept {kept transfer : Option OpenTransfer} {frame : OutgoingFrame} {transferId : Text}
    (hframe : frame.transfer = some transferId) (haccepts : frame.accepts ≠ some transferId) :
    after kept transfer frame = after none transfer frame := by
  cases frame with
  | transferResumeAccept named resumeChunkIndex => exact absurd hframe haccepts
  | transferRequest | chunk | transferComplete | transferCancel | transferResumeReject | batchRequest
  | batchComplete | batchCancel => rfl

/-- A transfer that a frame leaves open follows from the one before, if there is one. -/
theorem after_of_none {frame : OutgoingFrame} {transferId : Text} {t : OpenTransfer}
    (hframe : frame.transfer = some transferId) (h : after none none frame = some t)
    (transfer : Option OpenTransfer) : after none transfer frame = some t := by
  cases frame with
  | transferRequest payload => exact h
  | transferResumeReject | batchRequest | batchComplete | batchCancel =>
    simp [OutgoingFrame.transfer] at hframe
  | chunk | transferComplete | transferCancel | transferResumeAccept => simp [after] at h

theorem Sound.deliver (h : x.Sound) {works : Bool}
    (hworks : ∀ frame ∈ x.next, works = true ∨ ∀ transferId, frame ≠ .transferComplete transferId) :
    (x.step (.deliver works)).Sound := by
  cases hnext : x.next with
  | none =>
    rw [step, hnext]
    exact h
  | some frame =>
    rw [step, hnext]
    have hget : x.sender.written[x.delivered]? = some frame := hnext
    obtain ⟨hlt, hframe⟩ := List.getElem?_eq_some_iff.mp hget
    have htake : x.sender.written.take (x.delivered + 1) =
        x.sender.written.take x.delivered ++ [frame] := by
      rw [List.take_succ_eq_append_getElem hlt, hframe]
    have haccepts {transferId : Text} (haccepted : ¬x.sender.Accepted transferId) :
        frame.accepts ≠ some transferId := by
      intro heq
      exact haccepted (List.mem_map.mpr ⟨frame, List.mem_of_getElem? hget, heq⟩)
    refine ⟨h.tracked, hlt, ?_, ?_, ?_⟩
    · intro transferId t haccepted ht
      change replay transferId (x.sender.written.take (x.delivered + 1)) = some t
      rw [htake, replay_concat]
      rcases receive_cases ht with ⟨hother, hold⟩ | ⟨hown, hafter⟩
      · rw [follow, if_neg hother]
        exact h.transfers transferId t haccepted hold
      · rw [follow, if_pos hown]
        rw [after_kept hown (haccepts haccepted)] at hafter
        cases hold : x.transfers transferId with
        | none => exact after_of_none hown (hold ▸ hafter) _
        | some open' => rw [h.transfers transferId open' haccepted hold, ← hold, hafter]
    · intro transferId value hmem haccepted
      rcases List.mem_append.mp hmem with hnew | hold
      · cases frame with
        | transferComplete named =>
          obtain ⟨t, ht, hpair⟩ := List.mem_map.mp hnew
          obtain ⟨rfl, rfl⟩ := Prod.mk.inj hpair
          obtain rfl : works = true := (hworks _ hnext).resolve_right fun hne ↦ hne named rfl
          obtain ⟨t', ht', hhash⟩ := h.tracked.complete x.delivered named hget haccepted
          have hreplay := h.transfers named t haccepted (Option.mem_toList.mp ht)
          obtain rfl : t' = t := Option.some.inj (ht'.symm.trans hreplay)
          rw [verdict, hhash, Sha256.asciiLower_hexdigest]
          simp
        | transferRequest | chunk | transferCancel | transferResumeAccept | transferResumeReject
        | batchRequest | batchComplete | batchCancel => simp [answer] at hnew
      · exact h.results transferId value hold haccepted
    · intro transferId hreports
      rw [List.map_append]
      exact List.mem_append_right _ (h.reported transferId hreports)

/-- Every event that meets the condition. -/
theorem Sound.step (h : x.Sound) {event : ExchangeEvent} (horderly : x.Orderly event) :
    (x.step event).Sound := by
  cases event with
  | sender event => exact h.sender horderly.1 horderly.2
  | deliver works => exact h.deliver horderly
  | drop dropped =>
    refine ⟨h.tracked, h.delivered, fun transferId t haccepted ht ↦ ?_, h.results, h.reported⟩
    have hupdate : Function.update x.transfers dropped none transferId = some t := ht
    by_cases hid : transferId = dropped
    · rw [hid, Function.update_self] at hupdate
      exact nomatch hupdate
    · rw [Function.update_of_ne hid] at hupdate
      exact h.transfers transferId t haccepted hupdate
  | disconnect => exact ⟨h.tracked, le_rfl, nofun, h.results, h.reported⟩

/-- Nothing has been sent. -/
theorem sound_new (receiving : TransferClient) (publicKeyB64 : Text) (store : InterruptedTransferStore) :
    (new (FerryControlClient.new receiving publicKeyB64 store)).Sound where
  tracked := by
    refine ⟨⟨?_, ?_, ?_⟩, ?_, ?_, ?_⟩ <;>
      simp [new, FerryControlClient.new, FerryControlClient.files, FerryControlClient.Reports]
  delivered := Nat.zero_le _
  transfers := nofun
  results := by simp [new]
  reported := by simp [new, FerryControlClient.new, FerryControlClient.Reports]

/-! ## Every run -/

/-- In a run whose events meet the condition, `sendFile` reports a success for a file only when the
receiver has verified and stored it. -/
theorem faithful_of_orderly (receiving : TransferClient) (publicKeyB64 : Text)
    (store : InterruptedTransferStore) (events : List ExchangeEvent)
    (h : (new (FerryControlClient.new receiving publicKeyB64 store)).OrderlyRun events) :
    ((new (FerryControlClient.new receiving publicKeyB64 store)).run events).Faithful := by
  have hrun : ∀ (events : List ExchangeEvent) (x : Exchange), x.Sound → x.OrderlyRun events →
      (x.run events).Sound := by
    intro events
    induction events with
    | nil => exact fun x hx _ ↦ hx
    | cons event events ih =>
      rintro x hx ⟨horderly, hrest⟩
      exact ih _ (hx.step horderly) hrest
  exact (hrun events _ (sound_new receiving publicKeyB64 store) h).faithful

/-- `sendFile` for a file of one byte, up to TRANSFER_COMPLETE, with the byte that its second read finds. -/
def sampleStream (byte : UInt8) : List ExchangeEvent :=
  [.sender (.startSession (Text.lit "peer") true),
    .sender (.sendFile 0 (Text.lit "content://b") FerryControlClient.sampleOutgoingId
      FerryControlClient.sampleSource),
    .sender (.goOn 0 0 .turn),
    .sender (.frame 0 (.message (.transferAccept FerryControlClient.sampleOutgoingId))),
    .sender (.goOn 0 0 .turn), .sender (.goOn 0 0 (.data [byte])), .sender (.goOn 0 0 .eof),
    .sender (.goOn 0 0 .turn)]

/-- The receiver gets all frames before `sendFile` returns. -/
def sampleSent (byte : UInt8) : List ExchangeEvent :=
  sampleStream byte ++ [.deliver true, .deliver true, .deliver true, .sender (.goOn 0 0 .turn)]

theorem faithful_of_orderly_sample :
    ((new FerryControlClient.sampleClient).run (sampleSent 0)).sender.Reports
        FerryControlClient.sampleOutgoingId ∧
      ((new FerryControlClient.sampleClient).run (sampleSent 0)).Faithful := by
  have hworks {x : Exchange} : x.Orderly (.deliver true) := fun _ _ ↦ .inl rfl
  refine ⟨.inl (by decide +kernel), faithful_of_orderly (TransferClient.new
    TransferClient.sampleStagingDir TransferClient.sampleDisk true []) [] ∅ (sampleSent 0) ?_⟩
  refine ⟨?_, ?_, ?_, ?_, ?_, ?_, ?_, ?_, hworks, hworks, hworks, ?_, trivial⟩
  all_goals exact ⟨by decide +kernel, by decide +kernel⟩

/-- The content changes after the hash of the request was computed: the receiver finds the wrong digest,
and `sendFile` returns `true`.  It also does when no frame has arrived yet. -/
theorem success_without_delivery :
    ¬((new FerryControlClient.sampleClient).run (sampleSent 1)).Faithful ∧
      ¬((new FerryControlClient.sampleClient).run
        (sampleStream 0 ++ [.sender (.goOn 0 0 .turn)])).Faithful := by
  constructor
  · intro h
    have hrefused := (h FerryControlClient.sampleOutgoingId (.inl (by decide +kernel))).2
    exact hrefused (by decide +kernel)
  · intro h
    have hverified := (h FerryControlClient.sampleOutgoingId (.inl (by decide +kernel))).1
    exact absurd hverified (by decide +kernel)

end Exchange

end Ferry
