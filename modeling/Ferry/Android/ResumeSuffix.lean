import Ferry.Android.ChunkCodec
import Ferry.Android.SendTurns

/-!
# The suffix that a resume serves

One coroutine of `onResumeRequest` from its launch to its end, while other parts of the client run between
its turns.  The offset is used for the hash and for `skip`, the number of the chunk only for the frames, and
the two are not compared.
-/

namespace Ferry

open Exec

namespace FerryControlClient

/-! ## The coroutine and its turns -/

/-- The payload of TRANSFER_RESUME_REQUEST as `handleTransferMessage` reads it. -/
structure ResumeRequest where
  transferId : Text
  resumeChunkIndex : ℤ
  resumeOffsetBytes : ℤ
  partialSha256 : Text

/-- The coroutine that a request launches. -/
def ResumeRequest.launched (request : ResumeRequest) (session : ℕ) : ResumeSend :=
  ⟨session, request.transferId, request.resumeChunkIndex,
    Kotlin.TransferMetadata.toInt32 request.resumeOffsetBytes, request.partialSha256,
    request.resumeChunkIndex, .launched⟩

theorem launchResume_run (request : ResumeRequest) (c : FerryControlClient) :
    launchResume request.transferId request.resumeChunkIndex request.resumeOffsetBytes
      request.partialSha256 c =
      (.ok (), { c with resumeSends := c.resumeSends ++ [request.launched c.sessions] }) :=
  rfl

/-- A turn of a coroutine: the client as it finds it, the time, and what it is given. -/
structure CoroutineTurn where
  client : FerryControlClient
  now : ℤ
  input : SendInput

/-- The session lives, the write succeeds and no cancel is set. -/
def CoroutineTurn.Calm (turn : CoroutineTurn) (session : ℕ) : Prop :=
  ¬turn.client.WriteFails session ∧ turn.client.outgoingCancelled = false

/-- What the coroutine writes in its turns. -/
def conversation : List CoroutineTurn → ResumeSend → List OutgoingFrame
  | [], _ => []
  | turn :: turns, resume =>
    let result := goOnResume turn.now turn.input resume turn.client
    let frames := result.2.written.drop turn.client.written.length
    match result.1 with
    | .ok (.goesOn next) => frames ++ conversation turns next
    | .ok .waits => frames ++ conversation turns resume
    | _ => frames

/-- The turns of a coroutine that meets no cancel and no failure: it reads the content for the hash,
opens it again and skips some of it, and reads the rest in pieces. -/
structure ResumeScript (content : Bytes) where
  session : ℕ
  verifying : CoroutineTurn
  turns : List CoroutineTurn
  transferId : Text
  source : SourceFile
  skipped : ℕ
  reads : List Bytes
  verifies : verifying.input = .item transferId source
  content_eq : source.content = some content
  inputs : turns.map CoroutineTurn.input = .opened (some skipped) :: (reads.map .data ++ [.eof, .turn])
  calm : ∀ turn ∈ verifying :: turns, turn.Calm session
  whole : reads.flatten = content.drop skipped
  sizes : ∀ data ∈ reads, data ≠ [] ∧ data.length ≤ chunkSizeDefault

/-- The frames that the coroutine of a request writes. -/
def ResumeScript.frames {content : Bytes} (script : ResumeScript content) (request : ResumeRequest) :
    List OutgoingFrame :=
  conversation (script.verifying :: script.turns) (request.launched script.session)

/-! ## The property -/

/-- Chunks with the numbers from `seq` on. -/
def numberedChunks (transferId : Text) : ℤ → List Bytes → List OutgoingFrame
  | _, [] => []
  | seq, data :: rest =>
    .chunk transferId seq data ::
      numberedChunks transferId (Kotlin.TransferMetadata.toInt32 (seq + 1)) rest

/-- The frames accept a transfer. -/
def Accepting (transferId : Text) (frames : List OutgoingFrame) : Prop :=
  ∃ index, .transferResumeAccept transferId index ∈ frames

/-- ACCEPT is sent only for the hash of the content before the offset and the number of the chunk at it,
and is followed by the rest of the content and TRANSFER_COMPLETE.  Otherwise there is a REJECT. -/
structure ServesSuffix (content : Bytes) (request : ResumeRequest) (frames : List OutgoingFrame) :
    Prop where
  verified : Accepting request.transferId frames →
    0 ≤ request.resumeOffsetBytes ∧ request.resumeOffsetBytes ≤ content.length ∧
      request.partialSha256 = Sha256.hexdigest (content.take request.resumeOffsetBytes.toNat)
  aligned : Accepting request.transferId frames →
    request.resumeChunkIndex * chunkSizeDefault = request.resumeOffsetBytes
  suffix : Accepting request.transferId frames →
    ∃ chunks : List Bytes, chunks.flatten = content.drop request.resumeOffsetBytes.toNat ∧
      frames = .transferResumeAccept request.transferId request.resumeChunkIndex ::
        (numberedChunks request.transferId request.resumeChunkIndex chunks ++
          [.transferComplete request.transferId])
  rejected : ¬Accepting request.transferId frames →
    ∃ reason, .transferResumeReject request.transferId reason ∈ frames

/-! ## The condition -/

/-- The offset is an `Int`, the start of the named chunk, and all of it is skipped. -/
structure Consistent (request : ResumeRequest) (skipped : ℕ) : Prop where
  range : 0 ≤ request.resumeOffsetBytes ∧ request.resumeOffsetBytes < 2 ^ 31
  aligned : request.resumeChunkIndex * chunkSizeDefault = request.resumeOffsetBytes
  skips : (skipped : ℤ) = request.resumeOffsetBytes

/-! ## Single turns -/

/-- A turn that returns with a progress and writes some frames. -/
def Says (turn : CoroutineTurn) (resume : ResumeSend) (progress : Progress ResumeSend)
    (frames : List OutgoingFrame) : Prop :=
  wp (goOnResume turn.now turn.input resume)
    (fun r c ↦ r = .ok progress ∧ c.written = turn.client.written ++ frames) turn.client

variable {turn : CoroutineTurn} {resume : ResumeSend} {frames : List OutgoingFrame}

theorem conversation_goesOn {next : ResumeSend} (h : Says turn resume (.goesOn next) frames)
    (turns : List CoroutineTurn) :
    conversation (turn :: turns) resume = frames ++ conversation turns next := by
  obtain ⟨hresult, hwritten⟩ := h
  rw [conversation]
  simp only [hresult, hwritten, List.drop_left]

theorem conversation_returns {value : Bool} (h : Says turn resume (.returns value) frames)
    (turns : List CoroutineTurn) : conversation (turn :: turns) resume = frames := by
  obtain ⟨hresult, hwritten⟩ := h
  rw [conversation]
  simp only [hresult, hwritten, List.drop_left]

theorem wp_write_calm {session : ℕ} {c : FerryControlClient} (h : ¬c.WriteFails session)
    (frame : OutgoingFrame) :
    wp (write session frame) (fun r c' ↦ r = .ok () ∧ c'.written = c.written ++ [frame]) c := by
  apply wp_mono (wp_write session frame c)
  intro r c' hr
  cases r with
  | error e => exact absurd (hr.2 e rfl).2 h
  | ok u => exact ⟨rfl, (hr.1 u rfl).written⟩

theorem wp_rejectResume_calm (h : ¬turn.client.WriteFails resume.session) {c : FerryControlClient}
    (hfails : c.WriteFails resume.session → turn.client.WriteFails resume.session) (reason : String) :
    wp (rejectResume resume reason) (fun r c' ↦ r = .ok (.returns false) ∧
      c'.written = c.written ++ [.transferResumeReject resume.transferId reason]) c := by
  unfold rejectResume
  have hwrite := wp_write_calm (fun hf ↦ h (hfails hf)) (.transferResumeReject resume.transferId reason)
  apply wp_bind_of (P := fun r c' ↦ r = .ok () ∧
      c'.written = c.written ++ [.transferResumeReject resume.transferId reason])
  · apply wp_tryCatch_of hwrite
    · exact fun e c' he ↦ (nomatch he.1)
    · exact fun u c' hc ↦ ⟨rfl, hc.2⟩
  · exact fun e c' he ↦ (nomatch he.1)
  · exact fun u c' hc ↦ ⟨rfl, hc.2⟩

variable {content : Bytes}

/-- The coroutine verifies its request. -/
def VerifiesPrefix (content : Bytes) (turn : CoroutineTurn) (resume : ResumeSend) : Prop :=
  ((turn.client.interruptedStore.load turn.now resume.transferId).1.bind
    InterruptedRecord.contentUriString).isSome ∧
  computePrefixSha256FromUri (some content) resume.resumeOffsetBytes = some resume.partialSha256

theorem goOnResume_launched {now : ℤ} {transferId : Text} {source : SourceFile}
    (hphase : resume.phase = .launched) :
    goOnResume now (.item transferId source) resume = verifyPrefix now source.content resume := by
  rw [goOnResume, hphase]

/-- Without the URI of a record the transfer is not found. -/
theorem says_notFound {transferId : Text} {source : SourceFile}
    (hcalm : ¬turn.client.WriteFails resume.session) (hphase : resume.phase = .launched)
    (hinput : turn.input = .item transferId source)
    (huri : (turn.client.interruptedStore.load turn.now resume.transferId).1.bind
      InterruptedRecord.contentUriString = none) :
    Says turn resume (.returns false) [.transferResumeReject resume.transferId "TRANSFER_NOT_FOUND"] := by
  rw [Says, hinput, goOnResume_launched hphase]
  set loaded := turn.client.interruptedStore.load turn.now resume.transferId with hloaded
  have hfails : FerryControlClient.WriteFails { turn.client with interruptedStore := loaded.2 }
      resume.session → turn.client.WriteFails resume.session := id
  unfold verifyPrefix update
  rw [wp_get_bind]
  dsimp only
  rw [← hloaded, wp_modify_bind, huri]
  exact wp_rejectResume_calm hcalm hfails _

/-- The first turn accepts what it verifies and rejects the rest. -/
theorem says_verify (resume : ResumeSend) {transferId : Text} {source : SourceFile}
    (hcalm : turn.Calm resume.session) (hphase : resume.phase = .launched)
    (hinput : turn.input = .item transferId source) (hcontent : source.content = some content) :
    (VerifiesPrefix content turn resume → ∃ uri, Says turn resume
      (.goesOn { resume with phase := .accepted uri })
      [.transferResumeAccept resume.transferId resume.resumeChunkIndex]) ∧
    (¬VerifiesPrefix content turn resume → ∃ reason, Says turn resume (.returns false)
      [.transferResumeReject resume.transferId reason]) := by
  have hsays : ∀ progress frames, wp (verifyPrefix turn.now (some content) resume)
      (fun r c ↦ r = .ok progress ∧ c.written = turn.client.written ++ frames) turn.client →
      Says turn resume progress frames := fun progress frames h ↦ by
    rwa [Says, hinput, goOnResume_launched hphase, hcontent]
  cases huri : (turn.client.interruptedStore.load turn.now resume.transferId).1.bind
      InterruptedRecord.contentUriString with
  | none =>
    refine ⟨fun hverifies ↦ ?_, fun _ ↦ ⟨_, says_notFound hcalm.1 hphase hinput huri⟩⟩
    rw [VerifiesPrefix, huri] at hverifies
    exact nomatch hverifies.1
  | some uri =>
    set loaded := turn.client.interruptedStore.load turn.now resume.transferId with hloaded
    set c : FerryControlClient := { turn.client with interruptedStore := loaded.2 } with hc
    have hfails : c.WriteFails resume.session → turn.client.WriteFails resume.session := id
    by_cases hprefix : computePrefixSha256FromUri (some content) resume.resumeOffsetBytes =
        some resume.partialSha256
    · refine ⟨fun _ ↦ ⟨uri, hsays _ _ ?_⟩, fun hnot ↦ absurd ⟨?_, hprefix⟩ hnot⟩
      · unfold verifyPrefix update
        rw [wp_get_bind]
        dsimp only
        rw [← hloaded, wp_modify_bind, huri]
        dsimp only
        rw [wp_ite]
        refine ⟨fun hne ↦ absurd hprefix hne, fun _ ↦ ?_⟩
        have hwrite := wp_write_calm (fun hf ↦ hcalm.1 (hfails hf))
          (.transferResumeAccept resume.transferId resume.resumeChunkIndex)
        apply wp_tryCatch_of (P := fun r c' ↦ r = .ok (.goesOn { resume with phase := .accepted uri }) ∧
          c'.written = c.written ++ [.transferResumeAccept resume.transferId resume.resumeChunkIndex])
        · apply wp_bind_of hwrite
          · exact fun e c' he ↦ (nomatch he.1)
          · exact fun u c' hc' ↦ ⟨rfl, hc'.2⟩
        · exact fun e c' he ↦ (nomatch he.1)
        · exact fun progress c' hc' ↦ hc'
      · rw [← hloaded, huri]
        rfl
    · refine ⟨fun hverifies ↦ absurd hverifies.2 hprefix, fun _ ↦ ⟨"PARTIAL_CORRUPT", hsays _ _ ?_⟩⟩
      unfold verifyPrefix update
      rw [wp_get_bind]
      dsimp only
      rw [← hloaded, wp_modify_bind, huri]
      dsimp only
      rw [wp_ite]
      exact ⟨fun _ ↦ wp_rejectResume_calm hcalm.1 hfails _, fun heq ↦ absurd (not_not.mp heq) hprefix⟩

/-- The `finally` keeps what its block returns and writes nothing. -/
theorem wp_forgetRecord {m : Action (Progress ResumeSend)} {progress : Progress ResumeSend}
    {c : FerryControlClient}
    (h : wp m (fun r c' ↦ r = .ok progress ∧ c'.written = c.written ++ frames) c) :
    wp (forgetRecord resume m) (fun r c' ↦ r = .ok progress ∧ c'.written = c.written ++ frames) c := by
  unfold forgetRecord
  apply wp_bind_of (P := fun r c' ↦ r = .ok progress ∧ c'.written = c.written ++ frames)
  · apply wp_tryCatch_of h
    · exact fun e c' he ↦ (nomatch he.1)
    · exact fun progress c' hc ↦ hc
  · exact fun e c' he ↦ (nomatch he.1)
  · rintro _ c' ⟨⟨⟩, hwritten⟩
    cases progress with
    | waits | goesOn _ | returns _ => exact ⟨rfl, hwritten⟩

/-- The content is opened again, and streamed when the offset was skipped. -/
theorem says_opened (resume : ResumeSend) {uri : Text} {skipped : ℤ} (hphase : resume.phase = .accepted uri)
    (hinput : turn.input = .opened (some skipped)) :
    (skipped = resume.resumeOffsetBytes → Says turn resume (.goesOn { resume with phase := .streaming }) []) ∧
    (skipped ≠ resume.resumeOffsetBytes → Says turn resume (.returns false) []) := by
  have hgo : goOnResume turn.now turn.input resume = forgetRecord resume
      (if skipped = resume.resumeOffsetBytes then return .goesOn { resume with phase := .streaming }
        else return .returns false) := by
    rw [hinput]
    unfold goOnResume
    rw [hphase]
  constructor
  · intro hskipped
    rw [Says, hgo, if_pos hskipped]
    exact wp_forgetRecord ⟨rfl, (List.append_nil _).symm⟩
  · intro hskipped
    rw [Says, hgo, if_neg hskipped]
    exact wp_forgetRecord ⟨rfl, (List.append_nil _).symm⟩

theorem goOnResume_streaming {now : ℤ} {input : SendInput} (hphase : resume.phase = .streaming) :
    goOnResume now input resume = forgetRecord resume (streamResumed resume input) := by
  unfold goOnResume
  rw [hphase]

theorem says_data {data : Bytes} (hcalm : turn.Calm resume.session) (hphase : resume.phase = .streaming)
    (hinput : turn.input = .data data) :
    Says turn resume
      (.goesOn { resume with seq := Kotlin.TransferMetadata.toInt32 (resume.seq + 1) })
      [.chunk resume.transferId resume.seq (data.take chunkSizeDefault)] := by
  rw [Says, goOnResume_streaming hphase, hinput]
  apply wp_forgetRecord
  unfold streamResumed
  rw [wp_get_bind, hcalm.2]
  apply wp_bind_of (wp_write_calm hcalm.1 (.chunk resume.transferId resume.seq (data.take chunkSizeDefault)))
  · exact fun e c' he ↦ (nomatch he.1)
  · exact fun u c' hc ↦ ⟨rfl, hc.2⟩

theorem says_eof (hcalm : turn.Calm resume.session) (hphase : resume.phase = .streaming)
    (hinput : turn.input = .eof) : Says turn resume (.goesOn { resume with phase := .streamed }) [] := by
  rw [Says, goOnResume_streaming hphase, hinput]
  apply wp_forgetRecord
  unfold streamResumed
  rw [wp_get_bind, hcalm.2]
  exact ⟨rfl, (List.append_nil _).symm⟩

theorem says_complete (resume : ResumeSend) (hcalm : turn.Calm resume.session)
    (hphase : resume.phase = .streamed) :
    Says turn resume (.returns true) [.transferComplete resume.transferId] := by
  unfold Says goOnResume
  rw [hphase]
  apply wp_forgetRecord
  apply wp_bind_of (wp_write_calm hcalm.1 _)
  · exact fun e c' he ↦ (nomatch he.1)
  · exact fun u c' hc ↦ ⟨rfl, hc.2⟩

/-! ## The whole conversation -/

theorem conversation_streaming (resume : ResumeSend) {reads : List Bytes} {turns : List CoroutineTurn}
    (hinputs : turns.map CoroutineTurn.input = reads.map .data ++ [.eof, .turn])
    (hcalm : ∀ turn ∈ turns, turn.Calm resume.session) (hphase : resume.phase = .streaming)
    (hsizes : ∀ data ∈ reads, data.length ≤ chunkSizeDefault) :
    conversation turns resume = numberedChunks resume.transferId resume.seq reads ++
      [.transferComplete resume.transferId] := by
  induction reads generalizing turns resume with
  | nil =>
    obtain ⟨ending, turns, rfl, hending, hturns⟩ := List.map_eq_cons_iff.mp hinputs
    obtain ⟨last, turns, rfl, -, -⟩ := List.map_eq_cons_iff.mp hturns
    rw [conversation_goesOn (says_eof (hcalm ending List.mem_cons_self) hphase hending)]
    have hlast := hcalm last (List.mem_cons_of_mem _ List.mem_cons_self)
    rw [conversation_returns (says_complete { resume with phase := .streamed } hlast rfl)]
    rfl
  | cons data reads ih =>
    obtain ⟨turn, turns, rfl, hturn, hturns⟩ := List.map_eq_cons_iff.mp hinputs
    rw [conversation_goesOn (says_data (hcalm turn List.mem_cons_self) hphase hturn),
      List.take_of_length_le (hsizes data List.mem_cons_self)]
    rw [ih { resume with seq := Kotlin.TransferMetadata.toInt32 (resume.seq + 1) } hturns
      (fun other hother ↦ hcalm other (List.mem_cons_of_mem _ hother)) hphase
      fun other hother ↦ hsizes other (List.mem_cons_of_mem _ hother)]
    rfl

/-- The three ways a coroutine goes that meets no cancel and no failure. -/
theorem frames_eq (script : ResumeScript content) (request : ResumeRequest) :
    (¬VerifiesPrefix content script.verifying (request.launched script.session) →
      ∃ reason, script.frames request = [.transferResumeReject request.transferId reason]) ∧
    (VerifiesPrefix content script.verifying (request.launched script.session) →
      (script.skipped ≠ Kotlin.TransferMetadata.toInt32 request.resumeOffsetBytes →
        script.frames request = [.transferResumeAccept request.transferId request.resumeChunkIndex]) ∧
      (script.skipped = Kotlin.TransferMetadata.toInt32 request.resumeOffsetBytes →
        script.frames request = .transferResumeAccept request.transferId request.resumeChunkIndex ::
          (numberedChunks request.transferId request.resumeChunkIndex script.reads ++
            [.transferComplete request.transferId]))) := by
  have hverify := says_verify (request.launched script.session)
    (script.calm _ List.mem_cons_self) rfl script.verifies script.content_eq
  obtain ⟨opening, turns, hturns, hopening, hstreaming⟩ := List.map_eq_cons_iff.mp script.inputs
  have hcalm : ∀ turn ∈ opening :: turns, turn.Calm script.session := fun turn hturn ↦
    script.calm turn (List.mem_cons_of_mem _ (hturns ▸ hturn))
  constructor
  · intro hnot
    obtain ⟨reason, hsays⟩ := hverify.2 hnot
    exact ⟨reason, conversation_returns hsays _⟩
  · intro hverifies
    obtain ⟨uri, hsays⟩ := hverify.1 hverifies
    have hopened := says_opened { request.launched script.session with phase := .accepted uri } rfl hopening
    rw [ResumeScript.frames, conversation_goesOn hsays, hturns]
    constructor
    · intro hskipped
      rw [conversation_returns (hopened.2 hskipped)]
      rfl
    · intro hskipped
      rw [conversation_goesOn (hopened.1 hskipped), conversation_streaming _ hstreaming
        (fun turn hturn ↦ hcalm turn (List.mem_cons_of_mem _ hturn)) rfl
        fun data hdata ↦ (script.sizes data hdata).2]
      rfl

/-! ## The result -/

theorem numberedChunks_injective {transferId : Text} {chunks other : List Bytes} {seq : ℤ}
    (h : numberedChunks transferId seq chunks = numberedChunks transferId seq other) : chunks = other := by
  induction chunks generalizing other seq with
  | nil =>
    cases other with
    | nil => rfl
    | cons data rest => exact nomatch h
  | cons data rest ih =>
    cases other with
    | nil => exact nomatch h
    | cons data' rest' =>
      obtain ⟨hhead, htail⟩ := List.cons.inj h
      rw [ih htail, (OutgoingFrame.chunk.inj hhead).2.2]

/-- The hash of the content before an offset that is not behind its end. -/
theorem computePrefix_eq_some {offset : ℕ} {digest : Text} :
    computePrefixSha256FromUri (some content) offset = some digest ↔
      offset ≤ content.length ∧ digest = Sha256.hexdigest (content.take offset) := by
  unfold computePrefixSha256FromUri
  rw [Option.bind_some]
  by_cases h : (content.length : ℤ) < offset
  · rw [if_pos h]
    exact ⟨nofun, fun hle ↦ absurd hle.1 (by omega)⟩
  · rw [if_neg h, Option.some.injEq, Int.toNat_natCast, eq_comm]
    exact (and_iff_right (by omega)).symm

theorem accepting_cons {transferId : Text} {index : ℤ} {rest : List OutgoingFrame}
    (h : frames = .transferResumeAccept transferId index :: rest) : Accepting transferId frames :=
  ⟨index, h ▸ List.mem_cons_self⟩

/-- The coroutine serves the requested suffix exactly when what it verifies is a consistent request. -/
theorem servesSuffix_iff (content : Bytes) (request : ResumeRequest) (script : ResumeScript content) :
    ServesSuffix content request (script.frames request) ↔
      (VerifiesPrefix content script.verifying (request.launched script.session) →
        Consistent request script.skipped) := by
  obtain ⟨hrejects, haccepts⟩ := frames_eq script request
  constructor
  · intro h hverifies
    obtain ⟨hshort, hwhole⟩ := haccepts hverifies
    by_cases hskipped : script.skipped = Kotlin.TransferMetadata.toInt32 request.resumeOffsetBytes
    · have haccepting := accepting_cons (hwhole hskipped)
      obtain ⟨hnonneg, hle, -⟩ := h.verified haccepting
      obtain ⟨chunks, hchunks, hframes⟩ := h.suffix haccepting
      have hreads : script.reads = chunks := numberedChunks_injective
        (List.append_cancel_right (List.cons.inj ((hwhole hskipped).symm.trans hframes)).2)
      have hbefore : script.skipped ≤ content.length := by
        have hcomputed := hverifies.2
        simp only [ResumeRequest.launched, ← hskipped] at hcomputed
        exact (computePrefix_eq_some.mp hcomputed).1
      have hlengths := congrArg List.length (script.whole.symm.trans (hreads ▸ hchunks))
      rw [List.length_drop, List.length_drop] at hlengths
      have hskips : (script.skipped : ℤ) = request.resumeOffsetBytes := by omega
      refine ⟨⟨hnonneg, ?_⟩, h.aligned haccepting, hskips⟩
      rw [← hskips, hskipped, Kotlin.TransferMetadata.toInt32]
      exact Int.bmod_lt (by decide)
    · have haccepting := accepting_cons (hshort hskipped)
      obtain ⟨chunks, -, hframes⟩ := h.suffix haccepting
      have hempty := (List.cons.inj ((hshort hskipped).symm.trans hframes)).2
      exact absurd hempty.symm (List.append_ne_nil_of_right_ne_nil _ (List.cons_ne_nil _ _))
  · intro h
    by_cases hverifies : VerifiesPrefix content script.verifying (request.launched script.session)
    · obtain ⟨⟨hnonneg, hlt⟩, haligned, hskips⟩ := h hverifies
      have hsame : Kotlin.TransferMetadata.toInt32 request.resumeOffsetBytes = script.skipped := by
        rw [← hskips]
        exact toInt32_of_lt (by omega)
      have hnat : request.resumeOffsetBytes.toNat = script.skipped := by omega
      have hframes := (haccepts hverifies).2 hsame.symm
      have hcomputed := hverifies.2
      simp only [ResumeRequest.launched, hsame] at hcomputed
      obtain ⟨hle, hdigest⟩ := computePrefix_eq_some.mp hcomputed
      refine ⟨fun _ ↦ ⟨hnonneg, by omega, by rw [hnat, hdigest]⟩, fun _ ↦ haligned, fun _ ↦ ?_,
        fun hnot ↦ absurd (accepting_cons hframes) hnot⟩
      exact ⟨script.reads, by rw [hnat, script.whole], hframes⟩
    · obtain ⟨reason, hframes⟩ := hrejects hverifies
      have hnot : ¬Accepting request.transferId (script.frames request) := by
        rintro ⟨index, hmem⟩
        rw [hframes, List.mem_singleton] at hmem
        cases hmem
      exact ⟨fun haccept ↦ absurd haccept hnot, fun haccept ↦ absurd haccept hnot,
        fun haccept ↦ absurd haccept hnot,
        fun _ ↦ ⟨reason, hframes ▸ List.mem_singleton_self _⟩⟩

/-! ## An offset that is not that of the chunk -/

def servedContent : Bytes := [1, 2, 3]

/-- The record of a transfer of this content. -/
def servedRecord : InterruptedRecord where
  transferId := Text.lit "00000000-0000-0000-0000-000000000004"
  fileName := Text.lit "c.txt"
  fileSize := 3
  mimeType := Text.lit "text/plain"
  sha256 := Sha256.hexdigest servedContent
  chunkSize := chunkSizeDefault
  chunkCount := 1
  senderIdentity := []
  receiverIdentity := Text.lit "peer"
  originalMetadata := fun _ ↦ .other
  bytesReceived := 0
  resumeChunkIndex := 0
  partialSha256 := []
  interruptedAt := 0
  expireAt := 10
  direction := .outgoing
  contentUriString := some (Text.lit "content://c")

/-- A client in a session with this record. -/
def servingClient : FerryControlClient :=
  let receiving := TransferClient.new [Text.lit "staging"] ⟨fun _ ↦ none, fun _ ↦ []⟩ true []
  { new { receiving with running := true } [] (Dict.set ∅ servedRecord.transferId servedRecord) with
    sessionState := .established }

def servingTurn (input : SendInput) : CoroutineTurn := ⟨servingClient, 0, input⟩

theorem calm_servingTurn (input : SendInput) : (servingTurn input).Calm 0 := by
  refine ⟨?_, rfl⟩
  rintro ((hrunning | hsession) | hfault)
  · exact nomatch hrunning
  · exact hsession rfl
  · exact nomatch hfault

/-- The content is read in one piece from its start. -/
def servedScript : ResumeScript servedContent where
  session := 0
  verifying := servingTurn (.item [] ⟨[], 3, [], true, some servedContent⟩)
  turns := [servingTurn (.opened (some 0)), servingTurn (.data servedContent), servingTurn .eof,
    servingTurn .turn]
  transferId := []
  source := ⟨[], 3, [], true, some servedContent⟩
  skipped := 0
  reads := [servedContent]
  verifies := rfl
  content_eq := rfl
  inputs := rfl
  calm turn hturn := by
    simp only [List.mem_cons, List.not_mem_nil, or_false] at hturn
    rcases hturn with rfl | rfl | rfl | rfl | rfl <;> exact calm_servingTurn _
  whole := rfl
  sizes data hdata := by
    rw [List.mem_singleton.mp hdata]
    exact ⟨nofun, by decide⟩

def startRequest : ResumeRequest := ⟨servedRecord.transferId, 0, 0, Sha256.hexdigest []⟩

theorem servesSuffix_startRequest :
    ServesSuffix servedContent startRequest (servedScript.frames startRequest) :=
  (servesSuffix_iff servedContent startRequest servedScript).mpr fun _ ↦ ⟨by decide, by decide, rfl⟩

/-- A request that names chunk 1 at offset 0 is accepted, and the content is sent from its start under
the number 1. -/
theorem accepts_other_chunk :
    servedScript.frames { startRequest with resumeChunkIndex := 1 } =
      [.transferResumeAccept servedRecord.transferId 1, .chunk servedRecord.transferId 1 servedContent,
        .transferComplete servedRecord.transferId] ∧
    ¬ServesSuffix servedContent { startRequest with resumeChunkIndex := 1 }
      (servedScript.frames { startRequest with resumeChunkIndex := 1 }) := by
  have hframes : servedScript.frames { startRequest with resumeChunkIndex := 1 } =
      [.transferResumeAccept servedRecord.transferId 1, .chunk servedRecord.transferId 1 servedContent,
        .transferComplete servedRecord.transferId] := by decide +kernel
  exact ⟨hframes, fun h ↦ absurd (h.aligned (accepting_cons hframes)) (by decide)⟩

end FerryControlClient

end Ferry
