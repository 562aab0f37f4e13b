import Ferry.Android.ChunkCodec
import Ferry.Android.Ownership
import Ferry.Base.Chunks

/-!
# The client as the sender of a resumed transfer

`onResumeRequest` accepts for transfers that the client sent, and streams the content from the requested
chunk on.  It compares the hash of the prefix, but the offset of the prefix with the number of the chunk
does not, and every request gets a coroutine of its own.
-/

namespace Ferry

open Chunks

/-! ## Streams -/

/-- At most `n` chunks of a content from number `i` on. -/
def resumedChunks (transferId : Text) (content : Bytes) (i n : ℕ) : List OutgoingFrame :=
  (segment chunkSizeDefault content i n).map fun chunk ↦ .chunk transferId chunk.1 chunk.2

/-- The chunks of a content from number `i` on, and TRANSFER_COMPLETE. -/
def resumedFrames (transferId : Text) (content : Bytes) (i : ℕ) : List OutgoingFrame :=
  resumedChunks transferId content i (total chunkSizeDefault content) ++ [.transferComplete transferId]

/-- What followed the last ACCEPT for a transfer, with its number, after one more frame. -/
def afterAccept (transferId : Text) (since : Option (ℤ × List OutgoingFrame)) (frame : OutgoingFrame) :
    Option (ℤ × List OutgoingFrame) :=
  if frame.transfer = some transferId then
    match frame with
    | .transferResumeAccept _ resumeChunkIndex => some (resumeChunkIndex, [])
    | frame => since.map fun s ↦ (s.1, s.2 ++ [frame])
  else since

/-- The number of the last ACCEPT for a transfer, and the frames of the transfer that came after it. -/
def resumption (transferId : Text) (written : List OutgoingFrame) : Option (ℤ × List OutgoingFrame) :=
  written.foldl (afterAccept transferId) none

section Streams

variable {transferId : Text} {content : Bytes}

theorem resumption_concat (written : List OutgoingFrame) (frame : OutgoingFrame) :
    resumption transferId (written ++ [frame]) =
      afterAccept transferId (resumption transferId written) frame := by
  simp [resumption]

/-- Frames of other transfers. -/
theorem resumption_append_of_ne (written : List OutgoingFrame) {frames : List OutgoingFrame}
    (h : ∀ frame ∈ frames, frame.transfer ≠ some transferId) :
    resumption transferId (written ++ frames) = resumption transferId written := by
  induction frames generalizing written with
  | nil => rw [List.append_nil]
  | cons frame frames ih =>
    have hframe : resumption transferId (written ++ [frame]) = resumption transferId written := by
      rw [resumption_concat]
      exact if_neg (h frame List.mem_cons_self)
    rw [List.append_cons, ih _ fun other hother ↦ h other (List.mem_cons_of_mem frame hother), hframe]

/-- Nothing is resumed without an ACCEPT. -/
theorem resumption_eq_none {written : List OutgoingFrame}
    (h : some transferId ∉ written.map OutgoingFrame.accepts) : resumption transferId written = none := by
  have hframes : ∀ frame ∈ written, frame.accepts ≠ some transferId := by
    intro frame hframe heq
    exact h (List.mem_map.mpr ⟨frame, hframe, heq⟩)
  clear h
  unfold resumption
  induction written with
  | nil => rfl
  | cons frame written ih =>
    have hframe : afterAccept transferId none frame = none := by
      unfold afterAccept
      split
      · next htransfer =>
        cases frame with
        | transferResumeAccept named index => exact absurd htransfer (hframes _ List.mem_cons_self)
        | transferRequest | chunk | transferComplete | transferCancel | transferResumeReject
        | batchRequest | batchComplete | batchCancel => rfl
      · rfl
    rw [List.foldl_cons, hframe]
    exact ih fun other hother ↦ hframes other (List.mem_cons_of_mem frame hother)

/-- One more chunk of a stream. -/
theorem resumedChunks_succ {i n : ℕ} (h : i + n < total chunkSizeDefault content) :
    resumedChunks transferId content i (n + 1) = resumedChunks transferId content i n ++
      [.chunk transferId ((i + n : ℕ) : ℤ) (chunkAt chunkSizeDefault content (i + n))] := by
  have hlast : segment chunkSizeDefault content (i + n) 1 =
      [(i + n, chunkAt chunkSizeDefault content (i + n))] := by
    rw [segment_succ h, segment_zero]
  rw [resumedChunks, ← segment_append, hlast, List.map_append]
  rfl

/-- A stream that has reached the end of the content is all of it. -/
theorem resumedChunks_of_total_le {i n : ℕ} (h : total chunkSizeDefault content ≤ i + n) :
    resumedChunks transferId content i n =
      resumedChunks transferId content i (total chunkSizeDefault content) := by
  unfold resumedChunks
  congr 1
  rcases Nat.le_total n (total chunkSizeDefault content) with hle | hle
  · exact (segment_of_le h hle).symm
  · exact segment_of_le (Nat.le_add_left _ _) hle

theorem resumedChunks_isPrefix (i n : ℕ) :
    resumedChunks transferId content i n <+: resumedFrames transferId content i := by
  rcases Nat.le_total n (total chunkSizeDefault content) with hle | hle
  · exact ((segment_isPrefix i hle).map _).trans (List.prefix_append _ _)
  · rw [resumedChunks_of_total_le (Nat.le_add_left_of_le hle)]
    exact List.prefix_append _ _

end Streams

namespace FerryControlClient

/-! ## The property -/

/-- The peer asked to resume a transfer. -/
def Asked (seen : List ControlEvent) (transferId : Text) (resumeChunkIndex resumeOffsetBytes : ℤ)
    (partialSha256 : Text) : Prop :=
  ∃ now, ControlEvent.frame now (.message (.transferResumeRequest transferId resumeChunkIndex
    resumeOffsetBytes partialSha256)) ∈ seen

/-- What the protocol asks of a client with the given contents that answers resume requests: it accepts
for transfers that it or an earlier process sent, when the request names the start of a chunk and the
hash of the content before it, and the frames after ACCEPT are those of the content from there on. -/
structure AnswersAsSender (source : Text → Bytes) (store : InterruptedTransferStore)
    (seen : List ControlEvent) (c : FerryControlClient) : Prop where
  sender : ∀ transferId, c.Accepted transferId →
    c.Requested transferId ∨ ∃ record ∈ store.get transferId, record.contentUriString ≠ none
  verified : ∀ transferId index, .transferResumeAccept transferId index ∈ c.written →
    0 ≤ index ∧ ∃ offset : ℕ, (offset : ℤ) = index * chunkSizeDefault ∧
      offset ≤ (source transferId).length ∧
      Asked seen transferId index offset (Sha256.hexdigest ((source transferId).take offset))
  streams : ∀ transferId index frames, resumption transferId c.written = some (index, frames) →
    frames <+: resumedFrames transferId (source transferId) index.toNat

/-- Every accepted resume has written all its frames, or has a coroutine that goes on. -/
def Finishes (source : Text → Bytes) (c : FerryControlClient) : Prop :=
  ∀ transferId index frames, resumption transferId c.written = some (index, frames) →
    frames = resumedFrames transferId (source transferId) index.toNat ∨
      ∃ resume ∈ c.resumeSends, resume.transferId = transferId ∧ resume.phase ≠ .launched

/-! ## The condition -/

/-- A resume request names the start of a chunk, and a transfer that is not being resumed. -/
def NamesChunk (c : FerryControlClient) : ControlEvent → Prop
  | .frame _ (.message (.transferResumeRequest transferId index offset _)) =>
    0 ≤ index ∧ offset = index * chunkSizeDefault ∧ offset < 2 ^ 31 ∧
      transferId ∉ c.resumeSends.map ResumeSend.transferId
  | _ => True

/-- A coroutine of `onResumeRequest` reads the content, chunk by chunk, and is not cancelled. -/
def ReadsSource (source : Text → Bytes) (c : FerryControlClient) (resume : ResumeSend)
    (input : SendInput) : Prop :=
  match resume.phase, input with
  | .launched, .item _ file => file.content = some (source resume.transferId)
  | .streaming, .data data => c.outgoingCancelled = false ∧ resume.seq + 1 < 2 ^ 31 ∧
      data.take chunkSizeDefault = chunkAt chunkSizeDefault (source resume.transferId) resume.seq.toNat ∧
      data ≠ []
  | .streaming, .eof => c.outgoingCancelled = false ∧
      chunkAt chunkSizeDefault (source resume.transferId) resume.seq.toNat = []
  | .streaming, _ => c.outgoingCancelled = false
  | _, _ => True

/-- The condition on an event. -/
structure Regular (source : Text → Bytes) (c : FerryControlClient) (event : ControlEvent) : Prop where
  fresh : c.Fresh event
  names : c.NamesChunk event
  reads : ∀ turn ∈ c.resumingOf event, c.ReadsSource source turn.1 turn.2

/-- No coroutine that has accepted is broken off. -/
def Unbroken (c : FerryControlClient) (event : ControlEvent) : Prop :=
  ∀ turn ∈ c.resumingOf event, turn.1.phase ≠ .launched → ¬c.Broken turn.2 turn.1

end FerryControlClient

end Ferry
