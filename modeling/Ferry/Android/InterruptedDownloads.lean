import Ferry.Android.PartFiles
import Ferry.Android.Cancelling

/-!
# Interrupted downloads

An interrupted download is a record in the store and a staging file, which different functions of the
client remove.  The file is the same one that the active receiver of a later session works on, so what
ends that receiver before the peer has accepted to go on removes the file and leaves the record.
-/

namespace Ferry

open Exec Disk

namespace TransferClient

/-- The length of a staging file. -/
def partSize (c : TransferClient) (transferId : Text) : Option ℤ :=
  match c.disk.nodes (c.partFile transferId) with
  | some (.file data) => some data.length
  | _ => none

variable {c c' : TransferClient} {transferId : Text} {n : ℤ}

theorem partSize_of_file {data : Bytes}
    (h : c.disk.nodes (c.partFile transferId) = some (.file data)) :
    c.partSize transferId = some (data.length : ℤ) := by
  unfold partSize
  rw [h]

theorem partSize_eq_some : c.partSize transferId = some n ↔
    ∃ data : Bytes, c.disk.nodes (c.partFile transferId) = some (.file data) ∧ (data.length : ℤ) = n := by
  constructor
  · intro h
    unfold partSize at h
    split at h
    · next data hdata => exact ⟨data, hdata, Option.some.inj h⟩
    · exact nomatch h
  · rintro ⟨data, hdata, rfl⟩
    exact partSize_of_file hdata

theorem exists_of_partSize (h : c.partSize transferId = some n) :
    c.disk.Exists (c.partFile transferId) := by
  obtain ⟨data, hdata, -⟩ := partSize_eq_some.mp h
  unfold Disk.Exists
  exact hdata ▸ nofun

/-- A staging file that stays. -/
theorem partSize_congr (hdir : c'.stagingDir = c.stagingDir)
    (hnodes : c'.disk.nodes (c.partFile transferId) = c.disk.nodes (c.partFile transferId)) :
    c'.partSize transferId = c.partSize transferId := by
  unfold partSize
  rw [partFile_eq hdir, hnodes]

theorem partSize_extends (hdir : c'.stagingDir = c.stagingDir) (hdisk : Extends c.disk c'.disk)
    (h : c.partSize transferId = some n) : c'.partSize transferId = some n := by
  rw [partSize_congr hdir (hdisk _ (exists_of_partSize h)), h]

theorem Still.partSize (hstill : Still c c') (h : c.partSize transferId = some n) :
    c'.partSize transferId = some n := partSize_extends hstill.stagingDir hstill.disk h

end TransferClient

namespace FerryControlClient

open TransferClient FerryTransferReceiver

/-! ## The property -/

/-- The record of an incoming transfer. -/
def download (c : FerryControlClient) (transferId : Text) : Option InterruptedRecord :=
  (c.interruptedStore.get transferId).filter fun record ↦ record.direction = .incoming

def Recorded (c : FerryControlClient) (transferId : Text) : Prop := c.download transferId ≠ none

instance (c : FerryControlClient) (transferId : Text) : Decidable (c.Recorded transferId) :=
  inferInstanceAs (Decidable (_ ≠ none))

/-- `requestResume` can be tried: the transfer has its record, and its staging file is as long as the
record says. -/
def Kept (c : FerryControlClient) (transferId : Text) : Prop :=
  ∃ record ∈ c.download transferId, c.receiving.partSize transferId = some record.bytesReceived

instance (c : FerryControlClient) (transferId : Text) : Decidable (c.Kept transferId) :=
  inferInstanceAs (Decidable (∃ record ∈ c.download transferId, _))

/-- The peer has accepted to go on, and the staging file is as long as the receiver counts. -/
def Resuming (c : FerryControlClient) (transferId : Text) : Prop :=
  ∃ receiver ∈ c.receiving.activeReceiver, receiver.metadata.transferId = transferId ∧
    receiver.state = .resuming ∧ c.receiving.partSize transferId = some receiver.bytesReceived

/-- The download is interrupted, or goes on after it was. -/
def Held (c : FerryControlClient) (transferId : Text) : Prop := c.Kept transferId ∨ c.Resuming transferId

/-- At least one whole chunk of the transfer has arrived. -/
def Arriving (c : FerryControlClient) (transferId : Text) : Prop :=
  ∃ receiver ∈ c.receiving.activeReceiver, receiver.metadata.transferId = transferId ∧
    receiver.state.Live ∧ receiver.metadata.chunkSize ≤ receiver.bytesReceived

/-- The client when its session ends, for an event that ends it. -/
def dropped (c : FerryControlClient) : ControlEvent → Option FerryControlClient
  | .loopEnd _ => some c
  | .frame _ (.pairDecision false) => some c
  | .frame now frame =>
    match processFrame now frame c with
    | (.error _, last) => some last
    | (.ok _, _) => none
  | _ => none

/-- The record of the download has expired. -/
def Expired (c : FerryControlClient) (now : ℤ) (transferId : Text) : Prop :=
  ∃ record ∈ c.download transferId, record.expireAt < now

/-- The event completes the download, or is TRANSFER_RESUME_REJECT for it, or discards it, or finds it
expired. -/
def Removed (c : FerryControlClient) (event : ControlEvent) (transferId : Text) : Prop :=
  match event with
  | .frame _ (.message (.transferComplete _)) => ∃ receiver ∈ c.receiving.activeReceiver,
      receiver.metadata.transferId = transferId ∧
        (finalise ⟨c.receiving.disk, receiver⟩).1 = .ok true
  | .frame _ (.message (.transferResumeReject rejectedId)) => rejectedId = transferId
  | .discardInterrupted discardedId => discardedId = transferId
  | .goOnResuming now index _ => ∃ resume ∈ c.resumeSends[index]?,
      resume.transferId = transferId ∧ c.Expired now transferId
  | _ => False

/-- What an event keeps of the downloads: every record has its staging file, a transfer of which a whole
chunk has arrived or that goes on after an interruption is kept when its session ends, and only success,
a rejection, a discard or the expiry ends a download that was interrupted. -/
structure KeepsDownloads (c : FerryControlClient) (event : ControlEvent) : Prop where
  recorded : ∀ transferId, ∀ record ∈ (c.step event).download transferId,
    (c.step event).receiving.partSize transferId = some record.bytesReceived
  interrupted : c.Enabled event → ∀ last ∈ c.dropped event, ∀ transferId,
    last.Arriving transferId ∨ last.Resuming transferId → (c.step event).Kept transferId
  held : ∀ transferId, c.Held transferId →
    (c.step event).Held transferId ∨ c.Removed event transferId

/-! ## The condition -/

/-- The staging file of an interrupted download goes with the active receiver. -/
def AtStake (c : FerryControlClient) : Prop :=
  ∃ receiver ∈ c.receiving.activeReceiver,
    receiver.state = .resuming ∨ c.Recorded receiver.metadata.transferId

instance (c : FerryControlClient) : Decidable c.AtStake :=
  inferInstanceAs (Decidable (∃ receiver ∈ c.receiving.activeReceiver, _))

/-- The session may end: no receiver waits for the peer to accept, and a receiver that has something to
lose has a peer whose key is known. -/
structure DropSafe (c : FerryControlClient) : Prop where
  asked : ∀ receiver ∈ c.receiving.activeReceiver, ¬c.Recorded receiver.metadata.transferId
  known : Text.isBlank c.receiving.connectedPeerStaticB64 = true →
    ∀ receiver ∈ c.receiving.activeReceiver, receiver.state ≠ .resuming ∧
      ¬(receiver.state.Live ∧ receiver.metadata.chunkSize ≤ receiver.bytesReceived)

/-- A chunk does not overflow the count, and the receiver takes it when a download is at stake. -/
def CarefulChunk (c : FerryControlClient) (plaintext : Bytes) : Prop :=
  match c.receiving.activeReceiver, Kotlin.decodeChunkFrame plaintext with
  | none, _ => True
  | some _, .error _ => ¬c.AtStake
  | some receiver, .ok (transferId, seq, data) =>
    receiver.bytesReceived + data.length < 2 ^ 63 ∧
      (c.AtStake → Takes ⟨c.receiving.disk, receiver⟩ transferId seq data)

/-- A new transfer is not one that was interrupted, finds nothing at the path of its staging file, and
does not take the place of a download that goes on. -/
structure OpensApart (c : FerryControlClient) (metadata : Kotlin.TransferMetadata) : Prop where
  recorded : ¬c.Recorded metadata.transferId
  part : c.receiving.disk.nodes (c.receiving.partFile metadata.transferId) = none ∨
    c.receiving.disk.nodes (c.receiving.partFile metadata.transferId) = some (.file [])
  receiver : ∀ receiver ∈ c.receiving.activeReceiver, receiver.state ≠ .resuming

/-- The end of a transfer does not name a download that waits for the peer, verifies one that goes on,
and does not replace the staging file of another one. -/
structure CompletesApart (c : FerryControlClient) (receiver : FerryTransferReceiver) : Prop where
  recorded : ¬c.Recorded receiver.metadata.transferId
  digest : receiver.state = .resuming →
    Sha256.hexdigest receiver.digest = Text.asciiLower receiver.metadata.sha256
  places : receiver.state = .resuming → Placeable ⟨c.receiving.disk, receiver⟩
  finalFile : Sha256.hexdigest receiver.digest = Text.asciiLower receiver.metadata.sha256 →
    ∀ transferId, c.Recorded transferId →
      receiver.finalFile c.receiving.disk ≠ c.receiving.partFile transferId

/-- A receiver that waits for TRANSFER_RESUME_ACCEPT finds its staging file, and no other receiver with
something to lose is told to resume. -/
structure CarefulAccept (c : FerryControlClient) (receiver : FerryTransferReceiver) : Prop where
  waits : c.AtStake → receiver.state.Waits
  disk : receiver.state.Waits → c.receiving.disk.Reliable .stat ∧
    c.receiving.disk.nodes receiver.tempFile ≠ some .directory

/-- A message leaves the downloads alone that it does not name, and those that it names only end as they
may. -/
def CarefulMessage (c : FerryControlClient) (now : ℤ) : ClientMessage → Prop
  | .transferRequest fields =>
    (c.receiving.sendFaults.headD false = true → c.DropSafe) ∧
      (c.receiving.Admits fields → ∀ metadata, Kotlin.TransferMetadata.fromMap now fields = .ok metadata →
        c.OpensApart metadata)
  | .batchRequest _ _ => c.receiving.sendFaults.headD false = true → c.DropSafe
  | .transferComplete transferId => c.receiving.Handled transferId ∨
      ∀ receiver ∈ c.receiving.activeReceiver, c.CompletesApart receiver
  | .transferCancel transferId => c.receiving.Handled transferId ∨ ¬c.AtStake
  | .transferError _ => ¬c.AtStake
  | .transferResumeAccept transferId _ => ∀ receiver ∈ c.receiving.activeReceiver,
      receiver.metadata.transferId = transferId → c.CarefulAccept receiver
  | .transferResumeReject transferId => ∀ receiver ∈ c.receiving.activeReceiver,
      receiver.metadata.transferId = transferId ∨ ¬c.AtStake
  | _ => True

/-- The condition on an event. -/
def Careful (c : FerryControlClient) : ControlEvent → Prop
  | .frame _ (.chunk plaintext) => c.CarefulChunk plaintext.1
  | .frame now (.message message) => c.CarefulMessage now message
  | .frame _ (.pairDecision accept) => accept = false → c.DropSafe
  | .loopEnd _ => c.DropSafe
  | .cancelIncomingTransfer _ => ¬c.AtStake
  | .requestResume now record => c.Established →
      (c.Recorded record.transferId →
        JavaFile.reports c.receiving.disk (c.receiving.partFile record.transferId) = true) ∧
      (∀ receiver ∈ c.receiving.activeReceiver, receiver.state ≠ .resuming) ∧
      (c.receiving.sendFaults.headD false = true → ∀ metadata,
        Kotlin.TransferMetadata.fromMap now record.originalMetadata = .ok metadata →
          ¬c.Recorded metadata.transferId)
  | .discardInterrupted transferId => ∀ receiver ∈ c.receiving.activeReceiver, receiver.state.Live →
      receiver.metadata.transferId ≠ transferId
  | .decideIncoming index timedOut => c.receiving.Refuses index timedOut → ¬c.AtStake
  | .awaitResume index timedOut =>
    timedOut = true → c.receiving.resuming[index]? ≠ none → ¬c.AtStake
  | .goOn _ index _ => ∀ job ∈ c.jobs[index]?, ∀ file ∈ job.file,
      file.phase = .streamed false → ¬c.Recorded file.payload.transferId
  | .goOnResuming _ index _ => ∀ resume ∈ c.resumeSends[index]?, resume.phase ≠ .launched →
      ¬c.Recorded resume.transferId
  | .disk disk => ∀ transferId, c.Recorded transferId ∨ (∃ receiver ∈ c.receiving.activeReceiver,
      receiver.state.Live ∧ receiver.metadata.transferId = transferId) →
        disk.nodes (c.receiving.partFile transferId) =
          c.receiving.disk.nodes (c.receiving.partFile transferId)
  | _ => True

/-! ## The invariant -/

/-- Every record has its staging file, and so has a receiver that takes chunks, which has no record. -/
structure Intact (c : FerryControlClient) : Prop where
  recorded : ∀ transferId, ∀ record ∈ c.download transferId,
    c.receiving.partSize transferId = some record.bytesReceived
  receiver : ∀ receiver ∈ c.receiving.activeReceiver, receiver.state.Live →
    c.receiving.partSize receiver.metadata.transferId = some receiver.bytesReceived ∧
      ¬c.Recorded receiver.metadata.transferId

/-- A client that has just been created, with records whose staging files are there. -/
theorem intact_new {receiving : TransferClient} {publicKeyB64 : Text} {store : InterruptedTransferStore}
    (hactive : receiving.activeReceiver = none)
    (hstore : ∀ transferId, ∀ record ∈ (new receiving publicKeyB64 store).download transferId,
      receiving.partSize transferId = some record.bytesReceived) :
    (new receiving publicKeyB64 store).Intact where
  recorded := hstore
  receiver := by
    intro receiver hreceiver
    exact nomatch hactive.symm.trans hreceiver

/-- The invariant afterwards, with every download that is not removed. -/
structure Secures (removed : Text → Prop) (c c' : FerryControlClient) : Prop where
  intact : c'.Intact
  held : ∀ transferId, c.Held transferId → c'.Held transferId ∨ removed transferId

/-- The records stay, but for those that are removed. -/
def Forgets (removed : Text → Prop) (c c' : FerryControlClient) : Prop :=
  ∀ transferId, c'.download transferId = c.download transferId ∨
    c'.download transferId = none ∧ removed transferId

section Secures

variable {removed : Text → Prop} {c c' c'' : FerryControlClient} {receiver : FerryTransferReceiver}
  {transferId : Text}

theorem forgets_of_eq (h : c'.interruptedStore = c.interruptedStore) : Forgets removed c c' := by
  intro transferId
  left
  unfold download
  rw [h]

theorem Forgets.record (h : Forgets removed c c') {record : InterruptedRecord}
    (hrecord : record ∈ c'.download transferId) : record ∈ c.download transferId := by
  rcases h transferId with hsame | ⟨hnone, -⟩
  · exact hsame ▸ hrecord
  · exact nomatch hnone.symm.trans hrecord

theorem Forgets.recorded (h : Forgets removed c c') (hrecorded : c'.Recorded transferId) :
    c.Recorded transferId := by
  rcases h transferId with hsame | ⟨hnone, -⟩
  · rwa [Recorded, ← hsame]
  · exact absurd hnone hrecorded

/-- What is removed is a record that may be. -/
theorem Forgets.mono {removed' : Text → Prop} (h : Forgets removed c c')
    (hremoved : ∀ transferId, c.Recorded transferId → removed transferId → removed' transferId) :
    Forgets removed' c c' := by
  intro b
  rcases h b with hsame | ⟨hnone, hb⟩
  · exact .inl hsame
  · by_cases hrecorded : c.Recorded b
    · exact .inr ⟨hnone, hremoved b hrecorded hb⟩
    · exact .inl (hnone.trans (not_not.mp hrecorded).symm)

theorem recorded_of_mem {record : InterruptedRecord} (h : record ∈ c.download transferId) :
    c.Recorded transferId := by
  unfold Recorded
  rw [Option.mem_def.mp h]
  exact nofun

/-- A download whose staging file stays. -/
theorem Kept.later (h : c.Kept transferId) (hforgets : Forgets removed c c')
    (hsize : ∀ n, c.receiving.partSize transferId = some n → c'.receiving.partSize transferId = some n) :
    c'.Kept transferId ∨ removed transferId := by
  obtain ⟨record, hrecord, hpart⟩ := h
  rcases hforgets transferId with hsame | ⟨-, hremoved⟩
  · exact .inl ⟨record, hsame ▸ hrecord, hsize _ hpart⟩
  · exact .inr hremoved

theorem Kept.recorded (h : c.Kept transferId) : c.Recorded transferId := by
  obtain ⟨record, hrecord, -⟩ := h
  exact recorded_of_mem hrecord

/-- The records afterwards, where the staging files of the recorded transfers stay. -/
theorem Intact.later (h : c.Intact) (hforgets : Forgets removed c c')
    (hsize : ∀ transferId, c.Recorded transferId → ∀ n, c.receiving.partSize transferId = some n →
      c'.receiving.partSize transferId = some n)
    (hreceiver : ∀ receiver ∈ c'.receiving.activeReceiver, receiver.state.Live →
      c'.receiving.partSize receiver.metadata.transferId = some receiver.bytesReceived ∧
        ¬c'.Recorded receiver.metadata.transferId) : c'.Intact where
  recorded := by
    intro transferId record hrecord
    have hrecord' := hforgets.record hrecord
    exact hsize transferId (recorded_of_mem hrecord') _ (h.recorded transferId record hrecord')
  receiver := hreceiver

/-- A step that leaves the receiver and the staging files alone. -/
theorem Intact.still (h : c.Intact) (hstill : Still c.receiving c'.receiving)
    (hforgets : Forgets removed c c') : Secures removed c c' where
  intact := by
    apply h.later hforgets fun _ _ _ ↦ hstill.partSize
    intro receiver hreceiver hlive
    rw [hstill.activeReceiver] at hreceiver
    obtain ⟨hpart, hnot⟩ := h.receiver receiver hreceiver hlive
    exact ⟨hstill.partSize hpart, fun hrecorded ↦ hnot (hforgets.recorded hrecorded)⟩
  held := by
    rintro transferId (hkept | ⟨receiver, hreceiver, hid, hstate, hpart⟩)
    · exact (hkept.later hforgets fun _ ↦ hstill.partSize).imp_left .inl
    · refine .inl (.inr ⟨receiver, ?_, hid, hstate, hstill.partSize hpart⟩)
      rwa [hstill.activeReceiver]

/-- A step that ends the active receiver, and leaves the staging files of the records that stay. -/
theorem Intact.ended (h : c.Intact) (hactive : c'.receiving.activeReceiver = none)
    (hforgets : Forgets removed c c')
    (hsize : ∀ transferId, c'.Recorded transferId → ∀ n, c.receiving.partSize transferId = some n →
      c'.receiving.partSize transferId = some n)
    (hresuming : ∀ transferId, c.Resuming transferId → removed transferId) : Secures removed c c' where
  intact := by
    constructor
    · intro transferId record hrecord
      exact hsize transferId (recorded_of_mem hrecord) _
        (h.recorded transferId record (hforgets.record hrecord))
    · intro receiver hreceiver
      exact nomatch hactive.symm.trans hreceiver
  held := by
    rintro transferId (⟨record, hrecord, hpart⟩ | hgoes)
    · rcases hforgets transferId with hsame | ⟨-, hremoved⟩
      · have hrecord' : record ∈ c'.download transferId := hsame ▸ hrecord
        exact .inl (.inl ⟨record, hrecord', hsize transferId (recorded_of_mem hrecord') _ hpart⟩)
      · exact .inr hremoved
    · exact .inr (hresuming transferId hgoes)

/-- What is not at stake does not go with the receiver. -/
theorem foreign_of_recorded (hstake : ¬c.AtStake) (hrecorded : c.Recorded transferId) :
    c.receiving.Foreign transferId := by
  rintro receiver hreceiver rfl
  exact hstake ⟨receiver, hreceiver, .inr hrecorded⟩

theorem Resuming.atStake (h : c.Resuming transferId) : c.AtStake := by
  obtain ⟨receiver, hreceiver, -, hstate, -⟩ := h
  exact ⟨receiver, hreceiver, .inl hstate⟩

theorem partSize_quits (hquits : Quits c.receiving c'.receiving) (hforeign : c.receiving.Foreign transferId)
    {n : ℤ} (hpart : c.receiving.partSize transferId = some n) :
    c'.receiving.partSize transferId = some n := by
  rw [partSize_congr hquits.stagingDir (hquits.parts transferId hforeign (exists_of_partSize hpart)), hpart]

/-- A step that may end the active receiver, which has nothing to lose. -/
theorem Intact.ends (h : c.Intact) (hends : Ends c.receiving c'.receiving)
    (hforgets : Forgets removed c c') (hstake : ¬c.AtStake) : Secures removed c c' := by
  rcases hends with hstill | hquits
  · exact h.still hstill hforgets
  · apply h.ended hquits.activeReceiver hforgets
    · intro transferId hrecorded n
      exact partSize_quits hquits (foreign_of_recorded hstake (hforgets.recorded hrecorded))
    · exact fun transferId hgoes ↦ absurd hgoes.atStake hstake

/-- A chunk that the active receiver takes. -/
theorem Intact.chunk {data : Bytes} (h : c.Intact) (hactive : c.receiving.activeReceiver = some receiver)
    (hfed : Fed receiver data c.receiving c'.receiving) (hdir : receiver.stagingDir = c.receiving.stagingDir)
    (hforgets : Forgets removed c c') (hcount : receiver.bytesReceived + data.length < 2 ^ 63) :
    Secures removed c c' := by
  obtain ⟨hpart, hnot⟩ := h.receiver receiver hactive hfed.live
  have htemp : receiver.tempFile = c.receiving.partFile receiver.metadata.transferId := by
    rw [tempFile, stagingFile, partFile, hdir]
  have hgrown : c'.receiving.partSize receiver.metadata.transferId =
      some (receiver.fed data).bytesReceived := by
    obtain ⟨content, hcontent, hlength⟩ := partSize_eq_some.mp hpart
    have hnodes := hfed.part
    rw [htemp, content_of_nodes hcontent, ← partFile_eq hfed.stagingDir] at hnodes
    have hbytes : (receiver.fed data).bytesReceived = receiver.bytesReceived + data.length :=
      toInt64_of_lt (by omega) hcount
    rw [partSize_of_file hnodes, hbytes, List.length_append, Nat.cast_add, hlength]
  have hforeign {b : Text} (hrecorded : c.Recorded b) : c.receiving.Foreign b := by
    rintro other hother rfl
    obtain rfl := Option.some.inj (hactive.symm.trans hother)
    exact hnot hrecorded
  have hsize (b : Text) (hrecorded : c.Recorded b) (n : ℤ) (hb : c.receiving.partSize b = some n) :
      c'.receiving.partSize b = some n := by
    rw [partSize_congr hfed.stagingDir (hfed.parts b (hforeign hrecorded)), hb]
  constructor
  · apply h.later hforgets hsize
    intro other hother _
    obtain rfl := Option.some.inj (hfed.activeReceiver.symm.trans hother)
    exact ⟨hgrown, fun hrecorded ↦ hnot (hforgets.recorded hrecorded)⟩
  · rintro transferId (hkept | ⟨other, hother, rfl, hstate, -⟩)
    · exact (hkept.later hforgets (hsize transferId hkept.recorded)).imp_left .inl
    · obtain rfl := Option.some.inj (hactive.symm.trans hother)
      exact .inl (.inr ⟨_, hfed.activeReceiver, rfl, hstate, hgrown⟩)

theorem not_resuming (h : ∀ receiver ∈ c.receiving.activeReceiver, receiver.state ≠ .resuming) :
    ¬c.Resuming transferId := by
  rintro ⟨receiver, hreceiver, -, hstate, -⟩
  exact h receiver hreceiver hstate

/-- A new receiver beside the interrupted downloads. -/
theorem Intact.opened {metadata : Kotlin.TransferMetadata} (h : c.Intact)
    (hopened : Opened metadata c.receiving c'.receiving) (hforgets : Forgets removed c c')
    (hapart : c.OpensApart metadata) : Secures removed c c' := by
  have hsize (b : Text) (n : ℤ) (hb : c.receiving.partSize b = some n) :
      c'.receiving.partSize b = some n := partSize_extends hopened.stagingDir hopened.disk hb
  have hempty : c'.receiving.partSize metadata.transferId = some 0 := by
    rcases hapart.part with hnone | hfile
    · have hnodes := hopened.part hnone
      rw [← partFile_eq hopened.stagingDir] at hnodes
      exact partSize_of_file hnodes
    · exact hsize _ _ (partSize_of_file hfile)
  obtain ⟨new, hnew, hmeta, -, hbytes⟩ := hopened.activeReceiver
  constructor
  · apply h.later hforgets fun b _ ↦ hsize b
    intro receiver hreceiver _
    obtain rfl := Option.some.inj (hnew.symm.trans hreceiver)
    rw [hmeta, hbytes]
    exact ⟨hempty, fun hrecorded ↦ hapart.recorded (hforgets.recorded hrecorded)⟩
  · rintro transferId (hkept | hgoes)
    · exact (hkept.later hforgets (hsize transferId)).imp_left .inl
    · exact absurd hgoes (not_resuming hapart.receiver)

/-- A receiver that waits for the peer beside the interrupted downloads. -/
theorem Intact.asked {metadata : Kotlin.TransferMetadata} (h : c.Intact)
    (hasked : TransferClient.Asked metadata c.receiving c'.receiving) (hforgets : Forgets removed c c')
    (hapart : ∀ receiver ∈ c.receiving.activeReceiver, receiver.state ≠ .resuming) :
    Secures removed c c' := by
  have hsize (b : Text) (n : ℤ) (hb : c.receiving.partSize b = some n) :
      c'.receiving.partSize b = some n := partSize_extends hasked.stagingDir hasked.disk hb
  obtain ⟨asked, hactive, -, hlive⟩ := hasked.activeReceiver
  constructor
  · apply h.later hforgets fun b _ ↦ hsize b
    intro receiver hreceiver hlive'
    obtain rfl := Option.some.inj (hactive.symm.trans hreceiver)
    exact absurd hlive' hlive
  · rintro transferId (hkept | hgoes)
    · exact (hkept.later hforgets (hsize transferId)).imp_left .inl
    · exact absurd hgoes (not_resuming hapart)

/-- A request for the rest of a transfer, sent or not. -/
theorem Intact.rebuilt {metadata : Kotlin.TransferMetadata} (h : c.Intact)
    (hrebuilt : Rebuilt metadata c.receiving c'.receiving) (hforgets : Forgets removed c c')
    (hapart : ∀ receiver ∈ c.receiving.activeReceiver, receiver.state ≠ .resuming)
    (hsent : c.receiving.sendFaults.headD false = true → ¬c.Recorded metadata.transferId) :
    Secures removed c c' := by
  rcases hrebuilt with hasked | ⟨hfault, hgone⟩
  · exact h.asked hasked hforgets hapart
  · apply h.ended hgone.activeReceiver hforgets
    · intro transferId hrecorded n hpart
      have hne : transferId ≠ metadata.transferId := by
        rintro rfl
        exact hsent hfault (hforgets.recorded hrecorded)
      rw [partSize_congr hgone.stagingDir (hgone.parts transferId hne (exists_of_partSize hpart)), hpart]
    · exact fun transferId hgoes ↦ absurd hgoes (not_resuming hapart)

/-- TRANSFER_COMPLETE, which removes the download that it completes. -/
theorem Intact.completed (h : c.Intact) (hcoherent : c.receiving.Coherent)
    (hactive : c.receiving.activeReceiver = some receiver)
    (hnone : c'.receiving.activeReceiver = none) (hfinal : Finalised receiver c.receiving c'.receiving)
    (hforgets : Forgets removed c c') (hapart : c.CompletesApart receiver)
    (hremoved : (finalise ⟨c.receiving.disk, receiver⟩).1 = .ok true →
      removed receiver.metadata.transferId) : Secures removed c c' := by
  apply h.ended hnone hforgets
  · intro transferId hrecorded n hpart
    have hother : receiver.metadata.transferId ≠ transferId := by
      rintro rfl
      exact hapart.recorded (hforgets.recorded hrecorded)
    have hclear := fun hdigest ↦ hapart.finalFile hdigest transferId (hforgets.recorded hrecorded)
    rw [partSize_congr hfinal.stagingDir (hfinal.parts transferId hother hclear), hpart]
  · rintro transferId ⟨other, hother, rfl, hstate, hpart⟩
    obtain rfl := Option.some.inj (hactive.symm.trans hother)
    apply hremoved
    have htemp : receiver.tempFile = c.receiving.partFile receiver.metadata.transferId := by
      rw [tempFile, stagingFile, partFile, hcoherent.stagingDir receiver hactive]
    obtain ⟨data, hdata, -⟩ := partSize_eq_some.mp hpart
    have hfile : c.receiving.disk.IsFile receiver.tempFile := ⟨data, htemp ▸ hdata⟩
    exact @finalise_succeeds ⟨c.receiving.disk, receiver⟩ (hapart.digest hstate) (hapart.places hstate) hfile

theorem download_pop (hstore : c'.interruptedStore = c.interruptedStore.pop transferId) (b : Text) :
    c'.download b = if b = transferId then none else c.download b := by
  unfold download
  rw [hstore, Dict.get_pop]
  split
  · rfl
  · rfl

theorem forgets_pop (hstore : c'.interruptedStore = c.interruptedStore.pop transferId) :
    Forgets (· = transferId) c c' := by
  intro b
  rw [download_pop hstore]
  split
  · next heq => exact .inr ⟨rfl, heq⟩
  · exact .inl rfl

/-- TRANSFER_RESUME_REJECT, which removes the download that it names. -/
theorem Intact.rejected (h : c.Intact) (hquits : Quits c.receiving c'.receiving)
    (hstore : c'.interruptedStore = c.interruptedStore.pop transferId)
    (hapart : ∀ receiver ∈ c.receiving.activeReceiver,
      receiver.metadata.transferId = transferId ∨ ¬c.AtStake)
    (hremoved : removed transferId) : Secures removed c c' := by
  have hforgets : Forgets removed c c' := by
    apply (forgets_pop hstore).mono
    rintro _ - rfl
    exact hremoved
  apply h.ended hquits.activeReceiver hforgets
  · intro b hrecorded n
    apply partSize_quits hquits
    have hne : b ≠ transferId := by
      rintro rfl
      exact hrecorded (by rw [download_pop hstore, if_pos rfl])
    rintro receiver hreceiver rfl
    have hstake := (hapart receiver hreceiver).resolve_left hne
    exact hstake ⟨receiver, hreceiver, .inr (hforgets.recorded hrecorded)⟩
  · rintro b ⟨receiver, hreceiver, rfl, hstate, -⟩
    rcases hapart receiver hreceiver with rfl | hstake
    · exact hremoved
    · exact absurd ⟨receiver, hreceiver, .inl hstate⟩ hstake

/-- TRANSFER_RESUME_ACCEPT, which turns an interrupted download into one that goes on. -/
theorem Intact.resumed (h : c.Intact) (hcoherent : c.receiving.Coherent)
    (hactive : c.receiving.activeReceiver = some receiver)
    (hresumed : Resumed receiver c.receiving c'.receiving)
    (hstore : c'.interruptedStore = c.interruptedStore.pop receiver.metadata.transferId)
    (hcareful : c.CarefulAccept receiver) : Secures removed c c' := by
  obtain ⟨resumed, hresumedActive, hmeta, hstate, hthere, hbytes⟩ := hresumed.activeReceiver
  have htemp : receiver.tempFile = c.receiving.partFile receiver.metadata.transferId := by
    rw [tempFile, stagingFile, partFile, hcoherent.stagingDir receiver hactive]
  have hsize (b : Text) : c'.receiving.partSize b = c.receiving.partSize b :=
    partSize_congr hresumed.stagingDir (congrFun hresumed.disk _)
  have hpart : c'.receiving.partSize receiver.metadata.transferId = some resumed.bytesReceived := by
    obtain ⟨hstat, hdir⟩ := hcareful.disk hresumed.waits
    rw [hsize]
    cases hnode : c.receiving.disk.nodes receiver.tempFile with
    | none => exact absurd hnode hthere
    | some node =>
      cases node with
      | directory => exact absurd hnode hdir
      | file data =>
        rw [hbytes hstat data hnode]
        exact partSize_of_file (htemp ▸ hnode)
  have hother {b : Text} (hne : b ≠ receiver.metadata.transferId) : c'.download b = c.download b := by
    rw [download_pop hstore, if_neg hne]
  have hgone : c'.download receiver.metadata.transferId = none := by
    rw [download_pop hstore, if_pos rfl]
  constructor
  · constructor
    · intro transferId record hrecord
      have hne : transferId ≠ receiver.metadata.transferId := by
        rintro rfl
        cases hgone.symm.trans hrecord
      rw [hsize]
      exact h.recorded transferId record (hother hne ▸ hrecord)
    · intro other hreceiver _
      obtain rfl := Option.some.inj (hresumedActive.symm.trans hreceiver)
      rw [hmeta]
      exact ⟨hpart, fun hrecorded ↦ hrecorded hgone⟩
  · rintro transferId (⟨record, hrecord, hlength⟩ | ⟨other, hreceiver, rfl, hgoes, -⟩)
    · by_cases heq : transferId = receiver.metadata.transferId
      · obtain rfl := heq
        exact .inl (.inr ⟨resumed, hresumedActive, by rw [hmeta], hstate, hpart⟩)
      · refine .inl (.inl ⟨record, ?_, by rw [hsize, hlength]⟩)
        rwa [hother heq]
    · obtain rfl := Option.some.inj (hactive.symm.trans hreceiver)
      rcases hresumed.waits with hwaits | hwaits
      · cases hwaits.symm.trans hgoes
      · cases hwaits.symm.trans hgoes

end Secures

/-! ## The end of a session -/

section Drop

variable {removed : Text → Prop} {c c' : FerryControlClient}

/-- The end of the session notes the receiver in the store: it takes chunks, and the peer is known. -/
structure Notes (c : FerryControlClient) (receiver : FerryTransferReceiver) : Prop where
  activeReceiver : c.receiving.activeReceiver = some receiver
  live : receiver.state.Live
  bytesReceived : 0 ≤ receiver.bytesReceived
  known : Text.isBlank c.receiving.connectedPeerStaticB64 = false

/-- What the end of a session leaves in the store. -/
def Noted (now : ℤ) (c c' : FerryControlClient) : Prop :=
  (∃ receiver, c.Notes receiver ∧ c'.interruptedStore = c.interruptedStore.set
    receiver.metadata.transferId (c.incomingRecord now receiver.metadata receiver.bytesReceived)) ∨
  (∀ receiver, ¬c.Notes receiver) ∧ c'.interruptedStore = c.interruptedStore

theorem noteInterrupted_effect (hcoherent : c.receiving.Coherent) (now : ℤ) :
    wp (noteInterrupted now) (fun r c' ↦ r = .ok () ∧ c'.receiving = c.receiving ∧ Noted now c c') c := by
  unfold noteInterrupted
  rw [wp_get_bind]
  cases hactive : c.receiving.activeReceiver with
  | none =>
    refine ⟨rfl, rfl, .inr ⟨fun receiver hnotes ↦ ?_, rfl⟩⟩
    exact nomatch hactive.symm.trans hnotes.activeReceiver
  | some receiver =>
    have hmeta : c.receiving.activeReceiverMeta = some receiver.metadata := by
      rw [hcoherent.metadata, hactive]
      rfl
    rw [hmeta]
    dsimp only
    rw [interrupt_run]
    by_cases hlive : receiver.state.Live
    · rw [if_pos hlive]
      dsimp only
      rw [wp_ite]
      constructor
      · rintro ⟨hbytes, hkey⟩
        exact ⟨rfl, rfl, .inl ⟨receiver, ⟨hactive, hlive, hbytes, hkey⟩, rfl⟩⟩
      · intro hnot
        refine ⟨rfl, rfl, .inr ⟨fun other hnotes ↦ ?_, rfl⟩⟩
        obtain rfl := Option.some.inj (hactive.symm.trans hnotes.activeReceiver)
        exact hnot ⟨hnotes.bytesReceived, hnotes.known⟩
    · rw [if_neg hlive]
      dsimp only
      rw [if_neg fun hbytes ↦ absurd hbytes.1 (by decide)]
      refine ⟨rfl, rfl, .inr ⟨fun other hnotes ↦ ?_, rfl⟩⟩
      obtain rfl := Option.some.inj (hactive.symm.trans hnotes.activeReceiver)
      exact hlive hnotes.live

/-- The end of a session drops the receiver, and leaves the disk when it notes it. -/
theorem endLoop_effect (hcoherent : c.receiving.Coherent) (now : ℤ) :
    wp (endLoop now) (fun r c' ↦ r = .ok () ∧ Quits c.receiving c'.receiving ∧ Noted now c c' ∧
      ((∃ receiver, c.Notes receiver) → c'.receiving.disk = c.receiving.disk)) c := by
  unfold endLoop
  apply wp_bind_of (noteInterrupted_effect hcoherent now)
  · exact fun _ _ h ↦ (nomatch h.1)
  rintro _ c₁ ⟨-, hreceiving, hnoted⟩
  have hkeep {c' : FerryControlClient} (hstore : c'.interruptedStore = c₁.interruptedStore) :
      Noted now c c' := by
    unfold Noted
    rwa [hstore]
  have hdropped : wp (onReceiving TransferClient.endLoop) (fun r c' ↦ r = .ok () ∧
      Quits c.receiving c'.receiving ∧ c'.interruptedStore = c₁.interruptedStore ∧
      ((∃ receiver, c.Notes receiver) → c'.receiving.disk = c.receiving.disk)) c₁ := by
    obtain ⟨hr, hquits⟩ := quits_endLoop c₁.receiving
    refine ⟨hr, hreceiving ▸ hquits, rfl, ?_⟩
    rintro ⟨receiver, hactive, hlive, hbytes, hkey⟩
    rw [← hreceiving] at hcoherent hactive hkey ⊢
    exact endLoop_live hcoherent hactive hlive hbytes hkey
  apply wp_bind_of hdropped
  · exact fun _ _ h ↦ (nomatch h.1)
  · rintro _ c₂ ⟨-, hquits, hstore, hdisk⟩
    exact ⟨rfl, hquits, hkeep hstore, hdisk⟩

theorem download_set {a : Text} {record : InterruptedRecord} (hincoming : record.direction = .incoming)
    (hstore : c'.interruptedStore = c.interruptedStore.set a record) (b : Text) :
    c'.download b = if b = a then some record else c.download b := by
  unfold download
  rw [hstore, Dict.get_set]
  split
  · exact if_pos (decide_eq_true hincoming)
  · rfl

/-- A receiver with something to lose is noted when its session ends. -/
theorem Intact.notes (h : c.Intact) (hdrop : c.DropSafe) {receiver : FerryTransferReceiver}
    (hactive : c.receiving.activeReceiver = some receiver) (hlive : receiver.state.Live)
    (hlose : receiver.state = .resuming ∨ receiver.metadata.chunkSize ≤ receiver.bytesReceived) :
    c.Notes receiver := by
  obtain ⟨hpart, -⟩ := h.receiver receiver hactive hlive
  obtain ⟨data, -, hlength⟩ := partSize_eq_some.mp hpart
  refine ⟨hactive, hlive, hlength ▸ Int.natCast_nonneg _, ?_⟩
  rw [← Bool.not_eq_true]
  intro hblank
  obtain ⟨hstate, hchunk⟩ := hdrop.known hblank receiver hactive
  rcases hlose with hresuming | harrived
  · exact hstate hresuming
  · exact hchunk ⟨hlive, harrived⟩

/-- The end of a session keeps the transfer that it interrupts, and those that were interrupted. -/
theorem Intact.drop (h : c.Intact) (hcoherent : c.receiving.Coherent) (hdrop : c.DropSafe) (now : ℤ) :
    wp (endLoop now) (fun r c' ↦ r = .ok () ∧ Secures removed c c' ∧ ∀ transferId,
      c.Arriving transferId ∨ c.Resuming transferId → c'.Kept transferId) c := by
  apply wp_mono (endLoop_effect hcoherent now)
  rintro r c' ⟨hr, hquits, ⟨receiver, hnotes, hstore⟩ | ⟨hnot, hstore⟩, hdisk⟩
  · have hset := download_set rfl hstore
    have hsize (b : Text) : c'.receiving.partSize b = c.receiving.partSize b := by
      apply partSize_congr hquits.stagingDir
      rw [hdisk ⟨receiver, hnotes⟩]
    have hpart := (h.receiver receiver hnotes.activeReceiver hnotes.live).1
    have hkept : c'.Kept receiver.metadata.transferId := by
      refine ⟨_, (hset _).trans (if_pos rfl), ?_⟩
      rw [hsize, hpart]
      rfl
    have hother {b : Text} (hrecorded : c.Recorded b) : c'.download b = c.download b := by
      rw [hset, if_neg]
      rintro rfl
      exact hdrop.asked receiver hnotes.activeReceiver hrecorded
    have hgoes {b : Text} {other : FerryTransferReceiver} (hactive : c.receiving.activeReceiver = some other)
        (hid : other.metadata.transferId = b) : c'.Kept b := by
      obtain rfl := Option.some.inj (hnotes.activeReceiver.symm.trans hactive)
      exact hid ▸ hkept
    refine ⟨hr, ⟨⟨fun transferId record hrecord ↦ ?_, fun other hactive ↦ ?_⟩, ?_⟩, ?_⟩
    · rw [hset] at hrecord
      split at hrecord
      · next heq =>
        obtain rfl := Option.some.inj hrecord
        rw [heq, hsize, hpart]
        rfl
      · rw [hsize]
        exact h.recorded transferId record hrecord
    · exact nomatch hquits.activeReceiver.symm.trans hactive
    · rintro transferId (⟨record, hrecord, hlength⟩ | ⟨other, hactive, hid, -⟩)
      · refine .inl (.inl ⟨record, ?_, by rw [hsize, hlength]⟩)
        rwa [hother (recorded_of_mem hrecord)]
      · exact .inl (.inl (hgoes hactive hid))
    · rintro transferId (⟨other, hactive, hid, -⟩ | ⟨other, hactive, hid, -⟩)
      · exact hgoes hactive hid
      · exact hgoes hactive hid
  · have hstake : ¬c.AtStake := by
      rintro ⟨receiver, hactive, hstate | hrecorded⟩
      · exact hnot receiver (h.notes hdrop hactive (.inr hstate) (.inl hstate))
      · exact hdrop.asked receiver hactive hrecorded
    refine ⟨hr, h.ends (.inr hquits) (forgets_of_eq hstore) hstake, ?_⟩
    rintro transferId (⟨receiver, hactive, -, hlive, harrived⟩ | hgoes)
    · exact absurd (h.notes hdrop hactive hlive (.inr harrived)) (hnot receiver)
    · exact absurd hgoes.atStake hstake

end Drop

end FerryControlClient

end Ferry
