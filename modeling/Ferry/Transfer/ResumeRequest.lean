import Ferry.Transfer.Receiving

/-!
# Which partial files a resume request accepts

`prepare_resume_request` checks the `.part` file against the chunk size of the transfer, and the payload
that it builds checks itself against the default chunk size.
-/

namespace Ferry

namespace IncomingTransfer

open Exec Disk

/-- The bytes of the `.part` file. -/
def partBytes (w : World) : Option Bytes :=
  match w.self.tempPath.bind w.disk.nodes with
  | some (.file data) => some data
  | _ => none

/-- Whole chunks, at most the declared size, and what was expected. -/
structure Consistent (metadata : TransferMetadata) (expectedBytes expectedChunkIndex : Option ℤ)
    (data : Bytes) : Prop where
  nonempty : data ≠ []
  aligned : metadata.chunkSize ∣ data.length
  fits : (data.length : ℤ) ≤ metadata.fileSize
  bytes : ∀ b ∈ expectedBytes, b = data.length
  index : ∀ i ∈ expectedChunkIndex, i = data.length / metadata.chunkSize

/-- The `.part` file is there and consistent. -/
def HasConsistent (w : World) (expectedBytes expectedChunkIndex : Option ℤ) : Prop :=
  ∃ data ∈ partBytes w, Consistent w.self.metadata expectedBytes expectedChunkIndex data

/-- What a payload says of the `.part` file. -/
structure Describes (metadata : TransferMetadata) (payload : TransferResumeRequestPayload) (data : Bytes) :
    Prop where
  offset : payload.resumeOffsetBytes = data.length
  index : payload.resumeChunkIndex * metadata.chunkSize = payload.resumeOffsetBytes
  digest : payload.partialSha256 = Sha256.hexdigest data

/-- A call of `prepare_resume_request` accepts exactly the consistent `.part` files, and leaves the file
and the object as they are when it raises. -/
structure AcceptsExactly (w : World) (expectedBytes expectedChunkIndex : Option ℤ) : Prop where
  accepts : HasConsistent w expectedBytes expectedChunkIndex →
    ∃ payload, (prepareResumeRequest expectedBytes expectedChunkIndex w).1 = .ok payload
  payload : ∀ payload, (prepareResumeRequest expectedBytes expectedChunkIndex w).1 = .ok payload →
    ∃ data ∈ partBytes w, Consistent w.self.metadata expectedBytes expectedChunkIndex data ∧
      Describes w.self.metadata payload data
  raises : ∀ e, (prepareResumeRequest expectedBytes expectedChunkIndex w).1 = .error e →
    (prepareResumeRequest expectedBytes expectedChunkIndex w).2.self = w.self ∧
      (prepareResumeRequest expectedBytes expectedChunkIndex w).2.disk.nodes = w.disk.nodes

/-- The calls of `stat` and `read` that come next succeed. -/
def ReadsNext (d : Disk) : Prop := (d.outcome .stat).fails = false ∧ (d.outcome .read).fails = false

/-! ## The checks -/

/-- Reading the whole file, which raises when the call fails. -/
theorem readPart_file {w : World} {temp : Path} {data : Bytes}
    (hfile : w.disk.nodes temp = some (.file data)) :
    wp (readPart temp) (fun r w' ↦ w'.self = w.self ∧ w'.disk.nodes = w.disk.nodes ∧
      r = if (w.disk.outcome .read).fails then .error .osError else .ok data) w := by
  unfold readPart
  rw [wp_bind, wp_onDisk]
  unfold readBlocks
  rw [wp_perform_bind, wp_get_bind, nodes_advance, hfile, wp_ite]
  exact ⟨fun hfails ↦ ⟨rfl, rfl, (if_pos hfails).symm⟩, fun hfails ↦ ⟨rfl, rfl, (if_neg hfails).symm⟩⟩

/-- The checks leave everything as it is, and pass for consistent files only. -/
theorem checkPartial_spec {metadata : TransferMetadata} (hchunk : 0 < metadata.chunkSize) (data : Bytes)
    (expectedBytes expectedChunkIndex : Option ℤ) (w : World) :
    wp (checkPartial metadata data.length expectedBytes expectedChunkIndex) (fun r w' ↦ w' = w ∧
      (r = .ok () ↔ Consistent metadata expectedBytes expectedChunkIndex data)) w := by
  have hrefuses {e : PyError} (h : ¬Consistent metadata expectedBytes expectedChunkIndex data) :
      w = w ∧ ((.error e : Except PyError Unit) = .ok () ↔
        Consistent metadata expectedBytes expectedChunkIndex data) :=
    ⟨rfl, by simp, fun hconsistent ↦ absurd hconsistent h⟩
  unfold checkPartial
  rw [wp_raiseIf_bind]
  refine ⟨fun hempty ↦ hrefuses fun h ↦ h.nonempty (List.length_eq_zero_iff.mp hempty), fun hempty ↦ ?_⟩
  have hpos : 0 < data.length := Nat.pos_of_ne_zero hempty
  rw [wp_raiseIf_bind]
  refine ⟨fun hsize ↦ hrefuses fun h ↦ ?_, fun _ ↦ ?_⟩
  · have hfits := h.fits
    omega
  rw [wp_raiseIf_bind]
  refine ⟨fun hlong ↦ hrefuses fun h ↦ not_lt.mpr h.fits hlong, fun hlong ↦ ?_⟩
  rw [wp_raiseIf_bind]
  refine ⟨fun hnegative ↦ absurd hchunk (not_lt.mpr hnegative), fun _ ↦ ?_⟩
  rw [wp_raiseIf_bind]
  refine ⟨fun hrest ↦ hrefuses fun h ↦ hrest (Int.emod_eq_zero_of_dvd h.aligned), fun hrest ↦ ?_⟩
  rw [wp_raiseIf_bind]
  refine ⟨?_, fun hbytes ↦ ?_⟩
  · rintro ⟨b, hb, hne⟩
    exact hrefuses fun h ↦ hne (h.bytes b hb)
  rw [wp_raiseIf]
  refine ⟨?_, fun hindex ↦ ⟨rfl, fun _ ↦ ?_, fun _ ↦ rfl⟩⟩
  · rintro ⟨i, hi, hne⟩
    exact hrefuses fun h ↦ hne (h.index i hi)
  · refine ⟨fun hnil ↦ ?_, Int.dvd_of_emod_eq_zero (not_not.mp hrest), not_lt.mp hlong, ?_, ?_⟩
    · simp [hnil] at hpos
    · exact fun b hb ↦ by_contra fun hne ↦ hbytes ⟨b, hb, hne⟩
    · exact fun i hi ↦ by_contra fun hne ↦ hindex ⟨i, hi, hne⟩

/-- The payload of a consistent file passes its own validation for the default chunk size only. -/
theorem build_consistent {metadata : TransferMetadata} {expectedBytes expectedChunkIndex : Option ℤ}
    {data : Bytes} (hid : ∃ n, uuidInt metadata.transferId = .ok n) (hchunk : 0 < metadata.chunkSize)
    (hsize : metadata.fileSize ≤ maxFileSize)
    (h : Consistent metadata expectedBytes expectedChunkIndex data) :
    (∃ payload, TransferResumeRequestPayload.build metadata.transferId data.length
        (data.length / metadata.chunkSize) (Sha256.hexdigest data) 1 = .ok payload) ↔
      metadata.chunkSize = chunkSizeDefault := by
  obtain ⟨n, huuid⟩ := hid
  obtain ⟨k, hk⟩ := h.aligned
  have hlength : 0 < (data.length : ℤ) := by
    exact_mod_cast List.length_pos_iff.mpr h.nonempty
  have hdiv : (data.length : ℤ) / metadata.chunkSize = k := by
    rw [hk, Int.mul_ediv_cancel_left _ hchunk.ne']
  have hkpos : 0 < k := by
    rw [hk] at hlength
    exact Int.pos_of_mul_pos_left (by rwa [mul_comm] at hlength) hchunk
  have hnonneg : ¬k < 0 := not_lt.mpr hkpos.le
  unfold TransferResumeRequestPayload.build TransferResumeRequestPayload.validate
  simp only [bind_eq_ok, rejectIf_eq_ok, hdiv]
  constructor
  · rintro ⟨payload, -, ⟨-, -, -, -, -, -, -, -, -, -, -, -, -, -, hoffset⟩, -⟩
    have heq : metadata.chunkSize * k = k * chunkSizeDefault := hk ▸ not_not.mp hoffset
    rw [mul_comm] at heq
    exact mul_left_cancel₀ hkpos.ne' heq
  · intro hdefault
    refine ⟨_, (), ⟨(), ne_nil_of_uuidInt huuid, (), by simp [huuid, Except.toOption], (), ?_, (),
      hnonneg, (), by simp [TransferResumeRequestPayload.protocolVersionCurrent], (), ?_, (), ?_, ?_⟩, rfl⟩
    · have hfits := h.fits
      omega
    · simpa [Sha256.length_hexdigest] using fun c hc ↦ Sha256.mem_lowerHex_of_mem_hexdigest hc
    · exact fun hzero ↦ hkpos.ne' hzero.1
    · rw [hk, hdefault, mul_comm]
      exact fun hne ↦ hne rfl

theorem describes_of_build {metadata : TransferMetadata} {expectedBytes expectedChunkIndex : Option ℤ}
    {data : Bytes} {payload : TransferResumeRequestPayload}
    (h : Consistent metadata expectedBytes expectedChunkIndex data)
    (hbuild : TransferResumeRequestPayload.build metadata.transferId data.length
      (data.length / metadata.chunkSize) (Sha256.hexdigest data) 1 = .ok payload) :
    Describes metadata payload data := by
  simp only [TransferResumeRequestPayload.build, bind_eq_ok] at hbuild
  obtain ⟨-, -, hresult⟩ := hbuild
  rw [← Except.ok.inj hresult]
  exact ⟨rfl, Int.ediv_mul_cancel h.aligned, rfl⟩

/-! ## One call -/

section Call

variable {w : World} {expectedBytes expectedChunkIndex : Option ℤ}

/-- Without a `.part` file the call raises. -/
theorem prepareResumeRequest_absent (hstate : w.self.state = .interrupted)
    (hdirectory : ∀ temp ∈ w.self.tempPath, w.disk.nodes temp ≠ some .directory)
    (h : partBytes w = none) :
    prepareResumeRequest expectedBytes expectedChunkIndex w = (.error .fileNotFound, w) := by
  have hrun : wp (prepareResumeRequest expectedBytes expectedChunkIndex)
      (fun r w' ↦ r = .error .fileNotFound ∧ w' = w) w := by
    unfold prepareResumeRequest
    rw [wp_get_bind, wp_raiseIf_bind]
    refine ⟨fun hother ↦ absurd hstate hother, fun _ ↦ ?_⟩
    cases htemp : w.self.tempPath with
    | none => exact ⟨rfl, rfl⟩
    | some temp =>
      dsimp only
      rw [wp_raiseIf_bind]
      refine ⟨fun _ ↦ ⟨rfl, rfl⟩, fun hexists ↦ ?_⟩
      cases hnode : w.disk.nodes temp with
      | none => exact absurd hnode (not_not.mp hexists)
      | some node =>
        cases node with
        | file data => simp [partBytes, htemp, hnode] at h
        | directory => exact absurd hnode (hdirectory temp htemp)
  exact Prod.ext hrun.1 hrun.2

/-- A `.part` file that is not consistent, or that cannot be read, makes the call raise; otherwise the
payload is built. -/
theorem prepareResumeRequest_present {data : Bytes} (hstate : w.self.state = .interrupted)
    (hchunk : 0 < w.self.metadata.chunkSize) (h : partBytes w = some data) :
    wp (prepareResumeRequest expectedBytes expectedChunkIndex) (fun r w' ↦
      w'.disk.nodes = w.disk.nodes ∧
        (Consistent w.self.metadata expectedBytes expectedChunkIndex data ∧ ReadsNext w.disk ∧
            r = TransferResumeRequestPayload.build w.self.metadata.transferId data.length
              (data.length / w.self.metadata.chunkSize) (Sha256.hexdigest data) 1 ∨
          ¬(Consistent w.self.metadata expectedBytes expectedChunkIndex data ∧ ReadsNext w.disk) ∧
            (∃ e, r = .error e) ∧ w'.self = w.self)) w := by
  unfold partBytes at h
  split at h
  · next content hnode =>
    obtain rfl := Option.some.inj h
    obtain ⟨temp, htemp, hfile⟩ := Option.bind_eq_some_iff.mp hnode
    unfold prepareResumeRequest
    rw [wp_get_bind, wp_raiseIf_bind]
    refine ⟨fun hother ↦ absurd hstate hother, fun _ ↦ ?_⟩
    rw [htemp]
    dsimp only
    rw [wp_raiseIf_bind]
    refine ⟨fun hmissing ↦ absurd hmissing (not_not.mpr ?_), fun _ ↦ ?_⟩
    · simp [Disk.Exists, hfile]
    refine wp_onDisk_bind (stat_file hfile) ?_ ?_
    · rintro e d ⟨rfl, hr⟩
      split at hr
      · next hfails =>
        refine ⟨rfl, .inr ⟨fun hgood ↦ ?_, ⟨_, rfl⟩, rfl⟩⟩
        exact Bool.false_ne_true (hgood.2.1.symm.trans hfails)
      · cases hr
    · rintro size d ⟨rfl, hr⟩
      split at hr
      · cases hr
      obtain rfl := Except.ok.inj hr
      next hstat =>
      apply wp_bind_of (checkPartial_spec hchunk content expectedBytes expectedChunkIndex _)
      · rintro e w₁ ⟨rfl, hcheck⟩
        exact ⟨rfl, .inr ⟨fun hgood ↦ absurd (hcheck.mpr hgood.1) (by simp), ⟨e, rfl⟩, rfl⟩⟩
      · rintro u w₁ ⟨rfl, hcheck⟩
        have hconsistent := hcheck.mp rfl
        have hread : ∀ call, call ≠ .stat → (w.disk.advance .stat).outcome call = w.disk.outcome call := by
          intro call hcall
          simp [outcome, advance, hcall]
        apply wp_bind_of (@readPart_file ⟨w.disk.advance .stat, w.self⟩ temp content hfile)
        · rintro e w₂ ⟨hself, hnodes, hr⟩
          rw [hread .read (by decide)] at hr
          refine ⟨hnodes, .inr ⟨fun hgood ↦ ?_, ⟨e, rfl⟩, hself⟩⟩
          rw [hgood.2.2] at hr
          cases hr
        · rintro data w₂ ⟨hself, hnodes, hr⟩
          rw [hread .read (by decide)] at hr
          split at hr
          · cases hr
          · next hok =>
            obtain rfl := Except.ok.inj hr
            rw [wp_update_bind, wp_ofResult]
            exact ⟨hnodes, .inl ⟨hconsistent, ⟨Bool.eq_false_iff.mpr hstat, Bool.eq_false_iff.mpr hok⟩,
              rfl⟩⟩
  · cases h

/-- A call accepts exactly the consistent `.part` files when the chunk size is the default one and the
disk can be read, and when there is no consistent file. -/
theorem acceptsExactly_iff {now : ℤ} {payload : Payload}
    (hmetadata : TransferMetadata.fromDict now payload = .ok w.self.metadata)
    (hstate : w.self.state = .interrupted)
    (hdirectory : ∀ temp ∈ w.self.tempPath, w.disk.nodes temp ≠ some .directory) :
    AcceptsExactly w expectedBytes expectedChunkIndex ↔
      (HasConsistent w expectedBytes expectedChunkIndex →
        w.self.metadata.chunkSize = chunkSizeDefault ∧ ReadsNext w.disk) := by
  have haccepted := accepted_of_fromDict hmetadata
  cases hdata : partBytes w with
  | none =>
    have hrun := @prepareResumeRequest_absent w expectedBytes expectedChunkIndex hstate hdirectory hdata
    have hnone : ¬HasConsistent w expectedBytes expectedChunkIndex := by simp [HasConsistent, hdata]
    refine ⟨fun _ h ↦ absurd h hnone, fun _ ↦ ⟨fun h ↦ absurd h hnone, ?_, ?_⟩⟩
    · intro p hp
      simp [hrun] at hp
    · intro e _
      simp [hrun]
  | some data =>
    have hhas : HasConsistent w expectedBytes expectedChunkIndex ↔
        Consistent w.self.metadata expectedBytes expectedChunkIndex data := by
      simp [HasConsistent, hdata]
    have hbuild := @build_consistent w.self.metadata expectedBytes expectedChunkIndex data haccepted.uuid
      haccepted.chunkSize.1 haccepted.fileSize.2
    obtain ⟨hnodes, hcases⟩ := @prepareResumeRequest_present w expectedBytes expectedChunkIndex data hstate
      haccepted.chunkSize.1 hdata
    rw [hhas]
    constructor
    · intro h hconsistent
      obtain ⟨p, hp⟩ := h.accepts (hhas.mpr hconsistent)
      rcases hcases with ⟨-, hreads, hr⟩ | ⟨-, ⟨e, he⟩, -⟩
      · exact ⟨(hbuild hconsistent).mp ⟨p, hr ▸ hp⟩, hreads⟩
      · exact nomatch he.symm.trans hp
    · intro h
      rcases hcases with ⟨hconsistent, hreads, hr⟩ | ⟨hbad, ⟨e, he⟩, hself⟩
      · obtain ⟨p, hp⟩ := (hbuild hconsistent).mpr (h hconsistent).1
        rw [hp] at hr
        refine ⟨fun _ ↦ ⟨p, hr⟩, fun p' hp' ↦ ⟨data, hdata, hconsistent, ?_⟩, fun e he ↦ ?_⟩
        · obtain rfl := Except.ok.inj (hr.symm.trans hp')
          exact describes_of_build hconsistent hp
        · exact nomatch he.symm.trans hr
      · have hno : ¬Consistent w.self.metadata expectedBytes expectedChunkIndex data :=
          fun hconsistent ↦ hbad ⟨hconsistent, (h hconsistent).2⟩
        refine ⟨fun hhas' ↦ absurd (hhas.mp hhas') hno, fun p hp ↦ ?_, fun _ _ ↦ ⟨hself, hnodes⟩⟩
        exact nomatch he.symm.trans hp

end Call

/-- An interrupted transfer of 65537 bytes with a `.part` file. -/
def samplePart (chunkSize : ℤ) (data : Bytes) : World where
  disk := rootDisk.put [Text.lit "home", Text.lit "f.part"] (some (.file data))
  self := { IncomingTransfer.new { sampleMetadata "photos/f.txt" with
              fileSize := 65537, chunkSize,
              chunkCount := TransferMetadata.expectedChunks 65537 chunkSize } sampleDir with
    state := .interrupted
    tempPath := some [Text.lit "home", Text.lit "f.part"] }

theorem samplePart_file (chunkSize : ℤ) (data : Bytes) :
    ∀ temp ∈ (samplePart chunkSize data).self.tempPath,
      (samplePart chunkSize data).disk.nodes temp ≠ some .directory := by
  intro temp htemp
  rw [← Option.some.inj htemp]
  simp [samplePart]

theorem acceptsExactly_sample :
    AcceptsExactly (samplePart 65536 (List.replicate 65536 7)) (some 65536) none :=
  (@acceptsExactly_iff _ _ _ 0 (samplePart 65536 []).self.metadata.toDict
    (by decide +kernel) rfl (samplePart_file _ _)).mpr fun _ ↦ ⟨rfl, rfl, rfl⟩

/-- Three chunks of one byte: the file is consistent, and the call raises after it has changed the
object. -/
theorem consistent_refused :
    TransferMetadata.fromDict 0 (samplePart 1 [1, 2, 3]).self.metadata.toDict =
        .ok (samplePart 1 [1, 2, 3]).self.metadata ∧
      HasConsistent (samplePart 1 [1, 2, 3]) none none ∧
      (prepareResumeRequest none none (samplePart 1 [1, 2, 3])).1 =
        .error (.value (.offsetMismatch 3 3 65536)) ∧
      (prepareResumeRequest none none (samplePart 1 [1, 2, 3])).2.self.nextSeq ≠
        (samplePart 1 [1, 2, 3]).self.nextSeq ∧
      ¬AcceptsExactly (samplePart 1 [1, 2, 3]) none none := by
  have hconsistent : HasConsistent (samplePart 1 [1, 2, 3]) none none :=
    ⟨[1, 2, 3], by decide +kernel, ⟨by simp, one_dvd _, by decide, by simp, by simp⟩⟩
  have hraises : (prepareResumeRequest none none (samplePart 1 [1, 2, 3])).1 =
      .error (.value (.offsetMismatch 3 3 65536)) := by decide +kernel
  refine ⟨by decide +kernel, hconsistent, hraises, by decide +kernel, fun h ↦ ?_⟩
  obtain ⟨payload, hpayload⟩ := h.accepts hconsistent
  exact nomatch hraises.symm.trans hpayload

end IncomingTransfer

end Ferry
