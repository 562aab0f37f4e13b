import Ferry.Base.ReadLoop
import Ferry.Android.ChunkCodec
import Ferry.Android.Outgoing
import Ferry.Transfer.ResumeRequest
import Ferry.Transfer.Sizes

/-!
# The hash of a prefix

Before a transfer is resumed the receiver hashes its `.part` file and the sender hashes as many bytes
of the source. Each side does so in a loop of its own over reads that may come back short. All four
loops end, whatever the fragments, and the two sides agree where the source starts with the `.part`
file.
-/

namespace Ferry

namespace ReadLoops

/-- The state of a loop over a prefix. -/
structure PrefixScan where
  remaining : ℤ
  digest : Bytes
  fh : Reader UInt8

/-- The state of a loop over a whole file. -/
structure FileScan where
  digest : Bytes
  fh : Reader UInt8

/-! ## The loops -/

/-- A pass of `while remaining > 0` in `_compute_prefix_sha256`. -/
def prefixPass (scan : PrefixScan) : Pass PrefixScan (Option Text) :=
  if scan.remaining > 0 then
    let (chunk, fh) := scan.fh.read (min 65536 scan.remaining).toNat
    if chunk = [] then .leaves none
    else .again
      { remaining := scan.remaining - chunk.length, digest := scan.digest ++ chunk, fh }
  else .leaves (some (Sha256.hexdigest scan.digest))

/-- `_compute_prefix_sha256`, for a file that is open or could not be opened. -/
def computePrefixSha256 (fuel : ℕ) (fh : Option (Reader UInt8)) (lengthBytes : ℤ) :
    Option (Option Text) :=
  match fh with
  | none => some none
  | some fh => Pass.loop prefixPass fuel { remaining := lengthBytes, digest := [], fh }

/-- A pass of the `while True` in `prepare_resume_request`. -/
def partPass (scan : FileScan) : Pass FileScan Text :=
  let (block, fh) := scan.fh.read 65536
  if block = [] then .leaves (Text.asciiLower (Sha256.hexdigest scan.digest))
  else .again { digest := scan.digest ++ block, fh }

/-- The `partial_sha256` of `prepare_resume_request`. -/
def partialSha256 (fuel : ℕ) (fh : Reader UInt8) : Option Text :=
  Pass.loop partPass fuel { digest := [], fh }

end ReadLoops

namespace Kotlin.ReadLoops

open Ferry.ReadLoops FerryTransferReceiver

/-- A pass of `while (remaining > 0)` in `computePrefixSha256FromUri`. -/
def uriPass (scan : PrefixScan) : Pass PrefixScan (Option Text) :=
  if scan.remaining > 0 then
    let toRead := Kotlin.TransferMetadata.toInt32 (min 65536 scan.remaining)
    match scan.fh.readInto toRead.toNat with
    | (none, _) => .leaves none
    | (some chunk, fh) => .again
      { remaining := toInt64 (scan.remaining - chunk.length), digest := scan.digest ++ chunk, fh }
  else .leaves (some (Sha256.hexdigest scan.digest))

/-- `computePrefixSha256FromUri`, for a stream that is open or could not be opened. -/
def computePrefixSha256FromUri (fuel : ℕ) (fis : Option (Reader UInt8)) (lengthBytes : ℤ) :
    Option (Option Text) :=
  match fis with
  | none => some none
  | some fh => Pass.loop uriPass fuel { remaining := lengthBytes, digest := [], fh }

/-- A pass of the `while` in `computePrefixSha256`. -/
def filePass (scan : FileScan) : Pass FileScan (Option Text) :=
  match scan.fh.readInto 65536 with
  | (none, _) => .leaves (some (Sha256.hexdigest scan.digest))
  | (some chunk, fh) => .again { digest := scan.digest ++ chunk, fh }

/-- `computePrefixSha256`, for a file that is open or could not be opened. -/
def computePrefixSha256 (fuel : ℕ) (fis : Option (Reader UInt8)) : Option (Option Text) :=
  match fis with
  | none => some none
  | some fh => Pass.loop filePass fuel { digest := [], fh }

end Kotlin.ReadLoops

namespace ReadLoops

open FerryTransferReceiver

/-! ## What a pass leaves to do -/

/-- What is still to be returned for a prefix. -/
def PrefixScan.result (scan : PrefixScan) : Option Text :=
  if scan.remaining ≤ scan.fh.rest.length then
    some (Sha256.hexdigest (scan.digest ++ scan.fh.rest.take scan.remaining.toNat))
  else none

/-- What is still to be returned for a file. -/
def FileScan.result (scan : FileScan) : Text := Sha256.hexdigest (scan.digest ++ scan.fh.rest)

theorem PrefixScan.result_of_remaining_le {scan : PrefixScan} (h : scan.remaining ≤ 0) :
    scan.result = some (Sha256.hexdigest scan.digest) := by
  have hnone : scan.remaining.toNat = 0 := Int.toNat_eq_zero.mpr h
  rw [result, if_pos (by omega), hnone, List.take_zero, List.append_nil]

theorem PrefixScan.result_of_rest {scan : PrefixScan} (h : 0 < scan.remaining)
    (hrest : scan.fh.rest = []) : scan.result = none := by
  rw [result, if_neg]
  rw [hrest, List.length_nil]
  omega

/-- A chunk moves from what is left to what is hashed. -/
theorem PrefixScan.result_again {scan : PrefixScan} (h : 0 < scan.remaining) {size : ℕ}
    (hsize : size ≤ scan.remaining) :
    PrefixScan.result
      { remaining := scan.remaining - (scan.fh.read size).1.length
        digest := scan.digest ++ (scan.fh.read size).1
        fh := (scan.fh.read size).2 } = scan.result := by
  have hshort := scan.fh.length_read_le size
  have hsplit := scan.fh.read_append size
  have hlengths := scan.fh.length_read_add size
  unfold PrefixScan.result
  dsimp only
  have hkeep : scan.remaining - (scan.fh.read size).1.length ≤
      ((scan.fh.read size).2.rest.length : ℤ) ↔ scan.remaining ≤ (scan.fh.rest.length : ℤ) := by
    omega
  have hbytes : scan.digest ++ (scan.fh.read size).1 ++
        (scan.fh.read size).2.rest.take (scan.remaining - (scan.fh.read size).1.length).toNat =
      scan.digest ++ scan.fh.rest.take scan.remaining.toNat := by
    have hmore : (scan.remaining - (scan.fh.read size).1.length).toNat =
        scan.remaining.toNat - (scan.fh.read size).1.length := by omega
    rw [List.append_assoc, hmore, ← hsplit, List.take_append,
      List.take_of_length_le (l := (scan.fh.read size).1) (by omega)]
  rw [hbytes]
  simp only [hkeep]

theorem FileScan.result_again (scan : FileScan) (size : ℕ) :
    FileScan.result
      { digest := scan.digest ++ (scan.fh.read size).1, fh := (scan.fh.read size).2 } =
      scan.result := by
  rw [result, List.append_assoc, scan.fh.read_append]
  rfl

/-! ## The loops end -/

theorem prefixPass_advances (scan : PrefixScan) :
    Pass.Advances (fun _ ↦ True) (fun scan ↦ scan.remaining.toNat) PrefixScan.result scan
      (prefixPass scan) := by
  unfold prefixPass
  by_cases hmore : scan.remaining > 0
  · have hsize : 0 < (min 65536 scan.remaining).toNat := by omega
    rw [if_pos hmore]
    dsimp only
    by_cases hend : (scan.fh.read (min 65536 scan.remaining).toNat).1 = []
    · rw [if_pos hend]
      exact (PrefixScan.result_of_rest hmore ((scan.fh.read_eq_nil hsize).mp hend)).symm
    · have hpos := List.length_pos_of_ne_nil hend
      have hle := scan.fh.length_read_le (min 65536 scan.remaining).toNat
      rw [if_neg hend]
      refine ⟨trivial, ?_, PrefixScan.result_again hmore (by omega)⟩
      dsimp only
      omega
  · rw [if_neg hmore]
    exact (PrefixScan.result_of_remaining_le (not_lt.mp hmore)).symm

/-- A `Long` that has more to read asks for as much as the `Int` says. -/
theorem toRead_eq {remaining : ℤ} (hmore : 0 < remaining) :
    Kotlin.TransferMetadata.toInt32 (min 65536 remaining) = min 65536 remaining := by
  have hnat : (min 65536 remaining) = ((min 65536 remaining).toNat : ℤ) := by omega
  rw [hnat, toInt32_of_lt (by omega)]

theorem uriPass_advances (scan : PrefixScan) (hlong : scan.remaining < 2 ^ 63) :
    Pass.Advances (fun scan ↦ scan.remaining < 2 ^ 63) (fun scan ↦ scan.remaining.toNat)
      PrefixScan.result scan (Kotlin.ReadLoops.uriPass scan) := by
  unfold Kotlin.ReadLoops.uriPass
  by_cases hmore : scan.remaining > 0
  · have hsize : 0 < (min 65536 scan.remaining).toNat := by omega
    rw [if_pos hmore, toRead_eq hmore]
    dsimp only
    by_cases hend : scan.fh.rest = []
    · rw [Reader.readInto_of_end hend hsize]
      exact (PrefixScan.result_of_rest hmore hend).symm
    · have hpos := List.length_pos_of_ne_nil (mt (scan.fh.read_eq_nil hsize).mp hend)
      have hle := scan.fh.length_read_le (min 65536 scan.remaining).toNat
      rw [Reader.readInto_of_more hend]
      dsimp only
      rw [toInt64_of_lt (by omega) (by omega)]
      refine ⟨?_, ?_, PrefixScan.result_again hmore (by omega)⟩
      · dsimp only
        omega
      · dsimp only
        omega
  · rw [if_neg hmore]
    exact (PrefixScan.result_of_remaining_le (not_lt.mp hmore)).symm

theorem partPass_advances (scan : FileScan) :
    Pass.Advances (fun _ ↦ True) (fun scan ↦ scan.fh.rest.length) FileScan.result scan
      (partPass scan) := by
  unfold partPass
  dsimp only
  by_cases hend : (scan.fh.read 65536).1 = []
  · rw [if_pos hend, Sha256.asciiLower_hexdigest]
    change _ = Sha256.hexdigest (scan.digest ++ scan.fh.rest)
    rw [(scan.fh.read_eq_nil (by norm_num)).mp hend, List.append_nil]
  · have hpos := List.length_pos_of_ne_nil hend
    have hlengths := scan.fh.length_read_add 65536
    rw [if_neg hend]
    refine ⟨trivial, ?_, scan.result_again 65536⟩
    dsimp only
    omega

theorem filePass_advances (scan : FileScan) :
    Pass.Advances (fun _ ↦ True) (fun scan ↦ scan.fh.rest.length) (fun scan ↦ some scan.result) scan
      (Kotlin.ReadLoops.filePass scan) := by
  have hsize : 0 < 65536 := by norm_num
  unfold Kotlin.ReadLoops.filePass
  by_cases hend : scan.fh.rest = []
  · rw [Reader.readInto_of_end hend hsize]
    change _ = some (Sha256.hexdigest (scan.digest ++ scan.fh.rest))
    rw [hend, List.append_nil]
  · have hpos := List.length_pos_of_ne_nil (mt (scan.fh.read_eq_nil hsize).mp hend)
    have hlengths := scan.fh.length_read_add 65536
    rw [Reader.readInto_of_more hend]
    refine ⟨trivial, ?_, congrArg some (scan.result_again 65536)⟩
    dsimp only
    omega

section Results

variable (content : Bytes) (sizes : ℕ → ℕ) {n fuel : ℕ}

/-- The hash of the first bytes of a content that has as many. -/
def prefixHash (content : Bytes) (n : ℕ) : Option Text :=
  if n ≤ content.length then some (Sha256.hexdigest (content.take n)) else none

theorem result_start (n : ℕ) :
    PrefixScan.result { remaining := n, digest := [], fh := { rest := content, sizes } } =
      prefixHash content n := by
  unfold PrefixScan.result prefixHash
  simp only [Nat.cast_le, Int.toNat_natCast, List.nil_append]

theorem computePrefixSha256_eq (hfuel : n < fuel) :
    computePrefixSha256 fuel (some { rest := content, sizes }) n = some (prefixHash content n) := by
  rw [← result_start content sizes n]
  exact Pass.loop_eq (fun scan ↦ scan.remaining.toNat) PrefixScan.result
    (fun scan _ ↦ prefixPass_advances scan) trivial (by simpa using hfuel)

theorem computePrefixSha256FromUri_eq (hlong : n < 2 ^ 63) (hfuel : n < fuel) :
    Kotlin.ReadLoops.computePrefixSha256FromUri fuel (some { rest := content, sizes }) n =
      some (prefixHash content n) := by
  rw [← result_start content sizes n]
  exact Pass.loop_eq (fun scan ↦ scan.remaining.toNat) PrefixScan.result uriPass_advances
    (by simpa using (by exact_mod_cast hlong : (n : ℤ) < 2 ^ 63)) (by simpa using hfuel)

theorem partialSha256_eq (hfuel : content.length < fuel) :
    partialSha256 fuel { rest := content, sizes } = some (Sha256.hexdigest content) :=
  Pass.loop_eq (fun scan ↦ scan.fh.rest.length) FileScan.result
    (fun scan _ ↦ partPass_advances scan) trivial hfuel

theorem computePrefixSha256_file_eq (hfuel : content.length < fuel) :
    Kotlin.ReadLoops.computePrefixSha256 fuel (some { rest := content, sizes }) =
      some (some (Sha256.hexdigest content)) :=
  Pass.loop_eq (fun scan : FileScan ↦ scan.fh.rest.length) (fun scan ↦ some scan.result)
    (fun scan _ ↦ filePass_advances scan) trivial hfuel

theorem prefixHash_of_isPrefix {part : Bytes} (h : part <+: content) :
    prefixHash content part.length = some (Sha256.hexdigest part) := by
  rw [prefixHash, if_pos h.length_le, ← List.prefix_iff_eq_take.mp h]

end Results

/-! ## The parties of a resumption -/

open Exec Disk IncomingTransfer

/-- The request of `prepare_resume_request` names the hash of the `.part` file. -/
theorem partialSha256_of_prepareResumeRequest {w : World} {temp : Path} {part : Bytes}
    (htemp : w.self.tempPath = some temp) (hfile : w.disk.nodes temp = some (.file part))
    (expectedBytes expectedChunkIndex : Option ℤ) :
    wp (prepareResumeRequest expectedBytes expectedChunkIndex)
      (fun r _ ↦ ∀ payload, r = .ok payload → payload.partialSha256 = Sha256.hexdigest part) w := by
  unfold prepareResumeRequest
  rw [wp_get_bind, wp_raiseIf_bind]
  refine ⟨fun _ _ h ↦ (nomatch h), fun _ ↦ ?_⟩
  rw [htemp]
  dsimp only
  rw [wp_raiseIf_bind]
  refine ⟨fun _ _ h ↦ (nomatch h), fun _ ↦ ?_⟩
  refine wp_onDisk_bind (stat_file hfile) (fun _ _ _ _ h ↦ (nomatch h)) ?_
  rintro size d ⟨rfl, -⟩
  apply wp_bind_of (checkPartial_le _ size expectedBytes expectedChunkIndex _)
    (fun _ _ _ _ h ↦ (nomatch h))
  rintro - w₁ ⟨rfl, -⟩
  apply wp_bind_of (@readPart_file ⟨w.disk.advance .stat, w.self⟩ temp part hfile)
    (fun _ _ _ _ h ↦ (nomatch h))
  rintro data w₂ ⟨-, -, hread⟩
  split at hread
  · exact nomatch hread
  · obtain rfl := Except.ok.inj hread
    rw [IncomingTransfer.wp_update_bind, wp_ofResult]
    intro payload hbuild
    simp only [TransferResumeRequestPayload.build, bind_eq_ok] at hbuild
    obtain ⟨-, -, hresult⟩ := hbuild
    rw [← Except.ok.inj hresult]

/-- What the sending coroutine compares with is what its loop returns. -/
theorem computePrefixSha256FromUri_eq_prefixHash (content : Bytes) (n : ℕ) :
    FerryControlClient.computePrefixSha256FromUri (some content) n = prefixHash content n := by
  unfold FerryControlClient.computePrefixSha256FromUri prefixHash
  rw [Option.bind_some]
  by_cases hle : n ≤ content.length
  · rw [if_neg (by omega), if_pos hle, Int.toNat_natCast]
  · rw [if_pos (by omega), if_neg hle]

/-- A file that can be read is hashed as its loop does. -/
theorem computePrefixSha256_eq_prefixHash {p : Path} {content : Bytes} {d : Disk}
    (hfile : d.nodes p = some (.file content)) (hread : d.Reliable .read) (n : ℕ) :
    wp (Ferry.computePrefixSha256 p n) (fun r _ ↦ r = .ok (prefixHash content n)) d := by
  unfold Ferry.computePrefixSha256 prefixHash
  apply wp_bind_of (readBlocks_spec p d)
  · intro e d' h
    exact nomatch h.2 ⟨content, hfile⟩ hread
  · intro block d' h
    obtain rfl := Except.ok.inj (h.2 ⟨content, hfile⟩ hread)
    dsimp only
    rw [content_of_nodes hfile]
    by_cases hle : n ≤ content.length
    · rw [if_neg (by simp; omega), if_pos hle, Int.toNat_natCast]
      exact rfl
    · rw [if_pos (.inr (by omega)), if_neg hle]
      exact rfl

/-- However the reads are cut, the two loops over a prefix end with the hash of the first bytes if
there are as many, and with nothing otherwise; a `Long` is below `2 ^ 63`. Where the content starts
with a `.part` file of that length, that is the hash to which the two loops over the `.part` file
come, and the one that the resume request names. -/
theorem prefix_loops (content : Bytes) (n : ℕ) :
    (∀ sizes fuel, n < fuel →
      computePrefixSha256 fuel (some { rest := content, sizes }) n =
        some (if n ≤ content.length then some (Sha256.hexdigest (content.take n)) else none)) ∧
    (n < 2 ^ 63 → ∀ sizes fuel, n < fuel →
      Kotlin.ReadLoops.computePrefixSha256FromUri fuel (some { rest := content, sizes }) n =
        some (if n ≤ content.length then some (Sha256.hexdigest (content.take n)) else none)) ∧
    ∀ part : Bytes, part <+: content → part.length = n → ∃ hash,
      (if n ≤ content.length then some (Sha256.hexdigest (content.take n)) else none) = some hash ∧
      (∀ sizes fuel, n < fuel → partialSha256 fuel { rest := part, sizes } = some hash) ∧
      (∀ sizes fuel, n < fuel →
        Kotlin.ReadLoops.computePrefixSha256 fuel (some { rest := part, sizes }) =
          some (some hash)) ∧
      ∀ w temp expectedBytes expectedChunkIndex payload, w.self.tempPath = some temp →
        w.disk.nodes temp = some (.file part) →
        (prepareResumeRequest expectedBytes expectedChunkIndex w).1 = .ok payload →
        payload.partialSha256 = hash := by
  refine ⟨fun sizes fuel hfuel ↦ computePrefixSha256_eq content sizes hfuel,
    fun hlong sizes fuel hfuel ↦ computePrefixSha256FromUri_eq content sizes hlong hfuel, ?_⟩
  rintro part hpart rfl
  refine ⟨Sha256.hexdigest part, prefixHash_of_isPrefix content hpart,
    fun sizes fuel hfuel ↦ partialSha256_eq part sizes hfuel,
    fun sizes fuel hfuel ↦ computePrefixSha256_file_eq part sizes hfuel, ?_⟩
  intro w temp expectedBytes expectedChunkIndex payload htemp hfile hpayload
  exact partialSha256_of_prepareResumeRequest htemp hfile expectedBytes expectedChunkIndex payload
    hpayload

theorem prefix_loops_sample :
    computePrefixSha256 3 (some { rest := [1, 2, 3], sizes := fun _ ↦ 1 }) 2 =
      some (some (Sha256.hexdigest [1, 2])) ∧
    Kotlin.ReadLoops.computePrefixSha256FromUri 5 (some { rest := [1, 2, 3], sizes := fun _ ↦ 2 }) 4 =
      some none ∧
    ∃ hash, partialSha256 3 { rest := [1, 2], sizes := fun i ↦ i } = some hash ∧
      Kotlin.ReadLoops.computePrefixSha256 3 (some { rest := [1, 2], sizes := fun _ ↦ 2 }) =
        some (some hash) := by
  obtain ⟨hash, -, hpart, hfile, -⟩ :=
    (prefix_loops [1, 2, 3] 2).2.2 [1, 2] ⟨[3], rfl⟩ rfl
  exact ⟨(prefix_loops [1, 2, 3] 2).1 (fun _ ↦ 1) 3 (by decide),
    (prefix_loops [1, 2, 3] 4).2.1 (by decide) (fun _ ↦ 2) 5 (by decide),
    hash, hpart (fun i ↦ i) 3 (by decide), hfile (fun _ ↦ 2) 3 (by decide)⟩

end ReadLoops

end Ferry
