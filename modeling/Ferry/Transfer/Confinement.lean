import Ferry.Transfer.IncomingRun

/-!
# Where a received file is placed

A file that `finalise` delivers is placed strictly inside the download directory, with one
exception: a relative path that stands for the download directory itself.  The directory exists, so
the conflict rename puts the file beside it.
-/

namespace Ferry

namespace IncomingTransfer

open Exec Disk Text

section Confinement

variable {metadata : TransferMetadata} {dir : DownloadDir}

theorem conflictPath_eq {self : IncomingTransfer} {dest : Path} {n : ℕ}
    (huuid : uuidInt self.metadata.transferId = .ok n) (hnames : ∀ c ∈ dest, Path.IsName c) :
    self.conflictPath dest =
      dest.parent ++ [self.metadata.transferId.take 8 ++ lit "_" ++ dest.name] := by
  have hslash : slash ∉ dest.name := by
    unfold Path.name
    cases hlast : dest.getLast? with
    | none => simp [List.getLastD_eq_getLast?, hlast]
    | some c =>
      have hmem := List.mem_of_getLast? hlast
      simpa [List.getLastD_eq_getLast?, hlast] using (hnames c hmem).slash_notMem
  have hname := isName_conflict huuid hslash
  have hparent : ∀ c ∈ dest.parent, Path.IsName c := fun c hc ↦
    hnames c (List.mem_of_mem_dropLast hc)
  rw [conflictPath, Path.join_name hname, Path.resolve_append_names (by simpa using hname),
    Path.resolve_names hparent]

/-- A destination below the directory stays below it under the conflict rename. -/
theorem isProperAncestor_destination {self : IncomingTransfer} {disk : Disk} {names : List Text} {n : ℕ}
    (huuid : uuidInt self.metadata.transferId = .ok n) (hne : names ≠ [])
    (hnames : ∀ c ∈ names, Path.IsName c) :
    Path.IsProperAncestor dir.path (self.destination disk (dir.path ++ names)) := by
  have hall : ∀ c ∈ dir.path ++ names, Path.IsName c := by
    intro c hc
    rcases List.mem_append.mp hc with hc | hc
    · exact dir.isName c hc
    · exact hnames c hc
  unfold destination
  split
  · rw [conflictPath_eq huuid hall, Path.parent, List.dropLast_append_of_ne_nil hne, List.append_assoc]
    exact ⟨List.prefix_append _ _, by simp⟩
  · exact ⟨List.prefix_append _ _, by simpa using hne⟩

/-- The conflict rename of the directory itself leaves the directory, unless it is the root. -/
theorem isProperAncestor_conflictPath_self {self : IncomingTransfer} {n : ℕ}
    (huuid : uuidInt self.metadata.transferId = .ok n) :
    Path.IsProperAncestor dir.path (self.conflictPath dir.path) ↔ dir.path = [] := by
  rw [conflictPath_eq huuid dir.isName]
  constructor
  · rintro ⟨hinitial, hne⟩
    by_contra hroot
    have hlength : (dir.path.parent ++ [self.metadata.transferId.take 8 ++ lit "_" ++ dir.path.name]).length =
        dir.path.length := by
      have hpos := List.length_pos_of_ne_nil hroot
      simp only [Path.parent, List.length_append, List.length_dropLast, List.length_singleton]
      omega
    exact hne (hinitial.eq_of_length hlength.symm)
  · intro hroot
    rw [hroot]
    exact ⟨List.nil_prefix, by simp [Path.parent]⟩

/-- For accepted metadata and a run that ends in a `True` result: the file is at the path that
`finalise` chose, and this path is strictly inside the download directory exactly when the relative
path of the payload does not normalise to `.` or the download directory is the root. -/
theorem delivered_inside_iff (now : ℤ) (data : Payload) (metadata : TransferMetadata) (dir : DownloadDir)
    (disk : Disk) (w w' : World) (haccepted : TransferMetadata.fromDict now data = .ok metadata)
    (hrun : Run metadata dir disk w) (hfinalise : finalise w = (.ok true, w')) :
    ∃ dest, renameTarget w = some dest ∧ w'.disk.nodes dest ≠ none ∧
      (Path.IsProperAncestor dir.path dest ↔
        data.getText "relative_path" "" = [] ∨
          Path.normpath (data.getText "relative_path" "") ≠ dotText ∨ dir.path = []) := by
  have haccept := accepted_of_fromDict haccepted
  obtain ⟨n, huuid⟩ := haccept.uuid
  have hcases := finalise_cases hrun.sound.owns
  unfold wp at hcases
  rw [hfinalise] at hcases
  rcases hcases with ⟨-, hne⟩ | ⟨dest, hrenamed, -⟩
  · exact absurd rfl hne
  have hplaced : w'.disk.nodes dest ≠ none := by
    rw [hrenamed.moved.nodes, nodes_move_dst]
    exact hrenamed.moved.exists_part
  refine ⟨dest, hrenamed.target, hplaced, ?_⟩
  obtain ⟨final, hfinal, hdest⟩ := hrenamed.final
  have hresolved := (hrun.sound.of_kept hrenamed.flushed).finalPath final hfinal
  have huuid' : uuidInt (flushTempFh w).2.self.metadata.transferId = .ok n := by
    rw [hrenamed.flushed.owns.metadata_eq, huuid]
  have hrelative := normpath_checkRelativePath haccept.relativePath
  rcases resolveSafeDestination_spec hresolved with ⟨hne, hdot, hself⟩ | ⟨hbelow, names, hnames, hall, hself⟩
  · obtain ⟨hraw, hnorm, -, hidem⟩ := hrelative.resolve_left fun h ↦ hne h.2
    have hraw' : Path.normpath (data.getText "relative_path" "") = dotText := by
      rw [← hnorm, ← hidem, hdot]
    have hiff : Path.IsProperAncestor dir.path dest ↔ dir.path = [] := by
      rw [hdest, hself]
      unfold destination
      split
      · exact isProperAncestor_conflictPath_self huuid'
      · next hmissing =>
        refine ⟨fun h ↦ absurd rfl h.2, fun hroot ↦ absurd ?_ hmissing⟩
        have hparent := hrenamed.moved.parent
        rw [hdest, hself, destination, if_neg hmissing, hroot] at hparent
        rw [hroot]
        intro hnone
        rw [Path.parent, List.dropLast_nil, hnone] at hparent
        simp at hparent
    simp [hiff, hraw, hraw']
  · have hinside : Path.IsProperAncestor dir.path dest := by
      rw [hdest, hself]
      exact isProperAncestor_destination huuid' hnames hall
    refine iff_of_true hinside ?_
    rcases hrelative with ⟨hraw, -⟩ | ⟨-, hnorm, hne, hidem⟩
    · exact .inl hraw
    · refine .inr (.inl ?_)
      rw [← hnorm, ← hidem]
      exact hbelow.resolve_left hne

end Confinement

/-! ## A payload that leaves the directory -/

/-- A file of three bytes, with a given relative path. -/
def samplePayload (relativePath : String) : Payload :=
  [(lit "transfer_id", .str (lit "01234567-89ab-4def-8123-456789abcdef")),
   (lit "file_name", .str (lit "f.txt")), (lit "file_size", .int 3), (lit "chunk_count", .int 1),
   (lit "sha256", .str (Sha256.hexdigest [1, 2, 3])), (lit "relative_path", .str (lit relativePath))]

def sampleMetadata (relativePath : String) : TransferMetadata where
  transferId := lit "01234567-89ab-4def-8123-456789abcdef"
  fileName := lit "f.txt"
  fileSize := 3
  mimeType := lit "application/octet-stream"
  sha256 := Sha256.hexdigest [1, 2, 3]
  chunkSize := 65536
  chunkCount := 1
  senderIdentity := []
  createdAt := 0
  protocolVersion := 1
  batchId := []
  relativePath := lit relativePath

/-- The directory `/home/dl` on a disk that has only its root. -/
def sampleDir : DownloadDir where
  path := [lit "home", lit "dl"]
  isName := by
    have hname : ∀ c ∈ [lit "home", lit "dl"], c ≠ [] ∧ c ≠ dotText ∧ c ≠ dotdot ∧ slash ∉ c := by decide
    exact fun c hc ↦ ⟨(hname c hc).1, (hname c hc).2.1, (hname c hc).2.2.1, (hname c hc).2.2.2⟩

def rootDisk : Disk where
  nodes := fun p ↦ if p = [] then some .directory else none
  faults := fun _ ↦ []

/-- The state after `begin` and the only chunk. -/
def sampleReceived (relativePath : String) : World :=
  let w := (Call.begin.run ⟨rootDisk, .new (sampleMetadata relativePath) sampleDir⟩).2
  ((Call.receiveChunk ⟨lit "01234567-89ab-4def-8123-456789abcdef", 0, [1, 2, 3]⟩).run w).2

theorem run_sampleReceived (relativePath : String) :
    Run (sampleMetadata relativePath) sampleDir rootDisk (sampleReceived relativePath) :=
  .tail (.single (.call .begin _)) (.call (.receiveChunk _) _)

theorem delivered_inside_iff_sample :
    ∃ dest, renameTarget (sampleReceived "photos/f.txt") = some dest ∧
      (finalise (sampleReceived "photos/f.txt")).2.disk.nodes dest ≠ none ∧
      (Path.IsProperAncestor sampleDir.path dest ↔
        (samplePayload "photos/f.txt").getText "relative_path" "" = [] ∨
          Path.normpath ((samplePayload "photos/f.txt").getText "relative_path" "") ≠ dotText ∨
          sampleDir.path = []) :=
  delivered_inside_iff 0 (samplePayload "photos/f.txt") (sampleMetadata "photos/f.txt") sampleDir
    rootDisk (sampleReceived "photos/f.txt") (finalise (sampleReceived "photos/f.txt")).2
    (by decide +kernel) (run_sampleReceived _) (Prod.ext (by decide +kernel) rfl)

/-- The relative path `a/..` is accepted, the run ends in `True`, and the file is placed beside the
download directory. -/
theorem delivered_outside_sample :
    TransferMetadata.fromDict 0 (samplePayload "a/..") = .ok (sampleMetadata ".") ∧
      Run (sampleMetadata ".") sampleDir rootDisk (sampleReceived ".") ∧
      (finalise (sampleReceived ".")).1 = .ok true ∧
      renameTarget (sampleReceived ".") = some [lit "home", lit "01234567_dl"] ∧
      (finalise (sampleReceived ".")).2.disk.nodes [lit "home", lit "01234567_dl"] =
        some (.file [1, 2, 3]) ∧
      ¬Path.IsProperAncestor sampleDir.path [lit "home", lit "01234567_dl"] :=
  ⟨by decide +kernel, run_sampleReceived _, by decide +kernel, by decide +kernel, by decide +kernel,
    by decide +kernel⟩

end IncomingTransfer

end Ferry
