import Ferry.Transfer.Incoming

/-!
# Destinations

What the sanitiser, the UUID check and the path checks leave of a remote-supplied name: file names
and transfer ids are single components, and a destination is the download directory itself or a
path below it.
-/

namespace Ferry

open Text Path

/-! ## Names -/

theorem isName_of_sanitiseFilename {raw name : Text} (h : sanitiseFilename raw = .ok name)
    (hne : name ≠ []) : IsName name := by
  simp only [sanitiseFilename] at h
  split at h
  · simp at h
  · split at h
    · exact absurd (Except.ok.inj h).symm hne
    · split at h
      · exact absurd (Except.ok.inj h).symm hne
      · next hdots =>
        simp only [not_or] at hdots
        rw [← Except.ok.inj h]
        refine ⟨hdots.1, hdots.2.1, hdots.2.2, fun hslash ↦ ?_⟩
        have hfilter := (prefix_utf8Truncate _ _).subset hslash
        have hstrip := (List.mem_filter.mp hfilter).1
        exact slash_notMem_basename _ ((List.dropWhile_sublist _).subset hstrip)

/-- The code points of a text that the UUID parser accepts. -/
theorem isIntChar_of_uuidInt {t : Text} {n : ℕ} (h : uuidInt t = .ok n) {c : CodePoint} (hc : c ∈ t)
    (hurn : c ∉ lit "urn:") (huuid : c ∉ lit "uuid:") (hbrace : c ∉ lit "\x7b\x7d")
    (hdash : c ∉ lit "-") : isIntChar 16 c := by
  simp only [uuidInt, bind_eq_ok, require_eq_ok] at h
  obtain ⟨-, -, k, hk, -⟩ := h
  refine isIntChar_of_parseInt hk c (mem_remove (by decide) hdash (mem_strip hbrace ?_))
  exact mem_remove (by decide) huuid (mem_remove (by decide) hurn hc)

theorem slash_notMem_of_uuidInt {t : Text} {n : ℕ} (h : uuidInt t = .ok n) : slash ∉ t := by
  intro hslash
  have hchar := isIntChar_of_uuidInt h hslash (by decide) (by decide) (by decide) (by decide)
  exact absurd hchar (by decide)

theorem ne_nil_of_uuidInt {t : Text} {n : ℕ} (h : uuidInt t = .ok n) : t ≠ [] := by
  rintro rfl
  have hempty : uuidInt [] = .error (.value .badlyFormedUuid) := by decide
  simp [hempty] at h

/-- `f"{transfer_id}.part"` is a single component. -/
theorem isName_part {t : Text} {n : ℕ} (h : uuidInt t = .ok n) : IsName (t ++ lit ".part") where
  ne_nil := by simp [lit]
  ne_dot := by
    intro heq
    have hlen := congrArg List.length heq
    simp [lit, dotText] at hlen
  ne_dotdot := by
    intro heq
    have hlen := congrArg List.length heq
    simp [lit, dotdot] at hlen
  slash_notMem := by
    simp only [List.mem_append, not_or]
    exact ⟨slash_notMem_of_uuidInt h, by decide⟩

/-- `f"{transfer_id[:8]}_{name}"` is a single component. -/
theorem isName_conflict {t name : Text} {n : ℕ} (h : uuidInt t = .ok n) (hname : slash ∉ name) :
    IsName (t.take 8 ++ lit "_" ++ name) := by
  have hunder : underscore ∈ t.take 8 ++ lit "_" ++ name := by
    simp only [List.mem_append]
    exact .inl (.inr (by decide))
  refine ⟨List.ne_nil_of_mem hunder, ?_, ?_, ?_⟩
  · intro heq
    rw [heq] at hunder
    exact absurd hunder (by decide)
  · intro heq
    rw [heq] at hunder
    exact absurd hunder (by decide)
  · simp only [List.mem_append, not_or]
    exact ⟨⟨fun hslash ↦ slash_notMem_of_uuidInt h (List.mem_of_mem_take hslash), by decide⟩, hname⟩

/-! ## Relative paths -/

/-- A text that passes the traversal checks normalises to `.` or to ordinary components. -/
theorem normpath_of_not_isTraversal {t : Text} (h : isTraversal (normpath t) = false) :
    normpath t = dotText ∨
      ∃ names ≠ [], (∀ c ∈ names, IsName c) ∧ normpath t = [slash].intercalate names := by
  simp only [isTraversal, Bool.or_eq_false_iff] at h
  exact normpath_eq_names (by simp [h.1.1.1.1]) (by simp [h.1.1.2])

/-- The parser stores a relative path in normal form. -/
theorem normpath_checkRelativePath {raw relativePath : Text}
    (h : TransferMetadata.checkRelativePath raw = .ok relativePath) :
    (raw = [] ∧ relativePath = []) ∨
      (raw ≠ [] ∧ relativePath = normpath raw ∧ relativePath ≠ [] ∧
        normpath relativePath = relativePath) := by
  simp only [TransferMetadata.checkRelativePath] at h
  split at h
  · next hne =>
    simp only [bind_eq_ok, rejectIf_eq_ok, Bool.not_eq_true] at h
    obtain ⟨-, htraversal, hnorm⟩ := h
    rw [← Except.ok.inj hnorm]
    refine .inr ⟨hne, rfl, ?_⟩
    rcases normpath_of_not_isTraversal htraversal with hdot | ⟨names, hnames, hall, heq⟩
    · rw [hdot, normpath_dotText]
      exact ⟨by decide, rfl⟩
    · rw [heq, normpath_intercalate hnames hall]
      obtain ⟨d, rest, hhead, -⟩ := intercalate_names_head hnames hall
      exact ⟨by simp [hhead], rfl⟩
  · next hempty =>
    exact .inl ⟨by simpa using hempty, by simpa [← Except.ok.inj h] using hempty⟩

/-! ## Resolution -/

theorem resolvePath_eq_ok {p q : Path} (h : resolvePath p = .ok q) : q = p.resolve := by
  simp only [resolvePath] at h
  split at h
  · exact (Except.ok.inj h).symm
  · simp at h

/-- The two ways a destination is formed, before its last check. -/
theorem resolveSafeDestination_cases {stagingDir : Path} {fileName relativePath : Text} {dest : Path}
    (h : resolveSafeDestination stagingDir fileName relativePath = .ok dest) :
    (relativePath ≠ [] ∧ isTraversal (normpath relativePath) = false ∧
        dest = (Path.join stagingDir (normpath relativePath)).resolve) ∨
      (relativePath = [] ∧ ∃ sanitised ≠ [], sanitiseFilename fileName = .ok sanitised ∧
        dest = (Path.join stagingDir sanitised).resolve) := by
  simp only [resolveSafeDestination, joinDestination, bind_eq_ok, rejectIf_eq_ok] at h
  obtain ⟨sanitised, hname, -, hne, q, hq, -, -, hdest⟩ := h
  rw [← Except.ok.inj hdest]
  split at hq
  · next hrel =>
    simp only [bind_eq_ok, rejectIf_eq_ok, Bool.not_eq_true] at hq
    obtain ⟨-, htraversal, hresolve⟩ := hq
    exact .inl ⟨hrel, htraversal, resolvePath_eq_ok hresolve⟩
  · next hrel =>
    exact .inr ⟨by simpa using hrel, sanitised, hne, hname, resolvePath_eq_ok hq⟩

theorem join_intercalate {base : Path} {names : List Text} (hne : names ≠ [])
    (hnames : ∀ c ∈ names, IsName c) : Path.join base ([slash].intercalate names) = base ++ names := by
  obtain ⟨d, rest, hhead, hd⟩ := intercalate_names_head hne hnames
  rw [Path.join, if_neg (by simp [hhead, List.isPrefixOf, hd]), parts_intercalate hne hnames]

theorem resolve_join_dotText (base : Path) : (Path.join base dotText).resolve = base.resolve := by
  rw [Path.join, if_neg (by decide), parts_dotText, List.append_nil]

/-- A resolved destination is below the download directory, unless the relative path stands for
the directory itself. -/
theorem resolveSafeDestination_spec {dir : DownloadDir} {fileName relativePath : Text} {dest : Path}
    (h : resolveSafeDestination dir.path fileName relativePath = .ok dest) :
    (relativePath ≠ [] ∧ normpath relativePath = dotText ∧ dest = dir.path) ∨
      ((relativePath = [] ∨ normpath relativePath ≠ dotText) ∧
        ∃ names ≠ [], (∀ c ∈ names, IsName c) ∧ dest = dir.path ++ names) := by
  rcases resolveSafeDestination_cases h with ⟨hrel, htraversal, hdest⟩ | ⟨hrel, name, hne, hname, hdest⟩
  · rcases normpath_of_not_isTraversal htraversal with hdot | ⟨names, hnames, hall, heq⟩
    · rw [hdot, resolve_join_dotText, resolve_names dir.isName] at hdest
      exact .inl ⟨hrel, hdot, hdest⟩
    · rw [heq, join_intercalate hnames hall, resolve_append_names hall, resolve_names dir.isName] at hdest
      refine .inr ⟨.inr fun hdot ↦ ?_, names, hnames, hall, hdest⟩
      have hparts : names = [] := by
        rw [← parts_intercalate hnames hall, ← heq, hdot, parts_dotText]
      exact hnames hparts
  · have hisName := isName_of_sanitiseFilename hname hne
    rw [join_name hisName, resolve_append_names (by simpa using hisName),
      resolve_names dir.isName] at hdest
    exact .inr ⟨.inl hrel, [name], by simp, by simpa using hisName, hdest⟩

/-! ## What the parser accepts -/

/-- What a transfer relies on after its metadata was parsed. -/
structure Accepted (data : Payload) (metadata : TransferMetadata) : Prop where
  uuid : ∃ n, uuidInt metadata.transferId = .ok n
  fileName : metadata.fileName ≠ []
  relativePath : TransferMetadata.checkRelativePath (data.getText "relative_path" "") =
    .ok metadata.relativePath
  fileSize : 0 ≤ metadata.fileSize ∧ metadata.fileSize ≤ maxFileSize
  chunkSize : 0 < metadata.chunkSize ∧ metadata.chunkSize ≤ maxChunkPayload
  chunkCount : metadata.chunkCount =
    TransferMetadata.expectedChunks metadata.fileSize metadata.chunkSize

theorem accepted_of_fromDict {now : ℤ} {data : Payload} {metadata : TransferMetadata}
    (h : TransferMetadata.fromDict now data = .ok metadata) : Accepted data metadata := by
  simp only [TransferMetadata.fromDict, bind_eq_ok, rejectIf_eq_ok] at h
  obtain ⟨tid, -, n, huuid, name, -, -, hname, rel, hrel, _, -, size, -, -, hnonneg, -, hlimit, chunk, -,
    -, hchunk, count, -, -, hcount, -, -, _, -, _, -, hresult⟩ := h
  rw [← Except.ok.inj hresult]
  exact ⟨⟨n, huuid⟩, hname, hrel, ⟨Int.not_lt.mp hnonneg, Int.not_lt.mp hlimit⟩,
    ⟨Int.not_le.mp (not_or.mp hchunk).1, Int.not_lt.mp (not_or.mp hchunk).2⟩, not_not.mp hcount⟩

end Ferry
