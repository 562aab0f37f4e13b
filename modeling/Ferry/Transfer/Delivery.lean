import Ferry.Transfer.Integrity

/-!
# Delivery and its result

A file appears at the destination of a transfer only in a `finalise` that returns `True` and leaves
COMPLETED, as long as `finalise` is not called with a matching digest from a state without chunks
flowing, and the destination is not the `.part` file itself.  Outside these conditions `finalise`
renames the file first and raises afterwards.
-/

namespace Ferry

namespace IncomingTransfer

open Exec Disk

/-- `p` is the final path of a transfer or its conflict-renamed path. -/
def IsDestination (metadata : TransferMetadata) (dir : DownloadDir) (p : Path) : Prop :=
  ∃ dest, resolveSafeDestination dir.path metadata.fileName metadata.relativePath = .ok dest ∧
    (p = dest ∨ p = (new metadata dir).conflictPath dest)

/-- A file is there after the step that was not there before it. -/
def Appears (p : Path) (w w' : World) : Prop :=
  w'.disk.IsFile p ∧ w'.disk.nodes p ≠ w.disk.nodes p

/-- What a call needs so that a delivery is a success: no destination is the `.part` file, and a
`finalise` comes while chunks flow, or finds a wrong digest, no final path or no `.part` file. -/
structure Guarded (metadata : TransferMetadata) (dir : DownloadDir) (w : World) (c : Call) : Prop where
  apart : ¬IsDestination metadata dir (metadata.partPath dir)
  finalise : c = .finalise → w.self.state = .transferring ∨ w.self.state = .resuming ∨
    Sha256.hexdigest w.self.hasher ≠ Text.asciiLower metadata.sha256 ∨
    w.self.finalPath = none ∨ w.disk.nodes (metadata.partPath dir) = none

section Delivery

variable {metadata : TransferMetadata} {dir : DownloadDir}

/-! ## The staging directory -/

/-- The `.part` file of a transfer with a UUID. -/
theorem partPath_eq {n : ℕ} (huuid : uuidInt metadata.transferId = .ok n) :
    metadata.partPath dir = dir.path ++ [Text.lit "staging"] ++ [metadata.transferId ++ Text.lit ".part"] := by
  have hstaging : Path.IsName (Text.lit "staging") := by
    constructor <;> decide
  have hpart : Path.IsName (metadata.transferId ++ Text.lit ".part") := isName_part huuid
  have hnames : ∀ c ∈ dir.path ++ [Text.lit "staging"], Path.IsName c := by
    intro c hc
    rcases List.mem_append.mp hc with hc | hc
    · exact dir.isName c hc
    · exact List.mem_singleton.mp hc ▸ hstaging
  rw [TransferMetadata.partPath, DownloadDir.staging, Path.join_name hstaging, Path.join_name hpart,
    Path.resolve_append_names (by simpa using hpart), Path.resolve_names hnames]

/-- A transfer with a UUID keeps its `.part` file in the staging directory. -/
theorem staging_prefix_partPath {n : ℕ} (huuid : uuidInt metadata.transferId = .ok n) :
    dir.staging <+: metadata.partPath dir := by
  have hstaging : Path.IsName (Text.lit "staging") := by
    constructor <;> decide
  rw [partPath_eq huuid, DownloadDir.staging, Path.join_name hstaging]
  exact List.prefix_append _ _

/-! ## Bytes written to an open file make and remove no nodes -/

/-- Every path names a file, a directory or nothing as before. -/
def SameKinds (w w' : World) : Prop :=
  ∀ p, (w'.disk.nodes p).map (· = .directory) = (w.disk.nodes p).map (· = .directory)

instance : IsPreorder World SameKinds where
  refl := fun _ _ ↦ rfl
  trans := fun _ _ _ h h' p ↦ (h' p).trans (h p)

theorem SameKinds.symm {w w' : World} (h : SameKinds w w') : SameKinds w' w := fun p ↦ (h p).symm

theorem SameKinds.nodes_eq_none {w w' : World} (h : SameKinds w w') {p : Path} :
    w'.disk.nodes p = none ↔ w.disk.nodes p = none := by
  rw [← Option.map_eq_none_iff, h p, Option.map_eq_none_iff]

theorem SameKinds.isFile {w w' : World} (h : SameKinds w w') {p : Path} (hfile : w.disk.IsFile p) :
    w'.disk.IsFile p := by
  obtain ⟨data, hdata⟩ := hfile
  have hkind := h p
  rw [hdata] at hkind
  cases hnode : w'.disk.nodes p with
  | none => simp [hnode] at hkind
  | some node =>
    cases node with
    | file data' => exact ⟨data', hnode⟩
    | directory => simp [hnode] at hkind

theorem kind_append (d : Disk) (p q : Path) (data : Bytes) :
    ((d.append q data).nodes p).map (· = .directory) = (d.nodes p).map (· = .directory) := by
  by_cases hpq : p = q
  · subst hpq
    unfold Disk.append
    split
    · next hfile => simp [hfile]
    · rfl
  · rw [nodes_append_of_ne d data hpq]

theorem sameKinds_onTempFh {m : Exec IoError (Disk × Handle) Unit}
    (hm : ∀ s : Disk × Handle, wp m (fun _ s' ↦ ∀ p, (s'.1.nodes p).map (· = .directory) =
      (s.1.nodes p).map (· = .directory)) s) : Stays SameKinds (onTempFh m) := by
  intro w
  cases hfh : w.self.tempFh with
  | none =>
    rw [wp_onTempFh_none hfh]
    exact refl_of SameKinds w
  | some fh =>
    rw [wp_onTempFh_some hfh]
    exact hm (w.disk, fh)

theorem kinds_flush (s : Disk × Handle) : wp Handle.flush (fun _ s' ↦ ∀ p,
    (s'.1.nodes p).map (· = .directory) = (s.1.nodes p).map (· = .directory)) s := by
  rw [Handle.wp_flush]
  exact ⟨fun _ _ ↦ rfl, fun _ ↦ ⟨fun _ p ↦ kind_append _ p _ _, fun _ p ↦ kind_append _ p _ _⟩⟩

theorem kinds_close (s : Disk × Handle) : wp Handle.close (fun _ s' ↦ ∀ p,
    (s'.1.nodes p).map (· = .directory) = (s.1.nodes p).map (· = .directory)) s := by
  rw [Handle.wp_close]
  exact ⟨fun _ _ ↦ rfl, fun _ ↦ ⟨fun _ p ↦ kind_append _ p _ _, fun _ p ↦ kind_append _ p _ _⟩⟩

theorem sameKinds_assignTempFh (fh : Option Handle) : Stays SameKinds (assignTempFh fh) := by
  intro w
  unfold assignTempFh
  rw [wp_get_bind, wp_update_bind]
  cases w.self.tempFh with
  | none => exact refl_of SameKinds w
  | some handle => exact kinds_close (w.disk, handle)

theorem sameKinds_flushTempFh : Stays SameKinds flushTempFh := by
  apply stays_get_bind
  intro w
  apply stays_ite
  · apply stays_bind (sameKinds_onTempFh kinds_flush)
    intro _
    apply stays_bind (sameKinds_onTempFh kinds_close)
    intro _
    exact sameKinds_assignTempFh none
  · exact stays_pure _

/-- No node at `p` before, none after. -/
def StaysMissing (p : Path) (w w' : World) : Prop :=
  w.disk.nodes p = none → w'.disk.nodes p = none

theorem staysMissing_flushTempFh (p : Path) : Stays (StaysMissing p) flushTempFh :=
  fun w ↦ (sameKinds_flushTempFh w).nodes_eq_none.mpr

/-! ## One call -/

/-- A call that keeps to the `.part` file changes no other file. -/
theorem not_appears_of_kept {w w' : World} {p : Path} (hkept : Kept metadata dir w w')
    (hp : p ≠ metadata.partPath dir) : ¬Appears p w w' := by
  rintro ⟨⟨data, hdata⟩, hchanged⟩
  rcases hkept.disk.nodes p hp with hsame | ⟨-, hdir⟩
  · exact hchanged hsame
  · rw [hdata] at hdir
    simp at hdir

/-- A guarded `finalise` that does not return `True` keeps to the `.part` file. -/
theorem kept_of_guarded {w : World} (hown : Owns metadata dir w)
    (hguard : Guarded metadata dir w .finalise) :
    wp finalise (fun r w' ↦ (r = .ok true ∧ w'.self.state = .completed) ∨
      (Kept metadata dir w w' ∧ r ≠ .ok true)) w := by
  apply wp_mono (finalise_cases hown)
  rintro r w' (hkept | ⟨dest, hrenamed, ⟨hr, hstate, -⟩ | ⟨-, -, hinvalid⟩⟩)
  · exact .inr hkept
  · exact .inl ⟨hr, hstate⟩
  · have hflowing := flowing_of_completed hinvalid
    obtain ⟨fh, hself⟩ := hrenamed.self_eq
    obtain ⟨final, hfinal, -⟩ := hrenamed.final
    rcases hguard.finalise rfl with h | h | h | h | h
    · exact absurd h hflowing.1
    · exact absurd h hflowing.2
    · exact absurd hrenamed.digest h
    · rw [hself] at hfinal
      exact absurd (h.symm.trans hfinal) (by simp)
    · exact absurd (staysMissing_flushTempFh (metadata.partPath dir) w h) hrenamed.moved.exists_part

theorem Call.kept_of_guarded {w : World} {c : Call} (hown : Owns metadata dir w)
    (hguard : Guarded metadata dir w c) :
    wp c.run (fun r w' ↦ (c = .finalise ∧ r = .ok true ∧ w'.self.state = .completed) ∨
      (Kept metadata dir w w' ∧ r ≠ .ok true)) w := by
  by_cases hc : c = .finalise
  · subst hc
    apply wp_mono (IncomingTransfer.kept_of_guarded hown hguard)
    rintro r w' (⟨hr, hstate⟩ | hkept)
    · exact .inl ⟨rfl, hr, hstate⟩
    · exact .inr hkept
  · have hframed : Stays (Framed metadata dir) c.run := Call.stays_run hc
    have hfalse := Call.returns_run hc w
    exact .inr ⟨hframed w hown, fun htrue ↦ absurd (hfalse true htrue) (by simp)⟩

/-! ## Runs -/

/-- In every run, a guarded call makes a file appear at a destination only if it is a `finalise` that
returns `True` and leaves COMPLETED, and a guarded `finalise` with another outcome makes no file
appear outside the staging directory. -/
theorem delivery_only_on_success (metadata : TransferMetadata) (dir : DownloadDir) (disk : Disk)
    (w : World) (n : ℕ) (huuid : uuidInt metadata.transferId = .ok n)
    (hrun : Run metadata dir disk w) (c : Call) (hguard : Guarded metadata dir w c) :
    (∀ p, IsDestination metadata dir p → Appears p w (c.run w).2 →
      c = .finalise ∧ (c.run w).1 = .ok true ∧ (c.run w).2.self.state = .completed) ∧
    (c = .finalise → (c.run w).1 ≠ .ok true → ∀ q, ¬dir.staging <+: q → ¬Appears q w (c.run w).2) := by
  have hcases := Call.kept_of_guarded hrun.sound.owns hguard
  constructor
  · intro p hdest happears
    rcases hcases with hsuccess | ⟨hkept, -⟩
    · exact hsuccess
    · have hp : p ≠ metadata.partPath dir := fun h ↦ hguard.apart (h ▸ hdest)
      exact absurd happears (not_appears_of_kept hkept hp)
  · intro _ hr q hq
    rcases hcases with ⟨-, htrue, -⟩ | ⟨hkept, -⟩
    · exact absurd htrue hr
    · have hne : q ≠ metadata.partPath dir := fun h ↦ hq (h ▸ staging_prefix_partPath huuid)
      exact not_appears_of_kept hkept hne

end Delivery

/-! ## A delivery after an interrupt -/

/-- The destination of the sample is not its `.part` file. -/
theorem sample_apart : ¬IsDestination (sampleMetadata "photos/f.txt") sampleDir
    ((sampleMetadata "photos/f.txt").partPath sampleDir) := by
  rintro ⟨dest, hdest, hpart⟩
  have hresolved : resolveSafeDestination sampleDir.path (sampleMetadata "photos/f.txt").fileName
      (sampleMetadata "photos/f.txt").relativePath =
      .ok [Text.lit "home", Text.lit "dl", Text.lit "photos", Text.lit "f.txt"] := by decide +kernel
  obtain rfl := Except.ok.inj (hdest.symm.trans hresolved)
  rcases hpart with hpart | hpart
  · exact absurd hpart (by decide +kernel)
  · exact absurd hpart (by decide +kernel)

theorem delivery_only_on_success_sample :
    (∀ p, IsDestination (sampleMetadata "photos/f.txt") sampleDir p →
      Appears p (sampleReceived "photos/f.txt") (Call.finalise.run (sampleReceived "photos/f.txt")).2 →
      Call.finalise = .finalise ∧ (Call.finalise.run (sampleReceived "photos/f.txt")).1 = .ok true ∧
        (Call.finalise.run (sampleReceived "photos/f.txt")).2.self.state = .completed) ∧
    (Call.finalise = .finalise → (Call.finalise.run (sampleReceived "photos/f.txt")).1 ≠ .ok true →
      ∀ q, ¬sampleDir.staging <+: q →
        ¬Appears q (sampleReceived "photos/f.txt") (Call.finalise.run (sampleReceived "photos/f.txt")).2) :=
  delivery_only_on_success (sampleMetadata "photos/f.txt") sampleDir rootDisk
    (sampleReceived "photos/f.txt") 0x0123456789ab4def8123456789abcdef (by decide +kernel)
    (run_sampleReceived _) .finalise ⟨sample_apart, fun _ ↦ .inl (by decide +kernel)⟩

/-- The state of the sample after an interrupt. -/
def sampleInterrupted (relativePath : String) : World :=
  (Call.interrupt.run (sampleReceived relativePath)).2

/-- After an interrupt, which truncates the three received bytes, `finalise` places the empty file at
the destination and then raises, as INTERRUPTED cannot become COMPLETED. -/
theorem delivered_after_interrupt_sample :
    Run (sampleMetadata "photos/f.txt") sampleDir rootDisk (sampleInterrupted "photos/f.txt") ∧
      IsDestination (sampleMetadata "photos/f.txt") sampleDir
        [Text.lit "home", Text.lit "dl", Text.lit "photos", Text.lit "f.txt"] ∧
      Appears [Text.lit "home", Text.lit "dl", Text.lit "photos", Text.lit "f.txt"]
        (sampleInterrupted "photos/f.txt") (finalise (sampleInterrupted "photos/f.txt")).2 ∧
      (finalise (sampleInterrupted "photos/f.txt")).1 =
        .error (.runtime (.invalidTransition .interrupted .completed)) ∧
      (finalise (sampleInterrupted "photos/f.txt")).2.disk.nodes
        [Text.lit "home", Text.lit "dl", Text.lit "photos", Text.lit "f.txt"] = some (.file []) := by
  have hplaced : (finalise (sampleInterrupted "photos/f.txt")).2.disk.nodes
      [Text.lit "home", Text.lit "dl", Text.lit "photos", Text.lit "f.txt"] = some (.file []) := by
    decide +kernel
  have hmissing : (sampleInterrupted "photos/f.txt").disk.nodes
      [Text.lit "home", Text.lit "dl", Text.lit "photos", Text.lit "f.txt"] = none := by decide +kernel
  refine ⟨.tail (run_sampleReceived _) (.call .interrupt _), ⟨_, by decide +kernel, .inl rfl⟩,
    ⟨⟨[], hplaced⟩, ?_⟩, by decide +kernel, hplaced⟩
  rw [hplaced, hmissing]
  simp

end IncomingTransfer

end Ferry
