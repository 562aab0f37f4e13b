import Ferry.Transfer.IncomingFrame
import Mathlib.Logic.Relation

/-!
# Runs of an incoming transfer

Any sequence of calls on one object, interleaved with changes that others make to files other than
the `.part` file of the transfer.
-/

namespace Ferry

namespace IncomingTransfer

open Exec Disk

/-- A call of one of the methods. -/
inductive Call
  | begin
  | receiveChunk (frame : ChunkFrame)
  | interrupt
  | prepareResumeRequest (expectedBytes expectedChunkIndex : Option ℤ)
  | resume (chunkIndex : ℤ)
  | cancel
  | finalise

/-- Run a call; the value tells whether it was a `finalise` that returned `True`. -/
def Call.run : Call → Method Bool
  | begin => do IncomingTransfer.begin; pure false
  | receiveChunk frame => do IncomingTransfer.receiveChunk frame; pure false
  | interrupt => do IncomingTransfer.interrupt; pure false
  | prepareResumeRequest expectedBytes expectedChunkIndex => do
    let _ ← IncomingTransfer.prepareResumeRequest expectedBytes expectedChunkIndex
    pure false
  | resume chunkIndex => do IncomingTransfer.resume chunkIndex; pure false
  | cancel => do IncomingTransfer.cancel; pure false
  | finalise => IncomingTransfer.finalise

/-- A call, or a change of the disk that keeps the `.part` file. -/
inductive Step (part : Path) : World → World → Prop
  | call (c : Call) (w : World) : Step part w (c.run w).2
  | other (w : World) (nodes : Path → Option Node) (hpart : nodes part = w.disk.nodes part) :
    Step part w { w with disk := { w.disk with nodes } }

/-- The runs of a fresh transfer on a given disk. -/
def Run (metadata : TransferMetadata) (dir : DownloadDir) (disk : Disk) : World → Prop :=
  Relation.ReflTransGen (Step (metadata.partPath dir)) ⟨disk, .new metadata dir⟩

section Finalise

variable {metadata : TransferMetadata} {dir : DownloadDir}

/-! ## The steps of `finalise` -/

/-- Only the open file of the object changes. -/
def OnlyTempFh (w w' : World) : Prop := ∃ fh, w'.self = { w.self with tempFh := fh }

instance : IsPreorder World OnlyTempFh where
  refl := fun w ↦ ⟨w.self.tempFh, rfl⟩
  trans := by
    rintro w w' w'' ⟨fh, h⟩ ⟨fh', h'⟩
    exact ⟨fh', by rw [h', h]⟩

theorem onlyTempFh_onDisk {α : Type} (m : Exec IoError Disk α) : Stays OnlyTempFh (onDisk m) :=
  fun w ↦ ⟨w.self.tempFh, rfl⟩

theorem onlyTempFh_onTempFh {α : Type} (m : Exec IoError (Disk × Handle) α) :
    Stays OnlyTempFh (onTempFh m) := by
  refine stays_get_bind fun w ↦ ?_
  cases w.self.tempFh with
  | none => exact stays_throw (R := OnlyTempFh) _ w
  | some handle => exact ⟨_, rfl⟩

theorem onlyTempFh_assignTempFh (fh : Option Handle) : Stays OnlyTempFh (assignTempFh fh) := by
  refine stays_get_bind fun w ↦ ?_
  refine stays_bind (R := OnlyTempFh) (stays_modify fun _ ↦ ⟨fh, rfl⟩) (fun _ ↦ ?_) w
  cases w.self.tempFh with
  | none => exact stays_pure _
  | some handle => exact onlyTempFh_onDisk _

theorem onlyTempFh_flushTempFh : Stays OnlyTempFh flushTempFh :=
  stays_get_bind fun w ↦ stays_ite _
    (stays_bind (onlyTempFh_onTempFh _) fun _ ↦
      stays_bind (onlyTempFh_onTempFh _) fun _ ↦ onlyTempFh_assignTempFh _)
    (stays_pure _) w

/-- The path that `finalise` renames to when it gets there: its local variable `dest`. -/
def renameTarget (w : World) : Option Path :=
  let flushed := (flushTempFh w).2
  flushed.self.finalPath.map (flushed.self.destination flushed.disk)

/-- The `.part` file was renamed to `dest`, a place below an existing directory. -/
structure Moved (part dest : Path) (d d' : Disk) : Prop where
  exists_part : d.nodes part ≠ none
  parent : d.nodes dest.parent = some .directory
  notDirectory : d.nodes dest ≠ some .directory
  nodes : d'.nodes = (d.move part dest).nodes
  faults : ∀ call, d'.faults call <:+ d.faults call

/-- The rename and the transition to COMPLETED, which raises from any state without chunks
flowing. -/
theorem deliver_cases {w : World} (hown : Owns metadata dir w) :
    wp deliver (fun r w' ↦
      (Kept metadata dir w w' ∧ w'.self = w.self ∧ w'.disk.nodes = w.disk.nodes ∧ r ≠ .ok true) ∨
      ∃ final, w.self.finalPath = some final ∧
        Moved (metadata.partPath dir) (w.self.destination w.disk final) w.disk w'.disk ∧
        ((r = .ok true ∧ w'.self = { w.self with state := .completed } ∧
            TransferState.completed ∈ w.self.state.validTransitions) ∨
          (∃ e, r = .error e) ∧ w'.self = w.self ∧
            TransferState.completed ∉ w.self.state.validTransitions)) w := by
  have hrefl : Kept metadata dir w w := refl_of (Framed metadata dir) w hown
  unfold deliver
  rw [wp_get_bind]
  cases htemp : w.self.tempPath with
  | none => exact .inl ⟨hrefl, rfl, rfl, by simp⟩
  | some temp =>
    cases hfinal : w.self.finalPath with
    | none => exact .inl ⟨hrefl, rfl, rfl, by simp⟩
    | some final =>
      dsimp only
      rw [hown.tempPath temp htemp]
      have hrename := rename_spec (metadata.partPath dir) (w.self.destination w.disk final) w.disk
      rw [wp_bind_iff]
      refine ⟨fun e he ↦ ?_, fun _ hok ↦ ?_⟩
      · obtain ⟨e', he'⟩ := onDisk_error he
        have hnodes := hrename.2.2.1 e' he'
        refine .inl ⟨?_, rfl, hnodes, by simp⟩
        exact ⟨⟨hown.metadata_eq, hown.downloadDir_eq, hown.tempPath, hown.tempFh⟩, .inl rfl,
          ⟨fun q _ ↦ .inl (congrFun hnodes q), hrename.1⟩⟩
      · obtain ⟨hnodes, hpart, hparent, hdir⟩ := hrename.2.1 (onDisk_ok.mp hok)
        have hmoved : Moved (metadata.partPath dir) (w.self.destination w.disk final) w.disk
            (rename (metadata.partPath dir) (w.self.destination w.disk final) w.disk).2 :=
          ⟨hpart, hparent, hdir, hnodes, hrename.1⟩
        rw [onDisk_world, wp_bind, wp_transition]
        exact ⟨fun hvalid ↦ .inr ⟨final, rfl, hmoved, .inl ⟨rfl, rfl, hvalid⟩⟩,
          fun hvalid ↦ .inr ⟨final, rfl, hmoved, .inr ⟨⟨_, rfl⟩, rfl, hvalid⟩⟩⟩

/-- `finalise` renamed the `.part` file from the state `w₁` that its flush left behind. -/
structure Renamed (metadata : TransferMetadata) (dir : DownloadDir) (w w₁ w' : World) (dest : Path) :
    Prop where
  target : renameTarget w = some dest
  flush_ok : (flushTempFh w).1 = .ok ()
  flushed : Kept metadata dir w w₁
  self_eq : OnlyTempFh w w₁
  digest : Sha256.hexdigest w.self.hasher = Text.asciiLower metadata.sha256
  final : ∃ final, w₁.self.finalPath = some final ∧ dest = w₁.self.destination w₁.disk final
  moved : Moved (metadata.partPath dir) dest w₁.disk w'.disk
  self_after : w'.self = { w₁.self with state := w'.self.state }

theorem Renamed.owns {w w₁ w' : World} {dest : Path} (h : Renamed metadata dir w w₁ w' dest) :
    Owns metadata dir w' where
  metadata_eq := by rw [h.self_after]; exact h.flushed.owns.metadata_eq
  downloadDir_eq := by rw [h.self_after]; exact h.flushed.owns.downloadDir_eq
  tempPath := by rw [h.self_after]; exact h.flushed.owns.tempPath
  tempFh := by rw [h.self_after]; exact h.flushed.owns.tempFh

/-- A call of `finalise` keeps to the `.part` file and does not return `True`, or it renames the
`.part` file and returns `True` only from a state with chunks flowing. -/
theorem finalise_cases {w : World} (hown : Owns metadata dir w) :
    wp finalise (fun r w' ↦
      (Kept metadata dir w w' ∧ r ≠ .ok true) ∨
      ∃ dest, Renamed metadata dir w (flushTempFh w).2 w' dest ∧
        ((r = .ok true ∧ w'.self.state = .completed ∧
            TransferState.completed ∈ w.self.state.validTransitions) ∨
          (∃ e, r = .error e) ∧ w'.self.state = w.self.state ∧
            TransferState.completed ∉ w.self.state.validTransitions)) w := by
  have hflush : Kept metadata dir w (flushTempFh w).2 := stays_flushTempFh w hown
  obtain ⟨fh, hself⟩ := onlyTempFh_flushTempFh w
  unfold finalise
  rw [wp_bind_iff]
  refine ⟨fun e _ ↦ .inl ⟨hflush, by simp⟩, fun _ hok ↦ ?_⟩
  rw [wp_get_bind, wp_ite]
  constructor
  · intro _
    have hfalse : Returns (· = false)
        (do cleanupTemp; transition .failed; pure false : Method Bool) :=
      returns_bind fun _ ↦ returns_bind fun _ ↦ returns_pure rfl
    have hframed : Stays (Framed metadata dir)
        (do cleanupTemp; transition .failed; pure false : Method Bool) :=
      stays_bind stays_cleanupTemp fun _ ↦ stays_bind (stays_transition _) fun _ ↦ stays_pure _
    exact .inl ⟨trans_of (Framed metadata dir) (fun _ ↦ hflush) (hframed _) hown,
      fun htrue ↦ by simpa using hfalse _ true htrue⟩
  · intro hdigest
    have hhash : Sha256.hexdigest w.self.hasher = Text.asciiLower metadata.sha256 := by
      rw [hself, ← hown.metadata_eq] at *
      exact not_not.mp hdigest
    have hstate : (flushTempFh w).2.self.state = w.self.state := by rw [hself]
    apply wp_mono (deliver_cases hflush.owns)
    intro r w' hcases
    rw [hstate] at hcases
    rcases hcases with ⟨hkept, -, -, hr⟩ | ⟨final, hfinal, hmoved, hresult⟩
    · exact .inl ⟨trans_of (Framed metadata dir) (fun _ ↦ hflush) (fun _ ↦ hkept) hown, hr⟩
    · have htarget : renameTarget w =
          some ((flushTempFh w).2.self.destination (flushTempFh w).2.disk final) := by
        simp [renameTarget, hfinal]
      have hafter : w'.self = { (flushTempFh w).2.self with state := w'.self.state } := by
        rcases hresult with ⟨-, hself', -⟩ | ⟨-, hself', -⟩ <;> rw [hself']
      refine .inr ⟨_, ⟨htarget, hok, hflush, ⟨fh, hself⟩, hhash, ⟨final, hfinal, rfl⟩, hmoved, hafter⟩, ?_⟩
      rcases hresult with ⟨hr, hself', hvalid⟩ | ⟨hr, hself', hvalid⟩
      · exact .inl ⟨hr, by rw [hself'], hvalid⟩
      · exact .inr ⟨hr, by rw [hself', hstate], hvalid⟩

/-! ## Runs -/

theorem Call.stays_run {c : Call} (hc : c ≠ .finalise) : Stays (Framed metadata dir) c.run := by
  cases c with
  | begin => exact stays_bind stays_begin fun _ ↦ stays_pure _
  | receiveChunk frame => exact stays_bind (stays_receiveChunk frame) fun _ ↦ stays_pure _
  | interrupt => exact stays_bind stays_interrupt fun _ ↦ stays_pure _
  | prepareResumeRequest _ _ =>
    exact stays_bind (stays_prepareResumeRequest _ _) fun _ ↦ stays_pure _
  | resume i => exact stays_bind (stays_resume i) fun _ ↦ stays_pure _
  | cancel => exact stays_bind stays_cancel fun _ ↦ stays_pure _
  | finalise => exact absurd rfl hc

theorem Call.returns_run {c : Call} (hc : c ≠ .finalise) : Returns (· = false) c.run := by
  cases c with
  | finalise => exact absurd rfl hc
  | _ => exact returns_bind fun _ ↦ returns_pure rfl

/-- What every call keeps: the transfer owns its `.part` file, and its final path is a resolved
destination. -/
structure Sound (metadata : TransferMetadata) (dir : DownloadDir) (w : World) : Prop where
  owns : Owns metadata dir w
  finalPath : ∀ final, w.self.finalPath = some final →
    resolveSafeDestination dir.path metadata.fileName metadata.relativePath = .ok final

theorem Sound.of_kept {w w' : World} (h : Sound metadata dir w) (hkept : Kept metadata dir w w') :
    Sound metadata dir w' where
  owns := hkept.owns
  finalPath := by
    intro final hfinal
    rcases hkept.finalPath with hsame | ⟨dest, hdest, hset⟩
    · exact h.finalPath final (hsame ▸ hfinal)
    · rw [hset] at hfinal
      exact Option.some.inj hfinal ▸ hdest

theorem Sound.finalise {w : World} (h : Sound metadata dir w) :
    wp finalise (fun _ w' ↦ Sound metadata dir w') w := by
  apply wp_mono (finalise_cases h.owns)
  rintro r w' (⟨hkept, -⟩ | ⟨dest, hrenamed, -⟩)
  · exact h.of_kept hkept
  · refine ⟨hrenamed.owns, fun final hfinal ↦ (h.of_kept hrenamed.flushed).finalPath final ?_⟩
    rw [hrenamed.self_after] at hfinal
    exact hfinal

theorem Sound.step {w w' : World} (h : Sound metadata dir w)
    (hstep : Step (metadata.partPath dir) w w') : Sound metadata dir w' := by
  cases hstep with
  | call c =>
    by_cases hc : c = .finalise
    · subst hc
      exact h.finalise
    · exact h.of_kept (Call.stays_run hc w h.owns)
  | other _ _ _ => exact ⟨⟨h.owns.1, h.owns.2, h.owns.3, h.owns.4⟩, h.finalPath⟩

theorem Run.sound {disk : Disk} {w : World} (h : Run metadata dir disk w) : Sound metadata dir w := by
  induction h with
  | refl => exact ⟨⟨rfl, rfl, by simp [new], by simp [new]⟩, by simp [new]⟩
  | tail _ hstep ih => exact ih.step hstep

/-- A sequence of calls is a run. -/
theorem run_calls (disk : Disk) (calls : List Call) : Run metadata dir disk
    (calls.foldl (fun w c ↦ (c.run w).2) ⟨disk, .new metadata dir⟩) := by
  induction calls using List.reverseRecOn with
  | nil => exact .refl
  | append_singleton calls c ih =>
    rw [List.foldl_append]
    exact ih.tail (.call c _)

end Finalise

end IncomingTransfer

end Ferry
