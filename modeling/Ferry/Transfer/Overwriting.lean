import Ferry.Base.SharedDisk
import Ferry.Transfer.Delivery

/-!
# Files that an incoming transfer leaves alone

Many transfers share the download directory.  `begin` truncates what lies at its `.part` path,
`cancel` and a failed `finalise` remove it, and `finalise` replaces what lies at the second name that
it falls back to.  A call that does none of this to a file of another origin leaves every file but
its own staging file.
-/

namespace Ferry

namespace IncomingTransfer

open Exec Disk

/-! ## The condition -/

/-- From the state of the object the call gets to the file at its `.part` path. -/
def Call.Touches (self : IncomingTransfer) : Call → Prop
  | begin => TransferState.accepted ∈ self.state.validTransitions
  | receiveChunk frame =>
    (self.state = .transferring ∨ self.state = .resuming) ∧
      frame.transferId = self.metadata.transferId ∧ frame.seq = self.nextSeq ∧
      frame.data.length ≤ self.metadata.chunkSize
  | interrupt => self.state = .transferring ∨ self.state = .accepted
  | prepareResumeRequest _ _ => False
  | resume _ => self.state = .interrupted ∨ self.state = .resumeRequested
  | cancel | finalise => self.tempPath ≠ none ∨ self.tempFh ≠ none

/-- `begin` finds no file at the `.part` path, and any other call nothing but the own staging file. -/
def Call.PartClear (part : Path) (own : Prop) (disk : Disk) : Call → Prop
  | begin => ¬disk.IsFile part
  | _ => disk.Exists part → own

/-- The second name of `finalise` is free, or not needed. -/
def Call.NameClear (disk : Disk) (self : IncomingTransfer) : Call → Prop
  | finalise => Sha256.hexdigest self.hasher = Text.asciiLower self.metadata.sha256 →
      ∀ final, self.finalPath = some final → disk.Exists final →
        ¬disk.IsFile (self.conflictPath final)
  | _ => True

/-- The transfers that write below one download directory. -/
def stager (dir : DownloadDir) : Stager TransferMetadata IncomingTransfer Call where
  path := fun metadata ↦ metadata.partPath dir
  new := fun metadata ↦ new metadata dir
  run := fun c disk self ↦ ((c.run ⟨disk, self⟩).2.disk, (c.run ⟨disk, self⟩).2.self)
  Begins := fun c ↦ c = .begin
  Careful := fun metadata own disk self c ↦
    (c.Touches self → c.PartClear (metadata.partPath dir) own disk) ∧ c.NameClear disk self

/-! ## Calls that do not get to the file -/

section Rests

variable {w : World}

/-- Only the nodes of the disk count. -/
def SameFiles (w w' : World) : Prop := w'.disk.nodes = w.disk.nodes

instance : IsPreorder World SameFiles where
  refl := fun _ ↦ rfl
  trans := fun _ _ _ h h' ↦ Eq.trans h' h

theorem sameFiles_update (f : IncomingTransfer → IncomingTransfer) : Stays SameFiles (update f) :=
  fun _ ↦ rfl

theorem sameFiles_transition (new : TransferState) : Stays SameFiles (transition new) :=
  stays_get_bind fun w ↦ stays_bind (stays_ofResult _) (fun _ ↦ sameFiles_update _) w

theorem sameFiles_onDisk {α : Type} {m : Exec IoError Disk α}
    (hm : ∀ d, wp m (fun _ d' ↦ d'.nodes = d.nodes) d) : Stays SameFiles (onDisk m) :=
  fun w ↦ hm w.disk

theorem sameFiles_checkPartial (metadata : TransferMetadata) (size : ℕ)
    (expectedBytes expectedIndex : Option ℤ) :
    Stays SameFiles (checkPartial metadata size expectedBytes expectedIndex) := by
  iterate 6 refine stays_bind (stays_raiseIf _ _) fun _ ↦ ?_
  exact stays_raiseIf _ _

theorem sameFiles_prepareResumeRequest (expectedBytes expectedIndex : Option ℤ) :
    Stays SameFiles (prepareResumeRequest expectedBytes expectedIndex) := by
  refine stays_get_bind fun w ↦ stays_bind (stays_raiseIf _ _) (fun _ ↦ ?_) w
  cases w.self.tempPath with
  | none => exact stays_throw _
  | some temp =>
    have hread : Stays SameFiles (readPart temp) := by
      refine stays_bind (sameFiles_onDisk fun d ↦ (readBlocks_spec temp d).1) fun result ↦ ?_
      obtain ⟨data, error⟩ := result
      cases error with
      | none => exact stays_pure _
      | some e => exact stays_throw _
    refine stays_bind (stays_raiseIf _ _) fun _ ↦ ?_
    refine stays_bind (sameFiles_onDisk fun d ↦ (stat_spec temp d).1) fun size ↦ ?_
    refine stays_bind (sameFiles_checkPartial _ size _ _) fun _ ↦ ?_
    refine stays_bind hread fun data ↦ ?_
    exact stays_bind (sameFiles_update _) fun _ ↦ stays_ofResult _

/-- A call whose value is dropped. -/
theorem wp_then {m : Method Unit} {P : World → Prop} (h : wp m (fun _ w' ↦ P w') w) :
    wp (do m; pure false : Method Bool) (fun _ w' ↦ P w') w :=
  wp_bind_of h (fun _ _ hafter ↦ hafter) fun _ _ hafter ↦ hafter

/-- What is done to an open file is not done when there is none. -/
theorem whenOpen_none (hfh : w.self.tempFh = none) (m : Method Unit) :
    (do let w ← get; if w.self.tempFh.isSome then m else pure () : Method Unit) w = (.ok (), w) := by
  change (if w.self.tempFh.isSome then m else pure ()) w = _
  rw [hfh]
  rfl

theorem cleanupTemp_none (htemp : w.self.tempPath = none) : cleanupTemp w = (.ok (), w) := by
  unfold cleanupTemp
  rw [get_bind_run, htemp]
  rfl

/-- A call that does not get to the `.part` path leaves all files. -/
theorem Call.rests {c : Call} (h : ¬c.Touches w.self) : wp c.run (fun _ w' ↦ SameFiles w w') w := by
  cases c with
  | begin =>
    apply wp_then
    unfold IncomingTransfer.begin
    rw [wp_transition_bind]
    exact ⟨fun hvalid ↦ absurd hvalid h, fun _ ↦ rfl⟩
  | receiveChunk frame =>
    apply wp_then
    unfold IncomingTransfer.receiveChunk
    rw [wp_get_bind, wp_raiseIf_bind]
    refine ⟨fun _ ↦ rfl, fun hstate ↦ ?_⟩
    rw [wp_raiseIf_bind]
    refine ⟨fun _ ↦ rfl, fun hid ↦ ?_⟩
    rw [wp_raiseIf_bind]
    refine ⟨fun _ ↦ rfl, fun hseq ↦ ?_⟩
    rw [wp_raiseIf_bind]
    refine ⟨fun _ ↦ rfl, fun hlength ↦ absurd ⟨?_, not_not.mp hid, not_not.mp hseq, ?_⟩ h⟩
    · tauto
    · exact not_lt.mp hlength
  | interrupt =>
    apply wp_then
    unfold IncomingTransfer.interrupt
    rw [wp_get_bind, wp_ite]
    refine ⟨fun _ ↦ rfl, fun _ ↦ ?_⟩
    rw [wp_ite]
    refine ⟨fun _ ↦ rfl, fun hstate ↦ absurd ?_ h⟩
    change w.self.state = .transferring ∨ w.self.state = .accepted
    tauto
  | prepareResumeRequest _ _ =>
    exact stays_bind (sameFiles_prepareResumeRequest _ _) (fun _ ↦ stays_pure _) w
  | resume chunkIndex =>
    apply wp_then
    unfold IncomingTransfer.resume
    rw [wp_get_bind, wp_raiseIf_bind]
    refine ⟨fun _ ↦ rfl, fun hstate ↦ absurd ?_ h⟩
    change w.self.state = .interrupted ∨ w.self.state = .resumeRequested
    tauto
  | cancel =>
    obtain ⟨htemp, hfh⟩ := not_or.mp h
    apply wp_then
    unfold IncomingTransfer.cancel
    rw [wp_bind, wp, closeTempFh, whenOpen_none (not_not.mp hfh)]
    dsimp only
    rw [wp_bind, wp, cleanupTemp_none (not_not.mp htemp)]
    rfl
  | finalise =>
    obtain ⟨htemp, hfh⟩ := not_or.mp h
    change wp IncomingTransfer.finalise _ w
    unfold IncomingTransfer.finalise
    rw [wp_bind, wp, flushTempFh, whenOpen_none (not_not.mp hfh)]
    dsimp only
    rw [wp_get_bind, wp_ite]
    constructor
    · intro _
      rw [wp_bind, wp, cleanupTemp_none (not_not.mp htemp)]
      exact stays_bind (sameFiles_transition _) (fun _ ↦ stays_pure _) w
    · intro _
      unfold deliver
      rw [wp_get_bind, not_not.mp htemp]
      rfl

end Rests

/-! ## begin below a directory -/

/-- What is on the disk stays. -/
def Adds (w w' : World) : Prop := Extends w.disk w'.disk

instance : IsPreorder World Adds where
  refl := fun w ↦ Extends.refl w.disk
  trans := fun _ _ _ h h' ↦ Extends.trans h h'

theorem adds_update (f : IncomingTransfer → IncomingTransfer) : Stays Adds (update f) :=
  fun w ↦ Extends.refl w.disk

theorem adds_transition (new : TransferState) : Stays Adds (transition new) :=
  stays_get_bind fun w ↦ stays_bind (stays_ofResult _) (fun _ ↦ adds_update _) w

theorem adds_mkdir (p : Path) : Stays Adds (onDisk (Disk.mkdir p)) := fun w ↦ extends_mkdir p w.disk

/-- The next step of a sequence that only adds directories. -/
theorem adds_bind {α β : Type} {m : Method α} {f : α → Method β} {w₀ w : World} (hw : Adds w₀ w)
    (hm : Stays Adds m) (hf : ∀ a w', Adds w₀ w' → wp (f a) (fun _ w'' ↦ Adds w₀ w'') w') :
    wp (m >>= f) (fun _ w'' ↦ Adds w₀ w'') w := by
  apply wp_bind_of (hm w)
  · exact fun _ _ hadds ↦ trans_of Adds hw hadds
  · exact fun a w' hadds ↦ hf a w' (trans_of Adds hw hadds)

/-- A directory at the `.part` path cannot be opened. -/
theorem adds_openStaging {w : World}
    (hdir : w.disk.nodes (w.self.metadata.partPath w.self.downloadDir) = some .directory) :
    wp openStaging (fun _ w' ↦ Adds w w') w := by
  unfold openStaging
  rw [wp_get_bind]
  refine adds_bind (refl_of Adds w) (adds_mkdir _) fun _ w₁ h₁ ↦ ?_
  refine adds_bind h₁ (adds_mkdir _) fun _ w₂ h₂ ↦ ?_
  refine adds_bind h₂ (adds_update _) fun _ w₃ h₃ ↦ ?_
  refine adds_bind h₃ (stays_ofResult _) fun dest w₄ h₄ ↦ ?_
  refine adds_bind h₄ (adds_update _) fun _ w₅ h₅ ↦ ?_
  refine adds_bind h₅ (adds_mkdir _) fun _ w₆ h₆ ↦ ?_
  have hdir₆ := (h₆ _ (by simp [hdir])).trans hdir
  apply wp_onDisk_bind (Handle.openTruncate_directory (hdir₆))
  · exact fun _ _ h ↦ h₆.congr h.2
  · exact fun _ _ h ↦ absurd h.1 (by simp)

theorem adds_begin {w : World}
    (hdir : w.disk.nodes (w.self.metadata.partPath w.self.downloadDir) = some .directory) :
    wp begin (fun _ w' ↦ Adds w w') w := by
  unfold begin
  rw [wp_transition_bind]
  refine ⟨fun _ ↦ ?_, fun _ ↦ refl_of Adds w⟩
  have hopen : wp openStaging (fun _ w' ↦ Adds w w')
      { w with self := { w.self with state := .accepted } } :=
    @adds_openStaging { w with self := { w.self with state := .accepted } } hdir
  refine wp_bind_of (P := fun _ w' ↦ Adds w w') (wp_tryCatch_of hopen (fun e w' h ↦ ?_) fun _ _ h ↦ h)
    (fun _ _ h ↦ h) fun _ w' h ↦ trans_of Adds h (adds_transition _ w')
  have hhandler : Stays Adds (if e.IsOsError then
      (do transition .failed; throw (.transfer .openStaging) : Method Unit) else throw e) :=
    stays_ite _ (stays_bind (adds_transition _) fun _ ↦ stays_throw _) (stays_throw _)
  exact trans_of Adds h (hhandler w')

/-! ## A careful call -/

section Spares

variable {metadata : TransferMetadata} {dir : DownloadDir} {w : World} {own : Prop} {q : Path}
  {data : Bytes}

/-- Where nothing but the own staging file is at the `.part` path, a call that keeps to that path
leaves every other file. -/
theorem holds_of_kept {w' : World} (hkept : Kept metadata dir w w')
    (hfile : own → w.disk.IsFile (metadata.partPath dir))
    (hclear : w.disk.Exists (metadata.partPath dir) → own) (hholds : w.disk.Holds q data)
    (hother : ¬(own ∧ q = metadata.partPath dir)) :
    w'.disk.Holds q data := by
  refine hholds.onlyAt hkept.disk (fun hdir ↦ ?_) fun hq ↦ ?_
  · obtain ⟨data', hdata'⟩ := hfile (hclear (by simp [Disk.Exists, hdir]))
    simp [hdir] at hdata'
  · exact hother ⟨hclear (hq ▸ hholds.exists (.inl rfl)), hq⟩

/-- `finalise` replaces no file when its second name is free. -/
theorem finalise_holds (hown : Owns metadata dir w) (hfile : own → w.disk.IsFile (metadata.partPath dir))
    (hclear : w.disk.Exists (metadata.partPath dir) → own) (hname : Call.finalise.NameClear w.disk w.self)
    (hholds : w.disk.Holds q data) (hother : ¬(own ∧ q = metadata.partPath dir)) :
    wp finalise (fun _ w' ↦ w'.disk.Holds q data) w := by
  apply wp_mono (finalise_cases hown)
  rintro r w' (⟨hkept, -⟩ | ⟨dest, hrenamed, -⟩)
  · exact holds_of_kept hkept hfile hclear hholds hother
  have hkinds := sameKinds_flushTempFh w
  have hpart : w.disk.Exists (metadata.partPath dir) :=
    fun hnone ↦ hrenamed.moved.exists_part (hkinds.nodes_eq_none.mpr hnone)
  obtain ⟨part, hflushed⟩ := hkinds.isFile (hfile (hclear hpart))
  have hdest : (flushTempFh w).2.disk.nodes dest = none := by
    obtain ⟨final, hfinal, rfl⟩ := hrenamed.final
    obtain ⟨fh, hself⟩ := hrenamed.self_eq
    unfold destination
    split
    · next hexists =>
      have hfree : ¬w.disk.IsFile ((flushTempFh w).2.self.conflictPath final) := by
        rw [hself] at hfinal ⊢
        refine hname ?_ final hfinal fun hnone ↦ hexists (hkinds.nodes_eq_none.mpr hnone)
        rw [hown.metadata_eq]
        exact hrenamed.digest
      have hnotDirectory := hrenamed.moved.notDirectory
      rw [destination, if_pos hexists] at hnotDirectory
      cases hnode : (flushTempFh w).2.disk.nodes ((flushTempFh w).2.self.conflictPath final) with
      | none => rfl
      | some node =>
        cases node with
        | directory => exact absurd hnode hnotDirectory
        | file data' => exact absurd (hkinds.symm.isFile ⟨data', hnode⟩) hfree
    · next hmissing => exact not_not.mp hmissing
  refine (holds_of_kept hrenamed.flushed hfile hclear hholds hother).move ?_ hdest ?_ hrenamed.moved.nodes
  · simp [hflushed]
  · exact fun hq ↦ hother ⟨hclear hpart, hq⟩

theorem Call.holds {c : Call} (hown : Owns metadata dir w)
    (hfile : own → w.disk.IsFile (metadata.partPath dir))
    (hpart : c.Touches w.self → c.PartClear (metadata.partPath dir) own w.disk)
    (hname : c.NameClear w.disk w.self) (hholds : w.disk.Holds q data)
    (hother : ¬(own ∧ q = metadata.partPath dir)) : (c.run w).2.disk.Holds q data := by
  by_cases htouches : c.Touches w.self
  · have hclear := hpart htouches
    have hkept : c ≠ .finalise → Kept metadata dir w (c.run w).2 := fun hc ↦ Call.stays_run hc w hown
    cases c with
    | begin =>
      by_cases hdir : w.disk.nodes (metadata.partPath dir) = some .directory
      · have hadds : Adds w (Call.begin.run w).2 :=
          wp_then (adds_begin (by rwa [hown.metadata_eq, hown.downloadDir_eq]))
        exact hholds.extends hadds
      · refine hholds.onlyAt (hkept nofun).disk hdir fun hq ↦ hclear ?_
        exact ⟨data, hq ▸ hholds.node⟩
    | finalise => exact finalise_holds hown hfile hclear hname hholds hother
    | receiveChunk frame =>
      exact holds_of_kept (hkept nofun) hfile hclear hholds hother
    | interrupt => exact holds_of_kept (hkept nofun) hfile hclear hholds hother
    | prepareResumeRequest _ _ => exact htouches.elim
    | resume chunkIndex =>
      exact holds_of_kept (hkept nofun) hfile hclear hholds hother
    | cancel => exact holds_of_kept (hkept nofun) hfile hclear hholds hother
  · exact hholds.congr (Call.rests htouches)

end Spares

theorem Owns.run {metadata : TransferMetadata} {dir : DownloadDir} {w : World} (hown : Owns metadata dir w)
    (c : Call) : Owns metadata dir (c.run w).2 := by
  by_cases hc : c = .finalise
  · subst hc
    have howns : wp finalise (fun _ w' ↦ Owns metadata dir w') w := by
      apply wp_mono (finalise_cases hown)
      rintro r w' (⟨hkept, -⟩ | ⟨dest, hrenamed, -⟩)
      · exact hkept.owns
      · exact hrenamed.owns
    exact howns
  · exact (Call.stays_run hc w hown).owns

def lawful (dir : DownloadDir) : (stager dir).Lawful where
  Sound := fun metadata self ↦ ∀ disk, Owns metadata dir ⟨disk, self⟩
  sound_new := fun metadata disk ↦ ⟨rfl, rfl, by simp [stager, new], by simp [stager, new]⟩
  sound_run := by
    intro metadata c disk self h disk'
    have howns := (h disk).run c
    exact ⟨howns.metadata_eq, howns.downloadDir_eq, howns.tempPath, howns.tempFh⟩
  spares := fun _ _ disk _ _ hown hfile hcareful _ _ hholds hother ↦
    Call.holds (hown disk) hfile hcareful.1 hcareful.2 hholds hother

end IncomingTransfer

end Ferry
