import Ferry.Transfer.Fields
import Ferry.Transfer.Integrity

/-!
# The state that a method leaves behind

What the result of each method says of the state of the transfer.
-/

namespace Ferry

namespace IncomingTransfer

open Exec

/-- A method that does not assign the state leaves it. -/
theorem wp_same_state {α : Type} {fields : List Field} {m : Method α} (h : Assigns fields m)
    (hstate : Field.state ∉ fields) (w : World) :
    wp m (fun _ w' ↦ w'.self.state = w.self.state) w := h.wp_same hstate w

/-- An exception of the file system is no `TransferError`. -/
theorem isTransferError_ofIo (e : IoError) : (PyError.ofIo e).isTransferError = false := by
  cases e <;> rfl

theorem raises_onTempFh {α : Type} (m : Exec IoError (Disk × Handle) α) :
    Raises (fun e ↦ e.isTransferError = false) (onTempFh m) := by
  intro w
  cases hfh : w.self.tempFh with
  | none =>
    rw [wp_onTempFh_none hfh]
    intro e he
    cases he
    rfl
  | some fh =>
    rw [wp_onTempFh_some hfh]
    apply wp_mono (Q := fun _ _ ↦ True) trivial
    intro r s _ e he
    cases r with
    | ok a => cases he
    | error e' =>
      cases he
      exact isTransferError_ofIo e'

/-- A chunk that is refused leaves the state, and one that cannot be written fails the transfer. -/
theorem receiveChunk_state (frame : ChunkFrame) (w : World) :
    wp (receiveChunk frame) (fun r w' ↦
      w'.self.state = w.self.state ∧ (∀ e, r = .error e → e.isTransferError = false) ∨
      ∃ e, r = .error e ∧ e.isTransferError = true ∧ w'.self.state = .failed) w := by
  unfold receiveChunk
  rw [wp_get_bind]
  iterate 4
    rw [wp_raiseIf_bind]
    refine ⟨fun _ ↦ .inl ⟨rfl, fun e he ↦ Except.error.inj he ▸ rfl⟩, fun _ ↦ ?_⟩
  rw [wp_bind]
  apply wp_tryCatch_of
    (wp_and (wp_same_state (assigns_onTempFh _) (by decide) w) (raises_onTempFh _ w))
  · intro e t ht
    rw [wp_ite]
    constructor
    · intro _
      apply wp_bind_of (cleanupOnIoError_spec t) (fun _ _ h ↦ by simp at h)
      intro _ u hu
      exact .inr ⟨_, rfl, rfl, hu.2⟩
    · intro _
      exact .inl ⟨ht.1, fun e' he' ↦ Except.error.inj he' ▸ ht.2 e rfl⟩
  · intro _ t ht
    exact .inl ⟨ht.1, fun e he ↦ nomatch he⟩

/-- `begin` fails a transfer only when the staging file cannot be opened, and then raises a
`TransferError`. -/
theorem begin_state (w : World) :
    wp begin (fun r w' ↦
      (∃ u, r = .ok u) ∧ w'.self.state = .transferring ∨
      (∃ e, r = .error e ∧ e.isTransferError = true) ∧ w'.self.state = .failed ∨
      (∃ e, r = .error e) ∧ (w'.self.state = .accepted ∨ w'.self.state = w.self.state)) w := by
  unfold begin
  rw [wp_transition_bind]
  refine ⟨fun _ ↦ ?_, fun _ ↦ .inr (.inr ⟨⟨_, rfl⟩, .inr rfl⟩)⟩
  rw [wp_bind]
  apply wp_tryCatch_of (wp_same_state assigns_openStaging (by decide) _)
  · intro e t ht
    change t.self.state = .accepted at ht
    rw [wp_ite, wp_transition_bind]
    refine ⟨fun _ ↦ ⟨fun _ ↦ .inr (.inl ⟨⟨_, rfl, rfl⟩, rfl⟩), fun hnot ↦ ?_⟩, fun _ ↦
      .inr (.inr ⟨⟨e, rfl⟩, .inl ht⟩)⟩
    rw [ht] at hnot
    exact absurd (by decide) hnot
  · intro _ t ht
    change t.self.state = .accepted at ht
    rw [wp_transition]
    refine ⟨fun _ ↦ .inl ⟨⟨_, rfl⟩, rfl⟩, fun hnot ↦ ?_⟩
    rw [ht] at hnot
    exact absurd (by decide) hnot

/-- The result of `finalise` is the state that it leaves, and an exception leaves the state. -/
theorem finalise_state (w : World) :
    wp finalise (fun r w' ↦
      (∃ success, r = .ok success ∧
        w'.self.state = if success then .completed else .failed) ∨
      (∃ e, r = .error e) ∧ w'.self.state = w.self.state) w := by
  unfold finalise
  apply wp_bind_of (wp_same_state assigns_flushTempFh (by decide) w)
  · intro e t ht
    exact .inr ⟨⟨e, rfl⟩, ht⟩
  intro _ t ht
  rw [wp_get_bind, wp_ite]
  constructor
  · intro _
    apply wp_bind_of (wp_same_state assigns_cleanupTemp (by decide) t)
    · intro e u hu
      exact .inr ⟨⟨e, rfl⟩, hu.trans ht⟩
    intro _ u hu
    rw [wp_transition_bind]
    exact ⟨fun _ ↦ .inl ⟨false, rfl, rfl⟩, fun _ ↦ .inr ⟨⟨_, rfl⟩, hu.trans ht⟩⟩
  · intro _
    unfold deliver
    rw [wp_get_bind]
    split
    · apply wp_bind_of (wp_same_state (assigns_onDisk _) (by decide) t)
      · intro e u hu
        exact .inr ⟨⟨e, rfl⟩, hu.trans ht⟩
      intro _ u hu
      rw [wp_transition_bind]
      exact ⟨fun _ ↦ .inl ⟨true, rfl, rfl⟩, fun _ ↦ .inr ⟨⟨_, rfl⟩, hu.trans ht⟩⟩
    · exact .inr ⟨⟨_, rfl⟩, ht⟩

/-- A transfer that resumes is RESUMING. -/
theorem resume_state (chunkIndex : ℤ) (w : World) :
    wp (resume chunkIndex) (fun r w' ↦ ∀ u, r = .ok u → w'.self.state = .resuming) w := by
  unfold resume
  rw [wp_get_bind, wp_raiseIf_bind]
  refine ⟨fun _ u hu ↦ (nomatch hu), fun _ ↦ ?_⟩
  rw [wp_setState_bind]
  split
  · rw [wp_setState_bind]
    exact fun u hu ↦ nomatch hu
  rw [wp_ite]
  constructor
  · intro _
    unfold reopenPart
    rw [wp_bind_iff]
    refine ⟨fun e _ u hu ↦ (nomatch hu), fun _ _ ↦ ?_⟩
    rw [wp_bind_iff]
    refine ⟨fun e _ u hu ↦ (nomatch hu), fun result _ ↦ ?_⟩
    obtain ⟨data, error⟩ := result
    iterate 3
      rw [wp_bind_iff]
      refine ⟨fun e _ u hu ↦ (nomatch hu), fun _ _ ↦ ?_⟩
    rw [wp_transition]
    exact ⟨fun _ _ _ ↦ rfl, fun _ u hu ↦ nomatch hu⟩
  · intro _
    rw [wp_setState_bind]
    exact fun u hu ↦ nomatch hu

end IncomingTransfer

end Ferry
