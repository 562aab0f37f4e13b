import Ferry.Android.SendTurns

/-!
# Which coroutine writes for a transfer

The calls of `sendFile` have transfers of their own, and a coroutine of `onResumeRequest` writes for a
transfer only after the call of `sendFile` has broken off.
-/

namespace Ferry

namespace OutgoingFrame

/-- The transfer that a frame requests. -/
def requests : OutgoingFrame → Option Text
  | transferRequest payload => some payload.transferId
  | _ => none

/-- The transfer whose resume a frame accepts. -/
def accepts : OutgoingFrame → Option Text
  | transferResumeAccept transferId _ => some transferId
  | _ => none

theorem accepts_of_transfer_ne {frame : OutgoingFrame} {transferId : Text}
    (h : frame.transfer ≠ some transferId) : frame.accepts ≠ some transferId := by
  cases frame <;> simp_all [accepts, transfer]

end OutgoingFrame

namespace FerryControlClient

/-- The process has requested the transfer. -/
def Requested (c : FerryControlClient) (transferId : Text) : Prop :=
  some transferId ∈ c.written.map OutgoingFrame.requests

/-- The process has accepted to resume the transfer. -/
def Accepted (c : FerryControlClient) (transferId : Text) : Prop :=
  some transferId ∈ c.written.map OutgoingFrame.accepts

/-- No resume of the transfer was or can be accepted. -/
def Untouched (c : FerryControlClient) (transferId : Text) : Prop :=
  ¬c.Accepted transferId ∧ ¬c.Resumable transferId

/-- The identifier of a new call of `sendFile` was not used before. -/
def Fresh (c : FerryControlClient) (event : ControlEvent) : Prop :=
  ∀ transferId ∈ newId event, ¬c.Requested transferId ∧ c.Untouched transferId

/-- A call of `sendFile` has a transfer that no resume touches before its stream breaks off. -/
structure Owned (c : FerryControlClient) (file : FileSend) : Prop where
  requested : c.Requested file.payload.transferId
  untouched : file.phase ≠ .ending false → c.Untouched file.payload.transferId

/-- The calls of `sendFile` have transfers of their own, and a coroutine of `onResumeRequest` that has
passed its checks has accepted. -/
structure Separate (c : FerryControlClient) : Prop where
  distinct : (c.files.map fun file ↦ file.payload.transferId).Nodup
  owned : ∀ file ∈ c.files, c.Owned file
  resumes : ∀ resume ∈ c.resumeSends, resume.phase ≠ .launched → c.Accepted resume.transferId

section Decidability

variable (c : FerryControlClient) (transferId : Text)

instance : Decidable (c.Requested transferId) := inferInstanceAs (Decidable (_ ∈ _))

instance : Decidable (c.Accepted transferId) := inferInstanceAs (Decidable (_ ∈ _))

instance : Decidable (c.Resumable transferId) :=
  inferInstanceAs (Decidable (∃ record ∈ c.interruptedStore.get transferId, _))

instance : Decidable (c.Untouched transferId) := inferInstanceAs (Decidable (_ ∧ _))

instance (event : ControlEvent) : Decidable (c.Fresh event) :=
  inferInstanceAs (Decidable (∀ transferId ∈ newId event, _))

end Decidability

/-! ## Frames -/

section Frames

variable {c c' : FerryControlClient} {frames : List OutgoingFrame} {transferId : Text}

theorem Requested.later (h : c.Requested transferId) (hwritten : c'.written = c.written ++ frames) :
    c'.Requested transferId := by
  unfold Requested
  rw [hwritten, List.map_append]
  exact List.mem_append_left _ h

theorem Accepted.later (h : c.Accepted transferId) (hwritten : c'.written = c.written ++ frames) :
    c'.Accepted transferId := by
  unfold Accepted
  rw [hwritten, List.map_append]
  exact List.mem_append_left _ h

/-- A resume is accepted by the new frames, or was before. -/
theorem accepted_cases (h : c'.Accepted transferId) (hwritten : c'.written = c.written ++ frames) :
    c.Accepted transferId ∨ ∃ frame ∈ frames, frame.accepts = some transferId := by
  unfold Accepted at h
  rw [hwritten, List.map_append, List.mem_append] at h
  exact h.imp_right List.mem_map.mp

theorem Untouched.later (h : c.Untouched transferId) (hwritten : c'.written = c.written ++ frames)
    (hother : ∀ frame ∈ frames, frame.accepts ≠ some transferId)
    (hresumable : c'.Resumable transferId → c.Resumable transferId) : c'.Untouched transferId := by
  refine ⟨fun haccepted ↦ ?_, h.2 ∘ hresumable⟩
  rcases accepted_cases haccepted hwritten with hbefore | ⟨frame, hframe, haccepts⟩
  · exact h.1 hbefore
  · exact hother frame hframe haccepts

/-- A call of `sendFile` to which nothing happens. -/
theorem Owned.later {file : FileSend} (h : c.Owned file) (hwritten : c'.written = c.written ++ frames)
    (hother : file.phase ≠ .ending false →
      (∀ frame ∈ frames, frame.transfer ≠ some file.payload.transferId) ∧
        (c'.Resumable file.payload.transferId → c.Resumable file.payload.transferId)) :
    c'.Owned file where
  requested := h.requested.later hwritten
  untouched := by
    intro hphase
    obtain ⟨hframes, hresumable⟩ := hother hphase
    exact (h.untouched hphase).later hwritten
      (fun frame hframe ↦ OutgoingFrame.accepts_of_transfer_ne (hframes frame hframe)) hresumable

/-- The frames of a turn of `sendFile` are part of its transfer. -/
theorem FileMove.transfer {file : FileSend} {new : Option FileSend} (h : FileMove file new frames) :
    ∀ frame ∈ frames, frame.transfer = some file.payload.transferId ∧ frame.accepts = none := by
  cases h <;> simp [OutgoingFrame.transfer, OutgoingFrame.accepts]

theorem FileMove.payload {file next : FileSend} (h : FileMove file (some next) frames) :
    next.payload = file.payload := by
  cases h <;> rfl

/-- A call whose stream has been broken off writes nothing more. -/
theorem FileMove.frames_of_lost {file : FileSend} {new : Option FileSend} (h : FileMove file new frames)
    (hphase : file.phase = .ending false) : frames = [] := by
  cases h with
  | moves | returns => rfl
  | chunk _ hstreaming => simp [hphase] at hstreaming
  | completes hstreamed => simp [hphase] at hstreamed
  | cancels _ hstreamed => simp [hphase] at hstreamed

/-- The call whose turn it was. -/
theorem Owned.moved {file next : FileSend} (h : c.Owned file) (hmove : FileMove file (some next) frames)
    (hwritten : c'.written = c.written ++ frames)
    (hresumable : ∀ transferId, c'.Resumable transferId → c.Resumable transferId ∨
      transferId = file.payload.transferId ∧ file.phase = .streamed false) : c'.Owned next := by
  have hpayload := hmove.payload
  have huntouched (hphase : file.phase.Whole) : c'.Untouched file.payload.transferId := by
    have hbefore : c.Untouched file.payload.transferId := by
      refine h.untouched fun heq ↦ ?_
      rw [heq] at hphase
      exact hphase
    refine hbefore.later hwritten (fun frame hframe ↦ by simp [(hmove.transfer frame hframe).2]) ?_
    intro hafter
    rcases hresumable _ hafter with hold | ⟨-, hlost⟩
    · exact hold
    · rw [hlost] at hphase
      exact hphase.elim
  refine ⟨hpayload ▸ h.requested.later hwritten, fun hlost ↦ ?_⟩
  rw [hpayload]
  cases hmove with
  | moves phase hkept _ => exact huntouched (hkept hlost)
  | chunk data hstreaming => exact huntouched (hstreaming ▸ trivial)
  | completes hstreamed => exact huntouched (hstreamed ▸ trivial)
  | cancels => exact absurd rfl hlost

end Frames

/-! ## One step -/

section Step

variable {c c' : FerryControlClient} {frames : List OutgoingFrame}

/-- The call whose turn it is, and the others. -/
theorem Separate.others (h : c.Separate) {file : FileSend} {rest : List FileSend}
    (hbefore : c.files.Perm (file :: rest)) :
    file ∈ c.files ∧ (rest.map fun file ↦ file.payload.transferId).Nodup ∧ ∀ other ∈ rest,
      other ∈ c.files ∧ other.payload.transferId ≠ file.payload.transferId := by
  have hdistinct := (hbefore.map fun file ↦ file.payload.transferId).nodup_iff.mp h.distinct
  rw [List.map_cons, List.nodup_cons] at hdistinct
  refine ⟨hbefore.mem_iff.mpr List.mem_cons_self, hdistinct.2, fun other hother ↦ ⟨?_, fun heq ↦ ?_⟩⟩
  · exact hbefore.mem_iff.mpr (List.mem_cons_of_mem _ hother)
  · exact hdistinct.1 (heq ▸ List.mem_map_of_mem hother)

/-- A call after a turn of one of them. -/
theorem FileTurn.cases {file current : FileSend} {new : Option FileSend} {rest : List FileSend}
    (hafter : c'.files.Perm (new.toList ++ rest))
    (hturn : FileTurn file new frames c { c' with jobs := c.jobs }) (hcurrent : current ∈ c'.files) :
    FileMove file (some current) frames ∨ current ∈ rest := by
  rcases List.mem_append.mp (hafter.mem_iff.mp hcurrent) with hnew | hrest
  · have heq : new = some current := Option.mem_toList.mp hnew
    exact .inl (heq ▸ hturn.move)
  · exact .inr hrest

/-- What a coroutine of `onResumeRequest` writes is part of a transfer that a resume may touch. -/
theorem Separate.resume_frames (h : c.Separate) {input : SendInput} {resume : ResumeSend}
    {new : Option ResumeSend} (hmem : resume ∈ c.resumeSends)
    (hmove : ResumeMove c input resume new frames) {transferId : Text} (hsafe : c.Untouched transferId) :
    ∀ frame ∈ frames, frame.transfer ≠ some transferId := by
  have hne (hphase : resume.phase ≠ .launched) : resume.transferId ≠ transferId := by
    rintro rfl
    exact hsafe.1 (h.resumes resume hmem hphase)
  cases hmove with
  | waits | opens | ends | returns => simp
  | accepts uri _ _ hresumable =>
    have hne : resume.transferId ≠ transferId := by
      rintro rfl
      exact hsafe.2 hresumable
    simpa [OutgoingFrame.transfer] using hne
  | rejects reason => simp [OutgoingFrame.transfer]
  | chunk _ hphase => simpa [OutgoingFrame.transfer] using hne (by simp [hphase])
  | completes hphase => simpa [OutgoingFrame.transfer] using hne (by simp [hphase])

/-- The coroutine of `onResumeRequest` whose turn it was has accepted, if it has passed its checks. -/
theorem Separate.resume_accepted (h : c.Separate) {input : SendInput} {resume next : ResumeSend}
    (hmem : resume ∈ c.resumeSends) (hmove : ResumeMove c input resume (some next) frames)
    (hwritten : c'.written = c.written ++ frames) (hphase : next.phase ≠ .launched) :
    c'.Accepted next.transferId := by
  have hbefore (hphase : resume.phase ≠ .launched) : c'.Accepted resume.transferId :=
    (h.resumes resume hmem hphase).later hwritten
  cases hmove with
  | waits => exact hbefore hphase
  | accepts uri =>
    unfold Accepted
    rw [hwritten]
    simp [OutgoingFrame.accepts]
  | opens haccepted => exact hbefore (by simp [haccepted])
  | chunk _ hstreaming => exact hbefore (by simp [hstreaming])
  | ends hstreaming => exact hbefore (by simp [hstreaming])

/-- The coroutines of `onResumeRequest` stay. -/
theorem Separate.resumes_later (h : c.Separate) (hresumes : c'.resumeSends = c.resumeSends)
    (hwritten : c'.written = c.written ++ frames) :
    ∀ resume ∈ c'.resumeSends, resume.phase ≠ .launched → c'.Accepted resume.transferId :=
  fun resume hresume hphase ↦ (h.resumes resume (hresumes ▸ hresume) hphase).later hwritten

/-- A step that leaves the calls of `sendFile`, and writes nothing for a transfer that no resume may
touch. -/
theorem Separate.of_frames (h : c.Separate) (hwritten : c'.written = c.written ++ frames)
    (hfiles : c'.files.Perm c.files)
    (hresumes : ∀ resume ∈ c'.resumeSends, resume.phase ≠ .launched → c'.Accepted resume.transferId)
    (hresumable : ∀ transferId, c'.Resumable transferId → c.Resumable transferId)
    (hother : ∀ transferId, c.Untouched transferId → ∀ frame ∈ frames, frame.transfer ≠ some transferId) :
    c'.Separate where
  distinct := (hfiles.map _).nodup_iff.mpr h.distinct
  owned := by
    intro file hfile
    have howned := h.owned file (hfiles.mem_iff.mp hfile)
    exact howned.later hwritten fun hphase ↦ ⟨hother _ (howned.untouched hphase), hresumable _⟩
  resumes := hresumes

/-- A new call of `sendFile` whose identifier was not used. -/
theorem Separate.of_begins (h : c.Separate) {file : FileSend} {transferId : Text}
    (hbegins : Begins transferId file c { c' with jobs := c.jobs })
    (hfiles : c'.files.Perm (file :: c.files))
    (hfresh : ¬c.Requested transferId ∧ c.Untouched transferId) : c'.Separate := by
  have hid := hbegins.transferId_eq
  have hwritten : c'.written = c.written ++ [.transferRequest file.payload] := hbegins.written
  have hne {other : FileSend} (hother : other ∈ c.files) : file.payload.transferId ≠
      other.payload.transferId := by
    intro heq
    exact hfresh.1 (heq.symm.trans hid ▸ (h.owned other hother).requested)
  refine ⟨?_, ?_, h.resumes_later hbegins.resumeSends hwritten⟩
  · rw [(hfiles.map _).nodup_iff, List.map_cons, List.nodup_cons]
    refine ⟨fun hmem ↦ ?_, h.distinct⟩
    obtain ⟨other, hother, heq⟩ := List.mem_map.mp hmem
    exact hne hother heq.symm
  · intro other hmem
    rcases List.mem_cons.mp (hfiles.mem_iff.mp hmem) with rfl | hold
    · refine ⟨?_, fun _ ↦ ?_⟩
      · unfold Requested
        rw [hwritten]
        simp [OutgoingFrame.requests]
      · rw [hid]
        exact hfresh.2.later hwritten (by simp [OutgoingFrame.accepts]) (hbegins.resumable _)
    · refine (h.owned other hold).later hwritten fun _ ↦ ⟨?_, hbegins.resumable _⟩
      simpa [OutgoingFrame.transfer] using hne hold

/-- A turn of a call of `sendFile`. -/
theorem Separate.of_file (h : c.Separate) {file : FileSend} {new : Option FileSend} {rest : List FileSend}
    (hbefore : c.files.Perm (file :: rest)) (hafter : c'.files.Perm (new.toList ++ rest))
    (hturn : FileTurn file new frames c { c' with jobs := c.jobs }) : c'.Separate := by
  have hwritten : c'.written = c.written ++ frames := hturn.written
  obtain ⟨hmem, hnodup, hrest⟩ := h.others hbefore
  refine ⟨?_, ?_, h.resumes_later hturn.resumeSends hwritten⟩
  · rw [(hafter.map _).nodup_iff]
    cases hnew : new with
    | none => exact hnodup
    | some next =>
      have hpayload := (hnew ▸ hturn.move).payload
      rw [Option.toList_some, List.singleton_append, List.map_cons, List.nodup_cons, hpayload]
      refine ⟨fun hown ↦ ?_, hnodup⟩
      obtain ⟨other, hother, heq⟩ := List.mem_map.mp hown
      exact (hrest other hother).2 heq
  · intro current hcurrent
    rcases hturn.cases hafter hcurrent with hmove | hother
    · exact (h.owned file hmem).moved hmove hwritten hturn.resumable
    · obtain ⟨hold, hne⟩ := hrest current hother
      refine (h.owned current hold).later hwritten fun _ ↦ ⟨fun frame hframe ↦ ?_, fun hresumable ↦ ?_⟩
      · rw [(hturn.move.transfer frame hframe).1]
        exact fun heq ↦ hne (Option.some.inj heq).symm
      · exact (hturn.resumable _ hresumable).resolve_right fun hown ↦ hne hown.1

/-- Every event keeps the transfers of the calls of `sendFile` separate. -/
theorem separate_step (h : c.Separate) {event : ControlEvent} (hfresh : c.Fresh event) :
    (c.step event).Separate := by
  cases turn_step c event with
  | batch hframes hfiles hwrites =>
    refine h.of_frames hwrites.written hfiles ?_ hwrites.resumable ?_
    · exact h.resumes_later hwrites.resumeSends hwrites.written
    · intro transferId _ frame hframe
      simp [hframes frame hframe]
  | begins hid hfiles hbegins => exact h.of_begins hbegins hfiles (hfresh _ hid)
  | file _ hbefore hafter hturn => exact h.of_file hbefore hafter hturn
  | launches hlaunched hresumes hidle =>
    have hfiles : (c.step event).files = c.files := congrArg (List.filterMap SendJob.file) hidle.jobs
    refine h.of_frames hidle.written (.of_eq hfiles) ?_ hidle.resumable (by simp)
    intro resume hresume hphase
    rw [hresumes] at hresume
    rcases List.mem_append.mp hresume with hold | hnew
    · exact (h.resumes resume hold hphase).later hidle.written
    · obtain rfl := List.mem_singleton.mp hnew
      exact absurd (launchedBy_phase hlaunched) hphase
  | resume _ hbefore hafter hturn =>
    obtain ⟨frames, hmove, hwrites⟩ := hturn
    have hfiles : (c.step event).files = c.files := congrArg (List.filterMap SendJob.file) hwrites.jobs
    have hmem := hbefore.mem_iff.mpr List.mem_cons_self
    refine h.of_frames hwrites.written (.of_eq hfiles) ?_ hwrites.resumable
      (fun _ hsafe ↦ h.resume_frames hmem hmove hsafe)
    intro current hcurrent hphase
    rcases List.mem_append.mp (hafter.mem_iff.mp hcurrent) with hnew | hrest
    · rw [Option.mem_toList.mp hnew] at hmove
      exact h.resume_accepted hmem hmove hwrites.written hphase
    · have hold := hbefore.mem_iff.mpr (List.mem_cons_of_mem _ hrest)
      exact (h.resumes current hold hphase).later hwrites.written

/-- The frames of a step come after those that were written before. -/
theorem written_step (c : FerryControlClient) (event : ControlEvent) :
    ∃ frames, (c.step event).written = c.written ++ frames := by
  cases turn_step c event with
  | batch _ _ hwrites => exact ⟨_, hwrites.written⟩
  | begins _ _ hbegins => exact ⟨_, hbegins.written⟩
  | file _ _ _ hturn => exact ⟨_, hturn.written⟩
  | launches _ _ hidle => exact ⟨_, hidle.written⟩
  | resume _ _ _ hturn =>
    obtain ⟨frames, -, hwrites⟩ := hturn
    exact ⟨frames, hwrites.written⟩

end Step

end FerryControlClient

end Ferry
