import Ferry.Base.SharedDisk
import Ferry.Service.InterruptedStore
import Ferry.Service.ResumeRun
import Ferry.Service.State
import Ferry.Transfer.Confinement

/-!
# The staging area at startup

What `start` removes before it listens: every `*.part` file in the staging directory whose stem is not the
key of an INTERRUPTED record with time left.  It does not expire records, and it does not know which files
were delivered.
-/

namespace Ferry

open Exec Text IncomingTransfer

/-- The pattern `*.part`. -/
def isPart (name : Text) : Bool := (lit ".part").isSuffixOf name

/-- `Path.stem` of a name that ends in `.part`; a name that starts with its only dot has no suffix. -/
def partStem (name : Text) : Text :=
  if name = lit ".part" then name else name.take (name.length - (lit ".part").length)

/-- The names in a directory, in the order in which `scandir` gives them. -/
structure Listing (disk : Disk) (p : Path) where
  names : List Text
  nodup : names.Nodup
  mem_iff : ∀ name, name ∈ names ↔ disk.nodes (p ++ [name]) ≠ none
  directory : names ≠ [] → disk.nodes p = some .directory

namespace FerryService

def onDisk {α : Type} (m : Exec IoError Disk α) : Handler α :=
  zoom FerryService.disk (fun disk s ↦ { s with disk }) (mapError .ofIo m)

/-- The path of a name in the staging directory. -/
def stagingFile (s : FerryService) (name : Text) : Path := s.downloadDir.staging ++ [name]

/-- One round of the cleanup. -/
def cleanStaleFile (now : ℤ) (name : Text) : Handler Unit :=
  tryCatch (do
    let info ← onDb (Database.getInterruptedTransfer (partStem name))
    if info.any (now < ·.expireAt) then pure ()
    else do
      let s ← get
      onDisk (Disk.unlink (s.stagingFile name))) fun _ ↦ pure ()

/-- The cleanup of the files that the glob found. -/
def cleanStaleFiles (now : ℤ) : List Text → Handler Unit
  | [] => pure ()
  | name :: names => do
    cleanStaleFile now name
    cleanStaleFiles now names

/-- `start` up to its network services. -/
def start (now : ℤ) (names : List Text) : Handler Unit := do
  let s ← get
  onDisk (Disk.mkdir s.downloadDir.path)
  let s ← get
  if s.disk.Exists s.downloadDir.staging then cleanStaleFiles now (names.filter isPart) else pure ()

end FerryService

/-- A file that a `finalise` delivered, with the transfer as it was then. -/
structure Delivery (dir : DownloadDir) where
  metadata : TransferMetadata
  disk : Disk
  world : World
  path : Path
  accepted : ∃ now data, TransferMetadata.fromDict now data = .ok metadata
  run : IncomingTransfer.Run metadata dir disk world
  target : IncomingTransfer.renameTarget world = some path
  delivers : (IncomingTransfer.finalise world).1 = .ok true

namespace FerryService

variable {now : ℤ} {name : Text} {s s' : FerryService}

/-! ## The property -/

/-- The record of the file is INTERRUPTED and has time left. -/
def Protected (s : FerryService) (now : ℤ) (name : Text) : Prop :=
  ∃ info ∈ s.db.interrupted (partStem name), now < info.expireAt

instance (s : FerryService) (now : ℤ) (name : Text) : Decidable (s.Protected now name) :=
  inferInstanceAs (Decidable (∃ info ∈ s.db.interrupted _, _))

/-- The files in the staging directory are those of interrupted transfers with time left, which are as
they were, no record is due, and no delivered file is gone. -/
structure CleansUp (now : ℤ) (deliveries : List (Delivery s.downloadDir)) (s' : FerryService) : Prop where
  left : ∀ name, isPart name = true → s'.disk.IsFile (s.stagingFile name) → s'.Protected now name
  kept : ∀ name, isPart name = true → s.Protected now name →
    s'.disk.nodes (s.stagingFile name) = s.disk.nodes (s.stagingFile name)
  expired : ∀ transferId row, s'.db.transfers.get transferId = some row → ¬Database.IsExpired now row
  delivered : ∀ delivery ∈ deliveries, s.disk.IsFile delivery.path →
    s'.disk.nodes delivery.path = s.disk.nodes delivery.path

/-! ## The condition -/

/-- Where the file is not protected, the database answers and the file is unlinked.  The faults of the
database and the outcomes of `unlink` come in the order of the calls. -/
def Answers (s : FerryService) (now : ℤ) : List Text → List Bool → List Outcome → Prop
  | [], _, _ => True
  | name :: names, faults, outcomes =>
    if faults.headD false = false ∧ (partStem name).any isSurrogate = false then
      if s.Protected now name then s.Answers now names faults.tail outcomes
      else (s.disk.IsFile (s.stagingFile name) → (outcomes.headD ⟨false, 0⟩).fails = false) ∧
        s.Answers now names faults.tail outcomes.tail
    else (s.disk.IsFile (s.stagingFile name) → s.Protected now name) ∧
      s.Answers now names faults.tail outcomes

/-- No record is due, no delivered file is a `*.part` file in the staging directory that has no record with
time left, and the calls for the files without one succeed. -/
structure Tidy (s : FerryService) (now : ℤ) (deliveries : List (Delivery s.downloadDir))
    (names : List Text) : Prop where
  expired : ∀ transferId row, s.db.transfers.get transferId = some row → ¬Database.IsExpired now row
  delivered : ∀ delivery ∈ deliveries, ∀ name, isPart name = true → delivery.path = s.stagingFile name →
    s.disk.IsFile delivery.path → s.Protected now name
  answers : s.Answers now (names.filter isPart) s.db.faults (s.disk.faults .unlink)

/-! ## One file -/

/-- The query answers and shows no record with time left. -/
def Stale (s : FerryService) (now : ℤ) (name : Text) : Prop :=
  s.db.Readable (partStem name) ∧ ¬s.Protected now name

/-- What one round leaves. -/
structure Round (now : ℤ) (name : Text) (s s' : FerryService) : Prop where
  downloadDir : s'.downloadDir = s.downloadDir
  transfers : s'.db.transfers = s.db.transfers
  faults : s'.db.faults = s.db.faults.tail
  others : ∀ q ≠ s.stagingFile name, s'.disk.nodes q = s.disk.nodes q
  spared : ¬s.Stale now name → s'.disk = s.disk
  outcomes : s.Stale now name → s'.disk.faults .unlink = (s.disk.faults .unlink).tail
  unlinked : s.Stale now name → s.disk.IsFile (s.stagingFile name) →
    (s.disk.outcome .unlink).fails = false → s'.disk.nodes (s.stagingFile name) = none
  remains : ¬(s.disk.IsFile (s.stagingFile name) ∧ (s.disk.outcome .unlink).fails = false) →
    s'.disk.nodes (s.stagingFile name) = s.disk.nodes (s.stagingFile name)

theorem any_interrupted_iff : (s.db.interrupted (partStem name)).any (now < ·.expireAt) = true ↔
    s.Protected now name := by
  unfold Protected
  cases s.db.interrupted (partStem name) <;> simp

theorem faults_advance_self (d : Disk) (call : Syscall) :
    (d.advance call).faults call = (d.faults call).tail :=
  if_pos rfl

theorem unlink_spec (p : Path) (d : Disk) :
    wp (Disk.unlink p) (fun _ d' ↦ d'.faults .unlink = (d.faults .unlink).tail ∧
      (∀ q ≠ p, d'.nodes q = d.nodes q) ∧
      (d.IsFile p → (d.outcome .unlink).fails = false → d'.nodes p = none) ∧
      (¬(d.IsFile p ∧ (d.outcome .unlink).fails = false) → d'.nodes p = d.nodes p)) d := by
  unfold Disk.unlink
  rw [Disk.wp_perform_bind, wp_get_bind, wp_raiseIf_bind]
  refine ⟨fun hfails ↦ ⟨faults_advance_self d _, fun _ _ ↦ rfl, fun _ hok ↦ ?_, fun _ ↦ rfl⟩, fun hok ↦ ?_⟩
  · exact absurd (hfails.symm.trans hok) (by decide)
  · rw [Bool.not_eq_true] at hok
    cases hnode : d.nodes p with
    | none =>
      simp only [Disk.nodes_advance, hnode]
      refine ⟨faults_advance_self d _, fun _ _ ↦ rfl, fun ⟨data, hfile⟩ _ ↦ ?_, fun _ ↦ hnode⟩
      exact nomatch hnode.symm.trans hfile
    | some node =>
      cases node with
      | directory =>
        simp only [Disk.nodes_advance, hnode]
        refine ⟨faults_advance_self d _, fun _ _ ↦ rfl, fun ⟨data, hfile⟩ _ ↦ ?_, fun _ ↦ hnode⟩
        exact nomatch hnode.symm.trans hfile
      | file data =>
        simp only [Disk.nodes_advance, hnode, wp_modify]
        exact ⟨faults_advance_self d .unlink, fun q hq ↦ if_neg hq, fun _ _ ↦ if_pos rfl,
          fun hnot ↦ absurd ⟨⟨data, hnode⟩, hok⟩ hnot⟩

theorem getInterruptedTransfer_run {db : Database} {transferId : Text} (h : db.Readable transferId) :
    Database.getInterruptedTransfer transferId db =
      (.ok (db.interrupted transferId), { db with faults := db.faults.tail }) :=
  Database.query_run h fun db ↦ db.interrupted transferId

theorem getInterruptedTransfer_raises {db : Database} {transferId : Text}
    (h : ¬db.Readable transferId) :
    ∃ e, Database.getInterruptedTransfer transferId db = (.error e, { db with faults := db.faults.tail }) := by
  have hraises : wp (Database.getInterruptedTransfer transferId)
      (fun r t ↦ (∃ e, r = .error e) ∧ t = { db with faults := db.faults.tail }) db := by
    unfold Database.getInterruptedTransfer Database.bindText
    apply wp_bind_of (Database.access_effect db)
    · exact fun e t ht ↦ ⟨⟨e, rfl⟩, ht.1⟩
    · rintro _ t ⟨rfl, ⟨-, hfault⟩ | ⟨⟨e, he⟩, -⟩⟩
      · rw [wp_raiseIf_bind]
        refine ⟨fun _ ↦ ⟨⟨_, rfl⟩, rfl⟩, fun hid ↦ absurd ⟨hfault, ?_⟩ h⟩
        rwa [Bool.not_eq_true] at hid
      · exact nomatch he
  obtain ⟨⟨e, he⟩, ht⟩ := hraises
  exact ⟨e, Prod.ext he ht⟩

/-- The part of a round that may raise, where nothing is unlinked. -/
theorem cleanStaleFile_spared (h : ¬s.Stale now name) :
    cleanStaleFile now name s = (.ok (), { s with db := { s.db with faults := s.db.faults.tail } }) := by
  unfold cleanStaleFile
  by_cases hreadable : s.db.Readable (partStem name)
  · have hprotected : s.Protected now name := not_not.mp fun hnot ↦ h ⟨hreadable, hnot⟩
    have hquery : onDb (Database.getInterruptedTransfer (partStem name)) s =
        (.ok (s.db.interrupted (partStem name)),
          { s with db := { s.db with faults := s.db.faults.tail } }) := by
      simp only [onDb, zoom, getInterruptedTransfer_run hreadable]
    refine tryCatch_run_of_ok ?_
    rw [bind_run_of_ok hquery, if_pos (any_interrupted_iff.mpr hprotected)]
    rfl
  · obtain ⟨e, he⟩ := getInterruptedTransfer_raises hreadable
    have hquery : onDb (Database.getInterruptedTransfer (partStem name)) s =
        (.error e, { s with db := { s.db with faults := s.db.faults.tail } }) := by
      simp only [onDb, zoom, he]
    refine (tryCatch_run_of_raises (e := e) ?_).trans rfl
    rw [bind_run_of_raises (congrArg Prod.fst hquery), hquery]

theorem cleanStaleFile_stale (h : s.Stale now name) :
    cleanStaleFile now name s = (.ok (),
      { s with
        db := { s.db with faults := s.db.faults.tail }
        disk := (Disk.unlink (s.stagingFile name) s.disk).2 }) := by
  have hany := any_interrupted_iff.not.mpr h.2
  have hquery : onDb (Database.getInterruptedTransfer (partStem name)) s =
      (.ok (s.db.interrupted (partStem name)),
        { s with db := { s.db with faults := s.db.faults.tail } }) := by
    simp only [onDb, zoom, getInterruptedTransfer_run h.1]
  unfold cleanStaleFile
  rcases hunlink : Disk.unlink (s.stagingFile name) s.disk with ⟨r, d⟩
  have hon : onDisk (Disk.unlink (s.stagingFile name))
      { s with db := { s.db with faults := s.db.faults.tail } } =
      (r.mapError PyError.ofIo, { s with db := { s.db with faults := s.db.faults.tail }, disk := d }) := by
    simp only [onDisk, zoom, mapError, hunlink]
  cases r with
  | ok u =>
    refine tryCatch_run_of_ok ?_
    rw [bind_run_of_ok hquery, if_neg hany, get_bind_run]
    exact hon
  | error e =>
    refine (tryCatch_run_of_raises (e := .ofIo e) ?_).trans rfl
    rw [bind_run_of_ok hquery, if_neg hany, get_bind_run]
    exact hon

theorem cleanStaleFile_spec (s : FerryService) (now : ℤ) (name : Text) :
    ∃ s', cleanStaleFile now name s = (.ok (), s') ∧ Round now name s s' := by
  by_cases hstale : s.Stale now name
  · obtain ⟨houtcomes, hothers, hunlinked, hremains⟩ := unlink_spec (s.stagingFile name) s.disk
    exact ⟨_, cleanStaleFile_stale hstale, rfl, rfl, rfl, hothers, fun hnot ↦ absurd hstale hnot,
      fun _ ↦ houtcomes, fun _ ↦ hunlinked, hremains⟩
  · exact ⟨_, cleanStaleFile_spared hstale, rfl, rfl, rfl, fun _ _ ↦ rfl, fun _ ↦ rfl,
      fun h ↦ absurd h hstale, fun h ↦ absurd h hstale, fun _ ↦ rfl⟩

/-! ## All files -/

theorem interrupted_of_transfers {db db' : Database} (h : db'.transfers = db.transfers) (transferId : Text) :
    db'.interrupted transferId = db.interrupted transferId :=
  Database.interrupted_congr (by rw [h])

theorem protected_of_transfers (h : s'.db.transfers = s.db.transfers) (now : ℤ) (name : Text) :
    s'.Protected now name ↔ s.Protected now name := by
  unfold Protected
  rw [interrupted_of_transfers h]

/-- The condition reads the records and the nodes of the files. -/
theorem answers_congr {names : List Text} (hdir : s'.downloadDir = s.downloadDir)
    (htransfers : s'.db.transfers = s.db.transfers)
    (hnodes : ∀ name ∈ names, s'.disk.nodes (s.stagingFile name) = s.disk.nodes (s.stagingFile name))
    (faults : List Bool) (outcomes : List Outcome) :
    s'.Answers now names faults outcomes ↔ s.Answers now names faults outcomes := by
  induction names generalizing faults outcomes with
  | nil => exact Iff.rfl
  | cons name names ih =>
    have hfile : s'.disk.IsFile (s'.stagingFile name) ↔ s.disk.IsFile (s.stagingFile name) := by
      rw [Disk.IsFile, Disk.IsFile, stagingFile, hdir, ← stagingFile, hnodes name List.mem_cons_self]
    have ih := ih fun name hname ↦ hnodes name (List.mem_cons_of_mem _ hname)
    simp only [Answers, protected_of_transfers htransfers, hfile, ih]

/-- What the rounds leave.  A file is there afterwards, or it was stale and is gone. -/
structure Swept (now : ℤ) (names : List Text) (s s' : FerryService) : Prop where
  downloadDir : s'.downloadDir = s.downloadDir
  transfers : s'.db.transfers = s.db.transfers
  others : ∀ q, (∀ name ∈ names, q ≠ s.stagingFile name) → s'.disk.nodes q = s.disk.nodes q
  each : ∀ name ∈ names, s'.disk.nodes (s.stagingFile name) = s.disk.nodes (s.stagingFile name) ∨
    ¬s.Protected now name ∧ s'.disk.nodes (s.stagingFile name) = none
  left : (∀ name ∈ names, s'.disk.IsFile (s.stagingFile name) → s.Protected now name) ↔
    s.Answers now names s.db.faults (s.disk.faults .unlink)

theorem stagingFile_injective (s : FerryService) {name other : Text}
    (h : s.stagingFile name = s.stagingFile other) : name = other :=
  List.singleton_inj.mp (List.append_cancel_left h)

/-- Afterwards the file is as it was, or it was stale and is gone. -/
theorem Round.each (h : Round now name s s') :
    s'.disk.nodes (s.stagingFile name) = s.disk.nodes (s.stagingFile name) ∨
      ¬s.Protected now name ∧ s'.disk.nodes (s.stagingFile name) = none := by
  by_cases hstale : s.Stale now name
  · by_cases hgone : s.disk.IsFile (s.stagingFile name) ∧ (s.disk.outcome .unlink).fails = false
    · exact .inr ⟨hstale.2, h.unlinked hstale hgone.1 hgone.2⟩
    · exact .inl (h.remains hgone)
  · exact .inl (by rw [h.spared hstale])

/-- A file that is there after the round is protected when the calls for it answered. -/
theorem Round.left (h : Round now name s s') (names : List Text) :
    ((s'.disk.IsFile (s.stagingFile name) → s.Protected now name) ∧
      s.Answers now names s'.db.faults (s'.disk.faults .unlink)) ↔
      s.Answers now (name :: names) s.db.faults (s.disk.faults .unlink) := by
  rw [Answers, h.faults]
  by_cases hreadable : s.db.Readable (partStem name)
  · rw [if_pos (show _ ∧ _ from hreadable)]
    by_cases hprotected : s.Protected now name
    · rw [if_pos hprotected, h.spared fun hstale ↦ hstale.2 hprotected]
      exact and_iff_right fun _ ↦ hprotected
    · have hstale : s.Stale now name := ⟨hreadable, hprotected⟩
      rw [if_neg hprotected, h.outcomes hstale]
      refine and_congr_left fun _ ↦ ⟨fun hleft hfile ↦ ?_, fun hanswers hfile ↦ ?_⟩
      · by_contra hfails
        refine hprotected (hleft ?_)
        rw [Disk.IsFile, h.remains fun hgone ↦ hfails hgone.2]
        exact hfile
      · by_cases hbefore : s.disk.IsFile (s.stagingFile name)
        · obtain ⟨data, hdata⟩ := hfile
          cases (h.unlinked hstale hbefore (hanswers hbefore)).symm.trans hdata
        · rw [Disk.IsFile, h.remains fun hgone ↦ hbefore hgone.1] at hfile
          exact absurd hfile hbefore
  · rw [if_neg (show ¬(_ ∧ _) from hreadable), h.spared fun hstale ↦ hreadable hstale.1]

theorem Round.swept {names : List Text} {t : FerryService} (hround : Round now name s t)
    (hname : name ∉ names) (hswept : Swept now names t s') : Swept now (name :: names) s s' := by
  have hfile : ∀ other, t.stagingFile other = s.stagingFile other := fun other ↦ by
    rw [stagingFile, hround.downloadDir, ← stagingFile]
  have hne : ∀ other ∈ names, s.stagingFile other ≠ s.stagingFile name := fun other hother heq ↦
    hname (s.stagingFile_injective heq ▸ hother)
  have hhead : s'.disk.nodes (s.stagingFile name) = t.disk.nodes (s.stagingFile name) :=
    hswept.others _ fun other hother ↦ by
      rw [hfile]
      exact (hne other hother).symm
  have hsame : ∀ other ∈ names, t.disk.nodes (s.stagingFile other) = s.disk.nodes (s.stagingFile other) :=
    fun other hother ↦ hround.others _ (hne other hother)
  refine ⟨hswept.downloadDir.trans hround.downloadDir, hswept.transfers.trans hround.transfers,
    fun q hq ↦ ?_, fun other hother ↦ ?_, ?_⟩
  · refine (hswept.others q fun other hother ↦ ?_).trans (hround.others q (hq name List.mem_cons_self))
    rw [hfile]
    exact hq other (List.mem_cons_of_mem _ hother)
  · rcases List.mem_cons.mp hother with rfl | hother
    · rw [hhead]
      exact hround.each
    · have heach := hswept.each other hother
      rwa [hfile, hsame other hother, protected_of_transfers hround.transfers] at heach
  · have hmember : ∀ other ∈ names, (s'.disk.IsFile (t.stagingFile other) → t.Protected now other) ↔
        (s'.disk.IsFile (s.stagingFile other) → s.Protected now other) := fun other _ ↦ by
      rw [hfile, protected_of_transfers hround.transfers]
    have htail := hswept.left
    rw [answers_congr hround.downloadDir hround.transfers hsame, forall₂_congr hmember] at htail
    rw [List.forall_mem_cons, htail, ← hround.left names, Disk.IsFile, hhead, ← Disk.IsFile]

theorem cleanStaleFiles_spec (now : ℤ) {names : List Text} (hnodup : names.Nodup) (s : FerryService) :
    ∃ s', cleanStaleFiles now names s = (.ok (), s') ∧ Swept now names s s' := by
  induction names generalizing s with
  | nil =>
    exact ⟨s, rfl, rfl, rfl, fun _ _ ↦ rfl, fun _ h ↦ (nomatch h), fun _ ↦ trivial,
      fun _ _ h ↦ (nomatch h)⟩
  | cons name names ih =>
    obtain ⟨hname, hrest⟩ := List.nodup_cons.mp hnodup
    obtain ⟨t, hrun, hround⟩ := cleanStaleFile_spec s now name
    obtain ⟨s', hruns, hswept⟩ := ih hrest t
    exact ⟨s', (bind_run_of_ok hrun).trans hruns, hround.swept hname hswept⟩

/-! ## The start -/

theorem mkdir_frame (p : Path) (d : Disk) : wp (Disk.mkdir p) (fun _ d' ↦
    d'.faults .unlink = d.faults .unlink ∧ ∀ q, ¬q <+: p → d'.nodes q = d.nodes q) d := by
  have hreached : ∀ reached : List Path, (∀ q ∈ reached, q <+: p) → ∀ q, ¬q <+: p →
      ((d.advance .mkdir).addDirectories reached).nodes q = d.nodes q := fun reached hall q hq ↦
    if_neg fun hnew ↦ hq (hall q hnew.2)
  unfold Disk.mkdir
  rw [Disk.wp_perform_bind, wp_get_bind, wp_modify_bind, wp_raiseIf]
  have hinits : ∀ q ∈ (if (d.outcome .mkdir).fails then p.inits.take (d.outcome .mkdir).reach
      else p.inits).takeWhile (fun q ↦ (d.advance .mkdir).nodes q = none ∨
        (d.advance .mkdir).nodes q = some .directory), q <+: p := fun q hq ↦ by
    have hmem := (List.takeWhile_sublist _).subset hq
    split at hmem
    · exact List.mem_inits _ _ |>.mp (List.mem_of_mem_take hmem)
    · exact List.mem_inits _ _ |>.mp hmem
  exact ⟨fun _ ↦ ⟨rfl, hreached _ hinits⟩, fun _ ↦ ⟨rfl, hreached _ hinits⟩⟩

/-- The staging directory is below the download directory. -/
theorem not_prefix_staging (dir : DownloadDir) (names : List Text) : ¬dir.staging ++ names <+: dir.path := by
  intro h
  have hstaging : Path.IsName (lit "staging") := by
    constructor <;> decide
  have hlength := h.length_le
  rw [DownloadDir.staging, Path.join_name hstaging, List.length_append, List.length_append,
    List.length_singleton] at hlength
  omega

/-- What `start` does before its network services. -/
structure Started (now : ℤ) (parts : List Text) (s s' : FerryService) : Prop where
  transfers : s'.db.transfers = s.db.transfers
  untouched : ∀ q, s.disk.Exists q → (∀ name ∈ parts, q ≠ s.stagingFile name) →
    s'.disk.nodes q = s.disk.nodes q
  others : ∀ name ∉ parts, s'.disk.nodes (s.stagingFile name) = s.disk.nodes (s.stagingFile name)
  each : ∀ name ∈ parts, s'.disk.nodes (s.stagingFile name) = s.disk.nodes (s.stagingFile name) ∨
    ¬s.Protected now name ∧ s'.disk.nodes (s.stagingFile name) = none
  left : (∀ name ∈ parts, s'.disk.IsFile (s.stagingFile name) → s.Protected now name) ↔
    s.Answers now parts s.db.faults (s.disk.faults .unlink)

theorem started_of_start (listing : Listing s.disk s.downloadDir.staging)
    (hstart : start now listing.names s = (.ok (), s')) :
    Started now (listing.names.filter isPart) s s' := by
  set parts := listing.names.filter isPart with hparts
  have hnodup : parts.Nodup := listing.nodup.filter _
  obtain ⟨u, t, hmkdir, hrest⟩ := bind_run_eq_ok.mp (get_bind_run.symm.trans hstart)
  obtain ⟨hfaults, hframe⟩ := mkdir_frame s.downloadDir.path s.disk
  have hextends := Disk.extends_mkdir s.downloadDir.path s.disk
  obtain rfl : { s with disk := (Disk.mkdir s.downloadDir.path s.disk).2 } = t := by
    have hstate := congrArg Prod.snd hmkdir
    simpa only [onDisk, zoom, mapError] using hstate
  set t : FerryService := { s with disk := (Disk.mkdir s.downloadDir.path s.disk).2 } with ht
  have hstaging : t.disk.nodes s.downloadDir.staging = s.disk.nodes s.downloadDir.staging :=
    hframe _ (List.append_nil s.downloadDir.staging ▸ not_prefix_staging s.downloadDir [])
  have hfile : ∀ name, t.disk.nodes (s.stagingFile name) = s.disk.nodes (s.stagingFile name) :=
    fun name ↦ hframe _ (not_prefix_staging s.downloadDir [name])
  have hswept : Swept now parts t s' := by
    rw [get_bind_run] at hrest
    split at hrest
    · obtain ⟨s'', hruns, hswept⟩ := cleanStaleFiles_spec now hnodup t
      obtain rfl := congrArg Prod.snd (hruns.symm.trans hrest)
      exact hswept
    · next hmissing =>
      have hempty : parts = [] := by
        rw [hparts, List.filter_eq_nil_iff]
        intro name hname
        have hdirectory := listing.directory (List.ne_nil_of_mem hname)
        refine absurd ?_ hmissing
        rw [Disk.Exists, hstaging, hdirectory]
        exact Option.some_ne_none _
      obtain rfl := congrArg Prod.snd hrest
      rw [hempty]
      exact ⟨rfl, rfl, fun _ _ ↦ rfl, by simp, fun _ ↦ trivial, by simp⟩
  refine ⟨hswept.transfers, fun q hexists hq ↦ ?_, fun name hname ↦ ?_, fun name hname ↦ ?_, ?_⟩
  · exact (hswept.others q hq).trans (hextends q hexists)
  · refine (hswept.others _ fun other hother heq ↦ ?_).trans (hfile name)
    exact hname (s.stagingFile_injective heq ▸ hother)
  · rw [← hfile name]
    exact hswept.each name hname
  · have hleft := hswept.left
    have hanswers : t.Answers now parts t.db.faults (t.disk.faults .unlink) ↔
        s.Answers now parts s.db.faults (s.disk.faults .unlink) := by
      rw [← hfaults]
      exact @answers_congr now s t parts rfl rfl (fun name _ ↦ hfile name) _ _
    exact hleft.trans hanswers

/-- The cleanup does what it should exactly when no record is due, the delivered files are none of those
that it removes, and the calls for the files without a record succeed. -/
theorem cleansUp_iff (now : ℤ) (s s' : FerryService) (deliveries : List (Delivery s.downloadDir))
    (listing : Listing s.disk s.downloadDir.staging) (hstart : start now listing.names s = (.ok (), s')) :
    s.CleansUp now deliveries s' ↔ s.Tidy now deliveries listing.names := by
  have hstarted := started_of_start listing hstart
  have hmem : ∀ name, isPart name = true → s.disk.nodes (s.stagingFile name) ≠ none →
      name ∈ listing.names.filter isPart := fun name hpart hnode ↦
    List.mem_filter.mpr ⟨(listing.mem_iff name).mpr hnode, hpart⟩
  have hprotected := protected_of_transfers hstarted.transfers now
  constructor
  · intro h
    refine ⟨fun transferId row hrow ↦ h.expired transferId row (hstarted.transfers ▸ hrow),
      fun delivery hdelivery name hpart hpath hfile ↦ ?_, hstarted.left.mp fun name hname hfile ↦ ?_⟩
    · have hsame := h.delivered delivery hdelivery hfile
      rw [hpath] at hsame hfile
      refine (hprotected name).mp (h.left name hpart ?_)
      rwa [Disk.IsFile, hsame]
    · exact (hprotected name).mp (h.left name (List.mem_filter.mp hname).2 hfile)
  · intro h
    refine ⟨fun name hpart hfile ↦ ?_, fun name hpart hprotects ↦ ?_,
      fun transferId row hrow ↦ h.expired transferId row (hstarted.transfers ▸ hrow),
      fun delivery hdelivery hfile ↦ ?_⟩
    · by_cases hname : name ∈ listing.names.filter isPart
      · exact (hprotected name).mpr (hstarted.left.mpr h.answers name hname hfile)
      · obtain ⟨data, hdata⟩ := hfile
        rw [hstarted.others name hname] at hdata
        exact absurd (hmem name hpart (hdata ▸ Option.some_ne_none _)) hname
    · by_cases hname : name ∈ listing.names.filter isPart
      · exact (hstarted.each name hname).resolve_right fun hgone ↦ hgone.1 hprotects
      · exact hstarted.others name hname
    · by_cases hpath : ∃ name ∈ listing.names.filter isPart, delivery.path = s.stagingFile name
      · obtain ⟨name, hname, hpath⟩ := hpath
        have hprotects := h.delivered delivery hdelivery name (List.mem_filter.mp hname).2 hpath hfile
        rw [hpath]
        exact (hstarted.each name hname).resolve_right fun hgone ↦ hgone.1 hprotects
      · obtain ⟨data, hdata⟩ := hfile
        refine hstarted.untouched _ (fun hnone ↦ by cases hnone.symm.trans hdata) fun name hname heq ↦ ?_
        exact hpath ⟨name, hname, heq⟩

/-! ## A file that was delivered into the staging directory -/

/-- A disk with files in the staging directory. -/
def stagingDisk (names : List Text) : Disk where
  nodes := fun p ↦ if p ∈ names.map (sampleDir.staging ++ [·]) then some (.file [1, 2, 3])
    else if p <+: sampleDir.staging then some .directory else none
  faults := fun _ ↦ []

def stagingListing (names : List Text) (hnodup : names.Nodup) :
    Listing (stagingDisk names) sampleDir.staging where
  names := names
  nodup := hnodup
  mem_iff name := by
    have hlonger : ¬sampleDir.staging ++ [name] <+: sampleDir.staging := fun h ↦ by
      simpa using h.length_le
    simp [stagingDisk, hlonger]
  directory _ := by
    have hself : ∀ name, sampleDir.staging ++ [name] ≠ sampleDir.staging := by simp
    simp [stagingDisk, hself]

/-- A service with such a disk and one interrupted transfer, which expires at 10. -/
def stagingService (names : List Text) : FerryService where
  downloadDir := sampleDir
  disk := stagingDisk names
  db := {
    devices := ⟨[], .nil⟩
    transfers := Dict.set ∅ (lit "a")
      ⟨⟨.str (lit "phone"), lit "f.txt", 3, .incoming, .interrupted, 0, []⟩,
        some { sampleInfo with expireAt := 10 }⟩
    faults := [] }
  sessions := fun _ ↦ ⟨.established, lit "10.0.0.2:4000", .str (lit "phone"), [], []⟩
  activeSessions := ∅
  incomingTransfers := ∅
  incomingPeers := ∅
  activeBatches := ∅
  acceptTimeoutTasks := ∅
  lastChunkTime := ∅
  recordedTransferIds := []
  completions := []

theorem cleansUp_iff_sample :
    (stagingService [lit "a.part", lit "old.part"]).CleansUp 5 []
        (start 5 [lit "a.part", lit "old.part"] (stagingService [lit "a.part", lit "old.part"])).2 ↔
      (stagingService [lit "a.part", lit "old.part"]).Tidy 5 [] [lit "a.part", lit "old.part"] :=
  cleansUp_iff 5 (stagingService [lit "a.part", lit "old.part"]) _ []
    (stagingListing [lit "a.part", lit "old.part"] (by decide)) (Prod.ext (by decide +kernel) rfl)

/-- A file that the sender placed in the staging directory by its relative path. -/
def holidayDelivery : Delivery sampleDir where
  metadata := sampleMetadata "staging/holiday.part"
  disk := rootDisk
  world := sampleReceived "staging/holiday.part"
  path := sampleDir.staging ++ [lit "holiday.part"]
  accepted := ⟨0, samplePayload "staging/holiday.part", by decide +kernel⟩
  run := run_sampleReceived _
  target := by decide +kernel
  delivers := by decide +kernel

/-- The delivered file is removed, and the record that is due stays INTERRUPTED. -/
theorem start_removes_delivered :
    (start 20 [lit "holiday.part"] (stagingService [lit "holiday.part"])).1 = .ok () ∧
      (stagingService [lit "holiday.part"]).disk.nodes holidayDelivery.path = some (.file [1, 2, 3]) ∧
      (start 20 [lit "holiday.part"] (stagingService [lit "holiday.part"])).2.disk.nodes
        holidayDelivery.path = none ∧
      (∃ row ∈ (start 20 [lit "holiday.part"] (stagingService [lit "holiday.part"])).2.db.transfers.get
        (lit "a"), Database.IsExpired 20 row) ∧
      ¬(stagingService [lit "holiday.part"]).CleansUp 20 [holidayDelivery]
        (start 20 [lit "holiday.part"] (stagingService [lit "holiday.part"])).2 := by
  have hfile : (stagingService [lit "holiday.part"]).disk.nodes holidayDelivery.path =
      some (.file [1, 2, 3]) := by decide +kernel
  have hgone : (start 20 [lit "holiday.part"] (stagingService [lit "holiday.part"])).2.disk.nodes
      holidayDelivery.path = none := by decide +kernel
  refine ⟨by decide +kernel, hfile, hgone, by decide +kernel, fun h ↦ ?_⟩
  have hsame := h.delivered holidayDelivery (List.mem_singleton_self _) ⟨_, hfile⟩
  exact nomatch (hgone.symm.trans hsame).trans hfile

end FerryService

end Ferry
