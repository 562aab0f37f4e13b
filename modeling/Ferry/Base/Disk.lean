import Ferry.Base.Exec
import Ferry.Base.PosixPath
import Ferry.Base.Sha256

/-!
# A disk with failing system calls

A tree of files and directories, and for every kind of system call the outcomes that the
environment has in store for it.  A failing call may have done part of its work: a failed write
puts some of the pending bytes on the disk.  Open files are buffered, so bytes that a program wrote
are in the file or in the buffer of its handle, and a handle that is dropped without `close` still
tries to write its buffer.  A handle writes at the end of the file at its path.
-/

namespace Ferry

/-- What a path names. -/
inductive Node
  | file (content : Bytes)
  | directory
  deriving DecidableEq

/-- The kinds of system calls that can fail. -/
inductive Syscall
  | mkdir
  | openFile
  | read
  | write
  | flush
  | close
  | stat
  | seek
  | truncate
  | unlink
  | rename
  deriving DecidableEq

/-- The environment's choice for one call: whether it fails and how far it gets.  A write that does
not fail also leaves the rest of its bytes in the buffer. -/
structure Outcome where
  fails : Bool
  reach : ℕ
  deriving DecidableEq

structure Disk where
  nodes : Path → Option Node
  faults : Syscall → List Outcome

/-- The exceptions of the file operations: an `OSError`, its subclass for a missing file, and the
`ValueError` of an operation on a closed file. -/
inductive IoError
  | osError
  | fileNotFound
  | closedFile
  deriving DecidableEq

namespace IoError

/-- Caught by `except OSError`. -/
def IsOsError (e : IoError) : Prop := e ≠ closedFile

instance (e : IoError) : Decidable e.IsOsError := inferInstanceAs (Decidable (_ ≠ _))

end IoError

namespace Disk

open Exec

/-! ## Nodes -/

/-- Replace the node at one path. -/
def put (disk : Disk) (p : Path) (node : Option Node) : Disk :=
  { disk with nodes := fun q ↦ if q = p then node else disk.nodes q }

/-- `path.exists()`. -/
def Exists (disk : Disk) (p : Path) : Prop := disk.nodes p ≠ none

instance (disk : Disk) (p : Path) : Decidable (disk.Exists p) :=
  inferInstanceAs (Decidable (_ ≠ _))

/-- The bytes of the file at a path, and none where there is no file. -/
def content (disk : Disk) (p : Path) : Bytes :=
  match disk.nodes p with
  | some (.file data) => data
  | _ => []

def IsFile (disk : Disk) (p : Path) : Prop := ∃ data, disk.nodes p = some (.file data)

theorem content_of_nodes {disk : Disk} {p : Path} {data : Bytes}
    (h : disk.nodes p = some (.file data)) : disk.content p = data := by
  simp [content, h]

theorem IsFile.nodes {disk : Disk} {p : Path} (h : disk.IsFile p) :
    disk.nodes p = some (.file (disk.content p)) := by
  obtain ⟨data, hdata⟩ := h
  rw [content_of_nodes hdata, hdata]

/-- Bytes written through a handle reach the file, unless it was removed. -/
def append (disk : Disk) (p : Path) (data : Bytes) : Disk :=
  match disk.nodes p with
  | some (.file old) => disk.put p (some (.file (old ++ data)))
  | _ => disk

/-- Missing directories on the way to a path. -/
def addDirectories (disk : Disk) (prefixes : List Path) : Disk :=
  { disk with nodes := fun q ↦
      if disk.nodes q = none ∧ q ∈ prefixes then some .directory else disk.nodes q }

/-- Move the tree below `src`. -/
def move (disk : Disk) (src dst : Path) : Disk :=
  { disk with nodes := fun q ↦
      if dst <+: q then disk.nodes (src ++ q.drop dst.length)
      else if src <+: q then none
      else disk.nodes q }

theorem nodes_move_dst (disk : Disk) (src dst : Path) :
    (disk.move src dst).nodes dst = disk.nodes src := by
  simp [move]

@[simp] theorem nodes_put (disk : Disk) (p q : Path) (node : Option Node) :
    (disk.put p node).nodes q = if q = p then node else disk.nodes q := rfl

@[simp] theorem faults_put (disk : Disk) (p : Path) (node : Option Node) :
    (disk.put p node).faults = disk.faults := rfl

@[simp] theorem faults_append (disk : Disk) (p : Path) (data : Bytes) :
    (disk.append p data).faults = disk.faults := by
  unfold append
  split <;> rfl

theorem nodes_append_of_ne (disk : Disk) {p q : Path} (data : Bytes) (h : q ≠ p) :
    (disk.append p data).nodes q = disk.nodes q := by
  unfold append
  split
  · simp [h]
  · rfl

theorem isFile_append {disk : Disk} {p : Path} (data : Bytes) (h : disk.IsFile p) :
    (disk.append p data).IsFile p ∧ (disk.append p data).content p = disk.content p ++ data := by
  have hnodes : (disk.append p data).nodes p = some (.file (disk.content p ++ data)) := by
    simp [append, h.nodes]
  exact ⟨⟨_, hnodes⟩, content_of_nodes hnodes⟩

/-! ## Calls -/

/-- The outcome of the next call of a kind; calls succeed when no outcome is left. -/
def outcome (disk : Disk) (call : Syscall) : Outcome := (disk.faults call).headD ⟨false, 0⟩

def advance (disk : Disk) (call : Syscall) : Disk :=
  { disk with faults := fun c ↦ if c = call then (disk.faults c).tail else disk.faults c }

@[simp] theorem nodes_advance (disk : Disk) (call : Syscall) :
    (disk.advance call).nodes = disk.nodes := rfl

/-- Take the outcome of a call from the environment. -/
def perform (call : Syscall) : Exec IoError Disk Outcome := fun disk ↦
  (.ok (disk.outcome call), disk.advance call)

/-- `path.mkdir(parents=True, exist_ok=True)`. -/
def mkdir (p : Path) : Exec IoError Disk Unit := do
  let outcome ← perform .mkdir
  let disk ← get
  let reached := if outcome.fails then p.inits.take outcome.reach else p.inits
  let blocked := reached.any fun q ↦ disk.nodes q ≠ none ∧ disk.nodes q ≠ some .directory
  modify fun d ↦ d.addDirectories
    (reached.takeWhile fun q ↦ disk.nodes q = none ∨ disk.nodes q = some .directory)
  raiseIf (blocked ∨ outcome.fails) .osError

/-- `path.stat().st_size`; a directory has some positive size. -/
def stat (p : Path) : Exec IoError Disk ℕ := do
  let outcome ← perform .stat
  let disk ← get
  raiseIf outcome.fails .osError
  match disk.nodes p with
  | none => throw .fileNotFound
  | some (.file data) => pure data.length
  | some .directory => pure 4096

/-- Read a whole file block by block: what was read before the first error, and that error. -/
def readBlocks (p : Path) : Exec IoError Disk (Bytes × Option IoError) := do
  let outcome ← perform .read
  let disk ← get
  match disk.nodes p with
  | none => pure ([], some .fileNotFound)
  | some .directory => pure ([], some .osError)
  | some (.file data) =>
    if outcome.fails then pure (data.take outcome.reach, some .osError) else pure (data, none)

/-- `open(path, "rb")`. -/
def openRead (p : Path) : Exec IoError Disk Unit := do
  let outcome ← perform .openFile
  let disk ← get
  raiseIf outcome.fails .osError
  raiseIf (disk.nodes p = none) .fileNotFound
  raiseIf (disk.nodes p = some .directory) .osError

/-- `fh.seek(offset)`; an offset past the end is no error. -/
def seek : Exec IoError Disk Unit := do
  let outcome ← perform .seek
  raiseIf outcome.fails .osError

/-- `fh.read(size)` at a position of an open file. -/
def readAt (p : Path) (position size : ℕ) : Exec IoError Disk Bytes := do
  let outcome ← perform .read
  let disk ← get
  raiseIf outcome.fails .osError
  pure (((disk.content p).drop position).take size)

/-- `os.truncate(path, size)`. -/
def truncate (p : Path) (size : ℕ) : Exec IoError Disk Unit := do
  let outcome ← perform .truncate
  let disk ← get
  raiseIf outcome.fails .osError
  match disk.nodes p with
  | none => throw .fileNotFound
  | some .directory => throw .osError
  | some (.file data) =>
    modify fun d ↦ d.put p (some (.file (data.take size ++ List.replicate (size - data.length) 0)))

/-- `path.unlink()`. -/
def unlink (p : Path) : Exec IoError Disk Unit := do
  let outcome ← perform .unlink
  let disk ← get
  raiseIf outcome.fails .osError
  match disk.nodes p with
  | none => throw .fileNotFound
  | some .directory => throw .osError
  | some (.file _) => modify fun d ↦ d.put p none

/-- `src.rename(dst)`: an existing file at `dst` is replaced, an existing directory is not. -/
def rename (src dst : Path) : Exec IoError Disk Unit := do
  let outcome ← perform .rename
  let disk ← get
  raiseIf outcome.fails .osError
  raiseIf (disk.nodes src = none) .fileNotFound
  raiseIf (disk.nodes dst = some .directory) .osError
  raiseIf (Path.IsProperAncestor src dst) .osError
  raiseIf (disk.nodes dst.parent ≠ some .directory) .fileNotFound
  modify fun d ↦ d.move src dst

end Disk

/-! ## Buffered files -/

/-- An open binary file for writing. -/
structure Handle where
  path : Path
  buffer : Bytes
  closed : Bool
  deriving DecidableEq

namespace Handle

open Exec

/-- `open(path, "wb")`. -/
def openTruncate (p : Path) : Exec IoError Disk Handle := do
  let outcome ← Disk.perform .openFile
  let disk ← get
  raiseIf outcome.fails .osError
  raiseIf (disk.nodes p.parent ≠ some .directory) .fileNotFound
  raiseIf (disk.nodes p = some .directory) .osError
  modify fun d ↦ d.put p (some (.file []))
  pure ⟨p, [], false⟩

/-- `open(path, "ab")`. -/
def openAppend (p : Path) : Exec IoError Disk Handle := do
  let outcome ← Disk.perform .openFile
  let disk ← get
  raiseIf outcome.fails .osError
  raiseIf (disk.nodes p.parent ≠ some .directory) .fileNotFound
  raiseIf (disk.nodes p = some .directory) .osError
  modify fun d ↦ d.put p (some (.file (d.content p)))
  pure ⟨p, [], false⟩

/-- Part of the pending bytes reaches the file, the rest stays in the buffer.  When the write fails
the bytes of this call that did not reach the file are lost. -/
def write (data : Bytes) : Exec IoError (Disk × Handle) Unit := do
  let s ← get
  raiseIf s.2.closed .closedFile
  let outcome ← zoom Prod.fst (fun d s ↦ (d, s.2)) (Disk.perform .write)
  let pending := s.2.buffer ++ data
  let kept := if outcome.fails then s.2.buffer else pending
  modify fun t ↦ (t.1.append s.2.path (pending.take outcome.reach),
    { s.2 with buffer := kept.drop outcome.reach })
  raiseIf outcome.fails .osError

def flush : Exec IoError (Disk × Handle) Unit := do
  let s ← get
  raiseIf s.2.closed .closedFile
  let outcome ← zoom Prod.fst (fun d s ↦ (d, s.2)) (Disk.perform .flush)
  let reached := if outcome.fails then outcome.reach else s.2.buffer.length
  modify fun t ↦ (t.1.append s.2.path (s.2.buffer.take reached),
    { s.2 with buffer := s.2.buffer.drop reached })
  raiseIf outcome.fails .osError

/-- The file is closed even when its last bytes could not be written. -/
def close : Exec IoError (Disk × Handle) Unit := do
  let s ← get
  if s.2.closed then pure ()
  else
    let outcome ← zoom Prod.fst (fun d s ↦ (d, s.2)) (Disk.perform .close)
    let reached := if outcome.fails then outcome.reach else s.2.buffer.length
    modify fun t ↦ (t.1.append s.2.path (s.2.buffer.take reached),
      { s.2 with buffer := [], closed := true })
    raiseIf outcome.fails .osError

/-- The last reference to a file goes away: it is closed, and errors are not reported. -/
def drop (handle : Handle) : Exec IoError Disk Unit := fun disk ↦
  (.ok (), (close (disk, handle)).2.1)

end Handle

/-! ## What a call can do to the disk -/

namespace Disk

open Exec

/-- Every outcome in store for a call is a success. -/
def Reliable (disk : Disk) (call : Syscall) : Prop := ∀ o ∈ disk.faults call, o.fails = false

/-- Only the node at `p` changes, and outcomes are used up. -/
structure OnlyFile (p : Path) (d d' : Disk) : Prop where
  nodes : ∀ q, q ≠ p → d'.nodes q = d.nodes q
  faults : ∀ call, d'.faults call <:+ d.faults call

theorem OnlyFile.refl (p : Path) (d : Disk) : OnlyFile p d d where
  nodes := fun _ _ ↦ rfl
  faults := fun _ ↦ List.suffix_rfl

theorem OnlyFile.trans {p : Path} {d d' d'' : Disk} (h : OnlyFile p d d') (h' : OnlyFile p d' d'') :
    OnlyFile p d d'' where
  nodes := fun q hq ↦ (h'.nodes q hq).trans (h.nodes q hq)
  faults := fun call ↦ (h'.faults call).trans (h.faults call)

instance (p : Path) : IsPreorder Disk (OnlyFile p) where
  refl := OnlyFile.refl p
  trans := fun _ _ _ ↦ OnlyFile.trans

/-- Only the node at `p` changes, apart from new directories, and outcomes are used up. -/
structure OnlyAt (p : Path) (d d' : Disk) : Prop where
  nodes : ∀ q, q ≠ p → d'.nodes q = d.nodes q ∨ (d.nodes q = none ∧ d'.nodes q = some .directory)
  faults : ∀ call, d'.faults call <:+ d.faults call

theorem OnlyAt.refl (p : Path) (d : Disk) : OnlyAt p d d where
  nodes := fun _ _ ↦ .inl rfl
  faults := fun _ ↦ List.suffix_rfl

theorem OnlyAt.trans {p : Path} {d d' d'' : Disk} (h : OnlyAt p d d') (h' : OnlyAt p d' d'') :
    OnlyAt p d d'' where
  nodes := by
    intro q hq
    rcases h.nodes q hq with hsame | ⟨hnone, hdir⟩
    · rw [← hsame]
      exact h'.nodes q hq
    · rcases h'.nodes q hq with hsame | ⟨hnone', -⟩
      · exact .inr ⟨hnone, by rw [hsame, hdir]⟩
      · rw [hdir] at hnone'
        exact absurd hnone' (by simp)
  faults := fun call ↦ (h'.faults call).trans (h.faults call)

instance (p : Path) : IsPreorder Disk (OnlyAt p) where
  refl := OnlyAt.refl p
  trans := fun _ _ _ ↦ OnlyAt.trans

theorem OnlyFile.onlyAt {p : Path} {d d' : Disk} (h : OnlyFile p d d') : OnlyAt p d d' where
  nodes := fun q hq ↦ .inl (h.nodes q hq)
  faults := h.faults

theorem Reliable.later {d d' : Disk} {call : Syscall} (h : d.Reliable call)
    (hfaults : d'.faults call <:+ d.faults call) : d'.Reliable call :=
  fun o ho ↦ h o (hfaults.subset ho)

theorem Reliable.outcome {d : Disk} {call : Syscall} (h : d.Reliable call) :
    (d.outcome call).fails = false := by
  unfold Disk.outcome
  cases hqueue : d.faults call with
  | nil => rfl
  | cons o rest => exact h o (by simp [hqueue])

theorem onlyFile_advance (p : Path) (d : Disk) (call : Syscall) : OnlyFile p d (d.advance call) where
  nodes := fun _ _ ↦ rfl
  faults := by
    intro c
    simp only [advance]
    split
    · exact List.tail_suffix _
    · exact List.suffix_rfl

theorem onlyFile_put (p : Path) (d : Disk) (node : Option Node) : OnlyFile p d (d.put p node) where
  nodes := fun q hq ↦ by simp [hq]
  faults := fun _ ↦ List.suffix_rfl

theorem onlyFile_append (p : Path) (d : Disk) (data : Bytes) : OnlyFile p d (d.append p data) where
  nodes := fun q hq ↦ nodes_append_of_ne d data hq
  faults := fun call ↦ by rw [faults_append]

theorem onlyAt_addDirectories (p : Path) (d : Disk) (prefixes : List Path) :
    OnlyAt p d (d.addDirectories prefixes) where
  nodes := by
    intro q _
    simp only [addDirectories]
    split
    · next h => exact .inr ⟨h.1, rfl⟩
    · exact .inl rfl
  faults := fun _ ↦ List.suffix_rfl

theorem stays_perform (p : Path) (call : Syscall) : Stays (OnlyFile p) (perform call) :=
  fun d ↦ onlyFile_advance p d call

theorem stays_mkdir (p q : Path) : Stays (OnlyAt p) (mkdir q) := by
  refine stays_bind (fun d ↦ (onlyFile_advance p d .mkdir).onlyAt) fun o ↦ stays_get_bind fun d ↦ ?_
  exact stays_bind (stays_modify fun d ↦ onlyAt_addDirectories p d _) (fun _ ↦ stays_raiseIf _ _) d

theorem stays_stat (p q : Path) : Stays (OnlyFile p) (stat q) := by
  refine stays_bind (stays_perform p .stat) fun o ↦ stays_get_bind fun d ↦ ?_
  refine stays_bind (stays_raiseIf _ _) (fun _ ↦ ?_) d
  cases d.nodes q with
  | none => exact stays_throw _
  | some node =>
    cases node with
    | file data => exact stays_pure _
    | directory => exact stays_pure _

theorem stays_readBlocks (p q : Path) : Stays (OnlyFile p) (readBlocks q) := by
  refine stays_bind (stays_perform p .read) fun o ↦ stays_get_bind fun d ↦ ?_
  cases d.nodes q with
  | none => exact OnlyFile.refl p d
  | some node =>
    cases node with
    | file data => exact stays_ite _ (stays_pure _) (stays_pure _) d
    | directory => exact OnlyFile.refl p d

theorem stays_truncate (p : Path) (size : ℕ) : Stays (OnlyFile p) (truncate p size) := by
  refine stays_bind (stays_perform p .truncate) fun o ↦ stays_get_bind fun d ↦ ?_
  refine stays_bind (stays_raiseIf _ _) (fun _ ↦ ?_) d
  cases d.nodes p with
  | none => exact stays_throw _
  | some node =>
    cases node with
    | file data => exact stays_modify fun d ↦ onlyFile_put p d _
    | directory => exact stays_throw _

theorem stays_unlink (p : Path) : Stays (OnlyFile p) (unlink p) := by
  refine stays_bind (stays_perform p .unlink) fun o ↦ stays_get_bind fun d ↦ ?_
  refine stays_bind (stays_raiseIf _ _) (fun _ ↦ ?_) d
  cases d.nodes p with
  | none => exact stays_throw _
  | some node =>
    cases node with
    | file data => exact stays_modify fun d ↦ onlyFile_put p d _
    | directory => exact stays_throw _

/-! ## What a call returns -/

@[simp] theorem wp_perform (call : Syscall) (Q : Except IoError Outcome → Disk → Prop) (d : Disk) :
    wp (perform call) Q d ↔ Q (.ok (d.outcome call)) (d.advance call) := Iff.rfl

theorem wp_perform_bind {α : Type} (call : Syscall) (f : Outcome → Exec IoError Disk α)
    (Q : Except IoError α → Disk → Prop) (d : Disk) :
    wp (perform call >>= f) Q d ↔ wp (f (d.outcome call)) Q (d.advance call) := Iff.rfl

theorem mkdir_spec (p : Path) (d : Disk) :
    wp (mkdir p) (fun r d' ↦ (r = .ok () → ∀ q ∈ p.inits, d'.nodes q = some .directory) ∧
      (d.Reliable .mkdir → (∀ q ∈ p.inits, ¬d.IsFile q) → r = .ok ())) d := by
  unfold mkdir
  rw [wp_perform_bind, wp_get_bind, wp_modify_bind, wp_raiseIf, nodes_advance]
  refine ⟨fun hbad ↦ ⟨by simp, fun hreliable hfree ↦ ?_⟩, fun hgood ↦ ⟨fun _ q hq ↦ ?_, fun _ _ ↦ rfl⟩⟩
  · rw [hreliable.outcome] at hbad
    simp only [Bool.false_eq_true, if_false, or_false, List.any_eq_true, decide_eq_true_eq] at hbad
    obtain ⟨q, hq, hnone, hdir⟩ := hbad
    cases hnode : d.nodes q with
    | none => exact absurd hnode hnone
    | some node =>
      cases node with
      | file data => exact absurd ⟨data, hnode⟩ (hfree q hq)
      | directory => exact absurd hnode hdir
  · obtain ⟨hblocked, hfails⟩ := not_or.mp hgood
    simp only [hfails, Bool.false_eq_true, if_false] at hblocked ⊢
    have hfree : ∀ q ∈ p.inits, d.nodes q = none ∨ d.nodes q = some .directory := by
      intro q hq
      simp only [List.any_eq_true, decide_eq_true_eq, not_exists, not_and, ne_eq] at hblocked
      by_cases hnone : d.nodes q = none
      · exact .inl hnone
      · exact .inr (not_not.mp (hblocked q hq hnone))
    have htake : p.inits.takeWhile (fun q ↦ d.nodes q = none ∨ d.nodes q = some .directory) =
        p.inits := by
      rw [List.takeWhile_eq_self_iff]
      simpa using hfree
    rw [htake]
    rcases hfree q hq with hnone | hdir
    · exact if_pos ⟨hnone, hq⟩
    · exact (if_neg (by simp [hdir])).trans hdir

theorem stat_spec (p : Path) (d : Disk) :
    wp (stat p) (fun r d' ↦ d'.nodes = d.nodes ∧ (∀ e, r = .error e → e.IsOsError) ∧
      (d.IsFile p → (∀ n, r = .ok n → n = (d.content p).length) ∧
        (d.Reliable .stat → r = .ok (d.content p).length))) d := by
  unfold stat
  rw [wp_perform_bind, wp_get_bind, wp_raiseIf_bind]
  refine ⟨fun hfails ↦ ⟨rfl, by simp [IoError.IsOsError], fun _ ↦ ⟨by simp, fun hreliable ↦ ?_⟩⟩,
    fun _ ↦ ?_⟩
  · simp [hreliable.outcome] at hfails
  · rw [nodes_advance]
    cases hnode : d.nodes p with
    | none =>
      dsimp only
      rw [wp_throw]
      exact ⟨rfl, by simp [IoError.IsOsError], fun ⟨_, hfile⟩ ↦ by simp [hnode] at hfile⟩
    | some node =>
      cases node with
      | file data =>
        dsimp only
        rw [wp_pure, content_of_nodes hnode]
        exact ⟨rfl, by simp, fun _ ↦ ⟨fun n hn ↦ (Except.ok.inj hn).symm, fun _ ↦ rfl⟩⟩
      | directory =>
        dsimp only
        rw [wp_pure]
        exact ⟨rfl, by simp, fun ⟨_, hfile⟩ ↦ by simp [hnode] at hfile⟩

theorem readBlocks_spec (p : Path) (d : Disk) :
    wp (readBlocks p) (fun r d' ↦ d'.nodes = d.nodes ∧
      (d.IsFile p → d.Reliable .read → r = .ok (d.content p, none))) d := by
  unfold readBlocks
  rw [wp_perform_bind, wp_get_bind, nodes_advance]
  by_cases hfile : d.IsFile p
  · rw [hfile.nodes, wp_ite]
    refine ⟨fun hfails ↦ ⟨rfl, fun _ hreliable ↦ ?_⟩, fun _ ↦ ⟨rfl, fun _ _ ↦ rfl⟩⟩
    simp [hreliable.outcome] at hfails
  · cases hnode : d.nodes p with
    | none => exact ⟨rfl, fun h ↦ absurd h hfile⟩
    | some node =>
      cases node with
      | file data => exact absurd ⟨data, hnode⟩ hfile
      | directory => exact ⟨rfl, fun h ↦ absurd h hfile⟩

/-- A call that only looks at the disk. -/
structure SameNodes (d d' : Disk) : Prop where
  nodes : d'.nodes = d.nodes
  faults : ∀ call, d'.faults call <:+ d.faults call

theorem SameNodes.refl (d : Disk) : SameNodes d d where
  nodes := rfl
  faults := fun _ ↦ List.suffix_rfl

theorem SameNodes.trans {d d' d'' : Disk} (h : SameNodes d d') (h' : SameNodes d' d'') :
    SameNodes d d'' where
  nodes := h'.nodes.trans h.nodes
  faults := fun call ↦ (h'.faults call).trans (h.faults call)

theorem SameNodes.content {d d' : Disk} (h : SameNodes d d') (p : Path) : d'.content p = d.content p := by
  unfold Disk.content
  rw [h.nodes]

theorem SameNodes.isFile {d d' : Disk} (h : SameNodes d d') {p : Path} (hp : d.IsFile p) : d'.IsFile p := by
  unfold Disk.IsFile
  rw [h.nodes]
  exact hp

theorem sameNodes_advance (d : Disk) (call : Syscall) : SameNodes d (d.advance call) where
  nodes := rfl
  faults := (onlyFile_advance [] d call).faults

theorem openRead_spec (p : Path) (d : Disk) :
    wp (openRead p) (fun r d' ↦ SameNodes d d' ∧
      (d.IsFile p → d.Reliable .openFile → r = .ok ())) d := by
  have hsame := sameNodes_advance d .openFile
  unfold openRead
  rw [wp_perform_bind, wp_get_bind, wp_raiseIf_bind, nodes_advance]
  refine ⟨fun hfails ↦ ⟨hsame, fun _ hreliable ↦ ?_⟩, fun _ ↦ ?_⟩
  · simp [hreliable.outcome] at hfails
  rw [wp_raiseIf_bind]
  refine ⟨fun hnone ↦ ⟨hsame, fun hfile ↦ ?_⟩, fun _ ↦ ?_⟩
  · simp [hfile.nodes] at hnone
  rw [wp_raiseIf]
  refine ⟨fun hdir ↦ ⟨hsame, fun hfile ↦ ?_⟩, fun _ ↦ ⟨hsame, fun _ _ ↦ rfl⟩⟩
  simp [hfile.nodes] at hdir

theorem seek_spec (d : Disk) :
    wp seek (fun r d' ↦ SameNodes d d' ∧ (d.Reliable .seek → r = .ok ())) d := by
  have hsame := sameNodes_advance d .seek
  unfold seek
  rw [wp_perform_bind, wp_raiseIf]
  refine ⟨fun hfails ↦ ⟨hsame, fun hreliable ↦ ?_⟩, fun _ ↦ ⟨hsame, fun _ ↦ rfl⟩⟩
  simp [hreliable.outcome] at hfails

theorem readAt_spec (p : Path) (position size : ℕ) (d : Disk) :
    wp (readAt p position size) (fun r d' ↦ SameNodes d d' ∧
      (∀ data, r = .ok data → data = ((d.content p).drop position).take size) ∧
      (d.Reliable .read → ∃ data, r = .ok data)) d := by
  have hsame := sameNodes_advance d .read
  unfold readAt
  rw [wp_perform_bind, wp_get_bind, wp_raiseIf_bind]
  refine ⟨fun hfails ↦ ⟨hsame, by simp, fun hreliable ↦ ?_⟩, fun _ ↦ ?_⟩
  · simp [hreliable.outcome] at hfails
  · rw [wp_pure]
    exact ⟨hsame, fun _ hdata ↦ (Except.ok.inj hdata).symm, fun _ ↦ ⟨_, rfl⟩⟩

theorem truncate_errors (p : Path) (size : ℕ) (d : Disk) :
    wp (truncate p size) (fun r _ ↦ ∀ e, r = .error e → e.IsOsError) d := by
  unfold truncate
  rw [wp_perform_bind, wp_get_bind, wp_raiseIf_bind, nodes_advance]
  refine ⟨fun _ ↦ by simp [IoError.IsOsError], fun _ ↦ ?_⟩
  cases d.nodes p with
  | none => simp [IoError.IsOsError]
  | some node => cases node <;> simp [IoError.IsOsError]

theorem truncate_spec (p : Path) (size : ℕ) (d : Disk) (hfile : d.IsFile p)
    (hsize : size ≤ (d.content p).length) :
    wp (truncate p size) (fun r d' ↦ d.Reliable .truncate →
      r = .ok () ∧ d'.IsFile p ∧ d'.content p = (d.content p).take size) d := by
  unfold truncate
  rw [wp_perform_bind, wp_get_bind, wp_raiseIf_bind, nodes_advance, hfile.nodes]
  refine ⟨fun hfails hreliable ↦ ?_, fun _ _ ↦ ?_⟩
  · simp [hreliable.outcome] at hfails
  · have hnodes : (((d.advance .truncate).put p (some (.file ((d.content p).take size ++
        List.replicate (size - (d.content p).length) 0)))).nodes p) =
        some (.file ((d.content p).take size)) := by
      simp [Nat.sub_eq_zero_of_le hsize]
    exact ⟨rfl, ⟨_, hnodes⟩, content_of_nodes hnodes⟩

/-- The size of a file, or an error when the call fails. -/
theorem stat_file {d : Disk} {p : Path} {data : Bytes} (hfile : d.nodes p = some (.file data)) :
    wp (stat p) (fun r d' ↦ d' = d.advance .stat ∧
      r = if (d.outcome .stat).fails then .error .osError else .ok data.length) d := by
  unfold stat
  rw [wp_perform_bind, wp_get_bind, wp_raiseIf_bind, nodes_advance, hfile]
  exact ⟨fun hfails ↦ ⟨rfl, (if_pos hfails).symm⟩, fun hfails ↦ ⟨rfl, (if_neg hfails).symm⟩⟩

/-- A rename that succeeds moves the tree to a place below an existing directory; one that raises
leaves the nodes as they were. -/
theorem rename_spec (src dst : Path) (d : Disk) :
    wp (rename src dst) (fun r d' ↦ (∀ call, d'.faults call <:+ d.faults call) ∧
      (r = .ok () → d'.nodes = (d.move src dst).nodes ∧ d.nodes src ≠ none ∧
        d.nodes dst.parent = some .directory ∧ d.nodes dst ≠ some .directory) ∧
      (∀ e, r = .error e → d'.nodes = d.nodes) ∧
      (d.Reliable .rename → d.IsFile src → d.nodes dst ≠ some .directory →
        d.nodes dst.parent = some .directory → ¬Path.IsProperAncestor src dst → r = .ok ())) d := by
  unfold rename
  have hfaults := (onlyFile_advance [] d .rename).faults
  rw [wp_perform_bind, wp_get_bind, wp_raiseIf_bind, nodes_advance]
  refine ⟨fun hfails ↦ ⟨hfaults, by simp, fun _ _ ↦ rfl, fun hreliable ↦ ?_⟩, fun _ ↦ ?_⟩
  · simp [hreliable.outcome] at hfails
  rw [wp_raiseIf_bind]
  refine ⟨fun hnone ↦ ⟨hfaults, by simp, fun _ _ ↦ rfl, fun _ hfile ↦ ?_⟩, fun hsrc ↦ ?_⟩
  · simp [hfile.nodes] at hnone
  rw [wp_raiseIf_bind]
  refine ⟨fun hdir ↦ ⟨hfaults, by simp, fun _ _ ↦ rfl, fun _ _ hdst ↦ absurd hdir hdst⟩, fun hdst ↦ ?_⟩
  rw [wp_raiseIf_bind]
  refine ⟨fun hbelow ↦ ⟨hfaults, by simp, fun _ _ ↦ rfl, fun _ _ _ _ h ↦ absurd hbelow h⟩, fun _ ↦ ?_⟩
  rw [wp_raiseIf_bind]
  refine ⟨fun hparent ↦ ⟨hfaults, by simp, fun _ _ ↦ rfl, fun _ _ _ h ↦ absurd h hparent⟩,
    fun hparent ↦ ?_⟩
  rw [wp_modify]
  exact ⟨hfaults, fun _ ↦ ⟨rfl, hsrc, not_not.mp hparent, hdst⟩, by simp, fun _ _ _ _ _ ↦ rfl⟩

end Disk

namespace Handle

open Exec Disk

theorem stays_openTruncate (p : Path) : Stays (OnlyFile p) (openTruncate p) := by
  refine stays_bind (stays_perform p .openFile) fun o ↦ stays_get_bind fun d ↦ ?_
  refine stays_bind (stays_raiseIf _ _) (fun _ ↦ ?_) d
  refine stays_bind (stays_raiseIf _ _) fun _ ↦ ?_
  refine stays_bind (stays_raiseIf _ _) fun _ ↦ ?_
  exact stays_bind (stays_modify fun d ↦ onlyFile_put p d _) fun _ ↦ stays_pure _

theorem stays_openAppend (p : Path) : Stays (OnlyFile p) (openAppend p) := by
  refine stays_bind (stays_perform p .openFile) fun o ↦ stays_get_bind fun d ↦ ?_
  refine stays_bind (stays_raiseIf _ _) (fun _ ↦ ?_) d
  refine stays_bind (stays_raiseIf _ _) fun _ ↦ ?_
  refine stays_bind (stays_raiseIf _ _) fun _ ↦ ?_
  exact stays_bind (stays_modify fun d ↦ onlyFile_put p d _) fun _ ↦ stays_pure _

/-- The path of the handle stays, and only the file there changes. -/
structure OwnFile (s s' : Disk × Handle) : Prop where
  path : s'.2.path = s.2.path
  disk : OnlyFile s.2.path s.1 s'.1

instance : IsPreorder (Disk × Handle) OwnFile where
  refl := fun s ↦ ⟨rfl, OnlyFile.refl s.2.path s.1⟩
  trans := fun _ _ _ h h' ↦ ⟨h'.path.trans h.path, h.disk.trans (h.path ▸ h'.disk)⟩

theorem ownFile_append (s : Disk × Handle) (call : Syscall) (data : Bytes) {handle : Handle}
    (hpath : handle.path = s.2.path) :
    OwnFile s ((s.1.advance call).append s.2.path data, handle) where
  path := hpath
  disk := (onlyFile_advance s.2.path s.1 call).trans (onlyFile_append s.2.path _ data)

section Rules

variable (Q : Except IoError Unit → Disk × Handle → Prop) (s : Disk × Handle)

theorem wp_write (data : Bytes) : wp (write data) Q s ↔
    let outcome := s.1.outcome .write
    let reached := (s.1.advance .write).append s.2.path ((s.2.buffer ++ data).take outcome.reach)
    (s.2.closed → Q (.error .closedFile) s) ∧ (¬s.2.closed →
      (outcome.fails → Q (.error .osError)
        (reached, { s.2 with buffer := s.2.buffer.drop outcome.reach })) ∧
      (¬outcome.fails → Q (.ok ())
        (reached, { s.2 with buffer := (s.2.buffer ++ data).drop outcome.reach }))) := by
  unfold write
  rw [wp_get_bind, wp_raiseIf_bind]
  simp only [wp_bind, wp_zoom, wp_perform, wp_modify, wp_raiseIf]
  cases (s.1.outcome .write).fails <;> simp

theorem wp_flush : wp flush Q s ↔
    let outcome := s.1.outcome .flush
    (s.2.closed → Q (.error .closedFile) s) ∧ (¬s.2.closed →
      (outcome.fails → Q (.error .osError)
        ((s.1.advance .flush).append s.2.path (s.2.buffer.take outcome.reach),
          { s.2 with buffer := s.2.buffer.drop outcome.reach })) ∧
      (¬outcome.fails → Q (.ok ())
        ((s.1.advance .flush).append s.2.path s.2.buffer, { s.2 with buffer := [] }))) := by
  unfold flush
  rw [wp_get_bind, wp_raiseIf_bind]
  simp only [wp_bind, wp_zoom, wp_perform, wp_modify, wp_raiseIf]
  cases (s.1.outcome .flush).fails <;> simp

theorem wp_close : wp close Q s ↔
    let outcome := s.1.outcome .close
    (s.2.closed → Q (.ok ()) s) ∧ (¬s.2.closed →
      (outcome.fails → Q (.error .osError)
        ((s.1.advance .close).append s.2.path (s.2.buffer.take outcome.reach),
          { s.2 with buffer := [], closed := true })) ∧
      (¬outcome.fails → Q (.ok ())
        ((s.1.advance .close).append s.2.path s.2.buffer,
          { s.2 with buffer := [], closed := true }))) := by
  unfold close
  rw [wp_get_bind, wp_ite]
  simp only [wp_bind, wp_zoom, wp_perform, wp_modify, wp_raiseIf, wp_pure]
  cases (s.1.outcome .close).fails <;> simp

end Rules

theorem stays_write (data : Bytes) : Stays OwnFile (write data) := by
  intro s
  rw [wp_write]
  exact ⟨fun _ ↦ refl_of OwnFile s, fun _ ↦
    ⟨fun _ ↦ ownFile_append s .write _ rfl, fun _ ↦ ownFile_append s .write _ rfl⟩⟩

theorem stays_flush : Stays OwnFile flush := by
  intro s
  rw [wp_flush]
  exact ⟨fun _ ↦ refl_of OwnFile s, fun _ ↦
    ⟨fun _ ↦ ownFile_append s .flush _ rfl, fun _ ↦ ownFile_append s .flush _ rfl⟩⟩

theorem stays_close : Stays OwnFile close := by
  intro s
  rw [wp_close]
  exact ⟨fun _ ↦ refl_of OwnFile s, fun _ ↦
    ⟨fun _ ↦ ownFile_append s .close _ rfl, fun _ ↦ ownFile_append s .close _ rfl⟩⟩

theorem stays_drop (handle : Handle) : Stays (OnlyFile handle.path) handle.drop :=
  fun d ↦ (stays_close (d, handle)).disk

/-! ## Bytes written through a handle -/

/-- The bytes in the file followed by those still in the buffer. -/
def staged (s : Disk × Handle) : Bytes := s.1.content s.2.path ++ s.2.buffer

theorem isFile_advance_append {d : Disk} {p : Path} (call : Syscall) (data : Bytes) (h : d.IsFile p) :
    ((d.advance call).append p data).IsFile p ∧
      ((d.advance call).append p data).content p = d.content p ++ data := by
  have hadvance : (d.advance call).IsFile p := h
  exact isFile_append data hadvance

/-- A write that succeeds adds its bytes to the staged ones; one on a closed file does nothing. -/
theorem write_spec (data : Bytes) (s : Disk × Handle) (hfile : s.1.IsFile s.2.path) :
    wp (write data) (fun r s' ↦
      (r = .ok () → s'.1.IsFile s.2.path ∧ s.2.closed = false ∧ s'.2.closed = false ∧
        s'.2.path = s.2.path ∧ staged s' = staged s ++ data) ∧
      (r = .error .closedFile → s' = s) ∧
      (s.1.Reliable .write → s.2.closed = false → r = .ok ())) s := by
  rw [wp_write]
  refine ⟨fun hclosed ↦ ⟨by simp, fun _ ↦ rfl, by simp [hclosed]⟩, fun hopen ↦
    ⟨fun hfails ↦ ⟨by simp, by simp, fun hreliable ↦ ?_⟩, fun hfails ↦ ⟨fun _ ↦ ?_, by simp, by simp⟩⟩⟩
  · simp [hreliable.outcome] at hfails
  · obtain ⟨hfile', hcontent⟩ := isFile_advance_append .write
      ((s.2.buffer ++ data).take (s.1.outcome .write).reach) hfile
    refine ⟨hfile', by simpa using hopen, by simpa using hopen, rfl, ?_⟩
    simp only [staged, hcontent, List.append_assoc, List.take_append_drop]

/-- Flushing moves bytes from the buffer to the file. -/
theorem flush_spec (s : Disk × Handle) (hfile : s.1.IsFile s.2.path) :
    wp flush (fun r s' ↦ s'.1.IsFile s.2.path ∧ s'.2.path = s.2.path ∧ s'.2.closed = s.2.closed ∧
      staged s' = staged s ∧
      (r = .ok () → s'.2.buffer = []) ∧ (s.1.Reliable .flush → s.2.closed = false → r = .ok ())) s := by
  rw [wp_flush]
  refine ⟨fun hclosed ↦ ⟨hfile, rfl, rfl, rfl, by simp, by simp [hclosed]⟩, fun hopen ↦
    ⟨fun hfails ↦ ?_, fun _ ↦ ?_⟩⟩
  · obtain ⟨hfile', hcontent⟩ := isFile_advance_append .flush
      (s.2.buffer.take (s.1.outcome .flush).reach) hfile
    refine ⟨hfile', rfl, rfl, ?_, by simp, fun hreliable ↦ ?_⟩
    · simp only [staged, hcontent, List.append_assoc, List.take_append_drop]
    · simp [hreliable.outcome] at hfails
  · obtain ⟨hfile', hcontent⟩ := isFile_advance_append .flush s.2.buffer hfile
    exact ⟨hfile', rfl, rfl, by simp [staged, hcontent], fun _ ↦ rfl, fun _ _ ↦ rfl⟩

/-- Closing a file whose buffer is empty keeps its bytes. -/
theorem close_spec (s : Disk × Handle) (hfile : s.1.IsFile s.2.path) (hbuffer : s.2.buffer = []) :
    wp close (fun r s' ↦ s'.1.IsFile s.2.path ∧ s'.2.path = s.2.path ∧ s'.2.closed = true ∧
      s'.2.buffer = [] ∧
      s'.1.content s.2.path = s.1.content s.2.path ∧ (s.1.Reliable .close → r = .ok ())) s := by
  have hkept : ∀ data, data = [] →
      ((s.1.advance .close).append s.2.path data).IsFile s.2.path ∧
        ((s.1.advance .close).append s.2.path data).content s.2.path = s.1.content s.2.path := by
    rintro _ rfl
    simpa using isFile_advance_append .close [] hfile
  rw [wp_close]
  refine ⟨fun hclosed ↦ ⟨hfile, rfl, hclosed, hbuffer, rfl, fun _ ↦ rfl⟩, fun _ ↦
    ⟨fun hfails ↦ ?_, fun _ ↦ ?_⟩⟩
  · have hnone : s.2.buffer.take (s.1.outcome .close).reach = [] := by rw [hbuffer, List.take_nil]
    obtain ⟨hfile', hcontent⟩ := hkept _ hnone
    refine ⟨hfile', rfl, rfl, rfl, hcontent, fun hreliable ↦ ?_⟩
    simp [hreliable.outcome] at hfails
  · obtain ⟨hfile', hcontent⟩ := hkept _ hbuffer
    exact ⟨hfile', rfl, rfl, rfl, hcontent, fun _ ↦ rfl⟩

/-- Closing a file adds no bytes to the staged ones. -/
theorem close_staged (s : Disk × Handle) (hfile : s.1.IsFile s.2.path) :
    wp close (fun _ s' ↦ s'.1.IsFile s.2.path ∧ s'.2.path = s.2.path ∧ staged s' <+: staged s) s := by
  have hreached : ∀ data, data <+: s.2.buffer →
      ((s.1.advance .close).append s.2.path data).IsFile s.2.path ∧
        ((s.1.advance .close).append s.2.path data).content s.2.path <+: staged s := by
    intro data hdata
    obtain ⟨hfile', hcontent⟩ := isFile_advance_append .close data hfile
    rw [hcontent]
    exact ⟨hfile', (List.prefix_append_right_inj _).mpr hdata⟩
  rw [wp_close]
  refine ⟨fun _ ↦ ⟨hfile, rfl, List.prefix_rfl⟩, fun _ ↦ ⟨fun _ ↦ ?_, fun _ ↦ ?_⟩⟩
  · obtain ⟨hfile', hprefix⟩ := hreached _ (List.take_prefix (s.1.outcome .close).reach s.2.buffer)
    exact ⟨hfile', rfl, by simpa [staged] using hprefix⟩
  · obtain ⟨hfile', hprefix⟩ := hreached _ List.prefix_rfl
    exact ⟨hfile', rfl, by simpa [staged] using hprefix⟩

theorem drop_staged (handle : Handle) (d : Disk) (hfile : d.IsFile handle.path) :
    wp handle.drop (fun _ d' ↦ d'.IsFile handle.path ∧
      d'.content handle.path <+: staged (d, handle)) d := by
  obtain ⟨hfile', hpath, hprefix⟩ := close_staged (d, handle) hfile
  refine ⟨hfile', .trans ?_ hprefix⟩
  rw [staged, hpath]
  exact List.prefix_append _ _

theorem drop_spec (handle : Handle) (d : Disk) (hfile : d.IsFile handle.path)
    (hbuffer : handle.buffer = []) :
    wp handle.drop (fun r d' ↦ r = .ok () ∧ d'.IsFile handle.path ∧
      d'.content handle.path = d.content handle.path) d :=
  ⟨rfl, (close_spec (d, handle) hfile hbuffer).1, (close_spec (d, handle) hfile hbuffer).2.2.2.2.1⟩

/-- A file opened for truncation is empty and has an empty buffer. -/
theorem openTruncate_spec (p : Path) (d : Disk) :
    wp (openTruncate p) (fun r d' ↦
      (∀ fh, r = .ok fh → fh = ⟨p, [], false⟩ ∧ d'.IsFile p ∧ d'.content p = [] ∧
        d.nodes p.parent = some .directory ∧ d.nodes p ≠ some .directory) ∧
      (d.Reliable .openFile → d.nodes p.parent = some .directory → d.nodes p ≠ some .directory →
        r = .ok ⟨p, [], false⟩)) d := by
  unfold openTruncate
  rw [wp_perform_bind, wp_get_bind, wp_raiseIf_bind, nodes_advance]
  refine ⟨fun hfails ↦ ⟨by simp, fun hreliable ↦ ?_⟩, fun _ ↦ ?_⟩
  · simp [hreliable.outcome] at hfails
  rw [wp_raiseIf_bind]
  refine ⟨fun hparent ↦ ⟨by simp, fun _ h ↦ absurd h hparent⟩, fun hparent ↦ ?_⟩
  rw [wp_raiseIf_bind]
  refine ⟨fun hdir ↦ ⟨by simp, fun _ _ h ↦ absurd hdir h⟩, fun hdir ↦ ?_⟩
  rw [wp_modify_bind, wp_pure]
  have hnodes : ((d.advance .openFile).put p (some (.file []))).nodes p = some (.file []) := by simp
  exact ⟨fun fh hfh ↦ ⟨(Except.ok.inj hfh).symm, ⟨_, hnodes⟩, content_of_nodes hnodes,
    not_not.mp hparent, hdir⟩, fun _ _ _ ↦ rfl⟩

/-- A file opened for appending keeps its bytes. -/
theorem openAppend_spec (p : Path) (d : Disk) :
    wp (openAppend p) (fun r d' ↦
      (∀ fh, r = .ok fh → fh = ⟨p, [], false⟩ ∧ d'.IsFile p ∧ d'.content p = d.content p) ∧
      (d.Reliable .openFile → d.nodes p.parent = some .directory → d.nodes p ≠ some .directory →
        r = .ok ⟨p, [], false⟩)) d := by
  unfold openAppend
  rw [wp_perform_bind, wp_get_bind, wp_raiseIf_bind, nodes_advance]
  refine ⟨fun hfails ↦ ⟨by simp, fun hreliable ↦ ?_⟩, fun _ ↦ ?_⟩
  · simp [hreliable.outcome] at hfails
  rw [wp_raiseIf_bind]
  refine ⟨fun hparent ↦ ⟨by simp, fun _ h ↦ absurd h hparent⟩, fun _ ↦ ?_⟩
  rw [wp_raiseIf_bind]
  refine ⟨fun hdir ↦ ⟨by simp, fun _ _ h ↦ absurd hdir h⟩, fun _ ↦ ?_⟩
  rw [wp_modify_bind, wp_pure]
  have hnodes : ((d.advance .openFile).put p (some (.file ((d.advance .openFile).content p)))).nodes p =
      some (.file (d.content p)) := by
    simp [content]
  exact ⟨fun fh hfh ↦ ⟨(Except.ok.inj hfh).symm, ⟨_, hnodes⟩, content_of_nodes hnodes⟩,
    fun _ _ _ ↦ rfl⟩

end Handle

end Ferry
