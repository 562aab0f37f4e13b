import Ferry.Base.Disk
import Mathlib.Logic.Function.Basic
import Mathlib.Logic.Relation

/-!
# Objects that share a disk

Any number of objects of one kind work on one disk.  Each has a path for its staging file, writes
there, and may move the finished file away.  A ghost flag tells whether the file at the staging path
is the one that the object itself made.  The question is which files a call can harm that are not
the staging file of its object; the answer is a condition on the state before the call, and over the
runs that keep to it every other file stays.
-/

namespace Ferry

namespace Disk

open Exec

/-- A file that can be reached: what is above it are directories. -/
structure Holds (disk : Disk) (q : Path) (data : Bytes) : Prop where
  node : disk.nodes q = some (.file data)
  above : ∀ p, Path.IsProperAncestor p q → disk.nodes p = some .directory

/-- Nodes are added, and those that are there stay. -/
def Extends (d d' : Disk) : Prop := ∀ q, d.nodes q ≠ none → d'.nodes q = d.nodes q

theorem Extends.refl (d : Disk) : Extends d d := fun _ _ ↦ rfl

theorem Extends.trans {d d' d'' : Disk} (h : Extends d d') (h' : Extends d' d'') : Extends d d'' := by
  intro q hq
  have hsame := h q hq
  exact (h' q (by rwa [hsame])).trans hsame

theorem Extends.congr {d d' d'' : Disk} (h : Extends d d') (hnodes : d''.nodes = d'.nodes) :
    Extends d d'' := h.trans fun q _ ↦ congrFun hnodes q

theorem extends_mkdir (p : Path) (d : Disk) : wp (mkdir p) (fun _ d' ↦ Extends d d') d := by
  intro q hq
  -- any path but q itself, to ask for the node at q
  have hne : q ≠ q ++ [[]] := by simp
  exact ((stays_mkdir (q ++ [[]]) p d).nodes q hne).resolve_right fun hnew ↦ hq hnew.1

section Holds

variable {d d' : Disk} {p q : Path} {data : Bytes}

theorem holds_iff : d.Holds q data ↔
    d.nodes q = some (.file data) ∧ ∀ p ∈ q.inits, p ≠ q → d.nodes p = some .directory := by
  constructor
  · intro h
    exact ⟨h.node, fun p hp hne ↦ h.above p ⟨(List.mem_inits p q).mp hp, hne⟩⟩
  · rintro ⟨hnode, habove⟩
    exact ⟨hnode, fun p hp ↦ habove p ((List.mem_inits p q).mpr hp.1) hp.2⟩

instance : Decidable (d.Holds q data) := decidable_of_iff _ holds_iff.symm

theorem Holds.congr (h : d.Holds q data) (hnodes : d'.nodes = d.nodes) : d'.Holds q data where
  node := by rw [hnodes, h.node]
  above := fun p hp ↦ by rw [hnodes, h.above p hp]

theorem Holds.of_same (h : d.Holds q data)
    (hsame : ∀ p, p = q ∨ Path.IsProperAncestor p q → d'.nodes p = d.nodes p) : d'.Holds q data where
  node := by rw [hsame q (.inl rfl), h.node]
  above := fun p hp ↦ by rw [hsame p (.inr hp), h.above p hp]

theorem Holds.exists (h : d.Holds q data) (hp : p = q ∨ Path.IsProperAncestor p q) :
    d.nodes p ≠ none := by
  rcases hp with rfl | hp
  · simp [h.node]
  · simp [h.above p hp]

theorem Holds.extends (h : d.Holds q data) (hextends : Extends d d') : d'.Holds q data :=
  h.of_same fun p hp ↦ hextends p (h.exists hp)

/-- A change at a path that is no directory leaves every other file. -/
theorem Holds.onlyAt (h : d.Holds q data) (honly : OnlyAt p d d') (hdir : d.nodes p ≠ some .directory)
    (hne : q ≠ p) : d'.Holds q data := by
  apply h.of_same
  intro r hr
  have hrne : r ≠ p := by
    rintro rfl
    exact hr.elim (fun heq ↦ hne heq.symm) fun habove ↦ hdir (h.above r habove)
  exact (honly.nodes r hrne).resolve_right fun hnew ↦ h.exists hr hnew.1

/-- A file that is moved to a free place leaves every other file. -/
theorem Holds.move (h : d.Holds q data) {src dst : Path} (hsrc : d.nodes src ≠ some .directory)
    (hdst : d.nodes dst = none) (hne : q ≠ src) (hmoved : d'.nodes = (d.move src dst).nodes) :
    d'.Holds q data := by
  apply h.of_same
  intro r hr
  have hbelow {a : Path} (ha : a <+: r) : a = q ∨ Path.IsProperAncestor a q := by
    by_cases haq : a = q
    · exact .inl haq
    · rcases hr with rfl | hr
      · exact .inr ⟨ha, haq⟩
      · exact .inr ⟨ha.trans hr.1, haq⟩
  have hnotDst : ¬dst <+: r := fun ha ↦ h.exists (hbelow ha) hdst
  have hnotSrc : ¬src <+: r := by
    intro ha
    rcases hbelow ha with heq | habove
    · exact hne heq.symm
    · exact hsrc (h.above src habove)
  rw [hmoved, Disk.move]
  dsimp only
  rw [if_neg hnotDst, if_neg hnotSrc]

end Holds

end Disk

open Exec in
/-- A directory cannot be opened for writing. -/
theorem Handle.openTruncate_directory {d : Disk} {p : Path} (hdir : d.nodes p = some .directory) :
    wp (Handle.openTruncate p) (fun r d' ↦ (∃ e, r = .error e) ∧ d'.nodes = d.nodes) d := by
  unfold openTruncate
  rw [Disk.wp_perform_bind, wp_get_bind, wp_raiseIf_bind]
  refine ⟨fun _ ↦ ⟨⟨_, rfl⟩, rfl⟩, fun _ ↦ ?_⟩
  rw [wp_raiseIf_bind]
  refine ⟨fun _ ↦ ⟨⟨_, rfl⟩, rfl⟩, fun _ ↦ ?_⟩
  rw [wp_raiseIf_bind]
  exact ⟨fun _ ↦ ⟨⟨_, rfl⟩, rfl⟩, fun hnot ↦ absurd hdir hnot⟩

/-! ## Objects with a staging file -/

/-- A kind of object with a staging file.  `κ` is what identifies an object, and `Careful` is the
condition on a call, on an object whose staging file is its own or not. -/
structure Stager (κ Obj Call : Type) where
  path : κ → Path
  new : κ → Obj
  run : Call → Disk → Obj → Disk × Obj
  Begins : Call → Prop
  Careful : κ → Prop → Disk → Obj → Call → Prop

/-- The disk and the objects.  `Made` tells that the file at the staging path of an object is the one
that the object made. -/
structure SharedDisk (ι Obj : Type) where
  disk : Disk
  object : ι → Obj
  Made : ι → Prop

namespace Stager

variable {κ Obj Call ι : Type} [DecidableEq ι] (K : Stager κ Obj Call) (keys : ι → κ)

/-- New objects on a disk with any content. -/
def start (disk : Disk) : SharedDisk ι Obj where
  disk
  object := fun i ↦ K.new (keys i)
  Made := fun _ ↦ False

/-- One object runs a call. -/
def act (s : SharedDisk ι Obj) (i : ι) (c : Call) : SharedDisk ι Obj :=
  let after := K.run c s.disk (s.object i)
  { disk := after.1
    object := Function.update s.object i after.2
    Made := fun j ↦
      (s.Made j ∨ j = i ∧ K.Begins c ∧ s.disk.nodes (K.path (keys i)) = none) ∧
        after.1.IsFile (K.path (keys j)) }

/-- The staging file of an object. -/
def Own (s : SharedDisk ι Obj) (i : ι) (q : Path) : Prop := s.Made i ∧ q = K.path (keys i)

/-- A call leaves every file but the staging file of its object. -/
def Spares (s : SharedDisk ι Obj) (i : ι) (c : Call) : Prop :=
  ∀ q data, s.disk.Holds q data → ¬K.Own keys s i q → (K.act keys s i c).disk.Holds q data

/-- Any calls of any objects. -/
def Reaches : SharedDisk ι Obj → SharedDisk ι Obj → Prop :=
  Relation.ReflTransGen fun s s' ↦ ∃ i c, s' = K.act keys s i c

/-- A call that keeps to the condition. -/
def Allows (s : SharedDisk ι Obj) (i : ι) (c : Call) : Prop :=
  K.Careful (keys i) (s.Made i) s.disk (s.object i) c

/-- Calls that keep to the condition. -/
def Carefully : SharedDisk ι Obj → SharedDisk ι Obj → Prop :=
  Relation.ReflTransGen fun s s' ↦ ∃ i c, K.Allows keys s i c ∧ s' = K.act keys s i c

/-- What has to be shown of a kind of object: an invariant of one object, and that a careful call of
it leaves the files of others. -/
structure Lawful where
  Sound : κ → Obj → Prop
  sound_new : ∀ k, Sound k (K.new k)
  sound_run : ∀ k c disk obj, Sound k obj → Sound k (K.run c disk obj).2
  spares : ∀ k c disk obj (own : Prop), Sound k obj → (own → disk.IsFile (K.path k)) →
    K.Careful k own disk obj c → ∀ q data, disk.Holds q data → ¬(own ∧ q = K.path k) →
      (K.run c disk obj).1.Holds q data

variable {K} {keys}

/-- The invariant of a run. -/
structure Consistent (L : K.Lawful) (keys : ι → κ) (s : SharedDisk ι Obj) : Prop where
  object : ∀ i, L.Sound (keys i) (s.object i)
  made : ∀ i, s.Made i → s.disk.IsFile (K.path (keys i))

omit [DecidableEq ι] in
theorem Consistent.start (L : K.Lawful) (disk : Disk) : Consistent L keys (K.start keys disk) where
  object := fun i ↦ L.sound_new (keys i)
  made := fun _ hmade ↦ hmade.elim

theorem Consistent.act {L : K.Lawful} {s : SharedDisk ι Obj} (h : Consistent L keys s) (i : ι)
    (c : Call) : Consistent L keys (K.act keys s i c) where
  object := by
    intro j
    dsimp only [Stager.act]
    by_cases hj : j = i
    · subst hj
      rw [Function.update_self]
      exact L.sound_run _ _ _ _ (h.object j)
    · rw [Function.update_of_ne hj]
      exact h.object j
  made := fun _ hmade ↦ hmade.2

/-- A careful call leaves every file but the staging file of its object. -/
theorem Consistent.spares {L : K.Lawful} {s : SharedDisk ι Obj} (h : Consistent L keys s) {i : ι}
    {c : Call} (hallows : K.Allows keys s i c) : K.Spares keys s i c :=
  fun q data hholds hown ↦ L.spares (keys i) c s.disk (s.object i) (s.Made i) (h.object i) (h.made i)
    hallows q data hholds hown

/-- A file that is nobody's staging file does not become one. -/
theorem not_own_act {s : SharedDisk ι Obj} {q : Path} {data : Bytes} (hholds : s.disk.Holds q data)
    (hfree : ∀ j, ¬K.Own keys s j q) (i : ι) (c : Call) :
    ∀ j, ¬K.Own keys (K.act keys s i c) j q := by
  rintro j ⟨⟨hmade | ⟨rfl, -, hnone⟩, -⟩, hq⟩
  · exact hfree j ⟨hmade, hq⟩
  · rw [← hq, hholds.node] at hnone
    simp at hnone

/-- A file that is nobody's staging file stays. -/
theorem Consistent.stays {L : K.Lawful} {s s' : SharedDisk ι Obj} (h : Consistent L keys s)
    (hrun : K.Carefully keys s s') {q : Path} {data : Bytes} (hholds : s.disk.Holds q data)
    (hfree : ∀ j, ¬K.Own keys s j q) : s'.disk.Holds q data := by
  suffices hall : Consistent L keys s' ∧ s'.disk.Holds q data ∧ ∀ j, ¬K.Own keys s' j q from hall.2.1
  induction hrun with
  | refl => exact ⟨h, hholds, hfree⟩
  | tail _ hstep ih =>
    obtain ⟨i, c, hallows, rfl⟩ := hstep
    obtain ⟨hsound, hholds', hfree'⟩ := ih
    exact ⟨hsound.act i c, hsound.spares hallows q data hholds' (hfree' i),
      not_own_act hholds' hfree' i c⟩

theorem Consistent.carefully {L : K.Lawful} {s s' : SharedDisk ι Obj} (h : Consistent L keys s)
    (hrun : K.Carefully keys s s') : Consistent L keys s' := by
  induction hrun with
  | refl => exact h
  | tail _ hstep ih =>
    obtain ⟨i, c, -, rfl⟩ := hstep
    exact ih.act i c

/-- A file that a call placed outside its staging path is nobody's staging file. -/
theorem Consistent.not_own_placed {L : K.Lawful} {s : SharedDisk ι Obj} (h : Consistent L keys s) {i : ι}
    (c : Call) {q : Path} (hnew : ¬s.disk.IsFile q) (hne : q ≠ K.path (keys i)) :
    ∀ j, ¬K.Own keys (K.act keys s i c) j q := by
  rintro j ⟨⟨hmade | ⟨rfl, -, -⟩, -⟩, rfl⟩
  · exact hnew (h.made j hmade)
  · exact hne rfl

variable (K)

/-- In every careful run from any disk, a call leaves every file but the staging file of its object,
and a file that a call placed elsewhere stays for the rest of the run. -/
def Preserves : Prop :=
  ∀ (ι : Type) [DecidableEq ι] (keys : ι → κ) (disk : Disk) (s : SharedDisk ι Obj) (i : ι)
    (c : Call), K.Carefully keys (K.start keys disk) s → K.Allows keys s i c →
      K.Spares keys s i c ∧
        ∀ q data, q ≠ K.path (keys i) → ¬s.disk.IsFile q → (K.act keys s i c).disk.Holds q data →
          ∀ s', K.Carefully keys (K.act keys s i c) s' → s'.disk.Holds q data

variable {K}

theorem Lawful.preserves (L : K.Lawful) : K.Preserves := by
  intro ι _ keys disk s i c hrun hallows
  have hsound : Consistent L keys s := (Consistent.start L disk).carefully hrun
  refine ⟨hsound.spares hallows, fun q data hne hnew hplaced s' hrun' ↦ ?_⟩
  exact (hsound.act i c).stays hrun' hplaced (hsound.not_own_placed c hnew hne)

end Stager

end Ferry
