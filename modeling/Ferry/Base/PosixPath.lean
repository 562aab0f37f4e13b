import Ferry.Base.Text

/-!
# POSIX paths

`os.path.normpath` on texts, and absolute paths as lists of components.  The main fact is about
texts that pass a prefix check: a normalised text that starts neither with a slash nor with `..`
consists of ordinary components only, so joining it to a directory stays below that directory.
-/

namespace Ferry

/-- An absolute path, as the list of its components. -/
abbrev Path := List Text

instance path_lawfulBEq : LawfulBEq Path := inferInstance

namespace Path

open Text

/-- A component that names an entry of a directory. -/
structure IsName (c : Text) : Prop where
  ne_nil : c ≠ []
  ne_dot : c ≠ dotText
  ne_dotdot : c ≠ dotdot
  slash_notMem : slash ∉ c

/-! ## Normalisation -/

/-- The loop of `normpath` over the components, with the kept components in reverse order. -/
def normComps (rooted : Bool) : List Text → List Text → List Text
  | kept, [] => kept.reverse
  | kept, c :: rest =>
    if c = [] ∨ c = dotText then normComps rooted kept rest
    else if c ≠ dotdot ∨ (rooted = false ∧ kept = []) ∨ kept.head? = some dotdot then
      normComps rooted (c :: kept) rest
    else normComps rooted kept.tail rest

/-- POSIX keeps exactly two leading slashes and collapses any other number to one. -/
def leadingSlashes (t : Text) : ℕ :=
  if [slash].isPrefixOf t then
    if [slash, slash].isPrefixOf t && !([slash, slash, slash].isPrefixOf t) then 2 else 1
  else 0

/-- The components that `normpath` keeps. -/
def normalComponents (t : Text) : List Text :=
  normComps (leadingSlashes t ≠ 0) [] (t.splitOn slash)

/-- The kept components behind the leading slashes. -/
def normJoined (t : Text) : Text :=
  List.replicate (leadingSlashes t) slash ++ [slash].intercalate (normalComponents t)

/-- `os.path.normpath`. -/
def normpath (t : Text) : Text :=
  if t = [] ∨ normJoined t = [] then dotText else normJoined t

/-! ## Joining and resolving -/

/-- The components that `pathlib` keeps of a text: neither empty ones nor `.`. -/
def parts (t : Text) : List Text := (t.splitOn slash).filter fun c ↦ c ≠ [] ∧ c ≠ dotText

/-- `base / t`, where an absolute `t` replaces `base`. -/
def join (base : Path) (t : Text) : Path :=
  if [slash].isPrefixOf t then parts t else base ++ parts t

/-- `Path.resolve()` where no component is a symbolic link. -/
def resolve (p : Path) : Path :=
  p.foldl (fun done c ↦ if c = dotdot then done.dropLast else done ++ [c]) []

/-- `str(path)`. -/
def toText (p : Path) : Text := slash :: [slash].intercalate p

/-- `path.parent`; the root is its own parent. -/
def parent (p : Path) : Path := p.dropLast

/-- `path.name`. -/
def name (p : Path) : Text := p.getLastD []

/-- `p` is a proper ancestor of `q`. -/
def IsProperAncestor (p q : Path) : Prop := p <+: q ∧ p ≠ q

instance (p q : Path) : Decidable (IsProperAncestor p q) := inferInstanceAs (Decidable (_ ∧ _))

/-! ## What normalisation leaves -/

/-- The loop invariant, on the kept components in reverse order: no empty component, no `.`, and a
`..` only above a run of `..` that starts the path. -/
structure Kept (kept : List Text) : Prop where
  isComponent : ∀ c ∈ kept, c ≠ [] ∧ c ≠ dotText ∧ slash ∉ c
  dotdotFirst : dotdot ∈ kept → kept.getLast? = some dotdot

theorem Kept.push {kept : List Text} {c : Text} (h : Kept kept)
    (hc : c ≠ [] ∧ c ≠ dotText ∧ slash ∉ c)
    (hpush : c ≠ dotdot ∨ kept = [] ∨ kept.head? = some dotdot) : Kept (c :: kept) where
  isComponent := by simpa using ⟨hc, h.isComponent⟩
  dotdotFirst := by
    intro hmem
    cases kept with
    | nil => simpa [eq_comm] using hmem
    | cons d rest =>
      rw [List.getLast?_cons_cons]
      apply h.dotdotFirst
      rcases hpush with hne | hnil | hhead
      · exact (List.mem_cons.mp hmem).resolve_left (Ne.symm hne)
      · simp at hnil
      · simp_all

theorem Kept.pop {kept : List Text} (h : Kept kept) (hne : kept.head? ≠ some dotdot) :
    Kept kept.tail where
  isComponent := fun c hc ↦ h.isComponent c (List.mem_of_mem_tail hc)
  dotdotFirst := by
    intro hmem
    cases kept with
    | nil => simp at hmem
    | cons c rest =>
      cases rest with
      | nil => simp at hmem
      | cons d rest =>
        have hlast := h.dotdotFirst (List.mem_cons_of_mem c hmem)
        rwa [List.getLast?_cons_cons] at hlast

theorem kept_normComps (rooted : Bool) (kept comps : List Text) (hkept : Kept kept)
    (hcomps : ∀ c ∈ comps, slash ∉ c) : Kept (normComps rooted kept comps).reverse := by
  induction comps generalizing kept with
  | nil => simpa [normComps] using hkept
  | cons c rest ih =>
    have hrest : ∀ d ∈ rest, slash ∉ d := fun d hd ↦ hcomps d (List.mem_cons_of_mem c hd)
    rw [normComps]
    split
    · exact ih kept hkept hrest
    · next hc =>
      rw [not_or] at hc
      have hcomp : c ≠ [] ∧ c ≠ dotText ∧ slash ∉ c :=
        ⟨hc.1, hc.2, hcomps c List.mem_cons_self⟩
      split
      · next hpush =>
        refine ih _ (hkept.push hcomp ?_) hrest
        rcases hpush with h | ⟨-, h⟩ | h
        · exact .inl h
        · exact .inr (.inl h)
        · exact .inr (.inr h)
      · next hpop =>
        simp only [not_or] at hpop
        exact ih _ (hkept.pop hpop.2.2) hrest

theorem slash_notMem_of_mem_splitOn {t c : Text} (h : c ∈ t.splitOn slash) : slash ∉ c := by
  induction t generalizing c with
  | nil =>
    simp only [List.splitOn_nil, List.mem_singleton] at h
    simp [h]
  | cons d rest ih =>
    rw [List.splitOn_cons_eq_if_modifyHead] at h
    split at h
    · rcases List.mem_cons.mp h with rfl | h
      · simp
      · exact ih h
    · next hd =>
      cases hsplit : rest.splitOn slash with
      | nil => exact absurd hsplit (List.splitOn_ne_nil _ _)
      | cons first others =>
        rw [hsplit, List.modifyHead_cons] at h
        rcases List.mem_cons.mp h with rfl | h
        · rw [List.mem_cons, not_or]
          exact ⟨fun heq ↦ hd (beq_iff_eq.mpr heq.symm), ih (by simp [hsplit])⟩
        · exact ih (by simp [hsplit, h])

/-- A normalised text that starts neither with a slash nor with `..` is `.` or names entries
below the current directory. -/
theorem normpath_eq_names {t : Text} (hslash : ¬[slash].isPrefixOf (normpath t))
    (hdots : ¬dotdot.isPrefixOf (normpath t)) :
    normpath t = dotText ∨
      ∃ names ≠ [], (∀ c ∈ names, IsName c) ∧ normpath t = [slash].intercalate names := by
  by_cases hnil : t = [] ∨ normJoined t = []
  · exact .inl (if_pos hnil)
  have hnorm : normpath t = normJoined t := if_neg hnil
  have hzero : leadingSlashes t = 0 := by
    by_contra hne
    obtain ⟨k, hk⟩ := Nat.exists_eq_succ_of_ne_zero hne
    rw [hnorm, normJoined, hk, List.replicate_succ] at hslash
    simp at hslash
  have hjoined : normJoined t = [slash].intercalate (normalComponents t) := by
    simp [normJoined, hzero]
  rw [hjoined] at hnorm hnil
  set comps := normalComponents t
  have hkept : Kept comps.reverse :=
    kept_normComps _ [] _ ⟨by simp, by simp⟩ fun c hc ↦ slash_notMem_of_mem_splitOn hc
  refine .inr ⟨comps, ?_, fun c hc ↦ ?_, hnorm⟩
  · intro hempty
    simp [hempty] at hnil
  · obtain ⟨hne, hdot, hslashc⟩ := hkept.isComponent c (by simpa using hc)
    refine ⟨hne, hdot, fun hdd ↦ ?_, hslashc⟩
    have hfirst := hkept.dotdotFirst (by simpa [hdd] using hc)
    rw [List.getLast?_reverse] at hfirst
    obtain ⟨rest, hrest⟩ := List.head?_eq_some_iff.mp hfirst
    apply hdots
    rw [hnorm, hrest, List.isPrefixOf_iff_prefix]
    cases rest with
    | nil => simp
    | cons d rest => simp [List.intercalate_cons_cons]

theorem parts_intercalate {names : List Text} (hne : names ≠ []) (hnames : ∀ c ∈ names, IsName c) :
    parts ([slash].intercalate names) = names := by
  rw [parts, List.splitOn_intercalate _ (fun c hc ↦ (hnames c hc).slash_notMem) hne]
  rw [List.filter_eq_self]
  intro c hc
  simp [(hnames c hc).ne_nil, (hnames c hc).ne_dot]

theorem join_name {base : Path} {c : Text} (hc : IsName c) : join base c = base ++ [c] := by
  have hparts : parts c = [c] := by
    have hnames : ∀ d ∈ [c], IsName d := by simpa using hc
    simpa using parts_intercalate (List.cons_ne_nil c []) hnames
  have hslash : ¬[slash].isPrefixOf c := by
    intro h
    obtain ⟨rest, hrest⟩ := List.isPrefixOf_iff_prefix.mp h
    exact hc.slash_notMem (by simp [← hrest])
  rw [join, if_neg hslash, hparts]

theorem parts_dotText : parts dotText = [] := by decide

theorem normComps_names {names : List Text} (kept : List Text) (hnames : ∀ c ∈ names, IsName c) :
    normComps false kept names = kept.reverse ++ names := by
  induction names generalizing kept with
  | nil => simp [normComps]
  | cons c rest ih =>
    have hc := hnames c List.mem_cons_self
    rw [normComps, if_neg (by simp [hc.ne_nil, hc.ne_dot]), if_pos (.inl hc.ne_dotdot),
      ih _ fun d hd ↦ hnames d (List.mem_cons_of_mem c hd)]
    simp

theorem resolve_append_names {p : Path} {names : List Text} (hnames : ∀ c ∈ names, IsName c) :
    resolve (p ++ names) = resolve p ++ names := by
  induction names generalizing p with
  | nil => simp
  | cons c rest ih =>
    have hc := hnames c List.mem_cons_self
    rw [← List.singleton_append, ← List.append_assoc,
      ih fun d hd ↦ hnames d (List.mem_cons_of_mem c hd)]
    simp [resolve, List.foldl_append, hc.ne_dotdot]

theorem resolve_names {p : Path} (hp : ∀ c ∈ p, IsName c) : resolve p = p := by
  simpa [resolve] using resolve_append_names (p := []) hp

theorem intercalate_names_head {names : List Text} (hne : names ≠ [])
    (hnames : ∀ c ∈ names, IsName c) :
    ∃ d rest, [slash].intercalate names = d :: rest ∧ slash ≠ d := by
  cases names with
  | nil => exact absurd rfl hne
  | cons c names =>
    have hc := hnames c List.mem_cons_self
    cases c with
    | nil => exact absurd rfl hc.ne_nil
    | cons d c =>
      have hd : slash ≠ d := fun h ↦ hc.slash_notMem (by simp [h])
      cases names with
      | nil => exact ⟨d, c, by simp, hd⟩
      | cons e names => exact ⟨d, _, by rw [List.intercalate_cons_cons]; rfl, hd⟩

/-- Normalising the join of ordinary components changes nothing. -/
theorem normpath_intercalate {names : List Text} (hne : names ≠ []) (hnames : ∀ c ∈ names, IsName c) :
    normpath ([slash].intercalate names) = [slash].intercalate names := by
  obtain ⟨d, rest, hhead, hd⟩ := intercalate_names_head hne hnames
  have hzero : leadingSlashes ([slash].intercalate names) = 0 := by
    simp [leadingSlashes, hhead, List.isPrefixOf, hd]
  have hcomps : normalComponents ([slash].intercalate names) = names := by
    have hsplit := List.splitOn_intercalate _ (fun c hc ↦ (hnames c hc).slash_notMem) hne
    rw [normalComponents, hsplit, hzero]
    simpa using normComps_names [] hnames
  have hjoined : normJoined ([slash].intercalate names) = [slash].intercalate names := by
    rw [normJoined, hzero, hcomps]
    simp
  rw [normpath, hjoined, if_neg (by simp [hhead])]

theorem normpath_dotText : normpath dotText = dotText := by decide

end Path

end Ferry
