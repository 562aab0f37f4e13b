import Mathlib.Data.List.Basic

/-!
# Loops that read a stream

A loop is a pass that leads to another pass or leaves with a result. It is run with a bound on the
passes, and a rule gives its result where a variant falls and the result that is still to come stays
the same. A reader hands out a stream in fragments of any size, at least one and at most as many as
asked for, until the stream ends.
-/

namespace Ferry

/-- What one pass of a loop leads to. -/
inductive Pass (σ ρ : Type) where
  | again (s : σ)
  | leaves (result : ρ)

namespace Pass

variable {σ ρ : Type}

/-- At most `fuel` passes of a loop. -/
def loop (pass : σ → Pass σ ρ) : ℕ → σ → Option ρ
  | 0, _ => none
  | fuel + 1, s =>
    match pass s with
    | .again s' => loop pass fuel s'
    | .leaves result => some result

/-- A pass that gets closer to the end of the loop and keeps what the loop is to return. -/
def Advances (keeps : σ → Prop) (variant : σ → ℕ) (result : σ → ρ) (s : σ) : Pass σ ρ → Prop
  | .again s' => keeps s' ∧ variant s' < variant s ∧ result s' = result s
  | .leaves r => r = result s

/-- A loop whose passes advance returns what it is to return. -/
theorem loop_eq {pass : σ → Pass σ ρ} {keeps : σ → Prop} (variant : σ → ℕ) (result : σ → ρ)
    (hpass : ∀ s, keeps s → Advances keeps variant result s (pass s)) {s : σ} (hs : keeps s)
    {fuel : ℕ} (hfuel : variant s < fuel) : loop pass fuel s = some (result s) := by
  induction fuel generalizing s with
  | zero => exact absurd hfuel (Nat.not_lt_zero _)
  | succ fuel ih =>
    have hadvances := hpass s hs
    rw [loop]
    cases hstep : pass s with
    | again s' =>
      rw [hstep] at hadvances
      obtain ⟨hkept, hless, hsame⟩ := hadvances
      exact (ih hkept (by omega)).trans (congrArg some hsame)
    | leaves r =>
      rw [hstep] at hadvances
      exact congrArg some hadvances

end Pass

/-- A stream from which is read: what is left of it, and how much each later read would give. -/
structure Reader (α : Type) where
  rest : List α
  sizes : ℕ → ℕ

namespace Reader

variable {α : Type}

/-- The number of items that a read of `size` is ready to give. -/
def granted (reader : Reader α) (size : ℕ) : ℕ := min size (max 1 (reader.sizes 0))

/-- A read of at most `size` items; it gives nothing at the end of the stream only. -/
def read (reader : Reader α) (size : ℕ) : List α × Reader α :=
  (reader.rest.take (reader.granted size),
    { rest := reader.rest.drop (reader.granted size), sizes := fun i ↦ reader.sizes (i + 1) })

/-- A read into a buffer of `size` items; it gives no number at the end of the stream. -/
def readInto (reader : Reader α) (size : ℕ) : Option (List α) × Reader α :=
  if reader.rest = [] ∧ 0 < size then
    (none, reader)
  else
    (some (reader.read size).1, (reader.read size).2)

variable (reader : Reader α) (size : ℕ)

theorem read_append : (reader.read size).1 ++ (reader.read size).2.rest = reader.rest :=
  List.take_append_drop _ _

theorem length_read_le : (reader.read size).1.length ≤ size :=
  Nat.le_trans (List.length_take_le _ _) (Nat.min_le_left _ _)

theorem length_read_add :
    (reader.read size).1.length + (reader.read size).2.rest.length = reader.rest.length := by
  rw [← List.length_append, read_append]

theorem read_eq_nil {size : ℕ} (hsize : 0 < size) : (reader.read size).1 = [] ↔ reader.rest = [] := by
  have hgranted : reader.granted size ≠ 0 := by
    unfold granted
    omega
  simp [read, hgranted]

variable {reader} {size}

theorem readInto_of_end (hend : reader.rest = []) (hsize : 0 < size) :
    reader.readInto size = (none, reader) :=
  if_pos ⟨hend, hsize⟩

theorem readInto_of_more (hmore : reader.rest ≠ []) (size : ℕ) :
    reader.readInto size = (some (reader.read size).1, (reader.read size).2) :=
  if_neg fun h ↦ hmore h.1

end Reader

end Ferry
