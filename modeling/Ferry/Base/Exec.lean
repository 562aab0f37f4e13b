import Mathlib.Order.Defs.Unbundled
import Mathlib.Tactic.Common

/-!
# Stateful computations that may raise

A computation takes a state and returns either a value or an exception, together with the state it
reached.  The state reached before a raise is kept, as in an imperative language with exceptions:
a handler sees every effect that happened before the raise.  The weakest precondition `wp` ranges
over both outcomes, and one rule for each construct reduces a goal about a program to goals about
its state updates.
-/

namespace Ferry

/-! ## Results -/

/-- Refuse with `e` when `c` holds. -/
def rejectIf {ε : Type} (c : Prop) [Decidable c] (e : ε) : Except ε Unit :=
  if c then .error e else .ok ()

/-- The value that must be there. -/
def require {ε α : Type} (e : ε) : Option α → Except ε α
  | some a => .ok a
  | none => .error e

theorem bind_eq_ok {ε α β : Type} {x : Except ε α} {f : α → Except ε β} {b : β} :
    (x >>= f) = .ok b ↔ ∃ a, x = .ok a ∧ f a = .ok b := by
  cases x <;> simp [bind, Except.bind]

theorem bind_eq_error {ε α β : Type} {x : Except ε α} {f : α → Except ε β} {e : ε} :
    (x >>= f) = .error e ↔ x = .error e ∨ ∃ a, x = .ok a ∧ f a = .error e := by
  cases x <;> simp [bind, Except.bind]

@[simp] theorem rejectIf_eq_ok {ε : Type} {c : Prop} [Decidable c] {e : ε} {u : Unit} :
    rejectIf c e = .ok u ↔ ¬c := by
  unfold rejectIf
  by_cases h : c <;> simp [h]

theorem rejectIf_eq_error {ε : Type} {c : Prop} [Decidable c] {e e' : ε} :
    rejectIf c e = .error e' ↔ c ∧ e = e' := by
  unfold rejectIf
  by_cases h : c <;> simp [h]

@[simp] theorem require_eq_ok {ε α : Type} {e : ε} {o : Option α} {a : α} :
    require e o = .ok a ↔ o = some a := by
  cases o <;> simp [require]

@[simp] theorem mapError_eq_ok {ε ε' α : Type} {f : ε → ε'} {x : Except ε α} {a : α} :
    x.mapError f = .ok a ↔ x = .ok a := by
  cases x <;> simp [Except.mapError]

/-! ## Computations -/

/-- A computation over the state `σ` that returns an `α` or raises an `ε`. -/
def Exec (ε σ α : Type) : Type := σ → Except ε α × σ

namespace Exec

variable {ε σ τ α β : Type}

/-- The body of `do` sequencing: a raise skips the continuation and keeps the state. -/
def andThen (m : Exec ε σ α) (f : α → Exec ε σ β) : Exec ε σ β := fun s ↦
  match m s with
  | (.ok a, s') => f a s'
  | (.error e, s') => (.error e, s')

/-- The body of `try`/`catch`: the handler starts in the state the raise left behind. -/
def handle (m : Exec ε σ α) (h : ε → Exec ε σ α) : Exec ε σ α := fun s ↦
  match m s with
  | (.ok a, s') => (.ok a, s')
  | (.error e, s') => h e s'

instance : Monad (Exec ε σ) where
  pure a := fun s ↦ (.ok a, s)
  bind := andThen

instance : MonadExceptOf ε (Exec ε σ) where
  throw e := fun s ↦ (.error e, s)
  tryCatch := handle

instance : MonadStateOf σ (Exec ε σ) where
  get := fun s ↦ (.ok s, s)
  set s' := fun _ ↦ (.ok (), s')
  modifyGet f := fun s ↦ (.ok (f s).1, (f s).2)

/-- Raise `e` when the check `c` fails the caller, and do nothing otherwise. -/
def raiseIf (c : Prop) [Decidable c] (e : ε) : Exec ε σ Unit :=
  if c then throw e else pure ()

/-- A pure computation that may raise. -/
def ofResult (r : Except ε α) : Exec ε σ α := fun s ↦ (r, s)

/-- Run a computation on one component of a larger state. -/
def zoom (view : σ → τ) (put : τ → σ → σ) (m : Exec ε τ α) : Exec ε σ α := fun s ↦
  ((m (view s)).1, put (m (view s)).2 s)

/-- Translate the exceptions of a computation. -/
def mapError {ε' : Type} (f : ε → ε') (m : Exec ε σ α) : Exec ε' σ α := fun s ↦
  ((m s).1.mapError f, (m s).2)

/-- The outcome of `m` from `s`, both result and final state, satisfies `Q`. -/
def wp (m : Exec ε σ α) (Q : Except ε α → σ → Prop) (s : σ) : Prop :=
  Q (m s).1 (m s).2

/-! ## One rule for each construct -/

@[simp] theorem wp_pure (a : α) (Q : Except ε α → σ → Prop) (s : σ) :
    wp (pure a : Exec ε σ α) Q s ↔ Q (.ok a) s := Iff.rfl

@[simp] theorem wp_throw (e : ε) (Q : Except ε α → σ → Prop) (s : σ) :
    wp (throw e : Exec ε σ α) Q s ↔ Q (.error e) s := Iff.rfl

@[simp] theorem wp_bind (m : Exec ε σ α) (f : α → Exec ε σ β)
    (Q : Except ε β → σ → Prop) (s : σ) :
    wp (m >>= f) Q s ↔
      wp m (fun r s' ↦ match r with | .ok a => wp (f a) Q s' | .error e => Q (.error e) s') s := by
  change Q (andThen m f s).1 (andThen m f s).2 ↔ _
  unfold andThen wp
  rcases m s with ⟨r, s'⟩
  cases r <;> rfl

@[simp] theorem wp_tryCatch (m : Exec ε σ α) (h : ε → Exec ε σ α)
    (Q : Except ε α → σ → Prop) (s : σ) :
    wp (tryCatch m h) Q s ↔
      wp m (fun r s' ↦ match r with | .ok a => Q (.ok a) s' | .error e => wp (h e) Q s') s := by
  change Q (handle m h s).1 (handle m h s).2 ↔ _
  unfold handle wp
  rcases m s with ⟨r, s'⟩
  cases r <;> rfl

@[simp] theorem wp_get (Q : Except ε σ → σ → Prop) (s : σ) :
    wp (get : Exec ε σ σ) Q s ↔ Q (.ok s) s := Iff.rfl

@[simp] theorem wp_set (s' : σ) (Q : Except ε PUnit → σ → Prop) (s : σ) :
    wp (set s' : Exec ε σ PUnit) Q s ↔ Q (.ok ()) s' := Iff.rfl

@[simp] theorem wp_modify (f : σ → σ) (Q : Except ε PUnit → σ → Prop) (s : σ) :
    wp (modify f : Exec ε σ PUnit) Q s ↔ Q (.ok ()) (f s) := Iff.rfl

@[simp] theorem wp_raiseIf (c : Prop) [Decidable c] (e : ε) (Q : Except ε Unit → σ → Prop) (s : σ) :
    wp (raiseIf c e : Exec ε σ Unit) Q s ↔ (c → Q (.error e) s) ∧ (¬c → Q (.ok ()) s) := by
  unfold raiseIf
  by_cases h : c <;> simp [h]

@[simp] theorem wp_ofResult (r : Except ε α) (Q : Except ε α → σ → Prop) (s : σ) :
    wp (ofResult r : Exec ε σ α) Q s ↔ Q r s := Iff.rfl

@[simp] theorem wp_zoom (view : σ → τ) (put : τ → σ → σ) (m : Exec ε τ α)
    (Q : Except ε α → σ → Prop) (s : σ) :
    wp (zoom view put m) Q s ↔ wp m (fun r t ↦ Q r (put t s)) (view s) := Iff.rfl

@[simp] theorem wp_mapError {ε' : Type} (f : ε → ε') (m : Exec ε σ α)
    (Q : Except ε' α → σ → Prop) (s : σ) :
    wp (mapError f m) Q s ↔ wp m (fun r s' ↦ Q (r.mapError f) s') s := Iff.rfl

theorem wp_ite (c : Prop) [Decidable c] (m n : Exec ε σ α) (Q : Except ε α → σ → Prop) (s : σ) :
    wp (if c then m else n) Q s ↔ (c → wp m Q s) ∧ (¬c → wp n Q s) := by
  by_cases h : c <;> simp [h]

/-! ## Rules for the first step of a sequence -/

variable (Q : Except ε β → σ → Prop) (s : σ)

theorem wp_get_bind (f : σ → Exec ε σ β) : wp (get >>= f) Q s ↔ wp (f s) Q s := Iff.rfl

theorem wp_modify_bind (g : σ → σ) (f : PUnit → Exec ε σ β) :
    wp (modify g >>= f) Q s ↔ wp (f ()) Q (g s) := Iff.rfl

theorem wp_raiseIf_bind (c : Prop) [Decidable c] (e : ε) (f : Unit → Exec ε σ β) :
    wp (raiseIf c e >>= f) Q s ↔ (c → Q (.error e) s) ∧ (¬c → wp (f ()) Q s) := by
  rw [wp_bind, wp_raiseIf]

theorem wp_ofResult_bind (r : Except ε α) (f : α → Exec ε σ β) :
    wp (ofResult r >>= f) Q s ↔
      (∀ e, r = .error e → Q (.error e) s) ∧ (∀ a, r = .ok a → wp (f a) Q s) := by
  rw [wp_bind, wp_ofResult]
  cases r <;> simp

/-! ## Consequence and composition -/

theorem wp_mono {m : Exec ε σ α} {Q Q' : Except ε α → σ → Prop} {s : σ}
    (h : wp m Q s) (hQ : ∀ r s', Q r s' → Q' r s') : wp m Q' s :=
  hQ _ _ h

theorem wp_and {m : Exec ε σ α} {Q Q' : Except ε α → σ → Prop} {s : σ}
    (h : wp m Q s) (h' : wp m Q' s) : wp m (fun r s' ↦ Q r s' ∧ Q' r s') s :=
  ⟨h, h'⟩

theorem wp_bind_iff {m : Exec ε σ α} {f : α → Exec ε σ β} {Q : Except ε β → σ → Prop} {s : σ} :
    wp (m >>= f) Q s ↔
      (∀ e, (m s).1 = .error e → Q (.error e) (m s).2) ∧
        (∀ a, (m s).1 = .ok a → wp (f a) Q (m s).2) := by
  rw [wp_bind]
  unfold wp
  cases hr : (m s).1 <;> simp

theorem wp_bind_assoc {γ : Type} {m : Exec ε σ α} {f : α → Exec ε σ β} {g : β → Exec ε σ γ}
    {Q : Except ε γ → σ → Prop} {s : σ} :
    wp (m >>= f >>= g) Q s ↔ wp (m >>= fun a ↦ f a >>= g) Q s := by
  rw [wp_bind, wp_bind, wp_bind]
  unfold wp
  cases (m s).1 with
  | error e => rfl
  | ok a => exact (wp_bind (f a) g Q (m s).2).symm

/-- The run of a computation whose result is known. -/
theorem exists_run_of_wp {m : Exec ε σ α} {r : Except ε α} {P : σ → Prop} {s : σ}
    (h : wp m (fun r' s' ↦ r' = r ∧ P s') s) : ∃ s', m s = (r, s') ∧ P s' :=
  ⟨(m s).2, Prod.ext h.1 rfl, h.2⟩

/-! ## Runs that return or raise -/

section Runs

variable {s s' : σ} {b : β}

theorem bind_run_eq_ok {m : Exec ε σ α} {f : α → Exec ε σ β} :
    (m >>= f) s = (.ok b, s') ↔ ∃ a t, m s = (.ok a, t) ∧ f a t = (.ok b, s') := by
  change andThen m f s = _ ↔ _
  unfold andThen
  rcases hm : m s with ⟨r, t⟩
  cases r <;> simp

theorem bind_run_of_ok {m : Exec ε σ α} {f : α → Exec ε σ β} {a : α} (h : m s = (.ok a, s')) :
    (m >>= f) s = f a s' := by
  change andThen m f s = _
  unfold andThen
  rw [h]

theorem bind_run_of_raises {m : Exec ε σ α} {f : α → Exec ε σ β} {e : ε} (h : (m s).1 = .error e) :
    (m >>= f) s = (.error e, (m s).2) := by
  change andThen m f s = _
  unfold andThen
  rcases hm : m s with ⟨r, t⟩
  rw [hm] at h
  obtain rfl : r = .error e := h
  rfl

/-- A sequence returns when both of its parts do. -/
theorem bind_returns_iff {m : Exec ε σ α} {f : α → Exec ε σ β} :
    (∃ b, ((m >>= f) s).1 = .ok b) ↔ ∃ a, (m s).1 = .ok a ∧ ∃ b, (f a (m s).2).1 = .ok b := by
  change (∃ b, (andThen m f s).1 = .ok b) ↔ _
  unfold andThen
  rcases m s with ⟨r, t⟩
  cases r with
  | error e => simp
  | ok a => simp

/-- A sequence raises when its first part does, or the second after it. -/
theorem bind_raises_iff {m : Exec ε σ α} {f : α → Exec ε σ β} :
    (∃ e, ((m >>= f) s).1 = .error e) ↔
      (∃ e, (m s).1 = .error e) ∨ ∃ a, (m s).1 = .ok a ∧ ∃ e, (f a (m s).2).1 = .error e := by
  change (∃ e, (andThen m f s).1 = .error e) ↔ _
  unfold andThen
  rcases m s with ⟨r, t⟩
  cases r with
  | error e => simp
  | ok a => simp

theorem get_bind_run {f : σ → Exec ε σ β} : (get >>= f) s = f s s := rfl

theorem modify_bind_run {g : σ → σ} {f : PUnit → Exec ε σ β} : (modify g >>= f) s = f () (g s) := rfl

theorem raiseIf_bind_run_eq_ok {c : Prop} [Decidable c] {e : ε} {f : Unit → Exec ε σ β} :
    (raiseIf c e >>= f) s = (.ok b, s') ↔ ¬c ∧ f () s = (.ok b, s') := by
  rw [bind_run_eq_ok]
  by_cases h : c
  · simp [raiseIf, h, throw, throwThe, MonadExceptOf.throw]
  · rw [raiseIf, if_neg h]
    constructor
    · rintro ⟨u, t, hu, hf⟩
      cases hu
      exact ⟨h, hf⟩
    · rintro ⟨-, hf⟩
      exact ⟨(), s, rfl, hf⟩

theorem ofResult_run_eq_ok {r : Except ε β} : ofResult r s = (.ok b, s') ↔ r = .ok b ∧ s = s' := by
  simp [ofResult]

theorem ofResult_bind_run_eq_ok {r : Except ε α} {f : α → Exec ε σ β} :
    (ofResult r >>= f) s = (.ok b, s') ↔ ∃ a, r = .ok a ∧ f a s = (.ok b, s') := by
  rw [bind_run_eq_ok]
  simp [ofResult]

theorem tryCatch_run_of_ok {m : Exec ε σ α} {h : ε → Exec ε σ α} {a : α} (hm : m s = (.ok a, s')) :
    (tryCatch m h) s = (.ok a, s') := by
  change handle m h s = _
  unfold handle
  rw [hm]

theorem tryCatch_run_of_raises {m : Exec ε σ α} {h : ε → Exec ε σ α} {e : ε}
    (hm : m s = (.error e, s')) : (tryCatch m h) s = h e s' := by
  change handle m h s = _
  unfold handle
  rw [hm]

/-- The list of the values that a computation gives for each element. -/
def collect (f : α → Exec ε σ β) : List α → Exec ε σ (List β)
  | [] => pure []
  | a :: l => do
    let b ← f a
    let bs ← collect f l
    pure (b :: bs)

theorem collect_run_of_ok {f : α → Exec ε σ β} {g : α → β} {l : List α}
    (h : ∀ a ∈ l, f a s = (.ok (g a), s)) : collect f l s = (.ok (l.map g), s) := by
  induction l with
  | nil => rfl
  | cons a l ih =>
    rw [collect, bind_run_of_ok (h a List.mem_cons_self),
      bind_run_of_ok (ih fun a' ha' ↦ h a' (List.mem_cons_of_mem a ha'))]
    rfl

theorem collect_run_of_raises {f : α → Exec ε σ β} {a : α} {e : ε} (h : f a s = (.error e, s'))
    (l : List α) : collect f (a :: l) s = (.error e, s') := by
  rw [collect, bind_run_of_raises (congrArg Prod.fst h), h]

end Runs

/-! ## Composition -/

/-- A rule for a computation that is known to satisfy `P`: only the outcomes with `P` matter. -/
theorem wp_bind_of {m : Exec ε σ α} {f : α → Exec ε σ β} {P : Except ε α → σ → Prop}
    {Q : Except ε β → σ → Prop} {s : σ} (hm : wp m P s)
    (herror : ∀ e t, P (.error e) t → Q (.error e) t)
    (hok : ∀ a t, P (.ok a) t → wp (f a) Q t) : wp (m >>= f) Q s := by
  rw [wp_bind]
  apply wp_mono hm
  intro r t ht
  cases r with
  | error e => exact herror e t ht
  | ok a => exact hok a t ht

theorem wp_tryCatch_of {m : Exec ε σ α} {h : ε → Exec ε σ α} {P Q : Except ε α → σ → Prop} {s : σ}
    (hm : wp m P s) (herror : ∀ e t, P (.error e) t → wp (h e) Q t)
    (hok : ∀ a t, P (.ok a) t → Q (.ok a) t) : wp (tryCatch m h) Q s := by
  rw [wp_tryCatch]
  apply wp_mono hm
  intro r t ht
  cases r with
  | error e => exact herror e t ht
  | ok a => exact hok a t ht

/-- `m` never raises. -/
def Succeeds (m : Exec ε σ α) : Prop := ∀ s, wp m (fun r _ ↦ ∃ a, r = .ok a) s

theorem succeeds_pure (a : α) : Succeeds (pure a : Exec ε σ α) := fun _ ↦ ⟨a, rfl⟩

theorem succeeds_modify (f : σ → σ) : Succeeds (modify f : Exec ε σ PUnit) := fun _ ↦ ⟨(), rfl⟩

theorem succeeds_bind {m : Exec ε σ α} {f : α → Exec ε σ β} (hm : Succeeds m)
    (hf : ∀ a, Succeeds (f a)) : Succeeds (m >>= f) :=
  fun s ↦ wp_bind_of (hm s) (fun e _ h ↦ by simp at h) fun a t _ ↦ hf a t

theorem succeeds_get_bind {f : σ → Exec ε σ β} (hf : ∀ s, wp (f s) (fun r _ ↦ ∃ a, r = .ok a) s) :
    Succeeds (get >>= f) := hf

theorem succeeds_tryCatch (m : Exec ε σ α) {h : ε → Exec ε σ α} (hh : ∀ e, Succeeds (h e)) :
    Succeeds (tryCatch m h) := by
  intro s
  rw [wp_tryCatch]
  apply wp_mono (Q := fun _ _ ↦ True) trivial
  intro r t _
  cases r with
  | error e => exact hh e t
  | ok a => exact ⟨a, rfl⟩

theorem succeeds_ite (c : Prop) [Decidable c] {m n : Exec ε σ α} (hm : Succeeds m)
    (hn : Succeeds n) : Succeeds (if c then m else n) := by
  by_cases h : c
  · simpa [h] using hm
  · simpa [h] using hn

/-- Every value that `m` returns satisfies `P`. -/
def Returns (P : α → Prop) (m : Exec ε σ α) : Prop := ∀ s, wp m (fun r _ ↦ ∀ a, r = .ok a → P a) s

theorem returns_pure {P : α → Prop} {a : α} (h : P a) : Returns P (pure a : Exec ε σ α) :=
  fun _ _ hb ↦ Except.ok.inj hb ▸ h

theorem returns_bind {P : β → Prop} {m : Exec ε σ α} {f : α → Exec ε σ β}
    (hf : ∀ a, Returns P (f a)) : Returns P (m >>= f) := by
  intro s
  rw [wp_bind_iff]
  exact ⟨fun _ _ _ h ↦ by simp at h, fun a _ ↦ hf a _⟩

/-- Every exception that `m` raises satisfies `P`. -/
def Raises (P : ε → Prop) (m : Exec ε σ α) : Prop := ∀ s, wp m (fun r _ ↦ ∀ e, r = .error e → P e) s

section Raises

variable {P : ε → Prop}

theorem raises_throw {e : ε} (h : P e) : Raises P (throw e : Exec ε σ α) :=
  fun _ _ he ↦ Except.error.inj he ▸ h

theorem raises_of_succeeds {m : Exec ε σ α} (h : Succeeds m) : Raises P m := by
  intro s
  apply wp_mono (h s)
  rintro r t ⟨a, rfl⟩ e he
  simp at he

theorem raises_bind {m : Exec ε σ α} {f : α → Exec ε σ β} (hm : Raises P m)
    (hf : ∀ a, Raises P (f a)) : Raises P (m >>= f) :=
  fun s ↦ wp_bind_of (hm s) (fun e _ he _ heq ↦ Except.error.inj heq ▸ he e rfl) fun a t _ ↦ hf a t

theorem raises_tryCatch {Q : ε → Prop} {m : Exec ε σ α} {h : ε → Exec ε σ α} (hm : Raises Q m)
    (hh : ∀ e, Q e → Raises P (h e)) : Raises P (tryCatch m h) :=
  fun s ↦ wp_tryCatch_of (hm s) (fun e t he ↦ hh e (he e rfl) t) fun a _ _ e he ↦ by simp at he

theorem raises_ite (c : Prop) [Decidable c] {m n : Exec ε σ α} (hm : Raises P m) (hn : Raises P n) :
    Raises P (if c then m else n) := by
  by_cases h : c
  · simpa [h] using hm
  · simpa [h] using hn

end Raises

/-! ## Computations that move the state along a relation -/

/-- Every run of `m`, whether it returns or raises, moves the state along `R`. -/
def Stays (R : σ → σ → Prop) (m : Exec ε σ α) : Prop := ∀ s, wp m (fun _ s' ↦ R s s') s

section Stays

variable {R : σ → σ → Prop} [IsPreorder σ R]

theorem stays_pure (a : α) : Stays R (pure a : Exec ε σ α) := fun s ↦ refl_of R s

theorem stays_throw (e : ε) : Stays R (throw e : Exec ε σ α) := fun s ↦ refl_of R s

theorem stays_ofResult (r : Except ε α) : Stays R (ofResult r : Exec ε σ α) := fun s ↦ refl_of R s

theorem stays_raiseIf (c : Prop) [Decidable c] (e : ε) :
    Stays R (raiseIf c e : Exec ε σ Unit) := by
  intro s
  rw [wp_raiseIf]
  exact ⟨fun _ ↦ refl_of R s, fun _ ↦ refl_of R s⟩

theorem stays_bind {m : Exec ε σ α} {f : α → Exec ε σ β} (hm : Stays R m)
    (hf : ∀ a, Stays R (f a)) : Stays R (m >>= f) := by
  intro s
  rw [wp_bind]
  apply wp_mono (hm s)
  intro r t ht
  cases r with
  | error e => exact ht
  | ok a => exact wp_mono (hf a t) fun _ u hu ↦ trans_of R ht hu

/-- Sequencing where the value returned by the first part has a known property. -/
theorem stays_bind_of {P : α → Prop} {m : Exec ε σ α} {f : α → Exec ε σ β} (hm : Stays R m)
    (hP : Returns P m) (hf : ∀ a, P a → Stays R (f a)) :
    Stays R (m >>= f) := by
  intro s
  rw [wp_bind]
  apply wp_mono (wp_and (hm s) (hP s))
  intro r t ht
  cases r with
  | error e => exact ht.1
  | ok a => exact wp_mono (hf a (ht.2 a rfl) t) fun _ u hu ↦ trans_of R ht.1 hu

theorem stays_ofResult_bind {r : Except ε α} {f : α → Exec ε σ β}
    (hf : ∀ a, r = .ok a → Stays R (f a)) : Stays R (ofResult r >>= f) :=
  stays_bind_of (stays_ofResult r) (fun _ _ ha ↦ ha) hf

theorem stays_tryCatch {m : Exec ε σ α} {h : ε → Exec ε σ α} (hm : Stays R m)
    (hh : ∀ e, Stays R (h e)) : Stays R (tryCatch m h) := by
  intro s
  rw [wp_tryCatch]
  apply wp_mono (hm s)
  intro r t ht
  cases r with
  | error e => exact wp_mono (hh e t) fun _ u hu ↦ trans_of R ht hu
  | ok a => exact ht

end Stays

section Stays

variable {R : σ → σ → Prop}

theorem Stays.mono {R' : σ → σ → Prop} {m : Exec ε σ α} (hm : Stays R m)
    (h : ∀ s s', R s s' → R' s s') : Stays R' m := fun s ↦ h s _ (hm s)

theorem stays_modify {f : σ → σ} (h : ∀ s, R s (f s)) : Stays R (modify f : Exec ε σ PUnit) := h

theorem stays_get_bind {f : σ → Exec ε σ β} (hf : ∀ s, wp (f s) (fun _ t ↦ R s t) s) :
    Stays R (get >>= f) := hf

theorem stays_ite (c : Prop) [Decidable c] {m n : Exec ε σ α} (hm : Stays R m) (hn : Stays R n) :
    Stays R (if c then m else n) := by
  by_cases h : c
  · simpa [h] using hm
  · simpa [h] using hn

theorem stays_zoom {R' : τ → τ → Prop} {view : σ → τ} {put : τ → σ → σ} {m : Exec ε τ α}
    (hm : Stays R' m) (hput : ∀ s t, R' (view s) t → R s (put t s)) : Stays R (zoom view put m) :=
  fun s ↦ hput s _ (hm (view s))

theorem stays_mapError {ε' : Type} (f : ε → ε') {m : Exec ε σ α} (hm : Stays R m) :
    Stays R (mapError f m) := hm

end Stays

end Exec

end Ferry
