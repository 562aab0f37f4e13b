import Ferry.Base.Exec

/-!
# Footprints

A state has parts, and each part has a preorder that says when it counts as unchanged.  A computation
stays within a list of parts when every other part is unchanged, however it ends.
-/

namespace Ferry

namespace Exec

variable {π σ ε α β : Type} (Same : π → σ → σ → Prop)

/-- Every part outside a list is unchanged. -/
def Within (parts : List π) (s t : σ) : Prop := ∀ p, p ∉ parts → Same p s t

/-- A computation changes no part outside a list. -/
def Touches (parts : List π) (m : Exec ε σ α) : Prop := Stays (Within Same parts) m

variable {Same} {parts parts' : List π}

theorem Within.mono {s t : σ} (h : Within Same parts s t) (hsub : ∀ p ∈ parts, p ∈ parts') :
    Within Same parts' s t := fun p hp ↦ h p fun hmem ↦ hp (hsub p hmem)

theorem Touches.mono {m : Exec ε σ α} (h : Touches Same parts m) (hsub : ∀ p ∈ parts, p ∈ parts') :
    Touches Same parts' m := fun s ↦ (h s).mono hsub

/-- What a computation leaves alone, as a postcondition. -/
theorem Touches.wp_same {m : Exec ε σ α} (h : Touches Same parts m) {p : π} (hp : p ∉ parts) (s : σ) :
    wp m (fun _ t ↦ Same p s t) s := h s p hp

section Preorder

variable [∀ p, IsPreorder σ (Same p)]

instance : IsPreorder σ (Within Same parts) where
  refl s p _ := refl_of (Same p) s
  trans _ _ _ h h' p hp := trans_of (Same p) (h p hp) (h' p hp)

theorem within_refl (s : σ) : Within Same parts s s := fun p _ ↦ refl_of (Same p) s

theorem Within.trans {s t u : σ} (h : Within Same parts s t) (h' : Within Same parts t u) :
    Within Same parts s u := fun p hp ↦ trans_of (Same p) (h p hp) (h' p hp)

theorem touches_pure (a : α) : Touches Same parts (pure a : Exec ε σ α) := stays_pure a

theorem touches_throw (e : ε) : Touches Same parts (throw e : Exec ε σ α) := stays_throw e

theorem touches_ofResult (r : Except ε α) : Touches Same parts (ofResult r : Exec ε σ α) :=
  stays_ofResult r

theorem touches_raiseIf (c : Prop) [Decidable c] (e : ε) :
    Touches Same parts (raiseIf c e : Exec ε σ Unit) := stays_raiseIf c e

theorem touches_get : Touches Same parts (get : Exec ε σ σ) := fun s ↦ within_refl s

theorem touches_bind {m : Exec ε σ α} {f : α → Exec ε σ β} (hm : Touches Same parts m)
    (hf : ∀ a, Touches Same parts (f a)) : Touches Same parts (m >>= f) := stays_bind hm hf

theorem touches_get_bind {f : σ → Exec ε σ β} (hf : ∀ s, Touches Same parts (f s)) :
    Touches Same parts (get >>= f) := stays_bind touches_get hf

theorem touches_tryCatch {m : Exec ε σ α} {h : ε → Exec ε σ α} (hm : Touches Same parts m)
    (hh : ∀ e, Touches Same parts (h e)) : Touches Same parts (tryCatch m h) := stays_tryCatch hm hh

end Preorder

theorem touches_ite (c : Prop) [Decidable c] {m n : Exec ε σ α} (hm : Touches Same parts m)
    (hn : Touches Same parts n) : Touches Same parts (if c then m else n) := stays_ite c hm hn

theorem touches_modify {f : σ → σ} (h : ∀ s, Within Same parts s (f s)) :
    Touches Same parts (modify f : Exec ε σ PUnit) := stays_modify h

end Exec

end Ferry
