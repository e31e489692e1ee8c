import Mathlib.Data.List.Perm.Basic

/-! Two computations side by side: both return, with related results, or both fail with one error.
A loop over a permuted list returns the same if its passes commute. -/

variable {ε α β γ δ : Type}

def Together (R : α → β → Prop) : Except ε α → Except ε β → Prop
  | .ok a, .ok b => R a b
  | .error first, .error second => first = second
  | _, _ => False

namespace Together

theorem refl (x : Except ε α) : Together (· = ·) x x := by
  cases x <;> exact Eq.refl _

theorem bind {R : α → β → Prop} {T : γ → δ → Prop} {x : Except ε α} {y : Except ε β}
    {f : α → Except ε γ} {g : β → Except ε δ} (first : Together R x y)
    (rest : ∀ a b, R a b → Together T (f a) (g b)) : Together T (x >>= f) (y >>= g) := by
  cases x <;> cases y
  · exact first
  · exact first.elim
  · exact first.elim
  · exact rest _ _ first

/-- Both have returned from their first parts. -/
theorem after {T : γ → δ → Prop} {x : Except ε α} {y : Except ε β} {f : α → Except ε γ} {g : β → Except ε δ}
    (ran : x = .ok a) (ran' : y = .ok b) (rest : Together T (f a) (g b)) : Together T (x >>= f) (y >>= g) := by
  subst ran ran'
  exact rest

theorem imp {R T : α → β → Prop} {x : Except ε α} {y : Except ε β} (both : Together R x y)
    (weaker : ∀ a b, x = .ok a → y = .ok b → R a b → T a b) : Together T x y := by
  cases x <;> cases y
  · exact both
  · exact both.elim
  · exact both.elim
  · exact weaker _ _ rfl rfl both

theorem returned {R : α → β → Prop} {x : Except ε α} {y : Except ε β} (both : Together R x y) :
    Together (fun a b => x = .ok a ∧ y = .ok b ∧ R a b) x y :=
  both.imp fun _ _ ran ran' same => ⟨ran,ran',same⟩

theorem ok {R : α → β → Prop} {x : Except ε α} {y : Except ε β} (both : Together R x y) (ran : x = .ok a) :
    ∃ b, y = .ok b ∧ R a b := by
  subst ran
  cases y with
  | error => exact both.elim
  | ok b => exact ⟨b,rfl,both⟩

end Together

section Loops
variable {part : δ → Option α} {items others : List δ}

/-- A loop over the parts that the elements of a list have. -/
theorem foldl_parts_perm {f : β → α → β}
    (commute : ∀ a b x y, a ≠ b → part a = some x → part b = some y → ∀ z, f (f z x) y = f (f z y) x)
    (perm : items.Perm others) (z : β) :
    (items.filterMap part).foldl f z = (others.filterMap part).foldl f z := by
  refine (perm.filterMap part).foldl_eq' (fun x first y second z => ?_) z
  obtain ⟨a,_,own⟩ := List.mem_filterMap.mp first
  obtain ⟨b,_,own'⟩ := List.mem_filterMap.mp second
  by_cases same : a = b
  · obtain rfl : x = y := Option.some.inj (own.symm.trans (same ▸ own'))
    rfl
  · exact commute a b x y same own own' z

/-- Two loops in different orders keep a relation that every pass keeps. -/
theorem foldl_parts_related {f : β → α → β} {g : γ → α → γ} {R : β → γ → Prop}
    (commute : ∀ a b x y, a ≠ b → part a = some x → part b = some y → ∀ w, g (g w x) y = g (g w y) x)
    (respects : ∀ a ∈ items, ∀ x, part a = some x → ∀ z w, R z w → R (f z x) (g w x))
    (perm : items.Perm others) (start : R z w) :
    R ((items.filterMap part).foldl f z) ((others.filterMap part).foldl g w) := by
  rw [← foldl_parts_perm commute perm]
  refine List.foldl_rel start fun x member z w same => ?_
  obtain ⟨a,listed,own⟩ := List.mem_filterMap.mp member
  exact respects a listed x own z w same

end Loops
