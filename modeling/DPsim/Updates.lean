import Mathlib.Data.List.Nodup
import Mathlib.Data.List.Perm.Basic
import Mathlib.Logic.Function.Basic

/-! Changes to the values of a function at single points, one after another. -/
namespace Updates

variable {ι : Type u} [DecidableEq ι] {β : ι → Type v}

/-- A point and what happens to the value there. -/
abbrev Change (β : ι → Type v) := (i : ι) × (β i → β i)

def change (f : ∀ i, β i) (c : Change β) : ∀ i, β i := Function.update f c.1 (c.2 (f c.1))

def changed (f : ∀ i, β i) (cs : List (Change β)) : ∀ i, β i := cs.foldl change f

@[simp] theorem changed_nil (f : ∀ i, β i) : changed f [] = f := rfl

@[simp] theorem changed_cons (f : ∀ i, β i) (c : Change β) (cs : List (Change β)) :
    changed f (c :: cs) = changed (change f c) cs := rfl

theorem changed_append (f : ∀ i, β i) (cs ds : List (Change β)) :
    changed f (cs ++ ds) = changed (changed f cs) ds := List.foldl_append

@[simp] theorem change_same (f : ∀ i, β i) (c : Change β) : change f c c.1 = c.2 (f c.1) :=
  Function.update_self ..

theorem change_other {f : ∀ i, β i} {c : Change β} (other : c.1 ≠ i) : change f c i = f i :=
  Function.update_of_ne other.symm ..

theorem changed_other {f : ∀ i, β i} {cs : List (Change β)} (others : ∀ c ∈ cs, c.1 ≠ i) :
    changed f cs i = f i := by
  induction cs generalizing f with
  | nil => rfl
  | cons c cs ih =>
    rw [changed_cons,ih fun d member => others d (List.mem_cons_of_mem c member)]
    exact change_other (others c List.mem_cons_self)

/-- The last change at a point decides about the value there. -/
theorem changed_last {f : ∀ i, β i} {c : Change β} {before after : List (Change β)}
    (last : ∀ d ∈ after, d.1 ≠ c.1) :
    changed f (before ++ c :: after) c.1 = c.2 (changed f before c.1) := by
  rw [changed_append,changed_cons,changed_other last,change_same]

omit [DecidableEq ι] in
/-- A key that occurs in a list has a last occurrence. -/
theorem exists_last {α : Type w} {key : α → ι} {items : List α} (some : ∃ a ∈ items, key a = i) :
    ∃ before a after, items = before ++ a :: after ∧ key a = i ∧ ∀ b ∈ after, key b ≠ i := by
  induction items with
  | nil =>
    obtain ⟨a,member,_⟩ := some
    contradiction
  | cons a items ih =>
    by_cases later : ∃ b ∈ items, key b = i
    · obtain ⟨before,b,after,rfl,here,last⟩ := ih later
      exact ⟨a :: before,b,after,rfl,here,last⟩
    · simp only [not_exists,not_and] at later
      obtain ⟨b,member,here⟩ := some
      rcases List.mem_cons.mp member with rfl | inside
      · exact ⟨[],b,items,rfl,here,later⟩
      · exact absurd here (later b inside)

end Updates
