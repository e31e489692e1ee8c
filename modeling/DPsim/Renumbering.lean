import Mathlib.Algebra.Group.End

/-! Permutations of the natural numbers made out of smaller ones. -/
namespace Renumbering

/-- The numbers below `n` stay among themselves. -/
def Keeps (n : Nat) (π : Equiv.Perm Nat) : Prop := ∀ i, π i < n ↔ i < n

theorem keeps_one (n : Nat) : Keeps n 1 := fun _ => Iff.rfl

theorem Keeps.symm (keeps : Keeps n π) : Keeps n π.symm := by
  intro i
  simpa using (keeps (π.symm i)).symm

theorem Keeps.mul {π σ : Equiv.Perm Nat} (first : Keeps n π) (second : Keeps n σ) : Keeps n (σ * π) :=
  fun i => (second _).trans (first i)

/-- `π` below `n`, and `σ` from there on. -/
def beside (n : Nat) (π σ : Equiv.Perm Nat) (keeps : Keeps n π) : Equiv.Perm Nat where
  toFun i := if i < n then π i else n + σ (i - n)
  invFun i := if i < n then π.symm i else n + σ.symm (i - n)
  left_inv i := by
    by_cases below : i < n
    · simp [below,(keeps i).mpr below]
    · simp only [below,if_false,Nat.not_lt.mpr (Nat.le_add_right n _),Nat.add_sub_cancel_left,
        Equiv.symm_apply_apply]
      omega
  right_inv i := by
    by_cases below : i < n
    · simp [below,(keeps.symm i).mpr below]
    · simp only [below,if_false,Nat.not_lt.mpr (Nat.le_add_right n _),Nat.add_sub_cancel_left,
        Equiv.apply_symm_apply]
      omega

section Beside
variable {n : Nat} {π σ : Equiv.Perm Nat} {keeps : Keeps n π}

theorem beside_below (below : i < n) : beside n π σ keeps i = π i := if_pos below

@[simp] theorem beside_add (keeps : Keeps n π) (i : Nat) : beside n π σ keeps (n + i) = n + σ i := by
  simp [beside]

theorem beside_keeps (keeps : Keeps n π) (rest : Keeps m σ) : Keeps (n + m) (beside n π σ keeps) := by
  intro i
  by_cases below : i < n
  · have inside := (keeps i).mpr below
    rw [beside_below below]
    omega
  · obtain ⟨j,rfl⟩ := Nat.exists_eq_add_of_le (Nat.le_of_not_lt below)
    rw [beside_add,Nat.add_lt_add_iff_left,Nat.add_lt_add_iff_left]
    exact rest j

end Beside

/-- The first `m` numbers change places with the next `n`. -/
def exchanged (m n i : Nat) : Nat := if i < m then n + i else if i < m + n then i - m else i

theorem exchanged_exchanged (m n i : Nat) : exchanged n m (exchanged m n i) = i := by
  unfold exchanged
  split_ifs <;> omega

def exchange (m n : Nat) : Equiv.Perm Nat :=
  ⟨exchanged m n,exchanged n m,exchanged_exchanged m n,exchanged_exchanged n m⟩

theorem exchange_first (below : i < m) : exchange m n i = n + i := if_pos below

theorem exchange_second (below : i < n) : exchange m n (m + i) = i := by
  show exchanged m n (m + i) = i
  unfold exchanged
  split_ifs <;> omega

theorem exchange_rest (i : Nat) : exchange m n (m + (n + i)) = m + (n + i) := by
  show exchanged m n (m + (n + i)) = m + (n + i)
  unfold exchanged
  split_ifs <;> omega

theorem exchange_keeps (m n k : Nat) : Keeps (m + (n + k)) (exchange m n) := by
  intro i
  show exchanged m n i < m + (n + k) ↔ i < m + (n + k)
  unfold exchanged
  split_ifs <;> omega

/-- Blocks of `w` numbers change places. -/
def blocks (w : Nat) (τ : Equiv.Perm Nat) (some_ : 0 < w) : Equiv.Perm Nat where
  toFun i := w * τ (i / w) + i % w
  invFun i := w * τ.symm (i / w) + i % w
  left_inv i := by
    simp [Nat.mul_add_div some_,Nat.div_eq_of_lt (Nat.mod_lt i some_),Nat.div_add_mod]
  right_inv i := by
    simp [Nat.mul_add_div some_,Nat.div_eq_of_lt (Nat.mod_lt i some_),Nat.div_add_mod]

theorem blocks_add (some_ : 0 < w) (k : Nat) (inside : q < w) : blocks w τ some_ (w * k + q) = w * τ k + q := by
  show w * τ ((w * k + q) / w) + (w * k + q) % w = _
  rw [Nat.mul_add_div some_,Nat.div_eq_of_lt inside,Nat.mul_add_mod,Nat.mod_eq_of_lt inside,Nat.add_zero]

theorem blocks_keeps (some_ : 0 < w) (keeps : Keeps m τ) : Keeps (w * m) (blocks w τ some_) := by
  intro i
  have inside := Nat.mod_lt i some_
  have split : w * (i / w) + i % w = i := Nat.div_add_mod i w
  rw [← split,blocks_add some_ (i / w) inside]
  have step (a : Nat) : w * a + i % w < w * m ↔ a < m := by
    constructor
    · intro less
      exact Nat.lt_of_mul_lt_mul_left (by omega : w * a < w * m)
    · intro less
      have := Nat.mul_le_mul_left w (Nat.succ_le_of_lt less)
      rw [Nat.mul_succ] at this
      omega
  rw [step,step]
  exact keeps _

end Renumbering
