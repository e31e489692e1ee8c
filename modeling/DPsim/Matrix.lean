import DPsim.Definitions
import Mathlib.Algebra.Order.Field.Basic
import Mathlib.Data.List.FinRange

/-! Dense matrices with sizes known at run time only. An operation whose operands do not
conform is a fault, and a factorization is known by the matrix it was computed from. -/
namespace DPsim

structure Matrix (Real : Type) where
  rows : Nat
  cols : Nat
  coeff : Fin rows → Fin cols → Real

namespace Matrix

variable {Real : Type}

/-- `Matrix::Zero`. -/
def Zero [Field Real] (rows cols : Nat) : Matrix Real := ⟨rows, cols, fun _ _ => 0⟩

def setZero [Field Real] (m : Matrix Real) : Matrix Real := Zero m.rows m.cols

def hasSize (m : Matrix Real) (rows cols : Nat) : Prop := m.rows = rows ∧ m.cols = cols

/-- What a stamp does: it adds to some of the coefficients. -/
def accumulate [Field Real] (m : Matrix Real) (contribution : Nat → Nat → Real) : Matrix Real :=
  ⟨m.rows, m.cols, fun i j => m.coeff i j + contribution i j⟩

def sub [Field Real] (a b : Matrix Real) : Except Fault (Matrix Real) :=
  if same : a.rows = b.rows ∧ a.cols = b.cols then
    .ok ⟨a.rows, a.cols, fun i j => a.coeff i j - b.coeff (i.cast same.1) (j.cast same.2)⟩
  else .error .sizeMismatch

/-- `lpNorm<Eigen::Infinity>`. -/
def lpNorm [Field Real] [LinearOrder Real] (m : Matrix Real) : Real :=
  (List.finRange m.rows).foldl (fun largest i =>
    (List.finRange m.cols).foldl (fun largest j => max largest |m.coeff i j|) largest) 0

@[simp] theorem zero_hasSize [Field Real] (rows cols : Nat) :
    (Zero rows cols : Matrix Real).hasSize rows cols := ⟨rfl,rfl⟩

theorem hasSize.setZero [Field Real] {m : Matrix Real} (size : m.hasSize r c) :
    m.setZero.hasSize r c := size

/-- Two contributions add up. -/
theorem accumulate_accumulate [Field Real] (m : Matrix Real) (first second : Nat → Nat → Real) :
    (m.accumulate first).accumulate second = m.accumulate (first + second) := by
  simp [accumulate,add_assoc]

@[simp] theorem accumulate_zero [Field Real] (m : Matrix Real) : m.accumulate 0 = m := by
  simp [accumulate]

/-- A fold whose step is bounded exactly where its start and a fact of the element are. -/
theorem foldl_le_iff [LinearOrder Real] {items : List α} {f : Real → α → Real} {P : α → Prop} {x : Real}
    (step : ∀ y a, f y a ≤ x ↔ y ≤ x ∧ P a) (y : Real) : items.foldl f y ≤ x ↔ y ≤ x ∧ ∀ a ∈ items, P a := by
  induction items generalizing y with
  | nil => simp
  | cons a items ih =>
    rw [List.foldl_cons,ih,step,List.forall_mem_cons,and_assoc]

theorem lpNorm_le [Field Real] [LinearOrder Real] {m : Matrix Real} {x : Real} :
    m.lpNorm ≤ x ↔ 0 ≤ x ∧ ∀ i j, |m.coeff i j| ≤ x := by
  have row (y : Real) (i : Fin m.rows) : (List.finRange m.cols).foldl (fun largest j =>
      max largest |m.coeff i j|) y ≤ x ↔ y ≤ x ∧ ∀ j, |m.coeff i j| ≤ x := by
    rw [foldl_le_iff (P := fun j => |m.coeff i j| ≤ x) fun y j => max_le_iff]
    simp
  rw [lpNorm,foldl_le_iff row]
  simp

section Zeros
variable [Field Real] [LinearOrder Real] [IsStrictOrderedRing Real]

/-- The norm is zero for a matrix of zeros only. -/
theorem lpNorm_eq_zero {m : Matrix Real} : m.lpNorm = 0 ↔ ∀ i j, m.coeff i j = 0 := by
  have nonnegative : 0 ≤ m.lpNorm := (lpNorm_le.mp le_rfl).1
  have atMost : m.lpNorm = 0 ↔ m.lpNorm ≤ 0 := ⟨le_of_eq,fun less => le_antisymm less nonnegative⟩
  rw [atMost,lpNorm_le]
  simp

theorem lpNorm_ne_zero {m : Matrix Real} : m.lpNorm ≠ 0 ↔ ∃ i j, m.coeff i j ≠ 0 := by
  rw [ne_eq,lpNorm_eq_zero]
  simp only [not_forall,ne_eq]

end Zeros

/-- A subtraction fails exactly if the sizes differ. -/
theorem sub_mismatch [Field Real] {a b : Matrix Real} :
    a.sub b = .error .sizeMismatch ↔ ¬ (a.rows = b.rows ∧ a.cols = b.cols) := by
  unfold sub
  split <;> simp_all

end Matrix

/-- `Eigen::PartialPivLU<Matrix>`; one that was never computed has size zero. -/
structure PartialPivLU (Real : Type) where
  matrix : Matrix Real

namespace PartialPivLU

variable {Real : Type}

def empty [Field Real] : PartialPivLU Real := ⟨.Zero 0 0⟩

/-- Only a square matrix is factorized. -/
def compute (m : Matrix Real) : Except Fault (PartialPivLU Real) :=
  if m.rows = m.cols then .ok ⟨m⟩ else .error .sizeMismatch

/-- `solution` gives the coefficients that the triangular solves compute. -/
def solve (solution : Matrix Real → Matrix Real → Nat → Nat → Real) (lu : PartialPivLU Real)
    (rhs : Matrix Real) : Except Fault (Matrix Real) :=
  if lu.matrix.rows = rhs.rows then
    .ok ⟨lu.matrix.cols, rhs.cols, fun i j => solution lu.matrix rhs i j⟩
  else .error .sizeMismatch

theorem compute_ok {m : Matrix Real} (square : m.hasSize n n) : compute m = .ok ⟨m⟩ := by
  simp [compute,square.1,square.2]

theorem solve_ok (solution : Matrix Real → Matrix Real → Nat → Nat → Real) {lu : PartialPivLU Real}
    {rhs : Matrix Real} (square : lu.matrix.hasSize n n) (vector : rhs.hasSize n 1) :
    ∃ left, lu.solve solution rhs = .ok left ∧ left.hasSize n 1 := by
  refine ⟨_,if_pos (square.1.trans vector.1.symm),square.2,vector.2⟩

end PartialPivLU
end DPsim
