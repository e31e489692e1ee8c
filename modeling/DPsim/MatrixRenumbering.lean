import DPsim.Matrix
import DPsim.Renumbering
import DPsim.Together
import Mathlib.Algebra.BigOperators.Group.Finset.Basic
import Mathlib.Algebra.BigOperators.Ring.Finset
import Mathlib.LinearAlgebra.Dimension.Constructions
import Mathlib.LinearAlgebra.FiniteDimensional.Lemmas

/-! Matrices and vectors whose rows have been renumbered, and the systems of equations they make. -/
namespace DPsim.Matrix
open Renumbering

variable {Real : Type} [Field Real]

def entry (m : Matrix Real) (i j : Nat) : Real :=
  if inside : i < m.rows ∧ j < m.cols then m.coeff ⟨i,inside.1⟩ ⟨j,inside.2⟩ else 0

theorem entry_coeff (m : Matrix Real) (i : Fin m.rows) (j : Fin m.cols) : m.entry i j = m.coeff i j :=
  dif_pos ⟨i.2,j.2⟩

theorem entry_outside {m : Matrix Real} (outside : ¬ (i < m.rows ∧ j < m.cols)) : m.entry i j = 0 :=
  dif_neg outside

@[simp] theorem zero_entry (rows cols i j : Nat) : (Zero rows cols : Matrix Real).entry i j = 0 := by
  unfold entry
  split <;> rfl

theorem accumulate_entry (m : Matrix Real) (c : Nat → Nat → Real) (inside : i < m.rows ∧ j < m.cols) :
    (m.accumulate c).entry i j = m.entry i j + c i j := by
  have inside' : i < (m.accumulate c).rows ∧ j < (m.accumulate c).cols := inside
  rw [entry,entry,dif_pos inside,dif_pos inside']
  rfl

theorem sub_entry {a b d : Matrix Real} (computed : a.sub b = .ok d) :
    d.rows = a.rows ∧ d.cols = a.cols ∧ ∀ i j, d.entry i j = a.entry i j - b.entry i j := by
  unfold sub at computed
  split at computed
  · rename_i same
    cases computed
    refine ⟨rfl,rfl,fun i j => ?_⟩
    by_cases inside : i < a.rows ∧ j < a.cols
    · rw [entry,entry,entry,dif_pos inside,dif_pos inside,dif_pos (same.1 ▸ same.2 ▸ inside)]
      rfl
    · have outside : ¬ (i < b.rows ∧ j < b.cols) := same.1 ▸ same.2 ▸ inside
      rw [entry_outside (m := a) inside,entry_outside outside,sub_zero]
      exact entry_outside inside
  · contradiction

section Norm
variable [LinearOrder Real]

theorem lpNorm_le_iff (m : Matrix Real) (x : Real) :
    m.lpNorm ≤ x ↔ 0 ≤ x ∧ ∀ i j, |m.entry i j| ≤ x := by
  rw [lpNorm_le]
  refine and_congr_right fun least => ⟨fun bound i j => ?_,fun bound i j => ?_⟩
  · by_cases inside : i < m.rows ∧ j < m.cols
    · rw [entry,dif_pos inside]
      exact bound _ _
    · rw [entry_outside inside,abs,neg_zero,max_self]
      exact least
  · rw [← entry_coeff]
    exact bound _ _

end Norm

/-- The rows have been renumbered by `π`, the columns by `τ`. -/
structure Renumbered (π τ : Equiv.Perm Nat) (m m' : Matrix Real) : Prop where
  rows : m'.rows = m.rows
  cols : m'.cols = m.cols
  entries : ∀ i j, m'.entry (π i) (τ j) = m.entry i j

section Operations
variable {π τ : Equiv.Perm Nat} {m m' a a' b b' : Matrix Real}

theorem Renumbered.zero (rows cols : Nat) : (Zero rows cols : Matrix Real).Renumbered π τ (Zero rows cols) :=
  ⟨rfl,rfl,by simp⟩

theorem Renumbered.accumulate {c c' : Nat → Nat → Real} (same : m.Renumbered π τ m')
    (rows : Keeps m.rows π) (cols : Keeps m.cols τ)
    (added : ∀ i < m.rows, ∀ j < m.cols, c' (π i) (τ j) = c i j) :
    (m.accumulate c).Renumbered π τ (m'.accumulate c') := by
  refine ⟨same.rows,same.cols,fun i j => ?_⟩
  have moved : (π i < m'.rows ∧ τ j < m'.cols) ↔ (i < m.rows ∧ j < m.cols) := by
    rw [same.rows,same.cols]
    exact and_congr (rows i) (cols j)
  by_cases inside : i < m.rows ∧ j < m.cols
  · rw [accumulate_entry _ _ inside,accumulate_entry _ _ (moved.mpr inside),same.entries,
      added i inside.1 j inside.2]
  · have outside : ¬ (i < (m.accumulate c).rows ∧ j < (m.accumulate c).cols) := inside
    have outside' : ¬ (π i < (m'.accumulate c').rows ∧ τ j < (m'.accumulate c').cols) :=
      inside ∘ moved.mp
    rw [entry_outside outside,entry_outside outside']

theorem Renumbered.setZero (same : m.Renumbered π τ m') : m.setZero.Renumbered π τ m'.setZero := by
  rw [Matrix.setZero,Matrix.setZero,same.rows,same.cols]
  exact .zero ..

theorem Renumbered.sub (first : a.Renumbered π τ a') (second : b.Renumbered π τ b') :
    Together (Renumbered π τ) (a.sub b) (a'.sub b') := by
  by_cases same : a.rows = b.rows ∧ a.cols = b.cols
  · have same' : a'.rows = b'.rows ∧ a'.cols = b'.cols := by
      rw [first.rows,first.cols,second.rows,second.cols]
      exact same
    obtain ⟨d,computed⟩ : ∃ d, a.sub b = .ok d := ⟨_,dif_pos same⟩
    obtain ⟨d',computed'⟩ : ∃ d', a'.sub b' = .ok d' := ⟨_,dif_pos same'⟩
    obtain ⟨rows,cols,entries⟩ := sub_entry computed
    obtain ⟨rows',cols',entries'⟩ := sub_entry computed'
    rw [computed,computed']
    refine ⟨by rw [rows',rows,first.rows],by rw [cols',cols,first.cols],fun i j => ?_⟩
    rw [entries',entries,first.entries,second.entries]
  · have other : ¬ (a'.rows = b'.rows ∧ a'.cols = b'.cols) := by
      rw [first.rows,first.cols,second.rows,second.cols]
      exact same
    rw [sub_mismatch.mpr same,sub_mismatch.mpr other]
    exact Eq.refl Fault.sizeMismatch

theorem Renumbered.lpNorm [LinearOrder Real] (same : m.Renumbered π τ m') : m'.lpNorm = m.lpNorm := by
  have bounds (x : Real) : m'.lpNorm ≤ x ↔ m.lpNorm ≤ x := by
    rw [lpNorm_le_iff,lpNorm_le_iff]
    refine and_congr_right fun _ => ⟨fun bound i j => ?_,fun bound i j => ?_⟩
    · exact same.entries i j ▸ bound (π i) (τ j)
    · have moved := same.entries (π.symm i) (τ.symm j)
      rw [Equiv.apply_symm_apply,Equiv.apply_symm_apply] at moved
      exact moved ▸ bound _ _
  exact le_antisymm ((bounds _).mpr le_rfl) ((bounds _).mp le_rfl)

end Operations

def times (m : Matrix Real) (x : Nat → Real) (i : Nat) : Real := ∑ j ∈ Finset.range m.cols, m.entry i j * x j

/-- A square matrix that takes different vectors to different vectors. -/
structure Nonsingular (m : Matrix Real) : Prop where
  square : m.rows = m.cols
  unique : ∀ x y, (∀ i < m.rows, m.times x i = m.times y i) → ∀ j < m.cols, x j = y j

def Solves (solution : Matrix Real → Matrix Real → Nat → Nat → Real) : Prop :=
  ∀ m right : Matrix Real, m.Nonsingular → right.hasSize m.rows 1 →
    ∀ i < m.rows, m.times (fun j => solution m right j 0) i = right.entry i 0

section Systems
variable {π : Equiv.Perm Nat} {m m' : Matrix Real}

theorem Renumbered.times (same : m.Renumbered π π m') (keeps : Keeps m.cols π) (x : Nat → Real) (i : Nat) :
    m'.times x (π i) = m.times (fun j => x (π j)) i := by
  unfold Matrix.times
  symm
  refine Finset.sum_equiv π (fun j => ?_) fun j _ => ?_
  · rw [Finset.mem_range,Finset.mem_range,same.cols]
    exact (keeps j).symm
  · rw [same.entries]

theorem Renumbered.nonsingular (same : m.Renumbered π π m') (keeps : Keeps m.cols π)
    (regular : m.Nonsingular) : m'.Nonsingular := by
  refine ⟨by rw [same.rows,same.cols,regular.square],fun x y equal j below => ?_⟩
  have rows : Keeps m.rows π := regular.square ▸ keeps
  have moved := regular.unique (fun j => x (π j)) (fun j => y (π j)) (fun i inside => ?_) (π.symm j)
    ((keeps.symm j).mpr (same.cols ▸ below))
  · simpa using moved
  · rw [← same.times keeps,← same.times keeps]
    exact equal _ (same.rows ▸ (rows i).mpr inside)

theorem Renumbered.solution {solution : Matrix Real → Matrix Real → Nat → Nat → Real} {right right' : Matrix Real}
    (solves : Solves solution) (regular : m.Nonsingular) (same : m.Renumbered π π m') (keeps : Keeps m.cols π)
    (vectors : right.Renumbered π 1 right') (size : right.hasSize m.rows 1) (j : Nat) (below : j < m.cols) :
    solution m' right' (π j) 0 = solution m right j 0 := by
  have rows : Keeps m.rows π := regular.square ▸ keeps
  have size' : right'.hasSize m'.rows 1 :=
    ⟨by rw [vectors.rows,size.1,same.rows],by rw [vectors.cols,size.2]⟩
  refine regular.unique (fun j => solution m' right' (π j) 0) (fun j => solution m right j 0)
    (fun i inside => ?_) j below
  calc m.times (fun j => solution m' right' (π j) 0) i
      = m'.times (fun j => solution m' right' j 0) (π i) :=
        (same.times keeps (fun j => solution m' right' j 0) i).symm
    _ = right'.entry (π i) 0 :=
        solves m' right' (same.nonsingular keeps regular) size' _ (same.rows ▸ (rows i).mpr inside)
    _ = right.entry i 0 := vectors.entries i 0
    _ = m.times (fun j => solution m right j 0) i := (solves m right regular size i inside).symm

theorem Nonsingular.solvable {m : Matrix Real} (regular : m.Nonsingular) (c : Nat → Real) :
    ∃ x, ∀ i < m.rows, m.times x i = c i := by
  let f : (Fin m.cols → Real) →ₗ[Real] (Fin m.rows → Real) :=
    LinearMap.pi fun i => ∑ j, m.coeff i j • LinearMap.proj j
  let extend (x : Fin m.cols → Real) (j : Nat) : Real := if below : j < m.cols then x ⟨j,below⟩ else 0
  have row (x : Fin m.cols → Real) (i : Fin m.rows) : m.times (extend x) i = f x i := by
    simp [f,extend,Matrix.times,Finset.sum_range,entry_coeff]
  have injective : Function.Injective f := by
    intro x y same
    ext j
    have equal := regular.unique (extend x) (extend y) (fun i inside => ?_) j j.2
    · simpa [extend] using equal
    · exact (row x ⟨i,inside⟩).trans ((congrFun same ⟨i,inside⟩).trans (row y ⟨i,inside⟩).symm)
  have surjective : Function.Surjective f :=
    (LinearMap.injective_iff_surjective_of_finrank_eq_finrank (by simp [regular.square])).mp injective
  obtain ⟨x,solved⟩ := surjective fun i => c i
  exact ⟨extend x,fun i inside => (row x ⟨i,inside⟩).trans (congrFun solved ⟨i,inside⟩)⟩

open Classical in
noncomputable def exactSolution (m right : Matrix Real) (i _ : Nat) : Real :=
  if solvable : ∃ x, ∀ i < m.rows, m.times x i = right.entry i 0 then solvable.choose i else 0

theorem exactSolution_solves : Solves (exactSolution : Matrix Real → Matrix Real → Nat → Nat → Real) := by
  intro m right regular _
  have solvable := regular.solvable fun i => right.entry i 0
  simp only [exactSolution,solvable,dif_pos]
  exact solvable.choose_spec

theorem times_diagonal {m : Matrix Real} (diagonal : ∀ i j, i ≠ j → m.entry i j = 0) (x : Nat → Real)
    (inside : i < m.cols) : m.times x i = m.entry i i * x i := by
  refine Finset.sum_eq_single_of_mem i (Finset.mem_range.mpr inside) fun j _ other => ?_
  rw [diagonal i j other.symm,zero_mul]

theorem Nonsingular.of_diagonal {m : Matrix Real} (square : m.rows = m.cols)
    (diagonal : ∀ i j, i ≠ j → m.entry i j = 0) (nonzero : ∀ i < m.rows, m.entry i i ≠ 0) : m.Nonsingular := by
  refine ⟨square,fun x y same j below => ?_⟩
  have inside : j < m.rows := square ▸ below
  have row := same j inside
  rw [times_diagonal diagonal x below,times_diagonal diagonal y below] at row
  exact mul_left_cancel₀ (nonzero j inside) row

end Systems
end DPsim.Matrix

namespace DPsim.PartialPivLU
open Renumbering DPsim.Matrix
variable {Real : Type} [Field Real]

/-- Two solves whose matrices and right vectors have been renumbered alike. -/
theorem solve_renumbered {solution : Matrix Real → Matrix Real → Nat → Nat → Real} {π : Equiv.Perm Nat} {r : Nat}
    (solves : Solves solution) (keeps : Keeps r π) {lu lu' : PartialPivLU Real} {right right' : Matrix Real}
    (size : lu.matrix.hasSize r r) (same : lu.matrix.Renumbered π π lu'.matrix) (regular : lu.matrix.Nonsingular)
    (vector : right.hasSize r 1) (vectors : right.Renumbered π 1 right') :
    ∃ left left', lu.solve solution right = .ok left ∧ lu'.solve solution right' = .ok left' ∧
      left.hasSize r 1 ∧ left.Renumbered π 1 left' := by
  have rows : lu.matrix.rows = right.rows := size.1.trans vector.1.symm
  have rows' : lu'.matrix.rows = right'.rows := same.rows.trans (rows.trans vectors.rows.symm)
  refine ⟨_,_,if_pos rows,if_pos rows',⟨size.2,vector.2⟩,same.cols,vectors.cols,fun i j => ?_⟩
  have moved : (π i < lu'.matrix.cols ∧ j < right'.cols) ↔ (i < lu.matrix.cols ∧ j < right.cols) := by
    rw [same.cols,vectors.cols,size.2]
    exact and_congr_left fun _ => keeps i
  by_cases inside : i < lu.matrix.cols ∧ j < right.cols
  · obtain rfl : j = 0 := by
      have := vector.2
      omega
    rw [entry,entry,dif_pos inside]
    apply (dif_pos (moved.mpr inside)).trans
    exact Renumbered.solution solves regular same (size.2 ▸ keeps) vectors (size.1 ▸ vector) i inside.1
  · refine (entry_outside fun within => ?_).trans (entry_outside inside).symm
    exact inside (moved.mp within)

end DPsim.PartialPivLU
