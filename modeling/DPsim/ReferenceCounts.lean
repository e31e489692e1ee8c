import Mathlib.Algebra.BigOperators.Group.List.Basic
import Mathlib.Algebra.Ring.Int.Defs

/-! Reference counts against the owners that they stand for. Of a piece of code only the operations
matter that it does on its way: what they add to a count beyond what they add to the holders. -/
namespace RefCount

/-- A count goes up or down, or an owner takes or gives up hold of the object. -/
inductive Op (O : Type u) where
  | incref (o : O)
  | decref (o : O)
  | hold (o : O)
  | release (o : O)
  deriving DecidableEq, Repr

structure Ledger (O : Type u) where
  count : O → Int
  holders : O → Int

variable {O : Type u}

def Op.object : Op O → O
  | .incref o | .decref o | .hold o | .release o => o

/-- The count of every object is the number of its holders. -/
def Balanced (r : Ledger O) : Prop := ∀ o, r.count o = r.holders o

variable [DecidableEq O]

def Op.run (r : Ledger O) : Op O → Ledger O
  | .incref o => { r with count := Function.update r.count o (r.count o + 1) }
  | .decref o => { r with count := Function.update r.count o (r.count o - 1) }
  | .hold o => { r with holders := Function.update r.holders o (r.holders o + 1) }
  | .release o => { r with holders := Function.update r.holders o (r.holders o - 1) }

def run (r : Ledger O) (ops : List (Op O)) : Ledger O := ops.foldl Op.run r

/-- What the operation adds to the difference of the count and the holders. -/
def Op.excess (o : O) : Op O → Int
  | .incref o' | .release o' => if o' = o then 1 else 0
  | .decref o' | .hold o' => if o' = o then -1 else 0

def excess (o : O) (ops : List (Op O)) : Int := (ops.map (Op.excess o)).sum

@[simp] theorem excess_nil (o : O) : excess o [] = 0 := rfl

@[simp] theorem excess_cons (o : O) (op : Op O) (ops : List (Op O)) :
    excess o (op :: ops) = op.excess o + excess o ops := List.sum_cons

@[simp] theorem excess_append (o : O) (ops ops' : List (Op O)) :
    excess o (ops ++ ops') = excess o ops + excess o ops' := by
  rw [excess,List.map_append,List.sum_append]
  rfl

theorem op_other {o : O} {op : Op O} (other : op.object ≠ o) : op.excess o = 0 := by
  cases op <;> exact if_neg other

theorem op_difference (r : Ledger O) (op : Op O) (o : O) :
    (op.run r).count o - (op.run r).holders o = r.count o - r.holders o + op.excess o := by
  by_cases same : op.object = o
  · subst same
    cases op <;> simp [Op.run,Op.object,Op.excess] <;> omega
  · rw [op_other same,add_zero]
    rcases op with o' | o' | o' | o'
    all_goals
      replace same : o ≠ o' := Ne.symm same
      simp only [Op.run,Function.update_of_ne same]

theorem run_difference (r : Ledger O) (ops : List (Op O)) (o : O) :
    (run r ops).count o - (run r ops).holders o = r.count o - r.holders o + excess o ops := by
  induction ops generalizing r with
  | nil => simp [run]
  | cons op ops ih =>
    rw [excess_cons,← add_assoc,← op_difference]
    exact ih (op.run r)

/-- Counts that were right stay so exactly if the operations on each object cancel out. -/
theorem run_balanced_iff {r : Ledger O} (balanced : Balanced r) (ops : List (Op O)) :
    Balanced (run r ops) ↔ ∀ o, excess o ops = 0 := by
  apply forall_congr'
  intro o
  have difference := run_difference r ops o
  have right := balanced o
  omega

end RefCount
