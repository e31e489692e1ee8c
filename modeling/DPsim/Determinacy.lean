import Mathlib.Data.List.Basic
import Mathlib.Data.List.Perm.Basic

/-! Agents whose actions commute: the order in which they act decides neither where a complete run ends
nor how often each of them acts in it. -/
namespace Determinacy

variable {S : Type u} {L : Type v} {next : S → L → Option S}

def run (next : S → L → Option S) : S → List L → Option S
  | s, [] => some s
  | s, a :: labels => (next s a).bind fun t => run next t labels

def Done (next : S → L → Option S) (s : S) : Prop := ∀ a, next s a = none

def Commutes (next : S → L → Option S) (I : S → Prop) : Prop :=
  ∀ s a b t u, I s → a ≠ b → next s a = some t → next s b = some u →
    ∃ v, next t b = some v ∧ next u a = some v

def Keeps (next : S → L → Option S) (I : S → Prop) : Prop :=
  ∀ s a t, I s → next s a = some t → I t

theorem run_cons : run next s (a :: labels) = some t ↔ ∃ u, next s a = some u ∧ run next u labels = some t :=
  Option.bind_eq_some_iff

section Complete
variable [DecidableEq L] {I : S → Prop} (keeps : Keeps next I) (commutes : Commutes next I)
include keeps commutes

/-- An agent that can act now acts in every complete run, and may as well do so first. -/
theorem run_first (initial : I s) (ran : run next s xs = some t) (done : Done next t)
    (step : next s a = some u) : a ∈ xs ∧ run next u (xs.erase a) = some t := by
  induction xs generalizing s u with
  | nil =>
    cases ran
    rw [done a] at step
    contradiction
  | cons b xs ih =>
    obtain ⟨w,other,rest⟩ := run_cons.mp ran
    by_cases same : b = a
    · subst same
      rw [step] at other
      cases other
      rw [List.erase_cons_head]
      exact ⟨List.mem_cons_self,rest⟩
    · obtain ⟨v,after,before⟩ := commutes s a b u w initial (Ne.symm same) step other
      obtain ⟨member,later⟩ := ih (keeps s b w initial other) rest before
      rw [List.erase_cons_tail (by simpa using same)]
      exact ⟨List.mem_cons_of_mem b member,run_cons.mpr ⟨v,after,later⟩⟩

/-- Every run can be continued to the end of any complete one, with the actions that are left. -/
theorem run_completes (initial : I s) (ran : run next s xs = some t) (done : Done next t)
    (started : run next s ys = some u) : ∃ zs, run next u zs = some t ∧ (ys ++ zs).Perm xs := by
  induction ys generalizing s xs with
  | nil =>
    cases started
    exact ⟨xs,ran,List.Perm.refl xs⟩
  | cons a ys ih =>
    obtain ⟨w,step,rest⟩ := run_cons.mp started
    obtain ⟨member,shorter⟩ := run_first keeps commutes initial ran done step
    obtain ⟨zs,completed,perm⟩ := ih (keeps s a w initial step) shorter rest
    exact ⟨zs,completed,(perm.cons a).trans (List.perm_cons_erase member).symm⟩

/-- Two complete runs end in the same state, after the same actions of each agent. -/
theorem run_unique (initial : I s) (ran : run next s xs = some t) (done : Done next t)
    (ran' : run next s ys = some u) (done' : Done next u) : u = t ∧ ys.Perm xs := by
  obtain ⟨zs,completed,perm⟩ := run_completes keeps commutes initial ran done ran'
  cases zs with
  | nil =>
    cases completed
    exact ⟨rfl,by simpa using perm⟩
  | cons a zs =>
    obtain ⟨w,step,_⟩ := run_cons.mp completed
    rw [done' a] at step
    contradiction

end Complete
end Determinacy
