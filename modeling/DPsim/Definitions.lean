import Mathlib.Init

/-! Outcomes shared by the modules: what can end a call other than its return. -/
namespace DPsim

inductive Fault where
  | solverException
  | systemError (message : String)
  | exception (what : String)
  /-- a null pointer is dereferenced -/
  | nullPointer
  /-- a vector is indexed past its end -/
  | outOfRange
  /-- the operands of a matrix operation do not conform -/
  | sizeMismatch
  /-- the loop has not ended within the given number of passes -/
  | outOfFuel
  deriving DecidableEq, Repr

/-- A call that returns has returned at each of its steps. -/
theorem bind_ok {x : Except ε α} {f : α → Except ε β} :
    (x >>= f) = .ok r ↔ ∃ a, x = .ok a ∧ f a = .ok r := by
  cases x with
  | error fault => simp [bind,Except.bind]
  | ok a => simp [bind,Except.bind]

/-- A call that fails has failed at one of its steps. -/
theorem bind_error {x : Except ε α} {f : α → Except ε β} :
    (x >>= f) = .error e ↔ x = .error e ∨ ∃ a, x = .ok a ∧ f a = .error e := by
  cases x with
  | error fault => simp [bind,Except.bind]
  | ok a => simp [bind,Except.bind]

theorem bind_return (x : Except ε α) (f : α → β) : (x >>= fun a => pure (f a)) = x.map f := by
  cases x <;> rfl

theorem map_map (x : Except ε α) (f : α → β) (g : β → γ) : (x.map f).map g = x.map fun a => g (f a) := by
  cases x <;> rfl

/-- A loop returns if all of its passes do, as long as they keep what they need. -/
theorem foldlM_keeps {P : β → Prop} {f : β → α → Except ε β} (items : List α)
    (pass : ∀ a ∈ items, ∀ b, P b → ∃ c, f b a = .ok c ∧ P c) {b : β} (holds : P b) :
    ∃ c, items.foldlM f b = .ok c ∧ P c := by
  induction items generalizing b with
  | nil => exact ⟨b,rfl,holds⟩
  | cons a items ih =>
    obtain ⟨c,passed,next⟩ := pass a List.mem_cons_self b holds
    obtain ⟨d,rest,final⟩ := ih (fun a member => pass a (List.mem_cons_of_mem _ member)) next
    exact ⟨d,(List.foldlM_cons ..).trans (bind_ok.mpr ⟨c,passed,rest⟩),final⟩

theorem foldlM_returns {f : β → α → Except ε β} {items : List α}
    (pass : ∀ a ∈ items, ∀ b, ∃ c, f b a = .ok c) (b : β) : ∃ c, items.foldlM f b = .ok c := by
  obtain ⟨c,ran,_⟩ := foldlM_keeps (P := fun _ => True) items (fun a member b _ =>
    (pass a member b).imp fun _ passed => ⟨passed,trivial⟩) (b := b) trivial
  exact ⟨c,ran⟩

end DPsim
