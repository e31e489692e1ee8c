import Mathlib.Data.List.Basic

/-! Finite paths of a labelled transition relation, and the rules that carry an
invariant along them. A path records the state each label was taken in, so that a
condition on the state before a step can be imposed on every step of a run. -/
namespace Transition

variable {S : Type u} {L : Type v} {Step : S → L → S → Prop}

inductive Path (Step : S → L → S → Prop) : S → List (S × L) → S → Prop where
  | nil : Path Step s [] s
  | cons : Step s l t → Path Step t rest u → Path Step s ((s,l) :: rest) u

/-- Every state a path passes through, the last one included. -/
def states (trace : List (S × L)) (final : S) : List S := trace.map Prod.fst ++ [final]

@[simp] theorem states_nil (final : S) : states ([] : List (S × L)) final = [final] := rfl

@[simp] theorem states_cons (p : S × L) (trace : List (S × L)) (final : S) :
    states (p :: trace) final = p.1 :: states trace final := rfl

theorem final_mem_states (trace : List (S × L)) (final : S) : final ∈ states trace final := by
  simp [states]

theorem Path.starts (path : Path Step s trace u) : (states trace u).head? = some s := by
  cases path <;> rfl

theorem Path.single (step : Step s l t) : Path Step s [(s,l)] t := .cons step .nil

theorem Path.append (first : Path Step s xs t) (second : Path Step t ys u) :
    Path Step s (xs ++ ys) u := by
  induction first with
  | nil => exact second
  | cons step _ ih => exact .cons step (ih second)

theorem Path.snoc (path : Path Step s trace t) (step : Step t l u) :
    Path Step s (trace ++ [(t,l)]) u := path.append (.single step)

theorem Path.of_append (path : Path Step s (xs ++ ys) u) :
    ∃ t, Path Step s xs t ∧ Path Step t ys u := by
  induction xs generalizing s with
  | nil => exact ⟨s,.nil,path⟩
  | cons p xs ih =>
    cases path with
    | cons step rest =>
      obtain ⟨t,first,second⟩ := ih rest
      exact ⟨t,.cons step first,second⟩

theorem Path.at_step (path : Path Step s (before ++ (x,l) :: after) u) :
    ∃ t, Path Step s before x ∧ Step x l t ∧ Path Step t after u := by
  obtain ⟨y,first,second⟩ := path.of_append
  cases second with
  | cons step rest => exact ⟨_,first,step,rest⟩

theorem Path.invariant {P : S → Prop} (preserved : ∀ s l t, P s → Step s l t → P t)
    (path : Path Step s trace u) (initial : P s) : P u := by
  induction path with
  | nil => exact initial
  | cons step _ ih => exact ih (preserved _ _ _ initial step)

/-- A path whose steps all meet a guard is one of the relation that the guard gives. -/
theorem Path.guarded {Step' : S → L → S → Prop} {G : S → L → Prop}
    (stronger : ∀ s l t, Step s l t → G s l → Step' s l t) (path : Path Step s trace u)
    (guarded : ∀ p ∈ trace, G p.1 p.2) : Path Step' s trace u := by
  induction path with
  | nil => exact .nil
  | cons step _ ih =>
    simp only [List.mem_cons,forall_eq_or_imp] at guarded
    exact .cons (stronger _ _ _ step guarded.1) (ih guarded.2)

/-- An invariant that also speaks about the steps taken so far. -/
theorem Path.history {P : List (S × L) → S → Prop}
    (preserved : ∀ trace s l t, P trace s → Step s l t → P (trace ++ [(s,l)]) t)
    (path : Path Step s trace u) (before : List (S × L)) (initial : P before s) : P (before ++ trace) u := by
  induction path generalizing before with
  | nil => simpa using initial
  | @cons s l _ rest _ step _ ih =>
    rw [show before ++ (s,l) :: rest = (before ++ [(s,l)]) ++ rest by simp]
    exact ih (before ++ [(s,l)]) (preserved before s l _ initial step)

/-- The invariant holds in every state such a run passes through. -/
theorem Path.guarded_states {P : S → Prop} {G : S → L → Prop}
    (preserved : ∀ s l t, P s → G s l → Step s l t → P t)
    (path : Path Step s trace u) (guarded : ∀ p ∈ trace, G p.1 p.2) (initial : P s) :
    ∀ x ∈ states trace u, P x := by
  induction path with
  | nil => simpa using initial
  | cons step _ ih =>
    simp only [List.mem_cons,forall_eq_or_imp] at guarded
    simpa using ⟨initial,ih guarded.2 (preserved _ _ _ initial guarded.1 step)⟩

/-- A relation whose steps are answered by steps of another one, with the same labels. -/
theorem Path.simulated {S' : Type w} {Step' : S' → L → S' → Prop} {R : S → S' → Prop} {s' : S'}
    (answered : ∀ s l t s', R s s' → Step s l t → ∃ t', Step' s' l t' ∧ R t t')
    (path : Path Step s trace u) (related : R s s') :
    ∃ trace' u', Path Step' s' trace' u' ∧ trace'.map Prod.snd = trace.map Prod.snd ∧ R u u' := by
  induction path generalizing s' with
  | nil => exact ⟨[],s',.nil,rfl,related⟩
  | @cons s l t rest u step _ ih =>
    obtain ⟨t',step',related'⟩ := answered s l t s' related step
    obtain ⟨trace',u',path',labels,ends⟩ := ih related'
    exact ⟨(s',l) :: trace',u',.cons step' path',by simp [labels],ends⟩

/-- When one step keeps `Q` exactly if it meets the guard, a run stays in `Q`
exactly if all its steps meet the guard. -/
theorem Path.good_iff_guarded {P Q : S → Prop} {G : S → L → Prop}
    (preserved : ∀ s l t, P s → Step s l t → P t)
    (exact : ∀ s l t, P s → Q s → Step s l t → (Q t ↔ G s l))
    (path : Path Step s trace u) (initial : P s) (good : Q s) :
    (∀ x ∈ states trace u, Q x) ↔ ∀ p ∈ trace, G p.1 p.2 := by
  induction path with
  | nil => simpa using good
  | @cons s l t rest u step path ih =>
    have next := exact _ _ _ initial good step
    have inv := preserved _ _ _ initial step
    simp only [states_cons,List.mem_cons,forall_eq_or_imp]
    constructor
    · rintro ⟨_,later⟩
      have head : Q t := by
        cases path with
        | nil => exact later _ (by simp)
        | cons _ _ => exact later _ (by simp)
      exact ⟨next.mp head,(ih inv head).mp later⟩
    · rintro ⟨here,later⟩
      exact ⟨good,(ih inv (next.mpr here)).mpr later⟩

section Functional
variable (next : S → L → Option S)

/-- The trace of the labels up to the first one that is not enabled. -/
def traceOf : S → List L → List (S × L)
  | _, [] => []
  | s, l :: labels =>
    match next s l with
    | none => []
    | some t => (s, l) :: traceOf t labels

def finalOf : S → List L → S
  | s, [] => s
  | s, l :: labels =>
    match next s l with
    | none => s
    | some t => finalOf t labels

theorem path_of_labels (s : S) (labels : List L) :
    Path (fun s l t => next s l = some t) s (traceOf next s labels) (finalOf next s labels) := by
  induction labels generalizing s with
  | nil => exact .nil
  | cons l labels ih =>
    simp only [traceOf,finalOf]
    split
    · exact .nil
    · rename_i t step
      exact .cons step (ih t)

theorem label_of_traceOf {s : S} {labels : List L} (member : p ∈ traceOf next s labels) :
    p.2 ∈ labels := by
  induction labels generalizing s with
  | nil => contradiction
  | cons l labels ih =>
    simp only [traceOf] at member
    split at member
    · contradiction
    · rcases List.mem_cons.mp member with rfl | later
      · exact List.mem_cons_self
      · exact List.mem_cons_of_mem _ (ih later)

end Functional
end Transition
