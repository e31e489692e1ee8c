import DPsim.PythonThreads

/-! What a control call that raises leaves behind. The tests of `start` and `step` come after
the write to `singleStepping`, which the simulation thread reads without the mutex. -/
namespace DPsim.Python

variable {Real σ H : Type} [LinearOrder Real]

/-- The value a call writes to `singleStepping` before it tests the state. -/
def Call.presets (call : Call) (singleStepping : Bool) : Bool :=
  match call with
  | .start => false
  | .step => true
  | .pause | .stop | .dealloc => singleStepping

theorem enter_raises {c : Call} {self : Simulation Real σ H} (raises : (c.enter self).2 = .raises message) :
    (c.enter self).1 = { self with singleStepping := c.presets self.singleStepping } := by
  cases c <;> simp only [Call.enter,Simulation.start,Simulation.step,Simulation.pause,Simulation.stop]
    at raises ⊢
  all_goals repeat' split at raises
  all_goals first
    | contradiction
    | simp_all [Call.presets]

namespace World
open Transition

/-- The world but for the record of the answers, which no action reads. -/
def forget (w : World Real σ H) : World Real σ H := { w with answers := [] }

@[simp] theorem forget_self (w : World Real σ H) : w.forget.self = w.self := rfl
@[simp] theorem forget_threads (w : World Real σ H) : w.forget.threads = w.threads := rfl
@[simp] theorem forget_caller (w : World Real σ H) : w.forget.caller = w.caller := rfl

theorem answer_forget (w : World Real σ H) (answers : List Answer) (c : Call) (a b : Answer) :
    ({ w with answers := answers }.answer c a).forget = (w.answer c b).forget := by
  unfold answer
  split <;> rfl

theorem loop_forget (w : World Real σ H) (answers : List Answer) (c : Call) :
    ({ w with answers := answers }.loop c).forget = (w.loop c).forget := by
  unfold loop
  split
  · rfl
  · exact answer_forget w answers c _ _

variable [Zero Real] {solver : Solver Real σ H}

variable (solver) in
theorem next_forget {w u : World Real σ H} (same : w.forget = u.forget) (a : Action H) :
    (w.next solver a).map forget = (u.next solver a).map forget := by
  have split : w = { u with answers := w.answers } := by
    simp only [forget,World.mk.injEq] at same
    obtain ⟨self,threads,caller,_⟩ := same
    rw [← self,← threads,← caller]
  rw [split]
  generalize w.answers = answers
  cases a with
  | call c =>
    simp only [next,call]
    split
    · rfl
    split
    · rfl
    split
    · exact congrArg some (answer_forget { u with self := _ } answers c _ _)
    · exact congrArg some (loop_forget { u with self := _ } answers c)
    · exact congrArg some (loop_forget (create { u with self := _ }) answers c)
  | wake =>
    simp only [next,wake]
    split
    · split
      · rfl
      · exact congrArg some (answer_forget u answers _ _ _)
    · split <;> rfl
    · rfl
  | thread i input overrun =>
    simp only [next,advance]
    split
    · rfl
    · simp only [Option.map_bind,Option.map_map,Function.comp_def]
      rfl

/-- Every run from `w` is one from `u`: the same actions lead through the same states of the
object, of its threads and of the caller. -/
def Follows (solver : Solver Real σ H) (w u : World Real σ H) : Prop :=
  ∀ trace v, Path (Step solver) w trace v → ∃ trace' v', Path (Step solver) u trace' v' ∧
    trace'.map Prod.snd = trace.map Prod.snd ∧
    (states trace' v').map forget = (states trace v).map forget

theorem follows_of_forget {w u : World Real σ H} (same : w.forget = u.forget) : Follows solver w u := by
  intro trace v path
  induction path generalizing u with
  | nil => exact ⟨[],u,.nil,rfl,by simp [same]⟩
  | @cons w a x rest v moved _ ih =>
    have moves := next_forget solver same a
    rw [show w.next solver a = some x from moved] at moves
    obtain ⟨y,moved',same'⟩ := Option.map_eq_some_iff.mp moves.symm
    obtain ⟨trace',v',path',labels,visited⟩ := ih same'.symm
    exact ⟨(u,a) :: trace',v',.cons moved' path',by simp [labels],by simp [visited,same]⟩

structure Unaffected (solver : Solver Real σ H) (w u : World Real σ H) : Prop where
  state : u.self.state = w.self.state
  singleStepping : u.self.singleStepping = w.self.singleStepping
  thread : u.self.thread = w.self.thread
  channel : u.self.channel = w.self.channel
  after : Follows solver u w
  before : Follows solver w u

theorem call_raised {w u : World Real σ H} {c : Call} (called : w.call c = some u)
    (raised : u.answers = w.answers ++ [Answer.raised message]) :
    u.forget = { w with self := { w.self with
      singleStepping := c.presets w.self.singleStepping } }.forget := by
  have loops (v : World Real σ H) (same : v.answers = w.answers) :
      (v.loop c).answers ≠ w.answers ++ [Answer.raised message] := by
    unfold loop answer
    repeat' split
    all_goals simp [same]
  simp only [call] at called
  split at called
  · contradiction
  rename_i idle
  split at called
  · cases called
    simp at raised
  split at called
  · rename_i raises
    cases called
    rw [← enter_raises raises]
    by_cases last : c = .dealloc
    · simp [answer,last] at raised
    · simp [answer,last,forget,not_not.mp idle]
  · cases called
    exact absurd raised (loops _ rfl)
  · cases called
    exact absurd raised (loops _ rfl)

/-- A control call that raises has no effect exactly if `start` is refused with
`singleStepping` unset, `step` with it set, or it is another call. -/
theorem refused_unaffected_iff {w u : World Real σ H} {c : Call} (called : w.call c = some u)
    (raised : u.answers = w.answers ++ [.raised message]) :
    Unaffected solver w u ↔
      (c = .start → w.self.singleStepping = false) ∧ (c = .step → w.self.singleStepping = true) := by
  have left := call_raised called raised
  have written : u.self = { w.self with singleStepping := c.presets w.self.singleStepping } :=
    congrArg World.self left
  have kept : c.presets w.self.singleStepping = w.self.singleStepping ↔
      (c = .start → w.self.singleStepping = false) ∧ (c = .step → w.self.singleStepping = true) := by
    cases c <;> simp [Call.presets]
  rw [← kept]
  constructor
  · intro unaffected
    have same := unaffected.singleStepping
    rw [written] at same
    exact same
  · intro same
    have self : u.self = w.self := by rw [written,same]
    have alike : u.forget = w.forget := by rw [left,same]
    exact ⟨by rw [self],by rw [self],by rw [self],by rw [self],
      follows_of_forget alike,follows_of_forget alike.symm⟩

def begun : List (Action Nat) := [Action.call .start] ++ acts 7 ++ [Action.wake]

theorem refused_unaffected_iff_begun :
    let w := finalOf (next clock) (initial (clockObject 3)) begun
    ∃ u, w.call .start = some u ∧ u.answers = [.returned,.raised "Simulation already started"] ∧
      Unaffected clock w u := by
  refine ⟨_,rfl,rfl,?_⟩
  exact (refused_unaffected_iff (c := .start) rfl rfl).mpr ⟨fun _ => rfl,by decide⟩

/-- A `step` that is refused while the simulation runs makes it pause. -/
theorem refused_step_pauses :
    let w := finalOf (next clock) (initial (clockObject 3)) begun
    let u := finalOf (next clock) w [.call .step]
    u.answers = w.answers ++ [.raised "Simulation currently running"] ∧
      (finalOf (next clock) w (acts 8)).self.state = .running ∧
      (finalOf (next clock) u (acts 8)).self.state = .paused ∧
      ¬ ∀ trace w, Path (Step clock) (initial (clockObject 3)) trace w →
        ∀ c u message, w.call c = some u → u.answers = w.answers ++ [.raised message] →
          Unaffected clock w u := by
  refine ⟨rfl,rfl,rfl,fun always => ?_⟩
  have unaffected := always _ _ (path_of_labels _ _ begun) .step _ _ rfl rfl
  exact absurd unaffected.singleStepping (by decide)

end World
end DPsim.Python
