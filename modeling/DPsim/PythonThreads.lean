import DPsim.PythonSimulation
import Mathlib.Algebra.GroupWithZero.Nat

/-! Which simulation threads exist in which state, and when there is only one. -/
namespace DPsim.Python

variable {Real σ H : Type}

/-- The thread has not announced its end. -/
def Thread.active (t : Thread Real H) : Bool := t.fresh || t.pc = .toStop

theorem Thread.alive_of_active {t : Thread Real H} (active : t.active = true) : t.alive = true := by
  rcases Bool.or_eq_true_iff.mp active with fresh | stops
  · exact alive_of_fresh fresh
  · simp [alive,of_decide_eq_true stops]

/-- Only a thread that is alive acts. -/
theorem Thread.Moved.alive [LinearOrder Real] {self self' : Simulation Real σ H}
    {t t' : Thread Real H} (moved : Moved self self' t t') : t.alive = true := by
  cases moved with
  | continues before | reports before => exact alive_of_fresh before
  | returns before => rcases before with at_ | at_ <;> simp [Thread.alive,at_]
  | pauses before | obeys before | stops before | finishes before => simp [Thread.alive,before]

namespace World
open Transition

variable [LinearOrder Real]

/-- Some thread has the property. -/
def Has (w : World Real σ H) (p : Thread Real H → Bool) : Prop :=
  ∃ (i : Nat) (t : Thread Real H), w.threads[i]? = some t ∧ p t = true

theorem Has.mono {w : World Real σ H} {p q : Thread Real H → Bool} (has : w.Has p)
    (weaker : ∀ t, p t = true → q t = true) : w.Has q := by
  obtain ⟨i,t,at_,holds⟩ := has
  exact ⟨i,t,at_,weaker t holds⟩

theorem Has.same {w u : World Real σ H} {p : Thread Real H → Bool} (has : w.Has p)
    (threads : u.threads = w.threads) : u.Has p := by
  obtain ⟨i,t,at_,holds⟩ := has
  exact ⟨i,t,threads ▸ at_,holds⟩

/-- The thread that has just been created. -/
theorem has_created [Zero Real] {w u : World Real σ H} {p : Thread Real H → Bool}
    (threads : u.threads = w.threads ++ [Thread.create]) (holds : p .create = true) : u.Has p :=
  ⟨w.threads.length,_,by simp [threads],holds⟩

/-- The thread that has just acted. -/
theorem has_acted {w u : World Real σ H} {p : Thread Real H → Bool} (at_ : w.threads[i]? = some t)
    (threads : u.threads = w.threads.set i t') (holds : p t' = true) : u.Has p := by
  obtain ⟨bound,_⟩ := List.getElem?_eq_some_iff.mp at_
  exact ⟨i,t',by simp [threads,bound],holds⟩

theorem Has.acted {w u : World Real σ H} {p : Thread Real H → Bool} (has : w.Has p)
    (at_ : w.threads[i]? = some t) (threads : u.threads = w.threads.set i t')
    (kept : p t = true → p t' = true) : u.Has p := by
  obtain ⟨j,v,here,holds⟩ := has
  by_cases same : i = j
  · subst same
    obtain rfl : t = v := Option.some.inj (at_.symm.trans here)
    exact has_acted at_ threads (kept holds)
  · exact ⟨j,v,by rw [threads,List.getElem?_set_ne same]; exact here,holds⟩

/-- In these states a thread is there that will go on with the loop or obey a request. -/
structure Manned (w : World Real σ H) : Prop where
  fresh : w.self.state ≠ .stopped → w.self.state ≠ .done → w.self.state ≠ .stopping →
    w.Has Thread.fresh
  active : w.self.state = .stopping → w.Has Thread.active

theorem Manned.has_active {w : World Real σ H} (manned : Manned w) (stopped : w.self.state ≠ .stopped)
    (done : w.self.state ≠ .done) : w.Has Thread.active := by
  by_cases stopping : w.self.state = .stopping
  · exact manned.active stopping
  · exact (manned.fresh stopped done stopping).mono fun t fresh => by simp [Thread.active,fresh]

theorem Manned.same {w u : World Real σ H} (manned : Manned w) (state : u.self.state = w.self.state)
    (threads : u.threads = w.threads) : Manned u :=
  ⟨fun a b c => (manned.fresh (state ▸ a) (state ▸ b) (state ▸ c)).same threads,
    fun a => (manned.active (state ▸ a)).same threads⟩

theorem advance_manned {solver : Solver Real σ H} {w u : World Real σ H} (manned : Manned w)
    (advanced : w.advance solver i input overrun = some u) : Manned u := by
  obtain ⟨_,_,t,t',at_,threads,moved⟩ := advance_moved advanced
  cases moved with
  | continues before after _ state | reports before after _ state =>
    have here : u.Has Thread.fresh := has_acted at_ threads after
    exact ⟨fun _ _ _ => here,fun _ => here.mono fun t fresh => by simp [Thread.active,fresh]⟩
  | pauses before after state =>
    have here : u.Has Thread.fresh := has_acted at_ threads (by simp [Thread.fresh,after])
    exact ⟨fun _ _ _ => here,fun other => by simp [state] at other⟩
  | obeys before after requested state =>
    refine ⟨fun _ _ other => absurd (state.trans requested) other,fun _ => ?_⟩
    exact has_acted at_ threads (by simp [Thread.active,after])
  | stops before after state =>
    exact ⟨fun other => absurd state other,fun other => by simp [state] at other⟩
  | finishes before after state =>
    exact ⟨fun _ other => absurd state other,fun other => by simp [state] at other⟩
  | returns before after state =>
    have unfresh : t.fresh = false := by rcases before with at_ | at_ <;> simp [Thread.fresh,at_]
    have inactive : t.active = false := by
      rcases before with at_ | at_ <;> simp [Thread.active,Thread.fresh,at_]
    constructor
    · intro a b c
      exact (manned.fresh (state ▸ a) (state ▸ b) (state ▸ c)).acted at_ threads (by simp [unfresh])
    · intro a
      exact (manned.active (state ▸ a)).acted at_ threads (by simp [inactive])

theorem initial_manned {self : Simulation Real σ H} (stopped : self.state = .stopped) :
    Manned (initial self) :=
  ⟨fun other => absurd stopped other,fun other => by simp [initial,stopped] at other⟩

/-- No two simulation threads are alive. -/
def Single (w : World Real σ H) : Prop :=
  ∀ (i j : Nat) (t u : Thread Real H), w.threads[i]? = some t → w.threads[j]? = some u →
    t.alive = true → u.alive = true → i = j

/-- A call that creates a thread is made in the state `stopped`, when every thread created
earlier has returned. -/
def Orderly (w : World Real σ H) : Action H → Prop
  | .call c => c.creates w.self.state = true →
      w.self.state = .stopped ∧ ∀ t ∈ w.threads, t.alive = false
  | _ => True

instance (w : World Real σ H) : DecidablePred (Orderly w)
  | .call c => inferInstanceAs (Decidable (c.creates w.self.state = true → _))
  | .wake => .isTrue trivial
  | .thread _ _ _ => .isTrue trivial

theorem Single.of_alive {w u : World Real σ H} (single : Single w)
    (before : ∀ (i : Nat) (t' : Thread Real H), u.threads[i]? = some t' → t'.alive = true →
      ∃ t, w.threads[i]? = some t ∧ t.alive = true) : Single u := by
  intro i j t' u' ti uj aliveT aliveU
  obtain ⟨t,hi,ht⟩ := before i t' ti aliveT
  obtain ⟨v,hj,hv⟩ := before j u' uj aliveU
  exact single i j t v hi hj ht hv

theorem advance_single {solver : Solver Real σ H} {w u : World Real σ H} (single : Single w)
    (advanced : w.advance solver i input overrun = some u) : Single u := by
  obtain ⟨_,_,t,t',at_,threads,moved⟩ := advance_moved advanced
  apply single.of_alive
  intro j v here alive
  by_cases same : i = j
  · subst same
    exact ⟨t,at_,moved.alive⟩
  · rw [threads,List.getElem?_set_ne same] at here
    exact ⟨v,here,alive⟩

theorem created_single_iff [Zero Real] {w u : World Real σ H}
    (threads : u.threads = w.threads ++ [Thread.create]) :
    Single u ↔ ∀ t ∈ w.threads, t.alive = false := by
  have new : u.threads[w.threads.length]? = some .create := by simp [threads]
  constructor
  · intro one t member
    by_contra alive
    obtain ⟨i,at_⟩ := List.mem_iff_getElem?.mp member
    have bound := (List.getElem?_eq_some_iff.mp at_).1
    have kept : u.threads[i]? = some t := by
      rw [threads,List.getElem?_append_left bound]
      exact at_
    have := one i w.threads.length t .create kept new (by simpa using alive) rfl
    omega
  · intro none i j v v' hi hj alive alive'
    have last (k : Nat) (x : Thread Real H) (hk : u.threads[k]? = some x) (alive : x.alive = true) :
        k = w.threads.length := by
      have bound := (List.getElem?_eq_some_iff.mp hk).1
      by_contra other
      have before : k < w.threads.length := by simp [threads] at bound; omega
      rw [threads,List.getElem?_append_left before] at hk
      rw [none x (List.mem_of_getElem? hk)] at alive
      contradiction
    exact (last i v hi alive).trans (last j v' hj alive').symm

variable [Zero Real] {solver : Solver Real σ H}

theorem call_manned {w u : World Real σ H} {c : Call} (manned : Manned w)
    (called : Called w u c) : Manned u := by
  cases called with
  | frees _ self threads _ => exact manned.same (by rw [self]) threads
  | raises _ _ state threads => exact manned.same state threads
  | resumes _ _ paused state threads =>
    have here := manned.fresh (by simp [paused]) (by simp [paused]) (by simp [paused])
    exact ⟨fun _ _ _ => here.same threads,fun other => by simp [state] at other⟩
  | pauses running state threads =>
    have here := manned.fresh (by simp [running]) (by simp [running]) (by simp [running])
    exact ⟨fun _ _ _ => here.same threads,fun other => by simp [state] at other⟩
  | stops _ _ active state threads =>
    have here : w.Has Thread.active := by
      rcases active with running | paused
      · exact manned.has_active (by simp [running]) (by simp [running])
      · exact manned.has_active (by simp [paused]) (by simp [paused])
    exact ⟨fun _ _ other => absurd state other,fun _ => here.same threads⟩
  | creates _ _ state threads =>
    exact ⟨fun _ _ _ => has_created threads rfl,fun other => by simp [state] at other⟩

theorem step_manned (w : World Real σ H) (a : Action H) (u : World Real σ H) (manned : Manned w)
    (moved : Step solver w a u) : Manned u := by
  cases a with
  | call c => exact call_manned manned (call_called moved).2
  | wake =>
    obtain ⟨self,threads,_⟩ := wake_woken moved
    exact manned.same (by rw [self]) threads
  | thread => exact advance_manned manned moved

/-- One action leaves a single thread exactly if it creates none beside a live one. -/
theorem step_single_iff (w : World Real σ H) (a : Action H) (u : World Real σ H) (manned : Manned w)
    (single : Single w) (moved : Step solver w a u) : Single u ↔ Orderly w a := by
  have kept (threads : u.threads = w.threads) : Single u :=
    single.of_alive fun i t here alive => ⟨t,threads ▸ here,alive⟩
  cases a with
  | wake =>
    obtain ⟨_,threads,_⟩ := wake_woken moved
    exact iff_of_true (kept threads) trivial
  | thread => exact iff_of_true (advance_single single moved) trivial
  | call c =>
    cases (call_called moved).2 with
    | frees _ _ threads => exact iff_of_true (kept threads) (by simp [Orderly,Call.creates])
    | raises _ old _ threads => exact iff_of_true (kept threads) (by simp [Orderly,old])
    | resumes _ either paused _ threads =>
      apply iff_of_true (kept threads)
      rcases either with rfl | rfl <;> simp [Orderly,Call.creates,paused]
    | pauses _ _ threads => exact iff_of_true (kept threads) (by simp [Orderly,Call.creates])
    | stops _ either _ _ threads =>
      apply iff_of_true (kept threads)
      rcases either with rfl | rfl <;> simp [Orderly,Call.creates]
    | creates _ new _ threads =>
      rw [created_single_iff threads]
      refine ⟨fun none _ => ⟨?_,none⟩,fun orderly => (orderly new).2⟩
      by_contra started
      have done : w.self.state ≠ .done := by
        intro done
        cases c <;> simp [Call.creates,done] at new
      obtain ⟨i,t,at_,active⟩ := manned.has_active started done
      have dead := none t (List.mem_of_getElem? at_)
      simp [Thread.alive_of_active active] at dead

/-- At most one thread is alive throughout a run exactly if every call that creates a thread
finds the state `stopped` and all earlier threads returned. -/
theorem single_worker_iff_orderly (sim : DPsim.Simulation Real σ H)
    (realTime startSync failOnOverrun singleStepping : Bool)
    (path : Path (Step solver)
      (initial (Simulation.init sim realTime startSync failOnOverrun singleStepping)) trace w) :
    (∀ x ∈ states trace w, Single x) ↔ ∀ p ∈ trace, Orderly p.1 p.2 :=
  path.good_iff_guarded step_manned step_single_iff (initial_manned rfl) (by simp [Single,initial])

/-- A simulation of two steps, and what its threads receive. -/
def clock : Solver Nat Unit Nat := ⟨fun time _ h => .ok (time + 1,(),h)⟩

def clockObject (finalTime : Nat) : Simulation Nat Unit Nat :=
  Simulation.init ⟨0,finalTime,0,(),EventQueue.empty,[],[],0⟩ false false false false

def quiet : Inputs Nat := ⟨fun _ _ h => .ok h⟩

/-- The thread created first takes so many actions. -/
def acts (n : Nat) : List (Action Nat) := List.replicate n (.thread 0 quiet false)

/-- `step` returns in the state `starting`; a `start` then creates a second thread. -/
theorem step_then_start_two_threads :
    (finalOf (next clock) (initial (clockObject 2)) [.call .step,.call .start]).threads =
        [.create,.create] ∧
      ¬ ∀ trace w, Path (Step clock) (initial (clockObject 2)) trace w → Single w := by
  refine ⟨rfl,fun always => ?_⟩
  have single := always _ _ (path_of_labels (next clock) (initial (clockObject 2))
    [.call .step,.call .start])
  exact absurd (single 0 1 .create .create rfl rfl rfl rfl) (by decide)

/-- Started, stopped, and started again once the first thread has returned. -/
def restarted : List (Action Nat) :=
  [Action.call .start] ++ acts 7 ++ [Action.wake,.call .stop] ++ acts 5 ++ [Action.wake,.call .start]

theorem single_worker_iff_orderly_restarted :
    (∀ x ∈ states (traceOf (next clock) (initial (clockObject 2)) restarted)
        (finalOf (next clock) (initial (clockObject 2)) restarted), Single x) ∧
      (finalOf (next clock) (initial (clockObject 2)) restarted).threads.map Thread.alive =
        [false,true] :=
  ⟨(single_worker_iff_orderly _ false false false false
      (path_of_labels (next clock) (initial (clockObject 2)) restarted)).mpr (by decide),by decide⟩

end World
end DPsim.Python
