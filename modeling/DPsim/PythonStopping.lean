import DPsim.PythonThreads

/-! What happens after a `stop` that has returned. The state is then `stopped`, as it is before
the first `start`, and `start` and `step` cannot tell the two apart. -/
namespace DPsim.Python.World
open Transition

variable {Real σ H : Type} [LinearOrder Real]

/-- The state is `stopped`, and no thread will go on with its loop or obey a request. -/
structure Ended (w : World Real σ H) : Prop where
  state : w.self.state = .stopped
  threads : ∀ t ∈ w.threads, t.active = false

/-- With one live thread, the state `stopped` is written by the last action in its loop. -/
structure Supervised (w : World Real σ H) : Prop where
  manned : Manned w
  single : Single w
  ended : w.self.state = .stopped → ∀ t ∈ w.threads, t.active = false

theorem advance_ended {solver : Solver Real σ H} {w u : World Real σ H} (ended : Ended w)
    (advanced : w.advance solver i input overrun = some u) : Ended u := by
  obtain ⟨_,_,t,t',at_,threads,moved⟩ := advance_moved advanced
  have inactive := ended.threads t (List.mem_of_getElem? at_)
  have idle (p : t.pc = .toPause ∨ t.pc = .checkStopping ∨ t.pc = .toStop ∨ t.pc = .finishing) :
      False := by
    rcases p with p | p | p | p <;> simp [Thread.active,Thread.fresh,p] at inactive
  cases moved with
  | continues before | reports before => simp [Thread.active,before] at inactive
  | pauses before => exact absurd (.inl before) idle
  | obeys before => exact absurd (.inr (.inl before)) idle
  | stops before => exact absurd (.inr (.inr (.inl before))) idle
  | finishes before => exact absurd (.inr (.inr (.inr before))) idle
  | returns _ after state =>
    refine ⟨state.trans ended.state,fun x member => ?_⟩
    rw [threads] at member
    rcases List.mem_or_eq_of_mem_set member with old | rfl
    · exact ended.threads x old
    · by_contra active
      simp [Thread.alive_of_active (by simpa using active)] at after

theorem advance_supervised {solver : Solver Real σ H} {w u : World Real σ H} (supervised : Supervised w)
    (advanced : w.advance solver i input overrun = some u) : Supervised u := by
  refine ⟨advance_manned supervised.manned advanced,advance_single supervised.single advanced,?_⟩
  intro stopped
  by_cases already : w.self.state = .stopped
  · exact (advance_ended ⟨already,supervised.ended already⟩ advanced).threads
  obtain ⟨_,_,t,t',at_,threads,moved⟩ := advance_moved advanced
  cases moved with
  | continues _ _ _ state | obeys _ _ _ state | returns _ _ state => exact absurd (state ▸ stopped) already
  | reports _ _ _ state => rcases state with state | state <;> simp [state] at stopped
  | pauses _ _ state | finishes _ _ state => simp [state] at stopped
  | stops before after =>
    intro x member
    by_contra active
    have alive := Thread.alive_of_active (by simpa using active : x.active = true)
    obtain ⟨j,here⟩ := List.mem_iff_getElem?.mp member
    by_cases same : i = j
    · subst same
      rw [threads,List.getElem?_set_self (List.getElem?_eq_some_iff.mp at_).1] at here
      cases here
      simp [Thread.active,Thread.fresh,after] at active
    · rw [threads,List.getElem?_set_ne same] at here
      exact same (supervised.single i j t x at_ here (by simp [Thread.alive,before]) alive)

theorem Ended.still {w : World Real σ H} (ended : Ended w) : ∀ t ∈ w.threads, t.pc ≠ .stepping := by
  intro t member stepping
  have inactive := ended.threads t member
  simp [Thread.active,Thread.fresh,stepping] at inactive

variable [Zero Real] {solver : Solver Real σ H}

theorem step_supervised (w : World Real σ H) (a : Action H) (u : World Real σ H)
    (supervised : Supervised w) (orderly : Orderly w a) (moved : Step solver w a u) : Supervised u := by
  have manned := step_manned w a u supervised.manned moved
  have single := (step_single_iff w a u supervised.manned supervised.single moved).mpr orderly
  cases a with
  | thread => exact advance_supervised supervised moved
  | wake =>
    obtain ⟨self,threads,_⟩ := wake_woken moved
    exact ⟨manned,single,by rw [self,threads]; exact supervised.ended⟩
  | call c =>
    refine ⟨manned,single,fun stopped => ?_⟩
    cases (call_called moved).2 with
    | frees _ self threads => rw [threads]; exact supervised.ended (self ▸ stopped)
    | raises _ _ state threads => rw [threads]; exact supervised.ended (state ▸ stopped)
    | resumes _ _ _ state | pauses _ state | stops _ _ _ state | creates _ _ state =>
      simp [state] at stopped

theorem step_ended {w u : World Real σ H} {a : Action H} (ended : Ended w)
    (other : a ≠ .call .start ∧ a ≠ .call .step) (moved : Step solver w a u) : Ended u := by
  cases a with
  | thread => exact advance_ended ended moved
  | wake =>
    obtain ⟨self,threads,_⟩ := wake_woken moved
    exact ⟨by rw [self]; exact ended.state,by rw [threads]; exact ended.threads⟩
  | call c =>
    cases (call_called moved).2 with
    | frees _ self threads => exact ⟨by rw [self]; exact ended.state,by rw [threads]; exact ended.threads⟩
    | raises _ _ state threads => exact ⟨state.trans ended.state,by rw [threads]; exact ended.threads⟩
    | resumes _ _ paused => simp [ended.state] at paused
    | pauses running => simp [ended.state] at running
    | stops _ _ active => simp [ended.state] at active
    | creates _ new => cases c <;> simp [Call.creates] at new other

def Raises (w : World Real σ H) (c : Call) : Prop :=
  ∃ u message, w.call c = some u ∧ u.answers = w.answers ++ [Answer.raised message]

/-- No thread comes to call `Simulation::step` any more, and every control call raises. -/
structure Final (after : List (World Real σ H × Action H)) (w : World Real σ H) : Prop where
  steps : ∀ x ∈ states after w, ∀ t ∈ x.threads, t.pc ≠ .stepping
  raises : ∀ p ∈ after, ∀ c, p.2 = .call c → c ≠ .dealloc → Raises p.1 c

theorem Ended.raises_iff {w : World Real σ H} {c : Call} (ended : Ended w)
    (called : w.call c = some u) (last : c ≠ .dealloc) :
    Raises w c ↔ c ≠ .start ∧ c ≠ .step := by
  have idle := (call_called called).1
  have stopped := ended.state
  cases c with
  | dealloc => contradiction
  | pause | stop =>
    simp [Raises,call,idle,Call.enter,Simulation.pause,Simulation.stop,stopped,answer]
  | start | step =>
    simp [Raises,call,idle,Call.enter,Simulation.start,Simulation.step,stopped,loop,create,
      Call.keepsWaiting,answer]

/-- After a `stop` that has returned in a run in which threads were created one after another,
no step is executed and every call raises exactly if neither `start` nor `step` is called. -/
theorem stop_final_iff (sim : DPsim.Simulation Real σ H)
    (realTime startSync failOnOverrun singleStepping : Bool)
    (path : Path (Step solver)
      (initial (Simulation.init sim realTime startSync failOnOverrun singleStepping))
      (before ++ (x,.wake) :: after) w)
    (orderly : ∀ p ∈ before, Orderly p.1 p.2) (returned : x.caller = .waiting .stop) :
    Final after w ↔ ∀ p ∈ after, p.2 ≠ .call .start ∧ p.2 ≠ .call .step := by
  obtain ⟨y,first,woken,rest⟩ := path.at_step
  have supervised : Supervised x :=
    first.guarded_states step_supervised orderly
      ⟨initial_manned rfl,by simp [Single,initial],by simp [initial]⟩ x (final_mem_states before x)
  have ended : Ended y := by
    obtain ⟨self,threads,caller⟩ := wake_woken woken
    have stopped : x.self.state = .stopped := by
      rcases caller with ⟨c,waiting,met,_⟩ | ⟨joining,_⟩
      · rw [returned] at waiting
        cases waiting
        simpa [Call.keepsWaiting] using met
      · simp [returned] at joining
    exact ⟨by rw [self]; exact stopped,by rw [threads]; exact supervised.ended stopped⟩
  clear path first woken supervised returned orderly
  induction rest with
  | nil => exact iff_of_true ⟨by simpa using ended.still,by simp⟩ (by simp)
  | @cons y a z rest w moved _ ih =>
    have head (other : a ≠ .call .start ∧ a ≠ .call .step) :
        Final ((y,a) :: rest) w ↔ Final rest w := by
      constructor
      · intro final
        exact ⟨fun v member => final.steps v (by simp [member]),
          fun p member => final.raises p (by simp [member])⟩
      · intro final
        refine ⟨?_,?_⟩
        · simpa using ⟨ended.still,final.steps⟩
        · intro p member c called last
          rcases List.mem_cons.mp member with rfl | later
          · have calls : y.call c = some z := by
              rw [show a = .call c from called] at moved
              exact moved
            refine (ended.raises_iff calls last).mpr ⟨?_,?_⟩
            · rintro rfl
              exact other.1 called
            · rintro rfl
              exact other.2 called
          · exact final.raises p later c called last
    simp only [List.mem_cons,forall_eq_or_imp]
    by_cases other : a ≠ .call .start ∧ a ≠ .call .step
    · have later := (head other).trans (ih (step_ended ended other moved))
      exact later.trans ⟨fun all => ⟨other,all⟩,And.right⟩
    · refine iff_of_false (fun final => ?_) (fun all => other all.1)
      have none (c : Call) (called : a = .call c) (last : c ≠ .dealloc) : c ≠ .start ∧ c ≠ .step := by
        rw [called] at moved
        exact (ended.raises_iff moved last).mp (final.raises _ List.mem_cons_self c called last)
      rcases not_and_or.mp other with starts | steps
      · exact (none .start (not_not.mp starts) (by simp)).1 rfl
      · exact (none .step (not_not.mp steps) (by simp)).2 rfl

def stopRequested : List (Action Nat) :=
  [Action.call .start] ++ acts 7 ++ [Action.wake,.call .stop] ++ acts 5

theorem stop_final_iff_paused :
    let x := finalOf (next clock) (initial (clockObject 2)) stopRequested
    let y := finalOf (next clock) x [.wake]
    Final (traceOf (next clock) y [.call .pause]) (finalOf (next clock) y [.call .pause]) := by
  intro x y
  have path : Path (Step clock) (initial (clockObject 2))
      (traceOf (next clock) (initial (clockObject 2)) stopRequested ++
        (x,.wake) :: traceOf (next clock) y [.call .pause])
      (finalOf (next clock) y [.call .pause]) :=
    path_of_labels _ _ (stopRequested ++ [Action.wake,.call .pause])
  apply (stop_final_iff _ false false false false path (by decide) rfl).mpr
  have single : traceOf (next clock) y [.call .pause] = [(y,.call .pause)] := rfl
  simp [single]

/-- A `start` after the `stop` is accepted, and the new thread executes a step. -/
theorem restart_after_stop :
    let x := finalOf (next clock) (initial (clockObject 2)) stopRequested
    let y := finalOf (next clock) x [.wake]
    let again := [.call .start] ++ List.replicate 4 (.thread 1 quiet false)
    y.answers = [.returned,.returned] ∧
      (finalOf (next clock) y again).self.sim.mTimeStepCount = y.self.sim.mTimeStepCount + 1 ∧
      ¬ ∀ before x after w, Path (Step clock) (initial (clockObject 2)) (before ++ (x,.wake) :: after) w →
        x.caller = .waiting .stop → Final after w := by
  intro x y again
  refine ⟨rfl,rfl,fun always => ?_⟩
  have path : Path (Step clock) (initial (clockObject 2))
      (traceOf (next clock) (initial (clockObject 2)) stopRequested ++
        (x,.wake) :: traceOf (next clock) y again) (finalOf (next clock) y again) :=
    path_of_labels _ _ (stopRequested ++ [Action.wake] ++ again)
  obtain ⟨_,_,called,raised⟩ := (always _ _ _ _ path rfl).raises _ List.mem_cons_self .start rfl (by simp)
  cases called
  have kept : [Answer.returned,.returned] = [Answer.returned,.returned] ++ [Answer.raised _] := raised
  simp at kept

end DPsim.Python.World
