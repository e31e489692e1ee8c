import DPsim.PythonThreads

/-! What a run does after an overrun with `failOnOverrun`. The handler writes the state and
falls through to the tests of the loop, so the thread goes on as before. -/
namespace DPsim.Python.World
open Transition

variable {Real σ H : Type} [LinearOrder Real]

/-- The thread `i` has come to call `Simulation::step`, or the state is one that a failed
simulation does not take. -/
def Recovers (i : Nat) (w : World Real σ H) : Prop :=
  (∃ t, w.threads[i]? = some t ∧ t.pc = .stepping) ∨ w.self.state = .running ∨
    w.self.state = .paused ∨ w.self.state = .resuming ∨ w.self.state = .done

/-- How many more actions the thread needs at most to recover. -/
def Pc.left : Pc → Nat
  | .checkFirst => 6
  | .checkPausing => 5
  | .checkSingle => 4
  | .checkStopping => 3
  | .head => 2
  | .firstRunning | .toPause | .finishing => 1
  | _ => 0

/-- A state the simulation can be in between an overrun and its recovery: the requests that
are answered in the loop need a state that it no longer takes. -/
def Aground (s : State) : Prop := s = .overrun ∨ s = .starting ∨ s = .stopped

/-- The thread `i` has left the overrun behind and recovers within `n` actions. -/
structure Recovering (i n : Nat) (w : World Real σ H) : Prop where
  state : Aground w.self.state
  thread : ∃ t, w.threads[i]? = some t ∧ 0 < Pc.left t.pc ∧ Pc.left t.pc ≤ n

theorem act_recovers (solver : Solver Real σ H) {self : Simulation Real σ H} {t : Thread Real H}
    (aground : Aground self.state) (left : 0 < Pc.left t.pc) (input : Inputs H) (overrun : Bool) :
    ∃ self' t', t.act solver self input overrun = some (self', t') ∧
      (t'.pc = .stepping ∨ self'.state = .running ∨ self'.state = .paused ∨ self'.state = .done ∨
        (self'.state = self.state ∧ 0 < Pc.left t'.pc ∧ Pc.left t'.pc < Pc.left t.pc)) := by
  have unasked : self.state ≠ .pausing ∧ self.state ≠ .stopping := by
    rcases aground with s | s | s <;> simp [s]
  cases at_ : t.pc with
  | head | checkFirst | checkSingle =>
    refine ⟨_,_,by rw [Thread.act,at_],?_⟩
    split <;> simp [Pc.left]
  | checkPausing | checkStopping => simp [Thread.act,at_,unasked,Pc.left]
  | firstRunning | toPause | finishing => simp [Thread.act,at_]
  | _ => simp [at_,Pc.left] at left

theorem call_recovering [Zero Real] {w u : World Real σ H} {c : Call} (recovering : Recovering i n w)
    (called : Called w u c) : Recovering i n u := by
  obtain ⟨state,t,at_,left⟩ := recovering
  cases called with
  | frees _ self threads => exact ⟨self ▸ state,t,threads ▸ at_,left⟩
  | raises _ _ same threads => exact ⟨same ▸ state,t,threads ▸ at_,left⟩
  | resumes _ _ paused => rcases state with s | s | s <;> simp [s] at paused
  | pauses running => rcases state with s | s | s <;> simp [s] at running
  | stops _ _ active => rcases state with s | s | s <;> simp [s] at active
  | creates _ _ new threads =>
    have bound := (List.getElem?_eq_some_iff.mp at_).1
    refine ⟨.inr (.inl new),t,?_,left⟩
    rw [threads,List.getElem?_append_left bound]
    exact at_

theorem other_recovering {solver : Solver Real σ H} {w u : World Real σ H}
    (recovering : Recovering i n w) (advanced : w.advance solver j input overrun = some u)
    (other : j ≠ i) (fine : ¬ Recovers i u) : Recovering i n u := by
  obtain ⟨state,t,at_,left⟩ := recovering
  obtain ⟨_,_,v,v',_,threads,moved⟩ := advance_moved advanced
  refine ⟨?_,t,by rw [threads,List.getElem?_set_ne other]; exact at_,left⟩
  simp only [Recovers,not_or] at fine
  cases moved with
  | continues _ _ _ same | obeys _ _ _ same | returns _ _ same => exact same ▸ state
  | reports _ _ _ same => exact same.elim (fun running => absurd running fine.2.1) .inl
  | pauses _ _ same => exact absurd same fine.2.2.1
  | stops _ _ same => exact .inr (.inr same)
  | finishes _ _ same => exact absurd same fine.2.2.2.2

theorem self_recovering {solver : Solver Real σ H} {w u : World Real σ H} (recovering : Recovering i (n + 1) w)
    (advanced : w.advance solver i input overrun = some u) (fine : ¬ Recovers i u) :
    Recovering i n u := by
  obtain ⟨state,t,at_,left,most⟩ := recovering
  have bound := (List.getElem?_eq_some_iff.mp at_).1
  obtain ⟨self',t',acted,outcome⟩ := act_recovers solver state left input overrun
  unfold advance at advanced
  split at advanced
  · contradiction
  simp only [at_,Option.bind_some,acted,Option.map_some,Option.some.injEq] at advanced
  subst advanced
  have here : (w.threads.set i t')[i]? = some t' := List.getElem?_set_self bound
  simp only [Recovers,not_or] at fine
  obtain ⟨steps,running,paused,_,done⟩ := fine
  rcases outcome with stepping | bad | bad | bad | ⟨same,positive,less⟩
  · exact absurd ⟨t',here,stepping⟩ steps
  · exact absurd bad running
  · exact absurd bad paused
  · exact absurd bad done
  · exact ⟨by rw [show self'.state = w.self.state from same]; exact state,t',here,positive,by omega⟩

variable [Zero Real] {solver : Solver Real σ H}

def actions (i : Nat) (trace : List (World Real σ H × Action H)) : Nat :=
  trace.countP fun | (_, .thread j _ _) => j = i | _ => false

theorem recovers_of_actions (path : Path (Step solver) w trace v) (recovering : Recovering i n w)
    (enough : n ≤ actions i trace) : ∃ x ∈ states trace v, Recovers i x := by
  by_contra some
  have none : ∀ x ∈ states trace v, ¬ Recovers i x := fun x member bad => some ⟨x,member,bad⟩
  clear some
  induction path generalizing n with
  | nil =>
    obtain ⟨_,_,_,positive,most⟩ := recovering
    simp [actions] at enough
    omega
  | @cons w a u rest v moved path ih =>
    have later : ∀ x ∈ states rest v, ¬ Recovers i x := fun x member => none x (by simp [member])
    have fine : ¬ Recovers i u := by
      cases path with
      | nil => exact later _ (by simp)
      | cons _ _ => exact later _ (by simp)
    cases a with
    | call c => exact ih (call_recovering recovering (call_called moved).2) enough later
    | wake =>
      obtain ⟨self,threads,_⟩ := wake_woken moved
      exact ih ⟨self ▸ recovering.state,threads ▸ recovering.thread⟩ enough later
    | thread j input overrun =>
      by_cases same : j = i
      · subst same
        have positive : 0 < n := by
          obtain ⟨_,_,_,positive,most⟩ := recovering
          omega
        obtain ⟨m,rfl⟩ : ∃ m, n = m + 1 := ⟨n - 1,by omega⟩
        refine ih (self_recovering recovering moved fine) ?_ later
        simpa [actions] using enough
      · refine ih (other_recovering recovering moved same fine) ?_ later
        simpa [actions,same] using enough

theorem recovers_alone (solver : Solver Real σ H) {w : World Real σ H} (recovering : Recovering i n w)
    (present : w.caller ≠ .freed) (input : Inputs H) : ∃ trace v, Path (Step solver) w trace v ∧ Recovers i v := by
  induction n generalizing w with
  | zero =>
    obtain ⟨_,_,_,positive,most⟩ := recovering
    omega
  | succ n ih =>
    obtain ⟨t,at_,left,_⟩ := recovering.thread
    obtain ⟨self',t',acted,_⟩ := act_recovers solver recovering.state left input false
    have moved : Step solver w (.thread i input false) { w with
        self := self'
        threads := w.threads.set i t' } := by
      simp [Step,next,advance,present,at_,acted]
    by_cases recovered : Recovers i { w with
        self := self'
        threads := w.threads.set i t' }
    · exact ⟨_,_,.single moved,recovered⟩
    · obtain ⟨trace,v,path,bad⟩ := ih (self_recovering recovering moved recovered) present
      exact ⟨_,_,.cons moved path,bad⟩

/-- What an overrun of thread `i` that is to fail the simulation leaves open. -/
structure Fails (solver : Solver Real σ H) (i : Nat) (u : World Real σ H) : Prop where
  /-- No step is executed, and the state is never again that of a simulation that goes on. -/
  ever : ∀ trace v, Path (Step solver) u trace v → ¬ Recovers i v
  /-- A request that is pending is still answered. -/
  answered : ∀ trace v, Path (Step solver) u trace v → ∀ c, (c = .pause ∨ c = .stop) →
    v.caller = .waiting c → ∃ trace' x, Path (Step solver) v trace' x ∧ x.caller ≠ .waiting c

/-- No overrun fails the simulation: the thread recovers when left alone, and in every run in
which it acts six more times. -/
theorem overrun_never_fails (w u : World Real σ H) (input : Inputs H) (overrun : Bool)
    (at_ : w.threads[i]? = some t) (caught : t.pc = .overrunning) (fail : w.self.failOnOverrun = true)
    (moved : Step solver w (.thread i input overrun) u) :
    ¬ Fails solver i u ∧ ∀ trace v, Path (Step solver) u trace v → 6 ≤ actions i trace →
      ∃ x ∈ states trace v, Recovers i x := by
  have present := (advance_moved moved).2.1
  have bound := (List.getElem?_eq_some_iff.mp at_).1
  have recovering : Recovering i 6 u ∧ u.caller = w.caller := by
    have acted : t.act solver w.self input overrun =
        some (w.self.newState .overrun,t.goto .checkFirst) := by
      simp [Thread.act,caught,fail]
    simp only [Step,next,advance,present,if_false,at_,Option.bind_some,acted,Option.map_some,
      Option.some.injEq] at moved
    subst moved
    exact ⟨⟨.inl rfl,_,List.getElem?_set_self bound,by simp [Pc.left]⟩,rfl⟩
  obtain ⟨recovering,caller⟩ := recovering
  refine ⟨fun fails => ?_,fun trace v path enough => recovers_of_actions path recovering enough⟩
  obtain ⟨trace,v,path,bad⟩ := recovers_alone solver recovering (caller ▸ present) input
  exact fails.ever trace v path bad

/-- A real-time simulation of three steps with `failOnOverrun`. -/
def realTimeObject : Simulation Nat Unit Nat :=
  Simulation.init ⟨0,3,0,(),EventQueue.empty,[],[],0⟩ true false true false

def overrunPausing : List (Action Nat) :=
  [Action.call .start] ++ acts 7 ++ [Action.wake] ++ acts 5 ++ [Action.call .pause,.thread 0 quiet true]

def caught : World Nat Unit Nat := finalOf (next clock) (initial realTimeObject) overrunPausing

def reported : World Nat Unit Nat := finalOf (next clock) caught (acts 1)

def carriedOn : World Nat Unit Nat := finalOf (next clock) reported (acts 14)

theorem overrun_never_fails_pausing : reported.self.state = .overrun ∧ ¬ Fails clock 0 reported := by
  have moved : Step clock caught (.thread 0 quiet false) reported := rfl
  exact ⟨by decide,(overrun_never_fails caught reported quiet false rfl rfl rfl moved).1⟩

/-- The third step is executed after the overrun in the second, the state becomes `done`, and
the pause is never answered. -/
theorem overrun_then_done :
    caught.caller = .waiting .pause ∧ reported.self.state = .overrun ∧
      carriedOn.self.sim.mTimeStepCount = reported.self.sim.mTimeStepCount + 1 ∧
      carriedOn.self.state = .done ∧ carriedOn.caller = .waiting .pause ∧
      (∀ t ∈ carriedOn.threads, t.alive = false) ∧
      ¬ ∀ trace w, Path (Step clock) (initial realTimeObject) trace w →
        ∀ (i : Nat) t u input overrun, w.threads[i]? = some t → t.pc = .overrunning →
          w.self.failOnOverrun = true → Step clock w (.thread i input overrun) u → Fails clock i u := by
  refine ⟨by decide,by decide,by decide,by decide,by decide,by decide,fun always => ?_⟩
  have moved : Step clock caught (.thread 0 quiet false) reported := rfl
  have fails : Fails clock 0 reported :=
    always _ caught (path_of_labels _ _ overrunPausing) 0 _ reported quiet false rfl rfl rfl moved
  have done : carriedOn.self.state = .done := by decide
  exact fails.ever _ _ (path_of_labels _ _ (acts 14)) (.inr (.inr (.inr (.inr done))))

end DPsim.Python.World
