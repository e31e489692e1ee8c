import DPsim.PythonStepping

/-! The life cycle of the Python `Simulation`: which state the object may report after which. The
position of the simulation thread tells the states it can be found in, and with them what it may
report next. -/
namespace DPsim.Python

def State.successors : State → List State
  | .stopped => [.starting]
  | .starting | .overrun => [.running,.overrun,.paused,.done]
  | .running => [.pausing,.stopping,.overrun,.paused,.done]
  | .pausing => [.overrun,.paused,.done]
  | .paused => [.resuming,.stopping]
  | .resuming => [.running]
  | .stopping => [.stopped,.overrun,.paused,.done]
  | .failed | .done => []

def LifeCycle (before report after : State) : Prop := report ∈ before.successors ∧ after = report

variable {Real σ H : Type} [LinearOrder Real]

/-- The states of an object whose thread is neither paused nor about to end. -/
def busy : List State := [.starting,.running,.pausing,.stopping,.overrun]

/-- The states in which a thread can be at this position. -/
def Pc.admits : Pc → List State
  | .firstRunning => [.starting,.overrun]
  | .pausedWait => [.paused,.resuming,.stopping]
  | .toStop => [.stopping]
  | .leaving | .returned .stopped => [.stopped]
  | .closing | .returned .done => [.done]
  | _ => busy

/-- No step before the current one has been executed. -/
def Pc.early (count : Int32) : Pc → Prop
  | .opening | .syncing | .head | .stepping => count = 0
  | .sleeping | .overrunning | .checkFirst => count = 1
  | _ => False

/-- The number of steps that have been executed at this position at least. -/
def Pc.least : Pc → Int
  | .sleeping | .overrunning | .checkFirst | .firstRunning | .checkPausing | .checkSingle | .toPause
  | .pausedWait | .checkStopping => 1
  | _ => 0

/-- The state is one in which the thread can be where it is; up to the end of the first step nothing
but an overrun has been reported since the start. -/
structure Thread.Fits (self : Simulation Real σ H) (t : Thread Real H) : Prop where
  admitted : self.state ∈ t.pc.admits
  early : t.pc.early self.sim.mTimeStepCount → self.state = .starting ∨ self.state = .overrun
  counted : t.pc.least ≤ self.sim.mTimeStepCount.toInt

theorem Thread.Fits.successor {self : Simulation Real σ H} {t : Thread Real H} (fits : t.Fits self)
    {e : State} (announced : t.announces self = some e) : e ∈ self.state.successors := by
  obtain ⟨admitted,_,_⟩ := fits
  cases at_ : t.pc with
  | overrunning | toPause | finishing =>
    simp only [announces,at_] at announced
    simp only [at_,Pc.admits,busy,List.mem_cons,List.not_mem_nil,or_false] at admitted
    rcases admitted with state | state | state | state | state <;> rw [state] <;> simp_all [State.successors]
  | firstRunning =>
    obtain rfl : State.running = e := by simpa [announces,at_] using announced
    simp only [at_,Pc.admits,List.mem_cons,List.not_mem_nil,or_false] at admitted
    rcases admitted with state | state <;> rw [state] <;> decide
  | pausedWait =>
    simp only [announces,at_] at announced
    split at announced
    · rename_i resumed
      obtain rfl := Option.some.inj announced
      rw [resumed]
      decide
    · contradiction
  | toStop =>
    obtain rfl : State.stopped = e := by simpa [announces,at_] using announced
    obtain state : self.state = .stopping := by simpa [at_,Pc.admits] using admitted
    rw [state]
    decide
  | _ => simp [announces,at_] at announced

theorem Thread.Fits.acts {solver : Solver Real σ H} {self self' : Simulation Real σ H} {t t' : Thread Real H}
    (fits : t.Fits self) (below : self.sim.mTimeStepCount.toInt + 1 < 2 ^ 31)
    (acted : t.act solver self input overrun = some (self', t')) :
    t'.Fits self' ∧ self.sim.mTimeStepCount.toInt ≤ self'.sim.mTimeStepCount.toInt := by
  obtain ⟨admitted,early,counted⟩ := fits
  obtain ⟨pc,_,state,steps,quiet⟩ := act_does acted
  -- everything but `Simulation::step` leaves the count as it is
  have moves {p : Pc} {s : State} (other : t.pc ≠ .stepping) (pc : t'.pc = p) (state : self'.state = s)
      (admits : s ∈ p.admits) (early : p.early self.sim.mTimeStepCount → s = .starting ∨ s = .overrun)
      (least : p.least ≤ self.sim.mTimeStepCount.toInt) :
      t'.Fits self' ∧ self.sim.mTimeStepCount.toInt ≤ self'.sim.mTimeStepCount.toInt := by
    obtain ⟨_,_,h,sim⟩ := quiet other
    have same : self'.sim.mTimeStepCount = self.sim.mTimeStepCount := by rw [sim]
    subst pc state
    exact ⟨⟨admits,same ▸ early,same ▸ least⟩,same ▸ le_refl _⟩
  cases at_ : t.pc with
  | stepping =>
    obtain ⟨⟨effects,stepped,_⟩,_⟩ := steps at_
    obtain ⟨_,counts,_⟩ := DPsim.Simulation.step_solved stepped
    have grown : self'.sim.mTimeStepCount.toInt = self.sim.mTimeStepCount.toInt + 1 := by
      rw [counts]
      exact (count_grown_iff _ 1).mpr below
    simp only [target,at_] at pc
    simp only [announces,at_,Option.getD_none] at state
    simp only [at_,Pc.admits,Pc.early,Pc.least] at admitted early counted
    refine ⟨⟨?_,?_,?_⟩,by omega⟩
    · rw [pc,state]
      exact admitted
    · rw [pc,state,Pc.early,counts]
      exact fun first => early ((Int32.add_left_inj 1).mp (first.trans (Int32.zero_add 1).symm))
    · rw [pc,Pc.least]
      omega
  | opening | syncing =>
    simp only [target,at_] at pc
    simp only [announces,at_,Option.getD_none] at state
    rw [at_] at admitted early counted
    exact moves (by simp [at_]) pc state admitted early counted
  | head =>
    simp only [target,at_] at pc
    simp only [announces,at_,Option.getD_none] at state
    rw [at_] at admitted early counted
    split at pc
    · exact moves (by simp [at_]) pc state admitted early counted
    · exact moves (by simp [at_]) pc state admitted False.elim counted
  | sleeping =>
    simp only [target,at_] at pc
    simp only [announces,at_,Option.getD_none] at state
    rw [at_] at admitted early counted
    split at pc <;> exact moves (by simp [at_]) pc state admitted early counted
  | overrunning =>
    simp only [target,at_] at pc
    simp only [announces,at_] at state
    rw [at_] at admitted early counted
    split at state
    · exact moves (by simp [at_]) pc state (show State.overrun ∈ busy by decide) (fun _ => .inr rfl) counted
    · exact moves (by simp [at_]) pc state admitted early counted
  | checkFirst =>
    simp only [target,at_] at pc
    simp only [announces,at_,Option.getD_none] at state
    rw [at_] at admitted early counted
    split at pc
    · rename_i first
      have young := early first
      exact moves (by simp [at_]) pc state (by simpa [Pc.admits] using young) False.elim counted
    · exact moves (by simp [at_]) pc state admitted False.elim counted
  | firstRunning =>
    simp only [target,at_] at pc
    simp only [announces,at_,Option.getD_some] at state
    rw [at_] at counted
    exact moves (by simp [at_]) pc state (by decide) False.elim counted
  | checkPausing | checkSingle =>
    simp only [target,at_] at pc
    simp only [announces,at_,Option.getD_none] at state
    rw [at_] at admitted counted
    split at pc <;> exact moves (by simp [at_]) pc state admitted False.elim counted
  | toPause =>
    simp only [target,at_] at pc
    simp only [announces,at_,Option.getD_some] at state
    rw [at_] at counted
    exact moves (by simp [at_]) pc state (by decide) False.elim counted
  | pausedWait =>
    simp only [target,at_] at pc
    simp only [announces,at_] at state
    rw [at_] at admitted counted
    have unpaused : self.state ≠ .paused := by
      intro paused
      simp [act,at_,paused] at acted
    simp only [Pc.admits,List.mem_cons,List.not_mem_nil,or_false] at admitted
    rcases admitted with paused | resuming | stopping
    · contradiction
    · rw [if_pos resuming] at state
      exact moves (by simp [at_]) pc state (show State.running ∈ busy by decide) False.elim counted
    · rw [if_neg (by simp [stopping])] at state
      exact moves (by simp [at_]) pc (state.trans stopping) (by decide) False.elim counted
  | checkStopping =>
    simp only [target,at_] at pc
    simp only [announces,at_,Option.getD_none] at state
    rw [at_] at admitted counted
    split at pc
    · rename_i requested
      exact moves (by simp [at_]) pc (state.trans requested) (by decide) False.elim (Int.le_of_lt counted)
    · refine moves (by simp [at_]) pc state admitted (fun none => ?_) (Int.le_of_lt counted)
      have begun : (1 : Int) ≤ self.sim.mTimeStepCount.toInt := counted
      rw [show self.sim.mTimeStepCount = 0 from none] at begun
      contradiction
  | toStop =>
    simp only [target,at_] at pc
    simp only [announces,at_,Option.getD_some] at state
    rw [at_] at counted
    exact moves (by simp [at_]) pc state (by decide) False.elim counted
  | finishing =>
    simp only [target,at_] at pc
    simp only [announces,at_,Option.getD_some] at state
    rw [at_] at counted
    exact moves (by simp [at_]) pc state (by decide) False.elim counted
  | leaving | closing =>
    simp only [target,at_] at pc
    simp only [announces,at_,Option.getD_none] at state
    rw [at_] at admitted counted
    exact moves (by simp [at_]) pc state admitted False.elim counted
  | returned exit => simp [act,at_] at acted

/-- What the calls of an object with a live thread do to the state. -/
def asked : List (State × State) :=
  [(.paused,.resuming),(.paused,.stopping),(.running,.pausing),(.running,.stopping)]

theorem Pc.admits_asked : ∀ p ∈ asked, ∀ pc : Pc, p.1 ∈ pc.admits → p.2 ∈ pc.admits := by
  intro p member pc
  simp only [asked,List.mem_cons,List.not_mem_nil,or_false] at member
  rcases member with rfl | rfl | rfl | rfl
  all_goals
    cases pc with
    | returned exit => cases exit <;> decide
    | _ => decide

theorem Thread.Fits.called {self self' : Simulation Real σ H} {t : Thread Real H} (fits : t.Fits self)
    (sim : self'.sim = self.sim) (call : (self.state,self'.state) ∈ asked) : t.Fits self' := by
  obtain ⟨admitted,early,counted⟩ := fits
  refine ⟨Pc.admits_asked _ call t.pc admitted,fun first => ?_,sim ▸ counted⟩
  have old := early (sim ▸ first)
  simp only [asked,List.mem_cons,List.not_mem_nil,or_false,Prod.mk.injEq] at call
  rcases old with state | state <;> simp [state] at call

namespace World
open Transition

/-- The only live thread fits the state, which is where the reports lead. -/
structure Lives (w : World Real σ H) : Prop where
  manned : Manned w
  single : Single w
  counted : 0 ≤ w.self.sim.mTimeStepCount.toInt
  fits : ∀ t ∈ w.threads, t.alive = true → t.Fits w.self
  reports : ∃ trace, Path LifeCycle .stopped trace w.self.state ∧ trace.map Prod.snd = w.self.channel

theorem call_successor {w : World Real σ H} {c : Call} (orderly : Orderly w (.call c)) {e : State}
    (announced : c.announces w.self.state = some e) : e ∈ w.self.state.successors := by
  cases c with
  | start =>
    simp only [Call.announces] at announced
    split at announced
    · contradiction
    · rename_i idle
      split at announced
      · rename_i paused
        obtain rfl := Option.some.inj announced
        rw [paused]
        decide
      · rename_i unpaused
        obtain rfl := Option.some.inj announced
        have creates : Call.start.creates w.self.state = true := by simp [Call.creates,unpaused]; tauto
        rw [(orderly creates).1]
        decide
  | step =>
    simp only [Call.announces] at announced
    split at announced
    · rename_i stopped
      obtain rfl := Option.some.inj announced
      rw [stopped]
      decide
    · split at announced
      · rename_i paused
        obtain rfl := Option.some.inj announced
        rw [paused]
        decide
      · contradiction
  | pause =>
    simp only [Call.announces] at announced
    split at announced
    · rename_i running
      obtain rfl := Option.some.inj announced
      rw [running]
      decide
    · contradiction
  | stop | dealloc =>
    simp only [Call.announces] at announced
    split at announced
    · rename_i active
      obtain rfl := Option.some.inj announced
      rcases active with running | paused
      · rw [running]; decide
      · rw [paused]; decide
    · contradiction

variable [Zero Real] {solver : Solver Real σ H}

theorem step_successor {w u : World Real σ H} {a : Action H} (lives : Lives w) (orderly : Orderly w a)
    (moved : Step solver w a u) {e : State} (announced : w.announces a = some e) :
    e ∈ w.self.state.successors := by
  cases a with
  | call c =>
    simp only [announces] at announced
    split at announced
    · contradiction
    · exact call_successor orderly announced
  | wake => contradiction
  | thread i input overrun =>
    obtain ⟨t,at_,announced⟩ := Option.bind_eq_some_iff.mp announced
    obtain ⟨_,_,v,t',there,_,moved⟩ := advance_moved moved
    obtain rfl := Option.some.inj (at_.symm.trans there)
    exact (lives.fits t (List.mem_of_getElem? at_) moved.alive).successor announced

theorem step_fits {w u : World Real σ H} {a : Action H} (lives : Lives w) (orderly : Orderly w a)
    (below : w.self.sim.mTimeStepCount.toInt + 1 < 2 ^ 31) (moved : Step solver w a u) :
    0 ≤ u.self.sim.mTimeStepCount.toInt ∧ ∀ t ∈ u.threads, t.alive = true → t.Fits u.self := by
  cases a with
  | call c =>
    have sim := (call_kept moved).1
    refine ⟨sim ▸ lives.counted,fun t member alive => ?_⟩
    have kept (threads : u.threads = w.threads) : t.Fits w.self := lives.fits t (threads ▸ member) alive
    cases (call_called moved).2 with
    | frees _ self threads => exact self ▸ kept threads
    | raises _ _ state threads =>
      obtain ⟨admitted,early,counted⟩ := kept threads
      exact ⟨state ▸ admitted,fun first => state ▸ early (sim ▸ first),sim ▸ counted⟩
    | resumes _ _ paused state threads =>
      exact (kept threads).called sim (by rw [paused,state]; decide)
    | pauses running state threads =>
      exact (kept threads).called sim (by rw [running,state]; decide)
    | stops _ _ active state threads =>
      rcases active with running | paused
      · exact (kept threads).called sim (by rw [running,state]; decide)
      · exact (kept threads).called sim (by rw [paused,state]; decide)
    | creates _ new state threads =>
      obtain ⟨_,dead⟩ := orderly new
      rw [threads] at member
      rcases List.mem_append.mp member with old | created
      · rw [dead t old] at alive
        contradiction
      · obtain rfl := List.mem_singleton.mp created
        exact ⟨by rw [state]; exact List.mem_cons_self,fun _ => .inl state,sim ▸ lives.counted⟩
  | wake =>
    obtain ⟨self,threads,_⟩ := wake_woken moved
    rw [self,threads]
    exact ⟨lives.counted,lives.fits⟩
  | thread i input overrun =>
    obtain ⟨_,_,t,t',at_,threads,acted⟩ := advance_acted moved
    have alive := (Thread.act_moved acted).2.alive
    obtain ⟨fits,grown⟩ := (lives.fits t (List.mem_of_getElem? at_) alive).acts below acted
    refine ⟨lives.counted.trans grown,fun v member other => ?_⟩
    obtain ⟨j,here⟩ := List.mem_iff_getElem?.mp (threads ▸ member)
    by_cases same : i = j
    · subst same
      rw [List.getElem?_set_self (List.getElem?_eq_some_iff.mp at_).1] at here
      exact Option.some.inj here ▸ fits
    -- nobody else is alive
    · rw [List.getElem?_set_ne same] at here
      exact absurd (lives.single i j t v at_ here alive other) same

theorem step_lives {w u : World Real σ H} {a : Action H} (lives : Lives w) (orderly : Orderly w a)
    (below : w.self.sim.mTimeStepCount.toInt + 1 < 2 ^ 31) (moved : Step solver w a u) : Lives u := by
  obtain ⟨counted,fits⟩ := step_fits lives orderly below moved
  refine ⟨step_manned w a u lives.manned moved,
    (step_single_iff w a u lives.manned lives.single moved).mpr orderly,counted,fits,?_⟩
  obtain ⟨trace,path,reports⟩ := lives.reports
  obtain ⟨channel,state⟩ := step_reports moved
  cases announced : w.announces a with
  | none =>
    rw [announced] at channel state
    exact ⟨trace,state ▸ path,by rw [channel,reports]; exact (List.append_nil _).symm⟩
  | some e =>
    rw [announced] at channel state
    have next := step_successor lives orderly moved announced
    refine ⟨trace ++ [(w.self.state,e)],state ▸ path.snoc ⟨next,rfl⟩,?_⟩
    rw [List.map_append,reports,channel]
    rfl

def Counts (w : World Real σ H) : Prop := w.self.sim.mTimeStepCount.toInt + 1 < 2 ^ 31

instance (w : World Real σ H) : Decidable (Counts w) := inferInstanceAs (Decidable (_ < _))

/-- As long as no thread is created beside a live one, and the step count does not overflow, every
state that is reported is a successor of the one reported before it. -/
theorem life_cycle (sim : DPsim.Simulation Real σ H) (fresh : sim.mTimeStepCount = 0)
    (realTime startSync failOnOverrun singleStepping : Bool)
    (path : Path (Step solver)
      (initial (Simulation.init sim realTime startSync failOnOverrun singleStepping)) trace w)
    (orderly : ∀ p ∈ trace, Orderly p.1 p.2) (counts : ∀ p ∈ trace, Counts p.1) :
    ∃ reports, Path LifeCycle .stopped reports w.self.state ∧ reports.map Prod.snd = w.self.channel := by
  have initially : Lives (initial (Simulation.init sim realTime startSync failOnOverrun singleStepping)) := by
    refine ⟨initial_manned rfl,?_,?_,?_,[],.nil,rfl⟩
    · simp [Single,initial]
    · rw [show (initial (Simulation.init sim realTime startSync failOnOverrun singleStepping)).self.sim = sim
        from rfl,fresh]
      decide
    · exact List.forall_mem_nil _
  have lives := path.guarded_states (P := Lives) (G := fun w a => Orderly w a ∧ Counts w)
    (fun w a u lives guard moved => step_lives lives guard.1 guard.2 moved)
    (fun p member => ⟨orderly p member,counts p member⟩) initially
  exact (lives w (final_mem_states trace w)).reports

def pacedObject (finalTime : Nat) : Simulation Nat Unit Nat :=
  Simulation.init ⟨0,finalTime,0,(),EventQueue.empty,[],[],0⟩ true false true false

def oversleeps (n : Nat) : List (Action Nat) := .thread 0 quiet true :: acts n

def underWay : List (Action Nat) := [Action.call .start] ++ acts 7 ++ [Action.wake]

/-- Final times and runs in which every entry of the table occurs. -/
def runs : List (Nat × List (List (Action Nat))) := [
  (0,[[.call .start],acts 4]),
  (1,[underWay,acts 5]),
  (1,[underWay,acts 3,[.call .pause],acts 2]),
  (1,[underWay,acts 3,[.call .stop],acts 2]),
  (2,[underWay,acts 3,[.call .stop],acts 2,oversleeps 1]),
  (3,[[.call .start],acts 4,oversleeps 3,[.wake,.call .pause],acts 2,[.wake,.call .start],acts 1,
    [.wake,.call .pause],acts 3,oversleeps 7,oversleeps 7]),
  (9,[underWay,[.call .stop],acts 5,[.wake,.call .step],List.replicate 9 (.thread 1 quiet false),
    [.call .stop]]),
  (9,[[.call .step],acts 10,[.call .step],acts 4,oversleeps 5,[.call .step],acts 2,[.call .stop],acts 7])]

def runOf (p : Nat × List (List (Action Nat))) : World Nat Unit Nat :=
  finalOf (next clock) (initial (pacedObject p.1)) p.2.flatten

theorem reported_runs : runs.map (fun p => (runOf p).self.channel) = [
    [.starting,.done],
    [.starting,.running,.done],
    [.starting,.running,.pausing,.done],
    [.starting,.running,.stopping,.done],
    [.starting,.running,.stopping,.overrun],
    [.starting,.overrun,.running,.pausing,.paused,.resuming,.running,.pausing,.overrun,.overrun,.done],
    [.starting,.running,.stopping,.stopped,.starting,.paused,.stopping],
    [.starting,.running,.paused,.resuming,.running,.overrun,.paused,.resuming,.running,.stopping,.paused]] := by
  rfl

def traceIn (p : Nat × List (List (Action Nat))) : List (World Nat Unit Nat × Action Nat) :=
  traceOf (next clock) (initial (pacedObject p.1)) p.2.flatten

/-- Every entry of the table occurs in one of these runs, and nothing else does. -/
theorem life_cycle_runs :
    (∀ s : State, ∀ e ∈ s.successors, ∃ p ∈ runs, [s,e] <:+: State.stopped :: (runOf p).self.channel) ∧
      ∀ p ∈ runs, ∃ reports, Path LifeCycle .stopped reports (runOf p).self.state ∧
        reports.map Prod.snd = (runOf p).self.channel := by
  constructor
  · intro s e successor
    have found : ∃ c ∈ runs.map fun p => (runOf p).self.channel, [s,e] <:+: State.stopped :: c := by
      rw [reported_runs]
      revert e
      cases s <;> decide
    obtain ⟨c,member,inside⟩ := found
    obtain ⟨p,run,rfl⟩ := List.mem_map.mp member
    exact ⟨p,run,inside⟩
  · intro p run
    have orderly : ∀ p ∈ runs, ∀ q ∈ traceIn p, Orderly q.1 q.2 := by decide
    have counts : ∀ p ∈ runs, ∀ q ∈ traceIn p, Counts q.1 := by decide
    exact life_cycle _ rfl true false true false
      (path_of_labels (next clock) (initial (pacedObject p.1)) p.2.flatten) (orderly p run) (counts p run)

end World
end DPsim.Python
