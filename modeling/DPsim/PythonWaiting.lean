import DPsim.PythonThreads

/-! Which control calls are sure of an answer. A call waits for one value of the state; the
thread that is to write it may write `paused` or `done` instead, and then nobody else will. -/
namespace DPsim.Python.World
open Transition

variable {Real σ H : Type} [LinearOrder Real]

/-- A control call waits in its loop, with the condition still true, for threads that have all
returned or for one that itself waits in `paused`; or `dealloc` joins a thread that waits in
`paused`. -/
inductive Stuck (w : World Real σ H) : Prop where
  | returned (caller : w.caller = .waiting c) (loops : c.keepsWaiting w.self.state = true)
      (threads : ∀ t ∈ w.threads, t.alive = false)
  | waits (caller : w.caller = .waiting c) (loops : c.keepsWaiting w.self.state = true)
      (paused : w.self.state = .paused) (member : t ∈ w.threads) (thread : t.pc = .pausedWait)
  | joins (caller : w.caller = .joining) (paused : w.self.state = .paused)
      (created : w.self.thread = some i) (at_ : w.threads[i]? = some t) (thread : t.pc = .pausedWait)

/-- The calls that `paused` does not answer. -/
def Caller.beyondPause : Caller → Bool
  | .waiting .start | .waiting .stop | .waiting .dealloc | .joining => true
  | _ => false

def Caller.isWaiting : Caller → Bool
  | .waiting _ => true
  | _ => false

/-- A thread announces its end only while no call waits in its loop, and enters the pause only
while neither `start` nor `stop` waits and `dealloc` does not join. -/
def Undisturbed (w : World Real σ H) : Action H → Prop
  | .thread i _ _ => ∀ t ∈ w.threads[i]?,
      (t.pc = .finishing → Caller.isWaiting w.caller = false) ∧
      (t.pc = .toPause → Caller.beyondPause w.caller = false)
  | _ => True

instance (w : World Real σ H) : DecidablePred (Undisturbed w)
  | .call _ => .isTrue trivial
  | .wake => .isTrue trivial
  | .thread i _ _ => inferInstanceAs (Decidable (∀ t ∈ w.threads[i]?, _))

structure Answered (w : World Real σ H) : Prop where
  manned : Manned w
  progress : w.caller = .waiting .start ∨ w.caller = .waiting .pause → w.Has Thread.fresh
  stop : w.caller = .waiting .stop ∨ w.caller = .waiting .dealloc →
    w.self.state = .stopped ∨ w.Has Thread.active
  stopping : w.self.state = .stopping → w.caller = .waiting .stop ∨ w.caller = .waiting .dealloc
  paused : w.self.state = .paused → Caller.beyondPause w.caller = false
  step : w.caller ≠ .waiting .step

theorem Answered.not_stuck {w : World Real σ H} (answered : Answered w) : ¬ Stuck w := by
  have dead (has : w.Has Thread.active) : ¬ ∀ t ∈ w.threads, t.alive = false := by
    obtain ⟨i,t,at_,active⟩ := has
    intro none
    have alive := Thread.alive_of_active active
    rw [none t (List.mem_of_getElem? at_)] at alive
    contradiction
  have weaker (t : Thread Real H) (fresh : t.fresh = true) : t.active = true := by
    simp [Thread.active,fresh]
  intro stuck
  cases stuck with
  | @returned c caller loops threads =>
    cases c with
    | start => exact dead ((answered.progress (.inl caller)).mono weaker) threads
    | pause => exact dead ((answered.progress (.inr caller)).mono weaker) threads
    | step => exact answered.step caller
    | stop =>
      rcases answered.stop (.inl caller) with stopped | has
      · simp [Call.keepsWaiting,stopped] at loops
      · exact dead has threads
    | dealloc =>
      rcases answered.stop (.inr caller) with stopped | has
      · simp [Call.keepsWaiting,stopped] at loops
      · exact dead has threads
  | @waits c t caller loops paused =>
    have allowed := answered.paused paused
    rw [caller] at allowed
    cases c <;> simp [Caller.beyondPause,Call.keepsWaiting,paused] at allowed loops
  | joins caller paused =>
    have allowed := answered.paused paused
    simp [caller,Caller.beyondPause] at allowed

theorem advance_answered {solver : Solver Real σ H} {w u : World Real σ H} (answered : Answered w)
    (undisturbed : Undisturbed w (.thread i input overrun))
    (advanced : w.advance solver i input overrun = some u) : Answered u := by
  obtain ⟨caller,_,t,t',at_,threads,moved⟩ := advance_moved advanced
  obtain ⟨ends,pauses⟩ := undisturbed t at_
  have manned := advance_manned answered.manned advanced
  obtain ⟨_,progress,stop,stopping,allowed,step⟩ := answered
  rw [← caller] at ends pauses progress stop stopping allowed step
  have here (p : Thread Real H → Bool) (holds : p t' = true) : u.Has p := has_acted at_ threads holds
  have weaker (t : Thread Real H) (fresh : t.fresh = true) : t.active = true := by
    simp [Thread.active,fresh]
  cases moved with
  | continues _ after _ state =>
    exact ⟨manned,fun _ => here _ after,fun _ => .inr (here _ (weaker _ after)),
      fun same => stopping (state ▸ same),fun same => allowed (state ▸ same),step⟩
  | reports _ after _ state =>
    refine ⟨manned,fun _ => here _ after,fun _ => .inr (here _ (weaker _ after)),?_,?_,step⟩
    all_goals rcases state with state | state <;> simp [state]
  | pauses before after state =>
    have fresh : t'.fresh = true := by simp [Thread.fresh,after]
    exact ⟨manned,fun _ => here _ fresh,fun _ => .inr (here _ (weaker _ fresh)),
      by simp [state],fun _ => pauses before,step⟩
  | obeys before after requested state =>
    have asked := stopping requested
    refine ⟨manned,fun other => ?_,fun _ => .inr (here _ (by simp [Thread.active,after])),
      fun _ => asked,fun same => allowed (state ▸ same),step⟩
    rcases asked with asked | asked <;> simp [asked] at other
  | stops before after state =>
    have unfresh : t.fresh = false := by simp [Thread.fresh,before]
    exact ⟨manned,fun waits => (progress waits).acted at_ threads (by simp [unfresh]),
      fun _ => .inl state,by simp [state],by simp [state],step⟩
  | finishes before after state =>
    have none := ends before
    refine ⟨manned,fun other => ?_,fun other => ?_,by simp [state],by simp [state],step⟩
    all_goals rcases other with other | other <;> simp [other,Caller.isWaiting] at none
  | returns before after state =>
    have unfresh : t.fresh = false := by rcases before with at_ | at_ <;> simp [Thread.fresh,at_]
    have inactive : t.active = false := by
      rcases before with at_ | at_ <;> simp [Thread.active,Thread.fresh,at_]
    refine ⟨manned,fun waits => (progress waits).acted at_ threads (by simp [unfresh]),fun waits => ?_,
      fun same => stopping (state ▸ same),fun same => allowed (state ▸ same),step⟩
    rcases stop waits with stopped | has
    · exact .inl (state.trans stopped)
    · exact .inr (has.acted at_ threads (by simp [inactive]))

theorem call_answered [Zero Real] {w u : World Real σ H} {c : Call} (answered : Answered w)
    (called : w.call c = some u) : Answered u := by
  obtain ⟨idle,called⟩ := call_called called
  have manned := call_manned answered.manned called
  have unasked : w.self.state ≠ .stopping := by
    intro stopping
    rcases answered.stopping stopping with other | other <;> simp [idle] at other
  cases called with
  | frees _ self _ caller =>
    refine ⟨manned,by simp [caller],by simp [caller],by simp [self,unasked],?_,by simp [caller]⟩
    simp [caller,Caller.beyondPause]
  | raises _ _ state _ caller refused =>
    refine ⟨manned,?_,?_,by simp [state,unasked],fun paused => ?_,?_⟩
    · rw [caller]; split <;> simp
    · rw [caller]; split <;> simp
    · have other : c ≠ .dealloc := fun last => refused last (state ▸ paused)
      simp [caller,other,Caller.beyondPause]
    · rw [caller]; split <;> simp
  | resumes _ either paused state threads caller =>
    have here := answered.manned.fresh (by simp [paused]) (by simp [paused]) (by simp [paused])
    refine ⟨manned,fun _ => here.same threads,?_,by simp [state],by simp [state],?_⟩
    all_goals rw [caller]; split <;> simp
  | pauses running state threads caller =>
    have here := answered.manned.fresh (by simp [running]) (by simp [running]) (by simp [running])
    exact ⟨manned,fun _ => here.same threads,by simp [caller],by simp [state],by simp [state],
      by simp [caller]⟩
  | stops _ either active state threads caller =>
    refine ⟨manned,?_,fun _ => .inr (manned.active state),fun _ => ?_,by simp [state],?_⟩
    all_goals rw [caller]; rcases either with rfl | rfl <;> simp
  | creates _ _ state threads caller =>
    refine ⟨manned,fun _ => has_created threads rfl,?_,by simp [state],by simp [state],?_⟩
    all_goals rw [caller]; split <;> simp

theorem wake_answered {w u : World Real σ H} (answered : Answered w) (woken : w.wake = some u) :
    Answered u := by
  obtain ⟨self,threads,caller⟩ := wake_woken woken
  have manned : Manned u := answered.manned.same (by rw [self]) threads
  rcases caller with ⟨c,waiting,met,caller⟩ | ⟨joining,caller⟩
  · have unasked : w.self.state ≠ .stopping := by
      intro stopping
      rcases answered.stopping stopping with other | other
      all_goals
        obtain rfl := Caller.waiting.inj (waiting.symm.trans other)
        simp [Call.keepsWaiting,stopping] at met
    refine ⟨manned,?_,?_,by simp [self,unasked],fun paused => ?_,?_⟩
    · rw [caller]; split <;> simp
    · rw [caller]; split <;> simp
    · have other : c ≠ .dealloc := by
        rintro rfl
        rw [self] at paused
        simp [Call.keepsWaiting,paused] at met
      simp [caller,other,Caller.beyondPause]
    · rw [caller]; split <;> simp
  · have unasked : w.self.state ≠ .stopping := by
      intro stopping
      rcases answered.stopping stopping with other | other <;> simp [joining] at other
    refine ⟨manned,by simp [caller],by simp [caller],by simp [self,unasked],?_,by simp [caller]⟩
    simp [caller,Caller.beyondPause]

theorem initial_answered {self : Simulation Real σ H} (stopped : self.state = .stopped) :
    Answered (initial self) :=
  ⟨initial_manned stopped,by simp [initial],by simp [initial],by simp [initial,stopped],
    by simp [initial,stopped],by simp [initial]⟩

variable [Zero Real] {solver : Solver Real σ H}

theorem step_answered (w : World Real σ H) (a : Action H) (u : World Real σ H)
    (answered : Answered w) (undisturbed : Undisturbed w a) (moved : Step solver w a u) :
    Answered u := by
  cases a with
  | call => exact call_answered answered moved
  | wake => exact wake_answered answered moved
  | thread => exact advance_answered answered undisturbed moved

/-- In a run in which no thread announces its end while a call waits, or pauses while `start`,
`stop` or the deallocation waits, no call is ever stuck. -/
theorem never_stuck_of_undisturbed (sim : DPsim.Simulation Real σ H)
    (realTime startSync failOnOverrun singleStepping : Bool)
    (path : Path (Step solver)
      (initial (Simulation.init sim realTime startSync failOnOverrun singleStepping)) trace w)
    (undisturbed : ∀ p ∈ trace, Undisturbed p.1 p.2) : ∀ x ∈ states trace w, ¬ Stuck x :=
  fun x member =>
    (path.guarded_states step_answered undisturbed (initial_answered rfl) x member).not_stuck

theorem advance_eq {w : World Real σ H} {self' : Simulation Real σ H} (at_ : w.threads[i]? = some t)
    (present : w.caller ≠ .freed) (acted : t.act solver w.self input overrun = some (self', t')) :
    Step solver w (.thread i input overrun) { w with
      self := self'
      threads := w.threads.set i t' } := by
  simp [Step,next,advance,present,at_,acted]

theorem finish_stuck {w : World Real σ H} (answered : Answered w) (single : Single w)
    (at_ : w.threads[i]? = some t) (finishing : t.pc = .finishing) (waiting : w.caller = .waiting c)
    (moved : Step solver w (.thread i input overrun) u) :
    ∃ trace v, Path (Step solver) u trace v ∧ Stuck v := by
  have present : w.caller ≠ .freed := by simp [waiting]
  have first : Step solver w (.thread i input overrun) { w with
      self := w.self.newState .done
      threads := w.threads.set i (t.goto .closing) } :=
    advance_eq at_ present (by simp [Thread.act,finishing])
  obtain rfl := Option.some.inj (first.symm.trans moved)
  have bound := (List.getElem?_eq_some_iff.mp at_).1
  let last : Thread Real H := ⟨.returned .done,t.time,
    t.effects ++ (w.self.sim.onInterfaces Interface.close).2 ++ w.self.sim.flushLoggers⟩
  have second : (t.goto .closing).act solver (w.self.newState .done) input overrun =
      some (w.self.newState .done,last) := by
    simp only [Thread.act,Thread.goto_pc,Simulation.newState_sim,DPsim.Simulation.onInterfaces_close]
    rfl
  refine ⟨_,_,.single (advance_eq (i := i) (by simp [bound]) present second),?_⟩
  refine .returned (c := c) waiting ?_ ?_
  · have waits := answered.step
    cases c <;> simp_all [Call.keepsWaiting]
  · intro x member
    obtain ⟨j,here⟩ := List.mem_iff_getElem?.mp member
    by_cases same : i = j
    · subst same
      simp only [List.set_set,List.getElem?_set_self bound,Option.some.injEq] at here
      subst here
      rfl
    · simp only [List.set_set,List.getElem?_set_ne same] at here
      by_contra alive
      exact same (single i j t x at_ here (by simp [Thread.alive,finishing]) (by simpa using alive))

/-- Conversely, when the only live thread ends or pauses at another moment, a call gets stuck. -/
theorem disturbed_stuck {w u : World Real σ H} (answered : Answered w) (single : Single w)
    (joined : w.caller = .joining → w.self.thread = some i)
    (disturbed : ¬ Undisturbed w (.thread i input overrun))
    (moved : Step solver w (.thread i input overrun) u) :
    ∃ trace v, Path (Step solver) u trace v ∧ Stuck v := by
  simp only [Undisturbed,not_forall] at disturbed
  obtain ⟨t,at_,bad⟩ := disturbed
  have at_ : w.threads[i]? = some t := at_
  rcases not_and_or.mp bad with ends | pauses
  · obtain ⟨finishing,waits⟩ := Classical.not_imp.mp ends
    cases caller : w.caller with
    | waiting c => exact finish_stuck answered single at_ finishing caller moved
    | _ => simp [caller,Caller.isWaiting] at waits
  · obtain ⟨toPause,beyond⟩ := Classical.not_imp.mp pauses
    have present : w.caller ≠ .freed := by
      intro freed
      simp [freed,Caller.beyondPause] at beyond
    have first : Step solver w (.thread i input overrun) { w with
        self := w.self.newState .paused
        threads := w.threads.set i (t.goto .pausedWait) } :=
      advance_eq at_ present (by simp [Thread.act,toPause])
    obtain rfl := Option.some.inj (first.symm.trans moved)
    have bound := (List.getElem?_eq_some_iff.mp at_).1
    have member : t.goto .pausedWait ∈ w.threads.set i (t.goto .pausedWait) :=
      List.mem_set bound _
    refine ⟨[],_,.nil,?_⟩
    cases caller : w.caller with
    | idle | freed => simp [caller,Caller.beyondPause] at beyond
    | joining => exact .joins rfl rfl (joined caller) (List.getElem?_set_self bound) rfl
    | waiting c =>
      refine .waits (c := c) rfl ?_ rfl member rfl
      rw [caller] at beyond
      cases c <;> simp_all [Call.keepsWaiting,Caller.beyondPause]

def finished : List (Action Nat) := [Action.call .start] ++ acts 13

/-- A `stop` during a single step, whose request the thread overwrites with `paused`. -/
def overwritten : List (Action Nat) := [Action.call .step] ++ acts 7 ++ [Action.call .stop] ++ acts 3

theorem start_and_stop_stranded :
    Stuck (finalOf (next clock) (initial (clockObject 1)) finished) ∧
      Stuck (finalOf (next clock) (initial (clockObject 2)) overwritten) ∧
      ¬ ∀ trace w, Path (Step clock) (initial (clockObject 1)) trace w → ¬ Stuck w := by
  have start : Stuck (finalOf (next clock) (initial (clockObject 1)) finished) :=
    .returned (c := .start) (by decide) (by decide) (by decide)
  have stop : Stuck (finalOf (next clock) (initial (clockObject 2)) overwritten) :=
    .waits (c := .stop) (t := ⟨.pausedWait,1,[.solved 0]⟩) (by decide) (by decide) (by decide)
      (List.mem_singleton.mpr rfl) rfl
  exact ⟨start,stop,fun never => never _ _ (path_of_labels _ _ finished) start⟩

def deallocated : List (Action Nat) :=
  [Action.call .start] ++ acts 7 ++ [Action.wake,.call .dealloc] ++ acts 5 ++ [Action.wake,.wake]

theorem never_stuck_of_undisturbed_deallocated :
    (∀ x ∈ states (traceOf (next clock) (initial (clockObject 2)) deallocated)
        (finalOf (next clock) (initial (clockObject 2)) deallocated), ¬ Stuck x) ∧
      (finalOf (next clock) (initial (clockObject 2)) deallocated).caller = .freed :=
  ⟨never_stuck_of_undisturbed _ false false false false
      (path_of_labels (next clock) (initial (clockObject 2)) deallocated) (by decide),by decide⟩

end DPsim.Python.World
