import DPsim.PythonProgress

/-! How many steps a sequence of `step` calls executes. A call is answered by the thread with
`paused` or `done`; it owes a step from the call until the thread comes to execute it. -/
namespace DPsim.Python.World
open Transition

variable {Real σ H : Type} [LinearOrder Real]

/-- Only `step` is called, before the first thread or in the state `paused`. -/
def StepCalls (w : World Real σ H) : Action H → Prop
  | .call c => c = .step ∧ (w.self.state = .stopped ∨ w.self.state = .paused)
  | _ => True

instance (w : World Real σ H) : DecidablePred (StepCalls w)
  | .call c => inferInstanceAs (Decidable (c = .step ∧ _))
  | .wake => .isTrue trivial
  | .thread _ _ _ => .isTrue trivial

def executed (w : World Real σ H) : Nat := (w.threads.flatMap fun t => solvedTimes t.effects).length

def localTime [Zero Real] (w : World Real σ H) : Real := (w.threads.getLast?.map Thread.time).getD 0

def TimeLeft [Zero Real] (w : World Real σ H) : Prop := w.localTime < w.self.sim.mFinalTime

instance [Zero Real] (w : World Real σ H) : Decidable w.TimeLeft := by
  unfold TimeLeft; infer_instance

def isCall : World Real σ H × Action H → Bool
  | (_, .call _) => true
  | _ => false

def calls (trace : List (World Real σ H × Action H)) : Nat := trace.countP isCall

def timely [Zero Real] (trace : List (World Real σ H × Action H)) : Nat :=
  trace.countP fun p => isCall p ∧ p.1.TimeLeft

/-- The thread has announced the end of what it was asked for. -/
def Reported (w : World Real σ H) : Prop := w.self.state = .paused ∨ w.self.state = .done

def Pc.fits : Pc → State → Prop
  | .pausedWait, s => s = .paused ∨ s = .resuming
  | .closing, s | .returned .done, s => s = .done
  | .toStop, _ | .leaving, _ | .returned .stopped, _ => False
  | _, s => s = .starting ∨ s = .running ∨ s = .overrun

/-- The step the thread has still to execute before it reports. -/
def owed (self : Simulation Real σ H) (t : Thread Real H) : Nat :=
  match t.pc with
  | .opening | .syncing | .checkStopping | .head => if t.time < self.sim.mFinalTime then 1 else 0
  | .stepping => 1
  | .pausedWait => if self.state = .resuming ∧ t.time < self.sim.mFinalTime then 1 else 0
  | _ => 0

structure Stepping (count : Int32) (n : Nat) (self : Simulation Real σ H) (t : Thread Real H) : Prop where
  single : self.singleStepping = true
  fits : Pc.fits t.pc self.state
  balance : (solvedTimes t.effects).length + owed self t = n
  count : self.sim.mTimeStepCount = count + Int32.ofNat (solvedTimes t.effects).length

theorem act_stepping {solver : Solver Real σ H} {self self' : Simulation Real σ H} {t t' : Thread Real H}
    (stepping : Stepping count n self t) (acted : t.act solver self input overrun = some (self', t')) :
    Stepping count n self' t' := by
  obtain ⟨single,fits,balance,counted⟩ := stepping
  obtain ⟨pc,flags,state,steps,quiet⟩ := Thread.act_does acted
  have single' := flags.singleStepping.trans single
  have moves (other : t.pc ≠ .stepping) (next : Pc.fits t'.pc self'.state)
      (owes : t'.time = t.time → self'.sim.mFinalTime = self.sim.mFinalTime → owed self' t' = owed self t) :
      Stepping count n self' t' := by
    obtain ⟨solved,time,h,sim⟩ := quiet other
    have final : self'.sim.mFinalTime = self.sim.mFinalTime := by rw [sim]
    exact ⟨single',next,by rw [solved,owes time final,balance],by rw [sim,solved]; exact counted⟩
  have unasked (loop : self.state = .starting ∨ self.state = .running ∨ self.state = .overrun) :
      self.state ≠ .pausing ∧ self.state ≠ .stopping := by
    rcases loop with s | s | s <;> simp [s]
  cases at_ : t.pc with
  | stepping =>
    obtain ⟨⟨effects,stepped,appended⟩,_⟩ := steps at_
    obtain ⟨solved,counts,_⟩ := DPsim.Simulation.step_solved stepped
    have one : (solvedTimes t'.effects).length = (solvedTimes t.effects).length + 1 := by
      simp [appended,solved]
    simp only [Thread.target,at_] at pc
    simp only [Thread.announces,at_,Option.getD_none] at state
    simp only [owed,at_] at balance
    rw [at_] at fits
    refine ⟨single',?_,?_,?_⟩
    · rw [pc,state]
      exact fits
    · simp only [owed,pc]
      omega
    · rw [counts,counted,one,Int32.ofNat_add,Int32.add_assoc]
      rfl
  | opening | syncing | closing =>
    simp only [Thread.target,at_] at pc
    simp only [Thread.announces,at_,Option.getD_none] at state
    rw [at_] at fits
    refine moves (by simp [at_]) ?_ fun time final => by simp [owed,at_,pc,time,final]
    rw [pc,state]
    exact fits
  | firstRunning | toPause | finishing =>
    simp only [Thread.target,at_] at pc
    simp only [Thread.announces,at_,Option.getD_some] at state
    refine moves (by simp [at_]) ?_ fun time final => by simp [owed,at_,pc,state]
    rw [pc,state]
    simp [Pc.fits]
  | overrunning =>
    simp only [Thread.target,at_] at pc
    simp only [Thread.announces,at_] at state
    rw [at_] at fits
    refine moves (by simp [at_]) ?_ fun time final => by simp [owed,at_,pc]
    rw [pc,state]
    split
    · exact .inr (.inr rfl)
    · exact fits
  | head | sleeping | checkFirst =>
    simp only [Thread.target,at_] at pc
    simp only [Thread.announces,at_,Option.getD_none] at state
    rw [at_] at fits
    split at pc
    all_goals
      rename_i test
      refine moves (by simp [at_]) ?_ fun _ _ => by simp [owed,at_,pc,test]
      rw [pc,state]
      exact fits
  | checkPausing | checkSingle | checkStopping =>
    rw [at_] at fits
    simp only [Thread.target,at_,unasked fits,single,if_true,if_false] at pc
    simp only [Thread.announces,at_,Option.getD_none] at state
    refine moves (by simp [at_]) ?_ fun time final => by simp [owed,at_,pc,time,final]
    rw [pc,state]
    exact fits
  | pausedWait =>
    rw [at_] at fits
    have resumed : self.state = .resuming := by
      rcases fits with paused | resumed
      · simp [Thread.act,at_,paused] at acted
      · exact resumed
    simp only [Thread.target,at_] at pc
    simp only [Thread.announces,at_,resumed,if_true,Option.getD_some] at state
    refine moves (by simp [at_]) ?_ fun time final => by simp [owed,at_,pc,time,final,resumed]
    rw [pc,state]
    exact .inr (.inl rfl)
  | toStop | leaving => simp [at_,Pc.fits] at fits
  | returned exit => simp [Thread.act,at_] at acted

def Handshake [Zero Real] (count : Int32) (trace : List (World Real σ H × Action H)) (w : World Real σ H) :
    Prop :=
  (w.threads = [] ∧ w.self.state = .stopped ∧ calls trace = 0 ∧ timely trace = 0 ∧
      w.self.sim.mTimeStepCount = count) ∨
    ∃ t, w.threads = [t] ∧ Stepping count (timely trace) w.self t

variable [Zero Real] {solver : Solver Real σ H}

theorem timely_append (trace : List (World Real σ H × Action H)) (w : World Real σ H) (a : Action H) :
    timely (trace ++ [(w,a)]) = timely trace + if isCall (w,a) ∧ w.TimeLeft then 1 else 0 := by
  simp [timely,List.countP_singleton]

theorem call_step {w u : World Real σ H} (called : w.call .step = some u) :
    (w.self.state = .stopped → u.self = { w.self.newState .starting with
        singleStepping := true
        thread := some w.threads.length } ∧ u.threads = w.threads ++ [Thread.create]) ∧
      (w.self.state = .paused → u.self = { w.self.newState .resuming with singleStepping := true } ∧
        u.threads = w.threads) := by
  have idle := (call_called called).1
  constructor <;> intro state <;>
    simp only [call,idle,Call.enter,Simulation.step,state,ne_eq,not_true,reduceCtorEq,false_and,if_true,
      if_false] at called <;> cases called <;> exact ⟨rfl,rfl⟩

theorem step_handshake {trace : List (World Real σ H × Action H)} {w u : World Real σ H} {a : Action H}
    (handshake : Handshake count trace w) (guard : StepCalls w a) (moved : Step solver w a u) :
    Handshake count (trace ++ [(w,a)]) u := by
  cases a with
  | wake =>
    obtain ⟨self,threads,_⟩ := wake_woken moved
    have same : timely (trace ++ [(w,.wake)]) = timely trace := by simp [timely_append,isCall]
    have calls : calls (trace ++ [(w,.wake)]) = calls trace := by simp [calls,isCall]
    simpa only [Handshake,self,threads,same,calls] using handshake
  | thread i input overrun =>
    obtain ⟨_,_,t,t',at_,threads,acted⟩ := advance_acted moved
    have same : timely (trace ++ [(w,.thread i input overrun)]) = timely trace := by
      simp [timely_append,isCall]
    rcases handshake with ⟨none,_⟩ | ⟨v,one,stepping⟩
    · simp [none] at at_
    · rw [one] at at_ threads
      obtain rfl : i = 0 := by
        by_contra other
        simp [other] at at_
      cases at_
      exact .inr ⟨t',by simpa using threads,same ▸ act_stepping stepping acted⟩
  | call c =>
    obtain ⟨rfl,accepted⟩ := guard
    obtain ⟨creates,resumes⟩ := call_step moved
    have more : timely (trace ++ [(w,Action.call .step)]) = timely trace + if w.TimeLeft then 1 else 0 := by
      simp [timely_append,isCall]
    right
    rw [more]
    rcases handshake with ⟨none,stopped,_,zero,count⟩ | ⟨t,one,single,fits,balance,count⟩
    · obtain ⟨self,threads⟩ := creates stopped
      refine ⟨.create,by simp [threads,none],by simp [self],by simp [self,Pc.fits,Thread.create],?_,?_⟩
      · simp [self,owed,Thread.create,zero,TimeLeft,localTime,none,solvedTimes]
      · simp [self,count,Thread.create,solvedTimes]
    · have paused : w.self.state = .paused := by
        rcases accepted with stopped | paused
        · rw [stopped] at fits
          unfold Pc.fits at fits
          split at fits <;> simp at fits
        · exact paused
      have at_ : t.pc = .pausedWait := by
        rw [paused] at fits
        unfold Pc.fits at fits
        split at fits <;> simp_all
      obtain ⟨self,threads⟩ := resumes paused
      simp only [owed,at_,paused,reduceCtorEq,false_and,if_false,Nat.add_zero] at balance
      refine ⟨t,by rw [threads,one],by simp [self],by simp [self,at_,Pc.fits],?_,by simp [self,count]⟩
      simp [self,owed,at_,balance,TimeLeft,localTime,one]

theorem reported_handshake {count : Int32} {trace : List (World Real σ H × Action H)} {w : World Real σ H}
    (handshake : Handshake count trace w) (reported : Reported w) :
    w.executed = timely trace ∧ w.self.sim.mTimeStepCount = count + Int32.ofNat w.executed := by
  rcases handshake with ⟨_,stopped,_⟩ | ⟨t,one,_,fits,balance,counted⟩
  · rcases reported with state | state <;> simp [stopped] at state
  · have none : owed w.self t = 0 := by
      unfold owed
      rcases reported with state | state <;> rw [state] at fits ⊢ <;> unfold Pc.fits at fits <;>
        split at fits <;> simp_all
    have solved : w.executed = (solvedTimes t.effects).length := by simp [executed,one]
    rw [solved]
    exact ⟨by omega,counted⟩

theorem run_handshake {sim : DPsim.Simulation Real σ H} {realTime startSync failOnOverrun singleStepping : Bool}
    (path : Path (Step solver)
      (initial (Simulation.init sim realTime startSync failOnOverrun singleStepping)) trace w)
    (stepped : ∀ p ∈ trace, StepCalls p.1 p.2) : Handshake sim.mTimeStepCount trace w := by
  refine path.history (P := fun trace w => (∀ p ∈ trace, StepCalls p.1 p.2) →
    Handshake sim.mTimeStepCount trace w) ?_ [] (fun _ => .inl ⟨rfl,rfl,rfl,rfl,rfl⟩) stepped
  intro trace w a u before moved guards
  simp only [List.forall_mem_append,List.forall_mem_singleton] at guards
  exact step_handshake (before guards.1) guards.2 moved

/-- A `step` is accepted only where everything asked for before has been reported. -/
theorem accepted_handshake {count : Int32} {trace : List (World Real σ H × Action H)} {w : World Real σ H}
    (handshake : Handshake count trace w) (guard : StepCalls w (.call .step)) :
    w.executed = timely trace := by
  rcases guard.2 with stopped | paused
  · rcases handshake with ⟨none,_,_,zero,_⟩ | ⟨t,_,_,fits,_⟩
    · simp [executed,none,zero]
    · rw [stopped] at fits
      unfold Pc.fits at fits
      split at fits <;> simp at fits
  · exact (reported_handshake handshake (.inl paused)).1

theorem timely_eq_calls_iff (trace : List (World Real σ H × Action H)) :
    timely trace = calls trace ↔ ∀ p ∈ trace, isCall p = true → p.1.TimeLeft := by
  have filtered : timely trace = (trace.filter isCall).countP (fun p => decide p.1.TimeLeft) := by
    rw [List.countP_filter]
    exact List.countP_congr fun p _ => by simp [and_comm]
  have all : calls trace = (trace.filter isCall).length := List.countP_eq_length_filter
  rw [filtered,all,List.countP_eq_length]
  simp

/-- In a run of single steps, up to a moment when the thread has reported, the last call has
executed exactly one step if and only if it found one left; all calls have executed one step
each, and the count has grown by their number, if and only if each found one left and the count
does not overflow. -/
theorem single_steps_iff (sim : DPsim.Simulation Real σ H)
    (realTime startSync failOnOverrun singleStepping : Bool)
    (path : Path (Step solver)
      (initial (Simulation.init sim realTime startSync failOnOverrun singleStepping)) trace w)
    (stepped : ∀ p ∈ trace, StepCalls p.1 p.2) (reported : Reported w) :
    (∀ before x after, trace = before ++ (x,.call .step) :: after → calls after = 0 →
        (w.executed = x.executed + 1 ↔ x.TimeLeft)) ∧
      (w.executed = calls trace ∧
          w.self.sim.mTimeStepCount.toInt = sim.mTimeStepCount.toInt + calls trace ↔
        (∀ p ∈ trace, isCall p = true → p.1.TimeLeft) ∧
          sim.mTimeStepCount.toInt + calls trace < 2 ^ 31) := by
  obtain ⟨exact_,counted⟩ := reported_handshake (run_handshake path stepped) reported
  constructor
  · rintro before x after rfl last
    obtain ⟨_,first,_,_⟩ := path.at_step
    have earlier := accepted_handshake
      (run_handshake first fun p member => stepped p (by simp [member])) (stepped (x,.call .step) (by simp))
    have none : timely after = 0 := by
      have most : timely after ≤ calls after := List.countP_mono_left fun p _ => by simp +contextual
      omega
    have split : timely (before ++ (x,Action.call .step) :: after) =
        timely before + if x.TimeLeft then 1 else 0 := by
      rw [show before ++ (x,.call .step) :: after = (before ++ [(x,.call .step)]) ++ after by simp,
        timely,List.countP_append]
      exact (congrArg₂ _ (timely_append before x (.call .step)) none).trans (by simp [isCall])
    rw [exact_,split,earlier]
    split <;> simp_all
  · rw [← timely_eq_calls_iff,← exact_]
    refine and_congr_right fun all => ?_
    rw [counted,all]
    exact count_grown_iff _ _

def steppedTwice : List (Action Nat) := [Action.call .step] ++ acts 10 ++ [Action.call .step] ++ acts 9

theorem single_steps_iff_twice :
    let trace := traceOf (next clock) (initial (clockObject 2)) steppedTwice
    let w := finalOf (next clock) (initial (clockObject 2)) steppedTwice
    w.self.state = .paused ∧ w.executed = 2 ∧ calls trace = 2 ∧ w.self.sim.mTimeStepCount.toInt = 0 + 2 := by
  have steps := single_steps_iff _ false false false false
    (path_of_labels (next clock) (initial (clockObject 2)) steppedTwice) (by decide) (.inl (by decide))
  have all := steps.2.mpr ⟨by decide,by decide⟩
  have two : calls (traceOf (next clock) (initial (clockObject 2)) steppedTwice) = 2 := by decide
  rw [two] at all
  exact ⟨by decide,all.1,two,all.2⟩

/-- One single step, which is the last one, and another call. -/
def steppedPastEnd : List (Action Nat) := [Action.call .step] ++ acts 10 ++ [Action.call .step] ++ acts 4

/-- The second call is accepted, and the thread reports `done` without having executed a step. -/
theorem step_past_end :
    let w := finalOf (next clock) (initial (clockObject 1)) steppedPastEnd
    w.self.state = .done ∧ w.answers = [.returned,.returned] ∧ w.executed = 1 ∧
      ¬ ∀ trace w, Path (Step clock) (initial (clockObject 1)) trace w →
        (∀ p ∈ trace, StepCalls p.1 p.2) → Reported w → w.executed = calls trace := by
  refine ⟨by decide,by decide,by decide,fun always => ?_⟩
  have all := always _ _ (path_of_labels (next clock) (initial (clockObject 1)) steppedPastEnd)
    (by decide) (.inr (by decide))
  exact absurd all (by decide)

end DPsim.Python.World
