import DPsim.MNAShapes
import DPsim.MNASwitching
import DPsim.PythonOverruns
import DPsim.PythonProgress

/-! The three loops that run a simulation, side by side: which of them execute exactly the steps
that are due. -/
namespace DPsim
open Transition

namespace Simulation
variable {σ H : Type}

/-- The steps at the times below the final time have been executed, in order and no others; from a
fresh state the count and the time are those of the number of steps. -/
structure Due (dt : ℚ) (s t : Simulation ℚ σ H) (effects : List (Effect ℚ H)) : Prop where
  times : ∃ n : Nat, solvedTimes effects = (List.range n).map (fun (i : Nat) => s.mTime + i * dt) ∧
    ∀ k : Nat, k < n ↔ s.mTime + k * dt < s.mFinalTime
  fresh : s.mTime = 0 → s.mTimeStepCount = 0 →
    ((solvedTimes effects).length : Int) = max 0 ⌈s.mFinalTime / dt⌉ ∧
      t.mTimeStepCount.toInt = max 0 ⌈s.mFinalTime / dt⌉ ∧ t.mTime = t.mTimeStepCount.toInt * dt

def CountFits (dt : ℚ) (s : Simulation ℚ σ H) : Prop :=
  s.mTime = 0 → s.mTimeStepCount = 0 → ⌈s.mFinalTime / dt⌉ < 2 ^ 31

theorem Executed.due_iff {dt : ℚ} (positive : 0 < dt) {s t : Simulation ℚ σ H} {k : Nat}
    (executed : Executed dt s t effects k) :
    Due dt s t effects ↔ k = stepsLeft s.mTime s.mFinalTime dt ∧ CountFits dt s := by
  have length : (solvedTimes effects).length = k := by simp [executed.times]
  have first (fresh : s.mTimeStepCount = 0) : t.mTimeStepCount.toInt = k ↔ (k : Int) < 2 ^ 31 := by
    have grown := count_grown_iff s.mTimeStepCount k
    rw [← executed.count,fresh] at grown
    simpa using grown
  constructor
  · rintro ⟨⟨n,times,due⟩,fresh⟩
    obtain rfl : k = n := by simpa [executed.times] using congrArg List.length times
    refine ⟨?_,fun time count => ?_⟩
    · exact eq_of_forall_lt_iff fun j => (due j).trans (DPsim.due_iff positive _ _ j)
    · obtain ⟨many,counted,_⟩ := fresh time count
      have fits := (first count).mp (counted.trans (by rw [← many,length]))
      rw [length] at many
      omega
  · rintro ⟨rfl,fits⟩
    refine ⟨⟨_,executed.times,fun j => (DPsim.due_iff positive _ _ j).symm⟩,fun time count => ?_⟩
    have steps : ((stepsLeft s.mTime s.mFinalTime dt : Nat) : Int) = max 0 ⌈s.mFinalTime / dt⌉ := by
      rw [stepsLeft,time,sub_zero,Int.ofNat_toNat,max_comm]
    have below := fits time count
    have counted := (first count).mpr (by omega)
    refine ⟨by rw [length,steps],counted.trans steps,?_⟩
    rw [executed.time,counted,Int.cast_natCast,time,zero_add]

/-- A `run` that, with fuel enough, returns having executed the steps that are due. -/
def RunDue (run : Nat → (Nat → Inputs H) → Simulation ℚ σ H →
      Except Fault (Simulation ℚ σ H × List (Effect ℚ H)))
    (dt : ℚ) (s : Simulation ℚ σ H) : Prop :=
  ∀ inputs : Nat → Inputs H, (∀ k, Delivers (inputs k)) →
    ∃ enough, ∀ fuel, enough ≤ fuel →
      ∃ t effects, run fuel inputs s = .ok (t, effects) ∧ Due dt s t effects

theorem runDue_iff {dt : ℚ} (positive : 0 < dt) {run : Nat → (Nat → Inputs H) → Simulation ℚ σ H →
      Except Fault (Simulation ℚ σ H × List (Effect ℚ H))} {s : Simulation ℚ σ H}
    (executed : ∀ inputs : Nat → Inputs H, (∀ k, Delivers (inputs k)) → ∀ fuel,
      stepsLeft s.mTime s.mFinalTime dt < fuel →
        ∃ t effects, run fuel inputs s = .ok (t, effects) ∧ Executed dt s t effects k) :
    RunDue run dt s ↔ k = stepsLeft s.mTime s.mFinalTime dt ∧ CountFits dt s := by
  constructor
  · intro due
    have delivers : ∀ _ : Nat, Delivers (⟨fun _ _ h => .ok h⟩ : Inputs H) := fun _ _ _ h => ⟨h,rfl⟩
    obtain ⟨enough,ends⟩ := due _ delivers
    let fuel := enough + stepsLeft s.mTime s.mFinalTime dt + 1
    obtain ⟨t,effects,ran,all⟩ := ends fuel (by omega)
    obtain ⟨t',effects',ran',steps⟩ := executed _ delivers fuel (by omega)
    obtain ⟨rfl,rfl⟩ := Prod.mk.inj (Except.ok.inj (ran.symm.trans ran'))
    exact (steps.due_iff positive).mp all
  · intro all inputs delivers
    refine ⟨stepsLeft s.mTime s.mFinalTime dt + 1,fun fuel enough => ?_⟩
    obtain ⟨t,effects,ran,steps⟩ := executed inputs delivers fuel enough
    exact ⟨t,effects,ran,(steps.due_iff positive).mpr all⟩

end Simulation

/-- The steps of `threadFunction`: the test before the first one is on its own `time`, which
starts at zero. -/
def threadSteps (time final dt : ℚ) : Nat := if 0 < final then max 1 (stepsLeft time final dt) else 0

def threadTime (time dt : ℚ) (k : Nat) : ℚ := if k = 0 then 0 else time + k * dt

theorem threadTime_due_iff {dt : ℚ} (positive : 0 < dt) {time final : ℚ} {k : Nat}
    (most : k ≤ threadSteps time final dt) :
    threadTime time dt k < final ↔ k < threadSteps time final dt := by
  unfold threadTime threadSteps at *
  by_cases first : k = 0
  · subst first
    by_cases due : 0 < final <;> simp [due]
  · rw [if_neg first,due_iff positive]
    split at most <;> simp_all

namespace Python
variable {σ H : Type}

/-- How many more actions a thread takes at most before its next step, or its end. -/
def Pc.height : Pc → Nat
  | .opening => 15
  | .syncing => 14
  | .sleeping => 13
  | .overrunning => 12
  | .checkFirst => 11
  | .firstRunning => 10
  | .checkPausing => 9
  | .checkSingle => 8
  | .checkStopping => 7
  | .head => 6
  | .stepping => 5
  | .finishing => 4
  | .closing => 3
  | _ => 0

def Pc.counts (n k : Nat) : Pc → Prop
  | .opening | .syncing => k = 0
  | .stepping => k < n
  | .finishing | .closing | .returned .done => k = n
  | .toPause | .pausedWait | .toStop | .leaving | .returned .stopped => False
  | _ => k ≤ n

/-- A thread to which no request is made, `k` steps after it was created on the simulation `s`. -/
structure Unrequested (dt : ℚ) (good : σ → Prop) (s : DPsim.Simulation ℚ σ H) (k : Nat)
    (object : Simulation ℚ σ H) (t : Thread ℚ H) : Prop where
  single : object.singleStepping = false
  state : object.state ≠ .pausing ∧ object.state ≠ .stopping
  executed : DPsim.Simulation.Executed dt s object.sim t.effects k
  solvable : good object.sim.mSolver
  time : t.time = threadTime s.mTime dt k
  counts : t.pc.counts (threadSteps s.mTime s.mFinalTime dt) k

def remaining (dt : ℚ) (s : DPsim.Simulation ℚ σ H) (k : Nat) (t : Thread ℚ H) : Nat :=
  16 * (threadSteps s.mTime s.mFinalTime dt - k) + t.pc.height

section Actions
variable {solver : Solver ℚ σ H} {dt : ℚ} {good : σ → Prop} {s : DPsim.Simulation ℚ σ H}
  {self self' : Simulation ℚ σ H} {t t' : Thread ℚ H}

theorem act_unrequested (paces : DPsim.Simulation.Paces solver dt good)
    (unrequested : Unrequested dt good s k self t) (alive : t.alive = true) {input : Inputs H}
    (delivers : DPsim.Simulation.Delivers input) (overrun : Bool) :
    ∃ self' t', t.act solver self input overrun = some (self',t') := by
  have counts := unrequested.counts
  cases at_ : t.pc with
  | syncing =>
    obtain ⟨x,synced,sync⟩ := DPsim.Simulation.sync_delivers delivers self.sim
    by_cases starts : self.startSync = true
    · exact ⟨_,_,by simp only [Thread.act,at_,starts,if_true,sync]; rfl⟩
    · exact ⟨_,_,by simp only [Thread.act,at_,starts]; rfl⟩
  | stepping =>
    obtain ⟨x,effects,stepped,_⟩ := DPsim.Simulation.step_paces paces delivers unrequested.solvable
    exact ⟨_,_,by simp only [Thread.act,at_,stepped]; rfl⟩
  | pausedWait => simp [at_,Pc.counts] at counts
  | returned exit => simp [Thread.alive,at_] at alive
  | _ => exact ⟨_,_,by simp only [Thread.act,at_]; rfl⟩

theorem acted_unrequested (positive : 0 < dt) (paces : DPsim.Simulation.Paces solver dt good)
    (unrequested : Unrequested dt good s k self t) {input : Inputs H}
    (delivers : DPsim.Simulation.Delivers input)
    (acted : t.act solver self input overrun = some (self',t')) :
    ∃ k', Unrequested dt good s k' self' t' ∧ remaining dt s k' t' < remaining dt s k t := by
  obtain ⟨single,state,executed,solvable,time,counts⟩ := unrequested
  obtain ⟨pc,flags,announced,steps,quiet⟩ := Thread.act_does acted
  have single' := flags.singleStepping.trans single
  have final := executed.final
  have moves (other : t.pc ≠ .stepping) (next : t'.pc.counts (threadSteps s.mTime s.mFinalTime dt) k)
      (state' : self'.state ≠ .pausing ∧ self'.state ≠ .stopping) (lower : t'.pc.height < t.pc.height) :
      ∃ k', Unrequested dt good s k' self' t' ∧ remaining dt s k' t' < remaining dt s k t := by
    obtain ⟨solved,local_,h,sim⟩ := quiet other
    refine ⟨k,⟨single',state',?_,?_,local_.trans time,next⟩,by simp [remaining,lower]⟩
    swap
    · rw [sim]
      exact solvable
    obtain ⟨times,here,final,count⟩ := executed
    rw [sim]
    exact ⟨solved.trans times,here,final,count⟩
  cases at_ : t.pc with
  | stepping =>
    obtain ⟨⟨effects,stepped,appended⟩,local_⟩ := steps at_
    obtain ⟨x,effects',stepped',one,kept⟩ := DPsim.Simulation.step_paces paces delivers solvable
    obtain ⟨rfl,rfl⟩ := Prod.mk.inj (Except.ok.inj (stepped.symm.trans stepped'))
    have more : DPsim.Simulation.Executed dt s self'.sim t'.effects (k + 1) := by
      rw [appended]
      exact executed.trans one
    simp only [Thread.target,at_] at pc
    simp only [Thread.announces,at_,Option.getD_none] at announced
    simp only [at_,Pc.counts] at counts
    refine ⟨k + 1,⟨single',announced ▸ state,more,kept,?_,?_⟩,?_⟩
    · rw [local_,more.time]
      rfl
    · rw [pc]
      exact counts
    · simp only [remaining,pc,at_,Pc.height]
      omega
  | head =>
    simp only [at_,Pc.counts] at counts
    simp only [Thread.target,at_,time,final,threadTime_due_iff positive counts] at pc
    simp only [Thread.announces,at_,Option.getD_none] at announced
    refine moves (by simp [at_]) ?_ (announced ▸ state) ?_ <;> rw [pc] <;> split
    · assumption
    · exact Nat.le_antisymm counts (not_lt.mp ‹_›)
    all_goals simp [at_,Pc.height]
  | checkFirst | sleeping =>
    simp only [at_,Pc.counts] at counts
    simp only [Thread.target,at_] at pc
    simp only [Thread.announces,at_,Option.getD_none] at announced
    split at pc
    all_goals
      refine moves (by simp [at_]) ?_ (announced ▸ state) (by simp [at_,pc,Pc.height])
      rw [pc]
      exact counts
  | overrunning =>
    rw [at_] at counts
    simp only [Thread.target,at_] at pc
    simp only [Thread.announces,at_] at announced
    refine moves (by simp [at_]) (by rw [pc]; exact counts) ?_ (by simp [at_,pc,Pc.height])
    rw [announced]
    split
    · simp
    · exact state
  | firstRunning | finishing =>
    rw [at_] at counts
    simp only [Thread.target,at_] at pc
    simp only [Thread.announces,at_,Option.getD_some] at announced
    exact moves (by simp [at_]) (by rw [pc]; exact counts) (by simp [announced]) (by simp [at_,pc,Pc.height])
  | syncing =>
    simp only [at_,Pc.counts] at counts
    simp only [Thread.target,at_] at pc
    simp only [Thread.announces,at_,Option.getD_none] at announced
    refine moves (by simp [at_]) ?_ (announced ▸ state) (by simp [at_,pc,Pc.height])
    rw [pc,counts]
    exact Nat.zero_le _
  | opening | checkPausing | checkSingle | checkStopping | closing =>
    rw [at_] at counts
    simp only [Thread.target,at_,single,state,if_false,Bool.false_eq_true] at pc
    simp only [Thread.announces,at_,Option.getD_none] at announced
    exact moves (by simp [at_]) (by rw [pc]; exact counts) (announced ▸ state) (by simp [at_,pc,Pc.height])
  | toPause | pausedWait | toStop | leaving => simp [at_,Pc.counts] at counts
  | returned exit => simp [Thread.act,at_] at acted

end Actions

namespace World
variable {solver : Solver ℚ σ H} {dt : ℚ} {good : σ → Prop} {s : DPsim.Simulation ℚ σ H}

/-- No control call is made, thread `i` is the one that acts, and no interface fails. -/
def LeftAlone (i : Nat) : Action H → Prop
  | .call _ => False
  | .wake => True
  | .thread j input _ => j = i ∧ DPsim.Simulation.Delivers input

/-- Thread `i` was created on `s` and has been left alone; at most `n` of its actions are left. -/
structure Runs (dt : ℚ) (good : σ → Prop) (s : DPsim.Simulation ℚ σ H) (i n : Nat)
    (w : World ℚ σ H) : Prop where
  caller : w.caller = .idle ∨ w.caller = .waiting .start
  thread : ∃ t k, w.threads[i]? = some t ∧ Unrequested dt good s k w.self t ∧ remaining dt s k t ≤ n

theorem Runs.advances (paces : DPsim.Simulation.Paces solver dt good) {w : World ℚ σ H}
    (runs : Runs dt good s i n w) (at_ : w.threads[i]? = some t) (alive : t.alive = true)
    {input : Inputs H} (delivers : DPsim.Simulation.Delivers input) (overrun : Bool) :
    ∃ u, Step solver w (.thread i input overrun) u := by
  obtain ⟨caller,t',k,at',unrequested,_⟩ := runs
  obtain rfl : t = t' := Option.some.inj (at_.symm.trans at')
  obtain ⟨self',t',acted⟩ := act_unrequested paces unrequested alive delivers overrun
  have present : w.caller ≠ .freed := by rcases caller with c | c <;> simp [c]
  exact ⟨_,by simp only [Step,next,advance,if_neg present,at_,Option.bind_some,acted]; rfl⟩

theorem step_runs (positive : 0 < dt) (paces : DPsim.Simulation.Paces solver dt good) {w u : World ℚ σ H}
    {a : Action H} (runs : Runs dt good s i n w) (alone : LeftAlone i a) (moved : Step solver w a u) :
    ∃ m, Runs dt good s i m u ∧ m + actions i [(w,a)] ≤ n := by
  obtain ⟨caller,t,k,at_,unrequested,most⟩ := runs
  cases a with
  | call c => contradiction
  | wake =>
    obtain ⟨self,threads,_⟩ := wake_woken moved
    refine ⟨n,⟨?_,t,k,threads ▸ at_,self ▸ unrequested,most⟩,by simp [actions]⟩
    rcases caller with c | c
    · simp [Step,next,wake,c] at moved
    · simp only [Step,next,wake,c] at moved
      split at moved
      · contradiction
      · cases moved
        exact .inl (by simp [answer])
  | thread j input overrun =>
    obtain ⟨rfl,delivers⟩ := alone
    obtain ⟨same,_,t',v,here,threads,acted⟩ := advance_acted moved
    obtain rfl : t' = t := Option.some.inj (here.symm.trans at_)
    obtain ⟨k',later,less⟩ := acted_unrequested positive paces unrequested delivers acted
    have bound := (List.getElem?_eq_some_iff.mp at_).1
    refine ⟨remaining dt s k' v,⟨by rw [same]; exact caller,v,k',?_,later,le_refl _⟩,?_⟩
    · rw [threads]
      exact List.getElem?_set_self bound
    · simp [actions]
      omega

theorem run_runs (positive : 0 < dt) (paces : DPsim.Simulation.Paces solver dt good) {w v : World ℚ σ H}
    (path : Path (Step solver) w trace v) (runs : Runs dt good s i n w)
    (alone : ∀ p ∈ trace, LeftAlone i p.2) : ∃ m, Runs dt good s i m v ∧ m + actions i trace ≤ n := by
  induction path generalizing n with
  | nil => exact ⟨n,runs,by simp [actions]⟩
  | @cons w a u rest v moved path ih =>
    simp only [List.mem_cons,forall_eq_or_imp] at alone
    obtain ⟨m,next,first⟩ := step_runs positive paces runs alone.1 moved
    obtain ⟨l,last,later⟩ := ih next alone.2
    refine ⟨l,last,?_⟩
    have split : actions i ((w,a) :: rest) = actions i [(w,a)] + actions i rest := by
      simp only [actions,← List.countP_append,List.singleton_append]
    omega

theorem runs_complete (positive : 0 < dt) (paces : DPsim.Simulation.Paces solver dt good) {w : World ℚ σ H}
    (runs : Runs dt good s i n w) {input : Inputs H} (delivers : DPsim.Simulation.Delivers input) :
    ∃ trace v, Path (Step solver) w trace v ∧ (∀ p ∈ trace, LeftAlone i p.2) ∧
      ∃ t, v.threads[i]? = some t ∧ t.alive = false := by
  induction n using Nat.strongRecOn generalizing w with
  | ind n ih =>
    obtain ⟨t,k,at_,_,_⟩ := runs.thread
    by_cases alive : t.alive = true
    · obtain ⟨u,moved⟩ := runs.advances paces at_ alive delivers false
      have alone : LeftAlone i (.thread i input false) := ⟨rfl,delivers⟩
      obtain ⟨m,next,less⟩ := step_runs positive paces runs alone moved
      obtain ⟨trace,v,path,rest,ended⟩ := ih m (by simp [actions] at less; omega) next
      exact ⟨_,v,.cons moved path,List.forall_mem_cons.mpr ⟨alone,rest⟩,ended⟩
    · exact ⟨[],w,.nil,by simp,t,at_,by simpa using alive⟩

theorem start_runs {w u : World ℚ σ H} (stopped : w.self.state = .stopped)
    (solvable : good w.self.sim.mSolver) (called : Step solver w (.call .start) u) :
    ∃ n, Runs dt good w.self.sim w.threads.length n u := by
  have idle := (call_called called).1
  simp only [Step,next,call,idle,Call.enter,Simulation.start,stopped,ne_eq,not_true,reduceCtorEq,false_and,
    if_false] at called
  cases called
  refine ⟨_,.inr rfl,.create,0,by simp [loop,Call.keepsWaiting,create],?_,le_refl _⟩
  refine ⟨rfl,⟨by simp [loop,Call.keepsWaiting,create],by simp [loop,Call.keepsWaiting,create]⟩,
    .none rfl rfl rfl rfl,solvable,rfl,rfl⟩

/-- `threadFunction`, started on `s` and left alone, acts until it returns, which it does after
finitely many actions and having executed the steps that are due. -/
def ThreadDue (solver : Solver ℚ σ H) (dt : ℚ) (s : DPsim.Simulation ℚ σ H) : Prop :=
  ∀ w u : World ℚ σ H, w.self.sim = s → w.self.state = .stopped → Step solver w (.call .start) u →
    ∃ enough, ∀ trace v, Path (Step solver) u trace v →
      (∀ p ∈ trace, LeftAlone w.threads.length p.2) → actions w.threads.length trace ≤ enough ∧
        ∃ t, v.threads[w.threads.length]? = some t ∧
          ((∀ input overrun, DPsim.Simulation.Delivers input →
              ∃ x, Step solver v (.thread w.threads.length input overrun) x) ∨
            t.pc = .returned .done ∧ DPsim.Simulation.Due dt s v.self.sim t.effects)

theorem Runs.ended {w : World ℚ σ H} (runs : Runs dt good s i n w) (at_ : w.threads[i]? = some t)
    (ended : t.alive = false) : t.pc = .returned .done ∧
      DPsim.Simulation.Executed dt s w.self.sim t.effects (threadSteps s.mTime s.mFinalTime dt) := by
  obtain ⟨_,t',k,at',unrequested,_⟩ := runs
  obtain rfl : t = t' := Option.some.inj (at_.symm.trans at')
  have counts := unrequested.counts
  cases at_ : t.pc with
  | returned exit =>
    cases exit with
    | done =>
      simp only [at_,Pc.counts] at counts
      exact ⟨rfl,counts ▸ unrequested.executed⟩
    | stopped => simp [at_,Pc.counts] at counts
  | _ => simp [Thread.alive,at_] at ended

theorem threadDue_iff (positive : 0 < dt) (paces : DPsim.Simulation.Paces solver dt good)
    (solvable : good s.mSolver) : ThreadDue solver dt s ↔
      threadSteps s.mTime s.mFinalTime dt = stepsLeft s.mTime s.mFinalTime dt ∧
        DPsim.Simulation.CountFits dt s := by
  constructor
  · intro due
    have delivers : DPsim.Simulation.Delivers (⟨fun _ _ h => .ok h⟩ : Inputs H) := fun _ _ h => ⟨h,rfl⟩
    have called : Step solver (initial (Simulation.init s false false false false)) (.call .start) _ := rfl
    obtain ⟨n,runs⟩ : ∃ n, Runs dt good s 0 n _ := start_runs rfl solvable called
    obtain ⟨trace,v,path,alone,t,at_,ended⟩ := runs_complete positive paces runs delivers
    obtain ⟨m,last,_⟩ := run_runs positive paces path runs alone
    obtain ⟨_,returns⟩ := due _ _ rfl rfl called
    obtain ⟨_,t',at',either⟩ := returns trace v path alone
    obtain rfl : t = t' := Option.some.inj (at_.symm.trans at')
    obtain ⟨pc,executed⟩ := last.ended at_ ended
    rcases either with active | ⟨_,all⟩
    · obtain ⟨x,moved⟩ := active _ false delivers
      obtain ⟨_,_,u,_,here,_,acted⟩ := advance_acted moved
      obtain rfl : u = t := Option.some.inj (here.symm.trans at_)
      simp [Thread.act,pc] at acted
    · exact (executed.due_iff positive).mp all
  · rintro all w u rfl stopped called
    obtain ⟨n,runs⟩ : ∃ n, Runs dt good w.self.sim w.threads.length n u :=
      start_runs stopped solvable called
    refine ⟨n,fun trace v path alone => ?_⟩
    obtain ⟨m,last,used⟩ := run_runs positive paces path runs alone
    obtain ⟨t,k,at_,_⟩ := last.thread
    refine ⟨by omega,t,at_,?_⟩
    by_cases alive : t.alive = true
    · exact .inl fun input overrun delivers => last.advances paces at_ alive delivers overrun
    · obtain ⟨pc,executed⟩ := last.ended at_ (by simpa using alive)
      exact .inr ⟨pc,(executed.due_iff positive).mpr all⟩

end World
end Python

namespace MnaSolver
variable {V : VarType} {W : Type} {system : SystemTopology ℚ W}

structure Paced (system : SystemTopology ℚ W) (r : Nat) (dt : ℚ) (s : MnaSolver V ℚ W) : Prop where
  running : Running system r (system.mComponents.filterMap (·.mnaSwitch)).length s
  high : HighBitsZero s.mSwitches.length s.mCurrentSwitchStatus
  timeStep : s.mTimeStep = dt

/-- With at most two switches the steps of a run never fail, and each moves the time on by
`mTimeStep`. -/
theorem mna_paces (lib : Library ℚ W) (keep : KeepSizes system)
    (few : (system.mComponents.filterMap (·.mnaSwitch)).length ≤ 2) (r : Nat) (dt : ℚ) :
    Simulation.Paces (solver lib) dt (Paced (V := V) system r dt) := by
  constructor
  rintro time s h ⟨running,high,timeStep⟩
  have count : s.mSwitches.length = (system.mComponents.filterMap (·.mnaSwitch)).length :=
    congrArg List.length running.works.switches
  have known : KeyKnown r s := by
    rw [running.known_iff]
    by_cases none : (system.mComponents.filterMap (·.mnaSwitch)).length = 0
    · exact .inl none
    · have keys := (keys_suffice_iff (by omega) (by omega)).mpr few
      exact .inr (.inr (keys _ (count ▸ high)))
  obtain ⟨⟨nextTime,t,h'⟩,ran⟩ :=
    (step_conforms_iff lib keep running.works running.shaped time h).mpr known
  obtain ⟨u,solved,next,_,_⟩ := solverStep_ok.mp ran
  obtain ⟨_,_,solvedFrame,_⟩ := solve_frame solved
  obtain ⟨_,_,_,_,frame,_⟩ := step_frame ran
  have paced : nextTime = time + dt := by
    rw [next,← timeStep,solvedFrame]
    rfl
  subst paced
  have advances : Advances lib s (time,h) t := ⟨_,_,ran⟩
  refine ⟨t,h',ran,running.step keep advances,?_,by rw [frame]; exact timeStep⟩
  rw [frame]
  exact updateSwitchStatus_high h' (by omega) high

end MnaSolver

section Loops
variable {σ H : Type} {solver : Solver ℚ σ H} {dt : ℚ} {good : σ → Prop} {s : Simulation ℚ σ H}

theorem run_due_iff (positive : 0 < dt) (paces : Simulation.Paces solver dt good) (solvable : good s.mSolver) :
    Simulation.RunDue (Simulation.run solver) dt s ↔ Simulation.CountFits dt s := by
  rw [Simulation.runDue_iff (k := stepsLeft s.mTime s.mFinalTime dt) positive]
  · simp
  · intro inputs delivers fuel enough
    refine Simulation.runWith_executed delivers fun h => ?_
    obtain ⟨t,effects,ran,executed,_⟩ := Simulation.runLoop_executed (s := { s with heap := h })
      positive paces (fun k => delivers (k + 1)) solvable enough
    exact ⟨t,effects,ran,executed⟩

theorem realTime_executed (positive : 0 < dt) (paces : Simulation.Paces solver dt good)
    (solvable : good s.mSolver) {inputs : Nat → Inputs H} (delivers : ∀ k, Simulation.Delivers (inputs k))
    (enough : stepsLeft s.mTime s.mFinalTime dt < fuel) :
    ∃ t effects, RealTimeSimulation.run solver fuel inputs s = .ok (t, effects) ∧
      Simulation.Executed dt s t effects (max 1 (stepsLeft s.mTime s.mFinalTime dt)) := by
  refine Simulation.runWith_executed delivers fun h => ?_
  obtain ⟨t,effects,ran,executed,_⟩ := Simulation.realTimeLoop_executed (s := { s with heap := h }) positive
    paces (fun k => delivers (k + 1)) solvable enough
  exact ⟨t,effects,ran,executed⟩

theorem realTime_due_iff (positive : 0 < dt) (paces : Simulation.Paces solver dt good)
    (solvable : good s.mSolver) : Simulation.RunDue (RealTimeSimulation.run solver) dt s ↔
      s.mTime < s.mFinalTime ∧ Simulation.CountFits dt s := by
  rw [Simulation.runDue_iff positive fun _ delivers _ enough =>
      realTime_executed positive paces solvable delivers enough,
    ← stepsLeft_pos positive,max_eq_right_iff,Nat.one_le_iff_ne_zero,Nat.pos_iff_ne_zero]

theorem threadSteps_iff (positive : 0 < dt) (time final : ℚ) :
    threadSteps time final dt = stepsLeft time final dt ↔ (0 < final ↔ time < final) := by
  have some : 0 < stepsLeft time final dt ↔ time < final := stepsLeft_pos positive
  unfold threadSteps
  by_cases due : 0 < final
  · simp only [due,if_true,true_iff,← some]
    omega
  · simp only [due,if_false,false_iff,← some]
    omega

/-- `Simulation::run` always executes the steps that are due, `RealTimeSimulation::run` if there
is one at all, and a thread if there is one exactly when the final time is positive. -/
theorem loops_due_iff (positive : 0 < dt) (paces : Simulation.Paces solver dt good)
    (solvable : good s.mSolver) :
    (Simulation.RunDue (Simulation.run solver) dt s ∧
        Simulation.RunDue (RealTimeSimulation.run solver) dt s ∧ Python.World.ThreadDue solver dt s ↔
      s.mTime < s.mFinalTime ∧ 0 < s.mFinalTime ∧ Simulation.CountFits dt s) ∧
    (Simulation.RunDue (Simulation.run solver) dt s ↔ Simulation.CountFits dt s) ∧
    (Simulation.RunDue (RealTimeSimulation.run solver) dt s ↔
      s.mTime < s.mFinalTime ∧ Simulation.CountFits dt s) ∧
    (Python.World.ThreadDue solver dt s ↔
      (0 < s.mFinalTime ↔ s.mTime < s.mFinalTime) ∧ Simulation.CountFits dt s) := by
  have run := run_due_iff positive paces solvable
  have realTime := realTime_due_iff positive paces solvable
  have thread := Python.World.threadDue_iff positive paces solvable
  rw [threadSteps_iff positive] at thread
  refine ⟨?_,run,realTime,thread⟩
  rw [run,realTime,thread]
  tauto

end Loops

/-- A fresh simulation with the solver of a topology without switches. -/
theorem loops_due_iff_fresh : ∃ m g,
    (MnaSolver.make 1 .DP false (MnaSolver.threeNodes [MnaSolver.virtualSource 0 1]) :
      MnaSolver .complex ℚ Unit).initializeSystem MnaSolver.singlePhase (0 + 1) MnaSolver.noNodes =
        .ok (m, g) ∧
    let s : Simulation ℚ (MnaSolver .complex ℚ Unit) (Heap Unit) := ⟨0,5 / 2,0,m,EventQueue.empty,[],[],g⟩
    Simulation.RunDue (Simulation.run (MnaSolver.solver MnaSolver.singlePhase)) 1 s ∧
      Simulation.RunDue (RealTimeSimulation.run (MnaSolver.solver MnaSolver.singlePhase)) 1 s ∧
      Python.World.ThreadDue (MnaSolver.solver MnaSolver.singlePhase) 1 s := by
  have initialized : ∃ m g,
      (MnaSolver.make 1 .DP false (MnaSolver.threeNodes [MnaSolver.virtualSource 0 1]) :
        MnaSolver .complex ℚ Unit).initializeSystem MnaSolver.singlePhase (0 + 1) MnaSolver.noNodes =
          .ok (m, g) ∧ m.mTimeStep = 1 := ⟨_,_,rfl,rfl⟩
  obtain ⟨m,g,ran,timeStep⟩ := initialized
  have keep := MnaSolver.threeNodes_keepSizes 0 1
  obtain ⟨running,high⟩ := MnaSolver.initialized_running keep ran
  have paces := MnaSolver.mna_paces (V := .complex) MnaSolver.singlePhase keep (by decide)
    (MnaSolver.systemRows MnaSolver.singlePhase .complex (MnaSolver.threeNodes [MnaSolver.virtualSource 0 1])) 1
  refine ⟨m,g,ran,(loops_due_iff one_pos paces ⟨running,high,timeStep⟩).1.mpr ⟨?_,?_,fun _ _ => ?_⟩⟩
  · norm_num
  · norm_num
  · norm_num

def pace : Solver ℚ Unit Nat := ⟨fun time _ h => .ok (time + 1,(),h)⟩

def atEnd (time : ℚ) : Simulation ℚ Unit Nat := ⟨time,time,0,(),EventQueue.empty,[],[],0⟩

/-- With final time zero `RealTimeSimulation::run` executes the step at time zero; a thread that is
started at the final time executes one more step. -/
theorem step_at_final_time :
    (∃ t effects, RealTimeSimulation.run pace 2 (fun _ => ⟨fun _ _ h => .ok h⟩) (atEnd 0) =
        .ok (t, effects) ∧ solvedTimes effects = [0]) ∧
    ¬ Python.World.ThreadDue pace 1 (atEnd 2) ∧
    ¬ ∀ s : Simulation ℚ Unit Nat, Simulation.RunDue (Simulation.run pace) 1 s ∧
      Simulation.RunDue (RealTimeSimulation.run pace) 1 s ∧ Python.World.ThreadDue pace 1 s := by
  have paces : Simulation.Paces pace 1 (fun _ => True) := ⟨fun time _ h _ => ⟨(),h,rfl,trivial⟩⟩
  have none : stepsLeft 0 0 1 = 0 := stepsLeft_zero one_pos (lt_irrefl 0)
  have ended : ∃ t effects,
      RealTimeSimulation.run pace 2 (fun _ => ⟨fun _ _ h => .ok h⟩) (atEnd 0) = .ok (t, effects) ∧
        Simulation.Executed 1 (atEnd 0) t effects (max 1 (stepsLeft 0 0 1)) :=
    realTime_executed one_pos paces trivial (fun _ _ _ h => ⟨h,rfl⟩) (by simp [atEnd,none])
  obtain ⟨t,effects,ran,executed⟩ := ended
  refine ⟨⟨t,effects,ran,?_⟩,fun due => ?_,fun always => ?_⟩
  · simp [executed.times,atEnd,none]
  · obtain ⟨steps,_⟩ := (Python.World.threadDue_iff one_pos paces trivial).mp due
    exact absurd ((threadSteps_iff one_pos 2 2).mp steps) (by norm_num)
  · obtain ⟨due,_⟩ := (realTime_due_iff one_pos paces trivial).mp (always (atEnd 0)).2.1
    exact absurd due (by simp [atEnd])

end DPsim
