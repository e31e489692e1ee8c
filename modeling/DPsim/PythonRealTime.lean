import DPsim.PythonOverruns
import DPsim.PythonProgress
import DPsim.Timer
import Mathlib.Logic.Function.Basic

/-! Real-time runs with the readings of the clock. Each thread has a timer of its own, which it
starts before its loop and which goes on during a pause. -/
namespace DPsim.Python
open Transition

variable {Real σ H : Type} [LinearOrder Real]

structure Schedule where
  startTime : Int
  realTimeStep : Int

/-- The timer of a thread and the last reading of the steady clock; and what has released the
current step: the start, an expiration, or the end of a pause. -/
structure Clock where
  timer : Timer
  now : Int
  released : Int
  resumed : Bool

namespace Clock

def create : Clock := ⟨.make Timer.fail_on_overrun, 0, 0, false⟩

/-- What the next action of the thread does to its clock, and whether a sleep overruns. A step
is over, and a pause left, at the reading `steady`; a sleep is entered at the end of the step. -/
def act (schedule : Schedule) (realTime : Bool) (pc : Pc) (steady rt : Int) (c : Clock) :
    Option (Clock × Bool) :=
  match pc with
  | .syncing =>
    if realTime then
      let timer := (c.timer.setStartTime schedule.startTime).setInterval schedule.realTimeStep
      let start := timer.startInstant rt steady
      if c.now ≤ steady ∧ Timer.Representable start then
        (timer.start true rt steady).map fun timer => (⟨timer, steady, start, false⟩, false)
      else none
    else some (c, false)
  | .stepping => if c.now ≤ steady then some ({ c with now := steady }, false) else none
  | .sleeping =>
    if realTime then
      (c.timer.sleep true c.now).bind fun slept =>
        if Timer.Representable slept.now then
          let tick := slept.timer.mTimerFd.expiry (slept.timer.mTimerFd.reads - 1)
          some (⟨slept.timer, slept.now, tick, false⟩, slept.overrun.isSome)
        else none
    else some (c, false)
  | .pausedWait =>
    if c.now ≤ steady then some (⟨c.timer, steady, steady, true⟩, false) else none
  | _ => some (c, false)

end Clock

structure Timed (Real σ H : Type) [LinearOrder Real] where
  world : World Real σ H
  clocks : Nat → Clock

namespace Timed

inductive Label (H : Type) where
  | call (call : Call)
  | wake
  | thread (i : Nat) (input : Inputs H) (steady rt : Int)

def initial (self : Simulation Real σ H) : Timed Real σ H := ⟨.initial self, fun _ => .create⟩

def next [Zero Real] (schedule : Schedule) (solver : Solver Real σ H) (w : Timed Real σ H) :
    Label H → Option (Timed Real σ H)
  | .call c => (w.world.call c).map fun world => { w with world := world }
  | .wake => w.world.wake.map fun world => { w with world := world }
  | .thread i input steady rt => w.world.threads[i]?.bind fun t =>
    ((w.clocks i).act schedule w.world.self.realTime t.pc steady rt).bind fun (clock, overrun) =>
      (w.world.advance solver i input overrun).map fun world =>
        ⟨world, Function.update w.clocks i clock⟩

/-- A step is over within one interval of what released it. -/
def Quick (schedule : Schedule) (w : Timed Real σ H) : Label H → Prop
  | .thread i _ steady _ => ∀ t ∈ w.world.threads[i]?, t.pc = .stepping →
      steady < (w.clocks i).released + schedule.realTimeStep
  | _ => True

/-- The sleep after a pause is entered before the expiration after the next. -/
def InTime (w : Timed Real σ H) : Label H → Prop
  | .thread i _ _ _ => ∀ t ∈ w.world.threads[i]?, t.pc = .sleeping → (w.clocks i).resumed = true →
      (w.clocks i).now < (w.clocks i).timer.mTimerFd.expiry ((w.clocks i).timer.mTimerFd.reads + 1)
  | _ => True

/-- The steps of a run in which every simulation step is quick. -/
structure Step [Zero Real] (schedule : Schedule) (solver : Solver Real σ H) (w : Timed Real σ H)
    (l : Label H) (u : Timed Real σ H) : Prop where
  next : w.next schedule solver l = some u
  quick : w.Quick schedule l

structure Punctual (w : Timed Real σ H) : Prop where
  state : w.world.self.state ≠ .overrun
  threads : ∀ t ∈ w.world.threads, t.pc ≠ .overrunning
  overruns : ∀ i, (w.clocks i).timer.mOverruns = 0

end Timed

structure Clock.Armed (schedule : Schedule) (pc : Pc) (c : Clock) : Prop where
  interval : c.timer.mTimerFd.it_interval.nanoseconds = schedule.realTimeStep
  flags : c.timer.mFlags = Timer.fail_on_overrun
  started : Timer.Representable c.timer.mTimerFd.it_value.nanoseconds
  released : c.resumed = false → c.released ≤ c.timer.mTimerFd.expiry c.timer.mTimerFd.reads
  finished : pc = .sleeping → c.resumed = false → c.now < c.released + schedule.realTimeStep

def Clock.Keeps (schedule : Schedule) (pc : Pc) (c : Clock) : Prop :=
  if pc = .opening ∨ pc = .syncing then c = .create else c.Armed schedule pc

namespace Clock
variable {schedule : Schedule} {self : Simulation Real σ H} {t t' : Thread Real H} {c c' : Clock}

theorem sleep_punctual_iff (positive : 0 < schedule.realTimeStep) (armed : c.Armed schedule .sleeping)
    (acted : c.act schedule true .sleeping steady rt = some (c', overrun)) (none : c.timer.mOverruns = 0) :
    (overrun = false ∧ c'.timer.mOverruns = 0 ↔
        (c.resumed = true → c.now < c.timer.mTimerFd.expiry (c.timer.mTimerFd.reads + 1))) ∧
      (c'.timer.mOverruns = 0 ↔ overrun = false) := by
  obtain ⟨slept,sleeps,rest⟩ := Option.bind_eq_some_iff.mp (by simpa only [act,if_true] using acted)
  split at rest
  · rename_i ended
    cases rest
    have periodic : c.timer.Periodic true := by simpa [Timer.Periodic,armed.interval] using positive
    obtain ⟨overruns,counts⟩ := Timer.sleep_overrun_iff periodic armed.flags armed.started sleeps ended
    replace counts := counts none
    have unpaused : c.resumed = false → c.now < c.timer.mTimerFd.expiry (c.timer.mTimerFd.reads + 1) := by
      intro unpaused
      have finished := armed.finished rfl unpaused
      have released := armed.released unpaused
      have interval := armed.interval
      simp only [TimerFd.expiry,Nat.cast_add,Nat.cast_one,Int.add_mul,Int.one_mul] at released ⊢
      omega
    have either : (c.resumed = true → c.now < c.timer.mTimerFd.expiry (c.timer.mTimerFd.reads + 1)) ↔
        c.now < c.timer.mTimerFd.expiry (c.timer.mTimerFd.reads + 1) := by
      cases resumed : c.resumed <;> simp_all
    rw [either]
    simp [overruns,counts,Option.isSome_eq_false_iff]
  · contradiction

theorem Armed.moves (armed : c.Armed schedule pc) (other : pc' ≠ .sleeping) : c.Armed schedule pc' :=
  ⟨armed.interval,armed.flags,armed.started,armed.released,fun at_ => absurd at_ other⟩

/-- Every action of the thread keeps its clock, and only a sleep can overrun. -/
theorem act_keeps (positive : 0 < schedule.realTimeStep) (realTime : self.realTime = true)
    (keeps : c.Keeps schedule t.pc) (quick : t.pc = .stepping → steady < c.released + schedule.realTimeStep)
    (acted : c.act schedule self.realTime t.pc steady rt = some (c', overrun))
    (pc : t'.pc = t.target self overrun) (alive : t.alive = true) :
    c'.Keeps schedule t'.pc ∧
      (t.pc ≠ .sleeping → overrun = false ∧ (c.timer.mOverruns = 0 → c'.timer.mOverruns = 0)) := by
  rw [realTime] at acted
  cases at_ : t.pc with
  | opening =>
    simp only [act,at_] at acted
    cases acted
    simp only [Keeps,at_,true_or,if_true] at keeps
    simp only [Thread.target,at_] at pc
    exact ⟨by simpa [Keeps,pc] using keeps,fun _ => ⟨rfl,id⟩⟩
  | syncing =>
    simp only [Keeps,at_,or_true,if_true] at keeps
    simp only [Thread.target,at_] at pc
    simp only [act,at_,if_true,keeps] at acted
    split at acted
    · rename_i fits
      cases acted
      refine ⟨?_,fun _ => ⟨rfl,fun _ => rfl⟩⟩
      rw [pc,Keeps,if_neg (by simp)]
      refine ⟨to_timespec_nanoseconds _,rfl,?_,fun _ => ?_,by simp⟩
      · exact (to_timespec_nanoseconds _).symm ▸ fits.2
      · simp [TimerFd.expiry]
    · contradiction
  | stepping =>
    simp only [Keeps,at_,reduceCtorEq,or_self,if_false] at keeps
    simp only [Thread.target,at_] at pc
    simp only [act,at_] at acted
    split at acted
    · cases acted
      refine ⟨?_,fun _ => ⟨rfl,id⟩⟩
      rw [pc,Keeps,if_neg (by simp)]
      exact ⟨keeps.interval,keeps.flags,keeps.started,keeps.released,fun _ _ => quick at_⟩
    · contradiction
  | sleeping =>
    simp only [Keeps,at_,reduceCtorEq,or_self,if_false] at keeps
    simp only [Thread.target,at_] at pc
    simp only [act,at_,if_true] at acted
    obtain ⟨slept,sleeps,rest⟩ := Option.bind_eq_some_iff.mp acted
    split at rest
    · cases rest
      have periodic : c.timer.Periodic true := by simpa [Timer.Periodic,keeps.interval] using positive
      obtain ⟨flags,reads,kept⟩ := Timer.sleep_kept periodic sleeps
      have after : t'.pc ≠ .opening ∧ t'.pc ≠ .syncing ∧ t'.pc ≠ .sleeping := by
        rw [pc]
        split <;> simp
      refine ⟨?_,fun other => absurd rfl other⟩
      rw [Keeps,if_neg (by simp [after])]
      refine ⟨by rw [kept]; exact keeps.interval,flags.trans keeps.flags,by rw [kept]; exact keeps.started,
        fun _ => ?_,fun other => absurd other after.2.2⟩
      have interval := keeps.interval
      have last : ((reads - 1 : Nat) : Int) ≤ reads := Int.ofNat_le.mpr (Nat.sub_le _ 1)
      have passed := Int.mul_le_mul_of_nonneg_right last (interval ▸ positive.le)
      simp only [kept,TimerFd.expiry]
      omega
    · contradiction
  | pausedWait =>
    simp only [Keeps,at_,reduceCtorEq,or_self,if_false] at keeps
    simp only [Thread.target,at_] at pc
    simp only [act,at_] at acted
    split at acted
    · cases acted
      refine ⟨?_,fun _ => ⟨rfl,id⟩⟩
      rw [pc,Keeps,if_neg (by simp)]
      exact ⟨keeps.interval,keeps.flags,keeps.started,by simp,by simp⟩
    · contradiction
  | returned exit => simp [Thread.alive,at_] at alive
  | head | overrunning | checkFirst | firstRunning | checkPausing | checkSingle | toPause | checkStopping
    | toStop | leaving | finishing | closing =>
    simp only [Keeps,at_,reduceCtorEq,or_self,if_false] at keeps
    simp only [act,at_] at acted
    cases acted
    simp only [Thread.target,at_] at pc
    have after : t'.pc ≠ .opening ∧ t'.pc ≠ .syncing ∧ t'.pc ≠ .sleeping := by
      rw [pc]
      first | (split <;> simp) | simp
    refine ⟨?_,fun _ => ⟨rfl,id⟩⟩
    rw [Keeps,if_neg (by simp [after])]
    exact keeps.moves after.2.2

end Clock

namespace Timed
variable {schedule : Schedule}

structure Timekeeping (schedule : Schedule) (w : Timed Real σ H) : Prop where
  realTime : w.world.self.realTime = true
  absent : ∀ i : Nat, w.world.threads[i]? = none → w.clocks i = .create
  clocks : ∀ (i : Nat) t, w.world.threads[i]? = some t → (w.clocks i).Keeps schedule t.pc

variable {solver : Solver Real σ H}

structure Acted (schedule : Schedule) (solver : Solver Real σ H) (i : Nat) (input : Inputs H)
    (steady rt : Int) (w u : Timed Real σ H) (t t' : Thread Real H) (overrun : Bool) : Prop where
  thread : w.world.threads[i]? = some t
  clock : (w.clocks i).act schedule w.world.self.realTime t.pc steady rt = some (u.clocks i, overrun)
  others : ∀ j, j ≠ i → u.clocks j = w.clocks j
  threads : u.world.threads = w.world.threads.set i t'
  acts : t.act solver w.world.self input overrun = some (u.world.self, t')

theorem Acted.punctual_iff {w u : Timed Real σ H}
    (acted : Acted schedule solver i input steady rt w u t t' overrun)
    (realTime : w.world.self.realTime = true) (punctual : Punctual w)
    (unslept : t.pc ≠ .sleeping → overrun = false) :
    Punctual u ↔ overrun = false ∧ (u.clocks i).timer.mOverruns = 0 := by
  obtain ⟨pc,_,state,_⟩ := Thread.act_does acted.acts
  have handled : t.pc ≠ .overrunning := punctual.threads t (List.mem_of_getElem? acted.thread)
  have caught : t'.pc = .overrunning ↔ overrun = true := by
    rw [pc]
    cases at_ : t.pc with
    | overrunning => exact absurd at_ handled
    | sleeping =>
      cases overrun <;> simp [Thread.target,at_,realTime]
    | _ =>
      have fine := unslept (by simp [at_])
      simp only [Thread.target,at_,fine]
      first | (split <;> simp) | simp
  have announced : u.world.self.state ≠ .overrun := by
    rw [state]
    cases at_ : t.pc with
    | overrunning => exact absurd at_ handled
    | pausedWait =>
      simp only [Thread.announces,at_]
      split
      · simp
      · exact punctual.state
    | firstRunning | toPause | toStop | finishing => simp [Thread.announces,at_]
    | _ =>
      simp only [Thread.announces,at_]
      exact punctual.state
  have bound := (List.getElem?_eq_some_iff.mp acted.thread).1
  constructor
  · intro after
    have here : t' ∈ u.world.threads := acted.threads ▸ List.mem_set bound t'
    exact ⟨by simpa using mt caught.mpr (after.threads t' here),after.overruns i⟩
  · rintro ⟨fine,none⟩
    refine ⟨announced,fun v member => ?_,fun j => ?_⟩
    · rw [acted.threads] at member
      rcases List.mem_or_eq_of_mem_set member with old | rfl
      · exact punctual.threads v old
      · simp [caught,fine]
    · by_cases other : j = i
      · rw [other]
        exact none
      · rw [acted.others j other]
        exact punctual.overruns j

variable [Zero Real]

theorem next_acted {w u : Timed Real σ H}
    (moved : w.next schedule solver (.thread i input steady rt) = some u) :
    ∃ t t' overrun, Acted schedule solver i input steady rt w u t t' overrun := by
  obtain ⟨t,at_,rest⟩ := Option.bind_eq_some_iff.mp moved
  obtain ⟨⟨c,overrun⟩,clock,rest⟩ := Option.bind_eq_some_iff.mp rest
  obtain ⟨world,advanced,rfl⟩ := Option.map_eq_some_iff.mp rest
  obtain ⟨_,_,v,t',here,threads,acts⟩ := World.advance_acted advanced
  obtain rfl : v = t := Option.some.inj (here.symm.trans at_)
  exact ⟨v,t',overrun,at_,by simpa using clock,fun j other => by simp [other],threads,acts⟩

theorem call_threads {w u : World Real σ H} {c : Call} (called : World.Called w u c) :
    (u.threads = w.threads ∨ u.threads = w.threads ++ [Thread.create]) ∧
      (w.self.state ≠ .overrun → u.self.state ≠ .overrun) := by
  cases called with
  | frees _ self threads => exact ⟨.inl threads,by rw [self]; exact id⟩
  | raises _ _ state threads => exact ⟨.inl threads,by rw [state]; exact id⟩
  | resumes _ _ _ state threads | pauses _ state threads | stops _ _ _ state threads =>
    exact ⟨.inl threads,by simp [state]⟩
  | creates _ _ state threads => exact ⟨.inr threads,by simp [state]⟩

theorem step_timekeeping (positive : 0 < schedule.realTimeStep) (w : Timed Real σ H) (l : Label H)
    (u : Timed Real σ H) (keeps : Timekeeping schedule w) (step : Step schedule solver w l u) :
    Timekeeping schedule u := by
  obtain ⟨moved,quick⟩ := step
  cases l with
  | call c =>
    obtain ⟨world,called,rfl⟩ := Option.map_eq_some_iff.mp moved
    have realTime := (World.call_kept called).2.trans keeps.realTime
    rcases (call_threads (World.call_called called).2).1 with same | created
    · exact ⟨realTime,fun i none => keeps.absent i (same ▸ none),
        fun i t at_ => keeps.clocks i t (same ▸ at_)⟩
    · refine ⟨realTime,fun i none => keeps.absent i ?_,fun i t at_ => ?_⟩
      · rw [created,List.getElem?_eq_none_iff,List.length_append] at none
        exact List.getElem?_eq_none (by omega)
      · rw [created] at at_
        by_cases old : i < w.world.threads.length
        · rw [List.getElem?_append_left old] at at_
          exact keeps.clocks i t at_
        · have new := keeps.absent i (List.getElem?_eq_none (by omega))
          have here : t = .create := by
            rw [List.getElem?_append_right (by omega)] at at_
            exact List.mem_singleton.mp (List.mem_of_getElem? at_)
          simp [Clock.Keeps,here,Thread.create,new]
  | wake =>
    obtain ⟨world,woken,rfl⟩ := Option.map_eq_some_iff.mp moved
    obtain ⟨self,threads,_⟩ := World.wake_woken woken
    exact ⟨by rw [self]; exact keeps.realTime,fun i none => keeps.absent i (threads ▸ none),
      fun i t at_ => keeps.clocks i t (threads ▸ at_)⟩
  | thread i input steady rt =>
    obtain ⟨t,t',overrun,acted⟩ := next_acted moved
    obtain ⟨pc,flags,_⟩ := Thread.act_does acted.acts
    have alive := (Thread.act_moved acted.acts).2.alive
    have kept := (Clock.act_keeps positive keeps.realTime (keeps.clocks i t acted.thread)
      (quick t acted.thread) acted.clock pc alive).1
    have bound := (List.getElem?_eq_some_iff.mp acted.thread).1
    refine ⟨flags.realTime.trans keeps.realTime,fun j none => ?_,fun j v at_ => ?_⟩
    · have other : j ≠ i := by
        rintro rfl
        rw [acted.threads,List.getElem?_set_self bound] at none
        contradiction
      rw [acted.threads,List.getElem?_set_ne other.symm] at none
      rw [acted.others j other]
      exact keeps.absent j none
    · by_cases other : j = i
      · subst other
        rw [acted.threads,List.getElem?_set_self bound] at at_
        cases at_
        exact kept
      · rw [acted.threads,List.getElem?_set_ne (Ne.symm other)] at at_
        rw [acted.others j other]
        exact keeps.clocks j v at_

theorem step_punctual_iff (positive : 0 < schedule.realTimeStep) (w : Timed Real σ H) (l : Label H)
    (u : Timed Real σ H) (keeps : Timekeeping schedule w) (punctual : Punctual w)
    (step : Step schedule solver w l u) : Punctual u ↔ InTime w l := by
  obtain ⟨moved,quick⟩ := step
  cases l with
  | call c =>
    obtain ⟨world,called,rfl⟩ := Option.map_eq_some_iff.mp moved
    obtain ⟨threads,state⟩ := call_threads (World.call_called called).2
    refine iff_of_true ⟨state punctual.state,fun t member => ?_,punctual.overruns⟩ trivial
    rcases threads with same | created
    · exact punctual.threads t (same ▸ member)
    · rw [created] at member
      rcases List.mem_append.mp member with old | new
      · exact punctual.threads t old
      · simp [List.mem_singleton.mp new,Thread.create]
  | wake =>
    obtain ⟨world,woken,rfl⟩ := Option.map_eq_some_iff.mp moved
    obtain ⟨self,threads,_⟩ := World.wake_woken woken
    exact iff_of_true ⟨by rw [self]; exact punctual.state,
      fun t member => punctual.threads t (threads ▸ member),punctual.overruns⟩ trivial
  | thread i input steady rt =>
    obtain ⟨t,t',overrun,acted⟩ := next_acted moved
    obtain ⟨pc,_⟩ := Thread.act_does acted.acts
    have alive := (Thread.act_moved acted.acts).2.alive
    have held := keeps.clocks i t acted.thread
    have unslept :=
      (Clock.act_keeps positive keeps.realTime held (quick t acted.thread) acted.clock pc alive).2
    rw [acted.punctual_iff keeps.realTime punctual fun other => (unslept other).1]
    by_cases at_ : t.pc = .sleeping
    · have clock := acted.clock
      rw [at_,keeps.realTime] at clock
      have armed : (w.clocks i).Armed schedule .sleeping := by simpa [Clock.Keeps,at_] using held
      rw [(Clock.sleep_punctual_iff positive armed clock (punctual.overruns i)).1]
      simp [InTime,acted.thread,at_]
    · obtain ⟨fine,none⟩ := unslept at_
      exact iff_of_true ⟨fine,none (punctual.overruns i)⟩ (by simp [InTime,acted.thread,at_])

/-- In every real-time run in which all steps are quick, no sleep overruns and the state is never
`overrun` exactly if each sleep that follows a pause is entered before the expiration after the
next one: the ticks of the pause count. -/
theorem pauses_punctual_iff (sim : DPsim.Simulation Real σ H) (startSync failOnOverrun singleStepping : Bool)
    (positive : 0 < schedule.realTimeStep)
    (path : Path (Step schedule solver)
      (initial (Simulation.init sim true startSync failOnOverrun singleStepping)) trace w) :
    (∀ x ∈ states trace w, Punctual x) ↔ ∀ p ∈ trace, InTime p.1 p.2 := by
  refine path.good_iff_guarded (step_timekeeping positive) (step_punctual_iff positive) ?_ ?_
  · exact ⟨rfl,fun _ _ => rfl,fun i t at_ => by simp [initial,World.initial] at at_⟩
  · exact ⟨by simp [initial,World.initial,Simulation.init],by simp [initial,World.initial],fun _ => rfl⟩

instance (schedule : Schedule) (w : Timed Real σ H) : DecidablePred (Quick schedule w)
  | .call _ => .isTrue trivial
  | .wake => .isTrue trivial
  | .thread i _ _ _ => inferInstanceAs (Decidable (∀ t ∈ w.world.threads[i]?, _))

instance (w : Timed Real σ H) : DecidablePred (InTime w)
  | .call _ => .isTrue trivial
  | .wake => .isTrue trivial
  | .thread i _ _ _ => inferInstanceAs (Decidable (∀ t ∈ w.world.threads[i]?, _))

def actsAt (readings : List Int) : List (Label Nat) :=
  readings.map fun steady => .thread 0 World.quiet steady 0

/-- Started at 100 and paused after the first step, up to the reading `resume`; then the second
step, which takes one nanosecond. -/
def pausedUntil (resume : Int) : List (Label Nat) :=
  [Label.call .start] ++ actsAt [100,100,100,101,101,101,101] ++ [Label.wake,.call .pause] ++ actsAt [101,101] ++
    [Label.wake,.call .start] ++ actsAt [resume,resume,resume,resume + 1,resume + 1,resume + 1]

def everyTen : Schedule := ⟨-1,10⟩

def pausedTrace (resume : Int) : List (Timed Nat Unit Nat × Label Nat) :=
  traceOf (next everyTen World.clock) (initial World.realTimeObject) (pausedUntil resume)

def pausedRun (resume : Int) : Timed Nat Unit Nat :=
  finalOf (next everyTen World.clock) (initial World.realTimeObject) (pausedUntil resume)

theorem pausedRun_path {resume : Int} (quick : ∀ p ∈ pausedTrace resume, Quick everyTen p.1 p.2) :
    Path (Step everyTen World.clock) (initial World.realTimeObject) (pausedTrace resume) (pausedRun resume) :=
  (path_of_labels _ _ (pausedUntil resume)).guarded (fun _ _ _ moved quick => ⟨moved,quick⟩) quick

theorem pauses_punctual_iff_short : (∀ x ∈ states (pausedTrace 105) (pausedRun 105), Punctual x) ∧
    (pausedRun 105).world.self.sim.mTimeStepCount = 2 :=
  ⟨(pauses_punctual_iff _ false true false (by decide) (pausedRun_path (by decide))).mpr (by decide),
    by decide⟩

/-- A pause of ten intervals: the step after it is quick, and its sleep overruns. -/
theorem pause_overruns : (∀ p ∈ pausedTrace 200, Quick everyTen p.1 p.2) ∧
    (pausedRun 200).world.self.state = .overrun ∧
    ¬ ∀ trace w, Path (Step everyTen World.clock) (initial World.realTimeObject) trace w →
      ∀ x ∈ states trace w, Punctual x := by
  have quick : ∀ p ∈ pausedTrace 200, Quick everyTen p.1 p.2 := by decide
  have overrun : (pausedRun 200).world.self.state = .overrun := by decide
  refine ⟨quick,overrun,fun always => ?_⟩
  exact (always _ _ (pausedRun_path quick) _ (final_mem_states _ _)).state overrun

end Timed
end DPsim.Python
