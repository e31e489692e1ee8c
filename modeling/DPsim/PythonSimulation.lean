import DPsim.Simulation
import DPsim.Transition

/-! The Python `Simulation` object: its control calls, and the threads that run
`threadFunction`. What a call does under the mutex up to its wait loop is one action, and so
is what a thread does under the mutex; reads outside it are single actions. A wait is
left by an action of its own once its condition is met. -/
namespace DPsim.Python

inductive State where
  | stopped
  | starting
  | running
  | pausing
  | paused
  | resuming
  | stopping
  | failed
  | overrun
  | done
  deriving DecidableEq, Repr

variable {Real σ H : Type}

/-- The fields of the object; `channel` is the sequence of event codes sent, and a thread is
known by the position at which it was created. -/
structure Simulation (Real σ H : Type) [LinearOrder Real] where
  sim : DPsim.Simulation Real σ H
  channel : List State
  thread : Option Nat
  state : State
  realTime : Bool
  startSync : Bool
  failOnOverrun : Bool
  singleStepping : Bool

/-- What a control call does before its wait loop. -/
inductive Entry where
  | raises (message : String)
  | waits
  | creates
  deriving DecidableEq, Repr

namespace Simulation
variable [LinearOrder Real]

def newState (self : Simulation Real σ H) (newState : State) : Simulation Real σ H :=
  { self with
    channel := self.channel ++ [newState]
    state := newState }

@[simp] theorem newState_state (self : Simulation Real σ H) (s : State) :
    (self.newState s).state = s := rfl

@[simp] theorem newState_sim (self : Simulation Real σ H) (s : State) :
    (self.newState s).sim = self.sim := rfl

def init (sim : DPsim.Simulation Real σ H) (realTime startSync failOnOverrun singleStepping : Bool) :
    Simulation Real σ H :=
  ⟨sim, [], none, .stopped, realTime, startSync, failOnOverrun, singleStepping⟩

def pause (self : Simulation Real σ H) : Simulation Real σ H × Entry :=
  if self.state ≠ .running then (self, .raises "Simulation not currently running")
  else (self.newState .pausing, .waits)

def start (self : Simulation Real σ H) : Simulation Real σ H × Entry :=
  let self := { self with singleStepping := false }
  if self.state = .running then (self, .raises "Simulation already started")
  else if self.state = .done then (self, .raises "Simulation already finished")
  else if self.state = .paused then (self.newState .resuming, .waits)
  else (self.newState .starting, .creates)

def step (self : Simulation Real σ H) : Simulation Real σ H × Entry :=
  let self := { self with singleStepping := true }
  if self.state = .stopped then (self.newState .starting, .creates)
  else if self.state = .paused then (self.newState .resuming, .waits)
  else if self.state = .done then (self, .raises "Simulation already finished")
  else (self, .raises "Simulation currently running")

def stop (self : Simulation Real σ H) : Simulation Real σ H × Entry :=
  if self.state ≠ .running ∧ self.state ≠ .paused then
    (self, .raises "Simulation currently not running")
  else (self.newState .stopping, .waits)

end Simulation

inductive Exit where
  | done
  | stopped
  deriving DecidableEq, Repr

inductive Pc where
  | opening
  | syncing
  | head
  | stepping
  | sleeping
  | overrunning
  | checkFirst
  | firstRunning
  | checkPausing
  | checkSingle
  | toPause
  | pausedWait
  | checkStopping
  | toStop
  | leaving
  | finishing
  | closing
  | returned (exit : Exit)
  deriving DecidableEq, Repr

structure Thread (Real H : Type) where
  pc : Pc
  time : Real
  effects : List (Effect Real H)

namespace Thread

def create [Zero Real] : Thread Real H := ⟨.opening, 0, []⟩

def alive (t : Thread Real H) : Bool :=
  match t.pc with
  | .returned _ => false
  | _ => true

def goto (t : Thread Real H) (pc : Pc) : Thread Real H := { t with pc := pc }

@[simp] theorem goto_pc (t : Thread Real H) (pc : Pc) : (t.goto pc).pc = pc := rfl

variable [LinearOrder Real]

/-- The next action of a thread, with what its interfaces receive and whether the timer
reports an overrun. `none` is a thread that waits, has returned, or has thrown, which
terminates the process. -/
def act (solver : Solver Real σ H) (self : Simulation Real σ H) (input : Inputs H) (overrun : Bool)
    (t : Thread Real H) : Option (Simulation Real σ H × Thread Real H) :=
  match t.pc with
  | .opening =>
    let (sim, opens) := self.sim.onInterfaces Interface.«open»
    some ({ self with sim := sim }, ⟨.syncing, t.time, t.effects ++ opens⟩)
  | .syncing =>
    if self.startSync then
      match self.sim.sync input with
      | .ok (sim, synced) => some ({ self with sim := sim }, ⟨.head, t.time, t.effects ++ synced⟩)
      | .error _ => none
    else some (self, t.goto .head)
  | .head => some (self, t.goto (if t.time < self.sim.mFinalTime then .stepping else .finishing))
  | .stepping =>
    match self.sim.step solver input with
    | .ok (sim, stepped) =>
      some ({ self with sim := sim }, ⟨.sleeping, sim.mTime, t.effects ++ stepped⟩)
    | .error _ => none
  | .sleeping => some (self, t.goto (if self.realTime && overrun then .overrunning else .checkFirst))
  | .overrunning =>
    some (if self.failOnOverrun then self.newState .overrun else self, t.goto .checkFirst)
  | .checkFirst =>
    some (self, t.goto (if self.sim.mTimeStepCount = 1 then .firstRunning else .checkPausing))
  | .firstRunning => some (self.newState .running, t.goto .checkPausing)
  | .checkPausing => some (self, t.goto (if self.state = .pausing then .toPause else .checkSingle))
  | .checkSingle => some (self, t.goto (if self.singleStepping then .toPause else .checkStopping))
  | .toPause => some (self.newState .paused, t.goto .pausedWait)
  | .pausedWait =>
    if self.state = .paused then none
    else some (if self.state = .resuming then self.newState .running else self, t.goto .checkStopping)
  | .checkStopping => some (self, t.goto (if self.state = .stopping then .toStop else .head))
  | .toStop => some (self.newState .stopped, t.goto .leaving)
  | .leaving => some (self, t.goto (.returned .stopped))
  | .finishing => some (self.newState .done, t.goto .closing)
  | .closing =>
    let (sim, closes) := self.sim.onInterfaces Interface.close
    some ({ self with sim := sim },
      ⟨.returned .done, t.time, t.effects ++ closes ++ self.sim.flushLoggers⟩)
  | .returned _ => none

def fresh (t : Thread Real H) : Bool :=
  match t.pc with
  | .toStop | .leaving | .closing | .returned _ => false
  | _ => true

omit [LinearOrder Real] in
theorem alive_of_fresh {t : Thread Real H} (fresh : t.fresh = true) : t.alive = true := by
  unfold Thread.fresh at fresh
  unfold alive
  split at fresh <;> simp_all

/-- What an action of a thread does to the state, and which part of the loop it belongs to. -/
inductive Moved (self self' : Simulation Real σ H) (t t' : Thread Real H) : Prop where
  | continues (before : t.fresh = true) (after : t'.fresh = true) (pc : t'.pc ≠ .pausedWait)
      (state : self'.state = self.state)
  | reports (before : t.fresh = true) (after : t'.fresh = true) (pc : t'.pc ≠ .pausedWait)
      (state : self'.state = .running ∨ self'.state = .overrun)
  | pauses (before : t.pc = .toPause) (after : t'.pc = .pausedWait) (state : self'.state = .paused)
  | obeys (before : t.pc = .checkStopping) (after : t'.pc = .toStop) (requested : self.state = .stopping)
      (state : self'.state = self.state)
  | stops (before : t.pc = .toStop) (after : t'.pc = .leaving) (state : self'.state = .stopped)
  | finishes (before : t.pc = .finishing) (after : t'.pc = .closing) (state : self'.state = .done)
  | returns (before : t.pc = .leaving ∨ t.pc = .closing) (after : t'.alive = false)
      (state : self'.state = self.state)

theorem act_moved {solver : Solver Real σ H} {self self' : Simulation Real σ H} {t t' : Thread Real H}
    (acted : t.act solver self input overrun = some (self', t')) :
    self'.thread = self.thread ∧ Moved self self' t t' := by
  have goes {target : Pc} (before : t.fresh = true) (after : (t.goto target).fresh = true)
      (awake : target ≠ .pausedWait) (acted : some (self,t.goto target) = some (self',t')) :
      self'.thread = self.thread ∧ Moved self self' t t' := by
    obtain ⟨rfl,rfl⟩ := Prod.mk.inj (Option.some.inj acted)
    exact ⟨rfl,.continues before after awake rfl⟩
  cases at_ : t.pc with
  | opening =>
    simp only [act,at_,Option.some.injEq,Prod.mk.injEq] at acted
    obtain ⟨rfl,rfl⟩ := acted
    exact ⟨rfl,.continues (by simp [fresh,at_]) rfl (by simp) rfl⟩
  | syncing =>
    simp only [act,at_] at acted
    split at acted
    · split at acted
      · obtain ⟨rfl,rfl⟩ := Prod.mk.inj (Option.some.inj acted)
        exact ⟨rfl,.continues (by simp [fresh,at_]) rfl (by simp) rfl⟩
      · contradiction
    · exact goes (by simp [fresh,at_]) rfl (by simp) acted
  | stepping =>
    simp only [act,at_] at acted
    split at acted
    · obtain ⟨rfl,rfl⟩ := Prod.mk.inj (Option.some.inj acted)
      exact ⟨rfl,.continues (by simp [fresh,at_]) rfl (by simp) rfl⟩
    · contradiction
  | head | sleeping | checkFirst | checkPausing | checkSingle =>
    simp only [act,at_] at acted
    refine goes (by simp [fresh,at_]) ?_ ?_ acted <;> split <;> simp [fresh]
  | overrunning =>
    simp only [act,at_,Option.some.injEq,Prod.mk.injEq] at acted
    obtain ⟨rfl,rfl⟩ := acted
    split
    · exact ⟨rfl,.reports (by simp [fresh,at_]) rfl (by simp) (.inr rfl)⟩
    · exact ⟨rfl,.continues (by simp [fresh,at_]) rfl (by simp) rfl⟩
  | firstRunning =>
    simp only [act,at_,Option.some.injEq,Prod.mk.injEq] at acted
    obtain ⟨rfl,rfl⟩ := acted
    exact ⟨rfl,.reports (by simp [fresh,at_]) rfl (by simp) (.inl rfl)⟩
  | toPause =>
    simp only [act,at_,Option.some.injEq,Prod.mk.injEq] at acted
    obtain ⟨rfl,rfl⟩ := acted
    exact ⟨rfl,.pauses at_ rfl rfl⟩
  | pausedWait =>
    simp only [act,at_] at acted
    split at acted
    · contradiction
    · obtain ⟨rfl,rfl⟩ := Prod.mk.inj (Option.some.inj acted)
      split
      · exact ⟨rfl,.reports (by simp [fresh,at_]) rfl (by simp) (.inl rfl)⟩
      · exact ⟨rfl,.continues (by simp [fresh,at_]) rfl (by simp) rfl⟩
  | checkStopping =>
    simp only [act,at_,Option.some.injEq,Prod.mk.injEq] at acted
    obtain ⟨rfl,rfl⟩ := acted
    split
    · rename_i requested
      exact ⟨rfl,.obeys at_ rfl requested rfl⟩
    · exact ⟨rfl,.continues (by simp [fresh,at_]) rfl (by simp) rfl⟩
  | toStop =>
    simp only [act,at_,Option.some.injEq,Prod.mk.injEq] at acted
    obtain ⟨rfl,rfl⟩ := acted
    exact ⟨rfl,.stops at_ rfl rfl⟩
  | leaving =>
    simp only [act,at_,Option.some.injEq,Prod.mk.injEq] at acted
    obtain ⟨rfl,rfl⟩ := acted
    exact ⟨rfl,.returns (.inl at_) rfl rfl⟩
  | finishing =>
    simp only [act,at_,Option.some.injEq,Prod.mk.injEq] at acted
    obtain ⟨rfl,rfl⟩ := acted
    exact ⟨rfl,.finishes at_ rfl rfl⟩
  | closing =>
    simp only [act,at_,Option.some.injEq,Prod.mk.injEq] at acted
    obtain ⟨rfl,rfl⟩ := acted
    exact ⟨rfl,.returns (.inr at_) rfl rfl⟩
  | returned exit => simp [act,at_] at acted

end Thread

inductive Call where
  | start
  | step
  | pause
  | stop
  | dealloc
  deriving DecidableEq, Repr

/-- The calling Python code: one call at a time, and none after the deallocation. -/
inductive Caller where
  | idle
  | waiting (call : Call)
  | joining
  | freed
  deriving DecidableEq, Repr

inductive Answer where
  | returned
  | raised (message : String)
  deriving DecidableEq, Repr

/-- The condition of a call's `while` loop; `dealloc` waits in the `stop` it calls. -/
def Call.keepsWaiting (call : Call) (state : State) : Bool :=
  match call with
  | .start => state ≠ .running
  | .step => state = .running
  | .pause => state ≠ .paused
  | .stop | .dealloc => state ≠ .stopped

/-- The calls that start a new thread, by the state they find. -/
def Call.creates (call : Call) (state : State) : Bool :=
  match call with
  | .start => state ≠ .running ∧ state ≠ .done ∧ state ≠ .paused
  | .step => state = .stopped
  | _ => false

variable [LinearOrder Real]

def Call.enter (call : Call) (self : Simulation Real σ H) : Simulation Real σ H × Entry :=
  match call with
  | .start => self.start
  | .step => self.step
  | .pause => self.pause
  | .stop | .dealloc => self.stop

structure World (Real σ H : Type) [LinearOrder Real] where
  self : Simulation Real σ H
  threads : List (Thread Real H)
  caller : Caller
  answers : List Answer

inductive Action (H : Type) where
  | call (call : Call)
  | wake
  | thread (i : Nat) (input : Inputs H) (overrun : Bool)

namespace World

def initial (self : Simulation Real σ H) : World Real σ H := ⟨self, [], .idle, []⟩

def answer (w : World Real σ H) (call : Call) (a : Answer) : World Real σ H :=
  if call = .dealloc then { w with caller := .joining }
  else { w with
    caller := .idle
    answers := w.answers ++ [a] }

def loop (w : World Real σ H) (call : Call) : World Real σ H :=
  if call.keepsWaiting w.self.state then { w with caller := .waiting call }
  else w.answer call .returned

def create [Zero Real] (w : World Real σ H) : World Real σ H :=
  { w with
    self := { w.self with thread := some w.threads.length }
    threads := w.threads ++ [Thread.create] }

/-- Without a thread `dealloc` only frees the object. -/
def call [Zero Real] (w : World Real σ H) (call : Call) : Option (World Real σ H) :=
  if w.caller ≠ .idle then none
  else if call = .dealloc ∧ w.self.thread = none then some { w with caller := .freed }
  else
    let entry := call.enter w.self
    let w := { w with self := entry.1 }
    match entry.2 with
    | .raises message => some (w.answer call (.raised message))
    | .waits => some (w.loop call)
    | .creates => some (w.create.loop call)

/-- The caller leaves a wait loop, or the join. -/
def wake (w : World Real σ H) : Option (World Real σ H) :=
  match w.caller with
  | .waiting call => if call.keepsWaiting w.self.state then none else some (w.answer call .returned)
  | .joining =>
    if ∃ i ∈ w.self.thread, ∃ t ∈ w.threads[i]?, t.alive = false then some { w with caller := .freed }
    else none
  | _ => none

def advance (solver : Solver Real σ H) (w : World Real σ H) (i : Nat) (input : Inputs H)
    (overrun : Bool) : Option (World Real σ H) :=
  if w.caller = .freed then none
  else w.threads[i]?.bind fun t => (t.act solver w.self input overrun).map fun (self, t) =>
    { w with
      self := self
      threads := w.threads.set i t }

def next [Zero Real] (solver : Solver Real σ H) (w : World Real σ H) :
    Action H → Option (World Real σ H)
  | .call c => w.call c
  | .wake => w.wake
  | .thread i input overrun => w.advance solver i input overrun

def Step [Zero Real] (solver : Solver Real σ H) (w : World Real σ H) (a : Action H)
    (u : World Real σ H) : Prop := w.next solver a = some u

section Inversion

inductive Called [Zero Real] (w u : World Real σ H) : Call → Prop where
  | frees (thread : w.self.thread = none) (self : u.self = w.self) (threads : u.threads = w.threads)
      (caller : u.caller = .freed) : Called w u .dealloc
  | raises (c : Call) (old : c.creates w.self.state = false) (state : u.self.state = w.self.state)
      (threads : u.threads = w.threads) (caller : u.caller = if c = .dealloc then .joining else .idle)
      (refused : c = .dealloc → w.self.state ≠ .paused) : Called w u c
  | resumes (c : Call) (either : c = .start ∨ c = .step) (paused : w.self.state = .paused)
      (state : u.self.state = .resuming) (threads : u.threads = w.threads)
      (caller : u.caller = if c = .start then .waiting .start else .idle) : Called w u c
  | pauses (running : w.self.state = .running) (state : u.self.state = .pausing)
      (threads : u.threads = w.threads) (caller : u.caller = .waiting .pause) : Called w u .pause
  | stops (c : Call) (either : c = .stop ∨ c = .dealloc)
      (active : w.self.state = .running ∨ w.self.state = .paused) (state : u.self.state = .stopping)
      (threads : u.threads = w.threads) (caller : u.caller = .waiting c) : Called w u c
  | creates (c : Call) (new : c.creates w.self.state = true) (state : u.self.state = .starting)
      (threads : u.threads = w.threads ++ [Thread.create])
      (caller : u.caller = if c = .start then .waiting .start else .idle) : Called w u c

theorem call_called [Zero Real] {w u : World Real σ H} {c : Call} (called : w.call c = some u) :
    w.caller = .idle ∧ Called w u c := by
  simp only [call] at called
  split at called
  · contradiction
  rename_i idle
  refine ⟨not_not.mp idle,?_⟩
  split at called
  · rename_i frees
    cases called
    exact frees.1 ▸ .frees frees.2 rfl rfl rfl
  cases c with
  | start =>
    by_cases running : w.self.state = .running
    · simp only [Call.enter,Simulation.start,running,if_true] at called
      cases called
      exact .raises _ (by simp [Call.creates,running]) running.symm rfl rfl (by simp)
    by_cases done : w.self.state = .done
    · simp only [Call.enter,Simulation.start,done,reduceCtorEq,if_true,if_false] at called
      cases called
      exact .raises _ (by simp [Call.creates,done]) done.symm rfl rfl (by simp)
    by_cases paused : w.self.state = .paused
    · simp only [Call.enter,Simulation.start,paused,reduceCtorEq,if_true,if_false] at called
      cases called
      exact .resumes _ (.inl rfl) paused rfl rfl rfl
    · simp only [Call.enter,Simulation.start,running,done,paused,if_false] at called
      cases called
      exact .creates _ (by simp [Call.creates,running,done,paused]) rfl rfl rfl
  | step =>
    by_cases stopped : w.self.state = .stopped
    · simp only [Call.enter,Simulation.step,stopped,if_true] at called
      cases called
      exact .creates _ (by simp [Call.creates,stopped]) rfl rfl rfl
    by_cases paused : w.self.state = .paused
    · simp only [Call.enter,Simulation.step,paused,reduceCtorEq,if_true,if_false] at called
      cases called
      exact .resumes _ (.inr rfl) paused rfl rfl rfl
    by_cases done : w.self.state = .done
    · simp only [Call.enter,Simulation.step,done,reduceCtorEq,if_true,if_false] at called
      cases called
      exact .raises _ (by simp [Call.creates,done]) done.symm rfl rfl (by simp)
    · simp only [Call.enter,Simulation.step,stopped,paused,done,if_false] at called
      cases called
      exact .raises _ (by simp [Call.creates,stopped]) rfl rfl rfl (by simp)
  | pause =>
    by_cases running : w.self.state = .running
    · simp only [Call.enter,Simulation.pause,running,ne_eq,not_true,if_false] at called
      cases called
      exact .pauses running rfl rfl rfl
    · simp only [Call.enter,Simulation.pause,ne_eq,running,not_false_eq_true,if_true] at called
      cases called
      exact .raises _ rfl rfl rfl rfl (by simp)
  | stop | dealloc =>
    by_cases active : w.self.state = .running ∨ w.self.state = .paused
    · have entered : w.self.stop = (w.self.newState .stopping,.waits) := by
        simp only [Simulation.stop]
        rw [if_neg (by tauto)]
      simp only [Call.enter,entered] at called
      cases called
      exact .stops _ (by simp) active rfl rfl rfl
    · have entered : w.self.stop = (w.self,.raises "Simulation currently not running") := by
        simp only [Simulation.stop]
        rw [if_pos (by tauto)]
      simp only [Call.enter,entered] at called
      cases called
      exact .raises _ rfl rfl rfl rfl (by tauto)

/-- What a control call does to the object is what it does before its loop, up to the thread. -/
theorem call_entered [Zero Real] {w u : World Real σ H} {c : Call} (called : w.call c = some u) :
    (c = .dealloc ∧ w.self.thread = none ∧ u.self = w.self) ∨
      ¬ (c = .dealloc ∧ w.self.thread = none) ∧ ∃ thread, u.self = { (c.enter w.self).1 with thread := thread } := by
  have answers (v : World Real σ H) (a : Answer) : (v.answer c a).self = v.self := by
    unfold answer; split <;> rfl
  have loops (v : World Real σ H) : (v.loop c).self = v.self := by
    unfold loop; split
    · rfl
    · exact answers v _
  simp only [call] at called
  split at called
  · contradiction
  split at called
  · rename_i frees
    cases called
    exact .inl ⟨frees.1,frees.2,rfl⟩
  · rename_i keeps
    refine .inr ⟨keeps,?_⟩
    split at called <;> cases called
    · exact ⟨_,answers _ _⟩
    · exact ⟨_,loops _⟩
    · exact ⟨some w.threads.length,loops _⟩

/-- The fields that no control call writes. -/
theorem enter_kept (c : Call) (self : Simulation Real σ H) : (c.enter self).1.sim = self.sim ∧
    (c.enter self).1.realTime = self.realTime := by
  cases c <;> simp only [Call.enter,Simulation.start,Simulation.step,Simulation.pause,Simulation.stop]
  all_goals repeat' split
  all_goals exact ⟨rfl,rfl⟩

theorem call_kept [Zero Real] {w u : World Real σ H} {c : Call} (called : w.call c = some u) :
    u.self.sim = w.self.sim ∧ u.self.realTime = w.self.realTime := by
  rcases call_entered called with ⟨_,_,same⟩ | ⟨_,thread,entered⟩
  · rw [same]
    exact ⟨rfl,rfl⟩
  · rw [entered]
    exact enter_kept c w.self

theorem wake_woken {w u : World Real σ H} (woken : w.wake = some u) :
    u.self = w.self ∧ u.threads = w.threads ∧
      ((∃ c, w.caller = .waiting c ∧ c.keepsWaiting w.self.state = false ∧
          u.caller = if c = .dealloc then .joining else .idle) ∨
        (w.caller = .joining ∧ u.caller = .freed)) := by
  unfold wake at woken
  split at woken
  · rename_i c waiting
    split at woken
    · contradiction
    · rename_i met
      cases woken
      by_cases last : c = .dealloc
      · exact ⟨by simp [answer,last],by simp [answer,last],
          .inl ⟨c,waiting,by simpa using met,by simp [answer,last]⟩⟩
      · exact ⟨by simp [answer,last],by simp [answer,last],
          .inl ⟨c,waiting,by simpa using met,by simp [answer,last]⟩⟩
  · rename_i joining
    split at woken
    · cases woken
      exact ⟨rfl,rfl,.inr ⟨joining,rfl⟩⟩
    · contradiction
  · contradiction

theorem advance_acted {solver : Solver Real σ H} {w u : World Real σ H}
    (advanced : w.advance solver i input overrun = some u) :
    u.caller = w.caller ∧ w.caller ≠ .freed ∧ ∃ t t', w.threads[i]? = some t ∧
      u.threads = w.threads.set i t' ∧ t.act solver w.self input overrun = some (u.self,t') := by
  unfold advance at advanced
  split at advanced
  · contradiction
  rename_i present
  obtain ⟨t,at_,stepped⟩ := Option.bind_eq_some_iff.mp advanced
  obtain ⟨⟨self,t'⟩,acted,rfl⟩ := Option.map_eq_some_iff.mp stepped
  exact ⟨rfl,present,t,t',at_,rfl,acted⟩

theorem advance_moved {solver : Solver Real σ H} {w u : World Real σ H}
    (advanced : w.advance solver i input overrun = some u) :
    u.caller = w.caller ∧ w.caller ≠ .freed ∧ ∃ t t', w.threads[i]? = some t ∧
      u.threads = w.threads.set i t' ∧ Thread.Moved w.self u.self t t' := by
  obtain ⟨caller,present,t,t',at_,threads,acted⟩ := advance_acted advanced
  exact ⟨caller,present,t,t',at_,threads,(Thread.act_moved acted).2⟩

end Inversion
end World
end DPsim.Python
