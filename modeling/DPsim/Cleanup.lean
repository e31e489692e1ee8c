import DPsim.PythonThreads
import Mathlib.Data.List.Nodup
import Mathlib.Tactic.Ring
import Mathlib.Data.List.Dedup

/-! What a run does to the shared memory of its interfaces and to its loggers, from the first
`open` to the destructors of the interfaces, for the two run loops and the Python thread. -/
namespace DPsim
open Transition

variable {Real σ H : Type}

def shmemCalls (effects : List (Effect Real H)) : List ShmemCall :=
  effects.filterMap fun | .shmem call => some call | _ => none

def flushes (effects : List (Effect Real H)) : List Nat :=
  effects.filterMap fun | .flushed logger => some logger | _ => none

@[simp] theorem shmemCalls_append (xs ys : List (Effect Real H)) :
    shmemCalls (xs ++ ys) = shmemCalls xs ++ shmemCalls ys := List.filterMap_append

@[simp] theorem flushes_append (xs ys : List (Effect Real H)) :
    flushes (xs ++ ys) = flushes xs ++ flushes ys := List.filterMap_append

/-- Effects that neither touch shared memory objects nor flush a logger. -/
structure Silent (effects : List (Effect Real H)) : Prop where
  shmem : shmemCalls effects = []
  flushed : flushes effects = []

theorem Silent.append {xs ys : List (Effect Real H)} (first : Silent xs) (second : Silent ys) :
    Silent (xs ++ ys) := by
  constructor <;> simp [first.shmem,first.flushed,second.shmem,second.flushed]

namespace Simulation

variable [LinearOrder Real]

theorem silent_step (s : Simulation Real σ H) (events : List (Event Real H)) :
    Silent (s.stepEffects events) := by
  constructor <;> simp [shmemCalls,flushes,stepEffects]

structure SameSetup (s t : Simulation Real σ H) : Prop where
  interfaces : t.mInterfaces = s.mInterfaces
  loggers : t.mLoggers = s.mLoggers

theorem SameSetup.trans {s t u : Simulation Real σ H} (first : SameSetup s t) (second : SameSetup t u) :
    SameSetup s u :=
  ⟨second.interfaces.trans first.interfaces,second.loggers.trans first.loggers⟩

theorem step_silent {solver : Solver Real σ H} {input : Inputs H} {s t : Simulation Real σ H}
    (stepped : s.step solver input = .ok (t, effects)) : SameSetup s t ∧ Silent effects := by
  obtain ⟨_,_,_,_,_,_,rfl,rfl⟩ := step_ok.mp stepped
  exact ⟨⟨rfl,rfl⟩,s.silent_step _⟩

theorem sync_silent {input : Inputs H} {s t : Simulation Real σ H}
    (synced : s.sync input = .ok (t, effects)) : SameSetup s t ∧ Silent effects := by
  obtain ⟨h,_,result⟩ := bind_ok.mp synced
  cases result
  refine ⟨⟨rfl,rfl⟩,?_⟩
  constructor <;> simp [shmemCalls,flushes]

theorem runLoop_silent {solver : Solver Real σ H} {fuel : Nat} {inputs : Nat → Inputs H}
    {s t : Simulation Real σ H} (ran : runLoop solver fuel inputs s = .ok (t, effects)) :
    SameSetup s t ∧ Silent effects := by
  induction fuel generalizing inputs s effects with
  | zero => contradiction
  | succ fuel ih =>
    simp only [runLoop] at ran
    split at ran
    · obtain ⟨⟨x,first⟩,stepped,rest⟩ := bind_ok.mp ran
      obtain ⟨⟨y,later⟩,looped,result⟩ := bind_ok.mp rest
      cases result
      obtain ⟨same,silent⟩ := step_silent stepped
      obtain ⟨same',silent'⟩ := ih looped
      exact ⟨same.trans same',silent.append silent'⟩
    · cases ran
      exact ⟨⟨rfl,rfl⟩,⟨rfl,rfl⟩⟩

theorem realTimeLoop_silent {solver : Solver Real σ H} {fuel : Nat} {inputs : Nat → Inputs H}
    {s t : Simulation Real σ H} (ran : realTimeLoop solver fuel inputs s = .ok (t, effects)) :
    SameSetup s t ∧ Silent effects := by
  induction fuel generalizing inputs s effects with
  | zero => contradiction
  | succ fuel ih =>
    simp only [realTimeLoop] at ran
    obtain ⟨⟨x,first⟩,stepped,rest⟩ := bind_ok.mp ran
    obtain ⟨same,silent⟩ := step_silent stepped
    split at rest
    · obtain ⟨⟨y,later⟩,looped,result⟩ := bind_ok.mp rest
      cases result
      obtain ⟨same',silent'⟩ := ih looped
      exact ⟨same.trans same',silent.append silent'⟩
    · cases rest
      exact ⟨same,silent⟩

def openCalls (s : Simulation Real σ H) : List ShmemCall :=
  s.mInterfaces.map fun ifm => .opened ifm.interface.address

def closeCalls (s : Simulation Real σ H) : List ShmemCall :=
  s.mInterfaces.map fun ifm => .closed ifm.interface.address

/-- Every registered interface object is destroyed once, when the run is over. -/
def destroyInterfaces (s : Simulation Real σ H) : List ShmemCall :=
  (s.mInterfaces.map (·.interface)).dedup.flatMap Interface.destroy

@[simp] theorem shmemCalls_open (s : Simulation Real σ H) :
    shmemCalls (s.onInterfaces Interface.«open»).2 = s.openCalls := by
  simp [shmemCalls,onInterfaces,Interface.«open»,openCalls,List.filterMap_flatMap,List.map_eq_flatMap]

@[simp] theorem shmemCalls_close (s : Simulation Real σ H) :
    shmemCalls (s.onInterfaces Interface.close).2 = s.closeCalls := by
  simp [shmemCalls,onInterfaces,Interface.close,closeCalls,List.filterMap_flatMap,List.map_eq_flatMap]

@[simp] theorem flushes_onInterfaces (call : Interface → Interface × List ShmemCall)
    (s : Simulation Real σ H) : flushes (s.onInterfaces call).2 = [] := by
  simp [flushes,onInterfaces,List.filterMap_flatMap]

@[simp] theorem shmemCalls_flushLoggers (s : Simulation Real σ H) : shmemCalls s.flushLoggers = [] := by
  simp [shmemCalls,flushLoggers]

@[simp] theorem flushes_flushLoggers (s : Simulation Real σ H) :
    flushes s.flushLoggers = s.mLoggers.map (·.logger) := by
  simp [flushes,flushLoggers]

/-- Every interface that was opened is closed exactly once, by the run or by its destructor,
and every logger is flushed. -/
structure CleanedUp (s : Simulation Real σ H) (effects : List (Effect Real H)) : Prop where
  closed : ∀ address, .opened address ∈ shmemCalls effects →
    (shmemCalls effects ++ s.destroyInterfaces).count (.closed address) = 1
  flushed : ∀ lg ∈ s.mLoggers, lg.logger ∈ flushes effects

/-- Every interface object comes from a constructor. Both set `mOpened` to false, and nothing changes
the flag later. -/
def Constructed (s : Simulation Real σ H) : Prop :=
  ∀ ifm ∈ s.mInterfaces, ifm.interface = Interface.make ifm.interface.address

theorem destroyInterfaces_constructed {s : Simulation Real σ H} (constructed : s.Constructed) :
    s.destroyInterfaces = [] := by
  apply List.flatMap_eq_nil_iff.mpr
  intro intf member
  obtain ⟨ifm,here,rfl⟩ := List.mem_map.mp (List.mem_dedup.mp member)
  rw [constructed ifm here]
  rfl

/-- What cleaning up takes when so many of the runs have reached the final time. -/
structure Cleans (s : Simulation Real σ H) (finished : Nat) : Prop where
  interfaces : s.mInterfaces = [] ∨ ((s.mInterfaces.map (·.interface.address)).Nodup ∧ finished = 1)
  loggers : s.mLoggers = [] ∨ 0 < finished

/-- What an ended run has done: it has opened every interface, and closed them and flushed every
logger if it has reached the final time. -/
structure Ended (s : Simulation Real σ H) (effects : List (Effect Real H)) (finished : Bool) : Prop where
  calls : shmemCalls effects = s.openCalls ++ if finished then s.closeCalls else []
  flushed : flushes effects = if finished then s.mLoggers.map (·.logger) else []

theorem Ended.same {s x : Simulation Real σ H} (ended : x.Ended effects finished) (same : s.SameSetup x) :
    s.Ended effects finished := by
  have opens : x.openCalls = s.openCalls := by simp [openCalls,same.interfaces]
  have closes : x.closeCalls = s.closeCalls := by simp [closeCalls,same.interfaces]
  exact ⟨by rw [ended.calls,opens,closes],by rw [ended.flushed,same.loggers]⟩

theorem count_closeCalls (s : Simulation Real σ H) (address : Nat) :
    s.closeCalls.count (.closed address) = (s.mInterfaces.map (·.interface.address)).count address := by
  rw [closeCalls,← List.count_map_of_injective _ ShmemCall.closed (fun _ _ => ShmemCall.closed.inj),
    List.map_map]
  rfl

theorem count_openCalls (s : Simulation Real σ H) (address : Nat) :
    s.openCalls.count (.closed address) = 0 := by
  simp [openCalls,List.count_eq_zero]

section Life
variable {s : Simulation Real σ H} {runs : List (List (Effect Real H) × Bool)}

/-- Each run that has reached the final time has closed every registration once. -/
theorem count_closed (ended : ∀ r ∈ runs, s.Ended r.1 r.2) (address : Nat) :
    (shmemCalls (runs.flatMap Prod.fst)).count (.closed address) =
      runs.countP Prod.snd * (s.mInterfaces.map (·.interface.address)).count address := by
  induction runs with
  | nil => simp [shmemCalls]
  | cons r runs ih =>
    obtain ⟨first,later⟩ := List.forall_mem_cons.mp ended
    rw [List.flatMap_cons,shmemCalls_append,List.count_append,ih later,first.calls,List.count_append,
      count_openCalls,List.countP_cons]
    cases r.2
    · simp
    · simp only [if_true,count_closeCalls]
      ring

theorem mem_opened (ended : ∀ r ∈ runs, s.Ended r.1 r.2) (some : runs ≠ []) (address : Nat) :
    .opened address ∈ shmemCalls (runs.flatMap Prod.fst) ↔
      address ∈ s.mInterfaces.map (·.interface.address) := by
  have one (r : List (Effect Real H) × Bool) (member : r ∈ runs) :
      .opened address ∈ shmemCalls r.1 ↔ address ∈ s.mInterfaces.map (·.interface.address) := by
    rw [(ended r member).calls,List.mem_append]
    split <;> simp [openCalls,closeCalls]
  rw [shmemCalls,List.filterMap_flatMap,List.mem_flatMap]
  constructor
  · rintro ⟨r,member,opened⟩
    exact (one r member).mp opened
  · intro registered
    obtain ⟨r,member⟩ := List.exists_mem_of_ne_nil runs some
    exact ⟨r,member,(one r member).mpr registered⟩

theorem mem_flushed (ended : ∀ r ∈ runs, s.Ended r.1 r.2) (member : lg ∈ s.mLoggers) :
    lg.logger ∈ flushes (runs.flatMap Prod.fst) ↔ 0 < runs.countP Prod.snd := by
  rw [flushes,List.filterMap_flatMap,List.mem_flatMap,List.countP_pos_iff]
  refine exists_congr fun r => and_congr_right fun here => ?_
  have flushed := (ended r here).flushed
  rw [flushes] at flushed
  rw [flushed]
  split
  · rename_i finished
    exact iff_of_true (List.mem_map_of_mem member) finished
  · rename_i unfinished
    simpa using unfinished

variable (runs) in
/-- Over all runs of an object every opened interface is closed exactly once and every logger is
flushed, exactly if this number of runs that reached the final time allows it. -/
theorem life_cleanup (constructed : s.Constructed) (ended : ∀ r ∈ runs, s.Ended r.1 r.2)
    (some : runs ≠ []) : s.CleanedUp (runs.flatMap Prod.fst) ↔ s.Cleans (runs.countP Prod.snd) := by
  have total (address : Nat) :
      (shmemCalls (runs.flatMap Prod.fst) ++ s.destroyInterfaces).count (.closed address) =
        runs.countP Prod.snd * (s.mInterfaces.map (·.interface.address)).count address := by
    rw [destroyInterfaces_constructed constructed,List.append_nil,count_closed ended]
  constructor
  · intro cleaned
    have closed (ifm : InterfaceMapping) (member : ifm ∈ s.mInterfaces) :
        runs.countP Prod.snd = 1 ∧
          (s.mInterfaces.map (·.interface.address)).count ifm.interface.address = 1 := by
      have once := cleaned.closed _ ((mem_opened ended some _).mpr (List.mem_map_of_mem member))
      rw [total] at once
      exact ⟨Nat.eq_one_of_mul_eq_one_right once,Nat.eq_one_of_mul_eq_one_left once⟩
    constructor
    · by_cases none : s.mInterfaces = []
      · exact .inl none
      · obtain ⟨ifm,member⟩ := List.exists_mem_of_ne_nil _ none
        refine .inr ⟨List.nodup_iff_count_le_one.mpr fun address => ?_,(closed ifm member).1⟩
        by_cases registered : address ∈ s.mInterfaces.map (·.interface.address)
        · obtain ⟨other,here,rfl⟩ := List.mem_map.mp registered
          exact (closed other here).2.le
        · rw [List.count_eq_zero.mpr registered]
          omega
    · by_cases none : s.mLoggers = []
      · exact .inl none
      · obtain ⟨lg,member⟩ := List.exists_mem_of_ne_nil _ none
        exact .inr ((mem_flushed ended member).mp (cleaned.flushed lg member))
  · rintro ⟨interfaces,loggers⟩
    constructor
    · intro address opened
      have registered := (mem_opened ended some address).mp opened
      rw [total]
      rcases interfaces with none | ⟨distinct,one⟩
      · simp [none] at registered
      · rw [one,List.count_eq_one_of_mem distinct registered]
    · intro lg member
      rcases loggers with none | one
      · simp [none] at member
      · exact (mem_flushed ended member).mpr one

theorem run_cleanup (constructed : s.Constructed) (ended : s.Ended effects finished) :
    s.CleanedUp effects ↔ s.Cleans finished.toNat := by
  have alone := life_cleanup [(effects,finished)] constructed (by simpa using ended) (by simp)
  cases finished <;> simpa using alone

end Life

section Runs
variable {solver : Solver Real σ H} {s t : Simulation Real σ H}

def Ran (run : Nat → (Nat → Inputs H) → Simulation Real σ H →
      Except Fault (Simulation Real σ H × List (Effect Real H)))
    (s : Simulation Real σ H) (effects : List (Effect Real H)) (t : Simulation Real σ H) : Prop :=
  ∃ fuel inputs, run fuel inputs s = .ok (t, effects)

/-- Both run loops open every interface first, and close and flush at the end. -/
theorem runWith_ended {loop : (Nat → Inputs H) → Simulation Real σ H →
      Except Fault (Simulation Real σ H × List (Effect Real H))}
    (quiet : ∀ {inputs s t effects}, loop inputs s = .ok (t, effects) → SameSetup s t ∧ Silent effects)
    (ran : s.runWith loop inputs = .ok (t, effects)) : SameSetup s t ∧ s.Ended effects true := by
  obtain ⟨x,synced,steps,sync,looped,rfl⟩ := runWith_ok.mp ran
  obtain ⟨same,silent⟩ := sync_silent sync
  obtain ⟨same',silent'⟩ := quiet looped
  have both := same.trans same'
  have closes : t.closeCalls = s.closeCalls := by simp [closeCalls,both.interfaces]
  refine ⟨both,?_,?_⟩
  · simp [silent.shmem,silent'.shmem,closes]
  · simp [silent.flushed,silent'.flushed,both.loggers]

theorem run_ended (ran : Ran (Simulation.run solver) s effects t) :
    SameSetup s t ∧ s.Ended effects true := by
  obtain ⟨fuel,inputs,ran⟩ := ran
  exact runWith_ended runLoop_silent ran

theorem realTimeRun_ended (ran : Ran (RealTimeSimulation.run solver) s effects t) :
    SameSetup s t ∧ s.Ended effects true := by
  obtain ⟨fuel,inputs,ran⟩ := ran
  exact runWith_ended realTimeLoop_silent ran

variable {run : Nat → (Nat → Inputs H) → Simulation Real σ H →
  Except Fault (Simulation Real σ H × List (Effect Real H))}

theorem runs_ended (one : ∀ {s effects t}, Ran run s effects t → SameSetup s t ∧ s.Ended effects true)
    (path : Path (Ran run) s trace t) : ∀ r ∈ trace, s.Ended r.2 true := by
  induction path with
  | nil => simp
  | cons ran _ ih =>
    obtain ⟨same,ended⟩ := one ran
    exact List.forall_mem_cons.mpr ⟨ended,fun r member => (ih r member).same same⟩

/-- The driver is called one or more times, and each call reaches the final time. -/
theorem runs_cleanup (one : ∀ {s effects t}, Ran run s effects t → SameSetup s t ∧ s.Ended effects true)
    (constructed : s.Constructed) (path : Path (Ran run) s trace t) (some : trace ≠ []) :
    (s.CleanedUp (trace.flatMap Prod.snd) ↔ s.Cleans trace.length) ∧
      ∀ r ∈ trace, (s.CleanedUp r.2 ↔ s.Cleans 1) := by
  have ended := runs_ended one path
  refine ⟨?_,fun r member => run_cleanup constructed (ended r member)⟩
  have life := life_cleanup (trace.map fun r => (r.2,true)) constructed
    (List.forall_mem_map.mpr ended) (by simpa using some)
  have all : trace.countP (Prod.snd ∘ fun r => (r.2,true)) = trace.length :=
    List.countP_eq_length.mpr fun _ _ => rfl
  rwa [List.flatMap_map,List.countP_map,all] at life

end Runs
end Simulation

namespace Python

def Thread.finished (t : Thread Real H) : Bool := t.pc = .returned .done

theorem Thread.returned_of_alive {t : Thread Real H} (dead : t.alive = false) :
    ∃ exit, t.pc = .returned exit := by
  unfold Thread.alive at dead
  split at dead
  · exact ⟨_,‹_›⟩
  · contradiction

variable [LinearOrder Real]

/-- What a thread has done to shared memory when it is at this position. -/
def Pc.calls (s : DPsim.Simulation Real σ H) : Pc → List ShmemCall
  | .opening => []
  | .returned .done => s.openCalls ++ s.closeCalls
  | _ => s.openCalls

def Pc.flushed (s : DPsim.Simulation Real σ H) : Pc → List Nat
  | .returned .done => s.mLoggers.map (·.logger)
  | _ => []

structure Thread.Ledger (s : DPsim.Simulation Real σ H) (t : Thread Real H) : Prop where
  calls : shmemCalls t.effects = t.pc.calls s
  flushed : flushes t.effects = t.pc.flushed s

theorem Thread.act_ledger {solver : Solver Real σ H} {s : DPsim.Simulation Real σ H}
    {self self' : Simulation Real σ H} {t t' : Thread Real H} (same : s.SameSetup self.sim)
    (ledger : t.Ledger s) (acted : t.act solver self input overrun = some (self', t')) :
    s.SameSetup self'.sim ∧ t'.Ledger s := by
  have opens : self.sim.openCalls = s.openCalls := by simp [DPsim.Simulation.openCalls,same.interfaces]
  have closes : self.sim.closeCalls = s.closeCalls := by simp [DPsim.Simulation.closeCalls,same.interfaces]
  obtain ⟨calls,flushed⟩ := ledger
  cases at_ : t.pc with
  | opening =>
    simp only [act,at_,Option.some.injEq,Prod.mk.injEq] at acted
    obtain ⟨rfl,rfl⟩ := acted
    refine ⟨by simpa using same,?_,?_⟩
    · simp [calls,at_,Pc.calls,opens]
    · simp [flushed,at_,Pc.flushed]
  | syncing =>
    simp only [act,at_] at acted
    split at acted
    · split at acted
      · rename_i sim synced sync
        obtain ⟨rfl,rfl⟩ := Prod.mk.inj (Option.some.inj acted)
        obtain ⟨kept,silent⟩ := DPsim.Simulation.sync_silent sync
        exact ⟨same.trans kept,by simp [calls,at_,Pc.calls,silent.shmem],
          by simp [flushed,at_,Pc.flushed,silent.flushed]⟩
      · contradiction
    · obtain ⟨rfl,rfl⟩ := Prod.mk.inj (Option.some.inj acted)
      exact ⟨same,by simp [goto,calls,at_,Pc.calls],by simp [goto,flushed,at_,Pc.flushed]⟩
  | stepping =>
    simp only [act,at_] at acted
    split at acted
    · rename_i sim stepped step
      obtain ⟨rfl,rfl⟩ := Prod.mk.inj (Option.some.inj acted)
      obtain ⟨kept,silent⟩ := DPsim.Simulation.step_silent step
      exact ⟨same.trans kept,by simp [calls,at_,Pc.calls,silent.shmem],
        by simp [flushed,at_,Pc.flushed,silent.flushed]⟩
    · contradiction
  | closing =>
    simp only [act,at_,Option.some.injEq,Prod.mk.injEq] at acted
    obtain ⟨rfl,rfl⟩ := acted
    refine ⟨by simpa using same,?_,?_⟩
    · simp [calls,at_,Pc.calls,closes]
    · simp [flushed,at_,Pc.flushed,same.loggers]
  | pausedWait =>
    simp only [act,at_] at acted
    split at acted
    · contradiction
    · obtain ⟨rfl,rfl⟩ := Prod.mk.inj (Option.some.inj acted)
      refine ⟨by split <;> exact same,?_,?_⟩
      · simp [goto,calls,at_,Pc.calls]
      · simp [goto,flushed,at_,Pc.flushed]
  | returned exit => simp [act,at_] at acted
  | _ =>
    simp only [act,at_,Option.some.injEq,Prod.mk.injEq] at acted
    obtain ⟨rfl,rfl⟩ := acted
    refine ⟨?_,?_,?_⟩
    · first | exact same | (split <;> exact same)
    · simp only [goto,calls,at_]; first | rfl | (split <;> rfl)
    · simp only [goto,flushed,at_]; first | rfl | (split <;> rfl)

namespace World

structure Ledger (s : DPsim.Simulation Real σ H) (w : World Real σ H) : Prop where
  same : s.SameSetup w.self.sim
  threads : ∀ t ∈ w.threads, t.Ledger s

theorem thread_ended {s : DPsim.Simulation Real σ H} {t : Thread Real H} (ledger : t.Ledger s)
    (returned : t.pc = .returned exit) : s.Ended t.effects t.finished := by
  obtain ⟨calls,flushed⟩ := ledger
  rw [returned] at calls flushed
  cases exit with
  | done => exact ⟨by simp [calls,Pc.calls,Thread.finished,returned],
      by simp [flushed,Pc.flushed,Thread.finished,returned]⟩
  | stopped => exact ⟨by simp [calls,Pc.calls,Thread.finished,returned],
      by simp [flushed,Pc.flushed,Thread.finished,returned]⟩

def Over (w : World Real σ H) : Prop := w.threads ≠ [] ∧ ∀ t ∈ w.threads, t.alive = false

instance (w : World Real σ H) : Decidable w.Over :=
  inferInstanceAs (Decidable (_ ∧ _))

def lifeEffects (w : World Real σ H) : List (Effect Real H) := w.threads.flatMap (·.effects)

theorem threads_cleanup {s : DPsim.Simulation Real σ H} {w : World Real σ H}
    (constructed : s.Constructed) (ledger : Ledger s w) (done : w.Over) :
    s.CleanedUp w.lifeEffects ↔ s.Cleans (w.threads.countP Thread.finished) := by
  have ended : ∀ t ∈ w.threads, s.Ended t.effects t.finished := by
    intro t member
    obtain ⟨exit,returned⟩ := Thread.returned_of_alive (done.2 t member)
    exact thread_ended (ledger.threads t member) returned
  have life := DPsim.Simulation.life_cleanup (w.threads.map fun t => (t.effects,t.finished))
    constructed (List.forall_mem_map.mpr ended) (by simpa using done.1)
  simpa [lifeEffects,List.flatMap_map,List.countP_map,Function.comp_def] using life

variable [Zero Real] {solver : Solver Real σ H} {s : DPsim.Simulation Real σ H}

theorem step_ledger (w : World Real σ H) (a : Action H) (u : World Real σ H) (ledger : Ledger s w)
    (moved : Step solver w a u) : Ledger s u := by
  obtain ⟨same,threads⟩ := ledger
  cases a with
  | call c =>
    refine ⟨by rw [(call_kept moved).1]; exact same,?_⟩
    have created : (Thread.create : Thread Real H).Ledger s := ⟨rfl,rfl⟩
    cases (call_called moved).2 with
    | creates _ _ _ appended =>
      intro t member
      rw [appended] at member
      rcases List.mem_append.mp member with old | new
      · exact threads t old
      · rw [List.mem_singleton.mp new]
        exact created
    | frees _ _ kept | raises _ _ _ kept | resumes _ _ _ _ kept | pauses _ _ kept
      | stops _ _ _ _ kept =>
      rw [kept]
      exact threads
  | wake =>
    obtain ⟨self,kept,_⟩ := wake_woken moved
    exact ⟨by rw [self]; exact same,by rw [kept]; exact threads⟩
  | thread i input overrun =>
    obtain ⟨_,_,t,t',at_,set,acted⟩ := advance_acted moved
    obtain ⟨same',ledger'⟩ := Thread.act_ledger same (threads t (List.mem_of_getElem? at_)) acted
    refine ⟨same',fun x member => ?_⟩
    rw [set] at member
    rcases List.mem_or_eq_of_mem_set member with old | rfl
    · exact threads x old
    · exact ledger'

end World
end Python

/-- Over the life of an object, and run by run: what `Cleans` says is exactly what it takes, with the
number of runs that have reached the final time. -/
theorem cleanup_iff [LinearOrder Real] [Zero Real] (solver : Solver Real σ H)
    (s : Simulation Real σ H) (constructed : s.Constructed) :
    (∀ trace t, Path (Simulation.Ran (Simulation.run solver)) s trace t → trace ≠ [] →
        (s.CleanedUp (trace.flatMap Prod.snd) ↔ s.Cleans trace.length) ∧
          ∀ r ∈ trace, (s.CleanedUp r.2 ↔ s.Cleans 1)) ∧
      (∀ trace t, Path (Simulation.Ran (RealTimeSimulation.run solver)) s trace t → trace ≠ [] →
        (s.CleanedUp (trace.flatMap Prod.snd) ↔ s.Cleans trace.length) ∧
          ∀ r ∈ trace, (s.CleanedUp r.2 ↔ s.Cleans 1)) ∧
      ∀ realTime startSync failOnOverrun singleStepping trace w,
        Path (Python.World.Step solver) (Python.World.initial
          (Python.Simulation.init s realTime startSync failOnOverrun singleStepping)) trace w →
        (w.Over → (s.CleanedUp w.lifeEffects ↔ s.Cleans (w.threads.countP Python.Thread.finished))) ∧
          ∀ t ∈ w.threads, ∀ exit, t.pc = .returned exit →
            (s.CleanedUp t.effects ↔ s.Cleans t.finished.toNat) := by
  refine ⟨fun _ _ path some => Simulation.runs_cleanup Simulation.run_ended constructed path some,
    fun _ _ path some => Simulation.runs_cleanup Simulation.realTimeRun_ended constructed path some,?_⟩
  intro realTime startSync failOnOverrun singleStepping trace w path
  have initial : Python.World.Ledger s (Python.World.initial
      (Python.Simulation.init s realTime startSync failOnOverrun singleStepping)) :=
    ⟨⟨rfl,rfl⟩,by simp [Python.World.initial]⟩
  have ledger := path.invariant Python.World.step_ledger initial
  refine ⟨Python.World.threads_cleanup constructed ledger,fun t member exit returned => ?_⟩
  exact Simulation.run_cleanup constructed (Python.World.thread_ended (ledger.threads t member) returned)

def logged : Simulation Nat Unit Nat :=
  ⟨0, 2, 0, (), EventQueue.empty, [⟨Interface.make 1, true, true, 1⟩], [⟨5, 1⟩], 0⟩

theorem logged_constructed : logged.Constructed := by simp [Simulation.Constructed,logged,Interface.make]

def loggedObject : Python.World Nat Unit Nat :=
  Python.World.initial (Python.Simulation.init logged false false false false)

def stopped : List (Python.Action Nat) :=
  [Python.Action.call .start] ++ Python.World.acts 7 ++ [Python.Action.wake,.call .stop] ++ Python.World.acts 5

def resumed : List (Python.Action Nat) :=
  stopped ++ [Python.Action.wake,.call .start] ++
    List.replicate 12 (Python.Action.thread 1 Python.World.quiet false)

/-- A stopped run, and a second one that closes the interface and flushes the logger after all. -/
theorem cleanup_iff_resumed :
    logged.CleanedUp (finalOf (Python.World.next Python.World.clock) loggedObject resumed).lifeEffects := by
  have both := ((cleanup_iff Python.World.clock logged logged_constructed).2.2 false false false false _ _
    (path_of_labels (Python.World.next Python.World.clock) loggedObject resumed)).1 (by decide)
  exact both.mpr (by constructor <;> decide)

/-- The stop request is honoured with the interface open and the logger not flushed, and the destructor
does not close it either. -/
theorem stopped_run_leaks :
    ¬ ∀ trace w, Path (Python.World.Step Python.World.clock) loggedObject trace w → w.Over →
      logged.CleanedUp w.lifeEffects := by
  intro always
  have cleaned := always _ _ (path_of_labels (Python.World.next Python.World.clock) loggedObject stopped)
    (by decide)
  have closed := cleaned.closed 1 (by decide)
  exact absurd closed (by decide)

end DPsim
