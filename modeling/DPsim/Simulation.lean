import DPsim.Definitions
import DPsim.Event

/-! `Simulation` and the loops that drive it. `H` is the state of the simulated objects,
which the solver, the events and the interfaces share; `σ` is the solver's own state. What
a call does to the outside is a list of effects, in order. -/
namespace DPsim

/-- An interface object: its address and the flag its destructor tests. -/
structure Interface where
  address : Nat
  mOpened : Bool
  deriving DecidableEq, Repr

structure InterfaceMapping where
  interface : Interface
  sync : Bool
  syncStart : Bool
  downsampling : UInt32
  deriving DecidableEq, Repr

structure LoggerMapping where
  logger : Nat
  downsampling : UInt32
  deriving DecidableEq, Repr

/-- `shmem_int_open` and `shmem_int_close` on the shared memory of an interface. -/
inductive ShmemCall where
  | opened (interface : Nat)
  | closed (interface : Nat)
  deriving DecidableEq, Repr

inductive Effect (Real H : Type) where
  | shmem (call : ShmemCall)
  | read (interface : Nat) (blocking : Bool)
  | wrote (interface : Nat)
  | handled (e : Event Real H)
  | solved (time : Real)
  | logged (logger : Nat) (time : Real)
  | flushed (logger : Nat)

namespace Interface

/-- Both constructors, with and without a configuration. -/
def make (address : Nat) : Interface := ⟨address, false⟩

/-- Neither `open` nor `close` touches `mOpened`. -/
def «open» (intf : Interface) : Interface × List ShmemCall := (intf, [.opened intf.address])

def close (intf : Interface) : Interface × List ShmemCall := (intf, [.closed intf.address])

def destroy (intf : Interface) : List ShmemCall := if intf.mOpened then intf.close.2 else []

end Interface

structure Solver (Real σ H : Type) where
  step : Real → σ → H → Except Fault (Real × σ × H)

/-- What the reads of one step receive: for an interface and its blocking flag, the effect of
the imports on the objects. -/
structure Inputs (H : Type) where
  readValues : Nat → Bool → H → Except Fault H

/-- `mTimeStepCount % downsampling == 0`: the signed count is converted to unsigned. -/
def onSample (count : Int32) (downsampling : UInt32) : Bool := count.toUInt32 % downsampling == 0

structure Simulation (Real σ H : Type) [LinearOrder Real] where
  mTime : Real
  mFinalTime : Real
  mTimeStepCount : Int32
  mSolver : σ
  mEvents : EventQueue Real H
  mInterfaces : List InterfaceMapping
  mLoggers : List LoggerMapping
  heap : H

namespace Simulation

variable {Real σ H : Type} [LinearOrder Real]

def addEvent (s : Simulation Real σ H) (e : Event Real H) : Simulation Real σ H :=
  { s with mEvents := s.mEvents.addEvent e }

def addInterface (s : Simulation Real σ H) (eint : Interface) (sync syncStart : Bool)
    (downsampling : UInt32) : Simulation Real σ H :=
  { s with mInterfaces := s.mInterfaces ++ [⟨eint, sync, syncStart, downsampling⟩] }

/-- The overload of `addInterface` with one flag; its default argument is `true`. -/
def addInterfaceSync (s : Simulation Real σ H) (eint : Interface) (sync : Bool) : Simulation Real σ H :=
  s.addInterface eint sync sync 1

def addLogger (s : Simulation Real σ H) (logger : Nat) (downsampling : UInt32) : Simulation Real σ H :=
  { s with mLoggers := s.mLoggers ++ [⟨logger, downsampling⟩] }

def sampledInterfaces (s : Simulation Real σ H) : List InterfaceMapping :=
  s.mInterfaces.filter (fun ifm => onSample s.mTimeStepCount ifm.downsampling)

def sampledLoggers (s : Simulation Real σ H) : List LoggerMapping :=
  s.mLoggers.filter (fun lg => onSample s.mTimeStepCount lg.downsampling)

/-- The part of `step` before the solver: interface reads, then the due events. -/
def readAndHandle (input : Inputs H) (s : Simulation Real σ H) :
    Except Fault (EventQueue.Handled Real H) := do
  let h ← s.sampledInterfaces.foldlM
    (fun h ifm => input.readValues ifm.interface.address ifm.sync h) s.heap
  return s.mEvents.handleEvents s.mTime h

/-- What a step that handles `events` shows to the outside. -/
def stepEffects (s : Simulation Real σ H) (events : List (Event Real H)) : List (Effect Real H) :=
  s.sampledInterfaces.map (fun ifm => Effect.read ifm.interface.address ifm.sync) ++
  events.map Effect.handled ++ [Effect.solved s.mTime] ++
  s.sampledInterfaces.map (fun ifm => Effect.wrote ifm.interface.address) ++
  s.sampledLoggers.map (fun lg => Effect.logged lg.logger s.mTime)

def step (solver : Solver Real σ H) (input : Inputs H) (s : Simulation Real σ H) :
    Except Fault (Simulation Real σ H × List (Effect Real H)) := do
  let handled ← s.readAndHandle input
  let (nextTime, mSolver, heap) ← solver.step s.mTime s.mSolver handled.heap
  return ({ s with
    mTime := nextTime
    mTimeStepCount := s.mTimeStepCount + 1
    mSolver := mSolver
    mEvents := handled.queue
    heap := heap }, s.stepEffects handled.events)

theorem step_ok {solver : Solver Real σ H} {input : Inputs H} {s t : Simulation Real σ H} :
    s.step solver input = .ok (t, effects) ↔ ∃ h nextTime mSolver heap,
      s.sampledInterfaces.foldlM
        (fun h ifm => input.readValues ifm.interface.address ifm.sync h) s.heap = .ok h ∧
      solver.step s.mTime s.mSolver (s.mEvents.handleEvents s.mTime h).heap =
        .ok (nextTime, mSolver, heap) ∧
      t = { s with
        mTime := nextTime
        mTimeStepCount := s.mTimeStepCount + 1
        mSolver := mSolver
        mEvents := (s.mEvents.handleEvents s.mTime h).queue
        heap := heap } ∧
      effects = s.stepEffects (s.mEvents.handleEvents s.mTime h).events := by
  constructor
  · intro stepped
    obtain ⟨handled,read,rest⟩ := bind_ok.mp stepped
    obtain ⟨⟨nextTime,mSolver,heap⟩,solved,result⟩ := bind_ok.mp rest
    obtain ⟨h,given,events⟩ := bind_ok.mp read
    cases events
    cases result
    exact ⟨h,nextTime,mSolver,heap,given,solved,rfl,rfl⟩
  · rintro ⟨h,nextTime,mSolver,heap,given,solved,rfl,rfl⟩
    refine bind_ok.mpr ⟨_,bind_ok.mpr ⟨h,given,rfl⟩,?_⟩
    exact bind_ok.mpr ⟨_,solved,rfl⟩

/-- The initial exchange: write on every interface, then wait on those with `syncStart`. -/
def sync (input : Inputs H) (s : Simulation Real σ H) :
    Except Fault (Simulation Real σ H × List (Effect Real H)) := do
  let h ← s.mInterfaces.foldlM
    (fun h ifm => input.readValues ifm.interface.address ifm.syncStart h) s.heap
  return ({ s with heap := h },
    s.mInterfaces.map (fun ifm => Effect.wrote ifm.interface.address) ++
    s.mInterfaces.map (fun ifm => Effect.read ifm.interface.address ifm.syncStart))

def onInterfaces (call : Interface → Interface × List ShmemCall) (s : Simulation Real σ H) :
    Simulation Real σ H × List (Effect Real H) :=
  ({ s with mInterfaces := s.mInterfaces.map fun ifm =>
      { ifm with interface := (call ifm.interface).1 } },
    s.mInterfaces.flatMap fun ifm => (call ifm.interface).2.map .shmem)

theorem onInterfaces_kept {call : Interface → Interface × List ShmemCall}
    (kept : ∀ intf, (call intf).1 = intf) (s : Simulation Real σ H) : (s.onInterfaces call).1 = s := by
  have same : s.mInterfaces.map (fun ifm => { ifm with interface := (call ifm.interface).1 }) =
      s.mInterfaces := by
    simp [kept]
  simp only [onInterfaces,same]

@[simp] theorem onInterfaces_open (s : Simulation Real σ H) :
    (s.onInterfaces Interface.«open»).1 = s := onInterfaces_kept (fun _ => rfl) s

@[simp] theorem onInterfaces_close (s : Simulation Real σ H) :
    (s.onInterfaces Interface.close).1 = s := onInterfaces_kept (fun _ => rfl) s

def flushLoggers (s : Simulation Real σ H) : List (Effect Real H) :=
  s.mLoggers.map (fun lg => .flushed lg.logger)

/-- `while (mTime < mFinalTime) step();` with the number of passes bounded by the fuel. -/
def runLoop (solver : Solver Real σ H) : Nat → (Nat → Inputs H) → Simulation Real σ H →
    Except Fault (Simulation Real σ H × List (Effect Real H))
  | 0, _, _ => .error .outOfFuel
  | fuel + 1, inputs, s =>
    if s.mTime < s.mFinalTime then do
      let (s, first) ← s.step solver (inputs 0)
      let (s, later) ← runLoop solver fuel (fun k => inputs (k + 1)) s
      return (s, first ++ later)
    else return (s, [])

/-- The loop of `RealTimeSimulation::run`: the test comes after the step and the sleep. Its
timer has no flags, so a sleep always returns. -/
def realTimeLoop (solver : Solver Real σ H) : Nat → (Nat → Inputs H) → Simulation Real σ H →
    Except Fault (Simulation Real σ H × List (Effect Real H))
  | 0, _, _ => .error .outOfFuel
  | fuel + 1, inputs, s => do
    let (s, first) ← s.step solver (inputs 0)
    if s.mTime < s.mFinalTime then
      let (s, later) ← realTimeLoop solver fuel (fun k => inputs (k + 1)) s
      return (s, first ++ later)
    else return (s, first)

/-- `Simulation::run` and `RealTimeSimulation::run` differ in their loop. -/
def runWith (loop : (Nat → Inputs H) → Simulation Real σ H →
      Except Fault (Simulation Real σ H × List (Effect Real H)))
    (inputs : Nat → Inputs H) (s : Simulation Real σ H) :
    Except Fault (Simulation Real σ H × List (Effect Real H)) := do
  let (s, opens) := s.onInterfaces Interface.«open»
  let (s, synced) ← s.sync (inputs 0)
  let (s, steps) ← loop (fun k => inputs (k + 1)) s
  let (s, closes) := s.onInterfaces Interface.close
  return (s, opens ++ synced ++ steps ++ closes ++ s.flushLoggers)

theorem runWith_ok {loop : (Nat → Inputs H) → Simulation Real σ H →
      Except Fault (Simulation Real σ H × List (Effect Real H))}
    {inputs : Nat → Inputs H} {s t : Simulation Real σ H} :
    s.runWith loop inputs = .ok (t, effects) ↔ ∃ x synced steps,
      s.sync (inputs 0) = .ok (x, synced) ∧ loop (fun k => inputs (k + 1)) x = .ok (t, steps) ∧
      effects = (s.onInterfaces Interface.«open»).2 ++ synced ++ steps ++
        (t.onInterfaces Interface.close).2 ++ t.flushLoggers := by
  have opens : s.onInterfaces Interface.«open» = (s,(s.onInterfaces Interface.«open»).2) :=
    Prod.ext (onInterfaces_open s) rfl
  have closes (y : Simulation Real σ H) :
      y.onInterfaces Interface.close = (y,(y.onInterfaces Interface.close).2) :=
    Prod.ext (onInterfaces_close y) rfl
  unfold runWith
  rw [opens]
  constructor
  · intro ran
    obtain ⟨⟨x,synced⟩,sync,rest⟩ := bind_ok.mp ran
    obtain ⟨⟨y,steps⟩,looped,result⟩ := bind_ok.mp rest
    dsimp only at result
    rw [closes y] at result
    cases result
    exact ⟨x,synced,steps,sync,looped,rfl⟩
  · rintro ⟨x,synced,steps,sync,looped,rfl⟩
    refine bind_ok.mpr ⟨_,sync,bind_ok.mpr ⟨_,looped,?_⟩⟩
    dsimp only
    rw [closes t]
    rfl

def run (solver : Solver Real σ H) (fuel : Nat) (inputs : Nat → Inputs H) (s : Simulation Real σ H) :=
  runWith (runLoop solver fuel) inputs s

end Simulation

def RealTimeSimulation.run {Real σ H : Type} [LinearOrder Real] (solver : Solver Real σ H) (fuel : Nat)
    (inputs : Nat → Inputs H) (s : Simulation Real σ H) :=
  s.runWith (Simulation.realTimeLoop solver fuel) inputs

end DPsim
