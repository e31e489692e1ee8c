import DPsim.Simulation
import DPsim.Transition
import Mathlib.Logic.Function.Basic

/-! Simulations that exchange samples through queues. A process is a simulation inside
`run`, cut at every call of `readValues` and `writeValues`; a queue is unbounded, keeps
its order and loses nothing. -/
namespace DPsim.Coupling
open Transition

variable {Real σ H V : Type} [LinearOrder Real]

abbrev Queues (V : Type) := String → List V

/-- What an interface does with samples: `writeValues` always sends the one that the exports
fill, and an import may throw. -/
structure Port (V H : Type) where
  mWName : String
  mRName : String
  exports : H → V
  imports : V → H → Except Fault H

def Port.writeValues (port : Port V H) (q : Queues V) (h : H) : Queues V :=
  Function.update q port.mWName (q port.mWName ++ [port.exports h])

/-- A call on an empty queue returns at once or, if it is blocking, has not returned. -/
def Port.readValues (port : Port V H) (blocking : Bool) (q : Queues V) (h : H) :
    Option (Queues V × Except Fault H) :=
  match q port.mRName with
  | [] => if blocking then none else some (q, .ok h)
  | sample :: rest => some (Function.update q port.mRName rest, port.imports sample h)

/-- The parts of a process that do not change: its solver, and its interfaces by address. -/
structure Peer (Real σ H V : Type) where
  solver : Solver Real σ H
  port : Nat → Port V H

/-- Where a process is in `run`; a loop over interfaces keeps those it has not visited. -/
inductive Pc (Real : Type) where
  | opening
  | syncWrite (rest : List InterfaceMapping)
  | syncRead (rest : List InterfaceMapping)
  | head
  | stepRead (rest : List InterfaceMapping)
  | stepWrite (nextTime : Real) (rest : List InterfaceMapping)
  | closing
  | finished
  | failed (fault : Fault)

structure Process (Real σ H : Type) [LinearOrder Real] where
  sim : Simulation Real σ H
  pc : Pc Real

namespace Process

def receive (p : Process Real σ H) (next : Pc Real) :
    Option (Queues V × Except Fault H) → Option (Queues V × Process Real σ H)
  | none => none
  | some (q, .ok h) => some (q, ⟨{ p.sim with heap := h }, next⟩)
  | some (q, .error fault) => some (q, ⟨p.sim, .failed fault⟩)

/-- From the end of the reads of a step to the writes: the due events, then the solver. -/
def solve (peer : Peer Real σ H V) (p : Process Real σ H) : Process Real σ H :=
  let handled := p.sim.mEvents.handleEvents p.sim.mTime p.sim.heap
  match peer.solver.step p.sim.mTime p.sim.mSolver handled.heap with
  | .error fault => ⟨p.sim, .failed fault⟩
  | .ok (nextTime, mSolver, heap) =>
    ⟨{ p.sim with mSolver := mSolver, mEvents := handled.queue, heap := heap },
      .stepWrite nextTime p.sim.sampledInterfaces⟩

/-- The next action of a process; `none` if it waits or has ended. -/
def advance (peer : Peer Real σ H V) (q : Queues V) (p : Process Real σ H) :
    Option (Queues V × Process Real σ H) :=
  match p.pc with
  | .opening =>
    let sim := (p.sim.onInterfaces Interface.«open»).1
    some (q, ⟨sim, .syncWrite sim.mInterfaces⟩)
  | .syncWrite (ifm :: rest) =>
    some ((peer.port ifm.interface.address).writeValues q p.sim.heap, ⟨p.sim, .syncWrite rest⟩)
  | .syncWrite [] => some (q, ⟨p.sim, .syncRead p.sim.mInterfaces⟩)
  | .syncRead (ifm :: rest) =>
    p.receive (.syncRead rest)
      ((peer.port ifm.interface.address).readValues ifm.syncStart q p.sim.heap)
  | .syncRead [] => some (q, ⟨p.sim, .head⟩)
  | .head =>
    if p.sim.mTime < p.sim.mFinalTime then some (q, ⟨p.sim, .stepRead p.sim.sampledInterfaces⟩)
    else some (q, ⟨p.sim, .closing⟩)
  | .stepRead (ifm :: rest) =>
    p.receive (.stepRead rest)
      ((peer.port ifm.interface.address).readValues ifm.sync q p.sim.heap)
  | .stepRead [] => some (q, p.solve peer)
  | .stepWrite nextTime (ifm :: rest) =>
    some ((peer.port ifm.interface.address).writeValues q p.sim.heap,
      ⟨p.sim, .stepWrite nextTime rest⟩)
  | .stepWrite nextTime [] =>
    some (q, ⟨{ p.sim with
      mTime := nextTime
      mTimeStepCount := p.sim.mTimeStepCount + 1 }, .head⟩)
  | .closing => some (q, ⟨(p.sim.onInterfaces Interface.close).1, .finished⟩)
  | .finished => none
  | .failed _ => none

/-- The queue a process is about to read from with `blocking` true. -/
def waitsOn (peer : Peer Real σ H V) (p : Process Real σ H) : Option String :=
  match p.pc with
  | .syncRead (ifm :: _) => if ifm.syncStart then some (peer.port ifm.interface.address).mRName else none
  | .stepRead (ifm :: _) => if ifm.sync then some (peer.port ifm.interface.address).mRName else none
  | _ => none

def Blocked (peer : Peer Real σ H V) (q : Queues V) (p : Process Real σ H) : Prop :=
  ∃ name, p.waitsOn peer = some name ∧ q name = []

theorem blocked_waits {peer : Peer Real σ H V} {q : Queues V} {p : Process Real σ H}
    (blocked : p.Blocked peer q) : p.advance peer q = none := by
  obtain ⟨name,waits,empty⟩ := blocked
  unfold waitsOn at waits
  split at waits
  · rename_i ifm rest at_
    split at waits
    · rename_i blocking
      cases waits
      simp [advance,at_,Port.readValues,empty,blocking,receive]
    · contradiction
  · rename_i ifm rest at_
    split at waits
    · rename_i blocking
      cases waits
      simp [advance,at_,Port.readValues,empty,blocking,receive]
    · contradiction
  · contradiction

end Process

section Refinement
variable (peer : Peer Real σ H V)

def Acts (s : Queues V × Process Real σ H) (_ : Unit) (t : Queues V × Process Real σ H) : Prop :=
  s.2.advance peer s.1 = some t

def readAll : List InterfaceMapping → Queues V → H → Option (Queues V × H)
  | [], q, h => some (q, h)
  | ifm :: rest, q, h =>
    match (peer.port ifm.interface.address).readValues ifm.sync q h with
    | some (q', .ok h') => readAll rest q' h'
    | _ => none

def writeAll (rest : List InterfaceMapping) (q : Queues V) (h : H) : Queues V :=
  rest.foldl (fun q ifm => (peer.port ifm.interface.address).writeValues q h) q

theorem read_path (sim : Simulation Real σ H) (rest : List InterfaceMapping) (q : Queues V)
    (received : readAll peer rest q sim.heap = some (q', h)) :
    ∃ trace, Path (Acts peer) (q,⟨sim,.stepRead rest⟩) trace
      (q',⟨{ sim with heap := h },.stepRead []⟩) := by
  induction rest generalizing sim q with
  | nil =>
    obtain ⟨rfl,rfl⟩ := Prod.mk.inj (Option.some.inj received)
    exact ⟨[],.nil⟩
  | cons ifm rest ih =>
    simp only [readAll] at received
    split at received
    · rename_i q₁ h₁ read
      obtain ⟨trace,path⟩ := ih { sim with heap := h₁ } q₁ received
      have first : Acts peer (q,⟨sim,.stepRead (ifm :: rest)⟩) ()
          (q₁,⟨{ sim with heap := h₁ },.stepRead rest⟩) := by
        simp [Acts,Process.advance,read,Process.receive]
      exact ⟨_,.cons first path⟩
    · contradiction

theorem write_path (sim : Simulation Real σ H) (nextTime : Real) (rest : List InterfaceMapping)
    (q : Queues V) :
    ∃ trace, Path (Acts peer) (q,⟨sim,.stepWrite nextTime rest⟩) trace
      (writeAll peer rest q sim.heap,⟨sim,.stepWrite nextTime []⟩) := by
  induction rest generalizing q with
  | nil => exact ⟨[],.nil⟩
  | cons ifm rest ih =>
    obtain ⟨trace,path⟩ := ih ((peer.port ifm.interface.address).writeValues q sim.heap)
    exact ⟨_,.cons (l := ()) rfl path⟩

/-- When the samples of a step are there, the actions of a process from one head of the
loop to the next are those of `Simulation::step`. -/
theorem step_actions (input : Inputs H) (sim t : Simulation Real σ H) (q : Queues V)
    (running : sim.mTime < sim.mFinalTime)
    (received : readAll peer sim.sampledInterfaces q sim.heap = some (q', h))
    (given : sim.sampledInterfaces.foldlM
      (fun h ifm => input.readValues ifm.interface.address ifm.sync h) sim.heap = .ok h)
    (stepped : sim.step peer.solver input = .ok (t, effects)) :
    ∃ trace, Path (Acts peer) (q,⟨sim,.head⟩) trace
      (writeAll peer sim.sampledInterfaces q' t.heap,⟨t,.head⟩) := by
  obtain ⟨h₁,nextTime,mSolver,heap,given₁,solved,rfl,_⟩ := Simulation.step_ok.mp stepped
  obtain rfl : h = h₁ := Except.ok.inj (given.symm.trans given₁)
  let after : Simulation Real σ H := { sim with
    mSolver := mSolver
    mEvents := (sim.mEvents.handleEvents sim.mTime h).queue
    heap := heap }
  have enter : Acts peer (q,⟨sim,.head⟩) () (q,⟨sim,.stepRead sim.sampledInterfaces⟩) := by
    simp [Acts,Process.advance,running]
  have solve : Acts peer (q',⟨{ sim with heap := h },.stepRead []⟩) ()
      (q',⟨after,.stepWrite nextTime sim.sampledInterfaces⟩) := by
    simp only [Acts,Process.advance,Process.solve,solved]
    rfl
  obtain ⟨_,reads⟩ := read_path peer sim sim.sampledInterfaces q received
  obtain ⟨_,writes⟩ := write_path peer after nextTime sim.sampledInterfaces q'
  exact ⟨_,.cons enter (reads.append (.cons solve (writes.snoc (l := ()) rfl)))⟩

end Refinement

inductive Side where
  | left
  | right
  deriving DecidableEq, Repr

namespace Side

def other : Side → Side
  | .left => .right
  | .right => .left

@[simp] theorem other_other (side : Side) : side.other.other = side := by cases side <;> rfl

@[simp] theorem other_ne (side : Side) : side.other ≠ side := by cases side <;> simp [other]

theorem eq_or_other (a b : Side) : a = b ∨ a = b.other := by cases a <;> cases b <;> simp [other]

end Side

structure State (Real σ H V : Type) [LinearOrder Real] where
  process : Side → Process Real σ H
  queues : Queues V

section System
variable (peer : Side → Peer Real σ H V)

def move (s : State Real σ H V) (side : Side) : Option (State Real σ H V) :=
  ((s.process side).advance (peer side) s.queues).map fun (q, p) =>
    ⟨Function.update s.process side p, q⟩

def Step (s : State Real σ H V) (side : Side) (t : State Real σ H V) : Prop :=
  move peer s side = some t

/-- Both sides wait in `readValues` on an empty queue. -/
def Deadlocked (s : State Real σ H V) : Prop :=
  ∀ side, (s.process side).Blocked (peer side) s.queues

def start (sims : Side → Simulation Real σ H) : State Real σ H V :=
  ⟨fun side => ⟨sims side, .opening⟩, fun _ => []⟩

theorem deadlocked_stuck {s : State Real σ H V} (dead : Deadlocked peer s) (side : Side) :
    move peer s side = none := by
  simp [move,Process.blocked_waits (dead side)]

end System
end DPsim.Coupling
