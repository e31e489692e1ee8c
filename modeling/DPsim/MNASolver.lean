import DPsim.Matrix
import DPsim.Simulation
import Mathlib.Data.List.AList
import Mathlib.Data.List.Sort

/-! `MnaSolver`. The component library is known only through the methods the solver calls: a
component is its address, the results of the dynamic casts and those methods. Nodes and
components live in a heap, which every method may change; a matrix stamp only reads it. -/
namespace DPsim

inductive VarType where
  | real
  | complex
  deriving DecidableEq, Repr

inductive Domain where
  | DP
  | EMT
  deriving DecidableEq, Repr

inductive PhaseType where
  | A
  | B
  | C
  | ABC
  | Single
  deriving DecidableEq, Repr

inductive Behaviour where
  | Initialization
  | Simulation
  deriving DecidableEq, Repr

/-- A pointer to a node of the topology, or to one the solver has made. -/
inductive NodeRef where
  | system (i : Nat)
  | made (i : Nat)
  deriving DecidableEq, Repr

/-- The simulation indices of the nodes, the virtual nodes of the components by address and
position, the number of nodes made so far, and all else. -/
structure Heap (W : Type) where
  simNode : NodeRef → Nat → UInt32
  virtualNode : Nat → Nat → Option NodeRef
  made : Nat
  objects : W

namespace Heap

variable {W : Type}

def setSimNode (h : Heap W) (node : NodeRef) (phase : Nat) (index : UInt32) : Heap W :=
  { h with simNode := fun n p => if n = node ∧ p = phase then index else h.simNode n p }

def setVirtualNodeAt (h : Heap W) (component : Nat) (node : NodeRef) (position : Nat) : Heap W :=
  { h with virtualNode := fun c p =>
      if c = component ∧ p = position then some node else h.virtualNode c p }

end Heap

structure Node where
  ref : NodeRef
  phaseType : PhaseType
  deriving DecidableEq, Repr

/-- A `CPS::TopologicalNode`: the variable type decides which casts succeed. -/
structure TopologicalNode where
  node : Node
  isGround : Bool
  varType : VarType
  deriving DecidableEq, Repr

def TopologicalNode.cast (V : VarType) (n : TopologicalNode) : Option Node :=
  if n.varType = V then some n.node else none

/-- A failed cast gives a null pointer, which the logging of the name dereferences. -/
def TopologicalNode.dereference (V : VarType) (n : TopologicalNode) : Except Fault Node :=
  match n.cast V with
  | some node => .ok node
  | none => .error .nullPointer

structure Equations (Real W : Type) where
  system : Matrix Real
  right : Matrix Real
  left : Matrix Real
  heap : Heap W

structure PowerComponent (Real W : Type) where
  hasVirtualNodes : Bool
  virtualNodesNumber : UInt32
  initializeFromPowerflow : Real → Heap W → Heap W

structure MNAInterface (Real W : Type) where
  address : Nat
  power : Option (VarType × PowerComponent Real W)
  mnaInitialize : Real → Real → Heap W → Heap W
  mnaApplySystemMatrixStamp : Heap W → Matrix Real → Matrix Real
  mnaApplyRightSideVectorStamp : Matrix Real × Heap W → Matrix Real × Heap W
  mnaStep : Real → Equations Real W → Equations Real W
  mnaPostStep : Real → Equations Real W → Equations Real W

def MNAInterface.cast {Real W : Type} (V : VarType) (comp : MNAInterface Real W) :
    Option (PowerComponent Real W) :=
  match comp.power with
  | some (varType, pComp) => if varType = V then some pComp else none
  | none => none

structure MNASwitchInterface (Real W : Type) where
  mnaInitialize : Real → Real → Heap W → Heap W
  mnaApplySystemMatrixStamp : Heap W → Matrix Real → Matrix Real
  mnaApplySwitchSystemMatrixStamp : Bool → Heap W → Matrix Real → Matrix Real
  mnaStep : Real → Equations Real W → Equations Real W
  mnaIsClosed : Heap W → Bool

structure SignalComponent (Real W : Type) where
  priority : Int
  initializeSignal : Heap W → Heap W
  step : Real → Heap W → Heap W

/-- A component of the topology, with the results of the three casts. -/
structure Component (Real W : Type) where
  mnaSwitch : Option (MNASwitchInterface Real W)
  mna : Option (MNAInterface Real W)
  signal : Option (SignalComponent Real W)
  setBehaviour : Behaviour → Heap W → Heap W

structure SystemTopology (Real W : Type) where
  mNodes : List TopologicalNode
  mComponents : List (Component Real W)
  mSystemFrequency : Real
  mSystemOmega : Real

/-- The rest of the component library: the triangular solves, the phase type of a node that is
made from an index alone, and the update of a node's voltage. -/
structure Library (Real W : Type) where
  solution : Matrix Real → Matrix Real → Nat → Nat → Real
  defaultPhase : PhaseType
  mnaUpdateVoltage : Node → Matrix Real → Heap W → Heap W

abbrev SwitchStatus := BitVec 32

def SwitchStatus.set (status : SwitchStatus) (i : Nat) (value : Bool) : SwitchStatus :=
  if value then status ||| (1#32 <<< i) else status &&& ~~~(1#32 <<< i)

def SWITCH_NUM : Nat := 32

structure MnaSolver (V : VarType) (Real W : Type) where
  mTimeStep : Real
  mDomain : Domain
  mNumNodes : UInt32
  mNumNetNodes : UInt32
  mNumVirtualNodes : UInt32
  mNumSimNodes : UInt32
  mNumNetSimNodes : UInt32
  mNumVirtualSimNodes : UInt32
  mSystem : SystemTopology Real W
  mNodes : List Node
  mPowerComponents : List (MNAInterface Real W)
  mSwitches : List (MNASwitchInterface Real W)
  mSignalComponents : List (SignalComponent Real W)
  mCurrentSwitchStatus : SwitchStatus
  mTmpSystemMatrix : Matrix Real
  mTmpLuFactorization : PartialPivLU Real
  mRightSideVector : Matrix Real
  mLeftSideVector : Matrix Real
  mSteadyStateInit : Bool
  mSwitchedMatrices : AList (fun _ : SwitchStatus => Matrix Real)
  mLuFactorizations : AList (fun _ : SwitchStatus => PartialPivLU Real)

namespace MnaSolver

variable {V : VarType} {Real W : Type}

def make [Field Real] (timeStep : Real) (domain : Domain) (steadyStateInit : Bool)
    (system : SystemTopology Real W) : MnaSolver V Real W where
  mTimeStep := timeStep
  mDomain := domain
  mNumNodes := 0
  mNumNetNodes := 0
  mNumVirtualNodes := 0
  mNumSimNodes := 0
  mNumNetSimNodes := 0
  mNumVirtualSimNodes := 0
  mSystem := system
  mNodes := []
  mPowerComponents := []
  mSwitches := []
  mSignalComponents := []
  mCurrentSwitchStatus := 0
  mTmpSystemMatrix := .Zero 0 0
  mTmpLuFactorization := .empty
  mRightSideVector := .Zero 0 0
  mLeftSideVector := .Zero 0 0
  mSteadyStateInit := steadyStateInit
  mSwitchedMatrices := ∅
  mLuFactorizations := ∅

/-- Ground nodes are left out. -/
def identifyTopologyObjects (s : MnaSolver V Real W) : Except Fault (MnaSolver V Real W) := do
  let nodes ← (s.mSystem.mNodes.filter (fun n => !n.isGround)).mapM (·.dereference V)
  return { s with
    mNodes := s.mNodes ++ nodes
    mSwitches := s.mSwitches ++ s.mSystem.mComponents.filterMap (·.mnaSwitch)
    mPowerComponents := s.mPowerComponents ++ s.mSystem.mComponents.filterMap (·.mna)
    mSignalComponents := s.mSignalComponents ++ s.mSystem.mComponents.filterMap (·.signal) }

structure VirtualNodes (W : Type) where
  virtualNode : UInt32
  nodes : List Node
  heap : Heap W

/-- `std::make_shared<CPS::Node<VarType>>(virtualNode)`, pushed and then read back by index. -/
def createVirtualNode (lib : Library Real W) (component : Nat) (v : VirtualNodes W) (position : Nat) :
    Except Fault (VirtualNodes W) :=
  let virtualNode := v.virtualNode + 1
  let node : Node := ⟨.made v.heap.made, lib.defaultPhase⟩
  let nodes := v.nodes ++ [node]
  let heap := { v.heap with made := v.heap.made + 1 }.setSimNode node.ref 0 virtualNode
  match nodes[virtualNode.toNat]? with
  | none => .error .outOfRange
  | some found => .ok ⟨virtualNode, nodes, heap.setVirtualNodeAt component found.ref position⟩

def virtualCount (V : VarType) (comp : MNAInterface Real W) : Nat :=
  match comp.cast V with
  | some pComp => if pComp.hasVirtualNodes then pComp.virtualNodesNumber.toNat else 0
  | none => 0

def createVirtualNodes (lib : Library Real W) (s : MnaSolver V Real W) (h : Heap W) :
    Except Fault (MnaSolver V Real W × Heap W) := do
  let mNumNetNodes := UInt32.ofNat s.mNodes.length
  let v ← s.mPowerComponents.foldlM (fun v comp =>
    (List.range (virtualCount V comp)).foldlM (createVirtualNode lib comp.address) v)
    ⟨mNumNetNodes - 1, s.mNodes, h⟩
  let mNumNodes := UInt32.ofNat v.nodes.length
  return ({ s with
    mNodes := v.nodes
    mNumNetNodes := mNumNetNodes
    mNumNodes := mNumNodes
    mNumVirtualNodes := mNumNodes - mNumNetNodes }, v.heap)

structure SimNodes (W : Type) where
  idx : UInt32
  simNodeIdx : UInt32
  mNumNetSimNodes : UInt32
  heap : Heap W

def assignSimNode (mNumNetNodes : UInt32) (a : SimNodes W) (node : Node) : SimNodes W :=
  let heap := a.heap.setSimNode node.ref 0 a.simNodeIdx
  let simNodeIdx := a.simNodeIdx + 1
  let (heap, simNodeIdx) :=
    if node.phaseType = .ABC then
      ((heap.setSimNode node.ref 1 simNodeIdx).setSimNode node.ref 2 (simNodeIdx + 1), simNodeIdx + 2)
    else (heap, simNodeIdx)
  ⟨a.idx + 1, simNodeIdx, if a.idx = mNumNetNodes - 1 then simNodeIdx else a.mNumNetSimNodes, heap⟩

def assignSimNodes (s : MnaSolver V Real W) (h : Heap W) : MnaSolver V Real W × Heap W :=
  let a := s.mNodes.foldl (assignSimNode s.mNumNetNodes) ⟨0, 0, s.mNumNetSimNodes, h⟩
  ({ s with
    mNumNetSimNodes := a.mNumNetSimNodes
    mNumSimNodes := a.simNodeIdx
    mNumVirtualSimNodes := a.simNodeIdx - a.mNumNetSimNodes }, a.heap)

/-- `std::sort` by descending priority; it fixes no order among equal priorities. -/
def sortExecutionPriority (s : MnaSolver V Real W) : MnaSolver V Real W :=
  { s with mSignalComponents := s.mSignalComponents.insertionSort fun lhs rhs => lhs.priority ≥ rhs.priority }

variable [Field Real]

/-- The number of rows: the product is computed in `UInt`. -/
def rows (V : VarType) (mNumSimNodes : UInt32) : Nat :=
  match V with
  | .real => mNumSimNodes.toNat
  | .complex => (2 * mNumSimNodes).toNat

def size (s : MnaSolver V Real W) : Nat := rows V s.mNumSimNodes

def createEmptyVectors (s : MnaSolver V Real W) : MnaSolver V Real W :=
  { s with
    mRightSideVector := .Zero s.size 1
    mLeftSideVector := .Zero s.size 1 }

def createEmptySystemMatrix (s : MnaSolver V Real W) : Except Fault (MnaSolver V Real W) :=
  if s.mSwitches.length > SWITCH_NUM then .error (.systemError "Too many Switches.")
  else .ok { s with
    mTmpSystemMatrix := .Zero s.size s.size
    mSwitchedMatrices := (List.range (s.mSwitches.length * 2)).foldl
      (fun matrices i => matrices.insert (BitVec.ofNat 32 i) (.Zero s.size s.size)) s.mSwitchedMatrices }

def initializeComponents (s : MnaSolver V Real W) (h : Heap W) : Heap W :=
  let h := s.mPowerComponents.foldl (fun h comp =>
    match comp.cast V with
    | some pComp => pComp.initializeFromPowerflow s.mSystem.mSystemFrequency h
    | none => h) h
  let h := s.mSignalComponents.foldl (fun h comp => comp.initializeSignal h) h
  let h := s.mPowerComponents.foldl (fun h comp => comp.mnaInitialize s.mSystem.mSystemOmega s.mTimeStep h) h
  s.mSwitches.foldl (fun h comp => comp.mnaInitialize s.mSystem.mSystemOmega s.mTimeStep h) h

def setBehaviours (s : MnaSolver V Real W) (behaviour : Behaviour) (h : Heap W) : Heap W :=
  s.mSystem.mComponents.foldl (fun h comp => comp.setBehaviour behaviour h) h

def stampPower (s : MnaSolver V Real W) (h : Heap W) (m : Matrix Real) : Matrix Real :=
  s.mPowerComponents.foldl (fun m comp => comp.mnaApplySystemMatrixStamp h m) m

/-- Power components, then switches in their own position. -/
def stampSystem (s : MnaSolver V Real W) (h : Heap W) (m : Matrix Real) : Matrix Real :=
  s.mSwitches.foldl (fun m comp => comp.mnaApplySystemMatrixStamp h m) (s.stampPower h m)

/-- Power components, then switch `i` in the position that bit `i` of the key gives. -/
def stampSwitched (s : MnaSolver V Real W) (h : Heap W) (key : SwitchStatus) (m : Matrix Real) :
    Matrix Real :=
  s.mSwitches.zipIdx.foldl (fun m (sw, i) => sw.mnaApplySwitchSystemMatrixStamp (key.getLsbD i) h m)
    (s.stampPower h m)

def stepSignals (s : MnaSolver V Real W) (time : Real) (h : Heap W) : Heap W :=
  s.mSignalComponents.foldl (fun h comp => comp.step time h) h

def stepPower (s : MnaSolver V Real W) (time : Real) (e : Equations Real W) : Equations Real W :=
  s.mPowerComponents.foldl (fun e comp => comp.mnaStep time e) e

def stepSwitches (s : MnaSolver V Real W) (time : Real) (e : Equations Real W) : Equations Real W :=
  s.mSwitches.foldl (fun e comp => comp.mnaStep time e) e

/-- `mnaPostStep` gets no reference to the system matrix. -/
def postSteps (s : MnaSolver V Real W) (time : Real) (e : Equations Real W) : Equations Real W :=
  s.mPowerComponents.foldl (fun e comp => { comp.mnaPostStep time e with system := e.system }) e

/-- The network nodes are the first `mNumNetNodes` entries. -/
def updateVoltages (lib : Library Real W) (s : MnaSolver V Real W) (e : Equations Real W) :
    Equations Real W :=
  let nodes := s.mNodes.take s.mNumNetNodes.toNat
  { e with heap := nodes.foldl (fun h node => lib.mnaUpdateVoltage node e.left h) e.heap }

def steadyStatePass (lib : Library Real W) (s : MnaSolver V Real W) (lu : PartialPivLU Real)
    (time : Real) (e : Equations Real W) : Except Fault (Equations Real W) := do
  let e := s.stepPower time { e with
    right := e.right.setZero
    heap := s.stepSignals time e.heap }
  let left ← lu.solve lib.solution e.right
  return s.updateVoltages lib (s.postSteps time { e with left := left })

/-- A quotient with denominator zero is infinite or not a number, hence never small. -/
def steadyStateLoop [LinearOrder Real] (lib : Library Real W) (s : MnaSolver V Real W)
    (lu : PartialPivLU Real) : Nat → Real → Matrix Real → Equations Real W → Except Fault (Equations Real W)
  | 0, _, _, _ => .error .outOfFuel
  | fuel + 1, time, prevLeftSideVector, e =>
    if time < 10 then do
      let e ← s.steadyStatePass lib lu time e
      let diff ← prevLeftSideVector.sub e.left
      if e.left.lpNorm ≠ 0 ∧ diff.lpNorm / e.left.lpNorm < 1 / 10000 then return e
      else steadyStateLoop lib s lu fuel (time + s.mTimeStep) e.left e
    else return e

def steadyStateInitialization [LinearOrder Real] (lib : Library Real W) (fuel : Nat)
    (s : MnaSolver V Real W) (h : Heap W) : Except Fault (MnaSolver V Real W × Heap W) := do
  let h := s.setBehaviours .Initialization h
  let system := s.stampSystem h s.mTmpSystemMatrix
  let lu ← PartialPivLU.compute system
  let e ← s.steadyStateLoop lib lu fuel 0 (.Zero (2 * s.mNumNodes).toNat 1)
    ⟨system, s.mRightSideVector, s.mLeftSideVector, h⟩
  return ({ s with
    mTmpSystemMatrix := e.system.setZero
    mTmpLuFactorization := lu
    mRightSideVector := e.right.setZero
    mLeftSideVector := e.left }, e.heap)

def factorizeSystem (s : MnaSolver V Real W) (h : Heap W) : Except Fault (MnaSolver V Real W) := do
  let system := s.stampSystem h s.mTmpSystemMatrix
  let lu ← PartialPivLU.compute system
  return { s with
    mTmpSystemMatrix := system
    mTmpLuFactorization := lu }

/-- Stamp and factorize the matrix of one switch state; the order of the map's entries is not
defined, and does not matter. -/
def factorizeSwitch (s : MnaSolver V Real W) (h : Heap W) (maps : AList (fun _ : SwitchStatus => Matrix Real) ×
      AList (fun _ : SwitchStatus => PartialPivLU Real))
    (sys : (_ : SwitchStatus) × Matrix Real) :
    Except Fault (AList (fun _ : SwitchStatus => Matrix Real) ×
      AList (fun _ : SwitchStatus => PartialPivLU Real)) := do
  let stamped := s.stampSwitched h sys.1 sys.2
  let lu ← PartialPivLU.compute stamped
  return (maps.1.insert sys.1 stamped, maps.2.insert sys.1 lu)

def factorizeSwitched (s : MnaSolver V Real W) (h : Heap W) : Except Fault (MnaSolver V Real W) := do
  let maps ← s.mSwitchedMatrices.entries.foldlM (s.factorizeSwitch h)
    (s.mSwitchedMatrices, s.mLuFactorizations)
  return { s with
    mSwitchedMatrices := maps.1
    mLuFactorizations := maps.2 }

/-- Bits from the number of switches on keep their value. -/
def updateSwitchStatus (s : MnaSolver V Real W) (h : Heap W) : MnaSolver V Real W :=
  let status := s.mSwitches.zipIdx.foldl
    (fun status (sw, i) => SwitchStatus.set status i (sw.mnaIsClosed h)) s.mCurrentSwitchStatus
  { s with mCurrentSwitchStatus := status }

def stampRightSide (s : MnaSolver V Real W) (h : Heap W) : MnaSolver V Real W × Heap W :=
  let (right, h) := s.mPowerComponents.foldl (fun r comp => comp.mnaApplyRightSideVectorStamp r)
    (s.mRightSideVector, h)
  ({ s with mRightSideVector := right }, h)

/-- The part of `initialize` that determines the network: nodes, indices, empty matrices. -/
def prepare (lib : Library Real W) (s : MnaSolver V Real W) (h : Heap W) :
    Except Fault (MnaSolver V Real W × Heap W) :=
  if s.mSystem.mComponents.length = 0 then .error .solverException
  else do
    let s ← s.identifyTopologyObjects
    let (s, h) ← s.createVirtualNodes lib h
    let (s, h) := s.assignSimNodes h
    let s ← s.sortExecutionPriority.createEmptyVectors.createEmptySystemMatrix
    return (s, h)

/-- The part of `initialize` before the components are set to `Behaviour::Simulation`. -/
def initializeNetwork [LinearOrder Real] (lib : Library Real W) (fuel : Nat) (s : MnaSolver V Real W)
    (h : Heap W) : Except Fault (MnaSolver V Real W × Heap W) := do
  let (s, h) ← s.prepare lib h
  let h := s.initializeComponents h
  if s.mSteadyStateInit ∧ s.mDomain = .DP then s.steadyStateInitialization lib fuel h
  else return (s, h)

/-- The rest of `initialize`. -/
def factorize (s : MnaSolver V Real W) (h : Heap W) : Except Fault (MnaSolver V Real W × Heap W) := do
  let h := s.setBehaviours .Simulation h
  let s ← s.factorizeSystem h
  let s ← s.factorizeSwitched h
  return (s.updateSwitchStatus h).stampRightSide h

/-- `initialize`. -/
def initializeSystem [LinearOrder Real] (lib : Library Real W) (fuel : Nat) (s : MnaSolver V Real W)
    (h : Heap W) : Except Fault (MnaSolver V Real W × Heap W) := do
  let (s, h) ← s.initializeNetwork lib fuel h
  s.factorize h

/-- `operator[]` of the map: a missing key gets a default-constructed factorization. -/
def factorizationAt (s : MnaSolver V Real W) (key : SwitchStatus) : PartialPivLU Real × MnaSolver V Real W :=
  match s.mLuFactorizations.lookup key with
  | some lu => (lu, s)
  | none => (.empty, { s with mLuFactorizations := s.mLuFactorizations.insert key .empty })

def solve (lib : Library Real W) (s : MnaSolver V Real W) : Except Fault (MnaSolver V Real W) :=
  if s.mSwitchedMatrices.entries.length > 0 then do
    let (lu, s) := s.factorizationAt s.mCurrentSwitchStatus
    let left ← lu.solve lib.solution s.mRightSideVector
    return { s with mLeftSideVector := left }
  else do
    let left ← s.mTmpLuFactorization.solve lib.solution s.mRightSideVector
    return { s with mLeftSideVector := left }

/-- The part of `step` before `solve`. -/
def stepComponents (s : MnaSolver V Real W) (time : Real) (h : Heap W) : MnaSolver V Real W × Heap W :=
  let e := s.stepSwitches time (s.stepPower time
    ⟨s.mTmpSystemMatrix, s.mRightSideVector.setZero, s.mLeftSideVector, s.stepSignals time h⟩)
  ({ s with
    mTmpSystemMatrix := e.system
    mRightSideVector := e.right
    mLeftSideVector := e.left }, e.heap)

/-- The part of `step` between `solve` and `updateSwitchStatus`. -/
def finishStep (lib : Library Real W) (s : MnaSolver V Real W) (time : Real) (h : Heap W) :
    MnaSolver V Real W × Heap W :=
  let e := s.updateVoltages lib (s.postSteps time
    ⟨s.mTmpSystemMatrix, s.mRightSideVector, s.mLeftSideVector, h⟩)
  ({ s with
    mRightSideVector := e.right
    mLeftSideVector := e.left }, e.heap)

def step (lib : Library Real W) (time : Real) (s : MnaSolver V Real W) (h : Heap W) :
    Except Fault (Real × MnaSolver V Real W × Heap W) := do
  let (s, h) := s.stepComponents time h
  let s ← s.solve lib
  let (s, h) := s.finishStep lib time h
  return (time + s.mTimeStep, s.updateSwitchStatus h, h)

/-- The solver as `Simulation` drives it. -/
def solver (lib : Library Real W) : Solver Real (MnaSolver V Real W) (Heap W) := ⟨step lib⟩

end MnaSolver
end DPsim
