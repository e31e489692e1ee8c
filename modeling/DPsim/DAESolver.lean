import DPsim.MNASolver
import Mathlib.Data.List.ReduceOption

/-! `DAESolver`: its constructor, `initialize` up to the calls of the integrator, and
`residualFunction`. The assignments to the vectors are kept in order, so that those past the end
of a vector can be seen. -/
namespace DPsim

/-- What a component's `daeResidual` works on besides its own state. -/
structure Residual (Real : Type) where
  resid : List (Int32 × Real)
  mOffsets : Int32 × Int32

structure DAEInterface (Real W : Type) where
  daeResidual : Real → (Int32 → Real) → (Int32 → Real) → Residual Real × Heap W → Residual Real × Heap W

/-- A component of a topology for any of the solvers: the casts to a power component and to
`DAEInterface`, and the voltage of a power component. -/
structure TopologyComponent (Real W : Type) extends Component Real W where
  power : Option (VarType × PowerComponent Real W)
  voltage : Heap W → Real
  dae : Option (DAEInterface Real W)
  /-- The cast to a power component does not depend on the pointer it starts from. -/
  same : ∀ comp, mna = some comp → comp.power = power

def TopologyComponent.cast {Real W : Type} (V : VarType) (comp : TopologyComponent Real W) :
    Option (PowerComponent Real W) :=
  match comp.power with
  | some (varType, pComp) => if varType = V then some pComp else none
  | none => none

structure Topology (Real W : Type) where
  mNodes : List TopologicalNode
  mComponents : List (TopologyComponent Real W)
  mSystemFrequency : Real
  mSystemOmega : Real

/-- The topology as an `MnaSolver` sees it. -/
def Topology.system {Real W : Type} (t : Topology Real W) : SystemTopology Real W :=
  ⟨t.mNodes, t.mComponents.map (·.toComponent), t.mSystemFrequency, t.mSystemOmega⟩

/-- The pointers that a solver's `mNodes` gets: null where the cast fails. -/
def Topology.pointers {Real W : Type} (V : VarType) (t : Topology Real W) : List (Option Node) :=
  (t.mNodes.filter (fun n => !n.isGround)).map (·.cast V)

/-- The real parts of the first phase of `initialVoltage()` and `voltage()`. -/
structure NodeVoltages (Real W : Type) where
  initialVoltage : Node → Heap W → Real
  voltage : Node → Heap W → Real

structure DAESolver (Real W : Type) where
  mSystem : Topology Real W
  mOffsets : Int32 × Int32
  mTimestep : Real
  mNEQ : Int32
  mComponents : List (TopologyComponent Real W)
  mNodes : List (Option Node)
  state : List (Int32 × Real)
  dstate_dt : List (Int32 × Real)
  mResidualFunctions : List (TopologyComponent Real W × DAEInterface Real W)

namespace DAESolver

variable {Real W : Type}

/-- `CPS::Exception`, which is thrown without a text. -/
def exception : Fault := .exception ""

def supported (comp : TopologyComponent Real W) : Except Fault (TopologyComponent Real W) :=
  match comp.dae with
  | some _ => .ok comp
  | none => .error exception

def collect (system : Topology Real W) (dt : Real) : Except Fault (DAESolver Real W) := do
  let mComponents ← system.mComponents.mapM supported
  return {
    mSystem := system
    mOffsets := (0, 0)
    mTimestep := dt
    mNEQ := Int32.ofNat (system.mComponents.length + 2 * system.mNodes.length)
    mComponents := mComponents
    mNodes := system.pointers .real
    state := []
    dstate_dt := []
    mResidualFunctions := [] }

structure Numbering (W : Type) where
  simNodeIdx : UInt32
  heap : Heap W

def numberNode (a : Numbering W) (node : Node) : Numbering W :=
  let simNodeIdx := a.simNodeIdx + 1
  let heap := a.heap.setSimNode node.ref 0 simNodeIdx
  if node.phaseType = .ABC then
    ⟨simNodeIdx + 1 + 1, (heap.setSimNode node.ref 1 (simNodeIdx + 1)).setSimNode node.ref 2 (simNodeIdx + 1 + 1)⟩
  else ⟨simNodeIdx, heap⟩

def numberPointer (a : Numbering W) (pointer : Option Node) : Except Fault (Numbering W) :=
  match pointer with
  | some node => .ok (numberNode a node)
  | none => .error .nullPointer

def numberNodes (mNodes : List (Option Node)) (h : Heap W) : Except Fault (Heap W) := do
  let a ← mNodes.foldlM numberPointer ⟨-1, h⟩
  return a.heap

structure Setup (Real W : Type) where
  counter : Int32
  sval : List (Int32 × Real)
  mResidualFunctions : List (TopologyComponent Real W × DAEInterface Real W)

def Setup.assign (value : Real) (a : Setup Real W) : Setup Real W :=
  { a with
    counter := a.counter + 1
    sval := a.sval ++ [(a.counter, value)] }

/-- The loop over the components, and the exception it ends with if it does. -/
def registerComponents (h : Heap W) : List (TopologyComponent Real W) → Setup Real W →
    Setup Real W × Option Fault
  | [], a => (a, none)
  | comp :: comps, a =>
    match comp.cast .real with
    | none => (a, some exception)
    | some _ =>
      let a := a.assign (comp.voltage h)
      match comp.dae with
      | none => (a, some exception)
      | some daeComp => registerComponents h comps
          { a with mResidualFunctions := a.mResidualFunctions ++ [(comp, daeComp)] }

def nodes (s : DAESolver Real W) : List Node := s.mNodes.reduceOption

def initializeComponents (s : DAESolver Real W) (h : Heap W) : Heap W :=
  s.mComponents.foldl (fun h comp =>
    match comp.cast .real with
    | some emtComp => emtComp.initializeFromPowerflow s.mSystem.mSystemFrequency h
    | none => h) h

def assignNodes [Add Real] [Zero Real] (lib : NodeVoltages Real W) (s : DAESolver Real W) (h : Heap W) :
    Setup Real W :=
  s.nodes.foldl (fun a node => a.assign (0 + lib.initialVoltage node h)) ⟨0, [], s.mResidualFunctions⟩

/-- `for (int j = 1; j < mNEQ; j++)` -/
def assignZeros [Zero Real] (mNEQ : Int32) (a : Setup Real W) : Setup Real W :=
  (List.range (mNEQ.toInt - 1).toNat).foldl (fun a _ => a.assign 0) a

/-- `for (int i = 0; i < (mNEQ-1); i++)` -/
def derivatives [Zero Real] (mNEQ : Int32) : List (Int32 × Real) :=
  (List.range (mNEQ.toInt - 1).toNat).map fun i => (Int32.ofNat i, 0)

/-- `initialize`, and the exception it ends with if it does. -/
def initializeState [Add Real] [Zero Real] (lib : NodeVoltages Real W) (s : DAESolver Real W) (h : Heap W) :
    DAESolver Real W × Heap W × Option Fault :=
  let h := s.initializeComponents h
  match registerComponents h s.mComponents (s.assignNodes lib h) with
  | (a, some fault) => ({ s with
      state := a.sval
      mResidualFunctions := a.mResidualFunctions }, h, some fault)
  | (a, none) => ({ s with
      state := (assignZeros s.mNEQ a).sval
      dstate_dt := derivatives s.mNEQ
      mResidualFunctions := a.mResidualFunctions }, h, none)

/-- The constructor. A fault in its own part leaves no solver. -/
def construct [Add Real] [Zero Real] (lib : NodeVoltages Real W) (system : Topology Real W) (dt : Real)
    (h : Heap W) : Except Fault (DAESolver Real W × Heap W × Option Fault) := do
  let s ← collect system dt
  let h ← numberNodes s.mNodes h
  return s.initializeState lib h

def Residual.assign [Add Real] [Sub Real] [Zero Real] (lib : NodeVoltages Real W) (tempstate : Int32 → Real)
    (h : Heap W) (r : Residual Real) (node : Node) : Residual Real :=
  { resid := r.resid ++ [(r.mOffsets.1, tempstate r.mOffsets.1 - (0 + lib.voltage node h))]
    mOffsets := (r.mOffsets.1 + 1, r.mOffsets.2) }

def residualNodes [Add Real] [Sub Real] [Zero Real] (lib : NodeVoltages Real W) (s : DAESolver Real W)
    (tempstate : Int32 → Real) (h : Heap W) : Residual Real :=
  s.nodes.foldl (Residual.assign lib tempstate h) ⟨[], (0, 0)⟩

def residualFunction [Add Real] [Sub Real] [Zero Real] (lib : NodeVoltages Real W) (ttime : Real)
    (state dstate_dt : Int32 → Real) (s : DAESolver Real W) (h : Heap W) : Residual Real × Heap W :=
  s.mResidualFunctions.foldl (fun r resFn => resFn.2.daeResidual ttime state dstate_dt r)
    (s.residualNodes lib state h, h)

def entries (values : List Real) : List (Int32 × Real) := values.zipIdx.map fun (x, i) => (Int32.ofNat i, x)

theorem entries_snoc (values : List Real) (x : Real) :
    entries (values ++ [x]) = entries values ++ [(Int32.ofNat values.length,x)] := by
  simp [entries,List.zipIdx_append]

structure Setup.Holds (values : List Real) (a : Setup Real W) : Prop where
  counter : a.counter = Int32.ofNat values.length
  sval : a.sval = entries values

theorem Setup.Holds.assign {values : List Real} {a : Setup Real W} (holds : a.Holds values) (x : Real) :
    (a.assign x).Holds (values ++ [x]) := by
  constructor
  · rw [Setup.assign,holds.counter,List.length_append,Int32.ofNat_add]
    rfl
  · rw [Setup.assign,holds.counter,holds.sval,entries_snoc]

theorem Setup.Holds.foldl {values : List Real} {a : Setup Real W} (holds : a.Holds values) (value : α → Real)
    (xs : List α) : (xs.foldl (fun a x => a.assign (value x)) a).Holds (values ++ xs.map value) := by
  induction xs generalizing values a with
  | nil => simpa using holds
  | cons x xs ih => simpa using ih (holds.assign (value x))

theorem assign_residuals (value : α → Real) (xs : List α) (a : Setup Real W) :
    (xs.foldl (fun a x => a.assign (value x)) a).mResidualFunctions = a.mResidualFunctions := by
  induction xs generalizing a with
  | nil => rfl
  | cons x xs ih => exact ih (a.assign (value x))

def powered (comps : List (TopologyComponent Real W)) : List (TopologyComponent Real W) :=
  comps.takeWhile fun comp => (comp.cast .real).isSome

theorem registerComponents_spec (h : Heap W) {comps : List (TopologyComponent Real W)}
    (supported : ∀ comp ∈ comps, comp.dae.isSome = true) {values : List Real} {a : Setup Real W}
    (holds : a.Holds values) :
    (registerComponents h comps a).1.Holds (values ++ (powered comps).map (·.voltage h)) ∧
      (registerComponents h comps a).1.mResidualFunctions.map Prod.fst =
        a.mResidualFunctions.map Prod.fst ++ powered comps ∧
      ((registerComponents h comps a).2 = none ↔ ∀ comp ∈ comps, (comp.cast .real).isSome = true) := by
  induction comps generalizing values a with
  | nil => simpa [registerComponents,powered] using holds
  | cons comp comps ih =>
    obtain ⟨daeComp,interface⟩ := Option.isSome_iff_exists.mp (supported comp List.mem_cons_self)
    cases power : comp.cast .real with
    | none => simpa [registerComponents,powered,power] using holds
    | some emtComp =>
      have next : Setup.Holds (values ++ [comp.voltage h]) { a.assign (comp.voltage h) with
          mResidualFunctions := (a.assign (comp.voltage h)).mResidualFunctions ++ [(comp,daeComp)] } :=
        ⟨(holds.assign _).counter,(holds.assign _).sval⟩
      obtain ⟨held,residuals,ended⟩ := ih (fun c member => supported c (List.mem_cons_of_mem comp member)) next
      simp only [registerComponents,power,interface,powered,List.takeWhile_cons,Option.isSome_some,if_true]
      refine ⟨?_,?_,?_⟩
      · simpa [powered] using held
      · simpa [powered,Setup.assign] using residuals
      · simpa [power] using ended

theorem mapM_supported (comps : List (TopologyComponent Real W)) :
    comps.mapM supported = if ∀ comp ∈ comps, comp.dae.isSome = true then .ok comps else .error exception := by
  induction comps with
  | nil => rfl
  | cons comp comps ih =>
    rw [List.mapM_cons,ih,supported]
    cases interface : comp.dae with
    | none => simp [interface,bind,Except.bind]
    | some daeComp =>
      by_cases rest : ∀ c ∈ comps, c.dae.isSome = true
      · simp [interface,if_pos rest,bind,Except.bind,pure,Except.pure]
      · simp [interface,if_neg rest,bind,Except.bind]

def collected (system : Topology Real W) (dt : Real) : DAESolver Real W where
  mSystem := system
  mOffsets := (0, 0)
  mTimestep := dt
  mNEQ := Int32.ofNat (system.mComponents.length + 2 * system.mNodes.length)
  mComponents := system.mComponents
  mNodes := system.pointers .real
  state := []
  dstate_dt := []
  mResidualFunctions := []

theorem collect_eq (system : Topology Real W) (dt : Real) : collect system dt =
    if ∀ comp ∈ system.mComponents, comp.dae.isSome = true then .ok (collected system dt)
    else .error exception := by
  rw [collect,mapM_supported]
  split <;> rfl

theorem foldlM_numberPointer (nodes : List Node) (a : Numbering W) :
    (nodes.map some).foldlM numberPointer a = .ok (nodes.foldl numberNode a) := by
  induction nodes generalizing a with
  | nil => rfl
  | cons node nodes ih => exact ih (numberNode a node)

theorem foldlM_null {mNodes : List (Option Node)} (null : none ∈ mNodes) (a : Numbering W) :
    mNodes.foldlM numberPointer a = .error .nullPointer := by
  induction mNodes generalizing a with
  | nil => contradiction
  | cons pointer mNodes ih =>
    cases pointer with
    | none => rfl
    | some node => exact ih (by simpa using null) (numberNode a node)

theorem pointers_of_nodes {mNodes : List (Option Node)} (fine : none ∉ mNodes) :
    mNodes = mNodes.reduceOption.map some := by
  induction mNodes with
  | nil => rfl
  | cons pointer mNodes ih =>
    cases pointer with
    | none => simp at fine
    | some node =>
      rw [List.reduceOption_cons_of_some,List.map_cons,← ih (by simpa using fine)]

theorem numberNodes_eq (mNodes : List (Option Node)) (h : Heap W) : numberNodes mNodes h =
    if none ∈ mNodes then .error .nullPointer
    else .ok (mNodes.reduceOption.foldl numberNode ⟨-1,h⟩).heap := by
  unfold numberNodes
  split
  · rename_i null
    rw [foldlM_null null]
    rfl
  · rename_i fine
    conv_lhs => rw [pointers_of_nodes fine,foldlM_numberPointer]
    rfl

end DAESolver
end DPsim
