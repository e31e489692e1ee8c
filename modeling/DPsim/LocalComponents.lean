import DPsim.MatrixRenumbering
import DPsim.MNAShapes
import Mathlib.Logic.Function.Basic

/-! Components that work on their own state and address the rows of their own nodes only. What
such a component does commutes with what another one does, and with a renumbering of the nodes. -/
namespace DPsim
open Renumbering

/-- The rows for a number of nodes: a complex vector holds the real and then the imaginary parts. -/
def rowsFor (V : VarType) (n : Nat) : Nat :=
  match V with
  | .real => n
  | .complex => n + n

/-- New indices for the nodes with the first `count` indices. -/
structure Renaming (V : VarType) where
  count : Nat
  node : Equiv.Perm Nat
  keeps : Keeps count node

namespace Renaming

variable {V : VarType}

def row (ρ : Renaming V) : Equiv.Perm Nat :=
  match V with
  | .real => ρ.node
  | .complex => beside ρ.count ρ.node ρ.node ρ.keeps

def rows (ρ : Renaming V) : Nat := rowsFor V ρ.count

theorem row_keeps (ρ : Renaming V) : Keeps ρ.rows ρ.row := by
  cases V with
  | real => exact ρ.keeps
  | complex => exact beside_keeps ρ.keeps ρ.keeps

end Renaming

/-- What a component may look at: its state, the indices of its nodes, the time, the left vector. -/
structure View (S Real : Type) where
  state : S
  indices : List (List Nat)
  rows : Nat
  time : Real
  left : Nat → Real

/-- What it may do: change its state, add to the matrix and to the right vector. -/
structure Response (S Real : Type) where
  state : S
  system : Nat → Nat → Real
  right : Nat → Real

structure View.Renamed {S Real : Type} (ρ : Renaming V) (v v' : View S Real) : Prop where
  state : v'.state = v.state
  indices : v'.indices = v.indices.map (·.map ρ.node)
  rows : v.rows = ρ.rows
  rows' : v'.rows = ρ.rows
  time : v'.time = v.time
  left : ∀ i, v'.left (ρ.row i) = v.left i

structure Response.Renamed {S Real : Type} (ρ : Renaming V) (r r' : Response S Real) : Prop where
  state : r'.state = r.state
  system : ∀ i < ρ.rows, ∀ j < ρ.rows, r'.system (ρ.row i) (ρ.row j) = r.system i j
  right : ∀ i < ρ.rows, r'.right (ρ.row i) = r.right i

/-- A method that takes the indices of its nodes as positions: with other indices it does the
same in other rows. -/
structure Method (V : VarType) (S Real : Type) where
  respond : View S Real → Response S Real
  uniform : ∀ (ρ : Renaming V) (v v' : View S Real), v.Renamed ρ v' → (respond v).Renamed ρ (respond v')

structure Objects (S U : Type) where
  state : Nat → S
  voltage : NodeRef → U

structure Site where
  address : Nat
  nodes : List Node
  virtualNodes : Nat
  phaseType : PhaseType

variable {V : VarType} {S U Real : Type}

namespace Site

def indices (site : Site) (h : Heap W) : List (List Nat) :=
  site.nodes.map (fun node => (MnaSolver.simNodes h node).map UInt32.toNat) ++
    (List.range site.virtualNodes).map fun p =>
      match h.virtualNode site.address p with
      | some ref => (MnaSolver.simNodes h ⟨ref,site.phaseType⟩).map UInt32.toNat
      | none => []

def setState (site : Site) (state : S) (h : Heap (Objects S U)) : Heap (Objects S U) :=
  { h with objects := { h.objects with state := Function.update h.objects.state site.address state } }

def onState (site : Site) (f : S → S) (h : Heap (Objects S U)) : Heap (Objects S U) :=
  site.setState (f (h.objects.state site.address)) h

@[simp] theorem onState_id (site : Site) (h : Heap (Objects S U)) : site.onState id h = h := by
  simp [onState,setState]

variable [Field Real]

def view (site : Site) (time : Real) (e : Equations Real (Objects S U)) : View S Real :=
  ⟨e.heap.objects.state site.address,site.indices e.heap,e.left.rows,time,fun i => e.left.entry i 0⟩

end Site

def Method.call [Field Real] (method : Method V S Real) (site : Site) (time : Real)
    (e : Equations Real (Objects S U)) : Equations Real (Objects S U) :=
  let r := method.respond (site.view time e)
  ⟨e.system.accumulate r.system,e.right.accumulate fun i _ => r.right i,e.left,site.setState r.state e.heap⟩

structure LocalPower (S Real : Type) where
  hasVirtualNodes : Bool
  virtualNodesNumber : UInt32
  initializeFromPowerflow : Real → S → S

structure LocalMNA (V : VarType) (S Real : Type) where
  power : Option (VarType × LocalPower S Real)
  mnaInitialize : Real → Real → S → S
  mnaApplySystemMatrixStamp : Method V S Real
  mnaApplyRightSideVectorStamp : Method V S Real
  mnaStep : Method V S Real
  mnaPostStep : Method V S Real

structure LocalSwitch (V : VarType) (S Real : Type) where
  mnaInitialize : Real → Real → S → S
  mnaApplySystemMatrixStamp : Method V S Real
  mnaApplySwitchSystemMatrixStamp : Bool → Method V S Real
  mnaStep : Method V S Real
  mnaIsClosed : S → Bool

/-- A component that is no signal component, with those of its nodes that are no ground nodes. -/
structure LocalComponent (V : VarType) (S Real : Type) where
  nodes : List Node
  mnaSwitch : Option (LocalSwitch V S Real)
  mna : Option (LocalMNA V S Real)
  setBehaviour : Behaviour → S → S

def LocalMNA.virtualNodes (comp : LocalMNA V S Real) : Nat :=
  match comp.power with
  | some (varType, pComp) =>
    if varType = V then (if pComp.hasVirtualNodes then pComp.virtualNodesNumber.toNat else 0) else 0
  | none => 0

section Interfaces
variable [Field Real] (site : Site)

/-- A stamp is given the matrix alone, and its methods neither the time nor the left vector. -/
def Method.stamp (method : Method V S Real) (h : Heap (Objects S U)) (m : Matrix Real) : Matrix Real :=
  (method.call site 0 ⟨m,.Zero m.rows 1,.Zero m.rows 1,h⟩).system

def LocalMNA.interface (comp : LocalMNA V S Real) : MNAInterface Real (Objects S U) where
  address := site.address
  power := comp.power.map fun (varType, pComp) =>
    (varType,⟨pComp.hasVirtualNodes,pComp.virtualNodesNumber,fun frequency =>
      site.onState (pComp.initializeFromPowerflow frequency)⟩)
  mnaInitialize omega timeStep := site.onState (comp.mnaInitialize omega timeStep)
  mnaApplySystemMatrixStamp := comp.mnaApplySystemMatrixStamp.stamp site
  mnaApplyRightSideVectorStamp r :=
    let e := comp.mnaApplyRightSideVectorStamp.call site 0
      ⟨.Zero r.1.rows r.1.rows,r.1,.Zero r.1.rows 1,r.2⟩
    (e.right,e.heap)
  mnaStep := comp.mnaStep.call site
  mnaPostStep time e := { comp.mnaPostStep.call site time e with system := e.system }

def LocalSwitch.interface (sw : LocalSwitch V S Real) : MNASwitchInterface Real (Objects S U) where
  mnaInitialize omega timeStep := site.onState (sw.mnaInitialize omega timeStep)
  mnaApplySystemMatrixStamp := sw.mnaApplySystemMatrixStamp.stamp site
  mnaApplySwitchSystemMatrixStamp closed := (sw.mnaApplySwitchSystemMatrixStamp closed).stamp site
  mnaStep := sw.mnaStep.call site
  mnaIsClosed h := sw.mnaIsClosed (h.objects.state site.address)

end Interfaces

/-- How a node takes its voltage from the rows it has in the left vector. -/
structure VoltageUpdate (V : VarType) (U Real : Type) where
  update : List Nat → Nat → (Nat → Real) → U → U
  uniform : ∀ (ρ : Renaming V) indices left left' voltage, (∀ i, left' (ρ.row i) = left i) →
    update (indices.map ρ.node) ρ.rows left' voltage = update indices ρ.rows left voltage

section Calls
variable [Field Real] {sites : List Site} {net : List Node} {ρ : Renaming V}

structure Heap.Renamed (ρ : Renaming V) (sites : List Site) (net : List Node)
    (h h' : Heap (Objects S U)) : Prop where
  objects : h'.objects = h.objects
  indices : ∀ site ∈ sites, site.indices h' = (site.indices h).map (·.map ρ.node)
  network : ∀ node ∈ net, (MnaSolver.simNodes h' node).map UInt32.toNat =
    ((MnaSolver.simNodes h node).map UInt32.toNat).map ρ.node

structure Equations.Renamed (ρ : Renaming V) (sites : List Site) (net : List Node)
    (e e' : Equations Real (Objects S U)) : Prop where
  sized : e.Sized ρ.rows
  system : e.system.Renumbered ρ.row ρ.row e'.system
  right : e.right.Renumbered ρ.row 1 e'.right
  left : e.left.Renumbered ρ.row 1 e'.left
  heap : e.heap.Renamed ρ sites net e'.heap

theorem Equations.Renamed.sized' {e e' : Equations Real (Objects S U)} (same : e.Renamed ρ sites net e') :
    e'.Sized ρ.rows where
  system := ⟨same.system.rows.trans same.sized.system.1,same.system.cols.trans same.sized.system.2⟩
  right := ⟨same.right.rows.trans same.sized.right.1,same.right.cols.trans same.sized.right.2⟩
  left := ⟨same.left.rows.trans same.sized.left.1,same.left.cols.trans same.sized.left.2⟩

theorem Heap.Renamed.setState {h h' : Heap (Objects S U)} (same : h.Renamed ρ sites net h') (site : Site)
    (state : S) : (site.setState state h).Renamed ρ sites net (site.setState state h') := by
  refine ⟨?_,same.indices,same.network⟩
  rw [Site.setState,Site.setState,same.objects]

theorem Heap.Renamed.onState {h h' : Heap (Objects S U)} (same : h.Renamed ρ sites net h') (site : Site)
    (f : S → S) : (site.onState f h).Renamed ρ sites net (site.onState f h') := by
  rw [Site.onState,Site.onState,same.objects]
  exact same.setState site _

theorem Site.setState_comm {site site' : Site} (other : site.address ≠ site'.address) (state state' : S)
    (h : Heap (Objects S U)) :
    site.setState state (site'.setState state' h) = site'.setState state' (site.setState state h) := by
  simp only [Site.setState,Function.update_comm other]

theorem Site.setState_other {site site' : Site} (other : site.address ≠ site'.address) (state' : S)
    (h : Heap (Objects S U)) :
    (site'.setState state' h).objects.state site.address = h.objects.state site.address :=
  Function.update_of_ne other _ _

theorem Site.onState_comm {site site' : Site} (other : site.address ≠ site'.address) (f g : S → S)
    (h : Heap (Objects S U)) : site.onState f (site'.onState g h) = site'.onState g (site.onState f h) := by
  unfold Site.onState
  rw [Site.setState_other other,Site.setState_other other.symm,Site.setState_comm other]

theorem Site.view_call {site site' : Site} (other : site.address ≠ site'.address) (method : Method V S Real)
    (time : Real) (e : Equations Real (Objects S U)) :
    site.view time (method.call site' time e) = site.view time e := by
  unfold Site.view
  rw [show (method.call site' time e).heap.objects.state site.address = e.heap.objects.state site.address from
    Site.setState_other other _ _]
  rfl

theorem accumulate_comm (m : Matrix Real) (c d : Nat → Nat → Real) :
    (m.accumulate c).accumulate d = (m.accumulate d).accumulate c := by
  rw [Matrix.accumulate_accumulate,Matrix.accumulate_accumulate,add_comm]

theorem Method.call_comm {site site' : Site} (other : site.address ≠ site'.address)
    (first second : Method V S Real) (time : Real) (e : Equations Real (Objects S U)) :
    first.call site time (second.call site' time e) = second.call site' time (first.call site time e) := by
  rw [Method.call,Site.view_call other,Method.call.eq_def second site' time (first.call site time e),
    Site.view_call other.symm]
  simp only [Method.call,Equations.mk.injEq,true_and]
  exact ⟨accumulate_comm ..,accumulate_comm ..,Site.setState_comm other ..⟩

theorem Equations.Renamed.view {e e' : Equations Real (Objects S U)} (same : e.Renamed ρ sites net e')
    {site : Site} (known : site ∈ sites) (time : Real) :
    (site.view time e).Renamed ρ (site.view time e') where
  state := congrArg (fun objects : Objects S U => objects.state site.address) same.heap.objects
  indices := same.heap.indices site known
  rows := same.sized.left.1
  rows' := same.left.rows.trans same.sized.left.1
  time := rfl
  left i := same.left.entries i 0

theorem Method.call_renamed (method : Method V S Real) {site : Site} (known : site ∈ sites) (time : Real)
    {e e' : Equations Real (Objects S U)} (same : e.Renamed ρ sites net e') :
    (method.call site time e).Renamed ρ sites net (method.call site time e') := by
  have response := method.uniform ρ _ _ (same.view known time)
  have system := same.sized.system
  have right := same.sized.right
  refine ⟨⟨system,right,same.sized.left⟩,?_,?_,same.left,?_⟩
  · apply same.system.accumulate (system.1 ▸ ρ.row_keeps) (system.2 ▸ ρ.row_keeps)
    rw [system.1,system.2]
    exact response.system
  · show (e.right.accumulate fun i _ => (method.respond (site.view time e)).right i).Renumbered ρ.row 1
      (e'.right.accumulate fun i _ => (method.respond (site.view time e')).right i)
    apply same.right.accumulate (right.1 ▸ ρ.row_keeps) (keeps_one _)
    rw [right.1]
    exact fun i inside _ _ => response.right i inside
  · rw [Method.call,Method.call,response.state]
    exact same.heap.setState site _

def Method.withoutSystem (method : Method V S Real) : Method V S Real where
  respond v := { method.respond v with system := 0 }
  uniform ρ v v' same :=
    have response := method.uniform ρ v v' same
    ⟨response.state,fun _ _ _ _ => rfl,response.right⟩

theorem Method.call_withoutSystem (method : Method V S Real) (site : Site) (time : Real)
    (e : Equations Real (Objects S U)) :
    method.withoutSystem.call site time e = { method.call site time e with system := e.system } := by
  simp [Method.call,Method.withoutSystem]

end Calls

end DPsim
