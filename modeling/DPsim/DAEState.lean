import DPsim.DAESolver
import Mathlib.Data.List.TakeWhile

/-! Which entries of the state vector and of its derivative `DAESolver::initialize` assigns. -/
namespace DPsim.DAESolver

variable {Real W : Type}

/-- The entry exists in a vector that `N_VNew_Serial(mNEQ)` has allocated. -/
def Inside (mNEQ : Int32) (index : Int32) : Prop := 0 ≤ index.toInt ∧ index.toInt < mNEQ.toInt

def valueAt (assigned : List (Int32 × Real)) (index : Int32) : Option Real :=
  (assigned.reverse.find? (·.1 = index)).map Prod.snd

theorem mem_entries {values : List Real} {w : Int32 × Real} :
    w ∈ entries values ↔ ∃ i, values[i]? = some w.2 ∧ w.1 = Int32.ofNat i := by
  constructor
  · intro member
    obtain ⟨⟨x,i⟩,there,rfl⟩ := List.mem_map.mp member
    exact ⟨i,List.mem_zipIdx_iff_getElem?.mp there,rfl⟩
  · rintro ⟨i,there,index⟩
    exact List.mem_map.mpr ⟨(w.2,i),List.mem_zipIdx_iff_getElem?.mpr there,Prod.ext index.symm rfl⟩

theorem entries_inside (mNEQ : Int32) (values : List Real) :
    (∀ w ∈ entries values, Inside mNEQ w.1) ↔ values.length ≤ mNEQ.toInt.toNat := by
  have bound := Int32.toInt_lt mNEQ
  constructor
  · intro inside
    by_contra more
    obtain ⟨_,high⟩ := inside (Int32.ofNat mNEQ.toInt.toNat,values[mNEQ.toInt.toNat])
      (mem_entries.mpr ⟨_,List.getElem?_eq_getElem _,rfl⟩)
    dsimp only at high
    rw [Int32.toInt_ofNat_of_lt (by omega)] at high
    omega
  · intro fits w member
    obtain ⟨i,there,index⟩ := mem_entries.mp member
    have less := (List.getElem?_eq_some_iff.mp there).1
    rw [Inside,index,Int32.toInt_ofNat_of_lt (by omega)]
    omega

theorem derivatives_short [Zero Real] {mNEQ : Int32} (some : 0 < mNEQ.toInt) :
    ¬ ∃ w ∈ (derivatives mNEQ : List (Int32 × Real)), w.1 = Int32.ofNat (mNEQ.toInt - 1).toNat := by
  rintro ⟨w,member,last⟩
  obtain ⟨i,inside,rfl⟩ := List.mem_map.mp member
  rw [List.mem_range] at inside
  have bound := Int32.toInt_lt mNEQ
  have same := congrArg Int32.toInt last
  dsimp only at same
  rw [Int32.toInt_ofNat_of_lt (by omega),Int32.toInt_ofNat_of_lt (by omega)] at same
  omega

variable [Add Real] [Zero Real]

/-- The vectors after an `initialize`: only their entries are assigned and, if no exception is
thrown, all of them, first the voltages of the nodes, then those of the components, then zeros. -/
structure Filled (lib : NodeVoltages Real W) (s : DAESolver Real W) (h : Heap W) (fault : Option Fault) :
    Prop where
  inside : ∀ w ∈ s.state, Inside s.mNEQ w.1
  complete : fault = none → ∀ i : Nat, (i : Int) < s.mNEQ.toInt → valueAt s.state (Int32.ofNat i) =
    some ((s.nodes.map (fun node => 0 + lib.initialVoltage node h) ++ s.mComponents.map (·.voltage h)).getD i 0)
  derivativeInside : ∀ w ∈ s.dstate_dt, Inside s.mNEQ w.1
  derivativeComplete : fault = none → ∀ i : Nat, (i : Int) < s.mNEQ.toInt →
    ∃ w ∈ s.dstate_dt, w.1 = Int32.ofNat i

theorem initializeState_spec (lib : NodeVoltages Real W) (s : DAESolver Real W) (h : Heap W)
    (interfaces : ∀ comp ∈ s.mComponents, comp.dae.isSome = true) :
    ∃ t h' fault, s.initializeState lib h = (t,h',fault) ∧ t.nodes = s.nodes ∧ t.mNEQ = s.mNEQ ∧
      t.mComponents = s.mComponents ∧ t.mNodes = s.mNodes ∧
      t.mResidualFunctions.map Prod.fst = s.mResidualFunctions.map Prod.fst ++ powered s.mComponents ∧
      ((fault = none ∧ (∀ comp ∈ s.mComponents, (comp.cast .real).isSome = true) ∧
        t.state = entries (s.nodes.map (fun node => 0 + lib.initialVoltage node h') ++
          s.mComponents.map (·.voltage h') ++ (List.range (s.mNEQ.toInt - 1).toNat).map fun _ => 0) ∧
        t.dstate_dt = derivatives s.mNEQ) ∨
      (fault ≠ none ∧ ¬ (∀ comp ∈ s.mComponents, (comp.cast .real).isSome = true) ∧
        t.state = entries (s.nodes.map (fun node => 0 + lib.initialVoltage node h') ++
          (powered s.mComponents).map (·.voltage h')) ∧
        t.dstate_dt = s.dstate_dt)) := by
  have first : Setup.Holds (s.nodes.map fun node => 0 + lib.initialVoltage node (s.initializeComponents h))
      (s.assignNodes lib (s.initializeComponents h)) := by
    have empty : Setup.Holds [] (⟨0,[],s.mResidualFunctions⟩ : Setup Real W) := ⟨rfl,rfl⟩
    exact empty.foldl _ s.nodes
  have untouched : (s.assignNodes lib (s.initializeComponents h)).mResidualFunctions = s.mResidualFunctions :=
    assign_residuals ..
  obtain ⟨holds,residuals,ended⟩ := registerComponents_spec (s.initializeComponents h) interfaces first
  rw [untouched] at residuals
  unfold initializeState
  dsimp only
  split
  · rename_i a fault ran
    rw [ran] at holds residuals ended
    refine ⟨_,_,_,rfl,rfl,rfl,rfl,rfl,residuals,.inr ⟨nofun,fun all => ?_,holds.sval,rfl⟩⟩
    exact nomatch ended.mpr all
  · rename_i a ran
    rw [ran] at holds residuals ended
    have all := ended.mp rfl
    have every : powered s.mComponents = s.mComponents := List.takeWhile_eq_self_iff.mpr all
    have zeros := holds.foldl (fun _ => 0) (List.range (s.mNEQ.toInt - 1).toNat)
    refine ⟨_,_,_,rfl,rfl,rfl,rfl,rfl,residuals,.inl ⟨rfl,all,?_,rfl⟩⟩
    rw [← every]
    exact zeros.sval

theorem construct_ok {lib : NodeVoltages Real W} {system : Topology Real W} {dt : Real} {h : Heap W}
    (constructed : construct lib system dt h = .ok (s,h',fault)) :
    (∀ comp ∈ system.mComponents, comp.dae.isSome = true) ∧ none ∉ system.pointers .real ∧
      ∃ numbered, (collected system dt).initializeState lib numbered = (s,h',fault) := by
  obtain ⟨s',collects,rest⟩ := bind_ok.mp constructed
  obtain ⟨numbered,numbers,result⟩ := bind_ok.mp rest
  rw [collect_eq] at collects
  split at collects
  · rename_i interfaces
    cases collects
    rw [numberNodes_eq] at numbers
    split at numbers
    · contradiction
    · rename_i fine
      exact ⟨interfaces,fine,numbered,Except.ok.inj result⟩
  · contradiction

def equations (system : Topology Real W) : Int32 :=
  Int32.ofNat (system.mComponents.length + 2 * system.mNodes.length)

def netNodes (system : Topology Real W) : List TopologicalNode := system.mNodes.filter (fun n => !n.isGround)

omit [Add Real] [Zero Real] in
theorem collected_nodes {system : Topology Real W} {dt : Real} (fine : none ∉ system.pointers .real) :
    (collected system dt).nodes.length = (netNodes system).length := by
  have same : ((system.pointers .real).reduceOption.map some).length = (system.pointers .real).length := by
    rw [← pointers_of_nodes fine]
  rw [List.length_map] at same
  rw [nodes,collected,same,Topology.pointers,List.length_map,netNodes]

/-- An `initialize` that returns assigns entries past the end, or leaves out the last derivative,
wherever there is anything to assign. -/
theorem filled_returned_iff (lib : NodeVoltages Real W) {s : DAESolver Real W} {h : Heap W} {values : List Real}
    (state : s.state = entries (values ++ (List.range (s.mNEQ.toInt - 1).toNat).map fun _ => 0))
    (derivative : s.dstate_dt = derivatives s.mNEQ) :
    Filled lib s h none ↔ values = [] ∧ s.mNEQ.toInt ≤ 0 := by
  constructor
  · intro filled
    have none : s.mNEQ.toInt ≤ 0 := by
      by_contra positive
      have last := filled.derivativeComplete rfl (s.mNEQ.toInt - 1).toNat (by omega)
      rw [derivative] at last
      exact derivatives_short (not_le.mp positive) last
    have inside := filled.inside
    rw [state,entries_inside,List.length_append] at inside
    exact ⟨List.length_eq_zero_iff.mp (by omega),none⟩
  · rintro ⟨rfl,none⟩
    have zeros : (s.mNEQ.toInt - 1).toNat = 0 := by omega
    rw [zeros] at state
    rw [derivatives,zeros] at derivative
    constructor
    · rw [state]
      exact fun w member => nomatch member
    · omega
    · rw [derivative]
      exact fun w member => nomatch member
    · omega

theorem filled_thrown_iff (lib : NodeVoltages Real W) {s : DAESolver Real W} {h : Heap W} {values : List Real}
    (thrown : fault ≠ none) (state : s.state = entries values) (derivative : s.dstate_dt = []) :
    Filled lib s h fault ↔ values.length ≤ s.mNEQ.toInt.toNat := by
  rw [← entries_inside,← state]
  constructor
  · intro filled
    exact filled.inside
  · intro inside
    refine ⟨inside,fun returned => absurd returned thrown,?_,fun returned => absurd returned thrown⟩
    rw [derivative]
    exact fun w member => nomatch member

/-- `initialize` fills the vectors as it should if it throws before it has assigned more entries
than they have, and otherwise only where there is nothing to assign. -/
theorem state_filled_iff (lib : NodeVoltages Real W) (system : Topology Real W) (dt : Real) (h : Heap W)
    (constructed : construct lib system dt h = .ok (s,h',fault)) :
    Filled lib s h' fault ↔
      (¬ (∀ comp ∈ system.mComponents, (comp.cast .real).isSome = true) ∧
        (netNodes system).length + (powered system.mComponents).length ≤ (equations system).toInt.toNat) ∨
      (netNodes system = [] ∧ system.mComponents = [] ∧ (equations system).toInt ≤ 0) := by
  obtain ⟨interfaces,fine,numbered,initialized⟩ := construct_ok constructed
  have count : (collected system dt).nodes.length = (netNodes system).length := collected_nodes fine
  obtain ⟨t,h₁,fault₁,ran,nodes,neq,comps,_,_,outcome⟩ :=
    initializeState_spec lib (collected system dt) numbered interfaces
  obtain ⟨rfl,rfl,rfl⟩ : s = t ∧ h' = h₁ ∧ fault = fault₁ := by
    rw [initialized] at ran
    cases ran
    exact ⟨rfl,rfl,rfl⟩
  have same : s.mNEQ = equations system := neq
  rcases outcome with ⟨rfl,all,state,derivative⟩ | ⟨thrown,some,state,derivative⟩
  · rw [or_iff_right fun both => both.1 all,← same]
    rw [← neq] at state derivative
    rw [filled_returned_iff lib state derivative,← List.length_eq_zero_iff,List.length_append,
      List.length_map,List.length_map,count,Nat.add_eq_zero_iff,List.length_eq_zero_iff,and_assoc]
    exact and_congr_right fun _ => and_congr_left fun _ => List.length_eq_zero_iff
  · have bare : ¬ (netNodes system = [] ∧ system.mComponents = [] ∧ (equations system).toInt ≤ 0) := by
      rintro ⟨_,alone,_⟩
      refine some fun comp member => ?_
      have none : (collected system dt).mComponents = [] := alone
      rw [none] at member
      contradiction
    rw [or_iff_left bare,filled_thrown_iff lib thrown state derivative,List.length_append,List.length_map,
      List.length_map,count,same]
    exact ⟨fun fits => ⟨some,fits⟩,And.right⟩

def unitVoltages : NodeVoltages Int Unit := ⟨fun _ _ => 1,fun _ _ => 1⟩

def noHeap : Heap Unit := ⟨fun _ _ => 0,fun _ _ => none,0,()⟩

def resistor (power : VarType) : TopologyComponent Int Unit where
  mnaSwitch := none
  mna := none
  signal := none
  setBehaviour := fun _ h => h
  power := some (power,⟨false,0,fun _ h => h⟩)
  voltage := fun _ => 5
  dae := some ⟨fun _ _ _ r => r⟩
  same := nofun

def smallGrid : Topology Int Unit :=
  ⟨[⟨⟨.system 0,.Single⟩,true,.real⟩,⟨⟨.system 1,.Single⟩,false,.real⟩],[resistor .real],50,314⟩

/-- The same with a second component, of the other domain: `initialize` throws when it comes to it. -/
def twoDomainGrid : Topology Int Unit :=
  { smallGrid with mComponents := [resistor .real,resistor .complex] }

/-- The throwing `initialize` stays within its vector; without the second component it does not. -/
theorem state_filled_iff_grids :
    (∃ s h' fault, construct unitVoltages twoDomainGrid 1 noHeap = .ok (s,h',some fault) ∧
        s.mNEQ = 6 ∧ s.state = [(0,1),(1,5)] ∧ Filled unitVoltages s h' (some fault)) ∧
      ∃ s h', construct unitVoltages smallGrid 1 noHeap = .ok (s,h',none) ∧
        ¬ Filled unitVoltages s h' none := by
  constructor
  · refine ⟨_,_,_,rfl,rfl,rfl,(state_filled_iff unitVoltages twoDomainGrid 1 noHeap rfl).mpr (.inl ⟨?_,?_⟩)⟩
    · decide
    · decide
  · refine ⟨_,_,rfl,fun filled => ?_⟩
    rcases (state_filled_iff unitVoltages smallGrid 1 noHeap rfl).mp filled with ⟨thrown,_⟩ | ⟨bare,_⟩
    · exact thrown (by decide)
    · exact absurd bare (by decide)

/-- Of five entries of the state vector six are assigned, and of the derivative four. -/
theorem small_grid_overrun : ∃ s h', construct unitVoltages smallGrid 1 noHeap = .ok (s,h',none) ∧
    s.mNEQ = 5 ∧ s.state = [(0,1),(1,5),(2,0),(3,0),(4,0),(5,0)] ∧
    s.dstate_dt = [(0,0),(1,0),(2,0),(3,0)] ∧ ¬ Filled unitVoltages s h' none := by
  refine ⟨_,_,rfl,rfl,rfl,rfl,fun filled => ?_⟩
  have inside := filled.inside (5,0) (by decide)
  exact absurd inside.2 (by decide)

end DPsim.DAESolver
