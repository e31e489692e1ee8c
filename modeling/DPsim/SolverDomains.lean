import DPsim.DAEState
import DPsim.MNAInitialization

/-! What the solvers that `Simulation` constructs do with topologies whose nodes and components
are not all of one domain. -/
namespace DPsim

inductive SolverType where
  | MNA
  | DAE
  deriving DecidableEq, Repr

inductive SolverClass where
  | mna (V : VarType)
  | dae
  deriving DecidableEq, Repr

/-- The switch in the constructor of `Simulation`. -/
def solverClass (solverType : SolverType) (domain : Domain) : SolverClass :=
  match solverType with
  | .MNA => if domain = .DP then .mna .complex else .mna .real
  | .DAE => .dae

variable {Real W : Type}

def NodesOf (V : VarType) (t : Topology Real W) : Prop := ∀ n ∈ t.mNodes, n.isGround = false → n.varType = V

theorem nodesOf_iff {V : VarType} {t : Topology Real W} : NodesOf V t ↔ none ∉ t.pointers V := by
  simp only [NodesOf,Topology.pointers,List.mem_map,List.mem_filter,TopologicalNode.cast,not_exists,not_and]
  constructor
  · rintro all n ⟨member,net⟩
    rw [if_pos (all n member (by simpa using net))]
    exact Option.some_ne_none _
  · intro fine n member net
    by_contra other
    exact fine n ⟨member,by simp [net]⟩ (if_neg other)

namespace MnaSolver

/-- The solver stamps or steps the component. Signal components are stepped only. -/
def Uses {V : VarType} (signals : Bool) (s : MnaSolver V Real W) (comp : TopologyComponent Real W) : Prop :=
  (∃ c ∈ s.mPowerComponents, comp.mna = some c) ∨ (∃ c ∈ s.mSwitches, comp.mnaSwitch = some c) ∨
    (signals = true ∧ ∃ c ∈ s.mSignalComponents, comp.signal = some c)

theorem listed_iff {γ : Type} {cast : Component Real W → Option γ} {collected : List γ}
    {comps : List (Component Real W)} (all : ∀ c, c ∈ collected ↔ c ∈ comps.filterMap cast)
    {comp : Component Real W} (member : comp ∈ comps) :
    (∃ c ∈ collected, cast comp = some c) ↔ (cast comp).isSome = true := by
  rw [Option.isSome_iff_exists]
  constructor
  · rintro ⟨c,_,found⟩
    exact ⟨c,found⟩
  · rintro ⟨c,found⟩
    exact ⟨c,(all c).mpr (List.mem_filterMap.mpr ⟨comp,member,found⟩),found⟩

/-- The pointers of `mNodes` are not null, and if the solver comes to the first stamp then it has
collected power components of its variable type only. -/
structure Uniform {V : VarType} [Field Real] (lib : Library Real W) (signals : Bool) (t : Topology Real W)
    (s : MnaSolver V Real W) (h : Heap W) : Prop where
  nodes : none ∉ t.pointers V
  components : ∀ s' h', s.prepare lib h = .ok (s', h') →
    ∀ comp ∈ t.mComponents, Uses signals s' comp → (comp.cast V).isSome = true

variable {V : VarType}

theorem identify_error {s : MnaSolver V Real W} {fault : Fault}
    (failed : s.identifyTopologyObjects = .error fault) : fault = .nullPointer := by
  have casts (ns : List TopologicalNode) : ns.mapM (·.dereference V) = .error fault → fault = .nullPointer := by
    induction ns with
    | nil => exact nofun
    | cons n ns ih =>
      intro failed
      rw [List.mapM_cons] at failed
      rcases bind_error.mp failed with now | ⟨_,_,later⟩
      · unfold TopologicalNode.dereference at now
        split at now
        · contradiction
        · exact (Except.error.inj now).symm
      · rcases bind_error.mp later with rest | ⟨_,_,result⟩
        · exact ih rest
        · contradiction
  rcases bind_error.mp failed with now | ⟨_,_,result⟩
  · exact casts _ now
  · contradiction

theorem createVirtualNodes_succeeds (lib : Library Real W) (s : MnaSolver V Real W) (h : Heap W) :
    ∃ s' h', s.createVirtualNodes lib h = .ok (s',h') := by
  have one (component : Nat) (v : VirtualNodes W) (position : Nat)
      (counter : v.virtualNode + 1 = UInt32.ofNat v.nodes.length) :
      ∃ v', createVirtualNode lib component v position = .ok v' ∧
        v'.virtualNode + 1 = UInt32.ofNat v'.nodes.length := by
    have inside : (UInt32.ofNat v.nodes.length).toNat < v.nodes.length + 1 := by
      rw [UInt32.toNat_ofNat']
      exact Nat.lt_succ_of_le (Nat.mod_le ..)
    unfold createVirtualNode
    dsimp only
    rw [counter,List.getElem?_eq_getElem (by simpa using inside)]
    exact ⟨_,rfl,by simp [UInt32.ofNat_add]⟩
  obtain ⟨v,ran,_⟩ := foldlM_keeps s.mPowerComponents
    (fun comp _ v counter => foldlM_keeps (List.range (virtualCount V comp))
      (fun position _ v => one comp.address v position) counter)
    (b := ⟨UInt32.ofNat s.mNodes.length - 1,s.mNodes,h⟩) (by simp)
  exact ⟨_,_,bind_ok.mpr ⟨v,ran,rfl⟩⟩

variable [Field Real]

/-- The exception of the test in front of everything else is thrown nowhere else. -/
theorem prepare_rejects {lib : Library Real W} {s : MnaSolver V Real W} {h : Heap W} :
    s.prepare lib h = .error .solverException ↔ s.mSystem.mComponents = [] := by
  unfold prepare
  split
  · rename_i none
    exact iff_of_true rfl (List.length_eq_zero_iff.mp none)
  · rename_i some
    apply iff_of_false
    · intro failed
      rcases bind_error.mp failed with now | ⟨found,_,rest⟩
      · exact nomatch identify_error now
      obtain ⟨t,g,created⟩ := createVirtualNodes_succeeds lib found h
      rcases bind_error.mp rest with now | ⟨_,_,rest⟩
      · exact nomatch now.symm.trans created
      rcases bind_error.mp rest with now | ⟨_,_,result⟩
      · unfold createEmptySystemMatrix at now
        split at now <;> cases now
      · contradiction
    · exact fun none => some (List.length_eq_zero_iff.mpr none)

section Prepared
variable {lib : Library Real W} {timeStep : Real} {domain : Domain} {steadyStateInit : Bool}
  {system : SystemTopology Real W} {h : Heap W}

/-- The preparation comes to its end if there is a component, the nodes are of the variable type of
the solver and there are not too many switches. -/
theorem prepare_succeeds (some : system.mComponents ≠ [])
    (typed : ∀ n ∈ system.mNodes, n.isGround = false → n.varType = V)
    (few : (system.mComponents.filterMap (·.mnaSwitch)).length ≤ SWITCH_NUM) :
    ∃ s h', (make timeStep domain steadyStateInit system : MnaSolver V Real W).prepare lib h = .ok (s,h') := by
  obtain ⟨identified,found⟩ : ∃ t, (make timeStep domain steadyStateInit system :
      MnaSolver V Real W).identifyTopologyObjects = .ok t :=
    ⟨_,identify_ok.mpr ⟨fun n member => typed n (List.mem_of_mem_filter member)
      (by simpa using (List.mem_filter.mp member).2),rfl⟩⟩
  obtain ⟨t,g,created⟩ := createVirtualNodes_succeeds lib identified h
  have switches : t.mSwitches = system.mComponents.filterMap (·.mnaSwitch) := by
    obtain ⟨_,rfl⟩ := identify_ok.mp found
    obtain ⟨v,_,result⟩ := bind_ok.mp created
    cases result
    rfl
  unfold prepare
  split
  · rename_i none
    exact absurd (List.length_eq_zero_iff.mp none) some
  · have emptied := createEmptySystemMatrix_ok
      (s := (t.assignSimNodes g).1.sortExecutionPriority.createEmptyVectors).mpr ⟨switches ▸ few,rfl⟩
    exact ⟨_,_,bind_ok.mpr ⟨_,found,bind_ok.mpr ⟨_,created,bind_ok.mpr ⟨_,emptied,rfl⟩⟩⟩⟩

end Prepared

def used (signals : Bool) (comp : TopologyComponent Real W) : Bool :=
  comp.mna.isSome || comp.mnaSwitch.isSome || signals && comp.signal.isSome

theorem uses_iff {lib : Library Real W} {timeStep : Real} {domain : Domain} {steadyStateInit signals : Bool}
    {t : Topology Real W} {s : MnaSolver V Real W} {h h' : Heap W}
    (prepared : (make timeStep domain steadyStateInit t.system : MnaSolver V Real W).prepare lib h = .ok (s,h'))
    {comp : TopologyComponent Real W} (member : comp ∈ t.mComponents) :
    Uses signals s comp ↔ used signals comp = true := by
  have network := (prepare_ok prepared).toNetwork
  have among : comp.toComponent ∈ t.system.mComponents := List.mem_map_of_mem member
  have powers : (∃ c ∈ s.mPowerComponents, comp.mna = some c) ↔ comp.mna.isSome = true :=
    listed_iff (fun c => by rw [network.powerComponents]) among
  have switches : (∃ c ∈ s.mSwitches, comp.mnaSwitch = some c) ↔ comp.mnaSwitch.isSome = true :=
    listed_iff (fun c => by rw [network.switches]) among
  have controllers : (∃ c ∈ s.mSignalComponents, comp.signal = some c) ↔ comp.signal.isSome = true :=
    listed_iff (fun c => (prepare_kept prepared).2.mem_iff) among
  simp only [Uses,used,powers,switches,controllers,Bool.or_eq_true,Bool.and_eq_true,or_assoc]

theorem uniform_iff (lib : Library Real W) (signals : Bool) {t : Topology Real W} (some : t.mComponents ≠ [])
    (timeStep : Real) (domain : Domain) (steadyStateInit : Bool) (h : Heap W) :
    Uniform lib signals t (make timeStep domain steadyStateInit t.system : MnaSolver V Real W) h ↔
      NodesOf V t ∧ (SWITCH_NUM < (t.mComponents.filterMap (·.mnaSwitch)).length ∨
        ∀ comp ∈ t.mComponents, used signals comp = true → (comp.cast V).isSome = true) := by
  have switches : (t.system.mComponents.filterMap (·.mnaSwitch)).length =
      (t.mComponents.filterMap (·.mnaSwitch)).length := by
    rw [Topology.system,List.filterMap_map]
    rfl
  constructor
  · rintro ⟨nodes,components⟩
    have typed := nodesOf_iff.mpr nodes
    refine ⟨typed,or_iff_not_imp_left.mpr fun few comp member uses => ?_⟩
    have present : t.system.mComponents ≠ [] := by simpa [Topology.system] using some
    obtain ⟨s,h',prepared⟩ : ∃ s h', (make timeStep domain steadyStateInit t.system :
        MnaSolver V Real W).prepare lib h = .ok (s,h') :=
      prepare_succeeds present typed (switches.le.trans (not_lt.mp few))
    exact components s h' prepared comp member ((uses_iff prepared member).mpr uses)
  · rintro ⟨typed,fits⟩
    refine ⟨nodesOf_iff.mp typed,fun s h' prepared comp member uses => ?_⟩
    have network := (prepare_ok prepared).toNetwork
    rcases fits with many | all
    · have few := network.few
      rw [network.switches,switches] at few
      omega
    · exact all comp member ((uses_iff prepared member).mp uses)

end MnaSolver

variable [Field Real]

/-- The construction throws before it uses a node or a component, or the solver has nodes and uses
components of its own type only. -/
def DomainChecked (lib : Library Real W) (voltages : NodeVoltages Real W) (signals : Bool) (t : Topology Real W)
    (timeStep : Real) (domain : Domain) (steadyStateInit : Bool) (h : Heap W) : SolverClass → Prop
  | .mna V =>
    (MnaSolver.make timeStep domain steadyStateInit t.system : MnaSolver V Real W).prepare lib h =
      .error .solverException ∨
    MnaSolver.Uniform lib signals t (MnaSolver.make timeStep domain steadyStateInit t.system :
      MnaSolver V Real W) h
  | .dae =>
    DAESolver.collect t timeStep = .error DAESolver.exception ∨
    ∃ s h' fault, DAESolver.construct voltages t timeStep h = .ok (s,h',fault) ∧ none ∉ s.mNodes ∧
      ∀ r ∈ s.mResidualFunctions, (r.1.cast .real).isSome = true

def DomainFits (signals : Bool) (t : Topology Real W) : SolverClass → Prop
  | .mna V => t.mComponents = [] ∨ (NodesOf V t ∧
      (SWITCH_NUM < (t.mComponents.filterMap (·.mnaSwitch)).length ∨
        ∀ comp ∈ t.mComponents, MnaSolver.used signals comp = true → (comp.cast V).isSome = true))
  | .dae => (∃ comp ∈ t.mComponents, comp.dae.isSome = false) ∨ NodesOf .real t

theorem dae_checked_iff (voltages : NodeVoltages Real W) (t : Topology Real W) (timeStep : Real) (h : Heap W) :
    (DAESolver.collect t timeStep = .error DAESolver.exception ∨
      ∃ s h' fault, DAESolver.construct voltages t timeStep h = .ok (s,h',fault) ∧ none ∉ s.mNodes ∧
        ∀ r ∈ s.mResidualFunctions, (r.1.cast .real).isSome = true) ↔
    (∃ comp ∈ t.mComponents, comp.dae.isSome = false) ∨ NodesOf .real t := by
  rw [nodesOf_iff]
  constructor
  · rintro (thrown | ⟨s,h',fault,constructed,_,_⟩)
    · rw [DAESolver.collect_eq] at thrown
      split at thrown
      · contradiction
      · rename_i some
        simpa using Or.inl (by simpa using some)
    · exact .inr (DAESolver.construct_ok constructed).2.1
  · intro fits
    by_cases interfaces : ∀ comp ∈ t.mComponents, comp.dae.isSome = true
    · rcases fits with ⟨comp,member,missing⟩ | fine
      · rw [interfaces comp member] at missing
        contradiction
      obtain ⟨s,h',fault,ran,_,_,_,pointers,residuals,_⟩ :=
        DAESolver.initializeState_spec voltages (DAESolver.collected t timeStep)
          ((t.pointers .real).reduceOption.foldl DAESolver.numberNode ⟨-1,h⟩).heap interfaces
      refine .inr ⟨s,h',fault,?_,?_,?_⟩
      · rw [DAESolver.construct,DAESolver.collect_eq,if_pos interfaces]
        refine bind_ok.mpr ⟨_,rfl,bind_ok.mpr ⟨_,?_,congrArg Except.ok ran⟩⟩
        rw [DAESolver.numberNodes_eq]
        exact if_neg fine
      · rw [pointers]
        exact fine
      · intro r member
        have among : r.1 ∈ t.mComponents.takeWhile fun comp => (comp.cast .real).isSome := by
          have listed := List.mem_map_of_mem (f := Prod.fst) member
          rwa [residuals] at listed
        simpa using List.mem_takeWhile_imp among
    · left
      rw [DAESolver.collect_eq,if_neg interfaces]

/-- A topology of the wrong domain is rejected, or does no harm, exactly if it has no component at
all (MNA) or one without the interface of the solver (DAE), or if there was nothing to reject. -/
theorem domain_checked_iff (lib : Library Real W) (voltages : NodeVoltages Real W) (signals : Bool)
    (t : Topology Real W) (timeStep : Real) (domain : Domain) (steadyStateInit : Bool) (h : Heap W)
    (solverType : SolverType) :
    DomainChecked lib voltages signals t timeStep domain steadyStateInit h (solverClass solverType domain) ↔
      DomainFits signals t (solverClass solverType domain) := by
  cases solverClass solverType domain with
  | dae => exact dae_checked_iff voltages t timeStep h
  | mna V =>
    rw [DomainChecked,DomainFits,MnaSolver.prepare_rejects]
    by_cases none : t.mComponents = []
    · exact iff_of_true (.inl (by simp [MnaSolver.make,Topology.system,none])) (.inl none)
    · rw [or_iff_right none,or_iff_right (by simpa [MnaSolver.make,Topology.system] using none)]
      exact MnaSolver.uniform_iff lib signals none timeStep domain steadyStateInit h

def realGrid : Topology ℚ Unit where
  mNodes := [⟨⟨.system 0,.Single⟩,false,.real⟩]
  mComponents := [{
    mnaSwitch := none
    mna := some { MnaSolver.virtualSource 0 0 with power := some (.real,⟨false,0,fun _ h => h⟩) }
    signal := none
    setBehaviour := fun _ h => h
    power := some (.real,⟨false,0,fun _ h => h⟩)
    voltage := fun _ => 0
    dae := none
    same := by simp }]
  mSystemFrequency := 50
  mSystemOmega := 314

/-- In the domain DP the null pointer is dereferenced. -/
theorem real_grid_in_DP :
    (MnaSolver.make 1 .DP false realGrid.system : MnaSolver .complex ℚ Unit).prepare MnaSolver.singlePhase
      MnaSolver.noNodes = .error .nullPointer ∧
    ¬ DomainChecked MnaSolver.singlePhase ⟨fun _ _ => 0,fun _ _ => 0⟩ false realGrid 1 .DP false
      MnaSolver.noNodes (solverClass .MNA .DP) := by
  have failed : (MnaSolver.make 1 .DP false realGrid.system : MnaSolver .complex ℚ Unit).prepare
      MnaSolver.singlePhase MnaSolver.noNodes = .error .nullPointer := rfl
  refine ⟨failed,fun checked => ?_⟩
  rcases checked with rejected | uniform
  · exact nomatch failed.symm.trans rejected
  · exact uniform.nodes (by decide)

end DPsim
