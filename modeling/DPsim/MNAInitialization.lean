import DPsim.MNAIndices
import Mathlib.Data.List.Perm.Basic

/-! What the parts of `initialize` leave behind: the switch status, the map of empty matrices,
the map of factorizations, and the frame of the steady-state simulation. -/
namespace DPsim

theorem SwitchStatus.set_getLsbD (status : SwitchStatus) (value : Bool) (small : i < 32) (j : Nat) :
    (SwitchStatus.set status i value).getLsbD j = if j = i then value else status.getLsbD j := by
  by_cases same : j = i
  · subst same
    cases value <;> simp [SwitchStatus.set,small]
  · have other : (1#32 <<< i).getLsbD j = false := by
      rw [← BitVec.twoPow_eq,BitVec.getLsbD_twoPow]
      simp [Ne.symm same]
    by_cases bound : j < 32
    · cases value
      · simp only [SwitchStatus.set,Bool.false_eq_true,if_false,BitVec.getLsbD_and,BitVec.getLsbD_not,other]
        simp [same,bound]
      · simp only [SwitchStatus.set,if_true,BitVec.getLsbD_or,other]
        simp [same]
    · have outside (x : SwitchStatus) : x.getLsbD j = false := BitVec.getLsbD_of_ge x j (by omega)
      simp [outside,same]

namespace MnaSolver

variable {V : VarType} {Real W : Type}

theorem set_switches (h : Heap W) (switches : List (MNASwitchInterface Real W)) (status : SwitchStatus)
    (k : Nat) (few : k + switches.length ≤ 32) (j : Nat) :
    ((switches.zipIdx k).foldl (fun status (sw, i) => SwitchStatus.set status i (sw.mnaIsClosed h))
        status).getLsbD j =
      if k ≤ j then ((switches[j - k]?).map (·.mnaIsClosed h)).getD (status.getLsbD j)
      else status.getLsbD j := by
  induction switches generalizing status k with
  | nil => simp
  | cons sw switches ih =>
    simp only [List.length_cons] at few
    rw [List.zipIdx_cons,List.foldl_cons,ih _ (k + 1) (by omega),
      SwitchStatus.set_getLsbD _ _ (by omega)]
    rcases Nat.lt_trichotomy j k with before | rfl | after
    · simp [show ¬ k + 1 ≤ j by omega,show ¬ k ≤ j by omega,show j ≠ k by omega]
    · simp
    · rw [show j - k = (j - (k + 1)) + 1 by omega]
      simp [show k + 1 ≤ j by omega,show k ≤ j by omega,show j ≠ k by omega]

/-- Bit `i` of the status is the position of switch `i`; the other bits stay. -/
theorem updateSwitchStatus_bit (s : MnaSolver V Real W) (h : Heap W) (few : s.mSwitches.length ≤ 32)
    (j : Nat) : (s.updateSwitchStatus h).mCurrentSwitchStatus.getLsbD j =
      ((s.mSwitches[j]?).map (·.mnaIsClosed h)).getD (s.mCurrentSwitchStatus.getLsbD j) := by
  simpa [updateSwitchStatus] using set_switches h s.mSwitches s.mCurrentSwitchStatus 0 (by omega) j

def HighBitsZero (n : Nat) (status : SwitchStatus) : Prop := ∀ i, n ≤ i → status.getLsbD i = false

theorem updateSwitchStatus_high {s : MnaSolver V Real W} (h : Heap W) (few : s.mSwitches.length ≤ 32)
    (high : HighBitsZero s.mSwitches.length s.mCurrentSwitchStatus) :
    HighBitsZero s.mSwitches.length (s.updateSwitchStatus h).mCurrentSwitchStatus := by
  intro i beyond
  rw [updateSwitchStatus_bit s h few,List.getElem?_eq_none beyond]
  exact high i beyond

/-- The keys with high bits zero are the numbers below a power of two. -/
theorem highBitsZero_iff (n : Nat) (status : SwitchStatus) :
    HighBitsZero n status ↔ status.toNat < 2 ^ n := by
  constructor
  · intro high
    exact Nat.lt_pow_two_of_testBit _ fun i beyond => high i beyond
  · intro small i beyond
    exact Nat.testBit_lt_two_pow (small.trans_le (Nat.pow_le_pow_right (by omega) beyond))

/-- The map after its keys `0..n-1` have been assigned one value. -/
theorem insert_range (n : Nat) (few : n ≤ 2 ^ 32) (x : α) (maps : AList (fun _ : SwitchStatus => α))
    (key : SwitchStatus) :
    ((List.range n).foldl (fun maps i => maps.insert (BitVec.ofNat 32 i) x) maps).lookup key =
      if key.toNat < n then some x else maps.lookup key := by
  induction n with
  | zero => simp
  | succ n ih =>
    rw [List.range_succ,List.foldl_append,List.foldl_cons,List.foldl_nil]
    have value : (BitVec.ofNat 32 n).toNat = n := by
      rw [BitVec.toNat_ofNat]
      exact Nat.mod_eq_of_lt (by omega)
    by_cases same : key = BitVec.ofNat 32 n
    · rw [same,AList.lookup_insert,value,if_pos (Nat.lt_succ_self n)]
    · have other : key.toNat ≠ n := fun equal => same (BitVec.eq_of_toNat_eq (by rw [equal,value]))
      rw [AList.lookup_insert_ne same,ih (by omega)]
      by_cases below : key.toNat < n
      · rw [if_pos below,if_pos (by omega)]
      · rw [if_neg below,if_neg (by omega)]

theorem createEmptySystemMatrix_ok [Field Real] {s t : MnaSolver V Real W} : s.createEmptySystemMatrix = .ok t ↔
    s.mSwitches.length ≤ SWITCH_NUM ∧ t = { s with
      mTmpSystemMatrix := .Zero s.size s.size
      mSwitchedMatrices := (List.range (s.mSwitches.length * 2)).foldl
        (fun matrices i => matrices.insert (BitVec.ofNat 32 i) (.Zero s.size s.size))
        s.mSwitchedMatrices } := by
  unfold createEmptySystemMatrix
  by_cases many : s.mSwitches.length > SWITCH_NUM
  · simp [many]
  · simp [many,Nat.le_of_not_gt many,eq_comm]

theorem factorize_entries {s : MnaSolver V Real W} {h : Heap W}
    (entries : List ((_ : SwitchStatus) × Matrix Real))
    {maps maps' : AList (fun _ : SwitchStatus => Matrix Real) × AList (fun _ : SwitchStatus => PartialPivLU Real)}
    (distinct : (entries.map Sigma.fst).Nodup)
    (ran : entries.foldlM (s.factorizeSwitch h) maps = .ok maps') (key : SwitchStatus) :
    (∀ m, ⟨key,m⟩ ∈ entries → maps'.1.lookup key = some (s.stampSwitched h key m) ∧
      ∃ lu, PartialPivLU.compute (s.stampSwitched h key m) = .ok lu ∧ maps'.2.lookup key = some lu) ∧
    (key ∉ entries.map Sigma.fst →
      maps'.1.lookup key = maps.1.lookup key ∧ maps'.2.lookup key = maps.2.lookup key) := by
  induction entries generalizing maps with
  | nil =>
    cases ran
    exact ⟨by simp,fun _ => ⟨rfl,rfl⟩⟩
  | cons entry entries ih =>
    obtain ⟨first,stored,rest⟩ := bind_ok.mp ((List.foldlM_cons ..).symm.trans ran)
    obtain ⟨lu,computed,result⟩ := bind_ok.mp stored
    cases result
    rw [List.map_cons,List.nodup_cons] at distinct
    obtain ⟨inside,outside⟩ := ih distinct.2 rest
    constructor
    · intro m member
      rcases List.mem_cons.mp member with rfl | later
      · obtain ⟨matrices,factorizations⟩ := outside distinct.1
        exact ⟨by rw [matrices,AList.lookup_insert],lu,computed,by rw [factorizations,AList.lookup_insert]⟩
      · exact inside m later
    · intro absent
      rw [List.map_cons,List.mem_cons,not_or] at absent
      obtain ⟨matrices,factorizations⟩ := outside absent.2
      rw [matrices,factorizations,AList.lookup_insert_ne absent.1,AList.lookup_insert_ne absent.1]
      exact ⟨rfl,rfl⟩

theorem factorizeSwitched_ok {s t : MnaSolver V Real W} {h : Heap W}
    (ran : s.factorizeSwitched h = .ok t) : ∃ matrices factorizations,
    t = { s with mSwitchedMatrices := matrices, mLuFactorizations := factorizations } ∧
    ∀ key, (∀ m, s.mSwitchedMatrices.lookup key = some m →
        matrices.lookup key = some (s.stampSwitched h key m) ∧
        ∃ lu, PartialPivLU.compute (s.stampSwitched h key m) = .ok lu ∧
          factorizations.lookup key = some lu) ∧
      (s.mSwitchedMatrices.lookup key = none →
        matrices.lookup key = none ∧ factorizations.lookup key = s.mLuFactorizations.lookup key) := by
  obtain ⟨maps,folded,result⟩ := bind_ok.mp ran
  cases result
  refine ⟨_,_,rfl,fun key => ?_⟩
  obtain ⟨inside,outside⟩ := factorize_entries s.mSwitchedMatrices.entries
    s.mSwitchedMatrices.nodupKeys folded key
  constructor
  · intro m found
    exact inside m (AList.mem_lookup_iff.mp found)
  · intro missing
    obtain ⟨matrices,factorizations⟩ := outside (AList.lookup_eq_none.mp missing)
    exact ⟨matrices.trans missing,factorizations⟩

section Counts
variable {lib : Library Real W}

/-- The pushed nodes have the phase type of a node that is made from an index alone. -/
theorem component_phases (component : Nat) (positions : List Nat) {v v' : VirtualNodes W}
    (ran : positions.foldlM (createVirtualNode lib component) v = .ok v') :
    v'.nodes.map (·.phaseType) =
      v.nodes.map (·.phaseType) ++ List.replicate positions.length lib.defaultPhase := by
  induction positions generalizing v with
  | nil =>
    cases ran
    simp
  | cons position positions ih =>
    obtain ⟨first,created,rest⟩ := bind_ok.mp ((List.foldlM_cons ..).symm.trans ran)
    rw [ih rest,(createVirtualNode_pushes created).1]
    simp [List.replicate_succ]

theorem components_phases (comps : List (MNAInterface Real W)) {v v' : VirtualNodes W}
    (ran : comps.foldlM (fun v comp =>
      (List.range (virtualCount V comp)).foldlM (createVirtualNode lib comp.address) v) v = .ok v') :
    v'.nodes.map (·.phaseType) =
      v.nodes.map (·.phaseType) ++ List.replicate (virtualSum V comps) lib.defaultPhase := by
  induction comps generalizing v with
  | nil =>
    cases ran
    simp [virtualSum]
  | cons comp comps ih =>
    obtain ⟨first,created,rest⟩ := bind_ok.mp ((List.foldlM_cons ..).symm.trans ran)
    have sum : virtualSum V (comp :: comps) = virtualCount V comp + virtualSum V comps := by
      simp [virtualSum]
    rw [ih rest,component_phases _ _ created,sum,List.length_range,List.append_assoc,
      List.replicate_append_replicate]

theorem assign_total (threshold : UInt32) (nodes : List Node) (a : SimNodes W) :
    (nodes.foldl (assignSimNode threshold) a).simNodeIdx =
      a.simNodeIdx + UInt32.ofNat (nodes.map stride).sum := by
  induction nodes generalizing a with
  | nil => simp
  | cons node nodes ih =>
    have next : (assignSimNode threshold a node).simNodeIdx = a.simNodeIdx + UInt32.ofNat (stride node) := by
      by_cases three : node.phaseType = .ABC
      · simp only [assignSimNode,stride,three,if_true,UInt32.add_assoc]
        rfl
      · simp only [assignSimNode,stride,three,if_false]
        rfl
    rw [List.foldl_cons,ih,next,List.map_cons,List.sum_cons,UInt32.ofNat_add,UInt32.add_assoc]

def nodeCount (V : VarType) (system : SystemTopology Real W) : Nat :=
  (networkNodes system).length + virtualSum V (system.mComponents.filterMap (·.mna))

theorem strides_of_phases {nodes net : List Node} {count : Nat}
    (phases : nodes.map (·.phaseType) = net.map (·.phaseType) ++ List.replicate count lib.defaultPhase) :
    (nodes.map stride).sum =
      (net.map stride).sum + count * (if lib.defaultPhase = .ABC then 3 else 1) := by
  have split (ns : List Node) : ns.map stride =
      (ns.map (·.phaseType)).map (fun phase => if phase = .ABC then 3 else 1) := by
    simp [stride,Function.comp_def]
  rw [split,split,phases]
  simp

end Counts

/-- What `prepare` determines and `initialize` does not change until the switched matrices are
stamped. -/
structure Network [Field Real] (lib : Library Real W) (domain : Domain) (steadyStateInit : Bool)
    (system : SystemTopology Real W) (s : MnaSolver V Real W) : Prop where
  domain : s.mDomain = domain
  steady : s.mSteadyStateInit = steadyStateInit
  powerComponents : s.mPowerComponents = system.mComponents.filterMap (·.mna)
  switches : s.mSwitches = system.mComponents.filterMap (·.mnaSwitch)
  few : s.mSwitches.length ≤ SWITCH_NUM
  status : s.mCurrentSwitchStatus = 0
  numNodes : s.mNumNodes = UInt32.ofNat (nodeCount V system)
  numSimNodes : s.mNumSimNodes = UInt32.ofNat (rowCount lib V system)
  switched : ∀ key, s.mSwitchedMatrices.lookup key =
    if key.toNat < s.mSwitches.length * 2 then some (.Zero s.size s.size) else none
  factorizations : s.mLuFactorizations = ∅

structure Prepared [Field Real] (lib : Library Real W) (domain : Domain) (steadyStateInit : Bool)
    (system : SystemTopology Real W) (s : MnaSolver V Real W) : Prop
    extends Network lib domain steadyStateInit system s where
  matrix : s.mTmpSystemMatrix = .Zero s.size s.size
  right : s.mRightSideVector = .Zero s.size 1
  left : s.mLeftSideVector = .Zero s.size 1

theorem prepare_ok [Field Real] {lib : Library Real W} {timeStep : Real} {domain : Domain}
    {steadyStateInit : Bool} {system : SystemTopology Real W} {s : MnaSolver V Real W} {h h' : Heap W}
    (prepared : (make timeStep domain steadyStateInit system : MnaSolver V Real W).prepare lib h =
      .ok (s, h')) : Prepared lib domain steadyStateInit system s := by
  unfold prepare at prepared
  split at prepared
  · contradiction
  obtain ⟨identified,found,prepared⟩ := bind_ok.mp prepared
  obtain ⟨⟨numbered,_⟩,created,prepared⟩ := bind_ok.mp prepared
  obtain ⟨t,emptied,result⟩ := bind_ok.mp prepared
  cases result
  obtain ⟨_,rfl⟩ := identify_ok.mp found
  obtain ⟨v,looped,result⟩ := bind_ok.mp created
  cases result
  obtain ⟨few,rfl⟩ := createEmptySystemMatrix_ok.mp emptied
  have phases : v.nodes.map (·.phaseType) = (networkNodes system).map (·.phaseType) ++
      List.replicate (virtualSum V (system.mComponents.filterMap (·.mna))) lib.defaultPhase :=
    components_phases _ looped
  have lengths : v.nodes.length = nodeCount V system := by
    simpa [nodeCount] using congrArg List.length phases
  have small : (system.mComponents.filterMap (·.mnaSwitch)).length ≤ 32 := few
  have numSimNodes := (assign_total (UInt32.ofNat (networkNodes system).length) v.nodes
    ⟨0,0,0,v.heap⟩).trans (by rw [UInt32.zero_add,strides_of_phases phases])
  refine ⟨⟨rfl,rfl,rfl,rfl,few,rfl,congrArg UInt32.ofNat lengths,numSimNodes,fun key => ?_,rfl⟩,rfl,rfl,rfl⟩
  exact insert_range ((system.mComponents.filterMap (·.mnaSwitch)).length * 2) (by omega) _ _ key

theorem prepare_kept [Field Real] {lib : Library Real W} {timeStep : Real} {domain : Domain}
    {steadyStateInit : Bool} {system : SystemTopology Real W} {s : MnaSolver V Real W} {h h' : Heap W}
    (prepared : (make timeStep domain steadyStateInit system : MnaSolver V Real W).prepare lib h =
      .ok (s, h')) :
    s.mTimeStep = timeStep ∧ s.mSignalComponents.Perm (system.mComponents.filterMap (·.signal)) := by
  unfold prepare at prepared
  split at prepared
  · contradiction
  obtain ⟨identified,found,prepared⟩ := bind_ok.mp prepared
  obtain ⟨_,created,prepared⟩ := bind_ok.mp prepared
  obtain ⟨_,emptied,result⟩ := bind_ok.mp prepared
  cases result
  obtain ⟨_,rfl⟩ := identify_ok.mp found
  obtain ⟨_,_,result⟩ := bind_ok.mp created
  cases result
  obtain ⟨_,rfl⟩ := createEmptySystemMatrix_ok.mp emptied
  exact ⟨rfl,List.perm_insertionSort ..⟩

/-- The steady-state simulation changes four fields of the solver. -/
theorem steadyStateInitialization_frame [Field Real] [LinearOrder Real] {lib : Library Real W}
    {s t : MnaSolver V Real W} {h h' : Heap W} (ran : s.steadyStateInitialization lib fuel h = .ok (t, h')) :
    ∃ system lu right left, t = { s with
      mTmpSystemMatrix := system
      mTmpLuFactorization := lu
      mRightSideVector := right
      mLeftSideVector := left } := by
  obtain ⟨lu,_,ran⟩ := bind_ok.mp ran
  obtain ⟨e,_,result⟩ := bind_ok.mp ran
  cases result
  exact ⟨_,_,_,_,rfl⟩

theorem initializeNetwork_ok [Field Real] [LinearOrder Real] {lib : Library Real W} {timeStep : Real}
    {domain : Domain} {steadyStateInit : Bool} {system : SystemTopology Real W} {p : MnaSolver V Real W}
    {h g : Heap W}
    (ran : (make timeStep domain steadyStateInit system : MnaSolver V Real W).initializeNetwork lib fuel h =
      .ok (p, g)) : Network lib domain steadyStateInit system p := by
  obtain ⟨⟨s,_⟩,prepared,ran⟩ := bind_ok.mp ran
  have network := (prepare_ok prepared).toNetwork
  dsimp only at ran
  split at ran
  · obtain ⟨_,_,_,_,rfl⟩ := steadyStateInitialization_frame ran
    exact ⟨network.domain,network.steady,network.powerComponents,network.switches,network.few,network.status,
      network.numNodes,network.numSimNodes,network.switched,network.factorizations⟩
  · cases ran
    exact network

theorem factorize_ok {s t : MnaSolver V Real W} {h h' : Heap W} (ran : s.factorize h = .ok (t, h')) :
    ∃ system lu right matrices factorizations, t = { s with
      mTmpSystemMatrix := system
      mTmpLuFactorization := lu
      mRightSideVector := right
      mSwitchedMatrices := matrices
      mLuFactorizations := factorizations
      mCurrentSwitchStatus := (s.updateSwitchStatus (s.setBehaviours .Simulation h)).mCurrentSwitchStatus } ∧
    ∀ key, (∀ m, s.mSwitchedMatrices.lookup key = some m →
        matrices.lookup key = some (s.stampSwitched (s.setBehaviours .Simulation h) key m) ∧
        ∃ lu, PartialPivLU.compute (s.stampSwitched (s.setBehaviours .Simulation h) key m) = .ok lu ∧
          factorizations.lookup key = some lu) ∧
      (s.mSwitchedMatrices.lookup key = none →
        matrices.lookup key = none ∧ factorizations.lookup key = s.mLuFactorizations.lookup key) := by
  obtain ⟨first,factorized,ran⟩ := bind_ok.mp ran
  obtain ⟨second,switched,result⟩ := bind_ok.mp ran
  obtain ⟨lu,_,stored⟩ := bind_ok.mp factorized
  cases stored
  obtain ⟨matrices,factorizations,rfl,entries⟩ := factorizeSwitched_ok switched
  cases result
  exact ⟨_,_,_,_,_,rfl,entries⟩

structure Initialized [Field Real] (p s : MnaSolver V Real W) (h : Heap W) : Prop where
  switches : s.mSwitches = p.mSwitches
  powerComponents : s.mPowerComponents = p.mPowerComponents
  size : s.size = p.size
  status : s.mCurrentSwitchStatus = (p.updateSwitchStatus h).mCurrentSwitchStatus
  present : ∀ key, key.toNat < p.mSwitches.length * 2 →
    s.mSwitchedMatrices.lookup key = some (p.stampSwitched h key (.Zero p.size p.size)) ∧
    ∃ lu, PartialPivLU.compute (p.stampSwitched h key (.Zero p.size p.size)) = .ok lu ∧
      s.mLuFactorizations.lookup key = some lu
  absent : ∀ key, p.mSwitches.length * 2 ≤ key.toNat →
    s.mSwitchedMatrices.lookup key = none ∧ s.mLuFactorizations.lookup key = none

theorem initialized_of [Field Real] {lib : Library Real W} {domain : Domain} {steadyStateInit : Bool}
    {system : SystemTopology Real W} {p s : MnaSolver V Real W} {k h : Heap W}
    (network : Network lib domain steadyStateInit system p) (ran : p.factorize k = .ok (s, h)) :
    Initialized p s (p.setBehaviours .Simulation k) := by
  obtain ⟨_,_,_,_,_,rfl,entries⟩ := factorize_ok ran
  refine ⟨rfl,rfl,rfl,rfl,fun key below => ?_,fun key beyond => ?_⟩
  · exact (entries key).1 _ ((network.switched key).trans (if_pos below))
  · have empty := (network.switched key).trans (if_neg (by omega))
    obtain ⟨matrices,factorizations⟩ := (entries key).2 empty
    exact ⟨matrices,factorizations.trans (by rw [network.factorizations]; rfl)⟩

theorem initializeSystem_ok [Field Real] [LinearOrder Real] {lib : Library Real W} {timeStep : Real}
    {domain : Domain} {steadyStateInit : Bool} {system : SystemTopology Real W} {s : MnaSolver V Real W}
    {h g : Heap W}
    (ran : (make timeStep domain steadyStateInit system : MnaSolver V Real W).initializeSystem lib fuel h =
      .ok (s, g)) :
    ∃ p k, (make timeStep domain steadyStateInit system : MnaSolver V Real W).initializeNetwork lib fuel h =
        .ok (p, k) ∧ Network lib domain steadyStateInit system p ∧
      Initialized p s (p.setBehaviours .Simulation k) := by
  obtain ⟨⟨p,k⟩,prepared,factorized⟩ := bind_ok.mp ran
  have network := initializeNetwork_ok prepared
  exact ⟨p,k,prepared,network,initialized_of network factorized⟩

/-- After `initialize` only the switches have bits. -/
theorem Initialized.high [Field Real] {lib : Library Real W} {domain : Domain} {steadyStateInit : Bool}
    {system : SystemTopology Real W} {p s : MnaSolver V Real W} {h : Heap W}
    (initialized : Initialized p s h) (network : Network lib domain steadyStateInit system p) :
    HighBitsZero s.mSwitches.length s.mCurrentSwitchStatus := by
  rw [initialized.switches,initialized.status]
  apply updateSwitchStatus_high h network.few
  rw [network.status]
  exact fun _ _ => BitVec.getLsbD_zero

section Steps
variable [Field Real] {lib : Library Real W}

/-- What the solver does between two steps is up to the heap: events, interfaces, other parts. -/
def Advances (lib : Library Real W) (s : MnaSolver V Real W) (call : Real × Heap W)
    (t : MnaSolver V Real W) : Prop :=
  ∃ nextTime h', s.step lib call.1 call.2 = .ok (nextTime, t, h')

omit lib in
/-- `operator[]` adds at most the key it is called with. -/
theorem factorizationAt_frame (s : MnaSolver V Real W) (key : SwitchStatus) :
    ∃ factorizations, (s.factorizationAt key).2 = { s with mLuFactorizations := factorizations } ∧
      (key ∈ s.mLuFactorizations → factorizations = s.mLuFactorizations) := by
  unfold factorizationAt
  cases known : s.mLuFactorizations.lookup key with
  | some lu => exact ⟨_,rfl,fun _ => rfl⟩
  | none => exact ⟨_,rfl,fun member => absurd member (AList.lookup_eq_none.mp known)⟩

/-- The factorization that `solve` uses, and the solver after its lookup. -/
def selected (s : MnaSolver V Real W) : PartialPivLU Real × MnaSolver V Real W :=
  if s.mSwitchedMatrices.entries = [] then (s.mTmpLuFactorization, s)
  else s.factorizationAt s.mCurrentSwitchStatus

theorem solve_selected (s : MnaSolver V Real W) : s.solve lib = (do
    let left ← s.selected.1.solve lib.solution s.mRightSideVector
    return { s.selected.2 with mLeftSideVector := left }) := by
  unfold solve selected
  by_cases none : s.mSwitchedMatrices.entries = []
  · simp only [none,List.length_nil,gt_iff_lt,Nat.lt_irrefl,if_false,if_true]
  · rw [if_pos (List.length_pos_iff.mpr none),if_neg none]
    unfold factorizationAt
    cases s.mLuFactorizations.lookup s.mCurrentSwitchStatus <;> rfl

omit lib in
theorem selected_frame (s : MnaSolver V Real W) : ∃ factorizations,
    s.selected.2 = { s with mLuFactorizations := factorizations } ∧
    (s.mSwitchedMatrices.entries = [] ∨ s.mCurrentSwitchStatus ∈ s.mLuFactorizations →
      factorizations = s.mLuFactorizations) := by
  unfold selected
  by_cases none : s.mSwitchedMatrices.entries = []
  · rw [if_pos none]
    exact ⟨_,rfl,fun _ => rfl⟩
  · rw [if_neg none]
    obtain ⟨factorizations,kept,same⟩ := s.factorizationAt_frame s.mCurrentSwitchStatus
    exact ⟨factorizations,kept,fun known => same (known.resolve_left none)⟩

theorem solve_frame {s t : MnaSolver V Real W} (ran : s.solve lib = .ok t) : ∃ left factorizations,
    t = { s with mLeftSideVector := left, mLuFactorizations := factorizations } ∧
    (s.mSwitchedMatrices.entries = [] ∨ s.mCurrentSwitchStatus ∈ s.mLuFactorizations →
      factorizations = s.mLuFactorizations) := by
  rw [solve_selected] at ran
  obtain ⟨left,_,result⟩ := bind_ok.mp ran
  obtain ⟨factorizations,kept,same⟩ := s.selected_frame
  rw [kept] at result
  exact ⟨left,factorizations,(Except.ok.inj result).symm,same⟩

theorem solverStep_ok {s t : MnaSolver V Real W} {h h' : Heap W} :
    s.step lib time h = .ok (nextTime, t, h') ↔ ∃ u, (s.stepComponents time h).1.solve lib = .ok u ∧
      nextTime = time + (u.finishStep lib time (s.stepComponents time h).2).1.mTimeStep ∧
      h' = (u.finishStep lib time (s.stepComponents time h).2).2 ∧
      t = (u.finishStep lib time (s.stepComponents time h).2).1.updateSwitchStatus h' := by
  constructor
  · intro ran
    obtain ⟨u,solved,result⟩ := bind_ok.mp ran
    obtain ⟨rfl,rest⟩ := Prod.mk.inj (Except.ok.inj result)
    obtain ⟨rfl,rfl⟩ := Prod.mk.inj rest
    exact ⟨u,solved,rfl,rfl,rfl⟩
  · rintro ⟨u,solved,rfl,rfl,rfl⟩
    exact bind_ok.mpr ⟨u,solved,rfl⟩

/-- A step changes the vectors, the system matrix and the status; it adds at most the key it
looks up to the factorizations. -/
theorem step_frame {s t : MnaSolver V Real W} {h h' : Heap W}
    (ran : s.step lib time h = .ok (nextTime, t, h')) : ∃ system right left factorizations, t = { s with
      mTmpSystemMatrix := system
      mRightSideVector := right
      mLeftSideVector := left
      mLuFactorizations := factorizations
      mCurrentSwitchStatus := (s.updateSwitchStatus h').mCurrentSwitchStatus } ∧
    (s.mSwitchedMatrices.entries = [] ∨ s.mCurrentSwitchStatus ∈ s.mLuFactorizations →
      factorizations = s.mLuFactorizations) := by
  obtain ⟨u,solved,_,rfl,rfl⟩ := solverStep_ok.mp ran
  obtain ⟨left,factorizations,rfl,same⟩ := solve_frame solved
  exact ⟨_,_,_,factorizations,rfl,same⟩

end Steps
end MnaSolver
end DPsim
