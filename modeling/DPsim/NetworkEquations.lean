import DPsim.MNASwitching
import DPsim.MatrixRenumbering
import DPsim.SteadyState

/-! What the vectors that the solver computes mean: in every step of a run they solve the equations of
the network, so the currents at each node add up to what the sources feed. -/
namespace DPsim.MnaSolver
open Transition

variable {V : VarType} {Real W : Type} [Field Real]

def drawn (r : Nat) (x : Nat → Real) (i : Nat) (contribution : Nat → Nat → Real) : Real :=
  ∑ j ∈ Finset.range r, contribution i j * x j

@[simp] theorem drawn_zero (r : Nat) (x : Nat → Real) (i : Nat) : drawn r x i 0 = 0 := by simp [drawn]

theorem drawn_add (r : Nat) (x : Nat → Real) (i : Nat) (c d : Nat → Nat → Real) :
    drawn r x i (c + d) = drawn r x i c + drawn r x i d := by
  simp only [drawn,Pi.add_apply,add_mul,Finset.sum_add_distrib]

theorem drawn_sum (r : Nat) (x : Nat → Real) (i : Nat) (items : List α) (c : α → Nat → Nat → Real) :
    drawn r x i (items.map c).sum = (items.map fun a => drawn r x i (c a)).sum := by
  induction items with
  | nil => exact drawn_zero r x i
  | cons a items ih => rw [List.map_cons,List.sum_cons,drawn_add,ih,List.map_cons,List.sum_cons]

theorem times_accumulated (r : Nat) (c : Nat → Nat → Real) (x : Nat → Real) (inside : i < r) :
    ((Matrix.Zero r r).accumulate c).times x i = drawn r x i c := by
  refine Finset.sum_congr rfl fun j within => ?_
  rw [Matrix.accumulate_entry _ c ⟨inside,Finset.mem_range.mp within⟩,Matrix.zero_entry,zero_add]

/-! The factorizations that a run works with. -/

def networkMatrix (p : MnaSolver V Real W) (h : Heap W) (key : SwitchStatus) : Matrix Real :=
  p.stampSwitched h key (.Zero p.size p.size)

/-- Each status of `n` switches that has a key has the factorization of its matrix. -/
structure Factored (A : SwitchStatus → Matrix Real) (n : Nat) (s : MnaSolver V Real W) : Prop where
  alone : n = 0 → ∀ key, s.mTmpLuFactorization = ⟨A key⟩
  known : ∀ key, key.toNat < n * 2 → s.mLuFactorizations.lookup key = some ⟨A key⟩

omit [Field Real] in
theorem compute_matrix {m : Matrix Real} {lu : PartialPivLU Real}
    (computed : PartialPivLU.compute m = .ok lu) : lu = ⟨m⟩ := by
  unfold PartialPivLU.compute at computed
  split at computed
  · exact (Except.ok.inj computed).symm
  · contradiction

section Factorizations
variable {lib : Library Real W} {timeStep : Real} {domain : Domain} {steadyStateInit : Bool}
  {system : SystemTopology Real W} {A : SwitchStatus → Matrix Real} {n r : Nat}

theorem initializeNetwork_cleared [LinearOrder Real] {p : MnaSolver V Real W} {h k : Heap W}
    (ran : (make timeStep domain steadyStateInit system : MnaSolver V Real W).initializeNetwork lib fuel h =
      .ok (p, k)) : p.mTmpSystemMatrix = p.mTmpSystemMatrix.setZero := by
  obtain ⟨⟨q,_⟩,prepared,ran⟩ := bind_ok.mp ran
  have matrix := (prepare_ok prepared).matrix
  dsimp only at ran
  split at ran
  · obtain ⟨_,_,ran⟩ := bind_ok.mp ran
    obtain ⟨_,_,result⟩ := bind_ok.mp ran
    cases result
    rfl
  · cases ran
    rw [matrix]
    rfl

/-- Without switches the only factorization is that of the stamps of the power components. -/
theorem factorize_alone {p s : MnaSolver V Real W} {h h' : Heap W} (none : p.mSwitches = [])
    (cleared : p.mTmpSystemMatrix = .Zero p.size p.size) (ran : p.factorize h = .ok (s, h'))
    (key : SwitchStatus) :
    s.mTmpLuFactorization = ⟨networkMatrix p (p.setBehaviours .Simulation h) key⟩ := by
  obtain ⟨first,factorized,ran⟩ := bind_ok.mp ran
  obtain ⟨second,switched,result⟩ := bind_ok.mp ran
  obtain ⟨lu,computed,stored⟩ := bind_ok.mp factorized
  cases stored
  obtain ⟨_,_,rfl,_⟩ := factorizeSwitched_ok switched
  cases result
  have stamps : p.stampSystem (p.setBehaviours .Simulation h) p.mTmpSystemMatrix =
      networkMatrix p (p.setBehaviours .Simulation h) key := by
    rw [cleared,networkMatrix,stampSystem,stampSwitched,none]
    rfl
  exact (compute_matrix computed).trans (congrArg PartialPivLU.mk stamps)

theorem initialized_factored [LinearOrder Real] [IsStrictOrderedRing Real] {p s : MnaSolver V Real W}
    {h k g : Heap W} (keep : KeepSizes system)
    (prepared : (make timeStep domain steadyStateInit system : MnaSolver V Real W).initializeNetwork lib
      (fuel + 1) h = .ok (p, k)) (ran : p.factorize k = .ok (s, g)) :
    Factored (networkMatrix p (p.setBehaviours .Simulation k))
      (system.mComponents.filterMap (·.mnaSwitch)).length s := by
  have network := initializeNetwork_ok prepared
  have done := initialized_of network ran
  obtain ⟨⟨q,_⟩,first,_⟩ := bind_ok.mp prepared
  have size := ((initializeNetwork_conforms_iff keep first fuel).2 p k prepared).system
  have same : p.size = systemRows lib V system := by rw [MnaSolver.size,network.numSimNodes,systemRows]
  have cleared : p.mTmpSystemMatrix = .Zero p.size p.size := by
    rw [initializeNetwork_cleared prepared,Matrix.setZero,size.1,size.2,same]
  rw [← network.switches]
  refine ⟨fun none key => ?_,fun key below => ?_⟩
  · exact factorize_alone (List.length_eq_zero_iff.mp none) cleared ran key
  · obtain ⟨_,lu,computed,found⟩ := done.present key below
    rw [found,compute_matrix computed]
    rfl

theorem Factored.step {s t : MnaSolver V Real W} (rows : r ≠ 0) (keep : KeepSizes system)
    (running : Running system r n s) (factored : Factored A n s) (advances : Advances lib s call t) :
    Factored A n t := by
  obtain ⟨nextTime,h',ran⟩ := advances
  have known := (step_conforms_iff lib keep running.works running.shaped call.1 call.2).mp ⟨_,ran⟩
  obtain ⟨_,_,_,factorizations,rfl,same⟩ := step_frame ran
  have kept : factorizations = s.mLuFactorizations :=
    same (known.imp_right fun found => found.resolve_left rows)
  exact ⟨factored.alone,by rw [kept]; exact factored.known⟩

/-- The factorization that a step uses is that of the network in the recorded switch positions. -/
theorem Factored.selected {s : MnaSolver V Real W} (rows : r ≠ 0) (running : Running system r n s)
    (factored : Factored A n s) (known : KeyKnown r s) : s.selected.1 = ⟨A s.mCurrentSwitchStatus⟩ := by
  unfold MnaSolver.selected
  by_cases none : s.mSwitchedMatrices.entries = []
  · rw [if_pos none]
    exact factored.alone (running.entries.mp none) _
  · have switches : n ≠ 0 := mt running.entries.mpr none
    have below := ((running.known_iff.mp known).resolve_left switches).resolve_left rows
    rw [if_neg none,factorizationAt,factored.known _ below]

theorem solve_solves (solves : Matrix.Solves lib.solution) {s u : MnaSolver V Real W}
    (right : s.mRightSideVector.hasSize r 1) (square : s.selected.1.matrix.hasSize r r)
    (regular : s.selected.1.matrix.Nonsingular) (solved : s.solve lib = .ok u) (inside : i < r) :
    s.selected.1.matrix.times (fun j => u.mLeftSideVector.entry j 0) i = s.mRightSideVector.entry i 0 := by
  rw [solve_selected] at solved
  obtain ⟨left,computed,result⟩ := bind_ok.mp solved
  cases result
  have sizes : s.selected.1.matrix.rows = s.mRightSideVector.rows := square.1.trans right.1.symm
  have value := (if_pos sizes).symm.trans computed
  cases value
  have equation := solves _ _ regular ⟨sizes.symm,right.2⟩ i (square.1 ▸ inside)
  have column : 0 < s.mRightSideVector.cols := by
    rw [right.2]
    exact Nat.one_pos
  refine Eq.trans (Finset.sum_congr rfl fun j within => ?_) equation
  exact congrArg (_ * ·) (dif_pos ⟨Finset.mem_range.mp within,column⟩)

/-- What the components feed into the right side, from their own steps. -/
structure AdditiveSteps (system : SystemTopology Real W)
    (feed : MNAInterface Real W → Real → Equations Real W → Nat → Nat → Real)
    (switchFeed : MNASwitchInterface Real W → Real → Equations Real W → Nat → Nat → Real) : Prop where
  power : ∀ comp ∈ system.mComponents.filterMap (·.mna), ∀ time e,
    (comp.mnaStep time e).right = e.right.accumulate (feed comp time e)
  switch : ∀ sw ∈ system.mComponents.filterMap (·.mnaSwitch), ∀ time e,
    (sw.mnaStep time e).right = e.right.accumulate (switchFeed sw time e)

/-- The contributions of a loop over components, of which each may depend on the steps before. -/
def feeds (act : α → Equations Real W → Equations Real W) (feed : α → Equations Real W → Nat → Nat → Real) :
    List α → Equations Real W → Nat → Nat → Real
  | [], _ => 0
  | a :: rest, e => feed a e + feeds act feed rest (act a e)

theorem foldl_feeds {act : α → Equations Real W → Equations Real W}
    {feed : α → Equations Real W → Nat → Nat → Real} {items : List α}
    (adds : ∀ a ∈ items, ∀ e, (act a e).right = e.right.accumulate (feed a e)) (e : Equations Real W) :
    (items.foldl (fun e a => act a e) e).right = e.right.accumulate (feeds act feed items e) := by
  induction items generalizing e with
  | nil => exact (Matrix.accumulate_zero e.right).symm
  | cons a items ih =>
    rw [List.foldl_cons,ih (fun b member => adds b (List.mem_cons_of_mem a member)),
      adds a List.mem_cons_self,Matrix.accumulate_accumulate,feeds]

def fed (feed : MNAInterface Real W → Real → Equations Real W → Nat → Nat → Real)
    (switchFeed : MNASwitchInterface Real W → Real → Equations Real W → Nat → Nat → Real)
    (s : MnaSolver V Real W) (time : Real) (h : Heap W) : Nat → Nat → Real :=
  let e : Equations Real W :=
    ⟨s.mTmpSystemMatrix,s.mRightSideVector.setZero,s.mLeftSideVector,s.stepSignals time h⟩
  feeds (·.mnaStep time) (feed · time) s.mPowerComponents e +
    feeds (·.mnaStep time) (switchFeed · time) s.mSwitches (s.stepPower time e)

theorem stepComponents_fed {feed : MNAInterface Real W → Real → Equations Real W → Nat → Nat → Real}
    {switchFeed : MNASwitchInterface Real W → Real → Equations Real W → Nat → Nat → Real}
    (feeding : AdditiveSteps system feed switchFeed) {s : MnaSolver V Real W} (works : WorksOn system s)
    (time : Real) (h : Heap W) : (s.stepComponents time h).1.mRightSideVector =
      s.mRightSideVector.setZero.accumulate (fed feed switchFeed s time h) := by
  let e : Equations Real W :=
    ⟨s.mTmpSystemMatrix,s.mRightSideVector.setZero,s.mLeftSideVector,s.stepSignals time h⟩
  have power : (s.stepPower time e).right =
      e.right.accumulate (feeds (·.mnaStep time) (feed · time) s.mPowerComponents e) :=
    foldl_feeds (fun comp member e => feeding.power comp (works.powerComponents ▸ member) time e) e
  have switches : (s.stepSwitches time (s.stepPower time e)).right = (s.stepPower time e).right.accumulate
      (feeds (·.mnaStep time) (switchFeed · time) s.mSwitches (s.stepPower time e)) :=
    foldl_feeds (fun sw member e => feeding.switch sw (works.switches ▸ member) time e) _
  rw [power,Matrix.accumulate_accumulate] at switches
  exact switches

theorem Running.stepped {s : MnaSolver V Real W} (keep : KeepSizes system) (running : Running system r n s)
    (time : Real) (h : Heap W) : Running system r n (s.stepComponents time h).1 :=
  ⟨⟨running.works.powerComponents,running.works.switches⟩,
    stepComponents_shaped keep running.works running.shaped time h,running.entries,running.keys⟩

def voltages (s : MnaSolver V Real W) (j : Nat) : Real := s.mLeftSideVector.entry j 0

theorem step_solves (solves : Matrix.Solves lib.solution) (keep : KeepSizes system)
    {feed : MNAInterface Real W → Real → Equations Real W → Nat → Nat → Real}
    {switchFeed : MNASwitchInterface Real W → Real → Equations Real W → Nat → Nat → Real}
    (feeding : AdditiveSteps system feed switchFeed) {s u : MnaSolver V Real W}
    (running : Running system r n s) (factored : Factored A n s) {time : Real} {h : Heap W}
    (solved : (s.stepComponents time h).1.solve lib = .ok u) (regular : (A s.mCurrentSwitchStatus).Nonsingular)
    (inside : i < r) :
    (A s.mCurrentSwitchStatus).times u.voltages i = fed feed switchFeed s time h i 0 := by
  have rows : r ≠ 0 := by omega
  have stepped := running.stepped keep time h
  have known : KeyKnown r (s.stepComponents time h).1 :=
    (solve_conforms_iff lib stepped.shaped).mp ⟨u,solved⟩
  have status : (s.stepComponents time h).1.mCurrentSwitchStatus = s.mCurrentSwitchStatus := rfl
  have chosen : (s.stepComponents time h).1.selected.1 = ⟨A s.mCurrentSwitchStatus⟩ :=
    Factored.selected rows stepped ⟨factored.alone,factored.known⟩ known
  have square := (selected_shaped stepped.shaped known).1
  have equation := solve_solves solves stepped.shaped.right square (chosen ▸ regular) solved inside
  rw [chosen,stepComponents_fed feeding running.works] at equation
  have right := running.shaped.right
  have within : i < s.mRightSideVector.setZero.rows ∧ 0 < s.mRightSideVector.setZero.cols :=
    ⟨right.setZero.1 ▸ inside,right.setZero.2 ▸ Nat.one_pos⟩
  calc (A s.mCurrentSwitchStatus).times u.voltages i
      = (s.mRightSideVector.setZero.accumulate (fed feed switchFeed s time h)).entry i 0 := equation
    _ = s.mRightSideVector.setZero.entry i 0 + fed feed switchFeed s time h i 0 :=
        Matrix.accumulate_entry _ _ within
    _ = fed feed switchFeed s time h i 0 := by rw [Matrix.setZero,Matrix.zero_entry,zero_add]

end Factorizations

/-- In every step of every run the currents balance at each node: what the power components and the
switches, in their recorded positions, draw at the computed voltages is what the components feed. -/
theorem currents_balance [LinearOrder Real] [IsStrictOrderedRing Real] (lib : Library Real W) (fuel : Nat)
    (timeStep : Real) (domain : Domain) (steadyStateInit : Bool) (system : SystemTopology Real W)
    (h g : Heap W) (s : MnaSolver V Real W)
    (stamp : MNAInterface Real W → Heap W → Nat → Nat → Real)
    (switchStamp : MNASwitchInterface Real W → Bool → Heap W → Nat → Nat → Real)
    (feed : MNAInterface Real W → Real → Equations Real W → Nat → Nat → Real)
    (switchFeed : MNASwitchInterface Real W → Real → Equations Real W → Nat → Nat → Real)
    (solves : Matrix.Solves lib.solution)
    (initialized : (make timeStep domain steadyStateInit system : MnaSolver V Real W).initializeSystem
      lib (fuel + 1) h = .ok (s, g))
    (keep : KeepSizes system) (additive : AdditiveStamps system stamp switchStamp)
    (feeding : AdditiveSteps system feed switchFeed) :
    ∃ p k, (make timeStep domain steadyStateInit system : MnaSolver V Real W).initializeNetwork lib
        (fuel + 1) h = .ok (p, k) ∧
      ∀ trace t, Path (Advances lib) s trace t → ∀ time h' result, t.step lib time h' = .ok result →
        ((Matrix.Zero (systemRows lib V system) (systemRows lib V system)).accumulate (switchedSum system
          stamp switchStamp (p.setBehaviours .Simulation k) t.mCurrentSwitchStatus)).Nonsingular →
        ∃ u, (t.stepComponents time h').1.solve lib = .ok u ∧ ∀ i < systemRows lib V system,
          ((system.mComponents.filterMap (·.mna)).map fun comp =>
              drawn (systemRows lib V system) u.voltages i (stamp comp (p.setBehaviours .Simulation k))).sum +
            ((system.mComponents.filterMap (·.mnaSwitch)).zipIdx.map fun sw =>
              drawn (systemRows lib V system) u.voltages i (switchStamp sw.1
                (t.mCurrentSwitchStatus.getLsbD sw.2) (p.setBehaviours .Simulation k))).sum =
            fed feed switchFeed t time h' i 0 := by
  obtain ⟨⟨p,k⟩,prepared,factorized⟩ := bind_ok.mp initialized
  refine ⟨p,k,prepared,fun trace t path time h' result stepped regular => ?_⟩
  obtain ⟨u,solved,_⟩ := solverStep_ok.mp stepped
  refine ⟨u,solved,fun i inside => ?_⟩
  have network := initializeNetwork_ok prepared
  have size : p.size = systemRows lib V system := by rw [MnaSolver.size,network.numSimNodes,systemRows]
  have matrix (key : SwitchStatus) : networkMatrix p (p.setBehaviours .Simulation k) key =
      (Matrix.Zero (systemRows lib V system) (systemRows lib V system)).accumulate
        (switchedSum system stamp switchStamp (p.setBehaviours .Simulation k) key) := by
    rw [networkMatrix,stampSwitched_sum additive network,size]
  have rows : systemRows lib V system ≠ 0 := by omega
  have kept : Running system (systemRows lib V system) (system.mComponents.filterMap (·.mnaSwitch)).length t ∧
      Factored (networkMatrix p (p.setBehaviours .Simulation k))
        (system.mComponents.filterMap (·.mnaSwitch)).length t := by
    refine path.invariant (P := fun t => Running system (systemRows lib V system)
      (system.mComponents.filterMap (·.mnaSwitch)).length t ∧
      Factored (networkMatrix p (p.setBehaviours .Simulation k))
        (system.mComponents.filterMap (·.mnaSwitch)).length t) ?_
      ⟨(initialized_running keep initialized).1,initialized_factored keep prepared factorized⟩
    rintro x call y ⟨running,factored⟩ advances
    exact ⟨running.step keep advances,factored.step rows keep running advances⟩
  have equation := step_solves solves keep feeding kept.1 kept.2 solved (matrix _ ▸ regular) inside
  rw [matrix,times_accumulated _ _ _ inside,switchedSum,drawn_add,drawn_sum,drawn_sum] at equation
  exact equation

noncomputable def exactLibrary : Library ℚ Unit := ⟨Matrix.exactSolution,.Single,fun _ _ h => h⟩

theorem shuntGrid_additive (current : ℚ) : AdditiveStamps (shuntGrid current)
    (fun _ _ i j => if i = j then 1 else 0) (fun _ _ _ _ _ => 0) := by
  constructor
  · simp only [shuntGrid,List.filterMap_cons,List.filterMap_nil,List.mem_singleton]
    rintro comp rfl h m
    rfl
  · simp [shuntGrid]

theorem shuntGrid_feeding (current : ℚ) : AdditiveSteps (shuntGrid current)
    (fun _ _ _ i _ => if i = 0 then current else 0) (fun _ _ _ _ _ => 0) := by
  constructor
  · simp only [shuntGrid,List.filterMap_cons,List.filterMap_nil,List.mem_singleton]
    rintro comp rfl time e
    rfl
  · simp [shuntGrid]

/-- A source of one beside a conductance of one makes a voltage of one. -/
theorem currents_balance_shunt : ∃ s g, (make 1 .EMT false (shuntGrid 1) :
      MnaSolver .complex ℚ Unit).initializeSystem exactLibrary (0 + 1) noNodes = .ok (s,g) ∧
    ∀ result, s.step exactLibrary 0 g = .ok result →
      ∃ u, (s.stepComponents 0 g).1.solve exactLibrary = .ok u ∧ u.voltages 0 = 1 := by
  obtain ⟨s,g,initialized⟩ : ∃ s g, (make 1 .EMT false (shuntGrid 1) :
      MnaSolver .complex ℚ Unit).initializeSystem exactLibrary (0 + 1) noNodes = .ok (s,g) := ⟨_,_,rfl⟩
  refine ⟨s,g,initialized,fun result stepped => ?_⟩
  obtain ⟨p,k,_,balanced⟩ := currents_balance exactLibrary 0 1 .EMT false (shuntGrid 1) noNodes g s _ _ _ _
    Matrix.exactSolution_solves initialized (shuntGrid_keepSizes 1) (shuntGrid_additive 1) (shuntGrid_feeding 1)
  have rows : systemRows exactLibrary .complex (shuntGrid 1) = 2 := by decide
  have total : switchedSum (shuntGrid 1) (fun _ _ i j => if i = j then 1 else 0) (fun _ _ _ _ _ => 0)
      (p.setBehaviours .Simulation k) s.mCurrentSwitchStatus = fun i j => if i = j then (1 : ℚ) else 0 := by
    simp [switchedSum,shuntGrid]
  have regular : ((Matrix.Zero 2 2).accumulate fun i j => if i = j then (1 : ℚ) else 0).Nonsingular := by
    refine Matrix.Nonsingular.of_diagonal rfl (fun i j other => ?_) fun i inside => ?_
    · simp [Matrix.entry,Matrix.accumulate,Matrix.Zero,other]
    · have below : i < 2 := inside
      simp [Matrix.entry,Matrix.accumulate,Matrix.Zero,below]
  obtain ⟨u,solved,balance⟩ := balanced [] s .nil 0 g result stepped (by rw [rows,total]; exact regular)
  have first := balance 0 (by rw [rows]; exact two_pos)
  have works := (initialized_running (shuntGrid_keepSizes 1) initialized).1.works
  refine ⟨u,solved,?_⟩
  rw [fed,works.powerComponents,works.switches,rows] at first
  simpa [shuntGrid,feeds,drawn,Finset.sum_range_succ] using first

end DPsim.MnaSolver
