import DPsim.ComponentNumbering

/-! Two runs of the solver for two orders of one list of components. -/
namespace DPsim.LocalSystem
open MnaSolver Renumbering

variable {V : VarType} {S U Real : Type} [Field Real] {b : LocalSystem V S U Real} {cs cs' : List Nat}

theorem WellFormed.perm {h : Heap (Objects S U)} (wellFormed : b.WellFormed cs h) (perm : cs.Perm cs') :
    b.WellFormed cs' h := by
  refine ⟨wellFormed.distinct,⟨wellFormed.allocated.nodes,wellFormed.allocated.slots⟩,?_,?_⟩
  · exact fun a listed => wellFormed.connected a (perm.mem_iff.mpr listed)
  · rw [← (perm.map b.virtualNodes).sum_eq]
    exact wellFormed.fits

section Preparation
variable {timeStep : Real} {domain : Domain} {steadyStateInit : Bool} {h : Heap (Objects S U)}

variable (b) in
def start (timeStep : Real) (domain : Domain) (steadyStateInit : Bool) (cs : List Nat) :
    MnaSolver V Real (Objects S U) := .make timeStep domain steadyStateInit (b.topology cs)

variable (b) in
def identified (timeStep : Real) (domain : Domain) (steadyStateInit : Bool) (cs : List Nat) :
    MnaSolver V Real (Objects S U) :=
  { b.start timeStep domain steadyStateInit cs with
    mNodes := b.network
    mPowerComponents := cs.filterMap b.mnaAt
    mSwitches := cs.filterMap b.switchAt }

theorem identify_start {s : MnaSolver V Real (Objects S U)}
    (found : (b.start timeStep domain steadyStateInit cs).identifyTopologyObjects = .ok s) :
    s = b.identified timeStep domain steadyStateInit cs := by
  obtain ⟨_,rfl⟩ := identify_ok.mp found
  have mnas := b.mnas cs
  have switches := b.switches cs
  have signals := b.signals cs
  simp only [start,make,identified,List.nil_append,mnas,switches,signals]
  rfl

theorem identify_together : Together (fun s s' => s = b.identified timeStep domain steadyStateInit cs ∧
      s' = b.identified timeStep domain steadyStateInit cs')
    (b.start timeStep domain steadyStateInit cs).identifyTopologyObjects
    (b.start timeStep domain steadyStateInit cs').identifyTopologyObjects := by
  refine Together.imp (R := fun _ _ => True) ?_ fun s s' found found' _ =>
    ⟨identify_start found,identify_start found'⟩
  exact Together.bind (Together.refl _) fun _ _ _ => trivial

omit [Field Real] in
theorem filterMap_length_perm {part : Nat → Option α} (perm : cs.Perm cs') :
    (cs'.filterMap part).length = (cs.filterMap part).length := (perm.filterMap part).length_eq.symm

theorem createEmptySystemMatrix_together {s s' : MnaSolver V Real (Objects S U)}
    (count : s'.mSwitches.length = s.mSwitches.length) : Together (fun u u' =>
      s.createEmptySystemMatrix = .ok u ∧ s'.createEmptySystemMatrix = .ok u')
    s.createEmptySystemMatrix s'.createEmptySystemMatrix := by
  unfold createEmptySystemMatrix
  rw [count]
  split
  · exact Eq.refl (Fault.systemError _)
  · exact ⟨rfl,rfl⟩

structure Ready (ρ : Renaming V) (b : LocalSystem V S U Real) (cs cs' : List Nat)
    (x y : MnaSolver V Real (Objects S U) × Heap (Objects S U)) : Prop where
  twins : b.Twins cs cs' x.1 y.1
  heap : x.2.Renamed ρ (cs.map b.site) b.network y.2

theorem prepare_together (perm : cs.Perm cs') (wellFormed : b.WellFormed cs h) {τ : Equiv.Perm Nat}
    (keeps : Keeps (cs.map b.virtualNodes).sum τ)
    (moved : ∀ a p, slot b.virtualNodes cs' a p = (slot b.virtualNodes cs a p).map τ) :
    Together (Ready (b.renumbering _ τ keeps) b cs cs')
      ((b.start timeStep domain steadyStateInit cs).prepare b.library h)
      ((b.start timeStep domain steadyStateInit cs').prepare b.library h) := by
  have lengths : (b.start timeStep domain steadyStateInit cs').mSystem.mComponents.length =
      (b.start timeStep domain steadyStateInit cs).mSystem.mComponents.length := by
    simp [start,make,topology,perm.length_eq]
  unfold prepare
  rw [lengths]
  split
  · exact Eq.refl Fault.solverException
  refine identify_together.bind fun s s' found => ?_
  obtain ⟨rfl,rfl⟩ := found
  obtain ⟨t,g,created,first,network,_,_,_,rfl⟩ := numbered wellFormed
    (s := b.identified timeStep domain steadyStateInit cs) rfl rfl
  obtain ⟨t',g',created',second,network',_,_,_,rfl⟩ := numbered (wellFormed.perm perm)
    (s := b.identified timeStep domain steadyStateInit cs') rfl rfl
  have heaps := first.renamed wellFormed second keeps perm moved
  apply Together.after created created'
  refine Together.bind (createEmptySystemMatrix_together (filterMap_length_perm perm)) fun u u' emptied => ?_
  obtain ⟨_,rfl⟩ := createEmptySystemMatrix_ok.mp emptied.1
  obtain ⟨_,rfl⟩ := createEmptySystemMatrix_ok.mp emptied.2
  have sums := (perm.map b.virtualNodes).sum_eq
  exact ⟨⟨⟨rfl,rfl,rfl,rfl,network⟩,⟨rfl,rfl,rfl,rfl,network'⟩,rfl,rfl,rfl,sums ▸ rfl⟩,heaps⟩

theorem rowCount_topology (cs : List Nat) : rowCount b.library V (b.topology cs) =
    b.networkRows + b.virtualStride * (cs.map b.virtualNodes).sum := by
  rw [rowCount,mnas,virtualSum_mnas,Nat.mul_comm]
  rfl

theorem size_topology (wellFormed : b.WellFormed cs h) {s : MnaSolver V Real (Objects S U)}
    (numSimNodes : s.mNumSimNodes = UInt32.ofNat (rowCount b.library V (b.topology cs))) :
    s.size = rowsFor V (b.networkRows + b.virtualStride * (cs.map b.virtualNodes).sum) := by
  have fits := wellFormed.fits
  have small := le_rowsFor.trans_lt fits
  rw [size,numSimNodes,rowCount_topology]
  generalize b.networkRows + b.virtualStride * (cs.map b.virtualNodes).sum = n at fits small ⊢
  cases V with
  | real => exact UInt32.toNat_ofNat_of_lt' small
  | complex =>
    have double : n + n < 2 ^ 32 := fits
    exact (double_toNat (by omega)).trans (Nat.two_mul n)

def equations (s : MnaSolver V Real (Objects S U)) (h : Heap (Objects S U)) : Equations Real (Objects S U) :=
  ⟨s.mTmpSystemMatrix,s.mRightSideVector,s.mLeftSideVector,h⟩

end Preparation

section SteadyState
variable {ρ : Renaming V} {s s' : MnaSolver V Real (Objects S U)} {lu lu' : PartialPivLU Real}
  {e e' : Equations Real (Objects S U)}

structure Networked (ρ : Renaming V) (b : LocalSystem V S U Real) (cs cs' : List Nat)
    (x y : MnaSolver V Real (Objects S U) × Heap (Objects S U)) : Prop where
  twins : b.Twins cs cs' x.1 y.1
  equations : (equations x.1 x.2).Renamed ρ (cs.map b.site) b.network (equations y.1 y.2)

/-- What the solves of one loop have to be given. -/
structure Solvable (ρ : Renaming V) (lu lu' : PartialPivLU Real) : Prop where
  size : lu.matrix.hasSize ρ.rows ρ.rows
  same : lu.matrix.Renumbered ρ.row ρ.row lu'.matrix
  regular : lu.matrix.Nonsingular

theorem steadyStatePass_together (perm : cs.Perm cs') (solves : Matrix.Solves b.solution)
    (twins : b.Twins cs cs' s s') (solvable : Solvable ρ lu lu') (time : Real)
    (same : e.Renamed ρ (cs.map b.site) b.network e') :
    Together (Equations.Renamed ρ (cs.map b.site) b.network) (s.steadyStatePass b.library lu time e)
      (s'.steadyStatePass b.library lu' time e') := by
  have begun : ({ e with right := e.right.setZero, heap := s.stepSignals time e.heap } :
      Equations Real (Objects S U)).Renamed ρ (cs.map b.site) b.network
      { e' with right := e'.right.setZero, heap := s'.stepSignals time e'.heap } :=
    ⟨⟨same.sized.system,same.sized.right.setZero,same.sized.left⟩,same.system,same.right.setZero,same.left,
      twins.stepSignals time same.heap⟩
  have stepped := twins.stepPower perm time begun
  obtain ⟨left,left',solved,solved',size,vectors⟩ := PartialPivLU.solve_renumbered solves ρ.row_keeps
    solvable.size solvable.same solvable.regular stepped.sized.right stepped.right
  apply Together.after solved solved'
  exact twins.updateVoltages (twins.postSteps perm time
    ⟨⟨stepped.sized.system,stepped.sized.right,size⟩,stepped.system,stepped.right,vectors,stepped.heap⟩)

variable [LinearOrder Real]

theorem steadyStateLoop_together (perm : cs.Perm cs') (solves : Matrix.Solves b.solution)
    (twins : b.Twins cs cs' s s') (solvable : Solvable ρ lu lu') (fuel : Nat) (time : Real)
    {previous previous' : Matrix Real} (last : previous.Renumbered ρ.row 1 previous')
    (same : e.Renamed ρ (cs.map b.site) b.network e') :
    Together (Equations.Renamed ρ (cs.map b.site) b.network)
      (s.steadyStateLoop b.library lu fuel time previous e)
      (s'.steadyStateLoop b.library lu' fuel time previous' e') := by
  induction fuel generalizing time previous previous' e e' with
  | zero => exact Eq.refl Fault.outOfFuel
  | succ fuel ih =>
    unfold steadyStateLoop
    split
    · refine (steadyStatePass_together perm solves twins solvable time same).bind fun e e' same => ?_
      refine (last.sub same.left).bind fun diff diff' smaller => ?_
      rw [same.left.lpNorm,smaller.lpNorm,twins.timeStep]
      split
      · exact same
      · exact ih (time + s.mTimeStep) same.left same
    · exact same

theorem steadyStateInitialization_together (perm : cs.Perm cs') (solves : Matrix.Solves b.solution)
    (twins : b.Twins cs cs' s s') {h h' : Heap (Objects S U)}
    (same : (equations s h).Renamed ρ (cs.map b.site) b.network (equations s' h'))
    (regular : (s.steadyStateStart h).system.Nonsingular) (fuel : Nat) : Together (Networked ρ b cs cs')
      (s.steadyStateInitialization b.library fuel h) (s'.steadyStateInitialization b.library fuel h') := by
  have heaps := twins.setBehaviours perm .Initialization same.heap
  obtain ⟨size,system⟩ := twins.stampSystem perm heaps same.sized.system same.system
  have begun : (s.steadyStateStart h).Renamed ρ (cs.map b.site) b.network (s'.steadyStateStart h') :=
    ⟨⟨size,same.sized.right,same.sized.left⟩,system,same.right,same.left,heaps⟩
  rw [steadyStateInitialization_loop b.library begun.sized,steadyStateInitialization_loop b.library begun.sized']
  have previous : (Matrix.Zero (2 * s.mNumNodes).toNat 1 : Matrix Real).Renumbered ρ.row 1
      (.Zero (2 * s'.mNumNodes).toNat 1) := by
    rw [twins.numNodes]
    exact .zero ..
  refine (steadyStateLoop_together perm solves twins ⟨size,system,regular⟩ fuel 0 previous begun).bind
    fun e e' same => ?_
  exact ⟨twins.withFields ⟨_,_,_,_,_,_,_⟩ ⟨_,_,_,_,_,_,_⟩,⟨same.sized.system.setZero,same.sized.right.setZero,
    same.sized.left⟩,same.system.setZero,same.right.setZero,same.left,same.heap⟩

end SteadyState

section Network
variable [LinearOrder Real] {timeStep : Real} {domain : Domain} {steadyStateInit : Bool} {h : Heap (Objects S U)}

variable (b) in
def SteadyRegular (timeStep : Real) (domain : Domain) (steadyStateInit : Bool) (cs : List Nat)
    (h : Heap (Objects S U)) : Prop :=
  steadyStateInit = true → domain = .DP → ∀ s g,
    (b.start timeStep domain steadyStateInit cs).prepare b.library h = .ok (s,g) →
      (s.steadyStateStart (s.initializeComponents g)).system.Nonsingular

theorem initializeNetwork_together (perm : cs.Perm cs') (wellFormed : b.WellFormed cs h)
    (solves : Matrix.Solves b.solution) (regular : b.SteadyRegular timeStep domain steadyStateInit cs h)
    {τ : Equiv.Perm Nat} (keeps : Keeps (cs.map b.virtualNodes).sum τ)
    (moved : ∀ a p, slot b.virtualNodes cs' a p = (slot b.virtualNodes cs a p).map τ) (fuel : Nat) :
    Together (Networked (b.renumbering _ τ keeps) b cs cs')
      ((b.start timeStep domain steadyStateInit cs).initializeNetwork b.library fuel h)
      ((b.start timeStep domain steadyStateInit cs').initializeNetwork b.library fuel h) := by
  refine (prepare_together perm wellFormed keeps moved).returned.bind fun x y facts => ?_
  obtain ⟨ran,ran',both⟩ := facts
  have first := prepare_ok ran
  have second := prepare_ok ran'
  have size := size_topology wellFormed first.numSimNodes
  have size' := size_topology (wellFormed.perm perm) second.numSimNodes
  rw [← (perm.map b.virtualNodes).sum_eq] at size'
  have heaps := both.twins.initializeComponents perm both.heap
  have begun : (equations x.1 (x.1.initializeComponents x.2)).Renamed (b.renumbering _ τ keeps) (cs.map b.site)
      b.network (equations y.1 (y.1.initializeComponents y.2)) := by
    simp only [equations,first.matrix,first.right,first.left,second.matrix,second.right,second.left,size,size']
    exact ⟨⟨⟨rfl,rfl⟩,⟨rfl,rfl⟩,⟨rfl,rfl⟩⟩,.zero ..,.zero ..,.zero ..,heaps⟩
  dsimp only
  rw [both.twins.steady,both.twins.domain]
  split
  · rename_i steady
    have nonsingular := regular (first.steady ▸ steady.1) (first.domain ▸ steady.2) x.1 x.2 ran
    exact steadyStateInitialization_together perm solves both.twins begun nonsingular fuel
  · exact ⟨both.twins,begun⟩

end Network

section Factorizations
variable {ρ : Renaming V}

/-- The keys below `2 * n` have matrices and their factorizations, and the others at most the
factorization that `operator[]` makes. -/
structure Stocked (n : Nat) (s : MnaSolver V Real (Objects S U)) : Prop where
  present : ∀ key, key.toNat < n * 2 → ∃ m, s.mSwitchedMatrices.lookup key = some m ∧
    s.mLuFactorizations.lookup key = some ⟨m⟩
  absent : ∀ key, n * 2 ≤ key.toNat → s.mSwitchedMatrices.lookup key = none ∧
    ∀ lu, s.mLuFactorizations.lookup key = some lu → lu = .empty

/-- Solvers that have been initialized for two orders, and run. -/
structure Paired (ρ : Renaming V) (b : LocalSystem V S U Real) (cs cs' : List Nat)
    (x y : MnaSolver V Real (Objects S U) × Heap (Objects S U)) : Prop where
  twins : b.Twins cs cs' x.1 y.1
  equations : (equations x.1 x.2).Renamed ρ (cs.map b.site) b.network (equations y.1 y.2)
  size : x.1.mTmpLuFactorization.matrix.hasSize ρ.rows ρ.rows
  same : x.1.mTmpLuFactorization.matrix.Renumbered ρ.row ρ.row y.1.mTmpLuFactorization.matrix
  few : (cs.filterMap b.switchAt).length ≤ 32
  shown : ∃ closed, Shows (b.positions cs closed) x.1.mCurrentSwitchStatus ∧
    Shows (b.positions cs' closed) y.1.mCurrentSwitchStatus
  stocked : Stocked (cs.filterMap b.switchAt).length x.1
  stocked' : Stocked (cs.filterMap b.switchAt).length y.1
  matrices : ∀ closed key key' m m', Shows (b.positions cs closed) key → Shows (b.positions cs' closed) key' →
    x.1.mSwitchedMatrices.lookup key = some m → y.1.mSwitchedMatrices.lookup key' = some m' →
      m.hasSize ρ.rows ρ.rows ∧ m.Renumbered ρ.row ρ.row m'

theorem stocked_of {p s : MnaSolver V Real (Objects S U)} {k : Heap (Objects S U)}
    (initialized : Initialized p s k) (count : p.mSwitches.length = n) : Stocked n s := by
  subst count
  refine ⟨fun key below => ?_,fun key beyond => ?_⟩
  · obtain ⟨found,lu,computed,stored⟩ := initialized.present key below
    refine ⟨_,found,stored.trans (congrArg some ?_)⟩
    unfold PartialPivLU.compute at computed
    split at computed
    · exact (Except.ok.inj computed).symm
    · contradiction
  · obtain ⟨missing,none⟩ := initialized.absent key beyond
    refine ⟨missing,fun lu found => ?_⟩
    rw [none] at found
    contradiction

/-- The matrices have been stamped for the positions that their keys stand for. -/
theorem stamped_of {p s : MnaSolver V Real (Objects S U)} {k : Heap (Objects S U)}
    (initialized : Initialized p s k) (found : s.mSwitchedMatrices.lookup key = some m) :
    m = p.stampSwitched k key (.Zero p.size p.size) := by
  by_cases below : key.toNat < p.mSwitches.length * 2
  · rw [(initialized.present key below).1] at found
    exact (Option.some.inj found).symm
  · rw [(initialized.absent key (Nat.le_of_not_lt below)).1] at found
    contradiction

theorem stampable_of {domain : Domain} {steadyStateInit : Bool} {s : MnaSolver V Real (Objects S U)}
    {h : Heap (Objects S U)} (network : Network b.library domain steadyStateInit (b.topology cs) s)
    (sized : (equations s h).Sized r) (size : s.size = r) : Stampable r s := by
  refine ⟨sized.system,sized.right,sized.left,fun key m found => ?_⟩
  rw [network.switched,size] at found
  split at found
  · cases found
    exact ⟨rfl,rfl⟩
  · contradiction

theorem factorize_together {domain : Domain} {steadyStateInit : Bool} (perm : cs.Perm cs')
    {x y : MnaSolver V Real (Objects S U) × Heap (Objects S U)} (both : Networked ρ b cs cs' x y)
    (first : Network b.library domain steadyStateInit (b.topology cs) x.1)
    (second : Network b.library domain steadyStateInit (b.topology cs') y.1) (size : x.1.size = ρ.rows)
    (size' : y.1.size = ρ.rows) :
    Together (Paired ρ b cs cs') (x.1.factorize x.2) (y.1.factorize y.2) := by
  obtain ⟨matrices,factorizations,ran,_⟩ := factorize_run (b.keepSizes cs)
    ⟨first.powerComponents,first.switches⟩ (stampable_of first both.equations.sized size) first.factorizations x.2
  obtain ⟨matrices',factorizations',ran',_⟩ := factorize_run (b.keepSizes cs')
    ⟨second.powerComponents,second.switches⟩ (stampable_of second both.equations.sized' size')
    second.factorizations y.2
  have heaps : (x.1.setBehaviours .Simulation x.2).Renamed ρ (cs.map b.site) b.network
    (y.1.setBehaviours .Simulation y.2) := both.twins.setBehaviours perm .Simulation both.equations.heap
  obtain ⟨square,system⟩ := both.twins.stampSystem perm heaps both.equations.sized.system both.equations.system
  obtain ⟨vector,vector',g,g',stamped,stamped',long,vectors,ended⟩ :=
    (both.twins.withFields ⟨_,_,_,_,_,_,_⟩ ⟨_,_,_,_,_,_,_⟩).stampRightSide perm heaps
      both.equations.sized.right both.equations.right
  have ran := ran.trans (congrArg _ stamped)
  have ran' := ran'.trans (congrArg _ stamped')
  have initialized := initialized_of first ran
  have initialized' := initialized_of second ran'
  have few : x.1.mSwitches.length ≤ 32 := first.few
  have few' : y.1.mSwitches.length ≤ 32 := second.few
  have zero : HighBitsZero x.1.mSwitches.length x.1.mCurrentSwitchStatus :=
    first.status ▸ fun _ _ => BitVec.getLsbD_zero
  have zero' : HighBitsZero y.1.mSwitches.length y.1.mCurrentSwitchStatus :=
    second.status ▸ fun _ _ => BitVec.getLsbD_zero
  have shown := both.twins.first.shows few zero (x.1.setBehaviours .Simulation x.2)
  have shown' := both.twins.second.shows few' zero' (y.1.setBehaviours .Simulation y.2)
  rw [heaps.objects,← initialized'.status] at shown'
  rw [← initialized.status] at shown
  have stocked := stocked_of initialized (congrArg List.length both.twins.first.switches)
  have stocked' := stocked_of initialized' ((congrArg List.length both.twins.second.switches).trans
    (filterMap_length_perm perm))
  rw [both.twins.first.switches] at few
  rw [ran,ran']
  refine ⟨both.twins.withFields ⟨_,_,_,_,_,_,_⟩ ⟨_,_,_,_,_,_,_⟩,
    ⟨⟨square,long,both.equations.sized.left⟩,system,vectors,both.equations.left,ended⟩,square,system,few,
    ⟨_,shown,shown'⟩,stocked,stocked',?_⟩
  intro closed key key' m m' shows_ shows_' found found'
  obtain rfl := stamped_of initialized found
  obtain rfl := stamped_of initialized' found'
  have empty : (Matrix.Zero x.1.size x.1.size : Matrix Real).Renumbered ρ.row ρ.row
      (.Zero y.1.size y.1.size) := by
    rw [size,size']
    exact .zero ..
  exact both.twins.stampSwitched perm heaps shows_ shows_' ⟨size,size⟩ empty

end Factorizations

end DPsim.LocalSystem
