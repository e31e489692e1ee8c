import DPsim.MNAInitialization
import DPsim.Transition
import Mathlib.Algebra.Order.Ring.Rat

/-! The sizes of the matrices and vectors of the solver, from `prepare` through the steady-state
simulation and the factorizations to every step of a run. -/
namespace DPsim

/-- A square system matrix and two vectors with as many rows. -/
structure Equations.Sized {Real W : Type} (r : Nat) (e : Equations Real W) : Prop where
  system : e.system.hasSize r r
  right : e.right.hasSize r 1
  left : e.left.hasSize r 1

namespace MnaSolver
open Transition

variable {V : VarType} {Real W : Type}

/-- The methods that get references to matrices and vectors write coefficients only. -/
structure KeepSizes (system : SystemTopology Real W) : Prop where
  stamp : ∀ comp ∈ system.mComponents.filterMap (·.mna), ∀ h m, m.hasSize r c →
    (comp.mnaApplySystemMatrixStamp h m).hasSize r c
  rightStamp : ∀ comp ∈ system.mComponents.filterMap (·.mna), ∀ p, p.1.hasSize r c →
    (comp.mnaApplyRightSideVectorStamp p).1.hasSize r c
  step : ∀ comp ∈ system.mComponents.filterMap (·.mna), ∀ time e, e.Sized r → (comp.mnaStep time e).Sized r
  postStep : ∀ comp ∈ system.mComponents.filterMap (·.mna), ∀ time e, e.Sized r →
    (comp.mnaPostStep time e).Sized r
  switchStamp : ∀ sw ∈ system.mComponents.filterMap (·.mnaSwitch), ∀ h m, m.hasSize r c →
    (sw.mnaApplySystemMatrixStamp h m).hasSize r c
  positionStamp : ∀ sw ∈ system.mComponents.filterMap (·.mnaSwitch), ∀ closed h m, m.hasSize r c →
    (sw.mnaApplySwitchSystemMatrixStamp closed h m).hasSize r c
  switchStep : ∀ sw ∈ system.mComponents.filterMap (·.mnaSwitch), ∀ time e, e.Sized r →
    (sw.mnaStep time e).Sized r

structure WorksOn (system : SystemTopology Real W) (s : MnaSolver V Real W) : Prop where
  powerComponents : s.mPowerComponents = system.mComponents.filterMap (·.mna)
  switches : s.mSwitches = system.mComponents.filterMap (·.mnaSwitch)

theorem foldl_size {items : List α} {f : Matrix Real → α → Matrix Real}
    (keeps : ∀ a ∈ items, ∀ m, m.hasSize r c → (f m a).hasSize r c) {m : Matrix Real}
    (size : m.hasSize r c) : (items.foldl f m).hasSize r c :=
  List.foldlRecOn (motive := fun m => m.hasSize r c) items f size fun m size a member =>
    keeps a member m size

section Stamps
variable {system : SystemTopology Real W} {s : MnaSolver V Real W} (keep : KeepSizes system)
  (works : WorksOn system s)
include keep works

theorem stampPower_size (h : Heap W) {m : Matrix Real} (size : m.hasSize r c) :
    (s.stampPower h m).hasSize r c := by
  rw [stampPower,works.powerComponents]
  exact foldl_size (fun comp member m => keep.stamp comp member h m) size

theorem stampSystem_size (h : Heap W) {m : Matrix Real} (size : m.hasSize r c) :
    (s.stampSystem h m).hasSize r c := by
  rw [stampSystem,works.switches]
  exact foldl_size (fun sw member m => keep.switchStamp sw member h m) (stampPower_size keep works h size)

theorem stampSwitched_size (h : Heap W) (key : SwitchStatus) {m : Matrix Real} (size : m.hasSize r c) :
    (s.stampSwitched h key m).hasSize r c := by
  rw [stampSwitched,works.switches]
  apply foldl_size _ (stampPower_size keep works h size)
  intro p member m
  exact keep.positionStamp p.1 (List.fst_mem_of_mem_zipIdx member) _ h m

theorem stepPower_sized (time : Real) {e : Equations Real W} (sized : e.Sized r) :
    (s.stepPower time e).Sized r := by
  rw [stepPower,works.powerComponents]
  exact List.foldlRecOn _ _ sized fun e sized comp member => keep.step comp member time e sized

theorem stepSwitches_sized (time : Real) {e : Equations Real W} (sized : e.Sized r) :
    (s.stepSwitches time e).Sized r := by
  rw [stepSwitches,works.switches]
  exact List.foldlRecOn _ _ sized fun e sized sw member => keep.switchStep sw member time e sized

theorem postSteps_sized (time : Real) {e : Equations Real W} (sized : e.Sized r) :
    (s.postSteps time e).Sized r := by
  rw [postSteps,works.powerComponents]
  refine List.foldlRecOn _ _ sized fun e sized comp member => ?_
  have kept := keep.postStep comp member time e sized
  exact ⟨sized.system,kept.right,kept.left⟩

end Stamps

def systemRows (lib : Library Real W) (V : VarType) (system : SystemTopology Real W) : Nat :=
  rows V (UInt32.ofNat (rowCount lib V system))

/-- The first previous vector of the steady-state simulation has two rows for each node, as many
as the matrices have. -/
def PreviousConforms (lib : Library Real W) (V : VarType) (system : SystemTopology Real W) : Prop :=
  (2 * UInt32.ofNat (nodeCount V system)).toNat = systemRows lib V system

section Counters
variable {lib : Library Real W}

theorem double_toNat (fits : 2 * n < 2 ^ 32) : (2 * UInt32.ofNat n).toNat = 2 * n := by
  have small : n < 2 ^ 32 := by omega
  rw [UInt32.toNat_mul,UInt32.toNat_ofNat_of_lt' small]
  exact Nat.mod_eq_of_lt fits

theorem strides_eq_length_iff (nodes : List Node) :
    nodes.length = (nodes.map stride).sum ↔ ∀ node ∈ nodes, node.phaseType ≠ .ABC := by
  induction nodes with
  | nil => simp
  | cons node nodes ih =>
    have rest := length_le_strides nodes
    simp only [List.length_cons,List.map_cons,List.sum_cons,List.mem_cons,forall_eq_or_imp]
    rw [← ih]
    by_cases three : node.phaseType = .ABC
    · simp only [stride,three,if_true,ne_eq,not_true_eq_false,false_and,iff_false]
      omega
    · simp only [stride,three,if_false,ne_eq,not_false_eq_true,true_and]
      omega

/-- With complex variables the previous vector conforms exactly if all nodes are single-phase. -/
theorem previousConforms_complex (system : SystemTopology Real W)
    (fits : 2 * rowCount lib .complex system < 2 ^ 32) :
    PreviousConforms lib .complex system ↔ (∀ node ∈ networkNodes system, node.phaseType ≠ .ABC) ∧
      (virtualSum .complex (system.mComponents.filterMap (·.mna)) = 0 ∨ lib.defaultPhase ≠ .ABC) := by
  have network := length_le_strides (networkNodes system)
  rw [← strides_eq_length_iff]
  unfold PreviousConforms systemRows rows nodeCount
  simp only [rowCount] at fits ⊢
  by_cases three : lib.defaultPhase = .ABC
  · simp only [three,if_true,ne_eq,not_true_eq_false,or_false] at fits ⊢
    rw [double_toNat (by omega),double_toNat fits]
    omega
  · simp only [three,if_false,Nat.mul_one,ne_eq,not_false_eq_true,or_true,and_true] at fits ⊢
    rw [double_toNat (by omega),double_toNat fits]
    omega

/-- With real variables exactly if there are twice as many rows as nodes. -/
theorem previousConforms_real (system : SystemTopology Real W)
    (fits : 2 * rowCount lib .real system < 2 ^ 32) :
    PreviousConforms lib .real system ↔ 2 * nodeCount .real system = rowCount lib .real system := by
  have network := length_le_strides (networkNodes system)
  have count : nodeCount .real system ≤ rowCount lib .real system := by
    unfold nodeCount rowCount
    split <;> omega
  have small : rowCount lib .real system < 2 ^ 32 := by omega
  unfold PreviousConforms systemRows rows
  simp only
  rw [double_toNat (by omega),UInt32.toNat_ofNat_of_lt' small]

end Counters

variable [Field Real]

section SteadyState
variable (lib : Library Real W) {system : SystemTopology Real W} {s : MnaSolver V Real W}

theorem steadyStatePass_ok (keep : KeepSizes system) (works : WorksOn system s) {lu : PartialPivLU Real}
    (square : lu.matrix.hasSize r r) (time : Real) {e : Equations Real W} (sized : e.Sized r) :
    ∃ e', s.steadyStatePass lib lu time e = .ok e' ∧ e'.Sized r := by
  have stepped := stepPower_sized (s := s) keep works time (e := { e with
    right := e.right.setZero
    heap := s.stepSignals time e.heap }) ⟨sized.system,sized.right,sized.left⟩
  obtain ⟨left,solved,size⟩ := PartialPivLU.solve_ok lib.solution square stepped.right
  refine ⟨_,bind_ok.mpr ⟨left,solved,rfl⟩,?_⟩
  have posted := postSteps_sized keep works time (e := { s.stepPower time { e with
    right := e.right.setZero
    heap := s.stepSignals time e.heap } with left := left }) ⟨stepped.system,stepped.right,size⟩
  exact ⟨posted.system,posted.right,posted.left⟩

theorem sub_ok {a b : Matrix Real} (first : a.hasSize r c) (second : b.hasSize r c) :
    ∃ diff, a.sub b = .ok diff := by
  exact ⟨_,dif_pos ⟨first.1.trans second.1.symm,first.2.trans second.2.symm⟩⟩

variable [LinearOrder Real]

theorem steadyStateLoop_pass {lu : PartialPivLU Real} {fuel : Nat} {time : Real} {previous : Matrix Real}
    {e e' : Equations Real W} (early : time < 10) (passed : s.steadyStatePass lib lu time e = .ok e') :
    s.steadyStateLoop lib lu (fuel + 1) time previous e = (do
      let diff ← previous.sub e'.left
      if e'.left.lpNorm ≠ 0 ∧ diff.lpNorm / e'.left.lpNorm < 1 / 10000 then return e'
      else s.steadyStateLoop lib lu fuel (time + s.mTimeStep) e'.left e') := by
  rw [steadyStateLoop,if_pos early,passed]
  rfl

theorem steadyStateLoop_sized (keep : KeepSizes system) (works : WorksOn system s) (lu : PartialPivLU Real)
    (square : lu.matrix.hasSize r r) (fuel : Nat) (time : Real) (previous : Matrix Real)
    (conforms : previous.hasSize r 1) (e : Equations Real W) (sized : e.Sized r) :
    s.steadyStateLoop lib lu fuel time previous e ≠ .error .sizeMismatch ∧
      ∀ e', s.steadyStateLoop lib lu fuel time previous e = .ok e' → e'.Sized r := by
  induction fuel generalizing time previous e with
  | zero => exact ⟨by simp [steadyStateLoop],by simp [steadyStateLoop]⟩
  | succ fuel ih =>
    by_cases early : time < 10
    · obtain ⟨e₁,passed,sized₁⟩ := steadyStatePass_ok lib keep works square time sized
      obtain ⟨diff,subtracted⟩ := sub_ok conforms sized₁.left
      rw [steadyStateLoop_pass lib early passed,subtracted]
      dsimp only [bind,Except.bind]
      split
      · exact ⟨by simp [pure,Except.pure],fun e' result => Except.ok.inj result ▸ sized₁⟩
      · exact ih (time + s.mTimeStep) e₁.left sized₁.left e₁ sized₁
    · unfold steadyStateLoop
      simp only [early,if_false]
      exact ⟨by simp [pure,Except.pure],fun e' result => Except.ok.inj result ▸ sized⟩

/-- A first previous vector of another size is found in the first pass. -/
theorem steadyStateLoop_mismatch (keep : KeepSizes system) (works : WorksOn system s)
    (lu : PartialPivLU Real) (square : lu.matrix.hasSize r r) (fuel : Nat) {time : Real}
    (early : time < 10) (previous : Matrix Real) (differs : previous.rows ≠ r) (e : Equations Real W)
    (sized : e.Sized r) : s.steadyStateLoop lib lu (fuel + 1) time previous e = .error .sizeMismatch := by
  obtain ⟨e₁,passed,sized₁⟩ := steadyStatePass_ok lib keep works square time sized
  have mismatch : previous.sub e₁.left = .error .sizeMismatch :=
    Matrix.sub_mismatch.mpr fun same => differs (same.1.trans sized₁.left.1)
  rw [steadyStateLoop_pass lib early passed,mismatch]
  rfl

end SteadyState

structure Stampable (r : Nat) (s : MnaSolver V Real W) : Prop where
  system : s.mTmpSystemMatrix.hasSize r r
  right : s.mRightSideVector.hasSize r 1
  left : s.mLeftSideVector.hasSize r 1
  switched : ∀ key m, s.mSwitchedMatrices.lookup key = some m → m.hasSize r r

structure Shaped (r : Nat) (s : MnaSolver V Real W) : Prop extends Stampable r s where
  factorization : s.mTmpLuFactorization.matrix.hasSize r r
  factorizations : ∀ key lu, s.mLuFactorizations.lookup key = some lu → lu.matrix.hasSize r r

section Initialization
variable (lib : Library Real W) {system : SystemTopology Real W} {s : MnaSolver V Real W}

def steadyStateStart (s : MnaSolver V Real W) (h : Heap W) : Equations Real W :=
  ⟨s.stampSystem (s.setBehaviours .Initialization h) s.mTmpSystemMatrix,s.mRightSideVector,
    s.mLeftSideVector,s.setBehaviours .Initialization h⟩

omit [Field Real] in
theorem steadyStateStart_sized (keep : KeepSizes system) (works : WorksOn system s)
    (stampable : Stampable r s) (h : Heap W) : (s.steadyStateStart h).Sized r :=
  ⟨stampSystem_size keep works _ stampable.system,stampable.right,stampable.left⟩

variable [LinearOrder Real]

theorem steadyStateInitialization_loop {h : Heap W} (sized : (s.steadyStateStart h).Sized r) (fuel : Nat) :
    s.steadyStateInitialization lib fuel h = (do
      let e ← s.steadyStateLoop lib ⟨(s.steadyStateStart h).system⟩ fuel 0
        (.Zero (2 * s.mNumNodes).toNat 1) (s.steadyStateStart h)
      return ({ s with
        mTmpSystemMatrix := e.system.setZero
        mTmpLuFactorization := ⟨(s.steadyStateStart h).system⟩
        mRightSideVector := e.right.setZero
        mLeftSideVector := e.left }, e.heap)) := by
  have computed : PartialPivLU.compute (s.stampSystem (s.setBehaviours .Initialization h)
      s.mTmpSystemMatrix) = .ok ⟨(s.steadyStateStart h).system⟩ := PartialPivLU.compute_ok sized.system
  unfold steadyStateInitialization
  dsimp only
  rw [computed]
  rfl

theorem steadyStateInitialization_sized (keep : KeepSizes system) (works : WorksOn system s)
    (stampable : Stampable r s) (conforms : (2 * s.mNumNodes).toNat = r) (fuel : Nat) (h : Heap W) :
    s.steadyStateInitialization lib fuel h ≠ .error .sizeMismatch ∧
      ∀ t h', s.steadyStateInitialization lib fuel h = .ok (t, h') → Stampable r t := by
  have start := steadyStateStart_sized keep works stampable h
  obtain ⟨conforming,sized⟩ := steadyStateLoop_sized lib keep works ⟨(s.steadyStateStart h).system⟩
    start.system fuel 0 (.Zero (2 * s.mNumNodes).toNat 1) ⟨conforms,rfl⟩ (s.steadyStateStart h) start
  rw [steadyStateInitialization_loop lib start]
  constructor
  · intro failed
    rcases bind_error.mp failed with stopped | ⟨e,_,result⟩
    · exact conforming stopped
    · cases result
  · intro t h' ran
    obtain ⟨e,looped,result⟩ := bind_ok.mp ran
    cases result
    have kept := sized e looped
    exact ⟨kept.system.setZero,kept.right.setZero,kept.left,stampable.switched⟩

theorem steadyStateInitialization_mismatch [IsStrictOrderedRing Real] (keep : KeepSizes system)
    (works : WorksOn system s) (stampable : Stampable r s) (differs : (2 * s.mNumNodes).toNat ≠ r)
    (fuel : Nat) (h : Heap W) : s.steadyStateInitialization lib (fuel + 1) h = .error .sizeMismatch := by
  have start := steadyStateStart_sized keep works stampable h
  rw [steadyStateInitialization_loop lib start]
  exact bind_error.mpr (.inl (steadyStateLoop_mismatch lib keep works ⟨(s.steadyStateStart h).system⟩
    start.system fuel (by norm_num) (.Zero (2 * s.mNumNodes).toNat 1) differs (s.steadyStateStart h) start))

end Initialization

section Factorization
variable {system : SystemTopology Real W} {s : MnaSolver V Real W} (keep : KeepSizes system)
  (works : WorksOn system s)
include keep works

omit [Field Real] in
theorem factorize_entries_run (h : Heap W) {entries : List ((_ : SwitchStatus) × Matrix Real)}
    (square : ∀ sys ∈ entries, sys.2.hasSize r r)
    (maps : AList (fun _ : SwitchStatus => Matrix Real) × AList (fun _ : SwitchStatus => PartialPivLU Real)) :
    ∃ maps', entries.foldlM (s.factorizeSwitch h) maps = .ok maps' := by
  apply foldlM_returns
  intro sys member maps
  have computed := PartialPivLU.compute_ok (stampSwitched_size keep works h sys.1 (square sys member))
  exact ⟨_,bind_ok.mpr ⟨_,computed,rfl⟩⟩

omit [Field Real] in
theorem factorizeSwitched_shaped (h : Heap W) (fresh : s.mLuFactorizations = ∅)
    (square : ∀ key m, s.mSwitchedMatrices.lookup key = some m → m.hasSize r r) :
    ∃ matrices factorizations, s.factorizeSwitched h = .ok { s with
        mSwitchedMatrices := matrices
        mLuFactorizations := factorizations } ∧
      (∀ key m, matrices.lookup key = some m → m.hasSize r r) ∧
      ∀ key lu, factorizations.lookup key = some lu → lu.matrix.hasSize r r := by
  obtain ⟨maps,ran⟩ := factorize_entries_run keep works h (r := r)
    (fun sys member => square sys.1 sys.2 (AList.mem_lookup_iff.mpr member))
    (s.mSwitchedMatrices,s.mLuFactorizations)
  have done : s.factorizeSwitched h = .ok { s with
      mSwitchedMatrices := maps.1
      mLuFactorizations := maps.2 } := bind_ok.mpr ⟨maps,ran,rfl⟩
  obtain ⟨matrices,factorizations,same,entries⟩ := factorizeSwitched_ok done
  refine ⟨maps.1,maps.2,done,?_,?_⟩
  · intro key m found
    obtain rfl : maps.1 = matrices := congrArg mSwitchedMatrices same
    cases known : s.mSwitchedMatrices.lookup key with
    | none =>
      rw [((entries key).2 known).1] at found
      contradiction
    | some empty =>
      rw [((entries key).1 empty known).1] at found
      exact Option.some.inj found ▸ stampSwitched_size keep works h key (square key empty known)
  · intro key lu found
    obtain rfl : maps.2 = factorizations := congrArg mLuFactorizations same
    cases known : s.mSwitchedMatrices.lookup key with
    | none =>
      rw [((entries key).2 known).2,fresh] at found
      contradiction
    | some empty =>
      have size := stampSwitched_size keep works h key (square key empty known)
      obtain ⟨lu',computed,stored⟩ := ((entries key).1 empty known).2
      rw [PartialPivLU.compute_ok size] at computed
      rw [stored] at found
      exact Option.some.inj found ▸ Except.ok.inj computed ▸ size

omit [Field Real] in
theorem stampRightSide_size (h : Heap W) (size : s.mRightSideVector.hasSize r 1) :
    (s.stampRightSide h).1.mRightSideVector.hasSize r 1 := by
  have folded : (s.mPowerComponents.foldl (fun p comp => comp.mnaApplyRightSideVectorStamp p)
      (s.mRightSideVector,h)).1.hasSize r 1 := by
    rw [works.powerComponents]
    exact List.foldlRecOn (motive := fun p => p.1.hasSize r 1) (b := (s.mRightSideVector,h)) _ _ size
      fun p size comp member => keep.rightStamp comp member p size
  exact folded

omit [Field Real] in
theorem factorize_run (stampable : Stampable r s) (fresh : s.mLuFactorizations = ∅) (h : Heap W) :
    ∃ matrices factorizations, s.factorize h = .ok ((({ s with
        mTmpSystemMatrix := s.stampSystem (s.setBehaviours .Simulation h) s.mTmpSystemMatrix
        mTmpLuFactorization := ⟨s.stampSystem (s.setBehaviours .Simulation h) s.mTmpSystemMatrix⟩
        mSwitchedMatrices := matrices
        mLuFactorizations := factorizations } : MnaSolver V Real W).updateSwitchStatus
          (s.setBehaviours .Simulation h)).stampRightSide (s.setBehaviours .Simulation h)) ∧
      (∀ key m, matrices.lookup key = some m → m.hasSize r r) ∧
      ∀ key lu, factorizations.lookup key = some lu → lu.matrix.hasSize r r := by
  have square := stampSystem_size keep works (s.setBehaviours .Simulation h) stampable.system
  have stored : s.factorizeSystem (s.setBehaviours .Simulation h) = .ok { s with
      mTmpSystemMatrix := s.stampSystem (s.setBehaviours .Simulation h) s.mTmpSystemMatrix
      mTmpLuFactorization := ⟨s.stampSystem (s.setBehaviours .Simulation h) s.mTmpSystemMatrix⟩ } :=
    bind_ok.mpr ⟨_,PartialPivLU.compute_ok square,rfl⟩
  obtain ⟨matrices,factorizations,switched,stamped,factorized⟩ := factorizeSwitched_shaped
    (s := { s with
      mTmpSystemMatrix := s.stampSystem (s.setBehaviours .Simulation h) s.mTmpSystemMatrix
      mTmpLuFactorization := ⟨s.stampSystem (s.setBehaviours .Simulation h) s.mTmpSystemMatrix⟩ })
    keep ⟨works.powerComponents,works.switches⟩ (s.setBehaviours .Simulation h) fresh stampable.switched
  exact ⟨_,_,bind_ok.mpr ⟨_,stored,bind_ok.mpr ⟨_,switched,rfl⟩⟩,stamped,factorized⟩

omit [Field Real] in
theorem factorize_shaped (stampable : Stampable r s) (fresh : s.mLuFactorizations = ∅) (h : Heap W) :
    ∃ t h', s.factorize h = .ok (t, h') ∧ Shaped r t := by
  obtain ⟨matrices,factorizations,ran,stamped,factorized⟩ := factorize_run keep works stampable fresh h
  have square := stampSystem_size keep works (s.setBehaviours .Simulation h) stampable.system
  have right := stampRightSide_size keep works (s.setBehaviours .Simulation h) stampable.right
  exact ⟨_,_,ran,⟨square,right,stampable.left,stamped⟩,square,factorized⟩

end Factorization

section Steps
variable (lib : Library Real W) {system : SystemTopology Real W} {s : MnaSolver V Real W}

def KeyKnown (r : Nat) (s : MnaSolver V Real W) : Prop :=
  s.mSwitchedMatrices.entries = [] ∨ r = 0 ∨ s.mCurrentSwitchStatus ∈ s.mLuFactorizations

theorem selected_rows (shaped : Shaped r s) : s.selected.1.matrix.rows = r ↔ KeyKnown r s := by
  unfold selected KeyKnown
  by_cases none : s.mSwitchedMatrices.entries = []
  · simp only [none,if_true,true_or,iff_true]
    exact shaped.factorization.1
  simp only [none,if_false,false_or]
  unfold factorizationAt
  cases known : s.mLuFactorizations.lookup s.mCurrentSwitchStatus with
  | some lu =>
    have member : s.mCurrentSwitchStatus ∈ s.mLuFactorizations :=
      AList.lookup_isSome.mp (known ▸ rfl)
    simp only [member,or_true,iff_true]
    exact (shaped.factorizations _ lu known).1
  | none =>
    simp only [AList.lookup_eq_none.mp known,or_false]
    exact eq_comm

theorem selected_shaped (shaped : Shaped r s) (known : KeyKnown r s) :
    s.selected.1.matrix.hasSize r r ∧ Shaped r s.selected.2 := by
  unfold selected
  by_cases none : s.mSwitchedMatrices.entries = []
  · rw [if_pos none]
    exact ⟨shaped.factorization,shaped⟩
  rw [if_neg none]
  unfold factorizationAt
  cases found : s.mLuFactorizations.lookup s.mCurrentSwitchStatus with
  | some lu => exact ⟨shaped.factorizations _ lu found,shaped⟩
  | none =>
    have absent := AList.lookup_eq_none.mp found
    obtain rfl : r = 0 := (known.resolve_left none).resolve_right absent
    refine ⟨⟨rfl,rfl⟩,⟨shaped.system,shaped.right,shaped.left,shaped.switched⟩,shaped.factorization,?_⟩
    intro key lu stored
    by_cases same : key = s.mCurrentSwitchStatus
    · rw [same,AList.lookup_insert] at stored
      exact Option.some.inj stored ▸ ⟨rfl,rfl⟩
    · rw [AList.lookup_insert_ne same] at stored
      exact shaped.factorizations key lu stored

theorem solve_conforms_iff (shaped : Shaped r s) : (∃ t, s.solve lib = .ok t) ↔ KeyKnown r s := by
  rw [← selected_rows shaped,solve_selected]
  constructor
  · rintro ⟨t,ran⟩
    obtain ⟨left,solved,_⟩ := bind_ok.mp ran
    unfold PartialPivLU.solve at solved
    split at solved
    · rename_i same
      exact same.trans shaped.right.1
    · contradiction
  · intro rows
    exact ⟨_,bind_ok.mpr ⟨_,if_pos (rows.trans shaped.right.1.symm),rfl⟩⟩

theorem solve_shaped (shaped : Shaped r s) (known : KeyKnown r s) : ∃ t, s.solve lib = .ok t ∧ Shaped r t := by
  obtain ⟨square,kept⟩ := selected_shaped shaped known
  obtain ⟨left,solved,size⟩ := PartialPivLU.solve_ok lib.solution square shaped.right
  refine ⟨{ s.selected.2 with mLeftSideVector := left },?_,⟨kept.system,kept.right,size,kept.switched⟩,
    kept.factorization,kept.factorizations⟩
  rw [solve_selected]
  exact bind_ok.mpr ⟨left,solved,rfl⟩

theorem stepComponents_shaped (keep : KeepSizes system) (works : WorksOn system s) (shaped : Shaped r s)
    (time : Real) (h : Heap W) : Shaped r (s.stepComponents time h).1 := by
  have power := stepPower_sized (s := s) keep works time
    (e := ⟨s.mTmpSystemMatrix,s.mRightSideVector.setZero,s.mLeftSideVector,s.stepSignals time h⟩)
    ⟨shaped.system,shaped.right.setZero,shaped.left⟩
  have switches := stepSwitches_sized keep works time power
  exact ⟨⟨switches.system,switches.right,switches.left,shaped.switched⟩,shaped.factorization,
    shaped.factorizations⟩

omit [Field Real] in
theorem finishStep_shaped (keep : KeepSizes system) (works : WorksOn system s) (shaped : Shaped r s)
    (time : Real) (h : Heap W) : Shaped r (s.finishStep lib time h).1 := by
  have posted := postSteps_sized (s := s) keep works time
    (e := ⟨s.mTmpSystemMatrix,s.mRightSideVector,s.mLeftSideVector,h⟩)
    ⟨shaped.system,shaped.right,shaped.left⟩
  exact ⟨⟨shaped.system,posted.right,posted.left,shaped.switched⟩,shaped.factorization,
    shaped.factorizations⟩

/-- A step conforms exactly if its key has a factorization of the matrix's size. -/
theorem step_conforms_iff (keep : KeepSizes system) (works : WorksOn system s) (shaped : Shaped r s)
    (time : Real) (h : Heap W) : (∃ result, s.step lib time h = .ok result) ↔ KeyKnown r s := by
  have stepped := stepComponents_shaped keep works shaped time h
  have same : KeyKnown r (s.stepComponents time h).1 ↔ KeyKnown r s := Iff.rfl
  rw [← same,← solve_conforms_iff lib stepped]
  constructor
  · rintro ⟨result,ran⟩
    obtain ⟨u,solved,_⟩ := solverStep_ok.mp ran
    exact ⟨u,solved⟩
  · rintro ⟨u,solved⟩
    exact ⟨_,solverStep_ok.mpr ⟨u,solved,rfl,rfl,rfl⟩⟩

theorem step_shaped (keep : KeepSizes system) (works : WorksOn system s) (shaped : Shaped r s)
    (ran : s.step lib time h = .ok (nextTime, t, h')) : Shaped r t := by
  have stepped := stepComponents_shaped keep works shaped time h
  have known := (step_conforms_iff lib keep works shaped time h).mp ⟨_,ran⟩
  obtain ⟨u,solved,_,rfl,rfl⟩ := solverStep_ok.mp ran
  obtain ⟨u',solved',kept⟩ := solve_shaped lib stepped known
  obtain rfl : u = u' := Except.ok.inj (solved.symm.trans solved')
  obtain ⟨_,_,frame,_⟩ := solve_frame solved
  have worksOn : WorksOn system u := by
    rw [frame]
    exact ⟨works.powerComponents,works.switches⟩
  have finished := finishStep_shaped lib keep worksOn kept time (s.stepComponents time h).2
  exact ⟨⟨finished.system,finished.right,finished.left,finished.switched⟩,finished.factorization,
    finished.factorizations⟩

end Steps

section Runs
variable {lib : Library Real W} {domain : Domain} {steadyStateInit : Bool} {system : SystemTopology Real W}

/-- What holds of a solver in every state of a run: `r` rows and `n` switches. -/
structure Running (system : SystemTopology Real W) (r n : Nat) (s : MnaSolver V Real W) : Prop where
  works : WorksOn system s
  shaped : Shaped r s
  entries : s.mSwitchedMatrices.entries = [] ↔ n = 0
  keys : r ≠ 0 → ∀ key, key ∈ s.mLuFactorizations ↔ key.toNat < n * 2

omit [Field Real] in
theorem Running.known_iff {s : MnaSolver V Real W} (running : Running system r n s) :
    KeyKnown r s ↔ n = 0 ∨ r = 0 ∨ s.mCurrentSwitchStatus.toNat < n * 2 := by
  unfold KeyKnown
  rw [running.entries]
  by_cases rows : r = 0
  · simp [rows]
  · rw [running.keys rows]

theorem Running.step {s t : MnaSolver V Real W} (keep : KeepSizes system) (running : Running system r n s)
    (advances : Advances lib s call t) : Running system r n t := by
  obtain ⟨nextTime,h',ran⟩ := advances
  have shaped := step_shaped lib keep running.works running.shaped ran
  have known := (step_conforms_iff lib keep running.works running.shaped call.1 call.2).mp ⟨_,ran⟩
  obtain ⟨_,_,_,factorizations,rfl,same⟩ := step_frame ran
  refine ⟨⟨running.works.powerComponents,running.works.switches⟩,shaped,running.entries,fun rows => ?_⟩
  have kept : factorizations = s.mLuFactorizations :=
    same (known.imp_right fun found => found.resolve_left rows)
  rw [kept]
  exact running.keys rows

/-- No switch, no key. -/
theorem entries_nil_iff {α : Type} {maps : AList fun _ : SwitchStatus => α}
    (keys : ∀ key, key ∈ maps ↔ key.toNat < n * 2) : maps.entries = [] ↔ n = 0 := by
  constructor
  · intro none
    by_contra positive
    have member := (keys 0).mpr (by simp; omega)
    simp [AList.mem_keys,AList.keys,none] at member
  · rintro rfl
    rw [List.eq_nil_iff_forall_not_mem]
    rintro ⟨key,a⟩ member
    have present : key ∈ maps := AList.lookup_isSome.mp (AList.mem_lookup_iff.mpr member ▸ rfl)
    have below := (keys key).mp present
    omega

section Keys
variable {p s : MnaSolver V Real W} {g : Heap W} (initialized : Initialized p s g) (key : SwitchStatus)
include initialized

theorem Initialized.matrix_keys : key ∈ s.mSwitchedMatrices ↔ key.toNat < p.mSwitches.length * 2 := by
  constructor
  · intro member
    by_contra beyond
    exact AList.lookup_eq_none.mp (initialized.absent key (by omega)).1 member
  · intro below
    exact AList.lookup_isSome.mp ((initialized.present key below).1 ▸ rfl)

theorem Initialized.factorization_keys :
    key ∈ s.mLuFactorizations ↔ key.toNat < p.mSwitches.length * 2 := by
  constructor
  · intro member
    by_contra beyond
    exact AList.lookup_eq_none.mp (initialized.absent key (by omega)).2 member
  · intro below
    obtain ⟨_,lu,_,found⟩ := initialized.present key below
    exact AList.lookup_isSome.mp (found ▸ rfl)

end Keys

theorem running_of {p s : MnaSolver V Real W} {g : Heap W}
    (network : Network lib domain steadyStateInit system p) (initialized : Initialized p s g)
    (shaped : Shaped r s) :
    Running system r (system.mComponents.filterMap (·.mnaSwitch)).length s := by
  have count : p.mSwitches.length = (system.mComponents.filterMap (·.mnaSwitch)).length :=
    congrArg List.length network.switches
  rw [← count]
  exact ⟨⟨initialized.powerComponents.trans network.powerComponents,
    initialized.switches.trans network.switches⟩,shaped,entries_nil_iff (initialized.matrix_keys ·),
    fun _ => initialized.factorization_keys⟩

end Runs

section Initialize
variable {lib : Library Real W} {timeStep : Real} {domain : Domain} {steadyStateInit : Bool}
  {system : SystemTopology Real W} {h : Heap W}

theorem prepared_stampable {p : MnaSolver V Real W} (prepared : Prepared lib domain steadyStateInit system p) :
    Stampable (systemRows lib V system) p := by
  have size : p.size = systemRows lib V system := by
    rw [size,prepared.numSimNodes,systemRows]
  refine ⟨?_,?_,?_,?_⟩
  · simp [prepared.matrix,size]
  · simp [prepared.right,size]
  · simp [prepared.left,size]
  · intro key m found
    rw [prepared.switched] at found
    split at found
    · cases found
      simp [size]
    · contradiction

variable [LinearOrder Real]

/-- `initializeNetwork` finds operands that do not conform exactly in the steady-state simulation,
when the first previous vector has another size. -/
theorem initializeNetwork_conforms_iff [IsStrictOrderedRing Real] (keep : KeepSizes system)
    {p : MnaSolver V Real W} {k : Heap W}
    (prepared : (make timeStep domain steadyStateInit system : MnaSolver V Real W).prepare lib h =
      .ok (p, k)) (fuel : Nat) :
    ((make timeStep domain steadyStateInit system : MnaSolver V Real W).initializeNetwork lib (fuel + 1) h ≠
        .error .sizeMismatch ↔
      ¬ (steadyStateInit = true ∧ domain = .DP) ∨ PreviousConforms lib V system) ∧
    ∀ q g, (make timeStep domain steadyStateInit system : MnaSolver V Real W).initializeNetwork lib
        (fuel + 1) h = .ok (q, g) → Stampable (systemRows lib V system) q := by
  have facts := prepare_ok prepared
  have stampable := prepared_stampable facts
  have works : WorksOn system p := ⟨facts.powerComponents,facts.switches⟩
  have previous : PreviousConforms lib V system ↔ (2 * p.mNumNodes).toNat = systemRows lib V system := by
    rw [PreviousConforms,facts.numNodes]
  unfold initializeNetwork
  rw [prepared]
  dsimp only [bind,Except.bind]
  rw [facts.steady,facts.domain]
  by_cases simulated : steadyStateInit = true ∧ domain = .DP
  · rw [if_pos simulated,previous]
    by_cases conforms : (2 * p.mNumNodes).toNat = systemRows lib V system
    · obtain ⟨found,sized⟩ := steadyStateInitialization_sized lib keep works stampable conforms
        (fuel + 1) (p.initializeComponents k)
      exact ⟨⟨fun _ => .inr conforms,fun _ => found⟩,sized⟩
    · rw [steadyStateInitialization_mismatch lib keep works stampable conforms]
      exact ⟨⟨fun ne => absurd rfl ne,fun either => absurd (either.resolve_left (not_not.mpr simulated)) conforms⟩,
        by simp⟩
  · rw [if_neg simulated]
    refine ⟨⟨fun _ => .inl simulated,fun _ => by simp [pure,Except.pure]⟩,fun q g result => ?_⟩
    cases result
    exact stampable

end Initialize

/-- What `initialize` leaves is the start of a run. -/
theorem initialized_running [LinearOrder Real] [IsStrictOrderedRing Real] {lib : Library Real W} {fuel : Nat}
    {timeStep : Real} {domain : Domain} {steadyStateInit : Bool} {system : SystemTopology Real W}
    {h g : Heap W} {s : MnaSolver V Real W} (keep : KeepSizes system)
    (ran : (make timeStep domain steadyStateInit system : MnaSolver V Real W).initializeSystem lib
      (fuel + 1) h = .ok (s, g)) :
    Running system (systemRows lib V system) (system.mComponents.filterMap (·.mnaSwitch)).length s ∧
      HighBitsZero s.mSwitches.length s.mCurrentSwitchStatus := by
  obtain ⟨⟨q,k⟩,done,rest⟩ := bind_ok.mp ran
  obtain ⟨_,prepared,_⟩ := bind_ok.mp done
  have stampable := (initializeNetwork_conforms_iff keep prepared fuel).2 q k done
  have facts := initializeNetwork_ok done
  obtain ⟨s',g',ended,shaped⟩ :=
    factorize_shaped keep ⟨facts.powerComponents,facts.switches⟩ stampable facts.factorizations k
  obtain ⟨rfl,rfl⟩ := Prod.mk.inj (Except.ok.inj (ended.symm.trans rest))
  have initialized := initialized_of facts ended
  exact ⟨running_of facts initialized shaped,initialized.high facts⟩

/-- Initialization conforms exactly if there is no steady-state simulation or its first previous
vector conforms; then all states of all runs are shaped, and a step conforms exactly if there
are no switches, no rows, or the recorded status is among the created keys. -/
theorem shapes_conform [LinearOrder Real] [IsStrictOrderedRing Real] (lib : Library Real W) (fuel : Nat)
    (timeStep : Real) (domain : Domain) (steadyStateInit : Bool) (system : SystemTopology Real W)
    (h : Heap W)
    (prepared : ∃ p k, (make timeStep domain steadyStateInit system : MnaSolver V Real W).prepare lib h =
      .ok (p, k)) (keep : KeepSizes system) :
    ((make timeStep domain steadyStateInit system : MnaSolver V Real W).initializeSystem lib (fuel + 1) h ≠
        .error .sizeMismatch ↔
      ¬ (steadyStateInit = true ∧ domain = .DP) ∨ PreviousConforms lib V system) ∧
    ∀ s g, (make timeStep domain steadyStateInit system : MnaSolver V Real W).initializeSystem lib
        (fuel + 1) h = .ok (s, g) →
      ∀ trace t, Path (Advances lib) s trace t → Shaped (systemRows lib V system) t ∧
        ∀ time g', (∃ result, t.step lib time g' = .ok result) ↔
          (system.mComponents.filterMap (·.mnaSwitch)).length = 0 ∨ systemRows lib V system = 0 ∨
          t.mCurrentSwitchStatus.toNat < (system.mComponents.filterMap (·.mnaSwitch)).length * 2 := by
  obtain ⟨p,k,prepared⟩ := prepared
  obtain ⟨network,stampable⟩ := initializeNetwork_conforms_iff keep prepared fuel
  have factorized {q : MnaSolver V Real W} {g : Heap W}
      (done : (make timeStep domain steadyStateInit system : MnaSolver V Real W).initializeNetwork lib
        (fuel + 1) h = .ok (q, g)) : ∃ s g', q.factorize g = .ok (s, g') ∧
        Shaped (systemRows lib V system) s := by
    have facts := initializeNetwork_ok done
    exact factorize_shaped keep ⟨facts.powerComponents,facts.switches⟩ (stampable q g done)
      facts.factorizations g
  refine ⟨?_,fun s g ran trace t path => ?_⟩
  · rw [← network]
    refine not_congr ⟨fun failed => ?_,fun failed => bind_error.mpr (.inl failed)⟩
    rcases bind_error.mp failed with stopped | ⟨⟨q,g⟩,done,rest⟩
    · exact stopped
    · obtain ⟨s,g',ended,_⟩ := factorized done
      exact absurd (ended.symm.trans rest) (by simp)
  · have running := path.invariant (P := Running system (systemRows lib V system)
      (system.mComponents.filterMap (·.mnaSwitch)).length)
      (fun _ _ _ running advances => running.step keep advances) (initialized_running keep ran).1
    refine ⟨running.shaped,fun time g' => ?_⟩
    rw [step_conforms_iff lib keep running.works running.shaped time g',running.known_iff]

theorem threeNodes_keepSizes (address : Nat) (count : UInt32) :
    KeepSizes (threeNodes [virtualSource address count]) := by
  constructor <;> simp [threeNodes,virtualSource]

theorem shapes_conform_threeNodes :
    ((make 1 .DP true (threeNodes [virtualSource 0 1]) : MnaSolver .complex ℚ Unit).initializeSystem
        singlePhase (0 + 1) noNodes ≠ .error .sizeMismatch ↔
      ¬ (true = true ∧ Domain.DP = .DP) ∨
        PreviousConforms singlePhase .complex (threeNodes [virtualSource 0 1])) ∧
    ∀ s g, (make 1 .DP true (threeNodes [virtualSource 0 1]) : MnaSolver .complex ℚ Unit).initializeSystem
        singlePhase (0 + 1) noNodes = .ok (s, g) →
      ∀ trace t, Path (Advances singlePhase) s trace t →
        Shaped (systemRows singlePhase .complex (threeNodes [virtualSource 0 1])) t ∧
        ∀ time g', (∃ result, t.step singlePhase time g' = .ok result) ↔
          ((threeNodes [virtualSource 0 1]).mComponents.filterMap (·.mnaSwitch)).length = 0 ∨
          systemRows singlePhase .complex (threeNodes [virtualSource 0 1]) = 0 ∨
          t.mCurrentSwitchStatus.toNat <
            ((threeNodes [virtualSource 0 1]).mComponents.filterMap (·.mnaSwitch)).length * 2 :=
  shapes_conform singlePhase 0 1 .DP true (threeNodes [virtualSource 0 1]) noNodes ⟨_,_,rfl⟩
    (threeNodes_keepSizes 0 1)

/-- One three-phase node is enough for vectors of different sizes: ten rows against six. -/
theorem three_phase_start_mismatch :
    KeepSizes (threeNodes [virtualSource 0 1]) ∧
    (∃ p k, (make 1 .DP true (threeNodes [virtualSource 0 1]) : MnaSolver .complex ℚ Unit).prepare
      singlePhase noNodes = .ok (p, k)) ∧
    (make 1 .DP true (threeNodes [virtualSource 0 1]) : MnaSolver .complex ℚ Unit).initializeSystem
      singlePhase 1 noNodes = .error .sizeMismatch :=
  ⟨threeNodes_keepSizes 0 1,⟨_,_,rfl⟩,rfl⟩

end MnaSolver
end DPsim
