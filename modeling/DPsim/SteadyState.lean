import DPsim.MNAShapes
import Mathlib.Data.Rat.Floor

/-! The passes of the loop in `steadyStateInitialization`: how many there are, whether the quotient
that ends them is defined, and what they leave to the rest of `initialize`. -/
namespace DPsim

namespace MnaSolver

variable {V : VarType} {W : Type}

/-- `maxDiff / max`, where the division is defined. -/
def relativeChange (previous current : Matrix ℚ) : Option ℚ :=
  match previous.sub current with
  | .ok diff => if current.lpNorm = 0 then none else some (diff.lpNorm / current.lpNorm)
  | .error _ => none

def Small (previous current : Matrix ℚ) : Prop :=
  ∃ change, relativeChange previous current = some change ∧ change < 1 / 10000

/-- The loop of `steadyStateInitialization`, with the states after its passes as result. -/
def steadyStatePasses (lib : Library ℚ W) (s : MnaSolver V ℚ W) (lu : PartialPivLU ℚ) :
    Nat → ℚ → Matrix ℚ → Equations ℚ W → Except Fault (List (Equations ℚ W))
  | 0, _, _, _ => .error .outOfFuel
  | fuel + 1, time, prevLeftSideVector, e =>
    if time < 10 then do
      let e ← s.steadyStatePass lib lu time e
      let diff ← prevLeftSideVector.sub e.left
      if e.left.lpNorm ≠ 0 ∧ diff.lpNorm / e.left.lpNorm < 1 / 10000 then return [e]
      else
        let rest ← steadyStatePasses lib s lu fuel (time + s.mTimeStep) e.left e
        return e :: rest
    else return []

theorem steadyStateLoop_eq (lib : Library ℚ W) (s : MnaSolver V ℚ W) (lu : PartialPivLU ℚ) (fuel : Nat)
    (time : ℚ) (previous : Matrix ℚ) (e : Equations ℚ W) : s.steadyStateLoop lib lu fuel time previous e =
      (s.steadyStatePasses lib lu fuel time previous e).map fun passes => passes.getLastD e := by
  induction fuel generalizing time previous e with
  | zero => rfl
  | succ fuel ih =>
    unfold steadyStateLoop steadyStatePasses
    split
    · cases passed : s.steadyStatePass lib lu time e with
      | error fault => rfl
      | ok e₁ =>
        dsimp only [bind,Except.bind]
        cases subtracted : previous.sub e₁.left with
        | error fault => rfl
        | ok diff =>
          dsimp only
          split
          · rfl
          · rw [ih]
            cases s.steadyStatePasses lib lu fuel (time + s.mTimeStep) e₁.left e₁ with
            | error fault => rfl
            | ok rest => cases rest <;> rfl
    · rfl

theorem small_iff {previous current diff : Matrix ℚ} (subtracted : previous.sub current = .ok diff) :
    Small previous current ↔ current.lpNorm ≠ 0 ∧ diff.lpNorm / current.lpNorm < 1 / 10000 := by
  unfold Small relativeChange
  rw [subtracted]
  by_cases zero : current.lpNorm = 0 <;> simp [zero]

theorem small_of_equal {m : Matrix ℚ} (nonzero : m.lpNorm ≠ 0) : Small m m := by
  have subtracted : m.sub m = .ok ⟨m.rows,m.cols,fun i j => m.coeff i j - m.coeff i j⟩ := dif_pos ⟨rfl,rfl⟩
  have none : (⟨m.rows,m.cols,fun i j => m.coeff i j - m.coeff i j⟩ : Matrix ℚ).lpNorm = 0 := by
    simp [Matrix.lpNorm_eq_zero]
  rw [small_iff subtracted,none,zero_div]
  exact ⟨nonzero,by norm_num⟩

def steadyStateRun (lib : Library ℚ W) (fuel : Nat) (s : MnaSolver V ℚ W) (h : Heap W) :
    Except Fault (List (Equations ℚ W)) := do
  let lu ← PartialPivLU.compute (s.steadyStateStart h).system
  s.steadyStatePasses lib lu fuel 0 (.Zero (2 * s.mNumNodes).toNat 1) (s.steadyStateStart h)

/-- What the passes should be, whatever the solutions are. The first vector is what the first
solution is compared with. -/
structure Settles (timeStep : ℚ) (first : Matrix ℚ) (passes : List (Equations ℚ W)) : Prop where
  defined : ∀ e ∈ passes, e.left.lpNorm ≠ 0
  stops : ∀ k previous current, (first :: passes.map (·.left))[k]? = some previous →
    (passes.map (·.left))[k]? = some current → previous = current ∨ Small previous current → k + 1 = passes.length
  bounded : passes.length ≤ ⌈10 / timeStep⌉₊

/-- With any fuel above the bound the simulation ends, after passes as they should be, and leaves
a solver that the rest of `initialize` treats like one without the simulation. -/
structure SteadyStateCorrect (lib : Library ℚ W) (s : MnaSolver V ℚ W) (h : Heap W)
    (passes : List (Equations ℚ W)) (t : MnaSolver V ℚ W) (g : Heap W) : Prop where
  ran : ∀ fuel, ⌈10 / s.mTimeStep⌉₊ < fuel → s.steadyStateRun lib fuel h = .ok passes ∧
    s.steadyStateInitialization lib fuel h = .ok (t,g)
  settles : Settles s.mTimeStep (.Zero (2 * s.mNumNodes).toNat 1) passes
  matrix : t.mTmpSystemMatrix = .Zero t.size t.size
  right : t.mRightSideVector = .Zero t.size 1
  same : ∀ g, t.factorize g =
    (s.factorize g).map fun (q,g) => ({ q with mLeftSideVector := t.mLeftSideVector },g)

/-- The states that the passes lead to, one after the other, when no test ends them. -/
def passed (lib : Library ℚ W) (s : MnaSolver V ℚ W) (h : Heap W) : Nat → Equations ℚ W
  | 0 => s.steadyStateStart h
  | k + 1 =>
    match s.steadyStatePass lib ⟨(s.steadyStateStart h).system⟩ (k * s.mTimeStep) (passed lib s h k) with
    | .ok e => e
    | .error _ => passed lib s h k

/-- The solutions that the components lead to, after the vector that the first one is compared with. -/
def solution (lib : Library ℚ W) (s : MnaSolver V ℚ W) (h : Heap W) : Nat → Matrix ℚ
  | 0 => .Zero (2 * s.mNumNodes).toNat 1
  | k + 1 => (passed lib s h (k + 1)).left

/-- Of the solutions up to time 10, none is zero before one that differs little from the last. -/
def Excited (lib : Library ℚ W) (s : MnaSolver V ℚ W) (h : Heap W) : Prop :=
  ∀ k : Nat, k * s.mTimeStep < 10 → (∀ j < k, ¬ Small (solution lib s h j) (solution lib s h (j + 1))) →
    ∃ i j, (solution lib s h (k + 1)).coeff i j ≠ 0

def Ends (lib : Library ℚ W) (s : MnaSolver V ℚ W) (h : Heap W) (k : Nat) : Prop :=
  10 ≤ k * s.mTimeStep ∨ ∃ j, k = j + 1 ∧ Small (solution lib s h j) (solution lib s h k)

structure PassCount (lib : Library ℚ W) (s : MnaSolver V ℚ W) (h : Heap W) (n : Nat) : Prop where
  ends : Ends lib s h n
  goes : ∀ k < n, ¬ Ends lib s h k

theorem passCount_exists (lib : Library ℚ W) {s : MnaSolver V ℚ W} (positive : 0 < s.mTimeStep) (h : Heap W) :
    ∃ n, PassCount lib s h n ∧ n ≤ ⌈10 / s.mTimeStep⌉₊ := by
  classical
  have limit : Ends lib s h ⌈10 / s.mTimeStep⌉₊ := by
    left
    rw [← div_le_iff₀ positive]
    exact Nat.le_ceil _
  exact ⟨Nat.find ⟨_,limit⟩,⟨Nat.find_spec ⟨_,limit⟩,fun k less => Nat.find_min ⟨_,limit⟩ less⟩,
    Nat.find_min' ⟨_,limit⟩ limit⟩

section Sequence
variable {lib : Library ℚ W} {system : SystemTopology ℚ W} {s : MnaSolver V ℚ W} {h : Heap W}
  (keep : KeepSizes system) (works : WorksOn system s) (sized : (s.steadyStateStart h).Sized r)
include keep works sized

theorem passed_sized (lib : Library ℚ W) (k : Nat) : (passed lib s h k).Sized r ∧
    s.steadyStatePass lib ⟨(s.steadyStateStart h).system⟩ (k * s.mTimeStep) (passed lib s h k) =
      .ok (passed lib s h (k + 1)) := by
  have next (k : Nat) (before : (passed lib s h k).Sized r) : (passed lib s h (k + 1)).Sized r ∧
      s.steadyStatePass lib ⟨(s.steadyStateStart h).system⟩ (k * s.mTimeStep) (passed lib s h k) =
        .ok (passed lib s h (k + 1)) := by
    have square : (⟨(s.steadyStateStart h).system⟩ : PartialPivLU ℚ).matrix.hasSize r r := sized.system
    obtain ⟨e,ran,after⟩ := steadyStatePass_ok lib keep works square (k * s.mTimeStep) before
    have same : passed lib s h (k + 1) = e := by
      rw [passed,ran]
    rw [same]
    exact ⟨after,ran⟩
  induction k with
  | zero => exact ⟨sized,(next 0 sized).2⟩
  | succ k ih =>
    have here := (next k ih.1).1
    exact ⟨here,(next (k + 1) here).2⟩

theorem steadyStatePasses_eq (conforms : (2 * s.mNumNodes).toNat = r) {n : Nat} (count : PassCount lib s h n)
    (fuel k : Nat) (before : k ≤ n) (unsettled : ∀ j, k = j + 1 → ¬ Small (solution lib s h j) (solution lib s h k))
    (enough : n < k + fuel) :
    s.steadyStatePasses lib ⟨(s.steadyStateStart h).system⟩ fuel (k * s.mTimeStep) (solution lib s h k)
      (passed lib s h k) = .ok ((List.range' k (n - k)).map fun i => passed lib s h (i + 1)) := by
  induction fuel generalizing k with
  | zero => omega
  | succ fuel ih =>
    unfold steadyStatePasses
    by_cases early : k * s.mTimeStep < 10
    · have more : k < n := by
        apply lt_of_le_of_ne before
        rintro rfl
        rcases count.ends with late | ⟨j,same,small⟩
        · exact absurd early (not_lt.mpr late)
        · exact unsettled j same small
      have ran := (passed_sized keep works sized lib k).2
      have previous : (solution lib s h k).hasSize r 1 := by
        cases k with
        | zero => exact ⟨conforms,rfl⟩
        | succ k => exact (passed_sized keep works sized lib (k + 1)).1.left
      obtain ⟨diff,subtracted⟩ := sub_ok previous (passed_sized keep works sized lib (k + 1)).1.left
      have tested := small_iff subtracted
      rw [if_pos early,ran]
      dsimp only [bind,Except.bind]
      rw [subtracted]
      dsimp only
      by_cases small : Small (solution lib s h k) (passed lib s h (k + 1)).left
      · have last : n = k + 1 := by
          by_contra other
          exact count.goes (k + 1) (by omega) (.inr ⟨k,rfl,small⟩)
        rw [if_pos (tested.mp small),last,Nat.add_sub_cancel_left]
        rfl
      · have next := ih (k + 1) more (fun j same => by cases same; exact small) (by omega)
        rw [Nat.cast_add_one,add_one_mul] at next
        rw [if_neg (tested.not.mp small),show n - k = (n - (k + 1)) + 1 by omega,List.range'_succ,List.map_cons]
        exact congrArg (fun rest => rest >>= fun rest => .ok (passed lib s h (k + 1) :: rest)) next
    · have last : n = k := by
        by_contra other
        exact count.goes k (by omega) (.inl (not_lt.mp early))
      rw [if_neg early,last,Nat.sub_self]
      rfl

theorem steadyState_runs (conforms : (2 * s.mNumNodes).toNat = r) {n : Nat} (count : PassCount lib s h n)
    {fuel : Nat} (enough : n < fuel) :
    s.steadyStateRun lib fuel h = .ok ((List.range n).map fun i => passed lib s h (i + 1)) ∧
      s.steadyStateInitialization lib fuel h = .ok ({ s with
        mTmpSystemMatrix := (passed lib s h n).system.setZero
        mTmpLuFactorization := ⟨(s.steadyStateStart h).system⟩
        mRightSideVector := (passed lib s h n).right.setZero
        mLeftSideVector := (passed lib s h n).left }, (passed lib s h n).heap) := by
  have ran := steadyStatePasses_eq keep works sized conforms count fuel 0 n.zero_le nofun (by omega)
  rw [Nat.cast_zero,zero_mul,Nat.sub_zero,← List.range_eq_range'] at ran
  have last : ((List.range n).map fun i => passed lib s h (i + 1)).getLastD (s.steadyStateStart h) =
      passed lib s h n := by
    cases n with
    | zero => rfl
    | succ n => simp [List.range_succ]
  constructor
  · exact bind_ok.mpr ⟨_,PartialPivLU.compute_ok sized.system,ran⟩
  · rw [steadyStateInitialization_loop lib sized,steadyStateLoop_eq]
    have looped := congrArg (Except.map fun passes => passes.getLastD (s.steadyStateStart h)) ran
    refine bind_ok.mpr ⟨_,looped.trans (congrArg Except.ok last),rfl⟩

end Sequence

section Count
variable {lib : Library ℚ W} {s : MnaSolver V ℚ W} {h : Heap W} {n : Nat} (count : PassCount lib s h n)
include count

theorem PassCount.lt_iff (positive : 0 < s.mTimeStep) (k : Nat) : k < n ↔ k * s.mTimeStep < 10 ∧
    ∀ j < k, ¬ Small (solution lib s h j) (solution lib s h (j + 1)) := by
  constructor
  · intro less
    refine ⟨not_le.mp fun late => count.goes k less (.inl late),fun j before small => ?_⟩
    exact count.goes (j + 1) (by omega) (.inr ⟨j,rfl,small⟩)
  · rintro ⟨early,unsettled⟩
    by_contra beyond
    have within : (n : ℚ) * s.mTimeStep ≤ k * s.mTimeStep :=
      mul_le_mul_of_nonneg_right (Nat.cast_le.mpr (not_lt.mp beyond)) positive.le
    rcases count.ends with late | ⟨j,rfl,small⟩
    · exact absurd (late.trans within) (not_le.mpr early)
    · exact unsettled j (by omega) small

theorem excited_iff (positive : 0 < s.mTimeStep) :
    Excited lib s h ↔ ∀ k < n, (solution lib s h (k + 1)).lpNorm ≠ 0 := by
  simp only [Excited,count.lt_iff positive,Matrix.lpNorm_ne_zero,and_imp]

/-- The passes are as they should be exactly if no solution is zero. -/
theorem settles_iff (bounded : n ≤ ⌈10 / s.mTimeStep⌉₊) :
    Settles s.mTimeStep (solution lib s h 0) ((List.range n).map fun i => passed lib s h (i + 1)) ↔
      ∀ k < n, (solution lib s h (k + 1)).lpNorm ≠ 0 := by
  constructor
  · intro settles k less
    exact settles.defined _ (List.mem_map_of_mem (List.mem_range.mpr less))
  · intro nonzero
    refine ⟨?_,?_,by simpa using bounded⟩
    · intro e member
      obtain ⟨k,less,rfl⟩ := List.mem_map.mp member
      exact nonzero k (List.mem_range.mp less)
    · intro k previous current before after settled
      rw [List.map_map] at before after
      have less : k < n := by
        simpa using (List.getElem?_eq_some_iff.mp after).1
      have here : current = solution lib s h (k + 1) := by
        simpa [less,solution,eq_comm] using after
      have there : previous = solution lib s h k := by
        cases k with
        | zero => simpa [eq_comm] using before
        | succ k => simpa [show k < n by omega,solution,eq_comm] using before
      have small : Small (solution lib s h k) (solution lib s h (k + 1)) := by
        rw [here,there] at settled
        rcases settled with equal | small
        · rw [equal]
          exact small_of_equal (nonzero k less)
        · exact small
      rw [List.length_map,List.length_range]
      by_contra other
      exact count.goes (k + 1) (by omega) (.inr ⟨k,rfl,small⟩)

end Count

section Factorization
variable {Real : Type}

theorem factorizeSystem_eq (s : MnaSolver V Real W) (h : Heap W) : s.factorizeSystem h =
    (PartialPivLU.compute (s.stampSystem h s.mTmpSystemMatrix)).map fun lu => { s with
      mTmpSystemMatrix := s.stampSystem h s.mTmpSystemMatrix
      mTmpLuFactorization := lu } :=
  bind_return _ _

theorem factorizeSwitched_eq (s : MnaSolver V Real W) (h : Heap W) : s.factorizeSwitched h =
    (s.mSwitchedMatrices.entries.foldlM (s.factorizeSwitch h) (s.mSwitchedMatrices,s.mLuFactorizations)).map
      fun maps => { s with
        mSwitchedMatrices := maps.1
        mLuFactorizations := maps.2 } :=
  bind_return _ _

theorem factorize_eq (s : MnaSolver V Real W) (h : Heap W) : s.factorize h =
    (s.factorizeSystem (s.setBehaviours .Simulation h)).bind fun q =>
      (q.factorizeSwitched (s.setBehaviours .Simulation h)).map fun q =>
        (q.updateSwitchStatus (s.setBehaviours .Simulation h)).stampRightSide (s.setBehaviours .Simulation h) :=
  congrArg (Except.bind (s.factorizeSystem (s.setBehaviours .Simulation h))) (funext fun _ => bind_return _ _)

/-- The left vector and the old factorization play no part in the rest of `initialize`. -/
theorem factorize_left (s : MnaSolver V Real W) (lu : PartialPivLU Real) (left : Matrix Real) (g : Heap W) :
    ({ s with
      mTmpLuFactorization := lu
      mLeftSideVector := left } : MnaSolver V Real W).factorize g =
      (s.factorize g).map fun (q,g) => ({ q with mLeftSideVector := left },g) := by
  have system (h : Heap W) : ({ s with
      mTmpLuFactorization := lu
      mLeftSideVector := left } : MnaSolver V Real W).factorizeSystem h =
      (s.factorizeSystem h).map fun q => { q with mLeftSideVector := left } := by
    rw [factorizeSystem_eq,factorizeSystem_eq,map_map]
    rfl
  have switched (q : MnaSolver V Real W) (h : Heap W) :
      ({ q with mLeftSideVector := left } : MnaSolver V Real W).factorizeSwitched h =
        (q.factorizeSwitched h).map fun q => { q with mLeftSideVector := left } := by
    rw [factorizeSwitched_eq,factorizeSwitched_eq,map_map]
    rfl
  have behaviours : ({ s with
      mTmpLuFactorization := lu
      mLeftSideVector := left } : MnaSolver V Real W).setBehaviours .Simulation g =
      s.setBehaviours .Simulation g := rfl
  rw [factorize_eq,factorize_eq,behaviours,system]
  cases s.factorizeSystem (s.setBehaviours .Simulation g) with
  | error fault => rfl
  | ok q =>
    dsimp only [Except.map,Except.bind]
    rw [switched]
    cases q.factorizeSwitched (s.setBehaviours .Simulation g) <;> rfl

end Factorization

section Initialize
variable {lib : Library ℚ W} {timeStep : ℚ} {system : SystemTopology ℚ W} {h k : Heap W}
  {p : MnaSolver .complex ℚ W}

structure Ready (system : SystemTopology ℚ W) (lib : Library ℚ W) (p : MnaSolver .complex ℚ W)
    (h : Heap W) : Prop where
  steps : 0 < p.mTimeStep
  works : WorksOn system p
  stampable : Stampable (systemRows lib .complex system) p
  sized : (p.steadyStateStart h).Sized (systemRows lib .complex system)
  size : p.size = systemRows lib .complex system
  previous : PreviousConforms lib .complex system ↔ (2 * p.mNumNodes).toNat = systemRows lib .complex system

theorem prepare_ready (positive : 0 < timeStep)
    (prepared : (make timeStep .DP true system : MnaSolver .complex ℚ W).prepare lib h = .ok (p,k))
    (keep : KeepSizes system) : Ready system lib p (p.initializeComponents k) := by
  have facts := prepare_ok prepared
  have stampable := prepared_stampable facts
  have works : WorksOn system p := ⟨facts.powerComponents,facts.switches⟩
  refine ⟨(prepare_kept prepared).1.symm ▸ positive,works,stampable,
    steadyStateStart_sized keep works stampable _,?_,?_⟩
  · rw [size,facts.numSimNodes,systemRows]
  · rw [PreviousConforms,facts.numNodes]

theorem excited_of_correct (positive : 0 < timeStep)
    (prepared : (make timeStep .DP true system : MnaSolver .complex ℚ W).prepare lib h = .ok (p,k))
    (keep : KeepSizes system) {passes : List (Equations ℚ W)} {t : MnaSolver .complex ℚ W} {g : Heap W}
    (correct : SteadyStateCorrect lib p (p.initializeComponents k) passes t g) :
    PreviousConforms lib .complex system ∧ Excited lib p (p.initializeComponents k) := by
  have ready := prepare_ready positive prepared keep
  obtain ⟨run,initialization⟩ := correct.ran _ (Nat.lt_succ_self _)
  have conforms : (2 * p.mNumNodes).toNat = systemRows lib .complex system := by
    by_contra differs
    rw [steadyStateInitialization_mismatch lib keep ready.works ready.stampable differs] at initialization
    contradiction
  refine ⟨ready.previous.mpr conforms,?_⟩
  obtain ⟨n,count,bounded⟩ := passCount_exists lib ready.steps (p.initializeComponents k)
  have ran := (steadyState_runs keep ready.works ready.sized conforms count (Nat.lt_succ_of_le bounded)).1
  rw [excited_iff count ready.steps,← settles_iff count bounded]
  rw [run] at ran
  cases ran
  exact correct.settles

/-- Once the first previous vector conforms and no solution is zero, the loop ends as intended. -/
theorem correct_of_excited (positive : 0 < timeStep)
    (prepared : (make timeStep .DP true system : MnaSolver .complex ℚ W).prepare lib h = .ok (p,k))
    (keep : KeepSizes system) (previous : PreviousConforms lib .complex system)
    (excited : Excited lib p (p.initializeComponents k)) :
    ∃ passes t g, SteadyStateCorrect lib p (p.initializeComponents k) passes t g := by
  have ready := prepare_ready positive prepared keep
  have facts := prepare_ok prepared
  obtain ⟨n,count,bounded⟩ := passCount_exists lib ready.steps (p.initializeComponents k)
  have final := (passed_sized keep ready.works ready.sized lib n).1
  have system : (passed lib p (p.initializeComponents k) n).system.setZero = p.mTmpSystemMatrix := by
    rw [facts.matrix,Matrix.setZero,final.system.1,final.system.2,ready.size]
  have right : (passed lib p (p.initializeComponents k) n).right.setZero = p.mRightSideVector := by
    rw [facts.right,Matrix.setZero,final.right.1,final.right.2,ready.size]
  refine ⟨_,_,_,⟨fun fuel enough => steadyState_runs keep ready.works ready.sized
    (ready.previous.mp previous) count (bounded.trans_lt enough),?_,?_,?_,fun g => ?_⟩⟩
  · exact (settles_iff count bounded).mpr ((excited_iff count ready.steps).mp excited)
  · exact system.trans facts.matrix
  · exact right.trans facts.right
  · rw [system,right]
    exact factorize_left p _ _ g

/-- The steady-state simulation goes as intended exactly if the vector that the first solution is
compared with has as many rows and no solution is zero before the loop ends. -/
theorem steady_state_correct_iff (lib : Library ℚ W) (positive : 0 < timeStep) (system : SystemTopology ℚ W)
    (h : Heap W)
    (prepared : (make timeStep .DP true system : MnaSolver .complex ℚ W).prepare lib h = .ok (p,k))
    (keep : KeepSizes system) :
    (∃ passes t g, SteadyStateCorrect lib p (p.initializeComponents k) passes t g) ↔
      PreviousConforms lib .complex system ∧ Excited lib p (p.initializeComponents k) := by
  constructor
  · rintro ⟨passes,t,g,correct⟩
    exact excited_of_correct positive prepared keep correct
  · rintro ⟨previous,excited⟩
    exact correct_of_excited positive prepared keep previous excited

end Initialize

/-- A conductance of one from the only node to the ground, with a current source beside it. -/
def shunt (current : ℚ) : MNAInterface ℚ Unit where
  address := 0
  power := some (.complex, ⟨false, 0, fun _ h => h⟩)
  mnaInitialize _ _ h := h
  mnaApplySystemMatrixStamp _ m := m.accumulate fun i j => if i = j then 1 else 0
  mnaApplyRightSideVectorStamp r := r
  mnaStep _ e := { e with right := e.right.accumulate fun i _ => if i = 0 then current else 0 }
  mnaPostStep _ e := e

def shuntGrid (current : ℚ) : SystemTopology ℚ Unit where
  mNodes := [⟨⟨.system 0,.Single⟩,true,.complex⟩,⟨⟨.system 1,.Single⟩,false,.complex⟩]
  mComponents := [⟨none,some (shunt current),none,fun _ h => h⟩]
  mSystemFrequency := 50
  mSystemOmega := 314

def identityLibrary : Library ℚ Unit where
  solution _ right i j :=
    if within : i < right.rows ∧ j < right.cols then right.coeff ⟨i,within.1⟩ ⟨j,within.2⟩ else 0
  defaultPhase := .Single
  mnaUpdateVoltage _ _ h := h

theorem shuntGrid_keepSizes (current : ℚ) : KeepSizes (shuntGrid current) := by
  constructor
  · simp only [shuntGrid,List.filterMap_cons,List.filterMap_nil,List.mem_singleton]
    rintro r c comp rfl h m size
    exact size
  · simp [shuntGrid,shunt]
  · simp only [shuntGrid,List.filterMap_cons,List.filterMap_nil,List.mem_singleton]
    rintro r comp rfl time e sized
    exact ⟨sized.system,sized.right,sized.left⟩
  · simp [shuntGrid,shunt]
  · simp [shuntGrid]
  · simp [shuntGrid]
  · simp [shuntGrid]

theorem steady_state_correct_shunt : ∃ p k,
    (make 1 .DP true (shuntGrid 1) : MnaSolver .complex ℚ Unit).prepare identityLibrary noNodes = .ok (p,k) ∧
    ∃ passes t g, SteadyStateCorrect identityLibrary p (p.initializeComponents k) passes t g := by
  refine ⟨_,_,rfl,(steady_state_correct_iff identityLibrary one_pos (shuntGrid 1) noNodes rfl
    (shuntGrid_keepSizes 1)).mpr ⟨rfl,fun k early unsettled => ?_⟩⟩
  rcases k with _ | _ | k
  · exact Matrix.lpNorm_ne_zero.mp (by decide +kernel)
  · exact Matrix.lpNorm_ne_zero.mp (by decide +kernel)
  · exact absurd ⟨0,by decide +kernel,by norm_num⟩ (unsettled 1 (by omega))

theorem passive_grid_undefined : ∃ p k,
    (make 1 .DP true (shuntGrid 0) : MnaSolver .complex ℚ Unit).prepare identityLibrary noNodes = .ok (p,k) ∧
    KeepSizes (shuntGrid 0) ∧ PreviousConforms identityLibrary .complex (shuntGrid 0) ∧
    (solution identityLibrary p (p.initializeComponents k) 1).lpNorm = 0 ∧
    ¬ ∃ passes t g, SteadyStateCorrect identityLibrary p (p.initializeComponents k) passes t g := by
  refine ⟨_,_,rfl,shuntGrid_keepSizes 0,rfl,by decide +kernel,?_⟩
  rintro ⟨passes,t,g,correct⟩
  obtain ⟨_,excited⟩ := excited_of_correct one_pos rfl (shuntGrid_keepSizes 0) correct
  have nonzero := excited 0 (by norm_num) (fun j before => absurd before (Nat.not_lt_zero j))
  exact Matrix.lpNorm_ne_zero.mpr nonzero (by decide +kernel)

end MnaSolver
end DPsim
