import DPsim.MNAInitialization
import DPsim.Transition
import Mathlib.Algebra.BigOperators.Group.List.Basic
import Mathlib.Algebra.Order.Ring.Unbundled.Rat

/-! Which switch states have a factorization. The keys that `createEmptySystemMatrix` creates are
the first `2 * n` numbers, the keys that `solve` looks up are all numbers below `2 ^ n`. -/
namespace DPsim.MnaSolver
open Transition

variable {V : VarType} {Real W : Type} [Field Real]

structure AdditiveStamps (system : SystemTopology Real W)
    (stamp : MNAInterface Real W → Heap W → Nat → Nat → Real)
    (switchStamp : MNASwitchInterface Real W → Bool → Heap W → Nat → Nat → Real) : Prop where
  power : ∀ comp ∈ system.mComponents.filterMap (·.mna), ∀ h m,
    comp.mnaApplySystemMatrixStamp h m = m.accumulate (stamp comp h)
  position : ∀ sw ∈ system.mComponents.filterMap (·.mnaSwitch), ∀ closed h m,
    sw.mnaApplySwitchSystemMatrixStamp closed h m = m.accumulate (switchStamp sw closed h)

/-- The stamp of every power component, and of every switch in the position of its bit. -/
def switchedSum (system : SystemTopology Real W) (stamp : MNAInterface Real W → Heap W → Nat → Nat → Real)
    (switchStamp : MNASwitchInterface Real W → Bool → Heap W → Nat → Nat → Real) (h : Heap W)
    (key : SwitchStatus) : Nat → Nat → Real :=
  ((system.mComponents.filterMap (·.mna)).map fun comp => stamp comp h).sum +
    ((system.mComponents.filterMap (·.mnaSwitch)).zipIdx.map fun p =>
      switchStamp p.1 (key.getLsbD p.2) h).sum

def Covered (s : MnaSolver V Real W) (total : SwitchStatus → Nat → Nat → Real) : Prop :=
  ∀ key, HighBitsZero s.mSwitches.length key →
    ∃ lu, PartialPivLU.compute ((Matrix.Zero s.size s.size).accumulate (total key)) = .ok lu ∧
      s.mLuFactorizations.lookup key = some lu

/-- In every run the key that the next `solve` looks up is one of the present ones, and no key
has been added. -/
def LooksUpKnown (lib : Library Real W) (s : MnaSolver V Real W) : Prop :=
  ∀ trace t, Path (Advances lib) s trace t →
    t.mCurrentSwitchStatus ∈ s.mLuFactorizations ∧ t.mLuFactorizations = s.mLuFactorizations

theorem foldl_accumulate {items : List α} {f : Matrix Real → α → Matrix Real} {c : α → Nat → Nat → Real}
    (adds : ∀ a ∈ items, ∀ m, f m a = m.accumulate (c a)) (m : Matrix Real) :
    items.foldl f m = m.accumulate (items.map c).sum := by
  induction items generalizing m with
  | nil => simp
  | cons a items ih =>
    rw [List.foldl_cons,adds a List.mem_cons_self,
      ih (fun b member => adds b (List.mem_cons_of_mem _ member)),Matrix.accumulate_accumulate,
      List.map_cons,List.sum_cons]

section Stamps
variable {lib : Library Real W} {domain : Domain} {steadyStateInit : Bool} {system : SystemTopology Real W}
  {stamp : MNAInterface Real W → Heap W → Nat → Nat → Real}
  {switchStamp : MNASwitchInterface Real W → Bool → Heap W → Nat → Nat → Real} {s : MnaSolver V Real W}

theorem stampSwitched_sum (additive : AdditiveStamps system stamp switchStamp)
    (network : Network lib domain steadyStateInit system s) (h : Heap W) (key : SwitchStatus)
    (m : Matrix Real) :
    s.stampSwitched h key m = m.accumulate (switchedSum system stamp switchStamp h key) := by
  have power : s.stampPower h m =
      m.accumulate ((system.mComponents.filterMap (·.mna)).map fun comp => stamp comp h).sum := by
    rw [stampPower,network.powerComponents]
    exact foldl_accumulate (fun comp member m => additive.power comp member h m) m
  rw [stampSwitched,power,network.switches,switchedSum,← Matrix.accumulate_accumulate]
  apply foldl_accumulate (c := fun p : MNASwitchInterface Real W × Nat =>
    switchStamp p.1 (key.getLsbD p.2) h)
  intro p member m
  exact additive.position p.1 (List.fst_mem_of_mem_zipIdx member) _ h m

end Stamps

theorem run_keys {lib : Library Real W} {s t : MnaSolver V Real W}
    (known : ∀ key, HighBitsZero s.mSwitches.length key → key ∈ s.mLuFactorizations)
    (few : s.mSwitches.length ≤ 32) (high : HighBitsZero s.mSwitches.length s.mCurrentSwitchStatus)
    (path : Path (Advances lib) s trace t) :
    t.mSwitches = s.mSwitches ∧ t.mLuFactorizations = s.mLuFactorizations ∧
      HighBitsZero s.mSwitches.length t.mCurrentSwitchStatus := by
  refine path.invariant (P := fun t => t.mSwitches = s.mSwitches ∧
    t.mLuFactorizations = s.mLuFactorizations ∧
    HighBitsZero s.mSwitches.length t.mCurrentSwitchStatus) ?_ ⟨rfl,rfl,high⟩
  rintro x call y ⟨switches,maps,bits⟩ ⟨nextTime,h',stepped⟩
  obtain ⟨_,_,_,factorizations,rfl,same⟩ := step_frame stepped
  refine ⟨switches,(same (.inr (maps ▸ known _ bits))).trans maps,?_⟩
  rw [← switches] at few bits ⊢
  exact updateSwitchStatus_high h' few bits

theorem two_mul_lt_two_pow (many : 3 ≤ n) : n * 2 < 2 ^ n := by
  induction n, many using Nat.le_induction with
  | base => decide
  | succ n many ih =>
    rw [Nat.pow_succ]
    omega

/-- The states of `n` switches are among the first `2 * n` keys exactly up to two switches. -/
theorem keys_suffice_iff (nonempty : 1 ≤ n) (few : n ≤ 32) :
    (∀ key : SwitchStatus, HighBitsZero n key → key.toNat < n * 2) ↔ n ≤ 2 := by
  constructor
  · intro suffice
    by_contra many
    have small : n * 2 < 2 ^ n := two_mul_lt_two_pow (by omega)
    have value : (BitVec.ofNat 32 (n * 2)).toNat = n * 2 := by
      rw [BitVec.toNat_ofNat]
      exact Nat.mod_eq_of_lt (by omega)
    have key := suffice (BitVec.ofNat 32 (n * 2)) ((highBitsZero_iff n _).mpr (by omega))
    omega
  · intro two key high
    have small := (highBitsZero_iff n key).mp high
    rcases (by omega : n = 1 ∨ n = 2) with rfl | rfl <;> omega

/-- Every state of the switches is covered, and every run looks up covered states only, exactly
if there are at most two switches. -/
theorem switch_states_covered [LinearOrder Real] (lib : Library Real W) (fuel : Nat) (timeStep : Real)
    (domain : Domain) (steadyStateInit : Bool) (system : SystemTopology Real W) (h g : Heap W)
    (s : MnaSolver V Real W) (stamp : MNAInterface Real W → Heap W → Nat → Nat → Real)
    (switchStamp : MNASwitchInterface Real W → Bool → Heap W → Nat → Nat → Real)
    (initialized : (make timeStep domain steadyStateInit system : MnaSolver V Real W).initializeSystem
      lib fuel h = .ok (s, g))
    (nonempty : 1 ≤ (system.mComponents.filterMap (·.mnaSwitch)).length)
    (additive : AdditiveStamps system stamp switchStamp) :
    ∃ p k, (make timeStep domain steadyStateInit system : MnaSolver V Real W).initializeNetwork lib fuel h =
        .ok (p, k) ∧
      (Covered s (switchedSum system stamp switchStamp (p.setBehaviours .Simulation k)) ∧
          LooksUpKnown lib s ↔
        (system.mComponents.filterMap (·.mnaSwitch)).length ≤ 2) := by
  obtain ⟨p,k,prepared,network,done⟩ := initializeSystem_ok initialized
  refine ⟨p,k,prepared,?_⟩
  have few : p.mSwitches.length ≤ 32 := network.few
  have count : s.mSwitches.length = p.mSwitches.length := congrArg List.length done.switches
  rw [← network.switches] at nonempty ⊢
  rw [← keys_suffice_iff nonempty few]
  constructor
  · rintro ⟨covered,_⟩ key high
    by_contra beyond
    obtain ⟨lu,_,found⟩ := covered key (count ▸ high)
    rw [(done.absent key (by omega)).2] at found
    contradiction
  · intro suffice
    have covered : Covered s (switchedSum system stamp switchStamp (p.setBehaviours .Simulation k)) := by
      intro key high
      obtain ⟨_,lu,computed,found⟩ := done.present key (suffice key (count ▸ high))
      rw [stampSwitched_sum additive network,← done.size] at computed
      exact ⟨lu,computed,found⟩
    have known : ∀ key, HighBitsZero s.mSwitches.length key → key ∈ s.mLuFactorizations := by
      intro key high
      obtain ⟨lu,_,found⟩ := covered key high
      exact AList.lookup_isSome.mp (found ▸ rfl)
    refine ⟨covered,fun trace t path => ?_⟩
    obtain ⟨_,maps,bits⟩ := run_keys known (by omega) (done.high network) path
    exact ⟨known _ bits,maps⟩

def groundedSwitch : MNASwitchInterface ℚ Unit where
  mnaInitialize _ _ h := h
  mnaApplySystemMatrixStamp _ m := m.accumulate fun _ _ => 1000
  mnaApplySwitchSystemMatrixStamp closed _ m := m.accumulate fun _ _ => if closed then 1000 else 1
  mnaStep _ e := e
  mnaIsClosed _ := true

def switchBank (n : Nat) : SystemTopology ℚ Unit where
  mNodes := [⟨⟨.system 0,.Single⟩,false,.real⟩]
  mComponents := List.replicate n ⟨some groundedSwitch,none,none,fun _ h => h⟩
  mSystemFrequency := 50
  mSystemOmega := 314

theorem switchBank_additive (n : Nat) : AdditiveStamps (switchBank n) (fun _ _ => 0)
    (fun _ closed _ _ _ => if closed then 1000 else 1) := by
  constructor
  · simp [switchBank]
  · intro sw member closed h m
    obtain ⟨comp,listed,cast⟩ := List.mem_filterMap.mp member
    obtain rfl := List.eq_of_mem_replicate listed
    cases cast
    rfl

theorem switch_covered_two : ∃ s g p k,
    (make 1 .EMT false (switchBank 2) : MnaSolver .real ℚ Unit).initializeSystem singlePhase 0 noNodes =
      .ok (s, g) ∧
    (make 1 .EMT false (switchBank 2) : MnaSolver .real ℚ Unit).initializeNetwork singlePhase 0 noNodes =
      .ok (p, k) ∧
    (Covered s (switchedSum (switchBank 2) (fun _ _ => 0) (fun _ closed _ _ _ => if closed then 1000 else 1)
        (p.setBehaviours .Simulation k)) ∧ LooksUpKnown singlePhase s ↔
      ((switchBank 2).mComponents.filterMap (·.mnaSwitch)).length ≤ 2) := by
  obtain ⟨s,g,initialized⟩ : ∃ s g, (make 1 .EMT false (switchBank 2) :
      MnaSolver .real ℚ Unit).initializeSystem singlePhase 0 noNodes = .ok (s, g) := ⟨_,_,rfl⟩
  obtain ⟨p,k,found⟩ := switch_states_covered singlePhase 0 1 .EMT false (switchBank 2) noNodes g s
    (fun _ _ => 0) (fun _ closed _ _ _ => if closed then 1000 else 1) initialized (by decide)
    (switchBank_additive 2)
  exact ⟨s,g,p,k,initialized,found⟩

/-- Three closed switches: their key has no factorization, and it is the first one looked up. -/
theorem three_closed_switches_missing : ∃ s g,
    (make 1 .EMT false (switchBank 3) : MnaSolver .real ℚ Unit).initializeSystem singlePhase 0 noNodes =
      .ok (s, g) ∧
    ((switchBank 3).mComponents.filterMap (·.mnaSwitch)).length = 3 ∧
    AdditiveStamps (switchBank 3) (fun _ _ => 0) (fun _ closed _ _ _ => if closed then 1000 else 1) ∧
    HighBitsZero s.mSwitches.length 7 ∧ s.mLuFactorizations.lookup 7 = none ∧
    (∀ total, ¬ Covered s total) ∧ s.mCurrentSwitchStatus = 7 ∧ ¬ LooksUpKnown singlePhase s := by
  have high : HighBitsZero 3 7 := (highBitsZero_iff 3 7).mpr (by decide)
  refine ⟨_,_,rfl,rfl,switchBank_additive 3,high,rfl,fun total covered => ?_,rfl,fun known => ?_⟩
  · obtain ⟨lu,_,found⟩ := covered 7 high
    cases found
  · have member := (known [] _ .nil).1
    exact absurd (AList.lookup_isSome.mpr member) (by decide)

end DPsim.MnaSolver
