import DPsim.Simulation
import Mathlib.Algebra.Order.Floor.Ring
import Mathlib.Data.Rat.Floor
import Mathlib.Tactic.FieldSimp
import Mathlib.Tactic.Linarith

/-! How many steps the run loops execute, and at which times, with exact rationals and a solver
that moves the time on by one time step. -/
namespace DPsim

section Times
variable {Real H : Type}

/-- The times of the executed steps among the effects. -/
def solvedTimes (effects : List (Effect Real H)) : List Real :=
  effects.filterMap fun | .solved time => some time | _ => none

@[simp] theorem solvedTimes_append (xs ys : List (Effect Real H)) :
    solvedTimes (xs ++ ys) = solvedTimes xs ++ solvedTimes ys := List.filterMap_append

namespace Simulation
variable {σ : Type} [LinearOrder Real]

@[simp] theorem solvedTimes_step (s : Simulation Real σ H) (events : List (Event Real H)) :
    solvedTimes (s.stepEffects events) = [s.mTime] := by
  simp [solvedTimes,stepEffects,List.filterMap_append,List.filterMap_eq_nil_iff.mpr]

@[simp] theorem solvedTimes_onInterfaces (call : Interface → Interface × List ShmemCall)
    (s : Simulation Real σ H) : solvedTimes (s.onInterfaces call).2 = [] := by
  simp [solvedTimes,onInterfaces,List.filterMap_flatMap]

@[simp] theorem solvedTimes_flushLoggers (s : Simulation Real σ H) : solvedTimes s.flushLoggers = [] := by
  simp [solvedTimes,flushLoggers]

/-- The first exchange executes no step and moves no time. -/
theorem sync_solved {input : Inputs H} {s t : Simulation Real σ H} (synced : s.sync input = .ok (t, effects)) :
    solvedTimes effects = [] ∧ ∃ h, t = { s with heap := h } := by
  obtain ⟨h,_,result⟩ := bind_ok.mp synced
  cases result
  exact ⟨by simp [solvedTimes,List.filterMap_append,List.filterMap_eq_nil_iff.mpr],h,rfl⟩

/-- A step executes one step, at the current time. -/
theorem step_solved {solver : Solver Real σ H} {input : Inputs H} {s t : Simulation Real σ H}
    (stepped : s.step solver input = .ok (t, effects)) :
    solvedTimes effects = [s.mTime] ∧ t.mTimeStepCount = s.mTimeStepCount + 1 ∧
      t.mFinalTime = s.mFinalTime := by
  obtain ⟨_,_,_,_,_,_,rfl,rfl⟩ := step_ok.mp stepped
  exact ⟨solvedTimes_step s _,rfl,rfl⟩

end Simulation
end Times

/-- The count has grown by the number of steps as long as it has not overflowed. -/
theorem count_grown_iff (count : Int32) (n : Nat) :
    (count + Int32.ofNat n).toInt = count.toInt + n ↔ count.toInt + n < 2 ^ 31 := by
  have low := Int32.le_toInt count
  have sum : (count + Int32.ofNat n).toInt = (count.toInt + n).bmod (2 ^ 32) := by
    rw [Int32.toInt_add,Int32.toInt_ofNat']
    exact Int.add_bmod_bmod
  constructor
  · intro grown
    have high := Int32.toInt_lt (count + Int32.ofNat n)
    omega
  · intro high
    rw [sum]
    apply Int.bmod_eq_of_le <;> omega

/-- The number of times `time + k * dt` below the final time. -/
def stepsLeft (time final dt : ℚ) : Nat := ⌈(final - time) / dt⌉.toNat

theorem due_iff {dt : ℚ} (positive : 0 < dt) (time final : ℚ) (k : Nat) :
    time + k * dt < final ↔ k < stepsLeft time final dt := by
  rw [stepsLeft,Int.lt_toNat,Int.lt_ceil,lt_div_iff₀ positive,Int.cast_natCast]
  constructor <;> intro h <;> linarith

theorem stepsLeft_zero {dt : ℚ} (positive : 0 < dt) {time final : ℚ} (past : ¬ time < final) :
    stepsLeft time final dt = 0 := by
  by_contra some
  have due := (due_iff positive time final 0).mpr (Nat.pos_of_ne_zero some)
  simp only [Nat.cast_zero,zero_mul,add_zero] at due
  exact past due

theorem stepsLeft_pos {dt : ℚ} (positive : 0 < dt) {time final : ℚ} :
    0 < stepsLeft time final dt ↔ time < final := by
  rw [← due_iff positive]
  simp

theorem stepsLeft_next {dt : ℚ} (positive : 0 < dt) {time final : ℚ} (due : time < final) :
    stepsLeft time final dt = stepsLeft (time + dt) final dt + 1 := by
  apply Nat.le_antisymm
  · by_contra less
    have inside := (due_iff positive time final _).mpr (not_le.mp less)
    have outside := mt (due_iff positive (time + dt) final (stepsLeft (time + dt) final dt)).mp (lt_irrefl _)
    push_cast at inside
    apply outside
    linarith
  · by_contra less
    have positive' := (stepsLeft_pos positive).mpr due
    have inside := (due_iff positive (time + dt) final (stepsLeft time final dt - 1)).mpr (by omega)
    have outside := mt (due_iff positive time final (stepsLeft time final dt)).mp (lt_irrefl _)
    rw [Nat.cast_sub positive',Nat.cast_one] at inside
    apply outside
    linarith

namespace Simulation
variable {σ H : Type}

/-- Exactly `k` steps have been executed since `s`, each a time step after the one before. -/
structure Executed (dt : ℚ) (s t : Simulation ℚ σ H) (effects : List (Effect ℚ H)) (k : Nat) : Prop where
  times : solvedTimes effects = (List.range k).map fun (i : Nat) => s.mTime + i * dt
  time : t.mTime = s.mTime + k * dt
  final : t.mFinalTime = s.mFinalTime
  count : t.mTimeStepCount = s.mTimeStepCount + Int32.ofNat k

theorem Executed.none {dt : ℚ} {s t : Simulation ℚ σ H} (silent : solvedTimes effects = [])
    (time : t.mTime = s.mTime) (final : t.mFinalTime = s.mFinalTime)
    (count : t.mTimeStepCount = s.mTimeStepCount) : Executed dt s t effects 0 :=
  ⟨by simp [silent],by simp [time],final,by simp [count]⟩

theorem Executed.trans {dt : ℚ} {s t u : Simulation ℚ σ H} (first : Executed dt s t xs k)
    (second : Executed dt t u ys m) : Executed dt s u (xs ++ ys) (k + m) := by
  refine ⟨?_,?_,second.final.trans first.final,?_⟩
  · rw [solvedTimes_append,first.times,second.times,List.range_add,List.map_append,List.map_map,first.time]
    congr 1
    apply List.map_congr_left
    intro i _
    simp only [Function.comp_apply,Nat.cast_add]
    ring
  · rw [second.time,first.time,Nat.cast_add]
    ring
  · rw [second.count,first.count,Int32.ofNat_add,Int32.add_assoc]

/-- The solver steps without fault, by `dt`, as long as its own state is one of the good ones. -/
structure Paces (solver : Solver ℚ σ H) (dt : ℚ) (good : σ → Prop) : Prop where
  step : ∀ time x h, good x → ∃ x' h', solver.step time x h = .ok (time + dt, x', h') ∧ good x'

/-- No interface fails. -/
def Delivers (input : Inputs H) : Prop := ∀ i blocking h, ∃ h', input.readValues i blocking h = .ok h'

theorem foldlM_delivers {input : Inputs H} (delivers : Delivers input) (blocking : InterfaceMapping → Bool)
    (ifms : List InterfaceMapping) (h : H) : ∃ h', ifms.foldlM
      (fun h ifm => input.readValues ifm.interface.address (blocking ifm) h) h = .ok h' := by
  apply foldlM_returns
  intro ifm _ h
  exact delivers ifm.interface.address (blocking ifm) h

theorem sync_delivers {input : Inputs H} (delivers : Delivers input) (s : Simulation ℚ σ H) :
    ∃ t effects, s.sync input = .ok (t, effects) := by
  obtain ⟨h,read⟩ := foldlM_delivers delivers (·.syncStart) s.mInterfaces s.heap
  exact ⟨_,_,bind_ok.mpr ⟨h,read,rfl⟩⟩

section Loops
variable {solver : Solver ℚ σ H} {dt : ℚ} {good : σ → Prop}

theorem step_paces (paces : Paces solver dt good) {input : Inputs H} (delivers : Delivers input)
    {s : Simulation ℚ σ H} (solvable : good s.mSolver) :
    ∃ t effects, s.step solver input = .ok (t, effects) ∧ Executed dt s t effects 1 ∧ good t.mSolver := by
  obtain ⟨h,read⟩ := foldlM_delivers delivers (·.sync) s.sampledInterfaces s.heap
  obtain ⟨x,h',solved,kept⟩ := paces.step s.mTime s.mSolver (s.mEvents.handleEvents s.mTime h).heap solvable
  refine ⟨_,_,step_ok.mpr ⟨h,_,x,h',read,solved,rfl,rfl⟩,⟨by simp,by simp,rfl,rfl⟩,kept⟩

/-- `Simulation::run` executes the steps that are due and ends. -/
theorem runLoop_executed (positive : 0 < dt) (paces : Paces solver dt good) {inputs : Nat → Inputs H}
    (delivers : ∀ k, Delivers (inputs k)) {s : Simulation ℚ σ H} (solvable : good s.mSolver)
    (enough : stepsLeft s.mTime s.mFinalTime dt < fuel) :
    ∃ t effects, runLoop solver fuel inputs s = .ok (t, effects) ∧
      Executed dt s t effects (stepsLeft s.mTime s.mFinalTime dt) ∧ good t.mSolver := by
  induction fuel generalizing s inputs with
  | zero => omega
  | succ fuel ih =>
    unfold runLoop
    by_cases due : s.mTime < s.mFinalTime
    · rw [if_pos due]
      obtain ⟨x,first,stepped,one,kept⟩ := step_paces paces (delivers 0) solvable
      have next := stepsLeft_next positive due
      have rest : stepsLeft (s.mTime + dt) s.mFinalTime dt = stepsLeft x.mTime x.mFinalTime dt := by
        rw [one.time,one.final,Nat.cast_one,one_mul]
      obtain ⟨t,later,ran,many,kept⟩ := ih (fun k => delivers (k + 1)) kept (by omega)
      refine ⟨t,first ++ later,bind_ok.mpr ⟨_,stepped,bind_ok.mpr ⟨_,ran,rfl⟩⟩,?_,kept⟩
      rw [next,rest,Nat.add_comm]
      exact one.trans many
    · rw [if_neg due,stepsLeft_zero positive due]
      exact ⟨s,[],rfl,.none rfl rfl rfl rfl,solvable⟩

/-- The loop of `RealTimeSimulation::run` executes its first step in any case. -/
theorem realTimeLoop_executed (positive : 0 < dt) (paces : Paces solver dt good) {inputs : Nat → Inputs H}
    (delivers : ∀ k, Delivers (inputs k)) {s : Simulation ℚ σ H} (solvable : good s.mSolver)
    (enough : stepsLeft s.mTime s.mFinalTime dt < fuel) :
    ∃ t effects, realTimeLoop solver fuel inputs s = .ok (t, effects) ∧
      Executed dt s t effects (max 1 (stepsLeft s.mTime s.mFinalTime dt)) ∧ good t.mSolver := by
  induction fuel generalizing s inputs with
  | zero => omega
  | succ fuel ih =>
    obtain ⟨x,first,stepped,one,kept⟩ := step_paces paces (delivers 0) solvable
    have time : x.mTime = s.mTime + dt := by rw [one.time,Nat.cast_one,one_mul]
    have rest : stepsLeft (s.mTime + dt) s.mFinalTime dt = stepsLeft x.mTime x.mFinalTime dt := by
      rw [time,one.final]
    unfold realTimeLoop
    by_cases again : x.mTime < x.mFinalTime
    · have due : s.mTime < s.mFinalTime := by
        rw [time,one.final] at again
        linarith
      have next := stepsLeft_next positive due
      have more := (stepsLeft_pos positive).mpr again
      obtain ⟨t,later,ran,many,kept⟩ := ih (fun k => delivers (k + 1)) kept (by omega)
      refine ⟨t,first ++ later,bind_ok.mpr ⟨_,stepped,?_⟩,?_,kept⟩
      · dsimp only
        rw [if_pos again]
        exact bind_ok.mpr ⟨_,ran,rfl⟩
      · rw [Nat.max_eq_right more] at many
        rw [Nat.max_eq_right (by omega),next,rest,Nat.add_comm]
        exact one.trans many
    · refine ⟨x,first,bind_ok.mpr ⟨_,stepped,?_⟩,?_,kept⟩
      · dsimp only
        rw [if_neg again]
        rfl
      · have none := stepsLeft_zero positive again
        have most : stepsLeft s.mTime s.mFinalTime dt ≤ 1 := by
          by_cases due : s.mTime < s.mFinalTime
          · rw [stepsLeft_next positive due,rest,none]
          · rw [stepsLeft_zero positive due]
            exact Nat.zero_le 1
        rw [Nat.max_eq_left most]
        exact one

/-- What a run does around its loop executes no step. -/
theorem runWith_executed {loop : (Nat → Inputs H) → Simulation ℚ σ H →
      Except Fault (Simulation ℚ σ H × List (Effect ℚ H))} {inputs : Nat → Inputs H} {s : Simulation ℚ σ H}
    (delivers : ∀ k, Delivers (inputs k))
    (looped : ∀ h, ∃ t effects, loop (fun k => inputs (k + 1)) { s with heap := h } = .ok (t, effects) ∧
      Executed dt { s with heap := h } t effects n) :
    ∃ t effects, s.runWith loop inputs = .ok (t, effects) ∧ Executed dt s t effects n := by
  obtain ⟨x,synced,sync⟩ := sync_delivers (delivers 0) s
  obtain ⟨silent,h,rfl⟩ := sync_solved sync
  obtain ⟨t,steps,ran,executed⟩ := looped h
  refine ⟨t,_,runWith_ok.mpr ⟨_,_,_,sync,ran,rfl⟩,?_,executed.time,executed.final,executed.count⟩
  simp [silent,executed.times]

end Loops
end Simulation
end DPsim
