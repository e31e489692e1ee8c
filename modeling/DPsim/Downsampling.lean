import DPsim.SimulationEvents

/-! Which steps of a run write to the loggers and exchange samples with the interfaces. The step
count wraps around, as the increment of the 32-bit counter does where it is compiled. -/
namespace DPsim.Simulation
open Transition

variable {Real σ H : Type} [LinearOrder Real]

def stepCount (trace : List (Simulation Real σ H × Call Real H)) : Nat :=
  trace.countP fun | (_, .step _ _) => true | _ => false

@[simp] theorem stepCount_nil : stepCount ([] : List (Simulation Real σ H × Call Real H)) = 0 := rfl

@[simp] theorem stepCount_step (s : Simulation Real σ H) (input : Inputs H) (effects : List (Effect Real H))
    (trace : List (Simulation Real σ H × Call Real H)) :
    stepCount ((s,.step input effects) :: trace) = stepCount trace + 1 := List.countP_cons_of_pos rfl

@[simp] theorem stepCount_addEvent (s : Simulation Real σ H) (e : Event Real H)
    (trace : List (Simulation Real σ H × Call Real H)) :
    stepCount ((s,.addEvent e) :: trace) = stepCount trace := List.countP_cons_of_neg (by simp)

def readInterfaces (effects : List (Effect Real H)) : List (Nat × Bool) :=
  effects.filterMap fun | .read i blocking => some (i,blocking) | _ => none

def writtenInterfaces (effects : List (Effect Real H)) : List Nat :=
  effects.filterMap fun | .wrote i => some i | _ => none

def writtenRows (effects : List (Effect Real H)) : List (Nat × Real) :=
  effects.filterMap fun | .logged lg time => some (lg,time) | _ => none

/-- The step with the number `k` serves exactly the interfaces and loggers whose `downsampling`
divides `k`. -/
structure Downsampled (k : Nat) (s : Simulation Real σ H) (effects : List (Effect Real H)) : Prop where
  reads : readInterfaces effects = (s.mInterfaces.filter (·.downsampling.toNat ∣ k)).map
    fun ifm => (ifm.interface.address,ifm.sync)
  writes : writtenInterfaces effects = (s.mInterfaces.filter (·.downsampling.toNat ∣ k)).map
    fun ifm => ifm.interface.address
  rows : writtenRows effects = (s.mLoggers.filter (·.downsampling.toNat ∣ k)).map
    fun lg => (lg.logger,s.mTime)

@[simp] theorem readInterfaces_stepEffects (s : Simulation Real σ H) (events : List (Event Real H)) :
    readInterfaces (s.stepEffects events) =
      s.sampledInterfaces.map fun ifm => (ifm.interface.address,ifm.sync) := by
  simp [readInterfaces,stepEffects,List.filterMap_append,List.filterMap_eq_nil_iff.mpr]

@[simp] theorem writtenInterfaces_stepEffects (s : Simulation Real σ H) (events : List (Event Real H)) :
    writtenInterfaces (s.stepEffects events) = s.sampledInterfaces.map fun ifm => ifm.interface.address := by
  simp [writtenInterfaces,stepEffects,List.filterMap_append,List.filterMap_eq_nil_iff.mpr]

@[simp] theorem writtenRows_stepEffects (s : Simulation Real σ H) (events : List (Event Real H)) :
    writtenRows (s.stepEffects events) = s.sampledLoggers.map fun lg => (lg.logger,s.mTime) := by
  simp [writtenRows,stepEffects,List.filterMap_append,List.filterMap_eq_nil_iff.mpr]

/-- The unsigned remainder sees the number of the step up to a multiple of `2 ^ 32`. -/
theorem onSample_ofNat (k : Nat) (downsampling : UInt32) :
    onSample (Int32.ofNat k) downsampling = true ↔ downsampling.toNat ∣ k % 2 ^ 32 := by
  have converted : (Int32.ofNat k).toUInt32.toNat = k % 2 ^ 32 := UInt32.toNat_ofNat'
  rw [onSample,beq_iff_eq,← UInt32.toNat_inj,UInt32.toNat_mod,converted,UInt32.toNat_zero]
  exact Nat.dvd_iff_mod_eq_zero.symm

/-- The count at a step is the number of the steps before it, and the mappings stay. -/
theorem moves_counted {solver : Solver Real σ H} {s t : Simulation Real σ H}
    (path : Path (Moves solver) s trace t) :
    t.mTimeStepCount = s.mTimeStepCount + Int32.ofNat (stepCount trace) ∧
      t.mInterfaces = s.mInterfaces ∧ t.mLoggers = s.mLoggers := by
  induction path with
  | nil => exact ⟨by simp,rfl,rfl⟩
  | @cons s call u rest t move _ ih =>
    obtain ⟨count,interfaces,loggers⟩ := ih
    cases call with
    | addEvent e =>
      obtain rfl : u = s.addEvent e := move
      rw [stepCount_addEvent]
      exact ⟨count,interfaces,loggers⟩
    | step input effects =>
      obtain ⟨_,_,_,_,_,_,rfl,rfl⟩ := step_ok.mp move
      refine ⟨?_,interfaces,loggers⟩
      rw [count,stepCount_step,Nat.add_comm,Int32.ofNat_add,Int32.add_assoc]
      rfl

def downsamplings (s : Simulation Real σ H) : List UInt32 :=
  s.mInterfaces.map (·.downsampling) ++ s.mLoggers.map (·.downsampling)

theorem forall_downsamplings {s : Simulation Real σ H} {P : UInt32 → Prop} :
    (∀ d ∈ s.downsamplings, P d) ↔
      (∀ ifm ∈ s.mInterfaces, P ifm.downsampling) ∧ ∀ lg ∈ s.mLoggers, P lg.downsampling := by
  simp [downsamplings,or_imp,forall_and]

/-- The step serves the right mappings as long as the wrapped count tells the same of each. -/
theorem downsampled_of_agree {solver : Solver Real σ H} {s t : Simulation Real σ H} {k : Nat}
    (stepped : s.step solver input = .ok (t, effects)) (count : s.mTimeStepCount = Int32.ofNat k)
    (agree : ∀ d ∈ s.downsamplings, (d.toNat ∣ k % 2 ^ 32 ↔ d.toNat ∣ k)) : Downsampled k s effects := by
  obtain ⟨_,_,_,_,_,_,rfl,rfl⟩ := step_ok.mp stepped
  obtain ⟨interfaces,loggers⟩ := forall_downsamplings.mp agree
  have sampledI : s.sampledInterfaces = s.mInterfaces.filter (·.downsampling.toNat ∣ k) := by
    apply List.filter_congr
    intro ifm member
    rw [Bool.eq_iff_iff,count,onSample_ofNat,decide_eq_true_iff]
    exact interfaces ifm member
  have sampledL : s.sampledLoggers = s.mLoggers.filter (·.downsampling.toNat ∣ k) := by
    apply List.filter_congr
    intro lg member
    rw [Bool.eq_iff_iff,count,onSample_ofNat,decide_eq_true_iff]
    exact loggers lg member
  exact ⟨by rw [readInterfaces_stepEffects,sampledI],by rw [writtenInterfaces_stepEffects,sampledI],
    by rw [writtenRows_stepEffects,sampledL]⟩

theorem wrapped_step {solver : Solver Real σ H} {s t : Simulation Real σ H}
    (stepped : s.step solver input = .ok (t, effects)) (count : s.mTimeStepCount = Int32.ofNat (2 ^ 32))
    (right : Downsampled (2 ^ 32) s effects) : ∀ d ∈ s.downsamplings, d.toNat ∣ 2 ^ 32 := by
  obtain ⟨_,_,_,_,_,_,rfl,rfl⟩ := step_ok.mp stepped
  have all (d : UInt32) : onSample s.mTimeStepCount d = true := by
    rw [count,onSample_ofNat]
    exact Nat.dvd_zero _
  obtain ⟨_,writes,rows⟩ := right
  rw [writtenInterfaces_stepEffects,sampledInterfaces,List.filter_eq_self.mpr fun _ _ => all _] at writes
  rw [writtenRows_stepEffects,sampledLoggers,List.filter_eq_self.mpr fun _ _ => all _] at rows
  have interfaces := congrArg List.length writes
  have loggers := congrArg List.length rows
  rw [List.length_map,List.length_map,eq_comm,List.length_filter_eq_length_iff] at interfaces loggers
  exact forall_downsamplings.mpr
    ⟨fun ifm member => by simpa using interfaces ifm member,fun lg member => by simpa using loggers lg member⟩

theorem nth_step {n : Nat} {trace : List (Simulation Real σ H × Call Real H)} (more : n < stepCount trace) :
    ∃ before s input effects after, trace = before ++ (s,.step input effects) :: after ∧
      stepCount before = n := by
  induction trace generalizing n with
  | nil => simp at more
  | cons p trace ih =>
    obtain ⟨s,call⟩ := p
    cases call with
    | addEvent e =>
      rw [stepCount_addEvent] at more
      obtain ⟨before,x,input,effects,after,rfl,number⟩ := ih more
      exact ⟨(s,.addEvent e) :: before,x,input,effects,after,rfl,by rw [stepCount_addEvent,number]⟩
    | step input effects =>
      rw [stepCount_step] at more
      cases n with
      | zero => exact ⟨[],s,input,effects,trace,rfl,rfl⟩
      | succ n =>
        obtain ⟨before,x,input',effects',after,rfl,number⟩ := ih (Nat.lt_of_succ_lt_succ more)
        exact ⟨(s,.step input effects) :: before,x,input',effects',after,rfl,by rw [stepCount_step,number]⟩

def Exact (trace : List (Simulation Real σ H × Call Real H)) : Prop :=
  ∀ before s input effects after, trace = before ++ (s,.step input effects) :: after →
    Downsampled (stepCount before) s effects

/-- No run past the wrap-around is exact with a `downsampling` that is no power of two. -/
theorem exact_divides {solver : Solver Real σ H} {s t : Simulation Real σ H}
    (path : Path (Moves solver) s trace t) (fresh : s.mTimeStepCount = 0) (long : 2 ^ 32 < stepCount trace)
    (right : Exact trace) : ∀ d ∈ s.downsamplings, d.toNat ∣ 2 ^ 32 := by
  obtain ⟨before,x,input,effects,after,rfl,number⟩ := nth_step long
  obtain ⟨y,first,stepped,_⟩ := path.at_step
  obtain ⟨count,interfaces,loggers⟩ := moves_counted first
  rw [fresh,number,Int32.zero_add] at count
  have served := wrapped_step stepped count (number ▸ right _ _ _ _ _ rfl)
  rwa [downsamplings,interfaces,loggers] at served

theorem exact_of_divides {solver : Solver Real σ H} {s t : Simulation Real σ H}
    (path : Path (Moves solver) s trace t) (fresh : s.mTimeStepCount = 0)
    (holds : (∀ d ∈ s.downsamplings, d.toNat ∣ 2 ^ 32) ∨ stepCount trace ≤ 2 ^ 32) : Exact trace := by
  rintro before x input effects after rfl
  obtain ⟨y,first,stepped,_⟩ := path.at_step
  obtain ⟨count,interfaces,loggers⟩ := moves_counted first
  rw [fresh,Int32.zero_add] at count
  refine downsampled_of_agree stepped count fun d member => ?_
  rw [downsamplings,interfaces,loggers] at member
  rcases holds with divides | short
  · exact Nat.dvd_mod_iff (divides d member)
  · have less : stepCount before < 2 ^ 32 := by
      have split : stepCount (before ++ (x,.step input effects) :: after) =
          stepCount before + (stepCount after + 1) := by
        rw [stepCount,List.countP_append]
        exact congrArg _ (stepCount_step x input effects after)
      omega
    rw [Nat.mod_eq_of_lt less]

/-- A run is exact with each `downsampling` that is a power of two, and with any other as long as
the count has not wrapped around. -/
theorem downsampling_exact_iff {solver : Solver Real σ H} {s t : Simulation Real σ H}
    (path : Path (Moves solver) s trace t) (fresh : s.mTimeStepCount = 0) :
    Exact trace ↔ (∀ d ∈ s.downsamplings, d.toNat ∣ 2 ^ 32) ∨ stepCount trace ≤ 2 ^ 32 := by
  constructor
  · intro right
    rcases Nat.lt_or_ge (2 ^ 32) (stepCount trace) with long | short
    · exact .inl (exact_divides path fresh long right)
    · exact .inr short
  · exact exact_of_divides path fresh

def everyThird : Simulation Nat Unit Nat := ⟨0,9,0,(),EventQueue.empty,[],[⟨0,3⟩],0⟩

theorem ticks (n : Nat) (s : Simulation Nat Unit Nat) (alone : s.mInterfaces = []) :
    ∃ trace t, Path (Moves tick) s trace t ∧ stepCount trace = n := by
  induction n generalizing s with
  | zero => exact ⟨[],s,.nil,rfl⟩
  | succ n ih =>
    have sampled : s.sampledInterfaces = [] := by rw [sampledInterfaces,alone,List.filter_nil]
    obtain ⟨u,effects,stepped,kept⟩ :
        ∃ u effects, Moves tick s (.step silent effects) u ∧ u.mInterfaces = [] :=
      ⟨_,_,step_ok.mpr ⟨s.heap,_,_,_,by rw [sampled]; rfl,rfl,rfl,rfl⟩,alone⟩
    obtain ⟨trace,t,path,number⟩ := ih u kept
    exact ⟨_,t,.cons stepped path,by rw [stepCount_step,number]⟩

theorem downsampling_exact_everyThird : ∃ trace t, Path (Moves tick) everyThird trace t ∧
    stepCount trace = 4 ∧ Exact trace := by
  obtain ⟨trace,t,path,number⟩ := ticks 4 everyThird rfl
  exact ⟨trace,t,path,number,(downsampling_exact_iff path rfl).mpr (.inr (by omega))⟩

/-- The step with the number `2 ^ 32` writes a row, although 3 does not divide it. -/
theorem downsampling_wraps : ∃ trace t, Path (Moves tick) everyThird trace t ∧
    stepCount trace = 2 ^ 32 + 1 ∧ ¬ Exact trace := by
  obtain ⟨trace,t,path,number⟩ := ticks (2 ^ 32 + 1) everyThird rfl
  refine ⟨trace,t,path,number,fun right => ?_⟩
  have divides := exact_divides path rfl (by omega) right 3 (by simp [downsamplings,everyThird])
  exact absurd divides (by decide)

end DPsim.Simulation
