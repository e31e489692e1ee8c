import DPsim.MNAInitialization
import DPsim.SimulationEvents
import Mathlib.Algebra.Order.Ring.Rat

/-! The switch status that a step's `solve` uses. It is recorded at the end of the step before,
so it is out of date when reads, events or components have moved a switch since then. -/
namespace DPsim.MnaSolver
open Transition Simulation

variable {V : VarType} {Real W : Type} [Field Real] [LinearOrder Real]

def heapAtSolve (s : MnaSolver V Real W) (time : Real) (h : Heap W) : Heap W := (s.stepComponents time h).2

/-- When `solve` selects a factorization each bit is the position of its switch. -/
def StatusCurrent (s : MnaSolver V Real W) (time : Real) (h : Heap W) : Prop :=
  ∀ i sw, s.mSwitches[i]? = some sw →
    (s.stepComponents time h).1.mCurrentSwitchStatus.getLsbD i = sw.mnaIsClosed (s.heapAtSolve time h)

def Recorded (s : MnaSolver V Real W) (h : Heap W) : Prop :=
  ∀ i sw, s.mSwitches[i]? = some sw → s.mCurrentSwitchStatus.getLsbD i = sw.mnaIsClosed h

def Unswitched (s : MnaSolver V Real W) (before after : Heap W) : Prop :=
  ∀ sw ∈ s.mSwitches, sw.mnaIsClosed after = sw.mnaIsClosed before

/-- The heap in which the status was last recorded: the one a step has left, or the one of
`initialize` while no step has been taken. -/
def recordedHeap (initial : Heap W)
    (trace : List (Simulation Real (MnaSolver V Real W) (Heap W) × Call Real (Heap W)))
    (x : Simulation Real (MnaSolver V Real W) (Heap W)) : Heap W :=
  if trace.any fun | (_, .step _ _) => true | _ => false then x.heap else initial

section Heaps
variable (initial : Heap W)
  (trace : List (Simulation Real (MnaSolver V Real W) (Heap W) × Call Real (Heap W)))
  (x : Simulation Real (MnaSolver V Real W) (Heap W))

omit [Field Real] in
theorem recordedHeap_addEvent (e : Event Real (Heap W)) :
    recordedHeap initial (trace ++ [(x,.addEvent e)]) (x.addEvent e) = recordedHeap initial trace x := by
  simp only [recordedHeap,List.any_append,List.any_cons,List.any_nil,Bool.or_false,addEvent]

omit [Field Real] in
theorem recordedHeap_step (input : Inputs (Heap W)) (effects : List (Effect Real (Heap W)))
    (y : Simulation Real (MnaSolver V Real W) (Heap W)) :
    recordedHeap initial (trace ++ [(x,.step input effects)]) y = y.heap := by
  simp [recordedHeap]

end Heaps

omit [LinearOrder Real] in
theorem statusCurrent_iff {s : MnaSolver V Real W} {recorded : Heap W} (known : Recorded s recorded)
    (time : Real) (h : Heap W) : StatusCurrent s time h ↔ Unswitched s recorded (s.heapAtSolve time h) := by
  constructor
  · intro current sw member
    obtain ⟨i,at_⟩ := List.mem_iff_getElem?.mp member
    exact (current i sw at_).symm.trans (known i sw at_)
  · intro unswitched i sw at_
    exact (known i sw at_).trans (unswitched sw (List.mem_of_getElem? at_)).symm

omit [Field Real] [LinearOrder Real] in
theorem updateSwitchStatus_recorded (s : MnaSolver V Real W) (h : Heap W) (few : s.mSwitches.length ≤ 32) :
    Recorded (s.updateSwitchStatus h) h := by
  intro i sw at_
  have same : s.mSwitches[i]? = some sw := at_
  rw [updateSwitchStatus_bit s h few,same]
  rfl

theorem run_recorded {lib : Library Real W} {initial : Heap W}
    {start x : Simulation Real (MnaSolver V Real W) (Heap W)}
    (few : start.mSolver.mSwitches.length ≤ 32) (known : Recorded start.mSolver initial)
    (path : Path (Moves (solver lib)) start trace x) : Recorded x.mSolver (recordedHeap initial trace x) := by
  have both := path.history (P := fun trace x => x.mSolver.mSwitches.length ≤ 32 ∧
    Recorded x.mSolver (recordedHeap initial trace x)) ?_ [] ⟨few,known⟩
  · exact both.2
  rintro trace x call y ⟨few,known⟩ move
  cases call with
  | addEvent e =>
    obtain rfl : y = x.addEvent e := move
    rw [recordedHeap_addEvent]
    exact ⟨few,known⟩
  | step input effects =>
    obtain ⟨h,_,s,g,_,solved,rfl,_⟩ := step_ok.mp move
    obtain ⟨_,_,_,_,rfl,_⟩ := step_frame solved
    rw [recordedHeap_step]
    exact ⟨few,updateSwitchStatus_recorded x.mSolver g few⟩

/-- In every step of every run the status at the solve is current exactly if the interface reads,
the events and the components of the step leave all switches where they were last recorded. -/
theorem status_current_iff (lib : Library Real W) (fuel : Nat) (timeStep : Real) (domain : Domain)
    (steadyStateInit : Bool) (system : SystemTopology Real W) (h g : Heap W)
    (start : Simulation Real (MnaSolver V Real W) (Heap W))
    (initialized : (make timeStep domain steadyStateInit system : MnaSolver V Real W).initializeSystem
      lib fuel h = .ok (start.mSolver, g)) :
    ∃ p k, (make timeStep domain steadyStateInit system : MnaSolver V Real W).initializeNetwork lib fuel h =
        .ok (p, k) ∧
      ∀ trace x, Path (Moves (solver lib)) start trace x →
        ∀ input handled, x.readAndHandle input = .ok handled →
          (StatusCurrent x.mSolver x.mTime handled.heap ↔
            Unswitched x.mSolver (recordedHeap (p.setBehaviours .Simulation k) trace x)
              (x.mSolver.heapAtSolve x.mTime handled.heap)) := by
  obtain ⟨p,k,prepared,network,done⟩ := initializeSystem_ok initialized
  refine ⟨p,k,prepared,fun trace x path input handled _ => ?_⟩
  have few : start.mSolver.mSwitches.length ≤ 32 := by
    rw [done.switches]
    exact network.few
  have known : Recorded start.mSolver (p.setBehaviours .Simulation k) := by
    intro i sw at_
    rw [done.status]
    rw [done.switches] at at_
    exact updateSwitchStatus_recorded p _ network.few i sw at_
  exact statusCurrent_iff (run_recorded few known path) x.mTime handled.heap

def breaker : MNASwitchInterface ℚ Bool where
  mnaInitialize _ _ h := h
  mnaApplySystemMatrixStamp h m := m.accumulate fun _ _ => if h.objects then 1000 else 1
  mnaApplySwitchSystemMatrixStamp closed _ m := m.accumulate fun _ _ => if closed then 1000 else 1
  mnaStep _ e := e
  mnaIsClosed h := h.objects

def breakerSystem : SystemTopology ℚ Bool where
  mNodes := [⟨⟨.system 0,.Single⟩,false,.complex⟩]
  mComponents := [⟨some breaker,none,none,fun _ h => h⟩]
  mSystemFrequency := 50
  mSystemOmega := 314

def breakerLibrary : Library ℚ Bool := ⟨fun _ _ _ _ => 0,.Single,fun _ _ h => h⟩

def openBreaker : Heap Bool := ⟨fun _ _ => 0,fun _ _ => none,0,false⟩

def closing : Event ℚ (Heap Bool) :=
  SwitchEvent 0 0 ⟨fun h => { h with objects := true },fun h => { h with objects := false }⟩ true

def breakerSimulation (s : MnaSolver .complex ℚ Bool) : Simulation ℚ (MnaSolver .complex ℚ Bool) (Heap Bool) :=
  ⟨0,1,0,s,.empty,[],[],openBreaker⟩

theorem breaker_current_iff : ∃ s g p k,
    (make 1 .DP false breakerSystem : MnaSolver .complex ℚ Bool).initializeSystem breakerLibrary 0
      openBreaker = .ok (s, g) ∧
    (make 1 .DP false breakerSystem : MnaSolver .complex ℚ Bool).initializeNetwork breakerLibrary 0
      openBreaker = .ok (p, k) ∧
    ∀ trace x, Path (Moves (solver breakerLibrary)) (breakerSimulation s) trace x →
      ∀ input handled, x.readAndHandle input = .ok handled →
        (StatusCurrent x.mSolver x.mTime handled.heap ↔
          Unswitched x.mSolver (recordedHeap (p.setBehaviours .Simulation k) trace x)
            (x.mSolver.heapAtSolve x.mTime handled.heap)) := by
  obtain ⟨s,g,initialized⟩ : ∃ s g, (make 1 .DP false breakerSystem :
      MnaSolver .complex ℚ Bool).initializeSystem breakerLibrary 0 openBreaker = .ok (s, g) := ⟨_,_,rfl⟩
  obtain ⟨p,k,found⟩ := status_current_iff breakerLibrary 0 1 .DP false breakerSystem openBreaker g
    (breakerSimulation s) initialized
  exact ⟨s,g,p,k,initialized,found⟩

/-- An event closes the switch in the step at time zero; the solve of that step still takes the
factorization of the open switch, and only the next one that of the closed switch. -/
theorem switch_event_late : ∃ s g handled y effects,
    (make 1 .DP false breakerSystem : MnaSolver .complex ℚ Bool).initializeSystem breakerLibrary 0
      openBreaker = .ok (s, g) ∧
    Path (Moves (solver breakerLibrary)) (breakerSimulation s) [(breakerSimulation s,.addEvent closing)]
      ((breakerSimulation s).addEvent closing) ∧
    Event.Due ((breakerSimulation s).addEvent closing).mTime closing ∧
    ((breakerSimulation s).addEvent closing).readAndHandle ⟨fun _ _ h => .ok h⟩ = .ok handled ∧
    ¬ StatusCurrent s 0 handled.heap ∧ (s.stepComponents 0 handled.heap).1.mCurrentSwitchStatus = 0 ∧
    ((breakerSimulation s).addEvent closing).step (solver breakerLibrary) ⟨fun _ _ h => .ok h⟩ =
      .ok (y, effects) ∧ y.mSolver.mCurrentSwitchStatus = 1 := by
  refine ⟨_,_,_,_,_,rfl,.single rfl,by decide,rfl,fun current => ?_,rfl,rfl,?_⟩
  · have bit := current 0 breaker rfl
    exact absurd bit (by decide)
  · rfl

end DPsim.MnaSolver
