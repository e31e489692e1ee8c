import DPsim.PythonEvents
import DPsim.SimulationSteps

/-! Where an action takes a thread, and which part of it executes a step. -/
namespace DPsim.Python

variable {Real σ H : Type} [LinearOrder Real]

namespace Thread

def target (self : Simulation Real σ H) (overrun : Bool) (t : Thread Real H) : Pc :=
  match t.pc with
  | .opening => .syncing
  | .syncing => .head
  | .head => if t.time < self.sim.mFinalTime then .stepping else .finishing
  | .stepping => .sleeping
  | .sleeping => if self.realTime && overrun then .overrunning else .checkFirst
  | .overrunning => .checkFirst
  | .checkFirst => if self.sim.mTimeStepCount = 1 then .firstRunning else .checkPausing
  | .firstRunning => .checkPausing
  | .checkPausing => if self.state = .pausing then .toPause else .checkSingle
  | .checkSingle => if self.singleStepping then .toPause else .checkStopping
  | .toPause => .pausedWait
  | .pausedWait => .checkStopping
  | .checkStopping => if self.state = .stopping then .toStop else .head
  | .toStop => .leaving
  | .leaving => .returned .stopped
  | .finishing => .closing
  | .closing => .returned .done
  | .returned exit => .returned exit

/-- The flags of the object, which only control calls write. -/
structure SameFlags (before after : Simulation Real σ H) : Prop where
  singleStepping : after.singleStepping = before.singleStepping
  realTime : after.realTime = before.realTime
  failOnOverrun : after.failOnOverrun = before.failOnOverrun

/-- No step is executed: the times stay, and the simulation but for the objects. -/
structure Quiet (before after : Simulation Real σ H) (t t' : Thread Real H) : Prop where
  solved : solvedTimes t'.effects = solvedTimes t.effects
  time : t'.time = t.time
  sim : ∃ h, after.sim = { before.sim with heap := h }

/-- `Simulation::step` has been called. -/
structure Steps (solver : Solver Real σ H) (input : Inputs H) (before after : Simulation Real σ H)
    (t t' : Thread Real H) : Prop where
  step : ∃ effects, before.sim.step solver input = .ok (after.sim, effects) ∧
    t'.effects = t.effects ++ effects
  time : t'.time = after.sim.mTime

/-- Everything that an action does to the object and to the thread itself. -/
theorem act_does {solver : Solver Real σ H} {self self' : Simulation Real σ H} {t t' : Thread Real H}
    (acted : t.act solver self input overrun = some (self', t')) :
    t'.pc = t.target self overrun ∧ SameFlags self self' ∧
      self'.state = (t.announces self).getD self.state ∧
      (t.pc = .stepping → Steps solver input self self' t t') ∧
      (t.pc ≠ .stepping → Quiet self self' t t') := by
  obtain ⟨_,state,_⟩ := World.act_reports acted
  have goes {target : Pc} (acted : some (self,t.goto target) = some (self',t')) :
      t'.pc = target ∧ SameFlags self self' ∧ Quiet self self' t t' := by
    cases acted
    exact ⟨rfl,⟨rfl,rfl,rfl⟩,⟨rfl,rfl,_,rfl⟩⟩
  cases at_ : t.pc with
  | opening =>
    simp only [act,at_,Option.some.injEq,Prod.mk.injEq] at acted
    obtain ⟨rfl,rfl⟩ := acted
    exact ⟨by simp [target,at_],⟨rfl,rfl,rfl⟩,state,by simp,
      fun _ => ⟨by simp,rfl,self.sim.heap,DPsim.Simulation.onInterfaces_open self.sim⟩⟩
  | syncing =>
    simp only [act,at_] at acted
    split at acted
    · split at acted
      · rename_i sim synced sync
        cases acted
        obtain ⟨silent,h,kept⟩ := DPsim.Simulation.sync_solved sync
        exact ⟨by simp [target,at_],⟨rfl,rfl,rfl⟩,state,by simp,fun _ => ⟨by simp [silent],rfl,h,kept⟩⟩
      · contradiction
    · obtain ⟨pc,flags,quiet⟩ := goes acted
      exact ⟨by simp [target,at_,pc],flags,state,by simp,fun _ => quiet⟩
  | stepping =>
    simp only [act,at_] at acted
    split at acted
    · rename_i sim stepped step
      cases acted
      exact ⟨by simp [target,at_],⟨rfl,rfl,rfl⟩,state,fun _ => ⟨⟨stepped,step,rfl⟩,rfl⟩,by simp⟩
    · contradiction
  | head | sleeping | checkFirst | checkPausing | checkSingle | checkStopping | leaving =>
    simp only [act,at_] at acted
    obtain ⟨pc,flags,quiet⟩ := goes acted
    exact ⟨by simp [target,at_,pc],flags,state,by simp,fun _ => quiet⟩
  | overrunning | firstRunning | toPause | toStop | finishing =>
    simp only [act,at_,Option.some.injEq,Prod.mk.injEq] at acted
    obtain ⟨rfl,rfl⟩ := acted
    refine ⟨by simp [target,at_],?_,state,by simp,fun _ => ⟨rfl,rfl,self.sim.heap,?_⟩⟩
    · first | exact ⟨rfl,rfl,rfl⟩ | (split <;> exact ⟨rfl,rfl,rfl⟩)
    · first | rfl | (split <;> rfl)
  | pausedWait =>
    simp only [act,at_] at acted
    split at acted
    · contradiction
    · cases acted
      refine ⟨by simp [target,at_],?_,state,by simp,fun _ => ⟨rfl,rfl,self.sim.heap,?_⟩⟩
      · split <;> exact ⟨rfl,rfl,rfl⟩
      · split <;> rfl
  | closing =>
    simp only [act,at_,Option.some.injEq,Prod.mk.injEq] at acted
    obtain ⟨rfl,rfl⟩ := acted
    exact ⟨by simp [target,at_],⟨rfl,rfl,rfl⟩,state,by simp,
      fun _ => ⟨by simp,rfl,self.sim.heap,DPsim.Simulation.onInterfaces_close self.sim⟩⟩
  | returned exit => simp [act,at_] at acted

end Thread
end DPsim.Python
