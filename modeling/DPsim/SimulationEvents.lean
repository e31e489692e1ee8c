import DPsim.Simulation
import DPsim.Transition
import Mathlib.Algebra.Order.Group.Multiset
import Mathlib.Data.Multiset.UnionInter

/-! When scheduled events run, over whole runs of `Simulation::step` with `addEvent` calls
between the steps. The multiset of pending events is carried along the run. -/
namespace DPsim.Simulation
open Transition

variable {Real σ H : Type} [LinearOrder Real]

/-- One call on a simulation; a step comes with what it received and what it did. -/
inductive Call (Real H : Type) where
  | addEvent (e : Event Real H)
  | step (input : Inputs H) (effects : List (Effect Real H))

def Moves (solver : Solver Real σ H) (s : Simulation Real σ H) : Call Real H → Simulation Real σ H → Prop
  | .addEvent e, t => t = s.addEvent e
  | .step input effects, t => s.step solver input = .ok (t, effects)

def handledEvents (effects : List (Effect Real H)) : List (Event Real H) :=
  effects.filterMap fun | .handled e => some e | _ => none

/-- The steps of the trace include one at or after the event's time. -/
def reaches (e : Event Real H) (trace : List (Simulation Real σ H × Call Real H)) : Bool :=
  trace.any fun | (s, .step _ _) => decide (Event.Due s.mTime e) | _ => false

/-- The events added in a trace for which no step since then has come to their time. -/
def unexecuted : List (Simulation Real σ H × Call Real H) → Multiset (Event Real H)
  | [] => 0
  | (_, .addEvent e) :: rest => (if reaches e rest then 0 else {e}) + unexecuted rest
  | (_, .step _ _) :: rest => unexecuted rest

def added : List (Simulation Real σ H × Call Real H) → Multiset (Event Real H)
  | [] => 0
  | (_, .addEvent e) :: rest => {e} + added rest
  | (_, .step _ _) :: rest => added rest

def executed : List (Simulation Real σ H × Call Real H) → Multiset (Event Real H)
  | [] => 0
  | (_, .addEvent _) :: rest => executed rest
  | (_, .step _ effects) :: rest => handledEvents effects + executed rest

@[simp] theorem handledEvents_stepEffects (s : Simulation Real σ H) (events : List (Event Real H)) :
    handledEvents (s.stepEffects events) = events := by
  simp [handledEvents,stepEffects,List.filterMap_append,List.filterMap_map,
    List.filterMap_eq_nil_iff.mpr]

theorem step_events (solver : Solver Real σ H) (s t : Simulation Real σ H)
    (stepped : s.step solver input = .ok (t, effects)) :
    (handledEvents effects : Multiset (Event Real H)) = s.mEvents.pending.filter (Event.Due s.mTime) ∧
      t.mEvents.pending = s.mEvents.pending.filter (¬ Event.Due s.mTime ·) ∧
      (handledEvents effects).Pairwise (·.mTime ≤ ·.mTime) := by
  obtain ⟨h,_,_,_,_,_,rfl,rfl⟩ := step_ok.mp stepped
  rw [handledEvents_stepEffects]
  exact s.mEvents.handleEvents_spec s.mTime h

theorem unexecuted_add (trace : List (Simulation Real σ H × Call Real H)) (s : Simulation Real σ H)
    (e : Event Real H) : unexecuted (trace ++ [(s,.addEvent e)]) = e ::ₘ unexecuted trace := by
  induction trace with
  | nil => rfl
  | cons p trace ih =>
    obtain ⟨x,call⟩ := p
    cases call with
    | addEvent d =>
      have same : reaches d (trace ++ [(s,.addEvent e)]) = reaches d trace := by
        simp [reaches]
      simp only [List.cons_append,unexecuted,ih,same,Multiset.add_cons]
    | step => exact ih

theorem unexecuted_step (trace : List (Simulation Real σ H × Call Real H)) (s : Simulation Real σ H)
    (input : Inputs H) (effects : List (Effect Real H)) :
    unexecuted (trace ++ [(s,.step input effects)]) =
      (unexecuted trace).filter (¬ Event.Due s.mTime ·) := by
  induction trace with
  | nil => rfl
  | cons p trace ih =>
    obtain ⟨x,call⟩ := p
    cases call with
    | addEvent d =>
      have either : reaches d (trace ++ [(s,.step input effects)]) =
          (reaches d trace || decide (Event.Due s.mTime d)) := by
        simp [reaches]
      simp only [List.cons_append,unexecuted,ih,either,Multiset.filter_add]
      by_cases before : reaches d trace = true
      · simp [before]
      · by_cases now : Event.Due s.mTime d <;> simp [before,now,Multiset.filter_singleton]
    | step => exact ih

theorem pending_unexecuted (solver : Solver Real σ H) (path : Path (Moves solver) s trace t)
    (before : List (Simulation Real σ H × Call Real H))
    (start : s.mEvents.pending = unexecuted before) :
    t.mEvents.pending = unexecuted (before ++ trace) := by
  refine path.history (P := fun trace t => t.mEvents.pending = unexecuted trace) ?_ before start
  intro trace x call y pending move
  cases call with
  | addEvent e =>
    obtain rfl : y = x.addEvent e := move
    rw [unexecuted_add,← pending]
    exact x.mEvents.pending_addEvent e
  | step input effects =>
    rw [unexecuted_step,← pending]
    exact (step_events solver x y move).2.1

theorem executed_accounts (solver : Solver Real σ H) (path : Path (Moves solver) s trace t) :
    executed trace + t.mEvents.pending = s.mEvents.pending + added trace := by
  induction path with
  | nil => simp [executed,added]
  | @cons s call next rest t move _ ih =>
    cases call with
    | addEvent e =>
      obtain rfl : next = s.addEvent e := move
      have queued : (s.addEvent e).mEvents.pending = e ::ₘ s.mEvents.pending :=
        s.mEvents.pending_addEvent e
      simp only [executed,added,ih,queued,← Multiset.singleton_add]
      rw [add_assoc,add_left_comm]
    | step input effects =>
      obtain ⟨handled,left,_⟩ := step_events solver s next move
      simp only [executed,added]
      rw [add_assoc,ih,handled,left,← add_assoc,Multiset.filter_add_not]

/-- A step executes what it reports as handled: its solver starts from the objects as the reads, and
then the handled events in their order, have left them. -/
theorem step_executes (solver : Solver Real σ H) (s t : Simulation Real σ H)
    (stepped : s.step solver input = .ok (t, effects)) :
    ∃ h, s.sampledInterfaces.foldlM
        (fun h ifm => input.readValues ifm.interface.address ifm.sync h) s.heap = .ok h ∧
      solver.step s.mTime s.mSolver (Event.executeAll (handledEvents effects) h) =
        .ok (t.mTime, t.mSolver, t.heap) := by
  obtain ⟨h,_,_,_,read,solved,rfl,rfl⟩ := step_ok.mp stepped
  refine ⟨h,read,?_⟩
  rw [handledEvents_stepEffects]
  exact EventQueue.handle_heap s.mTime _ s.mEvents h ▸ solved

/-- Every added event runs in the first step at or after its time, and in no other. -/
structure EventsRunOnce (solver : Solver Real σ H) (trace : List (Simulation Real σ H × Call Real H))
    (t : Simulation Real σ H) : Prop where
  /-- A step executes the events that were added before it, are due, and have not come to
  their time in an earlier step since they were added. -/
  step : ∀ before s input effects after, trace = before ++ (s,.step input effects) :: after →
    (handledEvents effects : Multiset (Event Real H)) = (unexecuted before).filter (Event.Due s.mTime)
  /-- The handled events are executed, in their order, between the reads and the solver. -/
  executes : ∀ before s input effects after, trace = before ++ (s,.step input effects) :: after →
    ∃ next h, (states after t).head? = some next ∧
      s.sampledInterfaces.foldlM
        (fun h ifm => input.readValues ifm.interface.address ifm.sync h) s.heap = .ok h ∧
      solver.step s.mTime s.mSolver (Event.executeAll (handledEvents effects) h) =
        .ok (next.mTime, next.mSolver, next.heap)
  /-- Adding an event executes nothing. -/
  untouched : ∀ before s e after, trace = before ++ (s,.addEvent e) :: after →
    ∃ next, (states after t).head? = some next ∧ next.heap = s.heap
  ordered : ∀ s input effects, (s,.step input effects) ∈ trace →
    (handledEvents effects).Pairwise (·.mTime ≤ ·.mTime)
  /-- In particular an event is executed in the first such step. -/
  first : ∀ before x e mid s input effects after,
    trace = before ++ (x,.addEvent e) :: (mid ++ (s,.step input effects) :: after) →
    reaches e mid = false → Event.Due s.mTime e → e ∈ handledEvents effects
  /-- Every added event has been executed once or is one of the unexecuted ones. -/
  accounted : executed trace + unexecuted trace = added trace
  pending : t.mEvents.pending = unexecuted trace
  /-- When each `addEvent` brings its own event object, no object is executed twice, and one
  whose time no later step has reached is not executed. -/
  once : ((added trace).map Event.address).Nodup → ((executed trace).map Event.address).Nodup ∧
    ∀ before x e after, trace = before ++ (x,.addEvent e) :: after → reaches e after = false →
      e.address ∉ (executed trace).map Event.address

theorem unexecuted_mem (before : List (Simulation Real σ H × Call Real H)) (x : Simulation Real σ H)
    (e : Event Real H) (after : List (Simulation Real σ H × Call Real H))
    (untimely : reaches e after = false) : e ∈ unexecuted (before ++ (x,.addEvent e) :: after) := by
  induction before with
  | nil => simp [unexecuted,untimely]
  | cons p before ih =>
    obtain ⟨y,call⟩ := p
    cases call with
    | addEvent d => simp only [List.cons_append,unexecuted]; exact Multiset.mem_add.mpr (.inr ih)
    | step => exact ih

theorem events_run_once (solver : Solver Real σ H) (s t : Simulation Real σ H)
    (trace : List (Simulation Real σ H × Call Real H)) (path : Path (Moves solver) s trace t)
    (fresh : s.mEvents = EventQueue.empty) : EventsRunOnce solver trace t := by
  have empty : s.mEvents.pending = 0 := by rw [fresh,EventQueue.pending_empty]
  have pending : t.mEvents.pending = unexecuted trace := pending_unexecuted solver path [] empty
  have accounted : executed trace + unexecuted trace = added trace := by
    simpa [empty,pending] using executed_accounts solver path
  have step : ∀ before s input effects after, trace = before ++ (s,.step input effects) :: after →
      (handledEvents effects : Multiset (Event Real H)) =
        (unexecuted before).filter (Event.Due s.mTime) := by
    rintro before x input effects after rfl
    obtain ⟨next,first,here,_⟩ := path.at_step
    rw [(step_events solver x next here).1,pending_unexecuted solver first [] empty]
    rfl
  refine ⟨step,?_,?_,?_,?_,accounted,pending,fun distinct => ?_⟩
  · rintro before x input effects after rfl
    obtain ⟨next,_,here,rest⟩ := path.at_step
    obtain ⟨h,read,solved⟩ := step_executes solver x next here
    exact ⟨next,h,rest.starts,read,solved⟩
  · rintro before x e after rfl
    obtain ⟨next,_,here,rest⟩ := path.at_step
    obtain rfl : next = x.addEvent e := here
    exact ⟨_,rest.starts,rfl⟩
  · intro x input effects member
    obtain ⟨before,after,rfl⟩ := List.append_of_mem member
    obtain ⟨next,_,here,_⟩ := path.at_step
    exact (step_events solver x next here).2.2
  · intro before x e mid s input effects after split untimely due
    have waiting := unexecuted_mem before x e mid untimely
    have handled := step (before ++ (x,.addEvent e) :: mid) s input effects after (by simp [split])
    exact Multiset.mem_coe.mp (handled ▸ Multiset.mem_filter.mpr ⟨waiting,due⟩)
  · rw [← accounted,Multiset.map_add,Multiset.nodup_add] at distinct
    refine ⟨distinct.1,fun before x e after split untimely again => ?_⟩
    have waiting : e ∈ unexecuted trace := split ▸ unexecuted_mem before x e after untimely
    exact Multiset.disjoint_left.mp distinct.2.2 again (Multiset.mem_map_of_mem _ waiting)

def tick : Solver Nat Unit Nat := ⟨fun time s h => .ok (time + 1, s, h)⟩

def silent : Inputs Nat := ⟨fun _ _ h => .ok h⟩

def ticked (s : Simulation Nat Unit Nat) : Simulation Nat Unit Nat × List (Effect Nat Nat) :=
  match s.step tick silent with
  | .ok result => result
  | .error _ => (s, [])

def idle : Simulation Nat Unit Nat := ⟨0, 5, 0, (), .empty, [], [], 0⟩

def late : Event Nat Nat := ⟨7, 1, fun n => n + 1⟩

/-- An event for time 1, added before the first step, runs in the second one. -/
theorem events_run_once_late :
    let s := idle.addEvent late
    let t := (ticked s).1
    EventsRunOnce tick [(idle,.addEvent late),(s,.step silent (ticked s).2),(t,.step silent (ticked t).2)]
        (ticked t).1 ∧ (ticked t).1.heap = 1 :=
  ⟨events_run_once tick idle _ _ (.cons rfl (.cons rfl (.cons rfl .nil))) rfl, by decide⟩

end DPsim.Simulation
