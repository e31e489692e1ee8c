import DPsim.Event
import DPsim.Transition
import Mathlib.Algebra.Order.Group.Multiset

/-! The order in which the events of a queue are executed, over all sequences of `addEvent` and
`handleEvents`. The comparator only sees the times, and the heap keeps no other order. -/
namespace DPsim.EventQueue
open Transition

variable {Real H : Type} [LinearOrder Real]

/-- A call on the queue; `handleEvents` comes with the events that it has executed, in order. -/
inductive Call (Real H : Type) where
  | addEvent (e : Event Real H)
  | handleEvents (currentTime : Real) (events : List (Event Real H))

inductive Step : EventQueue Real H × H → Call Real H → EventQueue Real H × H → Prop where
  | addEvent (q : EventQueue Real H) (h : H) (e : Event Real H) : Step (q,h) (.addEvent e) (q.addEvent e,h)
  | handleEvents (q : EventQueue Real H) (h : H) (currentTime : Real) :
      Step (q,h) (.handleEvents currentTime (q.handleEvents currentTime h).events)
        ((q.handleEvents currentTime h).queue,(q.handleEvents currentTime h).heap)

def added : List ((EventQueue Real H × H) × Call Real H) → List (Event Real H)
  | [] => []
  | (_,.addEvent e) :: rest => e :: added rest
  | (_,.handleEvents _ _) :: rest => added rest

def executed : List ((EventQueue Real H × H) × Call Real H) → List (Event Real H)
  | [] => []
  | (_,.addEvent _) :: rest => executed rest
  | (_,.handleEvents _ events) :: rest => events ++ executed rest

/-- Events of one time are executed in the order in which they were added. -/
def FirstInFirstOut (trace : List ((EventQueue Real H × H) × Call Real H)) : Prop :=
  ∀ time, (executed trace).filter (·.mTime = time) <+: (added trace).filter (·.mTime = time)

/-- What holds of the order: a call executes the events that are due, earliest first, each event is
executed once, and the front of the queue comes before all others until an earlier event is added. -/
structure Ordered (trace : List ((EventQueue Real H × H) × Call Real H)) (final : EventQueue Real H × H) : Prop where
  due : ∀ q h currentTime (events : List (Event Real H)), ((q,h),.handleEvents currentTime events) ∈ trace →
    (events : Multiset (Event Real H)) = q.pending.filter (Event.Due currentTime) ∧
      events.Pairwise (·.mTime ≤ ·.mTime)
  once : (executed trace : Multiset (Event Real H)) + final.1.pending = added trace
  front : ∀ before after s, trace = before ++ after → (states after final).head? = some s →
    ∀ e, s.1.mEvents.top = some e → (∀ d ∈ added after, e.mTime ≤ d.mTime) →
      (executed after = [] ∧ final.1.mEvents.top = some e) ∨ ∃ rest, executed after = e :: rest
  /-- The objects change by the executed events alone, each in its turn. -/
  objects : ∀ before between after s u, trace = before ++ between ++ after →
    (states (between ++ after) final).head? = some s → (states after final).head? = some u →
    u.2 = Event.executeAll (executed between) s.2

theorem handleEvents_front {q : EventQueue Real H} {e : Event Real H} (front : q.mEvents.top = some e)
    (currentTime : Real) (h : H) :
    (∃ rest, (q.handleEvents currentTime h).events = e :: rest) ∨
      ((q.handleEvents currentTime h).events = [] ∧ (q.handleEvents currentTime h).queue = q) := by
  obtain ⟨rest,items⟩ := PriorityQueue.items_of_top front
  unfold handleEvents
  rw [items,List.length_cons,handle,front]
  dsimp only
  split
  · exact .inr ⟨rfl,rfl⟩
  · exact .inl ⟨_,rfl⟩

theorem addEvent_front {q : EventQueue Real H} {e d : Event Real H} (front : q.mEvents.top = some e)
    (later : e.mTime ≤ d.mTime) : (q.addEvent d).mEvents.top = some e :=
  PriorityQueue.top_push front (comparator_false.mpr later)

theorem front_first {s t : EventQueue Real H × H} {trace : List ((EventQueue Real H × H) × Call Real H)}
    (path : Path Step s trace t) {e : Event Real H} (front : s.1.mEvents.top = some e)
    (later : ∀ d ∈ added trace, e.mTime ≤ d.mTime) :
    (executed trace = [] ∧ t.1.mEvents.top = some e) ∨ ∃ rest, executed trace = e :: rest := by
  induction path with
  | nil => exact .inl ⟨rfl,front⟩
  | @cons s call next others t step path ih =>
    cases step with
    | addEvent q h d =>
      obtain ⟨first,rest⟩ := List.forall_mem_cons.mp later
      exact ih (addEvent_front front first) rest
    | handleEvents q h currentTime =>
      rcases handleEvents_front front currentTime h with ⟨rest,starts⟩ | ⟨nothing,same⟩
      · right
        exact ⟨rest ++ executed others,congrArg (· ++ executed others) starts⟩
      · rw [executed,nothing]
        apply ih _ later
        rw [same]
        exact front

theorem executed_once {s t : EventQueue Real H × H} {trace : List ((EventQueue Real H × H) × Call Real H)}
    (path : Path Step s trace t) :
    (executed trace : Multiset (Event Real H)) + t.1.pending =
      s.1.pending + (added trace : Multiset (Event Real H)) := by
  induction path with
  | nil => simp [executed,added]
  | cons step path ih =>
    cases step with
    | addEvent q h e =>
      rw [executed,added,ih,pending_addEvent,← Multiset.cons_coe,Multiset.cons_add,Multiset.add_cons]
    | handleEvents q h currentTime =>
      obtain ⟨events,left,_⟩ := q.handleEvents_spec currentTime h
      rw [executed,added,← Multiset.coe_add,add_assoc,ih,events,left,← add_assoc,Multiset.filter_add_not]

theorem executed_objects {s t : EventQueue Real H × H} {trace : List ((EventQueue Real H × H) × Call Real H)}
    (path : Path Step s trace t) : t.2 = Event.executeAll (executed trace) s.2 := by
  induction path with
  | nil => rfl
  | cons step path ih =>
    cases step with
    | addEvent q h e => exact ih
    | handleEvents q h currentTime =>
      rw [executed,Event.executeAll_append,ih]
      exact congrArg _ (handle_heap currentTime _ q h)

/-- Every sequence of calls on an empty queue executes its events in this order. -/
theorem runs_ordered {h : H} {t : EventQueue Real H × H} {trace : List ((EventQueue Real H × H) × Call Real H)}
    (path : Path Step (empty,h) trace t) : Ordered trace t := by
  constructor
  · intro q h currentTime events member
    obtain ⟨before,after,rfl⟩ := List.append_of_mem member
    obtain ⟨u,_,step,_⟩ := path.at_step
    cases step
    obtain ⟨due,_,sorted⟩ := q.handleEvents_spec currentTime h
    exact ⟨due,sorted⟩
  · have once := executed_once path
    rwa [pending_empty,zero_add] at once
  · rintro before after s rfl head e front later
    obtain ⟨u,_,rest⟩ := path.of_append
    obtain rfl : u = s := Option.some.inj (rest.starts.symm.trans head)
    exact front_first rest front later
  · rintro before between after s u rfl first last
    obtain ⟨v,both,rest⟩ := path.of_append
    obtain ⟨x,_,middle⟩ := both.of_append
    obtain rfl : v = u := Option.some.inj (rest.starts.symm.trans last)
    obtain rfl : x = s := Option.some.inj ((middle.append rest).starts.symm.trans first)
    exact executed_objects middle

section Examples

def write (time value : Nat) : Event Nat Nat := ⟨value,time,fun _ => value⟩

def writes (es : List (Event Nat Nat)) : EventQueue Nat Nat := es.foldl addEvent empty

/-- The values 1 and 2 are written at time 5; then a write at time 1 is scheduled. -/
def threeWrites : List ((EventQueue Nat Nat × Nat) × Call Nat Nat) :=
  [((empty,0),.addEvent (write 5 1)),((writes [write 5 1],0),.addEvent (write 5 2)),
    ((writes [write 5 1,write 5 2],0),.addEvent (write 1 3)),
    ((writes [write 5 1,write 5 2,write 1 3],0),.handleEvents 5 [write 1 3,write 5 2,write 5 1])]

theorem threeWrites_path : ∃ t, Path Step (empty,0) threeWrites t ∧ t.2 = 1 :=
  ⟨_,.cons (.addEvent ..) <| .cons (.addEvent ..) <| .cons (.addEvent ..) <| .single (.handleEvents ..),rfl⟩

theorem runs_ordered_threeWrites : ∃ t, Ordered threeWrites t := by
  obtain ⟨t,path,_⟩ := threeWrites_path
  exact ⟨t,runs_ordered path⟩

/-- The first write of time 5 is executed last, and its value stays. -/
theorem equal_times_reordered : ∃ t, Path Step (empty,0) threeWrites t ∧ t.2 = 1 ∧ ¬ FirstInFirstOut threeWrites := by
  obtain ⟨t,path,value⟩ := threeWrites_path
  refine ⟨t,path,value,fun order => ?_⟩
  have addresses := (order 5).map Event.address
  contradiction

end Examples
end DPsim.EventQueue
