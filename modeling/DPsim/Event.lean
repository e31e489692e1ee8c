import DPsim.BinaryHeap
import Mathlib.Order.Defs.LinearOrder
import Mathlib.Data.Multiset.Filter

/-! The event system. `H` is the state of the objects an event acts on; times are only
compared, so any linear order serves. `std::cout` is the list of handled events. -/
namespace DPsim

/-- An event object: its address, its time and its virtual `execute`. -/
structure Event (Real H : Type) where
  address : Nat
  mTime : Real
  execute : H → H

/-- The two methods of the component library's switch that an event calls. -/
structure Switch (H : Type) where
  close : H → H
  «open» : H → H

section Events
variable {Real H T : Type}

def AttributeEvent (address : Nat) (t : Real) (set : T → H → H) (val : T) : Event Real H :=
  ⟨address, t, set val⟩

def SwitchEvent (address : Nat) (t : Real) (sw : Switch H) (state : Bool) : Event Real H :=
  ⟨address, t, if state then sw.close else sw.«open»⟩

def Event.executeAll (events : List (Event Real H)) (h : H) : H := events.foldl (fun h e => e.execute h) h

theorem Event.executeAll_append (first second : List (Event Real H)) (h : H) :
    executeAll (first ++ second) h = executeAll second (executeAll first h) := List.foldl_append

variable [LinearOrder Real]

def Event.Due (currentTime : Real) (e : Event Real H) : Prop := e.mTime ≤ currentTime

instance (currentTime : Real) : DecidablePred (Event.Due (H := H) currentTime) :=
  fun _ => inferInstanceAs (Decidable (_ ≤ _))

def EventComparator (l r : Event Real H) : Bool := decide (l.mTime > r.mTime)

instance : BinaryHeap.StrictWeak (EventComparator : Event Real H → Event Real H → Bool) where
  asymm later := by
    simp only [EventComparator,decide_eq_true_eq,decide_eq_false_iff_not] at *
    exact later.asymm
  trans first second := by
    simp only [EventComparator,decide_eq_false_iff_not,not_lt] at *
    exact first.trans second

theorem comparator_false {l r : Event Real H} : EventComparator l r = false ↔ l.mTime ≤ r.mTime := by
  simp [EventComparator]

end Events

variable {Real H : Type} [LinearOrder Real]

structure EventQueue (Real H : Type) [LinearOrder Real] where
  mEvents : PriorityQueue (EventComparator : Event Real H → Event Real H → Bool)

namespace EventQueue

def empty : EventQueue Real H := ⟨PriorityQueue.empty⟩

def addEvent (q : EventQueue Real H) (e : Event Real H) : EventQueue Real H := ⟨q.mEvents.push e⟩

/-- What `handleEvents` leaves behind, and the events it reported as handled, in order. -/
structure Handled (Real H : Type) [LinearOrder Real] where
  queue : EventQueue Real H
  heap : H
  events : List (Event Real H)

def handle (currentTime : Real) : Nat → EventQueue Real H → H → Handled Real H
  | 0, q, h => ⟨q, h, []⟩
  | passes + 1, q, h =>
    match q.mEvents.top with
    | none => ⟨q, h, []⟩
    | some e =>
      if e.mTime > currentTime then ⟨q, h, []⟩
      else
        let rest := handle currentTime passes ⟨q.mEvents.pop⟩ (e.execute h)
        { rest with events := e :: rest.events }

/-- Every pass that does not leave the loop pops one event, so the queue's size bounds them. -/
def handleEvents (q : EventQueue Real H) (currentTime : Real) (h : H) : Handled Real H :=
  handle currentTime q.mEvents.items.length q h

def pending (q : EventQueue Real H) : Multiset (Event Real H) := q.mEvents.contents

@[simp] theorem pending_empty : (empty : EventQueue Real H).pending = 0 := rfl

@[simp] theorem pending_addEvent (q : EventQueue Real H) (e : Event Real H) :
    (q.addEvent e).pending = e ::ₘ q.pending := PriorityQueue.contents_push _ _

theorem top_earliest {q : EventQueue Real H} (front : q.mEvents.top = some e) (member : x ∈ q.pending) :
    e.mTime ≤ x.mTime := comparator_false.mp (PriorityQueue.top_best front member)

theorem handle_pending (currentTime : Real) (passes : Nat) (q : EventQueue Real H) (h : H)
    (enough : q.pending.card ≤ passes) :
    ((handle currentTime passes q h).events : Multiset (Event Real H)) =
        q.pending.filter (Event.Due currentTime) ∧
      (handle currentTime passes q h).queue.pending = q.pending.filter (¬ Event.Due currentTime ·) := by
  induction passes generalizing q h with
  | zero =>
    have none : q.pending = 0 := Multiset.card_eq_zero.mp (by omega)
    simp [handle,none]
  | succ passes ih =>
    unfold handle
    split
    · rename_i front
      have none : q.pending = 0 := PriorityQueue.top_none.mp front
      simp [none]
    · rename_i e front
      have taken : e ::ₘ q.mEvents.pop.contents = q.pending := PriorityQueue.contents_pop front
      split
      · rename_i late
        have later : ∀ x ∈ q.pending, ¬ Event.Due currentTime x := fun x member =>
          (lt_of_lt_of_le late (top_earliest front member)).not_ge
        constructor
        · exact (Multiset.filter_eq_nil.mpr later).symm
        · exact (Multiset.filter_eq_self.mpr later).symm
      · rename_i due
        have due : Event.Due currentTime e := not_lt.mp due
        have card : q.mEvents.pop.contents.card + 1 = q.pending.card := PriorityQueue.card_pop front
        obtain ⟨events,queue⟩ := ih ⟨q.mEvents.pop⟩ (e.execute h) (show Multiset.card _ ≤ _ by
          simp only [pending]; omega)
        rw [← taken]
        constructor
        · rw [Multiset.filter_cons_of_pos _ due]
          exact congrArg (e ::ₘ ·) events
        · rw [Multiset.filter_cons_of_neg (p := fun x => ¬ Event.Due currentTime x) _ (not_not.mpr due)]
          exact queue

theorem handle_sorted (currentTime : Real) (passes : Nat) (q : EventQueue Real H) (h : H)
    (enough : q.pending.card ≤ passes) :
    (handle currentTime passes q h).events.Pairwise (·.mTime ≤ ·.mTime) := by
  induction passes generalizing q h with
  | zero => exact .nil
  | succ passes ih =>
    unfold handle
    split
    · exact .nil
    · rename_i e front
      split
      · exact .nil
      · have card : q.mEvents.pop.contents.card + 1 = q.pending.card := PriorityQueue.card_pop front
        have fits : (⟨q.mEvents.pop⟩ : EventQueue Real H).pending.card ≤ passes := by
          simp only [pending]; omega
        refine .cons (fun x member => top_earliest front ?_) (ih _ _ fits)
        have kept : x ∈ (⟨q.mEvents.pop⟩ : EventQueue Real H).pending := by
          have within := (handle_pending currentTime passes _ (e.execute h) fits).1
          exact (Multiset.mem_filter.mp (within ▸ Multiset.mem_coe.mpr member)).1
        rw [show q.pending = e ::ₘ q.mEvents.pop.contents from (PriorityQueue.contents_pop front).symm]
        exact Multiset.mem_cons_of_mem kept

/-- A complete call handles exactly the due events, earliest first, and leaves the others. -/
theorem handleEvents_spec (q : EventQueue Real H) (currentTime : Real) (h : H) :
    ((q.handleEvents currentTime h).events : Multiset (Event Real H)) =
        q.pending.filter (Event.Due currentTime) ∧
      (q.handleEvents currentTime h).queue.pending = q.pending.filter (¬ Event.Due currentTime ·) ∧
      (q.handleEvents currentTime h).events.Pairwise (·.mTime ≤ ·.mTime) := by
  have enough : q.pending.card ≤ q.mEvents.items.length := le_of_eq (Multiset.coe_card _)
  obtain ⟨events,queue⟩ := handle_pending currentTime _ q h enough
  exact ⟨events,queue,handle_sorted currentTime _ q h enough⟩

/-- The events that are reported as handled are the ones that have been executed, in their order. -/
theorem handle_heap (currentTime : Real) (passes : Nat) (q : EventQueue Real H) (h : H) :
    (handle currentTime passes q h).heap =
      Event.executeAll (handle currentTime passes q h).events h := by
  induction passes generalizing q h with
  | zero => rfl
  | succ passes ih =>
    unfold handle
    split
    · rfl
    · split
      · rfl
      · exact ih _ _

end EventQueue
end DPsim
