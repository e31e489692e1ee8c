import DPsim.Event
import DPsim.Transition
import Mathlib.Algebra.Order.Group.Multiset
import Mathlib.Data.Multiset.UnionInter

/-! `handleEvents` in the simulation thread, one atomic queue action at a time, with
`addEvent` calls of the control thread between any two of them. Event objects are numbered
in the order in which they are created. -/
namespace DPsim.EventQueue.Concurrent
open Transition

variable {Real H : Type} [LinearOrder Real]

/-- Where the simulation thread is in `handleEvents(currentTime)`. -/
inductive Handler (Real H : Type) where
  | idle
  | loop (currentTime : Real)
  | compare (currentTime : Real) (e : Event Real H)
  | execute (currentTime : Real) (e : Event Real H)
  | pop (currentTime : Real) (e : Event Real H)
  | finished (currentTime : Real)

/-- `removed` pairs the event an iteration executed with the one its `pop` took out; `atCall`
are the events that were added when the current call began. -/
structure State (Real H : Type) [LinearOrder Real] where
  queue : EventQueue Real H
  handler : Handler Real H
  heap : H
  added : List (Event Real H)
  executed : List (Event Real H)
  removed : List (Event Real H × Event Real H)
  atCall : List (Event Real H)

inductive Action (Real H : Type) where
  | addEvent (time : Real) (execute : H → H)
  | call (currentTime : Real)
  | advance

def initial (h : H) : State Real H := ⟨.empty, .idle, h, [], [], [], []⟩

def addEvent (s : State Real H) (time : Real) (execute : H → H) : State Real H :=
  let e : Event Real H := ⟨s.added.length, time, execute⟩
  { s with queue := s.queue.addEvent e, added := s.added ++ [e] }

def advance (s : State Real H) : Option (State Real H) :=
  match s.handler with
  | .idle => none
  | .loop t =>
    match s.queue.mEvents.top with
    | none => some { s with handler := .finished t }
    | some e => some { s with handler := .compare t e }
  | .compare t e => some { s with handler := if e.mTime > t then .finished t else .execute t e }
  | .execute t e =>
    some { s with handler := .pop t e, heap := e.execute s.heap, executed := s.executed ++ [e] }
  | .pop t e =>
    match s.queue.mEvents.top with
    | none => none
    | some x => some { s with
        handler := .loop t, queue := ⟨s.queue.mEvents.pop⟩, removed := s.removed ++ [(e, x)] }
  | .finished _ => some { s with handler := .idle }

def step (s : State Real H) : Action Real H → Option (State Real H)
  | .addEvent time execute => some (addEvent s time execute)
  | .call t =>
    match s.handler with
    | .idle => some { s with handler := .loop t, atCall := s.added }
    | _ => none
  | .advance => advance s

def Step (s : State Real H) (a : Action Real H) (t : State Real H) : Prop := step s a = some t

/-- The event that the current iteration has read from the front and is going to pop. -/
def Handler.window : Handler Real H → Option (Event Real H)
  | .compare t e => if e.mTime > t then none else some e
  | .execute _ e => some e
  | .pop _ e => some e
  | _ => none

structure Exact (s : State Real H) : Prop where
  once : (s.executed.map Event.address).Nodup
  removal : ∀ p ∈ s.removed, p.2 = p.1
  complete : ∀ t, s.handler = .finished t → ∀ e ∈ s.atCall, Event.Due t e → e ∈ s.executed

/-- The added event is not earlier than one that an iteration has read but not yet popped. -/
def Timely (s : State Real H) : Action Real H → Prop
  | .addEvent time _ => ∀ e, s.handler.window = some e → e.mTime ≤ time
  | _ => True

instance (s : State Real H) (a : Action Real H) : Decidable (Timely s a) :=
  match a with
  | .addEvent time _ => inferInstanceAs (Decidable (∀ e ∈ s.handler.window, e.mTime ≤ time))
  | .call _ | .advance => inferInstanceAs (Decidable True)

def Handler.running : Handler Real H → List (Event Real H)
  | .pop _ e => [e]
  | _ => []

/-- What the thread knows about the events of its call when it compares or leaves the loop. -/
def Handler.bound : Handler Real H → Event Real H → Prop
  | .compare _ e, x => e.mTime ≤ x.mTime
  | .finished t, x => ¬ Event.Due t x
  | _, _ => True

structure Invariant (s : State Real H) : Prop where
  numbered : s.added.map Event.address = List.range s.added.length
  balance : (s.removed.map Prod.snd : Multiset (Event Real H)) + s.queue.pending = s.added
  removal : ∀ p ∈ s.removed, p.2 = p.1
  executed : s.executed = s.removed.map Prod.fst ++ s.handler.running
  front : ∀ e, s.handler.window = some e → s.queue.mEvents.top = some e
  older : ∀ e ∈ s.atCall, e ∈ s.added
  bound : ∀ e ∈ s.atCall, e ∈ s.queue.pending → s.handler.bound e

theorem initial_invariant (h : H) : Invariant (initial h : State Real H) := by
  constructor <;> simp [initial,Handler.running,Handler.window]

theorem Invariant.address_lt {s : State Real H} (inv : Invariant s) (member : e ∈ s.added) :
    e.address < s.added.length := by
  have : e.address ∈ s.added.map Event.address := List.mem_map_of_mem member
  rw [inv.numbered] at this
  exact List.mem_range.mp this

theorem Invariant.settled {s : State Real H} (inv : Invariant s) (outside : s.handler.running = []) :
    s.executed = s.removed.map Prod.fst := by
  rw [inv.executed,outside,List.append_nil]

theorem add_invariant {s : State Real H} (inv : Invariant s) (time : Real) (execute : H → H)
    (timely : Timely s (.addEvent time execute)) : Invariant (addEvent s time execute) := by
  constructor
  · simp [addEvent,inv.numbered,List.range_succ]
  · have balance := congrArg ((⟨s.added.length,time,execute⟩ : Event Real H) ::ₘ ·) inv.balance
    simp only [← Multiset.add_cons] at balance
    simp only [addEvent,pending_addEvent,balance]
    exact (Multiset.coe_eq_coe.mpr (List.perm_append_singleton _ _)).symm
  · exact inv.removal
  · exact inv.executed
  · intro e open_
    exact PriorityQueue.top_push (inv.front e open_) (comparator_false.mpr (timely e open_))
  · exact fun e member => List.mem_append_left _ (inv.older e member)
  · intro e member queued
    rcases Multiset.mem_cons.mp (pending_addEvent s.queue _ ▸ queued) with rfl | queued
    · exact absurd (inv.address_lt (inv.older _ member)) (lt_irrefl _)
    · exact inv.bound e member queued

theorem advance_invariant {s t : State Real H} (inv : Invariant s) (moved : advance s = some t) :
    Invariant t := by
  unfold advance at moved
  split at moved
  case h_1 => contradiction
  case h_2 time handler =>
    have settled := inv.settled (by rw [handler]; rfl)
    split at moved <;> obtain rfl := Option.some.inj moved
    · rename_i empty
      refine ⟨inv.numbered,inv.balance,inv.removal,by simpa [Handler.running] using settled,
        by simp [Handler.window],inv.older,fun e _ queued => ?_⟩
      rw [pending,PriorityQueue.top_none.mp empty] at queued
      simp at queued
    · rename_i d front
      refine ⟨inv.numbered,inv.balance,inv.removal,by simpa [Handler.running] using settled,
        ?_,inv.older,fun e _ queued => top_earliest front queued⟩
      intro e read
      simp only [Handler.window] at read
      split at read
      · contradiction
      · exact read ▸ front
  case h_3 time d handler =>
    cases moved
    have settled := inv.settled (by rw [handler]; rfl)
    by_cases late : d.mTime > time
    · refine ⟨inv.numbered,inv.balance,inv.removal,by simpa [late,Handler.running] using settled,
        by simp [late,Handler.window],inv.older,fun e member queued => ?_⟩
      have := inv.bound e member queued
      simp only [handler,Handler.bound] at this
      have later : ¬ Event.Due time e := (lt_of_lt_of_le late this).not_ge
      simpa [late,Handler.bound] using later
    · refine ⟨inv.numbered,inv.balance,inv.removal,by simpa [late,Handler.running] using settled,
        ?_,inv.older,by simp [late,Handler.bound]⟩
      have front := inv.front d (by simp [handler,Handler.window,late])
      simpa [late,Handler.window] using front
  case h_4 time d handler =>
    cases moved
    have settled := inv.settled (by rw [handler]; rfl)
    have front := inv.front d (by simp [handler,Handler.window])
    exact ⟨inv.numbered,inv.balance,inv.removal,by simp [settled,Handler.running],
      by simpa [Handler.window] using front,inv.older,by simp [Handler.bound]⟩
  case h_5 time d handler =>
    split at moved
    · contradiction
    rename_i x front
    cases moved
    obtain rfl : d = x := Option.some.inj
      ((inv.front d (by simp [handler,Handler.window])).symm.trans front)
    have taken : d ::ₘ s.queue.mEvents.pop.contents = s.queue.pending :=
      PriorityQueue.contents_pop front
    refine ⟨inv.numbered,?_,?_,?_,by simp [Handler.window],inv.older,by simp [Handler.bound]⟩
    · rw [← inv.balance,← taken]
      simp [pending,← Multiset.coe_add,add_assoc]
    · simpa [or_imp,forall_and] using inv.removal
    · simpa [handler,Handler.running] using inv.executed
  case h_6 time handler =>
    cases moved
    have settled := inv.settled (by rw [handler]; rfl)
    exact ⟨inv.numbered,inv.balance,inv.removal,by simpa [Handler.running] using settled,
      by simp [Handler.window],inv.older,by simp [Handler.bound]⟩

theorem step_invariant (s : State Real H) (a : Action Real H) (t : State Real H)
    (inv : Invariant s) (timely : Timely s a) (moved : Step s a t) : Invariant t := by
  cases a with
  | addEvent time execute =>
    cases moved
    exact add_invariant inv time execute timely
  | call time =>
    simp only [Step,step] at moved
    split at moved
    · rename_i handler
      cases moved
      have settled := inv.settled (by rw [handler]; rfl)
      exact ⟨inv.numbered,inv.balance,inv.removal,by simpa [Handler.running] using settled,
        by simp [Handler.window],fun _ member => member,by simp [Handler.bound]⟩
    · contradiction
  | advance => exact advance_invariant inv moved

theorem Invariant.removed_eq {s : State Real H} (inv : Invariant s) :
    s.removed.map Prod.snd = s.removed.map Prod.fst :=
  List.map_congr_left fun p member => inv.removal p member

theorem Invariant.running_le {s : State Real H} (inv : Invariant s) :
    (s.handler.running : Multiset (Event Real H)) ≤ s.queue.pending := by
  cases handler : s.handler with
  | pop t e =>
    have front := inv.front e (by rw [handler]; rfl)
    exact Multiset.singleton_le.mpr (PriorityQueue.top_mem front)
  | _ => exact Multiset.zero_le _

theorem Invariant.exact {s : State Real H} (inv : Invariant s) : Exact s := by
  refine ⟨?_,inv.removal,fun t finished e member due => ?_⟩
  · have within : (s.executed : Multiset (Event Real H)) ≤ s.added := by
      rw [← inv.balance,inv.executed,inv.removed_eq,← Multiset.coe_add]
      exact add_le_add_right inv.running_le _
    have distinct : ((s.added : Multiset (Event Real H)).map Event.address).Nodup := by
      rw [Multiset.map_coe,inv.numbered]
      exact Multiset.coe_nodup.mpr List.nodup_range
    exact Multiset.coe_nodup.mp (Multiset.nodup_of_le (Multiset.map_le_map within) distinct)
  · have either : e ∈ (s.removed.map Prod.snd : Multiset (Event Real H)) + s.queue.pending := by
      rw [inv.balance]
      exact Multiset.mem_coe.mpr (inv.older e member)
    rcases Multiset.mem_add.mp either with gone | queued
    · rw [inv.executed,← inv.removed_eq]
      exact List.mem_append_left _ (Multiset.mem_coe.mp gone)
    · have := inv.bound e member queued
      rw [finished] at this
      exact absurd due this

def Overtaken (s : State Real H) : Prop :=
  ∃ e, s.handler.window = some e ∧ ∃ x ∈ s.queue.pending, x.mTime < e.mTime

def Broken (s : State Real H) : Prop := ∃ p ∈ s.removed, p.2 ≠ p.1

theorem broken_step (s : State Real H) (a : Action Real H) (t : State Real H)
    (broken : Broken s) (moved : Step s a t) : Broken t := by
  obtain ⟨p,member,differ⟩ := broken
  refine ⟨p,?_,differ⟩
  cases a with
  | addEvent => obtain rfl := Option.some.inj moved; exact member
  | call =>
    simp only [Step,step] at moved
    split at moved
    · obtain rfl := Option.some.inj moved; exact member
    · contradiction
  | advance =>
    simp only [Step,step,advance] at moved
    repeat' split at moved
    all_goals first
      | contradiction
      | (obtain rfl := Option.some.inj moved; simp [member])

theorem overtaken_step (s : State Real H) (a : Action Real H) (t : State Real H)
    (overtaken : Overtaken s) (moved : Step s a t) : Overtaken t ∨ Broken t := by
  obtain ⟨e,window,x,queued,earlier⟩ := overtaken
  cases a with
  | addEvent time execute =>
    cases moved
    refine .inl ⟨e,window,x,?_,earlier⟩
    exact pending_addEvent s.queue _ ▸ Multiset.mem_cons_of_mem queued
  | call =>
    cases handler : s.handler <;> simp [Step,step,handler] at moved
    simp [handler,Handler.window] at window
  | advance =>
    cases handler : s.handler with
    | idle | loop | finished => simp [handler,Handler.window] at window
    | compare now d =>
      simp only [handler,Handler.window] at window
      split at window
      · contradiction
      · rename_i due
        obtain rfl := Option.some.inj window
        simp only [Step,step,advance,handler,due,if_false,Option.some.injEq] at moved
        subst moved
        exact .inl ⟨d,rfl,x,queued,earlier⟩
    | execute now d =>
      obtain rfl : d = e := by simpa [handler,Handler.window] using window
      simp only [Step,step,advance,handler,Option.some.injEq] at moved
      subst moved
      exact .inl ⟨d,rfl,x,queued,earlier⟩
    | pop now d =>
      obtain rfl : d = e := by simpa [handler,Handler.window] using window
      simp only [Step,step,advance,handler] at moved
      split at moved
      · contradiction
      · rename_i y front
        cases moved
        refine .inr ⟨(d,y),by simp,?_⟩
        intro same
        obtain rfl : y = d := same
        exact absurd earlier (top_earliest front queued).not_gt

theorem untimely_step (s : State Real H) (a : Action Real H) (t : State Real H)
    (untimely : ¬ Timely s a) (moved : Step s a t) : Overtaken t := by
  cases a with
  | addEvent time execute =>
    cases moved
    simp only [Timely,not_forall,not_le] at untimely
    obtain ⟨e,window,earlier⟩ := untimely
    refine ⟨e,window,⟨s.added.length,time,execute⟩,?_,earlier⟩
    exact pending_addEvent s.queue _ ▸ Multiset.mem_cons_self _ _
  | call | advance => exact absurd trivial untimely

/-- While every added event is timely nothing is lost or run twice; and once the handler has
left the iteration in question, an event that was not has made a `pop` take the wrong one. -/
theorem exact_iff_timely (h : H) (trace : List (State Real H × Action Real H)) (s : State Real H)
    (path : Path Step (initial h) trace s) :
    ((∀ p ∈ trace, Timely p.1 p.2) → ∀ x ∈ states trace s, Exact x) ∧
      (s.handler.window = none → (∀ x ∈ states trace s, Exact x) → ∀ p ∈ trace, Timely p.1 p.2) := by
  refine ⟨fun timely x member =>
    (path.guarded_states step_invariant timely (initial_invariant h) x member).exact,?_⟩
  intro outside exact p member
  by_contra untimely
  obtain ⟨before,after,rfl⟩ := List.append_of_mem member
  obtain ⟨t,_,here,later⟩ := path.at_step
  have spoiled : Overtaken s ∨ Broken s := by
    refine later.invariant (P := fun x => Overtaken x ∨ Broken x) ?_
      (.inl (untimely_step _ _ t untimely here))
    rintro x a y (overtaken | broken) moved
    · exact overtaken_step x a y overtaken moved
    · exact .inr (broken_step x a y broken moved)
  rcases spoiled with ⟨e,window,_⟩ | ⟨q,removed,differ⟩
  · rw [outside] at window; contradiction
  · exact differ ((exact s (final_mem_states _ _)).removal q removed)

/-- Without a concurrent `addEvent` the actions of a call are those of `handleEvents`. -/
theorem uninterrupted (now : Real) (passes : Nat) (s : State Real H) (start : s.handler = .loop now)
    (enough : s.queue.pending.card ≤ passes) :
    ∃ trace u, Path Step s trace u ∧ (∀ p ∈ trace, p.2 = .advance) ∧ u.handler = .finished now ∧
      u.queue = (handle now passes s.queue s.heap).queue ∧
      u.heap = (handle now passes s.queue s.heap).heap ∧
      u.executed = s.executed ++ (handle now passes s.queue s.heap).events := by
  cases front : s.queue.mEvents.top with
  | none =>
    have leave : Step s .advance { s with handler := .finished now } := by
      simp [Step,step,advance,start,front]
    refine ⟨_,_,.single leave,by simp,rfl,?_⟩
    cases passes <;> simp [handle,front]
  | some e =>
    have read : Step s .advance { s with handler := .compare now e } := by
      simp [Step,step,advance,start,front]
    have card := PriorityQueue.card_pop front
    cases passes with
    | zero => simp only [pending] at enough; omega
    | succ passes =>
      by_cases late : e.mTime > now
      · have leave : Step { s with handler := .compare now e } .advance
            { s with handler := .finished now } := by simp [Step,step,advance,late]
        exact ⟨_,_,.cons read (.single leave),by simp,rfl,by simp [handle,front,late]⟩
      · let popped : State Real H := { s with
          handler := .loop now
          queue := ⟨s.queue.mEvents.pop⟩
          heap := e.execute s.heap
          executed := s.executed ++ [e]
          removed := s.removed ++ [(e,e)] }
        have compare : Step { s with handler := .compare now e } .advance
            { s with handler := .execute now e } := by simp [Step,step,advance,late]
        let executed : State Real H := { s with
          handler := .pop now e
          heap := e.execute s.heap
          executed := s.executed ++ [e] }
        have execute : Step { s with handler := .execute now e } .advance executed := by
          simp [Step,step,advance,executed]
        have pop : Step executed .advance popped := by
          simp [Step,step,advance,front,executed,popped]
        obtain ⟨trace,u,rest,only,handler,queue,heap,handled⟩ := uninterrupted now passes popped rfl
          (show Multiset.card s.queue.mEvents.pop.contents ≤ passes by simp only [pending] at enough; omega)
        refine ⟨_,u,.cons read (.cons compare (.cons execute (.cons pop rest))),?_,handler,?_,?_,?_⟩
        · simpa using fun s a member => only (s,a) member
        · simpa [handle,front,late] using queue
        · simpa [handle,front,late] using heap
        · simpa [handle,front,late,popped] using handled

def overtaking : List (Action Nat Nat) :=
  [.addEvent 5 (· + 1), .call 10, .advance, .addEvent 3 (· + 100), .advance, .advance, .advance,
    .advance, .advance, .advance, .advance, .advance]

/-- The first event runs twice and the second one never, although the call is complete. -/
theorem overtaken_event_lost :
    (finalOf step (initial 0) overtaking).executed.map Event.address = [0,0] ∧
      ((finalOf step (initial 0) overtaking).queue.mEvents.items.length = 0) ∧
      ¬ ∀ trace s, Path Step (initial 0 : State Nat Nat) trace s → Exact s := by
  refine ⟨by decide,by decide,fun exact => ?_⟩
  have once := (exact _ _ (path_of_labels step (initial 0) overtaking)).once
  exact absurd once (by decide)

def undisturbed : List (Action Nat Nat) :=
  [.addEvent 5 (· + 1), .call 10, .advance, .addEvent 7 (· + 100), .advance, .advance, .advance,
    .advance, .advance, .advance, .advance, .advance]

theorem exact_iff_timely_undisturbed :
    (∀ x ∈ states (traceOf step (initial 0) undisturbed) (finalOf step (initial 0) undisturbed), Exact x) ∧
      (finalOf step (initial 0) undisturbed).executed.map Event.address = [0,1] :=
  ⟨(exact_iff_timely 0 _ _ (path_of_labels step (initial 0) undisturbed)).1 (by decide),by decide⟩

end DPsim.EventQueue.Concurrent
