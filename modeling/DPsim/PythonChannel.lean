import DPsim.Transition

/-! `EventChannel` of the Python package: its task puts the events that arrive in a queue, and the
coroutines of `wait` take them out of it. The event loop runs coroutines in any order. -/
namespace DPsim.Python

namespace EventChannel

inductive Event where
  | stopped
  | starting
  | running
  | pausing
  | paused
  | resuming
  | stopping
  | failed
  | overrun
  | done
  | unknown
  deriving DecidableEq, Repr

structure Item where
  number : Nat
  event : Event
  deriving DecidableEq, Repr

/-- Where a coroutine of `wait` is: not started yet, suspended in `get` with its future pending or
already set, or at its end. -/
inductive Phase where
  | ready
  | blocked
  | woken
  | done
  deriving DecidableEq, Repr

/-- A coroutine of `wait` and what `get` has returned to it. -/
structure Waiter where
  evt : Option Event
  phase : Phase
  received : List Item
  deriving DecidableEq, Repr

structure Callback where
  event : Option Event
  raises : Event → Bool

def wanted (evt : Option Event) (event : Event) : Bool := evt.all fun e => e = event

def Waiter.scheduled (w : Waiter) : Bool := w.phase = .ready || w.phase = .woken

def Waiter.suspended (w : Waiter) : Bool := w.phase = .blocked || w.phase = .woken

def Waiter.run (w : Waiter) : List Item → Waiter × List Item
  | [] => ({ w with phase := .blocked }, [])
  | revt :: queue =>
    let w := { w with received := w.received ++ [revt] }
    if wanted w.evt revt.event then ({ w with phase := .done }, queue) else w.run queue

end EventChannel

/-- The getters are the pending futures of the queue; the task is the one that reads the socket. -/
structure EventChannel where
  callbacks : List EventChannel.Callback
  queue : List EventChannel.Item
  getters : List Nat
  waiters : List EventChannel.Waiter
  task : Bool
  arrived : Nat

namespace EventChannel

def init : EventChannel := ⟨[], [], [], [], true, 0⟩

inductive Action where
  | addCallback (callback : Callback)
  | wait (evt : Option Event)
  | arrive (evt : Event)
  | run (i : Nat)

/-- One of the callbacks for the event raises an exception, which ends the task. -/
def raises (s : EventChannel) (evt : Event) : Bool :=
  s.callbacks.any fun e => wanted e.event evt && e.raises evt

def put (s : EventChannel) (item : Item) : EventChannel :=
  match s.getters with
  | [] => { s with queue := s.queue ++ [item] }
  | i :: getters => { s with
      queue := s.queue ++ [item]
      getters := getters
      waiters := s.waiters.modify i fun w => { w with phase := .woken } }

def arrive (s : EventChannel) (evt : Event) : EventChannel :=
  if !s.task then { s with arrived := s.arrived + 1 }
  else if s.raises evt then { s with
    task := false
    arrived := s.arrived + 1 }
  else { s.put ⟨s.arrived, evt⟩ with arrived := s.arrived + 1 }

def resume (s : EventChannel) (i : Nat) : Option EventChannel :=
  match s.waiters[i]? with
  | none => none
  | some w =>
    if w.scheduled then
      let (w, queue) := w.run s.queue
      some { s with
        queue := queue
        getters := if w.phase = .blocked then s.getters ++ [i] else s.getters
        waiters := s.waiters.set i w }
    else none

def next (s : EventChannel) : Action → Option EventChannel
  | .addCallback callback => some { s with callbacks := s.callbacks ++ [callback] }
  | .wait evt => some { s with waiters := s.waiters ++ [⟨evt, .ready, []⟩] }
  | .arrive evt => some (s.arrive evt)
  | .run i => s.resume i

def Step (s : EventChannel) (a : Action) (t : EventChannel) : Prop := s.next a = some t

/-- What a run of a coroutine takes from the queue: everything up to the first event it wants, or
everything. -/
inductive Waiter.Ran (w : Waiter) (queue : List Item) : Waiter × List Item → Prop where
  | finds (before : List Item) (revt : Item) (after : List Item) (split : queue = before ++ revt :: after)
      (others : ∀ item ∈ before, wanted w.evt item.event = false) (found : wanted w.evt revt.event = true) :
      Ran w queue ({ w with
        phase := .done
        received := w.received ++ before ++ [revt] }, after)
  | suspends (others : ∀ item ∈ queue, wanted w.evt item.event = false) :
      Ran w queue ({ w with
        phase := .blocked
        received := w.received ++ queue }, [])

theorem Waiter.run_ran (w : Waiter) (queue : List Item) : w.Ran queue (w.run queue) := by
  induction queue generalizing w with
  | nil => simpa [run] using (Waiter.Ran.suspends nofun : w.Ran [] _)
  | cons revt queue ih =>
    unfold run
    dsimp only
    split
    · rename_i found
      simpa using Waiter.Ran.finds (w := w) [] revt queue rfl nofun found
    · rename_i other
      have rest := ih { w with received := w.received ++ [revt] }
      generalize Waiter.run { w with received := w.received ++ [revt] } queue = result at rest
      cases rest with
      | finds before found after split others wants =>
        have ran : w.Ran (revt :: queue) _ := .finds (revt :: before) found after
          (congrArg (revt :: ·) split) (List.forall_mem_cons.mpr ⟨by simpa using other,others⟩) wants
        simpa using ran
      | suspends others =>
        have ran : w.Ran (revt :: queue) _ := .suspends
          (List.forall_mem_cons.mpr ⟨by simpa using other,others⟩)
        simpa using ran

inductive Moved (s t : EventChannel) : Action → Prop where
  | added (callback : Callback) (same : t = { s with callbacks := s.callbacks ++ [callback] }) :
      Moved s t (.addCallback callback)
  | waits (evt : Option Event) (same : t = { s with waiters := s.waiters ++ [⟨evt,.ready,[]⟩] }) :
      Moved s t (.wait evt)
  | unheard (evt : Event) (lost : s.task = false ∨ s.raises evt = true) (task : Bool) (same : t = { s with
      task := task
      arrived := s.arrived + 1 }) : Moved s t (.arrive evt)
  | heard (evt : Event) (task : s.task = true) (fine : s.raises evt = false)
      (same : t = { s.put ⟨s.arrived,evt⟩ with arrived := s.arrived + 1 }) : Moved s t (.arrive evt)
  | ran (i : Nat) (w : Waiter) (at_ : s.waiters[i]? = some w) (scheduled : w.scheduled = true) (w' : Waiter)
      (queue : List Item) (result : w.Ran s.queue (w',queue)) (same : t = { s with
        queue := queue
        getters := if w'.phase = .blocked then s.getters ++ [i] else s.getters
        waiters := s.waiters.set i w' }) : Moved s t (.run i)

theorem step_moved {s t : EventChannel} {a : Action} (step : Step s a t) : Moved s t a := by
  cases a with
  | addCallback callback => exact .added callback (Option.some.inj step).symm
  | wait evt => exact .waits evt (Option.some.inj step).symm
  | arrive evt =>
    have arrived := (Option.some.inj step).symm
    unfold arrive at arrived
    split at arrived
    · rename_i ended
      exact .unheard evt (.inl (by simpa using ended)) s.task arrived
    · rename_i task
      split at arrived
      · rename_i raised
        exact .unheard evt (.inr raised) false arrived
      · rename_i fine
        exact .heard evt (by simpa using task) (by simpa using fine) arrived
  | run i =>
    have resumed : s.resume i = some t := step
    unfold resume at resumed
    split at resumed
    · contradiction
    · rename_i w at_
      split at resumed
      · rename_i scheduled
        exact .ran i w at_ scheduled _ _ (w.run_ran s.queue) (Option.some.inj resumed).symm
      · contradiction

/-- The queue holds the latest events in order, its getters are the blocked coroutines, and there
is a woken coroutine for each event in it unless nobody is blocked. -/
structure Sound (s : EventChannel) : Prop where
  increasing : s.queue.Pairwise fun a b => a.number < b.number
  numbers : ∀ item ∈ s.queue, item.number < s.arrived
  distinct : s.getters.Nodup
  blocked : ∀ i, i ∈ s.getters ↔ ∃ w, s.waiters[i]? = some w ∧ w.phase = .blocked
  enough : s.getters = [] ∨ s.queue.length ≤ s.waiters.countP fun w => w.phase = .woken

theorem init_sound : Sound init := by
  constructor <;> simp [init]

theorem count_woken {waiters : List Waiter} {i : Nat} {w : Waiter} (at_ : waiters[i]? = some w)
    (blocked : w.phase = .blocked) :
    (waiters.modify i fun w => { w with phase := .woken }).countP (fun w => w.phase = .woken) =
      waiters.countP (fun w => w.phase = .woken) + 1 := by
  induction waiters generalizing i with
  | nil => simp at at_
  | cons v waiters ih =>
    cases i with
    | zero =>
      obtain rfl : v = w := by simpa using at_
      simp [blocked]
    | succ i =>
      have rest := ih (by simpa using at_)
      simp only [List.modify_succ_cons,List.countP_cons,rest]
      omega

theorem put_sound {s : EventChannel} (sound : Sound s) (evt : Event) :
    Sound { s.put ⟨s.arrived,evt⟩ with arrived := s.arrived + 1 } := by
  have increasing : (s.queue ++ [(⟨s.arrived,evt⟩ : Item)]).Pairwise fun a b => a.number < b.number := by
    rw [List.pairwise_append]
    refine ⟨sound.increasing,List.pairwise_singleton ..,fun a old b new => ?_⟩
    obtain rfl := List.mem_singleton.mp new
    exact sound.numbers a old
  have numbers : ∀ item ∈ s.queue ++ [⟨s.arrived,evt⟩], item.number < s.arrived + 1 := by
    intro item member
    rcases List.mem_append.mp member with old | new
    · exact Nat.lt_succ_of_lt (sound.numbers item old)
    · obtain rfl := List.mem_singleton.mp new
      exact Nat.lt_succ_self _
  unfold put
  cases getters : s.getters with
  | nil =>
    have blocked := sound.blocked
    rw [getters] at blocked
    exact ⟨increasing,numbers,List.nodup_nil,blocked,.inl rfl⟩
  | cons i rest =>
    have distinct := sound.distinct
    have blocked := sound.blocked
    have enough := sound.enough
    rw [getters] at distinct blocked enough
    obtain ⟨w,at_,phase⟩ := (blocked i).mp List.mem_cons_self
    refine ⟨increasing,numbers,(List.nodup_cons.mp distinct).2,fun j => ?_,.inr ?_⟩
    · have old := blocked j
      by_cases same : j = i
      · subst same
        simp only [(List.nodup_cons.mp distinct).1,List.getElem?_modify_eq,at_,false_iff]
        rintro ⟨w',there,still⟩
        cases there
        contradiction
      · simpa [same,Ne.symm same] using old
    · have count := count_woken at_ phase
      have before := enough.resolve_left (List.cons_ne_nil _ _)
      simp only [List.length_append,List.length_singleton,count]
      omega

theorem Waiter.Ran.rest {w w' : Waiter} {before after : List Item} (ran : w.Ran before (w',after)) :
    after <:+ before ∧ (w'.phase = .done ∧ after.length < before.length ∨ w'.phase = .blocked ∧ after = []) := by
  cases ran with
  | finds taken revt after split others found =>
    subst split
    refine ⟨⟨taken ++ [revt],by simp⟩,.inl ⟨rfl,?_⟩⟩
    simp only [List.length_append,List.length_cons]
    omega
  | suspends others => exact ⟨List.nil_suffix,.inr ⟨rfl,rfl⟩⟩

theorem ran_sound {s : EventChannel} (sound : Sound s) {i : Nat} {w w' : Waiter} {queue : List Item}
    (at_ : s.waiters[i]? = some w) (scheduled : w.scheduled = true) (result : w.Ran s.queue (w',queue)) :
    Sound { s with
      queue := queue
      getters := if w'.phase = .blocked then s.getters ++ [i] else s.getters
      waiters := s.waiters.set i w' } := by
  obtain ⟨rest,outcome⟩ := result.rest
  obtain ⟨inside,there⟩ := List.getElem?_eq_some_iff.mp at_
  have unblocked : i ∉ s.getters := by
    intro member
    obtain ⟨v,same,blocked⟩ := (sound.blocked i).mp member
    obtain rfl := Option.some.inj (at_.symm.trans same)
    simp [Waiter.scheduled,blocked] at scheduled
  refine ⟨sound.increasing.sublist rest.sublist,fun item member => sound.numbers item (rest.subset member),
    ?_,fun j => ?_,?_⟩
  · dsimp only
    split
    · rw [List.nodup_append]
      refine ⟨sound.distinct,List.pairwise_singleton ..,fun a old b new => ?_⟩
      obtain rfl := List.mem_singleton.mp new
      rintro rfl
      exact unblocked old
    · exact sound.distinct
  · have old := sound.blocked j
    dsimp only
    by_cases same : j = i
    · subst same
      by_cases blocked : w'.phase = .blocked <;> simp [blocked,unblocked,inside]
    · rw [List.getElem?_set_ne (Ne.symm same),← old]
      split <;> simp [same]
  · rcases outcome with ⟨done,shorter⟩ | ⟨blocked,rfl⟩
    · dsimp only
      rw [if_neg (by simp [done]),List.countP_set inside]
      rcases sound.enough with none | enough
      · exact .inl none
      · right
        split <;> omega
    · exact .inr (Nat.zero_le _)

theorem step_sound (s : EventChannel) (a : Action) (t : EventChannel) (sound : Sound s) (step : Step s a t) :
    Sound t := by
  cases step_moved step with
  | added callback same =>
    subst same
    exact ⟨sound.increasing,sound.numbers,sound.distinct,sound.blocked,sound.enough⟩
  | waits evt same =>
    subst same
    refine ⟨sound.increasing,sound.numbers,sound.distinct,fun i => ?_,?_⟩
    · rw [sound.blocked,List.getElem?_append]
      split
      · rfl
      · rename_i outside
        have none : s.waiters[i]? = none := List.getElem?_eq_none (Nat.le_of_not_lt outside)
        rw [none]
        rcases i - s.waiters.length with _ | k <;> simp
    · simpa using sound.enough
  | unheard evt lost task same =>
    subst same
    exact ⟨sound.increasing,fun item member => Nat.lt_succ_of_lt (sound.numbers item member),sound.distinct,
      sound.blocked,sound.enough⟩
  | heard evt task fine same =>
    subst same
    exact put_sound sound evt
  | ran i w at_ scheduled w' queue result same =>
    subst same
    exact ran_sound sound at_ scheduled result

end EventChannel
end DPsim.Python
