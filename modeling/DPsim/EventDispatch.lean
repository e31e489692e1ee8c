import DPsim.PythonChannel

/-! The loop of the channel's task over the registered callbacks. A callback may do anything with the
objects it knows, so whether it raises may depend on the calls before; `Simulation` registers four. -/
namespace DPsim.Python.EventChannel
open Transition

/-- What `add_callback` appends. A call changes the state of the user's objects, and may raise. -/
structure Handler (U : Type) where
  event : Option Event
  cb : U → Event → U × Bool

/-- Event number `number` is passed to the callback that was registered in this place. -/
structure Pass where
  number : Nat
  evt : Event
  place : Nat
  deriving DecidableEq, Repr

/-- The calls of a loop over the callbacks, what they leave, and whether the last one has raised. -/
structure Called (U : Type) where
  passed : List Pass
  user : U
  raised : Bool

section Loop
variable {U : Type} (number : Nat) (evt : Event)

/-- `for e in self._callbacks`, from this place on. -/
def callFrom : Nat → List (Handler U) → U → Called U
  | _, [], user => ⟨[],user,false⟩
  | place, e :: callbacks, user =>
    if wanted e.event evt then
      match e.cb user evt with
      | (user,true) => ⟨[⟨number,evt,place⟩],user,true⟩
      | (user,false) =>
        let rest := callFrom (place + 1) callbacks user
        { rest with passed := ⟨number,evt,place⟩ :: rest.passed }
    else callFrom (place + 1) callbacks user

def passesFrom : Nat → List (Handler U) → List Pass
  | _, [] => []
  | place, e :: callbacks =>
    if wanted e.event evt then ⟨number,evt,place⟩ :: passesFrom (place + 1) callbacks
    else passesFrom (place + 1) callbacks

def Silent : List (Handler U) → U → Prop
  | [], _ => True
  | e :: callbacks, user =>
    if wanted e.event evt then (e.cb user evt).2 = false ∧ Silent callbacks (e.cb user evt).1
    else Silent callbacks user

theorem callFrom_raised_iff (place : Nat) (callbacks : List (Handler U)) (user : U) :
    (callFrom number evt place callbacks user).raised = false ↔ Silent evt callbacks user := by
  induction callbacks generalizing place user with
  | nil => exact iff_of_true rfl trivial
  | cons e callbacks ih =>
    unfold callFrom Silent
    split
    · obtain ⟨user',raised⟩ := e.cb user evt
      cases raised with
      | true => simp
      | false => simpa using ih (place + 1) user'
    · exact ih (place + 1) user

variable {number evt}

theorem callFrom_passed {place : Nat} {callbacks : List (Handler U)} {user : U}
    (silent : Silent evt callbacks user) :
    (callFrom number evt place callbacks user).passed = passesFrom number evt place callbacks := by
  induction callbacks generalizing place user with
  | nil => rfl
  | cons e callbacks ih =>
    unfold callFrom passesFrom
    unfold Silent at silent
    split at silent
    · rename_i wants
      rw [if_pos wants,if_pos wants]
      obtain ⟨fine,later⟩ := silent
      generalize e.cb user evt = result at fine later
      obtain ⟨user',raised⟩ := result
      obtain rfl : raised = false := fine
      exact congrArg _ (ih later)
    · rename_i other
      rw [if_neg other,if_neg other]
      exact ih silent

end Loop

/-- The channel with its callbacks; `chan` has the queue, the coroutines of `wait` and the task. -/
structure Dispatcher (U : Type) where
  callbacks : List (Handler U)
  user : U
  passed : List Pass
  chan : EventChannel

namespace Dispatcher
variable {U : Type}

inductive Action (U : Type) where
  | addCallback (callback : Handler U)
  | wait (evt : Option Event)
  | arrive (evt : Event)
  | run (i : Nat)

/-- The task reads the event, calls the callbacks and puts the event into the queue. An exception
ends the task. -/
def arrive (s : Dispatcher U) (evt : Event) : Dispatcher U :=
  if s.chan.task then
    let called := callFrom s.chan.arrived evt 0 s.callbacks s.user
    { s with
      user := called.user
      passed := s.passed ++ called.passed
      chan :=
        if called.raised then { s.chan with
          task := false
          arrived := s.chan.arrived + 1 }
        else { s.chan.put ⟨s.chan.arrived,evt⟩ with arrived := s.chan.arrived + 1 } }
  else { s with chan := { s.chan with arrived := s.chan.arrived + 1 } }

def next (s : Dispatcher U) : Action U → Option (Dispatcher U)
  | .addCallback callback => some { s with callbacks := s.callbacks ++ [callback] }
  | .wait evt => some { s with chan := { s.chan with waiters := s.chan.waiters ++ [⟨evt,.ready,[]⟩] } }
  | .arrive evt => some (s.arrive evt)
  | .run i => (s.chan.resume i).map fun chan => { s with chan := chan }

def Step (s : Dispatcher U) (a : Action U) (t : Dispatcher U) : Prop := s.next a = some t

def arrivals (trace : List (Dispatcher U × Action U)) : List Item :=
  trace.filterMap fun
    | (s,.arrive evt) => some ⟨s.chan.arrived,evt⟩
    | _ => none

def due (trace : List (Dispatcher U × Action U)) : List Pass :=
  trace.flatMap fun
    | (s,.arrive evt) => passesFrom s.chan.arrived evt 0 s.callbacks
    | _ => []

/-- The events that have been put into the queue: a coroutine has taken them, or they are there. -/
def items (chan : EventChannel) : List Item := chan.waiters.flatMap (·.received) ++ chan.queue

/-- Every event was passed to its callbacks, in order, and put into the queue once. -/
structure Dispatched (trace : List (Dispatcher U × Action U)) (s : Dispatcher U) : Prop where
  passed : s.passed = due trace
  queued : (items s.chan).Perm (arrivals trace)

def Quiet (s : Dispatcher U) : Action U → Prop
  | .arrive evt => Silent evt s.callbacks s.user
  | _ => True

def stateless (callback : Callback) : Handler Unit := ⟨callback.event,fun _ evt => ((),callback.raises evt)⟩

theorem silent_stateless {evt : Event} (callbacks : List Callback) :
    Silent evt (callbacks.map stateless) () ↔ (callbacks.any fun e => wanted e.event evt && e.raises evt) = false := by
  induction callbacks with
  | nil => exact iff_of_true trivial rfl
  | cons e callbacks ih =>
    rw [List.map_cons,Silent,List.any_cons,Bool.or_eq_false_iff]
    by_cases wants : wanted e.event evt = true
    · rw [if_pos (show wanted (stateless e).event evt = true from wants)]
      simp only [wants,Bool.true_and]
      exact and_congr_right fun _ => ih
    · rw [if_neg (show ¬ wanted (stateless e).event evt = true from wants)]
      rw [Bool.not_eq_true] at wants
      simp [wants,ih]

theorem arrive_stateless {callbacks : List Callback} {s : Dispatcher Unit} (evt : Event)
    (same : s.callbacks = callbacks.map stateless) :
    { (s.arrive evt).chan with callbacks := callbacks } =
      ({ s.chan with callbacks := callbacks } : EventChannel).arrive evt := by
  have quiet := callFrom_raised_iff s.chan.arrived evt 0 (callbacks.map stateless) ()
  rw [silent_stateless] at quiet
  have raises : ({ s.chan with callbacks := callbacks } : EventChannel).raises evt =
      (callFrom s.chan.arrived evt 0 (callbacks.map stateless) ()).raised := by
    cases raised : (callFrom s.chan.arrived evt 0 (callbacks.map stateless) ()).raised with
    | false => exact quiet.mp raised
    | true =>
      rw [← Bool.not_eq_false]
      exact fun fine => nomatch raised.symm.trans (quiet.mpr fine)
  unfold arrive EventChannel.arrive
  rw [raises]
  cases task : s.chan.task with
  | false => simpa using task
  | true =>
    simp only [if_true,Bool.not_true,Bool.false_eq_true,if_false,same]
    split
    · rfl
    · unfold put
      cases s.chan.getters <;> rfl

section Items

theorem items_put (chan : EventChannel) (item : Item) : items (chan.put item) = items chan ++ [item] := by
  unfold put
  split
  · exact (List.append_assoc ..).symm
  · rename_i i getters _
    have same : (chan.waiters.modify i fun w => { w with phase := .woken }).map (·.received) =
        chan.waiters.map (·.received) := by
      apply List.ext_getElem?
      intro j
      rw [List.getElem?_map,List.getElem?_map,List.getElem?_modify]
      cases chan.waiters[j]? with
      | none => rfl
      | some w =>
        split <;> rfl
    unfold items
    rw [List.flatMap_def,same,← List.flatMap_def]
    exact (List.append_assoc ..).symm

theorem put_task (chan : EventChannel) (item : Item) : (chan.put item).task = chan.task := by
  unfold put
  split <;> rfl

theorem flatMap_set_perm {α β : Type} {f : α → List β} {l : List α} {i : Nat} {w w' : α} {rest rest' : List β}
    (at_ : l[i]? = some w) (moved : (f w' ++ rest').Perm (f w ++ rest)) :
    ((l.set i w').flatMap f ++ rest').Perm (l.flatMap f ++ rest) := by
  induction l generalizing i with
  | nil => contradiction
  | cons a l ih =>
    cases i with
    | zero =>
      obtain rfl : a = w := Option.some.inj at_
      rw [List.set_cons_zero,List.flatMap_cons,List.flatMap_cons]
      calc
        (f w' ++ l.flatMap f ++ rest').Perm (l.flatMap f ++ (f w' ++ rest')) := by
          rw [← List.append_assoc]
          exact List.perm_append_comm.append_right _
        _ |>.Perm (l.flatMap f ++ (f a ++ rest)) := moved.append_left _
        _ |>.Perm (f a ++ l.flatMap f ++ rest) := by
          rw [← List.append_assoc]
          exact List.perm_append_comm.append_right _
    | succ i =>
      rw [List.set_cons_succ,List.flatMap_cons,List.flatMap_cons,List.append_assoc,List.append_assoc]
      exact (ih at_).append_left _

theorem ran_items {w w' : Waiter} {queue queue' : List Item} (ran : w.Ran queue (w',queue')) :
    w'.received ++ queue' = w.received ++ queue := by
  cases ran with
  | finds before revt after split others found =>
    subst split
    simp
  | suspends others => simp

theorem items_resume {chan chan' : EventChannel} {i : Nat} (resumed : chan.resume i = some chan') :
    (items chan').Perm (items chan) := by
  unfold resume at resumed
  split at resumed
  · contradiction
  · rename_i w at_
    split at resumed
    · obtain rfl := Option.some.inj resumed
      exact flatMap_set_perm at_ (List.Perm.of_eq (ran_items (w.run_ran chan.queue)))
    · contradiction

theorem resume_task {chan chan' : EventChannel} {i : Nat} (resumed : chan.resume i = some chan') :
    chan'.task = chan.task := by
  unfold resume at resumed
  split at resumed
  · contradiction
  · split at resumed
    · obtain rfl := Option.some.inj resumed
      rfl
    · contradiction

end Items

theorem arrivals_snoc (trace : List (Dispatcher U × Action U)) (s : Dispatcher U) (a : Action U) :
    arrivals (trace ++ [(s,a)]) = arrivals trace ++ arrivals [(s,a)] := List.filterMap_append ..

theorem due_snoc (trace : List (Dispatcher U × Action U)) (s : Dispatcher U) (a : Action U) :
    due (trace ++ [(s,a)]) = due trace ++ due [(s,a)] := List.flatMap_append ..

/-- A run is either quiet so far and has dispatched everything, or the task has ended and an event
is missing from the queue. -/
def Tracked (trace : List (Dispatcher U × Action U)) (s : Dispatcher U) : Prop :=
  ((∀ p ∈ trace, Quiet p.1 p.2) ∧ s.chan.task = true ∧ Dispatched trace s) ∨
    (¬ ∀ p ∈ trace, Quiet p.1 p.2) ∧ s.chan.task = false ∧ (items s.chan).length < (arrivals trace).length

theorem step_aside {trace : List (Dispatcher U × Action U)} {s t : Dispatcher U} {a : Action U}
    (tracked : Tracked trace s) (quiet : Quiet s a) (no_arrival : arrivals [(s,a)] = []) (no_call : due [(s,a)] = [])
    (passed : t.passed = s.passed) (task : t.chan.task = s.chan.task)
    (same : (items t.chan).Perm (items s.chan)) : Tracked (trace ++ [(s,a)]) t := by
  have all : (∀ p ∈ trace ++ [(s,a)], Quiet p.1 p.2) ↔ ∀ p ∈ trace, Quiet p.1 p.2 := by
    rw [List.forall_mem_append,List.forall_mem_singleton]
    exact and_iff_left quiet
  unfold Tracked
  rw [all,arrivals_snoc,no_arrival,List.append_nil,task,same.length_eq]
  apply tracked.imp_left
  rintro ⟨quiet,alive,dispatched⟩
  refine ⟨quiet,alive,?_,?_⟩
  · rw [due_snoc,no_call,List.append_nil,passed]
    exact dispatched.passed
  · rw [arrivals_snoc,no_arrival,List.append_nil]
    exact same.trans dispatched.queued

theorem step_tracked {trace : List (Dispatcher U × Action U)} {s t : Dispatcher U} {a : Action U}
    (tracked : Tracked trace s) (step : Step s a t) : Tracked (trace ++ [(s,a)]) t := by
  cases a with
  | addCallback callback =>
    obtain rfl := Option.some.inj step
    exact step_aside tracked trivial rfl rfl rfl rfl (.refl _)
  | wait evt =>
    obtain rfl := Option.some.inj step
    refine step_aside (a := .wait evt) tracked trivial rfl rfl rfl rfl ?_
    simp [items]
  | run i =>
    obtain ⟨chan,resumed,rfl⟩ := Option.map_eq_some_iff.mp step
    exact step_aside tracked trivial rfl rfl rfl (resume_task resumed) (items_resume resumed)
  | arrive evt =>
    obtain rfl := Option.some.inj step
    have all : (∀ p ∈ trace ++ [(s,.arrive evt)], Quiet p.1 p.2) ↔
        (∀ p ∈ trace, Quiet p.1 p.2) ∧ Silent evt s.callbacks s.user := by
      rw [List.forall_mem_append,List.forall_mem_singleton]
      exact Iff.rfl
    have arrived : arrivals (trace ++ [(s,.arrive evt)]) = arrivals trace ++ [⟨s.chan.arrived,evt⟩] :=
      arrivals_snoc ..
    have called : due (trace ++ [(s,.arrive evt)]) = due trace ++ passesFrom s.chan.arrived evt 0 s.callbacks :=
      (due_snoc ..).trans (congrArg _ (List.append_nil _))
    unfold Tracked
    rw [all,arrived]
    rcases tracked with ⟨quiet,alive,dispatched⟩ | ⟨loud,ended,fewer⟩
    · have raised := callFrom_raised_iff s.chan.arrived evt 0 s.callbacks s.user
      unfold arrive
      rw [if_pos alive]
      dsimp only
      by_cases silent : Silent evt s.callbacks s.user
      · rw [raised.mpr silent,callFrom_passed silent,if_neg Bool.false_ne_true]
        refine .inl ⟨⟨quiet,silent⟩,(put_task s.chan _).trans alive,?_,?_⟩
        · rw [called]
          exact congrArg (· ++ _) dispatched.passed
        · rw [arrived]
          exact (List.Perm.of_eq (items_put s.chan _)).trans (dispatched.queued.append_right _)
      · rw [eq_true_of_ne_false (mt raised.mp silent),if_pos rfl]
        refine .inr ⟨fun both => silent both.2,rfl,?_⟩
        have same : (items s.chan).length = (arrivals trace).length := dispatched.queued.length_eq
        rw [List.length_append]
        exact Nat.lt_succ_of_le (Nat.le_of_eq same)
    · refine .inr ⟨fun both => loud both.1,?_,?_⟩
      · simp [arrive,ended]
      · simp only [arrive,ended,Bool.false_eq_true,if_false,List.length_append]
        exact Nat.lt_succ_of_lt fewer

/-- Every event is dispatched and queued, exactly if no callback that it is for raises. -/
theorem dispatched_iff {s t : Dispatcher U} {trace : List (Dispatcher U × Action U)} (path : Path Step s trace t)
    (fresh : s.chan = EventChannel.init) (unused : s.passed = []) :
    Dispatched trace t ↔ ∀ p ∈ trace, Quiet p.1 p.2 := by
  have start : Tracked [] s := by
    refine .inl ⟨nofun,?_,?_,?_⟩
    · rw [fresh]
      rfl
    · exact unused
    · rw [fresh]
      rfl
  have tracked := path.history (P := Tracked) (fun _ _ _ _ => step_tracked) [] start
  rw [List.nil_append] at tracked
  rcases tracked with ⟨quiet,_,dispatched⟩ | ⟨loud,_,fewer⟩
  · exact iff_of_true dispatched quiet
  · apply iff_of_false _ loud
    intro dispatched
    exact absurd dispatched.queued.length_eq (Nat.ne_of_lt fewer)

end Dispatcher

/-- What the callbacks of a `Simulation` know: whether `_start_time` is set and whether there is a
progress bar; `user` is everything else. -/
structure Progress (U : Type) where
  started : Bool
  pbar : Bool
  user : U

namespace Progress
variable {U : Type} (draw : U → Event → Bool)

/-- Sets `_start_time` and starts the progress bar, which may raise. -/
def running (p : Progress U) (evt : Event) : Progress U × Bool :=
  ({ p with started := true },p.pbar && draw p.user evt)

/-- `__update_progressbar` needs the `_start_time` if there is a progress bar. -/
def stopped (p : Progress U) (evt : Event) : Progress U × Bool :=
  (p,p.pbar && (!p.started || draw p.user evt))

/-- `raise RuntimeError("Simulation overrun!")`. -/
def overrun (p : Progress U) (_ : Event) : Progress U × Bool := (p,true)

def callbacks : List (Handler (Progress U)) :=
  [⟨some .running,running draw⟩,⟨some .stopped,stopped draw⟩,⟨some .done,stopped draw⟩,⟨some .overrun,overrun⟩]

end Progress

namespace Dispatcher
variable {U : Type} {draw : U → Event → Bool} {pbar : Bool} {user : U}

/-- The channel of a `Simulation` after `__init__`. -/
def ofSimulation (draw : U → Event → Bool) (pbar : Bool) (user : U) : Dispatcher (Progress U) :=
  ⟨Progress.callbacks draw,⟨false,pbar,user⟩,[],EventChannel.init⟩

/-- Everything is dispatched, exactly if no callback raises for an event that it gets. -/
theorem simulation_dispatched_iff {s : Dispatcher (Progress U)}
    {trace : List (Dispatcher (Progress U) × Action (Progress U))}
    (path : Path Step (ofSimulation draw pbar user) trace s) :
    Dispatched trace s ↔ ∀ p ∈ trace, Quiet p.1 p.2 := dispatched_iff path rfl rfl

theorem not_silent {evt : Event} {callbacks : List (Handler U)} {e : Handler U} (member : e ∈ callbacks)
    (wants : wanted e.event evt = true) (raises : ∀ user, (e.cb user evt).2 = true) (user : U) :
    ¬ Silent evt callbacks user := by
  induction callbacks generalizing user with
  | nil => contradiction
  | cons d callbacks ih =>
    unfold Silent
    rcases List.mem_cons.mp member with rfl | later
    · rw [if_pos wants]
      rintro ⟨fine,_⟩
      exact nomatch fine.symm.trans (raises user)
    · split
      · exact fun silent => ih later _ silent.2
      · exact ih later user

theorem step_callbacks {s t : Dispatcher U} {a : Action U} (step : Step s a t) {e : Handler U}
    (member : e ∈ s.callbacks) : e ∈ t.callbacks := by
  cases a with
  | addCallback callback =>
    obtain rfl := Option.some.inj step
    exact List.mem_append_left _ member
  | wait evt =>
    obtain rfl := Option.some.inj step
    exact member
  | run i =>
    obtain ⟨chan,_,rfl⟩ := Option.map_eq_some_iff.mp step
    exact member
  | arrive evt =>
    obtain rfl := Option.some.inj step
    unfold arrive
    split <;> exact member

/-- The callback of `Simulation` itself raises for each overrun, so none is ever dispatched. -/
theorem overrun_not_quiet {s : Dispatcher (Progress U)}
    {trace : List (Dispatcher (Progress U) × Action (Progress U))}
    (path : Path Step (ofSimulation draw pbar user) trace s) : ¬ Quiet s (.arrive .overrun) := by
  have registered : ⟨some .overrun,Progress.overrun⟩ ∈ s.callbacks :=
    path.invariant (P := fun s => ⟨some .overrun,Progress.overrun⟩ ∈ s.callbacks)
      (fun _ _ _ member step => step_callbacks step member) (by simp [ofSimulation,Progress.callbacks])
  exact not_silent registered rfl (fun _ => rfl) s.user

section Examples

def listening : Dispatcher (Progress Unit) := ofSimulation (fun _ _ => false) false ()

theorem simulation_dispatched_iff_done :
    Dispatched [(listening,.arrive .running),(listening.arrive .running,.arrive .done)]
      ((listening.arrive .running).arrive .done) := by
  have path : Path Step listening [(listening,.arrive .running),(listening.arrive .running,.arrive .done)]
      ((listening.arrive .running).arrive .done) := .cons rfl (.single rfl)
  apply (simulation_dispatched_iff path).mpr
  rintro p (_ | ⟨_,_ | ⟨_,⟨⟩⟩⟩)
  all_goals
    simp [Quiet,Silent,listening,ofSimulation,Progress.callbacks,wanted,Progress.running,Progress.stopped,arrive,
      callFrom,EventChannel.init]

/-- The overrun ends the task: the `done` that follows is passed to nobody and is not in the queue. -/
theorem overrun_silences :
    let s := (listening.arrive .overrun).arrive .done
    Path Step listening [(listening,.arrive .overrun),(listening.arrive .overrun,.arrive .done)] s ∧
      s.chan.task = false ∧ s.passed = [⟨0,.overrun,3⟩] ∧ items s.chan = [] ∧
      ¬ Dispatched [(listening,.arrive .overrun),(listening.arrive .overrun,.arrive .done)] s := by
  refine ⟨.cons rfl (.single rfl),rfl,rfl,rfl,?_⟩
  intro dispatched
  exact absurd dispatched.queued.length_eq (by decide)

end Examples

end Dispatcher
end DPsim.Python.EventChannel
