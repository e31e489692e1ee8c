import DPsim.PythonThreads

/-! The sections of the control calls and of `threadFunction` that hold the mutex, taken
apart: `newState` sends the event to one descriptor after the other and then stores the state,
while the code outside the mutex goes on. The actions of `World` happen at the store. -/
namespace DPsim.Python

variable {Real σ H : Type} [LinearOrder Real]

def Call.announces (call : Call) (state : State) : Option State :=
  match call with
  | .start =>
    if state = .running ∨ state = .done then none
    else if state = .paused then some .resuming else some .starting
  | .step =>
    if state = .stopped then some .starting else if state = .paused then some .resuming else none
  | .pause => if state = .running then some .pausing else none
  | .stop | .dealloc => if state = .running ∨ state = .paused then some .stopping else none

def Thread.announces (self : Simulation Real σ H) (t : Thread Real H) : Option State :=
  match t.pc with
  | .overrunning => if self.failOnOverrun then some .overrun else none
  | .firstRunning => some .running
  | .toPause => some .paused
  | .pausedWait => if self.state = .resuming then some .running else none
  | .toStop => some .stopped
  | .finishing => some .done
  | _ => none

def Pc.locks : Pc → Bool
  | .overrunning | .firstRunning | .toPause | .pausedWait | .toStop | .finishing => true
  | _ => false

namespace World

def announces (w : World Real σ H) : Action H → Option State
  | .call c => if c = .dealloc ∧ w.self.thread = none then none else c.announces w.self.state
  | .wake => none
  | .thread i _ _ => w.threads[i]?.bind (Thread.announces w.self)

/-- The deallocation without a thread and the join do not take the mutex. -/
def locks (w : World Real σ H) : Action H → Bool
  | .call c => !(c = .dealloc ∧ w.self.thread = none)
  | .wake => w.caller ≠ .joining
  | .thread i _ _ => w.threads[i]?.any fun t => Pc.locks t.pc

/-- An action sends and stores what it announces, or leaves the state alone. -/
def Reports (w u : World Real σ H) (announced : Option State) : Prop :=
  u.self.channel = w.self.channel ++ announced.toList ∧ u.self.state = announced.getD w.self.state

theorem enter_reports (c : Call) (self : Simulation Real σ H) :
    (c.enter self).1.channel = self.channel ++ (c.announces self.state).toList ∧
      (c.enter self).1.state = (c.announces self.state).getD self.state := by
  cases c <;> simp only [Call.enter,Simulation.start,Simulation.step,Simulation.pause,Simulation.stop,
    Call.announces]
  all_goals cases at_ : self.state <;> simp [at_,Simulation.newState]

theorem call_reports [Zero Real] {w u : World Real σ H} {c : Call} (called : w.call c = some u) :
    w.Reports u (w.announces (.call c)) := by
  rcases call_entered called with ⟨dealloc,none,same⟩ | ⟨keeps,thread,entered⟩
  · simp [Reports,announces,dealloc,none,same]
  · simp only [Reports,announces,if_neg keeps,entered]
    exact enter_reports c w.self

theorem act_reports {solver : Solver Real σ H} {self self' : Simulation Real σ H} {t t' : Thread Real H}
    (acted : t.act solver self input overrun = some (self', t')) :
    self'.channel = self.channel ++ (t.announces self).toList ∧
      self'.state = (t.announces self).getD self.state ∧ self'.failOnOverrun = self.failOnOverrun := by
  cases at_ : t.pc with
  | opening | closing =>
    simp only [Thread.act,at_,Option.some.injEq,Prod.mk.injEq] at acted
    obtain ⟨rfl,rfl⟩ := acted
    simp [Thread.announces,at_]
  | syncing =>
    simp only [Thread.act,at_] at acted
    split at acted
    · split at acted
      · cases acted
        simp [Thread.announces,at_]
      · contradiction
    · cases acted
      simp [Thread.announces,at_]
  | stepping =>
    simp only [Thread.act,at_] at acted
    split at acted
    · cases acted
      simp [Thread.announces,at_]
    · contradiction
  | overrunning =>
    simp only [Thread.act,at_,Option.some.injEq,Prod.mk.injEq] at acted
    obtain ⟨rfl,rfl⟩ := acted
    by_cases fail : self.failOnOverrun <;> simp [Thread.announces,at_,fail,Simulation.newState]
  | pausedWait =>
    simp only [Thread.act,at_] at acted
    split at acted
    · contradiction
    · cases acted
      by_cases resumed : self.state = .resuming <;>
        simp [Thread.announces,at_,resumed,Simulation.newState]
  | returned exit => simp [Thread.act,at_] at acted
  | _ =>
    simp only [Thread.act,at_,Option.some.injEq,Prod.mk.injEq] at acted
    obtain ⟨rfl,rfl⟩ := acted
    simp [Thread.announces,at_,Simulation.newState]

theorem announces_unlocked {w : World Real σ H} {a : Action H} (unlocked : w.locks a = false) :
    w.announces a = none := by
  cases a with
  | call c => simp_all [locks,announces]
  | wake => rfl
  | thread i input overrun =>
    cases at_ : w.threads[i]? with
    | none => simp [announces,at_]
    | some t =>
      have other : Pc.locks t.pc = false := by simpa [locks,at_] using unlocked
      simp only [announces,at_,Option.bind_some,Thread.announces]
      split <;> simp_all [Pc.locks]

variable [Zero Real] {solver : Solver Real σ H}

theorem step_reports {w u : World Real σ H} {a : Action H} (moved : Step solver w a u) :
    w.Reports u (w.announces a) := by
  cases a with
  | call c => exact call_reports moved
  | wake =>
    obtain ⟨self,_⟩ := wake_woken moved
    simp [Reports,announces,self]
  | thread i input overrun =>
    obtain ⟨_,_,t,t',at_,_,acted⟩ := advance_acted moved
    obtain ⟨channel,state,_⟩ := act_reports acted
    simpa [Reports,announces,at_] using ⟨channel,state⟩

/-- An announcement stays due while code runs that does not take the mutex. -/
theorem announces_outside {w u : World Real σ H} {a b : Action H} (due : w.announces b = some e)
    (outside : w.locks a = false) (moved : Step solver w a u) : u.announces b = some e := by
  have same (self : u.self = w.self) (threads : u.threads = w.threads) : u.announces b = some e := by
    rw [← due]
    cases b <;> simp [announces,self,threads]
  cases a with
  | call c =>
    obtain ⟨rfl,alone⟩ : c = .dealloc ∧ w.self.thread = none := by simpa [locks] using outside
    have called : w.call .dealloc = some u := moved
    simp only [call,alone] at called
    split at called
    · contradiction
    · cases called
      exact same rfl rfl
  | wake =>
    obtain ⟨self,threads,_⟩ := wake_woken moved
    exact same self threads
  | thread j input overrun =>
    obtain ⟨_,_,t,t',at_,threads,acted⟩ := advance_acted moved
    have silent : t.announces w.self = none := by simpa [announces,at_] using announces_unlocked outside
    obtain ⟨_,state,fail⟩ := act_reports acted
    have thread := (Thread.act_moved acted).1
    rw [silent] at state
    cases b with
    | call c => simpa [announces,thread,state] using due
    | wake => simp [announces] at due
    | thread i input' overrun' =>
      obtain ⟨v,here,announced⟩ := Option.bind_eq_some_iff.mp due
      have other : j ≠ i := by
        rintro rfl
        rw [at_] at here
        cases here
        simp [silent] at announced
      have kept : u.threads[i]? = some v := by
        rw [threads,List.getElem?_set_ne other]
        exact here
      have alike : v.announces u.self = v.announces w.self := by
        simp [Thread.announces,fail,state]
      simpa [announces,kept,alike] using announced

end World

inductive Holder (H : Type) where
  | free
  | entered (a : Action H)
  /-- `sendEvent` has not yet come to these descriptors -/
  | sending (a : Action H) (e : State) (unsent : List Nat)
  | reading
  | leaving

def Action.byCaller : Action H → Bool
  | .thread _ _ _ => false
  | _ => true

def Holder.byCaller : Holder H → Bool
  | .entered a | .sending a _ _ => a.byCaller
  | _ => false

/-- The world with its mutex. `sent` is what the descriptors have received, and `values` what
has been stored to the state, in order. -/
structure Monitor (Real σ H : Type) [LinearOrder Real] where
  world : World Real σ H
  holder : Holder H
  mFds : List Nat
  sent : List (Nat × State)
  values : List State

/-- A single move: code outside the mutex, or a part of a section that holds it. -/
inductive Move (H : Type) where
  | outside (a : Action H)
  | lock (a : Action H)
  | announce
  | send
  | act
  | unlock
  | lockState
  | getState (value : State)
  | addFd (fd : Nat)
  | removeFd (fd : Nat)

def Holder.sends : Holder H → Bool
  | .sending _ _ _ => true
  | _ => false

namespace Monitor
open Transition

def initial (self : Simulation Real σ H) (mFds : List Nat) : Monitor Real σ H :=
  ⟨.initial self, .free, mFds, [], []⟩

variable [Zero Real]

/-- An action that would wait again is not begun. `addFd` and `removeFd` do not take the mutex;
during a `sendEvent` they would be a data race. -/
def next (solver : Solver Real σ H) (m : Monitor Real σ H) (move : Move H) : Option (Monitor Real σ H) :=
  match move, m.holder with
  | .outside a, holder =>
    if m.world.locks a ∨ (a.byCaller ∧ holder.byCaller) then none
    else (m.world.next solver a).map fun w => { m with world := w }
  | .lock a, .free =>
    if m.world.locks a ∧ (m.world.next solver a).isSome then some { m with holder := .entered a } else none
  | .announce, .entered a =>
    (m.world.announces a).map fun e => { m with holder := .sending a e m.mFds }
  | .send, .sending a e (fd :: unsent) =>
    some { m with
      holder := .sending a e unsent
      sent := m.sent ++ [(fd, e)] }
  | .act, .sending a _ [] =>
    (m.world.next solver a).map fun w => { m with
      world := w
      holder := .leaving
      values := m.values ++ [w.self.state] }
  | .act, .entered a =>
    if (m.world.announces a).isSome then none
    else (m.world.next solver a).map fun w => { m with
      world := w
      holder := .leaving }
  | .unlock, .leaving => some { m with holder := .free }
  | .lockState, .free => some { m with holder := .reading }
  | .getState value, .reading =>
    if value = m.world.self.state then some { m with holder := .leaving } else none
  | .addFd fd, holder => if holder.sends then none else some { m with mFds := m.mFds ++ [fd] }
  | .removeFd fd, holder =>
    if holder.sends then none else some { m with mFds := m.mFds.filter (· ≠ fd) }
  | _, _ => none

def Step (solver : Solver Real σ H) (m : Monitor Real σ H) (move : Move H) (m' : Monitor Real σ H) :
    Prop := m.next solver move = some m'

variable {solver : Solver Real σ H}

inductive Moved (solver : Solver Real σ H) (m m' : Monitor Real σ H) : Move H → Prop where
  | outside (unlocked : m.world.locks a = false) (moved : World.Step solver m.world a w)
      (result : m' = { m with world := w }) : Moved solver m m' (.outside a)
  | lock (free : m.holder = .free) (result : m' = { m with holder := .entered a }) :
      Moved solver m m' (.lock a)
  | announce (entered : m.holder = .entered a) (due : m.world.announces a = some e)
      (result : m' = { m with holder := .sending a e m.mFds }) : Moved solver m m' .announce
  | send (sending : m.holder = .sending a e (fd :: unsent))
      (result : m' = { m with
        holder := .sending a e unsent
        sent := m.sent ++ [(fd, e)] }) : Moved solver m m' .send
  | store (sending : m.holder = .sending a e []) (moved : World.Step solver m.world a w)
      (result : m' = { m with
        world := w
        holder := .leaving
        values := m.values ++ [w.self.state] }) : Moved solver m m' .act
  | pass (entered : m.holder = .entered a) (none : m.world.announces a = none)
      (moved : World.Step solver m.world a w)
      (result : m' = { m with
        world := w
        holder := .leaving }) : Moved solver m m' .act
  | unlock (leaving : m.holder = .leaving) (result : m' = { m with holder := .free }) :
      Moved solver m m' .unlock
  | lockState (free : m.holder = .free) (result : m' = { m with holder := .reading }) :
      Moved solver m m' .lockState
  | getState (reading : m.holder = .reading) (result : m' = { m with holder := .leaving }) :
      Moved solver m m' (.getState m.world.self.state)
  | addFd (settled : m.holder.sends = false) (result : m' = { m with mFds := m.mFds ++ [fd] }) :
      Moved solver m m' (.addFd fd)
  | removeFd (settled : m.holder.sends = false)
      (result : m' = { m with mFds := m.mFds.filter (· ≠ fd) }) : Moved solver m m' (.removeFd fd)

theorem step_moved {m m' : Monitor Real σ H} {move : Move H} (step : Step solver m move m') :
    Moved solver m m' move := by
  simp only [Step,next] at step
  split at step
  · rename_i a holder
    split at step
    · contradiction
    · rename_i outside
      obtain ⟨w,moved,rfl⟩ := Option.map_eq_some_iff.mp step
      exact .outside (by simpa using (not_or.mp outside).1) moved rfl
  · rename_i free
    split at step
    · cases step
      exact .lock free rfl
    · contradiction
  · rename_i entered
    obtain ⟨e,due,rfl⟩ := Option.map_eq_some_iff.mp step
    exact .announce entered due rfl
  · rename_i sending
    cases step
    exact .send sending rfl
  · rename_i sending
    obtain ⟨w,moved,rfl⟩ := Option.map_eq_some_iff.mp step
    exact .store sending moved rfl
  · rename_i entered
    split at step
    · contradiction
    · rename_i silent
      obtain ⟨w,moved,rfl⟩ := Option.map_eq_some_iff.mp step
      exact .pass entered (by simpa using silent) moved rfl
  · rename_i leaving
    cases step
    exact .unlock leaving rfl
  · rename_i free
    cases step
    exact .lockState free rfl
  · rename_i value reading
    split at step
    · rename_i read
      cases step
      exact read ▸ .getState reading rfl
    · contradiction
  · split at step
    · contradiction
    · rename_i settled
      cases step
      exact .addFd (by simpa using settled) rfl
  · split at step
    · contradiction
    · rename_i settled
      cases step
      exact .removeFd (by simpa using settled) rfl
  · contradiction

def received (sent : List (Nat × State)) (fd : Nat) : List State :=
  (sent.filter (·.1 = fd)).map Prod.snd

/-- What a descriptor has received of the event that is being sent. -/
def inFlight (m : Monitor Real σ H) (fd : Nat) : List State :=
  match m.holder with
  | .sending _ e unsent => List.replicate (m.mFds.count fd - unsent.count fd) e
  | _ => []

omit [Zero Real] in
theorem inFlight_settled {m : Monitor Real σ H} (settled : m.holder.sends = false) :
    m.inFlight fd = [] := by
  unfold inFlight
  split
  · rename_i holder
    rw [holder] at settled
    cases settled
  · rfl

/-- Every value so many times in a row. -/
def repeated (times : Nat) (values : List State) : List State := values.flatMap (List.replicate times)

@[simp] theorem repeated_nil (times : Nat) : repeated times [] = [] := rfl

@[simp] theorem repeated_append (times : Nat) (xs ys : List State) :
    repeated times (xs ++ ys) = repeated times xs ++ repeated times ys := List.flatMap_append

@[simp] theorem repeated_single (times : Nat) (e : State) : repeated times [e] = List.replicate times e :=
  List.flatMap_singleton ..

theorem repeated_once (values : List State) : repeated 1 values = values := by
  induction values with
  | nil => rfl
  | cons value values ih => exact congrArg (value :: ·) ih

theorem repeated_get {times : Nat} (some : 0 < times) {values : List State} {n : Nat} {e : State}
    (got : (repeated times values)[n]? = .some e) : values[n / times]? = .some e := by
  induction values generalizing n with
  | nil => simp at got
  | cons value values ih =>
    change (List.replicate times value ++ repeated times values)[n]? = .some e at got
    rcases lt_or_ge n times with first | later
    · rw [List.getElem?_append_left (by simpa using first),List.getElem?_replicate_of_lt first] at got
      rw [Nat.div_eq_of_lt first]
      exact got
    · rw [List.getElem?_append_right (by simpa using later),List.length_replicate] at got
      rw [Nat.div_eq_sub_div some later]
      exact ih got

/-- A descriptor that is registered so many times has been sent so often what has been stored, and what
it has been sent of the event on its way; the state is the value stored last. -/
structure Agrees (fd times : Nat) (m : Monitor Real σ H) : Prop where
  registered : m.mFds.count fd = times
  state : m.world.self.state = m.values.getLastD .stopped
  channel : m.world.self.channel = m.values
  received : received m.sent fd = repeated times m.values ++ m.inFlight fd
  sending : ∀ a e unsent, m.holder = .sending a e unsent →
    m.world.announces a = some e ∧ unsent <:+ m.mFds

def Keeps (fd : Nat) (_ : Monitor Real σ H) (move : Move H) : Prop :=
  move ≠ .addFd fd ∧ move ≠ .removeFd fd

omit [Zero Real] in
theorem initial_agrees {mFds : List Nat} (self : Simulation Real σ H) (state : self.state = .stopped)
    (channel : self.channel = []) (fd : Nat) : Agrees fd (mFds.count fd) (initial self mFds) :=
  ⟨rfl,by simpa [initial,World.initial] using state,channel,by simp [received,inFlight,initial],
    by simp [initial]⟩

omit [Zero Real] in
/-- One more entry of `mFds` is served. -/
theorem Agrees.send {m : Monitor Real σ H} (agrees : Agrees fd times m) {next : Nat} {unsent : List Nat}
    (holder : m.holder = .sending a e (next :: unsent)) :
    Agrees fd times { m with
      holder := .sending a e unsent
      sent := m.sent ++ [(next, e)] } := by
  obtain ⟨registered,state,channel,received,sending⟩ := agrees
  obtain ⟨due,suffix⟩ := sending _ _ _ holder
  refine ⟨registered,state,channel,?_,?_⟩
  · have most := suffix.sublist.count_le fd
    simp only [inFlight,holder] at received
    simp only [Monitor.received,inFlight,List.filter_append,List.map_append] at received ⊢
    rw [received,List.append_assoc]
    by_cases same : next = fd
    · subst same
      rw [List.count_cons_self] at most ⊢
      have one : m.mFds.count next - unsent.count next =
          m.mFds.count next - (unsent.count next + 1) + 1 := by omega
      rw [one,List.replicate_succ']
      simp
    · rw [List.count_cons_of_ne same]
      simp [same]
  · rintro _ _ _ same
    cases same
    exact ⟨due,(List.suffix_cons _ _).trans suffix⟩

theorem step_agrees (m : Monitor Real σ H) (move : Move H) (m' : Monitor Real σ H)
    (agrees : Agrees fd times m) (keeps : Keeps fd m move) (step : Step solver m move m') :
    Agrees fd times m' := by
  have ⟨registered,state,channel,received,sending⟩ := agrees
  have settled {holder : Holder H} (at_ : m.holder = holder) (none : holder.sends = false) :
      Monitor.received m.sent fd = repeated times m.values := by
    rw [received,inFlight_settled (at_ ▸ none),List.append_nil]
  have quiet (none : m.holder.sends = false) (a : Action H) (e : State) (unsent : List Nat) :
      m.holder ≠ .sending a e unsent := by
    intro holder
    rw [holder] at none
    cases none
  cases step_moved step with
  | @outside a w unlocked moved result =>
    subst result
    have silent := World.announces_unlocked unlocked
    obtain ⟨channel',state'⟩ := World.step_reports moved
    rw [silent] at channel' state'
    refine ⟨registered,state'.trans state,by simpa [channel] using channel',received,
      fun b e unsent holder => ?_⟩
    obtain ⟨due,suffix⟩ := sending b e unsent holder
    exact ⟨World.announces_outside due unlocked moved,suffix⟩
  | lock free result | lockState free result =>
    subst result
    exact ⟨registered,state,channel,by simp [inFlight,settled free rfl],by simp⟩
  | announce entered due result =>
    subst result
    refine ⟨registered,state,channel,by simp [inFlight,settled entered rfl],?_⟩
    rintro _ _ _ holder
    cases holder
    exact ⟨due,List.suffix_refl _⟩
  | send holder result =>
    subst result
    exact agrees.send holder
  | @store a e w holder moved result =>
    subst result
    obtain ⟨due,_⟩ := sending _ _ _ holder
    obtain ⟨channel',state'⟩ := World.step_reports moved
    rw [due] at channel' state'
    have stored : w.self.state = e := state'
    refine ⟨registered,by simp,?_,?_,by simp⟩
    · rw [channel',channel,stored]
      rfl
    · simpa [inFlight,holder,stored,registered] using received
  | @pass a w entered silent moved result =>
    subst result
    obtain ⟨channel',state'⟩ := World.step_reports moved
    rw [silent] at channel' state'
    exact ⟨registered,state'.trans state,by simpa [channel] using channel',
      by simp [inFlight,settled entered rfl],by simp⟩
  | unlock holder result | getState holder result =>
    subst result
    exact ⟨registered,state,channel,by simp [inFlight,settled holder rfl],by simp⟩
  | @addFd other none result =>
    have absent : [other].count fd = 0 := List.count_eq_zero.mpr fun member =>
      keeps.1 (congrArg Move.addFd (List.mem_singleton.mp member).symm)
    have idle : m'.inFlight fd = [] := inFlight_settled (by rw [result]; exact none)
    subst result
    refine ⟨by rw [List.count_append,registered,absent,Nat.add_zero],state,channel,?_,
      fun a e unsent holder => absurd holder (quiet none a e unsent)⟩
    rw [idle,List.append_nil]
    exact settled rfl none
  | @removeFd other none result =>
    have idle : m'.inFlight fd = [] := inFlight_settled (by rw [result]; exact none)
    subst result
    refine ⟨?_,state,channel,?_,fun a e unsent holder => absurd holder (quiet none a e unsent)⟩
    · rw [List.count_filter]
      · exact registered
      · exact decide_eq_true fun same => keeps.2 (congrArg Move.removeFd same.symm)
    · rw [idle,List.append_nil]
      exact settled rfl none

theorem path_sent {m m' : Monitor Real σ H} (path : Path (Step solver) m trace m') :
    m.sent <+: m'.sent := by
  refine path.invariant (P := fun x => m.sent <+: x.sent) ?_ (List.prefix_refl _)
  intro x move y before step
  cases step_moved step with
  | send _ result => rw [result]; exact before.trans (List.prefix_append _ _)
  | outside _ _ result | lock _ result | announce _ _ result | store _ _ result | pass _ _ _ result
    | unlock _ result | lockState _ result | getState _ result | addFd _ result | removeFd _ result =>
    rw [result]; exact before

/-- The moves of a monitor make up a run of its world. -/
theorem refines {m m' : Monitor Real σ H} (path : Path (Step solver) m trace m') :
    ∃ actions, Path (World.Step solver) m.world actions m'.world := by
  induction path with
  | nil => exact ⟨[],.nil⟩
  | cons step _ ih =>
    obtain ⟨actions,path⟩ := ih
    cases step_moved step with
    | outside _ moved result | store _ moved result | pass _ _ moved result =>
      rw [result] at path
      exact ⟨_,.cons moved path⟩
    | lock _ result | announce _ _ result | send _ result | unlock _ result | lockState _ result
      | getState _ result | addFd _ result | removeFd _ result =>
      rw [result] at path
      exact ⟨actions,path⟩

def Announcing (m : Monitor Real σ H) (e : State) : Prop := ∃ a unsent, m.holder = .sending a e unsent

/-- A descriptor registered before the run receives each value of the state, in their order and before
it is stored, as many times in a row as it is registered, once in particular if that is once; who has
received one and then reads the state gets that value or a later one. -/
theorem events_agree (sim : DPsim.Simulation Real σ H)
    (realTime startSync failOnOverrun singleStepping : Bool) (mFds : List Nat)
    (path : Path (Step solver)
      (initial (Simulation.init sim realTime startSync failOnOverrun singleStepping) mFds) trace m)
    (registered : 0 < mFds.count fd) (keeps : ∀ p ∈ trace, Keeps fd p.1 p.2) :
    (received m.sent fd = repeated (mFds.count fd) m.values ∨
        ∃ e partly, Announcing m e ∧ partly ≤ mFds.count fd ∧
          received m.sent fd = repeated (mFds.count fd) m.values ++ List.replicate partly e) ∧
      (mFds.count fd = 1 → received m.sent fd = m.values ∨
        ∃ e, Announcing m e ∧ received m.sent fd = m.values ++ [e]) ∧
      m.world.self.state = m.values.getLastD .stopped ∧
      ∀ trace' m' value m'', Path (Step solver) m trace' m' → (∀ p ∈ trace', Keeps fd p.1 p.2) →
        Step solver m' (.getState value) m'' → ∀ (n : Nat) e, (received m.sent fd)[n]? = some e →
          m'.values[n / mFds.count fd]? = some e ∧
            ∃ k, n / mFds.count fd ≤ k ∧ m'.values[k]? = some value := by
  have agrees : Agrees fd (mFds.count fd) m := path.guarded_states step_agrees keeps
    (initial_agrees _ rfl rfl fd) m (final_mem_states trace m)
  have heard : received m.sent fd = repeated (mFds.count fd) m.values ∨
      ∃ e partly, Announcing m e ∧ partly ≤ mFds.count fd ∧
        received m.sent fd = repeated (mFds.count fd) m.values ++ List.replicate partly e := by
    rw [agrees.received,inFlight]
    split
    · rename_i a e unsent holder
      exact .inr ⟨e,_,⟨a,unsent,holder⟩,agrees.registered ▸ Nat.sub_le _ _,rfl⟩
    · exact .inl (List.append_nil _)
  refine ⟨heard,fun once => ?_,agrees.state,?_⟩
  · rw [once,repeated_once] at heard
    rcases heard with all | ⟨e,partly,announcing,most,all⟩
    · exact .inl all
    · obtain rfl | rfl : partly = 0 ∨ partly = 1 := by omega
      · exact .inl (all.trans (List.append_nil _))
      · exact .inr ⟨e,announcing,all⟩
  · intro trace' m' value m'' later keeps' read n e got
    have agrees' : Agrees fd (mFds.count fd) m' := later.guarded_states step_agrees keeps' agrees m'
      (final_mem_states trace' m')
    cases step_moved read with
    | getState reading =>
      have all : received m'.sent fd = repeated (mFds.count fd) m'.values := by
        simp [agrees'.received,inFlight,reading]
      have grown : received m.sent fd <+: repeated (mFds.count fd) m'.values :=
        all ▸ ((path_sent later).filter _).map _
      have here : (repeated (mFds.count fd) m'.values)[n]? = some e := by
        obtain ⟨more,split⟩ := grown
        rw [← split,List.getElem?_append_left (List.getElem?_eq_some_iff.mp got).1]
        exact got
      have entered := repeated_get registered here
      have bound := (List.getElem?_eq_some_iff.mp entered).1
      refine ⟨entered,m'.values.length - 1,Nat.le_sub_one_of_lt bound,?_⟩
      rw [agrees'.state,List.getLastD_eq_getLast?,List.getLast?_eq_getElem?,
        List.getElem?_eq_getElem (Nat.sub_one_lt_of_lt bound)]
      rfl

def threadSection : List (Move Nat) :=
  [.lock (.thread 0 World.quiet false),.announce,.send,.act,.unlock]

def observed : List (Move Nat) :=
  [Move.lock (.call .start),.announce,.send,.act,.unlock] ++
    List.replicate 6 (Move.outside (.thread 0 World.quiet false)) ++ threadSection ++ [Move.lockState]

theorem events_agree_observed :
    let m := finalOf (next World.clock) (initial (World.clockObject 2) [7]) observed
    received m.sent 7 = [.starting,.running] ∧
      ∀ m', Step World.clock m (.getState .running) m' → ∃ k, 1 ≤ k ∧ m.values[k]? = some .running := by
  intro m
  have keeps : ∀ p ∈ traceOf (next World.clock) (initial (World.clockObject 2) [7]) observed,
      Keeps 7 p.1 p.2 := by
    intro p member
    have moves := label_of_traceOf _ member
    simp only [observed,threadSection,List.mem_append,List.mem_cons,List.mem_replicate] at moves
    rcases moves with ((moves | ⟨_,moves⟩) | moves) | moves
    all_goals constructor <;> intro same <;> simp [same] at moves
  have agree := events_agree _ false false false false [7] (path_of_labels _ _ observed) (by decide) keeps
  exact ⟨rfl,fun m' read => (agree.2.2.2 [] m .running m' .nil (by simp) read 1 .running rfl).2⟩

/-- Nothing keeps a descriptor from being added twice; it then receives every event twice. -/
theorem registered_twice_hears_twice :
    ¬ ∀ mFds trace (m : Monitor Nat Unit Nat),
      Path (Step World.clock) (initial (World.clockObject 2) mFds) trace m → 7 ∈ mFds →
        (∀ p ∈ trace, Keeps 7 p.1 p.2) →
          received m.sent 7 = m.values ∨ ∃ e, Announcing m e ∧ received m.sent 7 = m.values ++ [e] := by
  intro always
  let moves : List (Move Nat) := [.lock (.call .start),.announce,.send,.send,.act,.unlock]
  have keeps : ∀ p ∈ traceOf (next World.clock) (initial (World.clockObject 2) [7,7]) moves,
      Keeps 7 p.1 p.2 := by
    intro p member
    have listed := label_of_traceOf _ member
    simp only [moves,List.mem_cons,List.not_mem_nil,or_false] at listed
    constructor <;> intro same <;> simp [same] at listed
  rcases always [7,7] _ _ (path_of_labels (next World.clock) _ moves) (by simp) keeps with
    same | ⟨_,⟨_,_,sending⟩,_⟩
  · exact absurd same (by decide)
  · cases sending

end Monitor
end DPsim.Python
