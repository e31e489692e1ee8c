import DPsim.EventDelivery
import DPsim.EventDispatch
import DPsim.EventTransport
import DPsim.PythonProgress
import Mathlib.Data.List.TakeWhile

/-! `simulate` of the Python package: a `start`, then a `wait` for `running` and a `wait` for `done`.
The control call, the simulation thread, the socket and the event loop go on in any order. -/
namespace DPsim.Python

namespace EventChannel

def constructed : EventChannel := Transition.finalOf next init simulationCallbacks

/-- What gets to the queue: the callback for `overrun` raises an exception. -/
def kept (events : List Event) : List Event := events.takeWhile (· ≠ .overrun)

theorem kept_arrive (events : List Event) (evt : Event) :
    kept (events ++ [evt]) =
      if .overrun ∈ events ∨ evt = .overrun then kept events else kept events ++ [evt] := by
  induction events with
  | nil =>
    by_cases overrun : evt = .overrun <;> simp [kept,overrun]
  | cons e events ih =>
    by_cases overrun : e = .overrun
    · simp [kept,overrun]
    · have first (rest : List Event) : kept (e :: rest) = e :: kept rest := by simp [kept,overrun]
      rw [List.cons_append,first,first,ih]
      have other : Event.overrun ≠ e := Ne.symm overrun
      simp only [List.mem_cons,other,false_or]
      split <;> rfl

theorem kept_all {events : List Event} (fine : .overrun ∉ events) : kept events = events := by
  refine List.takeWhile_eq_self_iff.mpr fun e member => ?_
  simpa using ne_of_mem_of_not_mem member fine

/-- A coroutine that has returned has received its event last, and any other has not received it. -/
structure Awaits (w : Waiter) : Prop where
  returned : w.phase = .done → ∃ before item, w.received = before ++ [item] ∧ wanted w.evt item.event = true
  waiting : w.phase ≠ .done → ∀ item ∈ w.received, wanted w.evt item.event = false

def Stage : List Waiter → Prop
  | [] => True
  | [w] => w.evt = some .running ∧ Awaits w
  | [w, v] => w.evt = some .running ∧ Awaits w ∧ w.phase = .done ∧ v.evt = some .done ∧ Awaits v
  | _ => False

structure Consumed (channel : EventChannel) (events : List Event) : Prop where
  sound : Sound channel
  callbacks : channel.callbacks = constructed.callbacks
  task : channel.task = true ↔ .overrun ∉ events
  items : (Dispatcher.items channel).map Item.event = kept events
  stage : Stage channel.waiters

theorem constructed_consumed : Consumed constructed [] := by
  refine ⟨?_,rfl,by decide,rfl,trivial⟩
  have path := Transition.path_of_labels next init simulationCallbacks
  exact path.invariant step_sound init_sound

theorem raises_constructed {channel : EventChannel} (same : channel.callbacks = constructed.callbacks)
    (evt : Event) : channel.raises evt = decide (evt = .overrun) := by
  unfold raises
  rw [same]
  cases evt <;> rfl

theorem Awaits.woken {w : Waiter} (awaits : Awaits w) (blocked : w.phase = .blocked) :
    Awaits { w with phase := .woken } :=
  ⟨nofun,fun _ => awaits.waiting (by simp [blocked])⟩

theorem Stage.woken {ws : List Waiter} {i : Nat} {w : Waiter} (stage : Stage ws) (at_ : ws[i]? = some w)
    (blocked : w.phase = .blocked) : Stage (ws.modify i fun w => { w with phase := .woken }) := by
  rcases ws with _ | ⟨a,_ | ⟨b,_ | ⟨c,ws⟩⟩⟩
  · contradiction
  · rcases i with _ | i
    · obtain rfl : a = w := Option.some.inj at_
      exact ⟨stage.1,stage.2.woken blocked⟩
    · contradiction
  · obtain ⟨first,closed,done,second,waits⟩ := stage
    rcases i with _ | _ | i
    · obtain rfl : a = w := Option.some.inj at_
      rw [blocked] at done
      contradiction
    · obtain rfl : b = w := Option.some.inj at_
      exact ⟨first,closed,done,second,waits.woken blocked⟩
    · contradiction
  · exact stage.elim

theorem put_stage {channel : EventChannel} (sound : Sound channel) (stage : Stage channel.waiters) (item : Item) :
    Stage (channel.put item).waiters := by
  unfold put
  split
  · exact stage
  · rename_i i getters first
    obtain ⟨w,at_,blocked⟩ := (sound.blocked i).mp (by rw [first]; exact List.mem_cons_self)
    exact stage.woken at_ blocked

theorem put_callbacks (channel : EventChannel) (item : Item) : (channel.put item).callbacks = channel.callbacks := by
  unfold put
  split <;> rfl

/-- An event that arrives gets to the queue, unless it or one before has ended the task. -/
theorem consumed_hears : Hears Consumed := by
  intro channel events evt consumed
  have sound := step_sound channel (.arrive evt) _ consumed.sound rfl
  obtain ⟨before,callbacks,task,items,stage⟩ := consumed
  have arrived := kept_arrive events evt
  cases reads : channel.task with
  | false =>
    have overrun : .overrun ∈ events := by
      rw [reads] at task
      simpa using task
    have same : channel.arrive evt = { channel with arrived := channel.arrived + 1 } := by
      simp [EventChannel.arrive,reads]
    rw [if_pos (.inl overrun)] at arrived
    rw [same] at sound ⊢
    exact ⟨sound,callbacks,by simp [reads,overrun],items.trans arrived.symm,stage⟩
  | true =>
    have fine : .overrun ∉ events := task.mp reads
    by_cases overrun : evt = .overrun
    · have same : channel.arrive evt = { channel with
          task := false
          arrived := channel.arrived + 1 } := by
        simp [EventChannel.arrive,reads,raises_constructed callbacks,overrun]
      rw [if_pos (.inr overrun)] at arrived
      rw [same] at sound ⊢
      exact ⟨sound,callbacks,by simp [overrun],items.trans arrived.symm,stage⟩
    · have same : channel.arrive evt =
          { channel.put ⟨channel.arrived,evt⟩ with arrived := channel.arrived + 1 } := by
        simp [EventChannel.arrive,reads,raises_constructed callbacks,overrun]
      rw [if_neg (by simp [fine,overrun])] at arrived
      rw [same] at sound ⊢
      refine ⟨sound,(put_callbacks ..).trans callbacks,?_,?_,put_stage before stage _⟩
      · have kept := (Dispatcher.put_task channel ⟨channel.arrived,evt⟩).trans reads
        exact iff_of_true kept (by simp [fine,Ne.symm overrun])
      · have put := Dispatcher.items_put channel ⟨channel.arrived,evt⟩
        calc
          (Dispatcher.items (channel.put ⟨channel.arrived,evt⟩)).map Item.event =
              (Dispatcher.items channel).map Item.event ++ [evt] := by rw [put,List.map_append]; rfl
          _ = kept (events ++ [evt]) := by rw [items,arrived]

/-- `simulate` awaits one event after the other. -/
def Simulates (channel : EventChannel) : Action → Prop
  | .addCallback _ => False
  | .wait evt => channel.waiters = [] ∧ evt = some .running ∨
      channel.waiters.map (·.phase) = [.done] ∧ evt = some .done
  | _ => True

instance (channel : EventChannel) : DecidablePred (Simulates channel)
  | .addCallback _ => .isFalse id
  | .wait _ => inferInstanceAs (Decidable (_ ∨ _))
  | .arrive _ => .isTrue trivial
  | .run _ => .isTrue trivial

theorem awaits_ran {w w' : Waiter} {queue queue' : List Item} (awaits : Awaits w) (open_ : w.phase ≠ .done)
    (ran : w.Ran queue (w',queue')) : w'.evt = w.evt ∧ Awaits w' := by
  cases ran with
  | finds before revt after split others found =>
    exact ⟨rfl,fun _ => ⟨_,revt,rfl,found⟩,fun other => absurd rfl other⟩
  | suspends others =>
    refine ⟨rfl,nofun,fun _ => ?_⟩
    exact List.forall_mem_append.mpr ⟨awaits.waiting open_,others⟩

theorem Consumed.step {channel channel' : EventChannel} {events : List Event} {a : Action}
    (consumed : Consumed channel events) (simulates : Simulates channel a) (step : channel.next a = some channel')
    (other : ∀ evt, a ≠ .arrive evt) : Consumed channel' events := by
  have sound := step_sound channel a channel' consumed.sound step
  obtain ⟨_,callbacks,task,items,stage⟩ := consumed
  cases step_moved step with
  | added callback same => exact simulates.elim
  | unheard evt => exact absurd rfl (other evt)
  | heard evt => exact absurd rfl (other evt)
  | waits evt same =>
    subst same
    refine ⟨sound,callbacks,task,?_,?_⟩
    · simpa [Dispatcher.items] using items
    · have fresh (evt : Option Event) : Awaits ⟨evt,.ready,[]⟩ := ⟨by simp,fun _ => List.forall_mem_nil _⟩
      rcases simulates with ⟨none,rfl⟩ | ⟨phases,rfl⟩
      · rw [none]
        exact ⟨rfl,fresh _⟩
      · obtain ⟨w,one,done⟩ := List.map_eq_singleton_iff.mp phases
        rw [one] at stage ⊢
        exact ⟨stage.1,stage.2,done,rfl,fresh _⟩
  | ran i w at_ scheduled w' queue ran same =>
    have open_ : w.phase ≠ .done := by
      intro done
      simp [Waiter.scheduled,done] at scheduled
    have taken := Dispatcher.ran_items ran
    subst same
    suffices both : (channel.waiters.set i w').flatMap (·.received) ++ queue = Dispatcher.items channel ∧
        Stage (channel.waiters.set i w') from
      ⟨sound,callbacks,task,(congrArg _ both.1).trans items,both.2⟩
    simp only [Dispatcher.items]
    -- only the coroutine that has been awaited last can run
    rcases waiters : channel.waiters with _ | ⟨a,_ | ⟨b,_ | ⟨c,ws⟩⟩⟩ <;> rw [waiters] at at_ stage
    · contradiction
    · rcases i with _ | i
      · obtain rfl : a = w := Option.some.inj at_
        obtain ⟨evt,closed⟩ := awaits_ran stage.2 open_ ran
        exact ⟨by simpa using taken,evt.trans stage.1,closed⟩
      · contradiction
    · obtain ⟨first,closed,done,second,waits⟩ := stage
      rcases i with _ | _ | i
      · obtain rfl : a = w := Option.some.inj at_
        contradiction
      · obtain rfl : b = w := Option.some.inj at_
        obtain ⟨evt,waits⟩ := awaits_ran waits open_ ran
        exact ⟨by simpa using taken,first,closed,done,evt.trans second,waits⟩
      · contradiction
    · exact stage.elim

def Returned (channel : EventChannel) : Prop := ∃ w v, channel.waiters = [w,v] ∧ v.phase = .done

/-- `simulate` has come to a `wait` that has not returned, or to its end. -/
def Issued (channel : EventChannel) : Prop :=
  channel.waiters ≠ [] ∧ channel.waiters.map (·.phase) ≠ [.done]

instance (channel : EventChannel) : Decidable (Settled channel) := inferInstanceAs (Decidable (∀ w ∈ _, _))

instance (channel : EventChannel) : Decidable (Issued channel) := inferInstanceAs (Decidable (_ ∧ _))

theorem wanted_event {e e' : Event} : wanted (some e) e' = true ↔ e = e' := by simp [wanted]

theorem Consumed.done_kept {channel : EventChannel} {events : List Event} (consumed : Consumed channel events)
    (returned : Returned channel) : .done ∈ kept events := by
  obtain ⟨w,v,two,done⟩ := returned
  have stage := consumed.stage
  rw [two] at stage
  obtain ⟨_,_,_,second,waits⟩ := stage
  obtain ⟨before,item,received,found⟩ := waits.returned done
  rw [second,wanted_event] at found
  rw [← consumed.items,found]
  apply List.mem_map_of_mem
  simp [Dispatcher.items,two,received]

/-- A coroutine that is suspended has emptied the queue. -/
theorem settled_queue {channel : EventChannel} (sound : Sound channel) (settled : Settled channel) {w : Waiter}
    (member : w ∈ channel.waiters) (open_ : w.phase ≠ .done) : channel.queue = [] := by
  have blocked : w.phase = .blocked := by
    have idle := settled w member
    cases at_ : w.phase <;> simp [Waiter.scheduled,at_] at idle open_ ⊢
  obtain ⟨i,at_⟩ := List.mem_iff_getElem?.mp member
  have getter := (sound.blocked i).mpr ⟨w,at_,blocked⟩
  have none : channel.waiters.countP (fun w => w.phase = .woken) = 0 := by
    refine List.countP_eq_zero.mpr fun v there => ?_
    have idle := settled v there
    intro woken
    simp [Waiter.scheduled,of_decide_eq_true woken] at idle
  rcases sound.enough with empty | enough
  · rw [empty] at getter
    contradiction
  · exact List.eq_nil_of_length_eq_zero (by omega)

theorem Consumed.returned {channel : EventChannel} {events : List Event} (consumed : Consumed channel events)
    (settled : Settled channel) (issued : Issued channel) (running : .running ∈ kept events)
    (last : kept events = before ++ [.done]) : Returned channel := by
  have stage := consumed.stage
  have items := consumed.items
  have empty {w : Waiter} (member : w ∈ channel.waiters) (open_ : w.phase ≠ .done) : channel.queue = [] :=
    settled_queue consumed.sound settled member open_
  simp only [Dispatcher.items] at items
  rcases waiters : channel.waiters with _ | ⟨w,_ | ⟨v,_ | ⟨c,ws⟩⟩⟩ <;> rw [waiters] at stage items empty
  · exact absurd waiters issued.1
  -- the first would have seen `running`
  · have open_ : w.phase ≠ .done := by simpa [waiters] using issued.2
    rw [empty List.mem_cons_self open_] at items
    rw [← items] at running
    obtain ⟨item,member,event⟩ := List.mem_map.mp running
    have unwanted := stage.2.waiting open_ item (by simpa using member)
    rw [stage.1,event] at unwanted
    contradiction
  -- the second would have seen `done`, unless the first had seen it last
  · obtain ⟨first,closed,done,second,waits⟩ := stage
    refine ⟨w,v,waiters,?_⟩
    by_contra open_
    obtain ⟨earlier,item,received,found⟩ := closed.returned done
    rw [first,wanted_event] at found
    rw [empty (by simp) open_,last] at items
    have parts : w.received.map Item.event ++ v.received.map Item.event = before ++ [.done] := by
      simpa using items
    rcases List.eq_nil_or_concat' v.received with none | ⟨rest,latest,some_⟩
    · rw [none,received,List.map_append,List.map_nil,List.append_nil] at parts
      have same : item.event = .done := (List.append_singleton_inj.mp parts).2
      rw [same] at found
      contradiction
    · rw [some_,List.map_append,← List.append_assoc] at parts
      have same : latest.event = .done := (List.append_singleton_inj.mp parts).2
      have unwanted := waits.waiting open_ latest (by simp [some_])
      rw [second,same] at unwanted
      contradiction
  · exact stage.elim

end EventChannel
variable {Real σ H : Type} [LinearOrder Real]

/-- The states in which a thread that is only asked to run can be at this position. -/
def Pc.unasked : Pc → List State
  | .toPause | .pausedWait | .toStop | .leaving | .returned .stopped => []
  | .closing | .returned .done => [.done]
  | _ => [.starting,.running,.overrun]

/-- The thread runs on, and has reported the state last and its end not before. -/
structure Thread.RunsOn (s : Simulation Real σ H) (t : Thread Real H) : Prop where
  single : s.singleStepping = false
  state : s.state ∈ t.pc.unasked
  reported : ∃ before, s.channel = before ++ [s.state] ∧ .done ∉ before

theorem Thread.RunsOn.acts {solver : Solver Real σ H} {self self' : Simulation Real σ H} {t t' : Thread Real H}
    (runs : t.RunsOn self) (acted : t.act solver self input overrun = some (self', t')) : t'.RunsOn self' := by
  obtain ⟨single,state,before,channel,undone⟩ := runs
  obtain ⟨pc,flags,announced,_,_⟩ := act_does acted
  obtain ⟨reports,_,_⟩ := World.act_reports acted
  have single' := flags.singleStepping.trans single
  have keeps {p : Pc} (pc : t'.pc = p) (silent : t.announces self = none) (fits : self.state ∈ p.unasked) :
      t'.RunsOn self' := by
    rw [silent] at announced reports
    subst pc
    exact ⟨single',announced ▸ fits,before,by rw [reports,announced]; simpa using channel,undone⟩
  have tells {p : Pc} (e : State) (pc : t'.pc = p) (told : t.announces self = some e)
      (running : self.state ∈ [State.starting,.running,.overrun]) (fits : e ∈ p.unasked) : t'.RunsOn self' := by
    rw [told] at announced reports
    subst pc
    refine ⟨single',announced ▸ fits,self.channel,by rw [reports,announced]; rfl,?_⟩
    have awake : State.done ≠ self.state := by
      rintro done
      rw [← done] at running
      simp at running
    rw [channel,List.mem_append,List.mem_singleton,not_or]
    exact ⟨undone,awake⟩
  cases at_ : t.pc with
  | opening | syncing | stepping | leaving | closing =>
    simp only [target,at_] at pc
    rw [at_] at state
    exact keeps pc (by simp [announces,at_]) state
  | head | sleeping | checkFirst =>
    simp only [target,at_] at pc
    rw [at_] at state
    split at pc <;> exact keeps pc (by simp [announces,at_]) state
  | overrunning =>
    simp only [target,at_] at pc
    rw [at_] at state
    by_cases fails : self.failOnOverrun = true
    · exact tells .overrun pc (by simp [announces,at_,fails]) state (by decide)
    · exact keeps pc (by simp [announces,at_,fails]) state
  | firstRunning =>
    simp only [target,at_] at pc
    rw [at_] at state
    exact tells .running pc (by simp [announces,at_]) state (by decide)
  | checkPausing | checkSingle | checkStopping =>
    rw [at_] at state
    have unasked : self.state ≠ .pausing ∧ self.state ≠ .stopping := by
      constructor <;> intro asked <;> rw [asked] at state <;> simp [Pc.unasked] at state
    simp only [target,at_,unasked,single,Bool.false_eq_true,if_false] at pc
    exact keeps pc (by simp [announces,at_]) state
  | finishing =>
    simp only [target,at_] at pc
    rw [at_] at state
    exact tells .done pc (by simp [announces,at_]) state (by decide)
  | toPause | pausedWait | toStop => simp [at_,Pc.unasked] at state
  | returned exit => simp [act,at_] at acted

namespace World
open Transition

/-- `start` is called, and nothing else, before there is a thread. -/
def StartOnly (w : World Real σ H) : Action H → Prop
  | .call c => c = .start ∧ w.threads = []
  | _ => True

instance (w : World Real σ H) : DecidablePred (StartOnly w)
  | .call _ => inferInstanceAs (Decidable (_ ∧ _))
  | .wake => .isTrue trivial
  | .thread _ _ _ => .isTrue trivial

inductive Driven (w : World Real σ H) : Prop where
  | fresh (threads : w.threads = []) (channel : w.self.channel = []) (state : w.self.state = .stopped)
      (caller : w.caller = .idle)
  | started (t : Thread Real H) (threads : w.threads = [t]) (runs : t.RunsOn w.self)
      (caller : w.caller = .waiting .start ∨ w.caller = .idle ∧ .running ∈ w.self.channel)

variable [Zero Real] {solver : Solver Real σ H}

theorem step_driven {w u : World Real σ H} {a : Action H} (driven : Driven w) (only : StartOnly w a)
    (moved : Step solver w a u) :
    Driven u ∧ (w.caller = .idle ∧ w.threads ≠ [] → u.caller = .idle ∧ u.threads ≠ []) := by
  cases driven with
  | fresh threads channel state caller =>
    refine ⟨?_,fun other => absurd threads other.2⟩
    cases a with
    | call c =>
      obtain ⟨rfl,_⟩ := only
      have called : w.call .start = some u := moved
      simp only [call,caller,Call.enter,Simulation.start,state,ne_eq,not_true,reduceCtorEq,false_and,
        if_false] at called
      cases called
      refine .started .create ?_ ⟨?_,?_,[],?_,List.not_mem_nil⟩ (.inl ?_)
      · simp [loop,create,threads,Call.keepsWaiting]
      · simp [loop,create,Call.keepsWaiting,Simulation.newState]
      · simp [loop,create,Call.keepsWaiting,Thread.create,Pc.unasked]
      · simp [loop,create,Call.keepsWaiting,Simulation.newState,channel]
      · simp [loop,create,Call.keepsWaiting]
    | wake => simp [Step,next,wake,caller] at moved
    | thread i input overrun =>
      obtain ⟨_,_,t,_,at_,_⟩ := advance_acted moved
      simp [threads] at at_
  | started t threads runs caller =>
    cases a with
    | call c => exact absurd (threads.symm.trans only.2) (List.cons_ne_nil _ _)
    | wake =>
      obtain ⟨self,same,woken⟩ := wake_woken moved
      rcases woken with ⟨c,waiting,met,next⟩ | ⟨joining,_⟩
      · rcases caller with start | ⟨idle,_⟩
        · obtain rfl := Caller.waiting.inj (waiting.symm.trans start)
          have running : w.self.state = .running := by simpa [Call.keepsWaiting] using met
          obtain ⟨before,channel,_⟩ := runs.reported
          have idle : u.caller = .idle := by simpa using next
          refine ⟨.started t (same.trans threads) (self ▸ runs) (.inr ⟨idle,?_⟩),
            fun before => ⟨idle,same ▸ before.2⟩⟩
          rw [self,channel,running]
          exact List.mem_append_right _ (List.mem_singleton_self _)
        · rw [idle] at waiting
          contradiction
      · rcases caller with start | ⟨idle,_⟩
        · rw [start] at joining
          contradiction
        · rw [idle] at joining
          contradiction
    | thread i input overrun =>
      obtain ⟨same,_,v,t',at_,set,acted⟩ := advance_acted moved
      obtain ⟨reports,_,_⟩ := act_reports acted
      rw [threads] at at_ set
      rcases i with _ | i
      · obtain rfl : t = v := Option.some.inj at_
        refine ⟨.started t' set (runs.acts acted) ?_,fun before => ⟨same.trans before.1,by simp [set]⟩⟩
        rcases caller with start | ⟨idle,told⟩
        · exact .inl (same.trans start)
        · exact .inr ⟨same.trans idle,by rw [reports]; exact List.mem_append_left _ told⟩
      · contradiction

omit [Zero Real] in
theorem Driven.ended {w : World Real σ H} (driven : Driven w) (called : w.threads ≠ [])
    (returned : ∀ t ∈ w.threads, t.alive = false) :
    ∃ before, w.self.channel = before ++ [.done] ∧ .done ∉ before := by
  cases driven with
  | fresh threads => exact absurd threads called
  | started t threads runs =>
    have ended := returned t (by simp [threads])
    obtain ⟨_,state,before,channel,undone⟩ := runs
    cases at_ : t.pc with
    | returned exit =>
      cases exit with
      | done =>
        obtain done : w.self.state = .done := by simpa [at_,Pc.unasked] using state
        exact ⟨before,done ▸ channel,undone⟩
      | stopped => simp [at_,Pc.unasked] at state
    | _ => simp [Thread.alive,at_] at ended

end World
/-! The coroutines of a channel are made by the event loop. -/

theorem arrive_waiters (channel : EventChannel) (evt : EventChannel.Event) :
    (channel.arrive evt).waiters.length = channel.waiters.length := by
  unfold EventChannel.arrive EventChannel.put
  repeat' split
  all_goals simp

theorem received_waiters (channel : EventChannel) (evt : Option EventChannel.Event) :
    (channel.received evt).waiters.length = channel.waiters.length := by
  cases evt with
  | none => rfl
  | some evt => exact arrive_waiters channel evt

theorem hear_waiters (frames : List (List UInt8)) (channel : EventChannel) :
    (frames.foldl EventChannel.hear channel).waiters.length = channel.waiters.length := by
  induction frames generalizing channel with
  | nil => rfl
  | cons data frames ih =>
    rw [List.foldl_cons,ih,EventChannel.hear,received_waiters]

theorem Transport.Moved.waiters {fd : Nat} {s t : Transport} {a : Transport.Action} (moved : Moved fd s t a)
    (waiting : (t.lines fd).channel.waiters ≠ []) :
    (s.lines fd).channel.waiters ≠ [] ∨ ∃ evt, a = .loop fd (.wait evt) := by
  cases moved with
  | aside a _ _ same => exact .inl (same ▸ waiting)
  | wrote state ret _ line =>
    rw [line] at waiting
    exact .inl waiting
  | delivered n line =>
    rw [line] at waiting
    refine .inl fun none => waiting ?_
    apply List.eq_nil_of_length_eq_zero
    rw [Line.deliver,Line.read,hear_waiters]
    exact congrArg List.length none
  | looped a other channel step line =>
    rw [line] at waiting
    cases EventChannel.step_moved step with
    | added callback same => exact .inl (by simpa [same] using waiting)
    | waits evt same => exact .inr ⟨evt,rfl⟩
    | unheard evt => exact absurd rfl (other evt)
    | heard evt => exact absurd rfl (other evt)
    | ran i w at_ scheduled w' queue ran same => exact .inl (by simpa [same] using waiting)

theorem event_injective : Function.Injective State.event := by
  intro a b same
  cases a <;> cases b <;> first | rfl | contradiction

namespace Observed
open Transition (Path)
open EventChannel (Consumed Returned Issued Settled kept)

def constructed (self : Simulation Real σ H) (fd : Nat) : Observed Real σ H :=
  ⟨World.initial self,[fd],Function.update (fun _ => ⟨[],[],.init⟩) fd ⟨[],[],EventChannel.constructed⟩⟩

def isWait : EventChannel.Action → Bool
  | .wait _ => true
  | _ => false

/-- Only `simulate` makes control calls and coroutines of `wait`, one after the other. -/
def Simulates (fd : Nat) (s : Observed Real σ H) : Action H → Prop
  | .simulation a _ => s.world.StartOnly a
  | .transport (.loop f a) => f = fd → (s.transport.lines fd).channel.Simulates a ∧
      (isWait a = true → s.world.caller = .idle ∧ s.world.threads ≠ [])
  | .transport _ => True

instance (fd : Nat) (s : Observed Real σ H) : DecidablePred (Simulates fd s)
  | .simulation a _ => inferInstanceAs (Decidable (s.world.StartOnly a))
  | .transport (.loop _ _) => inferInstanceAs (Decidable (_ = _ → _))
  | .transport (.addFd _) => .isTrue trivial
  | .transport (.removeFd _) => .isTrue trivial
  | .transport (.newState _ _) => .isTrue trivial
  | .transport (.deliver _ _) => .isTrue trivial

structure Simulating (fd : Nat) (s : Observed Real σ H) : Prop where
  driven : s.world.Driven
  follows : Follows Consumed fd s
  issued : (s.transport.lines fd).channel.waiters ≠ [] → s.world.caller = .idle ∧ s.world.threads ≠ []

variable [Zero Real] {solver : Solver Real σ H}

theorem Simulating.step {s t : Observed Real σ H} {fd : Nat} {a : Action H} (simulating : Simulating fd s)
    (regular : Regular fd s a) (simulates : Simulates fd s a) (step : Step solver s a t) : Simulating fd t := by
  obtain ⟨driven,follows,issued⟩ := simulating
  have keeps : Keeps Consumed fd s a := by
    cases a with
    | simulation a ret => trivial
    | transport a =>
      cases a with
      | loop f a =>
        exact fun same channel moved other events consumed => consumed.step (simulates same).1 moved other
      | _ => trivial
  have follows' := follows.step regular EventChannel.consumed_hears keeps step
  cases a with
  | simulation a ret =>
    simp only [Step,next] at step
    cases moved : s.world.next solver a with
    | none =>
      rw [moved] at step
      contradiction
    | some world =>
      obtain ⟨driven',later⟩ := World.step_driven driven simulates moved
      cases announced : s.world.announces a with
      | none =>
        rw [moved,announced] at step
        obtain rfl := Option.some.inj step
        exact ⟨driven',follows',fun waiting => later (issued waiting)⟩
      | some state =>
        rw [moved,announced] at step
        obtain ⟨transport,sent,rfl⟩ := Option.map_eq_some_iff.mp step
        refine ⟨driven',follows',fun waiting => ?_⟩
        rcases (Transport.step_moved sent fd).waiters waiting with before | ⟨evt,other⟩
        · exact later (issued before)
        · contradiction
  | transport a =>
    obtain ⟨transport,moved,rfl,_⟩ := transport_step step
    refine ⟨driven,follows',fun waiting => ?_⟩
    rcases (Transport.step_moved moved fd).waiters waiting with before | ⟨evt,rfl⟩
    · exact issued before
    · exact (simulates rfl).2 rfl

structure Over (fd : Nat) (s : Observed Real σ H) : Prop where
  called : s.world.threads ≠ []
  threads : ∀ t ∈ s.world.threads, t.alive = false
  delivered : (s.transport.lines fd).wire = []
  settled : Settled (s.transport.lines fd).channel
  issued : s.world.caller = .idle → Issued (s.transport.lines fd).channel

omit [Zero Real] in
theorem constructed_simulating (sim : DPsim.Simulation Real σ H)
    (realTime startSync failOnOverrun singleStepping : Bool) (fd : Nat) :
    Simulating fd (constructed (Simulation.init sim realTime startSync failOnOverrun singleStepping) fd) := by
  have line : (constructed (Simulation.init sim realTime startSync failOnOverrun singleStepping)
      fd).transport.lines fd = ⟨[],[],EventChannel.constructed⟩ :=
    Function.update_self fd _ fun _ : Nat => (⟨[],[],.init⟩ : Line)
  refine ⟨.fresh rfl rfl rfl rfl,⟨?_,?_⟩,?_⟩
  · rw [line]
    exact ⟨[],[],EventChannel.constructed_consumed,rfl,rfl,Nat.zero_le 3⟩
  · exact List.count_singleton_self
  · rw [line]
    exact fun waiting => absurd rfl waiting

omit [Zero Real] in
/-- In the end all states that were reported have been heard. -/
theorem Simulating.heard {s : Observed Real σ H} {fd : Nat} (simulating : Simulating fd s)
    (delivered : (s.transport.lines fd).wire = []) :
    Consumed (s.transport.lines fd).channel (s.world.self.channel.map State.event) := by
  obtain ⟨first,rest,consumed,split,flying,short⟩ := simulating.follows.told
  rw [delivered,List.append_nil] at flying
  cases rest with
  | nil => rwa [split,List.append_nil]
  | cons state rest =>
    rw [flying,encode,List.flatMap_cons,List.length_append,length_bytes] at short
    omega

/-- Once nothing is left to do, `simulate` has returned exactly if its `start` has and no overrun was
reported. -/
theorem simulate_returns_iff (sim : DPsim.Simulation Real σ H)
    (realTime startSync failOnOverrun singleStepping : Bool) (fd : Nat)
    {trace : List (Observed Real σ H × Action H)} {t : Observed Real σ H}
    (path : Path (Step solver)
      (constructed (Simulation.init sim realTime startSync failOnOverrun singleStepping) fd) trace t)
    (regular : ∀ p ∈ trace, Regular fd p.1 p.2) (simulates : ∀ p ∈ trace, Simulates fd p.1 p.2)
    (ended : Over fd t) :
    Returned (t.transport.lines fd).channel ↔
      t.world.caller = .idle ∧ .overrun ∉ t.world.self.channel := by
  have run := path.guarded_states (P := Simulating fd) (G := fun s a => Regular fd s a ∧ Simulates fd s a)
    (fun s a t simulating guard step => simulating.step guard.1 guard.2 step)
    (fun p member => ⟨regular p member,simulates p member⟩) (constructed_simulating ..)
  have simulating := run t (Transition.final_mem_states trace t)
  have consumed := simulating.heard ended.delivered
  obtain ⟨before,channel,undone⟩ := simulating.driven.ended ended.called ended.threads
  have events : t.world.self.channel.map State.event = before.map State.event ++ [.done] := by
    rw [channel,List.map_append]
    rfl
  constructor
  · intro returned
    refine ⟨(simulating.issued ?_).1,fun overrun => ?_⟩
    · obtain ⟨w,v,two,_⟩ := returned
      simp [two]
    -- nothing after an overrun gets to the coroutines
    · have done := consumed.done_kept returned
      have earlier : State.overrun ∈ before := by simpa [channel] using overrun
      rw [events,EventChannel.kept_arrive,if_pos (.inl (List.mem_map_of_mem earlier))] at done
      have heard : State.done.event ∈ before.map State.event := List.takeWhile_subset _ done
      exact undone ((List.mem_map_of_injective event_injective).mp heard)
  · rintro ⟨idle,fine⟩
    have all : kept (t.world.self.channel.map State.event) = t.world.self.channel.map State.event :=
      EventChannel.kept_all fun overrun =>
        fine ((List.mem_map_of_injective (a := State.overrun) event_injective).mp overrun)
    refine consumed.returned ended.settled (ended.issued idle) ?_ (all.trans events)
    rw [all]
    cases simulating.driven with
    | fresh threads => exact absurd threads ended.called
    | started v threads runs caller =>
      rcases caller with start | ⟨_,running⟩
      · rw [idle] at start
        contradiction
      · exact List.mem_map_of_mem running

def oneStep : Observed Nat Unit Nat :=
  constructed (Simulation.init ⟨0,1,0,(),EventQueue.empty,[],[],0⟩ true false true false) 7

def acts (n : Nat) (overrun : Bool) : List (Action Nat) :=
  List.replicate n (.simulation (.thread 0 World.quiet overrun) fun _ => some 4)

def simulated (overrun : Bool) : List (Action Nat) :=
  List.flatten [[.simulation (.call .start) fun _ => some 4],acts (if overrun then 8 else 7) overrun,
    [.simulation .wake fun _ => some 4,.transport (.loop 7 (.wait (some .running))),
      .transport (.loop 7 (.run 0)),.transport (.deliver 7 9),.transport (.loop 7 (.run 0))],
    if overrun then [] else [.transport (.loop 7 (.wait (some .done))),.transport (.loop 7 (.run 1))],
    acts 6 overrun,[.transport (.deliver 7 20)],if overrun then [] else [.transport (.loop 7 (.run 1))]]

/-- It returns without an overrun, and never after one. -/
theorem simulate_returns_iff_overrun :
    Returned ((Transition.finalOf (next World.clock) oneStep (simulated false)).transport.lines 7).channel ∧
      ¬ Returned ((Transition.finalOf (next World.clock) oneStep (simulated true)).transport.lines 7).channel := by
  have returned (overrun : Bool) : Returned ((Transition.finalOf (next World.clock) oneStep
      (simulated overrun)).transport.lines 7).channel ↔ overrun = false := by
    have regular : ∀ p ∈ Transition.traceOf (next World.clock) oneStep (simulated overrun),
        Regular 7 p.1 p.2 := by
      cases overrun <;> decide
    have simulates : ∀ p ∈ Transition.traceOf (next World.clock) oneStep (simulated overrun),
        Simulates 7 p.1 p.2 := by
      cases overrun <;> decide
    have ended : Over 7 (Transition.finalOf (next World.clock) oneStep (simulated overrun)) := by
      cases overrun <;> constructor <;> decide
    refine (simulate_returns_iff _ true false true false 7
      (Transition.path_of_labels (next World.clock) oneStep (simulated overrun)) regular simulates
      ended).trans ?_
    cases overrun <;> decide
  exact ⟨(returned false).mpr rfl,fun back => Bool.noConfusion ((returned true).mp back)⟩

end Observed
end DPsim.Python
