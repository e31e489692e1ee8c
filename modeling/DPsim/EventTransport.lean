import DPsim.Framing
import DPsim.PythonChannel
import DPsim.PythonEvents
import DPsim.Transition

/-! The way of an event from `newState` to a coroutine of the Python package: `sendEvent` writes four
bytes to every descriptor, a socket delivers them in pieces of any length, and the task of the other
end reads four bytes at a time. -/
namespace DPsim.Python
open Transition (Path)

def State.number : State → UInt32
  | .stopped => 0
  | .starting => 1
  | .running => 2
  | .pausing => 3
  | .paused => 4
  | .resuming => 5
  | .stopping => 6
  | .failed => 7
  | .overrun => 8
  | .done => 9

namespace EventChannel

def Event.value : Event → Int
  | .stopped => 0
  | .starting => 1
  | .running => 2
  | .pausing => 3
  | .paused => 4
  | .resuming => 5
  | .stopping => 6
  | .failed => 7
  | .overrun => 8
  | .done => 9
  | .unknown => -1

def Event.members : List Event :=
  [.stopped,.starting,.running,.pausing,.paused,.resuming,.stopping,.failed,.overrun,.done,.unknown]

/-- `Event(value)`, which raises a `ValueError` if there is none. -/
def Event.ofValue (value : Int) : Option Event := members.find? fun e => e.value = value

/-- `struct.unpack('i', data)`; sender and receiver are on one machine, here a little-endian one. -/
def unpack (data : List UInt8) : Int :=
  Int.bmod (data.foldr (fun byte rest => byte.toNat + 256 * rest) 0 : Nat) UInt32.size

/-- An exception ends the task. -/
def received (channel : EventChannel) : Option Event → EventChannel
  | some evt => channel.arrive evt
  | none => { channel with task := false }

/-- The task with the next four bytes. -/
def hear (channel : EventChannel) (data : List UInt8) : EventChannel :=
  channel.received (Event.ofValue (unpack data))

def heard (trace : List (EventChannel × Action)) : List Event :=
  trace.filterMap fun | (_, .arrive evt) => some evt | _ => none

end EventChannel

def State.event : State → EventChannel.Event
  | .stopped => .stopped
  | .starting => .starting
  | .running => .running
  | .pausing => .pausing
  | .paused => .paused
  | .resuming => .resuming
  | .stopping => .stopping
  | .failed => .failed
  | .overrun => .overrun
  | .done => .done

def bytes (evt : UInt32) : List UInt8 :=
  [evt.toUInt8,(evt >>> 8).toUInt8,(evt >>> 16).toUInt8,(evt >>> 24).toUInt8]

/-- What is on its way to a reader, what the stream reader holds, and the channel of its task. -/
structure Line where
  wire : List UInt8
  buffer : List UInt8
  channel : EventChannel

/-- The loop of the task, as far as `readexactly(4)` returns. -/
def Line.read (l : Line) : Line :=
  { l with
    buffer := (Framing.cut 3 [] l.buffer).2
    channel := (Framing.cut 3 [] l.buffer).1.foldl EventChannel.hear l.channel }

def Line.deliver (l : Line) (n : Nat) : Line :=
  { l with
    wire := l.wire.drop n
    buffer := l.buffer ++ l.wire.take n }.read

/-- The `EventChannel` of C++ with the other ends of its descriptors. -/
structure Transport where
  mFds : List Nat
  lines : Nat → Line

namespace Transport

def addFd (s : Transport) (fd : Nat) : Transport := { s with mFds := s.mFds ++ [fd] }

/-- The loop erases every occurrence. -/
def removeFd (s : Transport) (fd : Nat) : Transport := { s with mFds := s.mFds.filter (· ≠ fd) }

/-- `ret` are the results of the calls of `send` in their order, `none` for a negative one. That fewer
than four bytes were sent is not noticed. -/
def sendEvent (evt : UInt32) (ret : Nat → Option Nat) : Nat → List Nat → (Nat → Line) →
    Except Fault (Nat → Line)
  | _, [], lines => .ok lines
  | i, fd :: fds, lines =>
    match ret i with
    | none => .error (.systemError "Failed notify")
    | some n => sendEvent evt ret (i + 1) fds
        (Function.update lines fd { lines fd with wire := (lines fd).wire ++ (bytes evt).take n })

inductive Action where
  | addFd (fd : Nat)
  | removeFd (fd : Nat)
  | newState (state : State) (ret : Nat → Option Nat)
  | deliver (fd n : Nat)
  | loop (fd : Nat) (a : EventChannel.Action)

/-- After an exception of `sendEvent` there is no further action: nothing catches it. Events arrive
only on the wire. -/
def next (s : Transport) : Action → Option Transport
  | .addFd fd => some (s.addFd fd)
  | .removeFd fd => some (s.removeFd fd)
  | .newState state ret =>
    match sendEvent state.number ret 0 s.mFds s.lines with
    | .ok lines => some { s with lines := lines }
    | .error _ => none
  | .deliver fd n => some { s with lines := Function.update s.lines fd ((s.lines fd).deliver n) }
  | .loop _ (.arrive _) => none
  | .loop fd a => ((s.lines fd).channel.next a).map fun channel =>
      { s with lines := Function.update s.lines fd { s.lines fd with channel := channel } }

def Step (s : Transport) (a : Action) (t : Transport) : Prop := s.next a = some t

def start : Transport := ⟨[],fun _ => ⟨[],[],EventChannel.init⟩⟩

def positions (fd : Nat) : Nat → List Nat → List Nat
  | _, [] => []
  | i, f :: fds => if f = fd then i :: positions fd (i + 1) fds else positions fd (i + 1) fds

def accepted (evt : UInt32) (ret : Nat → Option Nat) (calls : List Nat) : List UInt8 :=
  calls.flatMap fun i => (bytes evt).take ((ret i).getD 0)

def sent (fd : Nat) (trace : List (Transport × Action)) : List State :=
  trace.flatMap fun
    | (s, .newState state _) => (positions fd 0 s.mFds).map fun _ => state
    | _ => []

/-- All calls of `send` with the descriptor have sent the whole number. -/
def Complete (fd : Nat) (s : Transport) : Action → Prop
  | .newState _ ret => ∀ i ∈ positions fd 0 s.mFds, ∀ n ∈ ret i, 4 ≤ n
  | _ => True

instance (fd : Nat) (s : Transport) : DecidablePred (Complete fd s)
  | .newState _ _ => inferInstanceAs (Decidable (∀ i ∈ positions fd 0 s.mFds, _))
  | .addFd _ | .removeFd _ | .deliver _ _ | .loop _ _ => .isTrue trivial

end Transport

/-! The codec. -/

theorem length_bytes (evt : UInt32) : (bytes evt).length = 3 + 1 := by simp [bytes]

theorem unpack_bytes (state : State) :
    EventChannel.Event.ofValue (EventChannel.unpack (bytes state.number)) = some state.event := by
  cases state <;> decide +kernel

theorem EventChannel.hear_event (channel : EventChannel) {data : List UInt8} {evt : Event}
    (found : Event.ofValue (unpack data) = some evt) : channel.hear data = channel.arrive evt :=
  congrArg channel.received found

def Hears (R : EventChannel → List EventChannel.Event → Prop) : Prop :=
  ∀ channel events evt, R channel events → R (channel.arrive evt) (events ++ [evt])

/-- The events are the ones that have arrived in a run. -/
def Ran (channel : EventChannel) (events : List EventChannel.Event) : Prop :=
  ∃ trace, Path EventChannel.Step .init trace channel ∧ EventChannel.heard trace = events

variable {R : EventChannel → List EventChannel.Event → Prop}

theorem hear_states (hears : Hears R) {channel : EventChannel} {events : List EventChannel.Event}
    (states : List State) (related : R channel events) :
    R ((states.map fun state => bytes state.number).foldl EventChannel.hear channel)
      (events ++ states.map State.event) := by
  induction states generalizing channel events with
  | nil => simpa using related
  | cons state states ih =>
    have later := ih (hears channel events state.event related)
    rw [List.append_assoc] at later
    rw [List.map_cons,List.foldl_cons,channel.hear_event (unpack_bytes state)]
    exact later

def encode (states : List State) : List UInt8 := states.flatMap fun state => bytes state.number

/-- The channel has heard the first of the states, and the others are on their way. -/
def Told (R : EventChannel → List EventChannel.Event → Prop) (l : Line) (states : List State) : Prop :=
  ∃ first rest, R l.channel (first.map State.event) ∧ states = first ++ rest ∧
    l.buffer ++ l.wire = encode rest ∧ l.buffer.length ≤ 3

theorem Told.sent {l : Line} (told : Told R l states) (more : List State) :
    Told R { l with wire := l.wire ++ encode more } (states ++ more) := by
  obtain ⟨first,rest,heard,split,flying,short⟩ := told
  refine ⟨first,rest ++ more,heard,by rw [split,List.append_assoc],?_,short⟩
  rw [← List.append_assoc,flying,encode,encode,encode,List.flatMap_append]

theorem Told.delivered {l : Line} (hears : Hears R) (told : Told R l states) (n : Nat) :
    Told R (l.deliver n) states := by
  obtain ⟨first,rest,heard,split,flying,short⟩ := told
  have pieces : encode rest = (l.buffer ++ l.wire.take n) ++ l.wire.drop n := by
    rw [List.append_assoc,List.take_append_drop,flying]
  obtain ⟨next,left,parts,frames,kept⟩ := Framing.cut_arrived
    (fun state : State => length_bytes state.number) rest pieces
  have later := hear_states hears next heard
  rw [← frames,← List.map_append] at later
  exact ⟨first ++ next,left,later,by rw [split,parts,List.append_assoc],kept,Framing.cut_rest (Nat.zero_le 3) _⟩

theorem Told.looped {l : Line} (told : Told R l states) {channel : EventChannel}
    (kept : ∀ events, R l.channel events → R channel events) : Told R { l with channel := channel } states := by
  obtain ⟨first,rest,heard,split,flying,short⟩ := told
  exact ⟨first,rest,kept _ heard,split,flying,short⟩

namespace Transport

theorem sendEvent_ok {evt : UInt32} {ret : Nat → Option Nat} {i : Nat} {fds : List Nat}
    {lines lines' : Nat → Line} (sent : sendEvent evt ret i fds lines = .ok lines') (fd : Nat) :
    lines' fd =
      { lines fd with wire := (lines fd).wire ++ accepted evt ret (positions fd i fds) } := by
  induction fds generalizing i lines with
  | nil =>
    cases sent
    simp [positions,accepted]
  | cons f fds ih =>
    simp only [sendEvent] at sent
    cases result : ret i with
    | none =>
      rw [result] at sent
      contradiction
    | some n =>
      rw [result] at sent
      have later := ih sent
      by_cases same : f = fd
      · subst same
        rw [later]
        simp [positions,accepted,result]
      · rw [later,positions,if_neg same,Function.update_of_ne (Ne.symm same)]

theorem sendEvent_called {evt : UInt32} {ret : Nat → Option Nat} {i : Nat} {fds : List Nat}
    {lines lines' : Nat → Line} (sent : sendEvent evt ret i fds lines = .ok lines') {fd : Nat} :
    ∀ j ∈ positions fd i fds, ∃ n, ret j = some n := by
  induction fds generalizing i lines with
  | nil => exact List.forall_mem_nil _
  | cons f fds ih =>
    simp only [sendEvent] at sent
    cases result : ret i with
    | none =>
      rw [result] at sent
      contradiction
    | some n =>
      rw [result] at sent
      unfold positions
      split
      · exact List.forall_mem_cons.mpr ⟨⟨n,result⟩,ih sent⟩
      · exact ih sent

inductive Moved (fd : Nat) (s t : Transport) : Action → Prop where
  | aside (a : Action) (none_sent : Transport.sent fd [(s,a)] = []) (complete : Complete fd s a)
      (same : t.lines fd = s.lines fd) : Moved fd s t a
  | wrote (state : State) (ret : Nat → Option Nat) (called : ∀ j ∈ positions fd 0 s.mFds, ∃ n, ret j = some n)
      (line : t.lines fd =
        { s.lines fd with wire := (s.lines fd).wire ++ accepted state.number ret (positions fd 0 s.mFds) }) :
      Moved fd s t (.newState state ret)
  | delivered (n : Nat) (line : t.lines fd = (s.lines fd).deliver n) : Moved fd s t (.deliver fd n)
  | looped (a : EventChannel.Action) (other : ∀ evt, a ≠ .arrive evt) (channel : EventChannel)
      (step : (s.lines fd).channel.next a = some channel)
      (line : t.lines fd = { s.lines fd with channel := channel }) : Moved fd s t (.loop fd a)

theorem loop_step {s t : Transport} {fd : Nat} {a : EventChannel.Action} (step : Step s (.loop fd a) t) :
    (∀ evt, a ≠ .arrive evt) ∧ ∃ channel, (s.lines fd).channel.next a = some channel ∧
      t = { s with lines := Function.update s.lines fd { s.lines fd with channel := channel } } := by
  have ran (others : ∀ evt, a ≠ .arrive evt) (step : ((s.lines fd).channel.next a).map (fun channel =>
      { s with lines := Function.update s.lines fd { s.lines fd with channel := channel } }) = some t) :
      (∀ evt, a ≠ .arrive evt) ∧ ∃ channel, (s.lines fd).channel.next a = some channel ∧
        t = { s with lines := Function.update s.lines fd { s.lines fd with channel := channel } } := by
    obtain ⟨channel,moved,rfl⟩ := Option.map_eq_some_iff.mp step
    exact ⟨others,channel,moved,rfl⟩
  cases a with
  | arrive evt => contradiction
  | addCallback callback => exact ran (fun _ other => EventChannel.Action.noConfusion other) step
  | wait evt => exact ran (fun _ other => EventChannel.Action.noConfusion other) step
  | run i => exact ran (fun _ other => EventChannel.Action.noConfusion other) step

theorem step_moved {s t : Transport} {a : Action} (step : Step s a t) (fd : Nat) : Moved fd s t a := by
  cases a with
  | addFd f =>
    obtain rfl := Option.some.inj step
    exact .aside _ rfl trivial rfl
  | removeFd f =>
    obtain rfl := Option.some.inj step
    exact .aside _ rfl trivial rfl
  | newState state ret =>
    have returned : (match sendEvent state.number ret 0 s.mFds s.lines with
      | .ok lines => some { s with lines := lines }
      | .error _ => none) = some t := step
    cases sent : sendEvent state.number ret 0 s.mFds s.lines with
    | error fault =>
      rw [sent] at returned
      contradiction
    | ok lines =>
      rw [sent] at returned
      obtain rfl := Option.some.inj returned
      exact .wrote state ret (sendEvent_called sent) (sendEvent_ok sent fd)
  | deliver f n =>
    obtain rfl := Option.some.inj step
    by_cases same : f = fd
    · subst same
      exact .delivered n (Function.update_self ..)
    · exact .aside _ rfl trivial (Function.update_of_ne (Ne.symm same) ..)
  | loop f a =>
    obtain ⟨others,channel,ran,rfl⟩ := loop_step step
    by_cases same : f = fd
    · subst same
      exact .looped a others channel ran (Function.update_self ..)
    · exact .aside _ rfl trivial (Function.update_of_ne (Ne.symm same) ..)

theorem sent_newState (fd : Nat) (s : Transport) (state : State) (ret : Nat → Option Nat) :
    sent fd [(s,.newState state ret)] = (positions fd 0 s.mFds).map fun _ => state := List.append_nil _

theorem whole_written {state : State} {ret : Nat → Option Nat} {js : List Nat}
    (whole : ∀ j ∈ js, ∃ n, ret j = some n ∧ 4 ≤ n) :
    accepted state.number ret js = encode (js.map fun _ => state) := by
  induction js with
  | nil => rfl
  | cons j js ih =>
    obtain ⟨n,result,enough⟩ := whole j List.mem_cons_self
    have all : (bytes state.number).take ((ret j).getD 0) = bytes state.number := by
      rw [result]
      exact List.take_of_length_le (by rw [length_bytes]; exact enough)
    rw [accepted,List.flatMap_cons,all,← accepted,ih fun j member => whole j (List.mem_cons_of_mem _ member)]
    rfl

def Keeps (R : EventChannel → List EventChannel.Event → Prop) (fd : Nat) (s : Transport) : Action → Prop
  | .loop f a => f = fd → ∀ channel, (s.lines fd).channel.next a = some channel →
      (∀ evt, a ≠ .arrive evt) → ∀ events, R (s.lines fd).channel events → R channel events
  | _ => True

theorem Moved.told {s t : Transport} {a : Action} {fd : Nat} (moved : Moved fd s t a)
    (complete : Complete fd s a) (hears : Hears R) (keeps : Keeps R fd s a) (told : Told R (s.lines fd) states) :
    Told R (t.lines fd) (states ++ sent fd [(s,a)]) := by
  cases moved with
  | aside a none_sent _ same =>
    rw [none_sent,List.append_nil,same]
    exact told
  | wrote state ret called line =>
    have whole : ∀ j ∈ positions fd 0 s.mFds, ∃ n, ret j = some n ∧ 4 ≤ n := by
      intro j member
      obtain ⟨n,result⟩ := called j member
      exact ⟨n,result,complete j member n result⟩
    rw [line,whole_written whole,sent_newState]
    exact told.sent _
  | delivered n line =>
    have nothing : sent fd [(s,.deliver fd n)] = [] := rfl
    rw [line,nothing,List.append_nil]
    exact told.delivered hears n
  | looped a other channel step line =>
    have nothing : sent fd [(s,.loop fd a)] = [] := rfl
    rw [line,nothing,List.append_nil]
    exact told.looped (keeps rfl channel step other)

def lost (fd : Nat) (trace : List (Transport × Action)) : Nat :=
  (trace.map fun
    | (s, .newState _ ret) => ((positions fd 0 s.mFds).map fun i => 4 - (ret i).getD 0).sum
    | _ => 0).sum

theorem lost_newState (fd : Nat) (s : Transport) (state : State) (ret : Nat → Option Nat) :
    lost fd [(s,.newState state ret)] = ((positions fd 0 s.mFds).map fun i => 4 - (ret i).getD 0).sum :=
  Nat.add_zero _

theorem accepted_length (evt : UInt32) (ret : Nat → Option Nat) (calls : List Nat) :
    (accepted evt ret calls).length + (calls.map fun i => 4 - (ret i).getD 0).sum = 4 * calls.length := by
  induction calls with
  | nil => rfl
  | cons i calls ih =>
    simp only [accepted,List.flatMap_cons,List.length_append,List.length_take,length_bytes,List.map_cons,
      List.sum_cons,List.length_cons] at ih ⊢
    omega

/-- Whoever has called `send` has lost nothing exactly if each call took all four bytes. -/
theorem lost_zero_iff {s t : Transport} {a : Action} {fd : Nat} (moved : Moved fd s t a) :
    lost fd [(s,a)] = 0 ↔ Complete fd s a := by
  cases moved with
  | aside a none_sent complete same =>
    cases a with
    | newState state ret =>
      rw [sent_newState,List.map_eq_nil_iff] at none_sent
      rw [lost_newState,none_sent]
      exact iff_of_true rfl complete
    | addFd f => exact iff_of_true rfl trivial
    | removeFd f => exact iff_of_true rfl trivial
    | deliver f n => exact iff_of_true rfl trivial
    | loop f a => exact iff_of_true rfl trivial
  | wrote state ret called line =>
    rw [lost_newState,List.sum_eq_zero_iff_forall_eq_nat,List.forall_mem_map]
    refine forall₂_congr fun i member => ?_
    obtain ⟨n,result⟩ := called i member
    simp only [result,Option.getD_some,Option.mem_def,Option.some.injEq,forall_eq']
    omega
  | delivered n line => exact iff_of_true rfl trivial
  | looped a other channel step line => exact iff_of_true rfl trivial

/-- A number is heard only if four bytes are there. -/
def Bounded (l : Line) (sent lost : Nat) : Prop :=
  4 * l.channel.arrived + l.buffer.length + l.wire.length + lost ≤ 4 * sent

theorem arrive_arrived (channel : EventChannel) (evt : EventChannel.Event) :
    (channel.arrive evt).arrived = channel.arrived + 1 := by
  unfold EventChannel.arrive
  by_cases ended : (!channel.task) = true
  · rw [if_pos ended]
  · rw [if_neg ended]
    split <;> rfl

theorem hear_arrived (channel : EventChannel) (data : List UInt8) :
    (channel.hear data).arrived ≤ channel.arrived + 1 := by
  unfold EventChannel.hear
  generalize EventChannel.Event.ofValue (EventChannel.unpack data) = evt
  cases evt with
  | none => exact Nat.le_succ _
  | some evt => exact Nat.le_of_eq (arrive_arrived channel evt)

theorem frames_arrived (frames : List (List UInt8)) (channel : EventChannel) :
    (frames.foldl EventChannel.hear channel).arrived ≤ channel.arrived + frames.length := by
  induction frames generalizing channel with
  | nil => exact Nat.le_refl _
  | cons data frames ih =>
    have first := hear_arrived channel data
    have rest := ih (channel.hear data)
    simp only [List.foldl_cons,List.length_cons] at rest ⊢
    omega

theorem Bounded.delivered {l : Line} {numbers bytes : Nat} (bounded : Bounded l numbers bytes) (n : Nat) :
    Bounded (l.deliver n) numbers bytes := by
  have frames := frames_arrived (Framing.cut 3 [] (l.buffer ++ l.wire.take n)).1 l.channel
  have pieces := Framing.cut_length (k := 3) [] (l.buffer ++ l.wire.take n)
  have all := congrArg List.length (List.take_append_drop n l.wire)
  simp only [List.length_append,List.length_nil] at pieces all
  simp only [Bounded,Line.deliver,Line.read] at bounded ⊢
  omega

theorem looped_arrived {channel next : EventChannel} {a : EventChannel.Action}
    (step : channel.next a = some next) (other : ∀ evt, a ≠ .arrive evt) : next.arrived = channel.arrived := by
  cases EventChannel.step_moved step with
  | added callback same => rw [same]
  | waits evt same => rw [same]
  | unheard evt unheard task same => exact absurd rfl (other evt)
  | heard evt task fine same => exact absurd rfl (other evt)
  | ran i w at_ scheduled w' queue result same => rw [same]

theorem Moved.bounded {s t : Transport} {a : Action} {fd : Nat} (moved : Moved fd s t a)
    (bounded : Bounded (s.lines fd) sent₀ lost₀) :
    Bounded (t.lines fd) (sent₀ + (sent fd [(s,a)]).length) (lost₀ + lost fd [(s,a)]) := by
  cases moved with
  | aside a none_sent complete same =>
    have nothing := (lost_zero_iff (.aside a none_sent complete same)).mpr complete
    rw [none_sent,nothing,same]
    exact bounded
  | wrote state ret called line =>
    have balance := accepted_length state.number ret (positions fd 0 s.mFds)
    rw [sent_newState,lost_newState,List.length_map,line]
    simp only [Bounded,List.length_append] at bounded ⊢
    omega
  | delivered n line =>
    rw [line]
    exact bounded.delivered n
  | looped a other channel step line =>
    rw [line]
    simp only [Bounded,looped_arrived step other] at bounded ⊢
    exact bounded

theorem length_positions (fd i : Nat) (fds : List Nat) : (positions fd i fds).length = fds.count fd := by
  induction fds generalizing i with
  | nil => rfl
  | cons f fds ih =>
    unfold positions
    split
    · rename_i same
      rw [same,List.length_cons,ih,List.count_cons_self]
    · rename_i other
      rw [ih,List.count_cons_of_ne other]

/-- The action leaves the registration of a descriptor as it is. -/
def Elsewhere (fd : Nat) : Action → Prop
  | .addFd f | .removeFd f => f ≠ fd
  | _ => True

instance (fd : Nat) : DecidablePred (Elsewhere fd)
  | .addFd f | .removeFd f => inferInstanceAs (Decidable (f ≠ fd))
  | .newState _ _ | .deliver _ _ | .loop _ _ => .isTrue trivial

theorem count_kept {s t : Transport} {a : Action} {fd : Nat} (step : Step s a t) (elsewhere : Elsewhere fd a) :
    t.mFds.count fd = s.mFds.count fd := by
  cases a with
  | addFd f =>
    obtain rfl := Option.some.inj step
    have other : f ≠ fd := elsewhere
    rw [addFd,List.count_append,List.count_singleton,if_neg (by simpa using other),Nat.add_zero]
  | removeFd f =>
    obtain rfl := Option.some.inj step
    have other : f ≠ fd := elsewhere
    rw [removeFd,List.count_filter (by simpa using Ne.symm other)]
  | newState state ret =>
    simp only [Step,next] at step
    cases sent : sendEvent state.number ret 0 s.mFds s.lines with
    | error fault =>
      rw [sent] at step
      contradiction
    | ok lines =>
      rw [sent] at step
      obtain rfl := Option.some.inj step
      rfl
  | deliver f n =>
    obtain rfl := Option.some.inj step
    rfl
  | loop f a =>
    obtain ⟨_,_,_,rfl⟩ := loop_step step
    rfl

end Transport

/-! The simulation with its observers. -/

variable {Real σ H : Type} [LinearOrder Real]

/-- A simulation object and the transport of its events. -/
structure Observed (Real σ H : Type) [LinearOrder Real] where
  world : World Real σ H
  transport : Transport

namespace Observed

inductive Action (H : Type) where
  | simulation (a : Python.Action H) (ret : Nat → Option Nat)
  | transport (a : Transport.Action)

variable [Zero Real] (solver : Solver Real σ H)

/-- An action that announces a state sends it to the descriptors. -/
def next (s : Observed Real σ H) : Action H → Option (Observed Real σ H)
  | .simulation a ret =>
    match s.world.next solver a, s.world.announces a with
    | none, _ => none
    | some world, none => some { s with world := world }
    | some world, some state => (s.transport.next (.newState state ret)).map fun transport => ⟨world,transport⟩
  | .transport (.newState _ _) => none
  | .transport a => (s.transport.next a).map fun transport => { s with transport := transport }

def Step (s : Observed Real σ H) (a : Action H) (t : Observed Real σ H) : Prop := s.next solver a = some t

/-- The object of the Python package registers its own end of a socket pair before any other call. -/
def start (self : Simulation Real σ H) (fd : Nat) : Observed Real σ H :=
  ⟨World.initial self,Transport.start.addFd fd⟩

/-- The descriptor stays registered as it is, and is sent whole numbers. -/
def Regular (fd : Nat) (s : Observed Real σ H) : Action H → Prop
  | .simulation a ret => ∀ state ∈ s.world.announces a, Transport.Complete fd s.transport (.newState state ret)
  | .transport a => Transport.Elsewhere fd a

instance (fd : Nat) (s : Observed Real σ H) : DecidablePred (Regular fd s)
  | .simulation a _ => inferInstanceAs (Decidable (∀ state ∈ s.world.announces a, _))
  | .transport a => inferInstanceAs (Decidable (Transport.Elsewhere fd a))

/-- The channel of a descriptor that is registered once follows the states of the simulation. -/
structure Follows (R : EventChannel → List EventChannel.Event → Prop) (fd : Nat) (s : Observed Real σ H) :
    Prop where
  told : Told R (s.transport.lines fd) s.world.self.channel
  registered : s.transport.mFds.count fd = 1

variable {solver}

theorem transport_step {s t : Observed Real σ H} {a : Transport.Action} (step : Step solver s (.transport a) t) :
    ∃ transport, Transport.Step s.transport a transport ∧ t = { s with transport := transport } ∧
      ∀ state ret, a ≠ .newState state ret := by
  have moved (others : ∀ state ret, a ≠ .newState state ret)
      (step : (s.transport.next a).map (fun transport => { s with transport := transport }) = some t) :
      ∃ transport, Transport.Step s.transport a transport ∧ t = { s with transport := transport } ∧
        ∀ state ret, a ≠ .newState state ret := by
    obtain ⟨transport,moved,rfl⟩ := Option.map_eq_some_iff.mp step
    exact ⟨transport,moved,rfl,others⟩
  cases a with
  | newState state ret => contradiction
  | addFd f => exact moved (fun _ _ other => Transport.Action.noConfusion other) step
  | removeFd f => exact moved (fun _ _ other => Transport.Action.noConfusion other) step
  | deliver f n => exact moved (fun _ _ other => Transport.Action.noConfusion other) step
  | loop f a => exact moved (fun _ _ other => Transport.Action.noConfusion other) step

def Keeps (R : EventChannel → List EventChannel.Event → Prop) (fd : Nat) (s : Observed Real σ H) :
    Action H → Prop
  | .simulation _ _ => True
  | .transport a => Transport.Keeps R fd s.transport a

theorem Follows.step {s t : Observed Real σ H} {fd : Nat} {a : Action H} (follows : Follows R fd s)
    (regular : Regular fd s a) (hears : Hears R) (keeps : Keeps R fd s a) (step : Step solver s a t) :
    Follows R fd t := by
  cases a with
  | simulation a ret =>
    simp only [Step,next] at step
    cases moved : s.world.next solver a with
    | none =>
      rw [moved] at step
      contradiction
    | some world =>
      obtain ⟨channel,_⟩ := World.step_reports (show World.Step solver s.world a world from moved)
      cases announced : s.world.announces a with
      | none =>
        rw [moved,announced] at step
        obtain rfl := Option.some.inj step
        rw [announced,Option.toList_none,List.append_nil] at channel
        exact ⟨channel ▸ follows.told,follows.registered⟩
      | some state =>
        rw [moved,announced] at step
        obtain ⟨transport,sent,rfl⟩ := Option.map_eq_some_iff.mp step
        have told := (Transport.step_moved sent fd).told (regular state announced) hears trivial follows.told
        obtain ⟨i,once⟩ := List.length_eq_one_iff.mp
          ((Transport.length_positions fd 0 s.transport.mFds).trans follows.registered)
        rw [Transport.sent_newState,once,List.map_singleton] at told
        rw [announced] at channel
        exact ⟨channel ▸ told,(Transport.count_kept sent trivial).trans follows.registered⟩
  | transport a =>
    obtain ⟨transport,moved,rfl,others⟩ := transport_step step
    have quiet : Transport.sent fd [(s.transport,a)] = [] ∧ Transport.Complete fd s.transport a := by
      cases a with
      | newState state ret => exact absurd rfl (others state ret)
      | addFd f => exact ⟨rfl,trivial⟩
      | removeFd f => exact ⟨rfl,trivial⟩
      | deliver f n => exact ⟨rfl,trivial⟩
      | loop f a => exact ⟨rfl,trivial⟩
    have told := (Transport.step_moved moved fd).told quiet.2 hears keeps follows.told
    rw [quiet.1,List.append_nil] at told
    exact ⟨told,(Transport.count_kept moved regular).trans follows.registered⟩

end Observed
end DPsim.Python
