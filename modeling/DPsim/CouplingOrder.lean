import DPsim.CouplingDeterminacy

/-! What coupled simulations have sent and received along a run: no sample is lost, repeated or
overtaken, and a simulation that waits for its partner's samples does not get ahead of it. -/
namespace DPsim.Coupling

variable {Real σ H V : Type} [LinearOrder Real]

namespace Process

/-- What the next action of the process appends to a queue. -/
def sends (peer : Peer Real σ H V) (p : Process Real σ H) (name : String) : List V :=
  match p.pc with
  | .syncWrite (ifm :: _) | .stepWrite _ (ifm :: _) =>
    if (peer.port ifm.interface.address).mWName = name then
      [(peer.port ifm.interface.address).exports p.sim.heap]
    else []
  | _ => []

def takes (peer : Peer Real σ H V) (q : Queues V) (p : Process Real σ H) (name : String) : List V :=
  match p.pc with
  | .syncRead (ifm :: _) | .stepRead (ifm :: _) =>
    if (peer.port ifm.interface.address).mRName = name then (q name).take 1 else []
  | _ => []

def ends (p : Process Real σ H) : List Real :=
  match p.pc with
  | .stepWrite _ [] => [p.sim.mTime]
  | _ => []

variable {peer : Peer Real σ H V} {p p' : Process Real σ H} {q q' : Queues V}

omit [LinearOrder Real] in
theorem writeValues_queue (port : Port V H) (q : Queues V) (h : H) (name : String) :
    port.writeValues q h name = q name ++ if port.mWName = name then [port.exports h] else [] := by
  by_cases same : port.mWName = name
  · subst same
    simp [Port.writeValues]
  · simp [Port.writeValues,Function.update_of_ne (Ne.symm same),same]

theorem receive_queue {port : Port V H} {blocking : Bool} {h : H} {next : Pc Real} (name : String)
    (received : p.receive next (port.readValues blocking q h) = some (q',p')) :
    q name = (if port.mRName = name then (q name).take 1 else []) ++ q' name := by
  have moved : q' = Function.update q port.mRName (q port.mRName).tail := by
    cases queue : q port.mRName with
    | nil =>
      simp only [Port.readValues,queue] at received
      cases blocking with
      | true => contradiction
      | false =>
        rw [List.tail_nil,← queue,Function.update_eq_self]
        exact (congrArg Prod.fst (Option.some.inj received)).symm
    | cons sample rest =>
      simp only [Port.readValues,queue] at received
      cases imported : port.imports sample h with
      | ok h' =>
        rw [imported] at received
        exact (congrArg Prod.fst (Option.some.inj received)).symm
      | error fault =>
        rw [imported] at received
        exact (congrArg Prod.fst (Option.some.inj received)).symm
  by_cases same : port.mRName = name
  · rw [if_pos same,moved,same,Function.update_self,← List.drop_one,List.take_append_drop]
  · rw [if_neg same,moved,Function.update_of_ne (Ne.symm same),List.nil_append]

/-- One action keeps what is in a queue, but for what it appends and takes. -/
theorem advance_queue (step : p.advance peer q = some (q',p')) (name : String) :
    q name ++ p.sends peer name = p.takes peer q name ++ q' name := by
  obtain ⟨sim,pc⟩ := p
  have quiet {p'' : Process Real σ H} (same : some (q,p'') = some (q',p')) : q name ++ [] = [] ++ q' name := by
    rw [(Prod.mk.inj (Option.some.inj same)).1,List.append_nil,List.nil_append]
  cases pc with
  | opening => exact quiet step
  | syncWrite rest =>
    cases rest with
    | nil => exact quiet step
    | cons ifm rest =>
      obtain ⟨rfl,_⟩ := Prod.mk.inj (Option.some.inj step)
      simp only [sends,takes,List.nil_append]
      exact (writeValues_queue _ q sim.heap name).symm
  | syncRead rest =>
    cases rest with
    | nil => exact quiet step
    | cons ifm rest =>
      simp only [sends,takes,List.append_nil]
      exact receive_queue name step
  | head =>
    simp only [Process.advance] at step
    split at step
    · exact quiet step
    · exact quiet step
  | stepRead rest =>
    cases rest with
    | nil => exact quiet step
    | cons ifm rest =>
      simp only [sends,takes,List.append_nil]
      exact receive_queue name step
  | stepWrite nextTime rest =>
    cases rest with
    | nil => exact quiet step
    | cons ifm rest =>
      obtain ⟨rfl,_⟩ := Prod.mk.inj (Option.some.inj step)
      simp only [sends,takes,List.nil_append]
      exact (writeValues_queue _ q sim.heap name).symm
  | closing => exact quiet step
  | finished => contradiction
  | failed fault => contradiction

end Process

/-! How many samples a process has sent or received for an interface that it visits once in each loop. -/

/-- The number of the steps from `count` on that take part in the exchange. -/
def samples (count : Int32) (downsampling : UInt32) (steps : Nat) : Nat :=
  (List.range steps).countP fun k => onSample ((· + 1)^[k] count) downsampling

theorem samples_succ (count : Int32) (downsampling : UInt32) (steps : Nat) :
    samples count downsampling (steps + 1) = samples count downsampling steps +
      if onSample ((· + 1)^[steps] count) downsampling then 1 else 0 := by
  simp [samples,List.range_succ]

/-- Of the interfaces of a process, only `ifm` has the name. -/
structure Only (intfs : List InterfaceMapping) (nameOf : InterfaceMapping → String) (name : String)
    (ifm : InterfaceMapping) : Prop where
  once : intfs.Nodup
  member : ifm ∈ intfs
  iff : ∀ i ∈ intfs, nameOf i = name ↔ i = ifm

namespace Process
variable {peer : Peer Real σ H V} {p p' : Process Real σ H} {q q' : Queues V}
  {intfs : List InterfaceMapping} {ifm : InterfaceMapping} {name : String} {count : Int32} {steps n : Nat}

structure Wrote (intfs : List InterfaceMapping) (ifm : InterfaceMapping) (count : Int32)
    (p : Process Real σ H) (steps n : Nat) : Prop where
  registered : p.Registered intfs
  counted : p.sim.mTimeStepCount = (· + 1)^[steps] count
  once : (Process.pending p.pc).Nodup
  written : match p.pc with
    | .opening => steps = 0 ∧ n = 0
    | .syncWrite rest => steps = 0 ∧ n + rest.count ifm = 1
    | .syncRead _ => steps = 0 ∧ n = 1
    | .stepWrite _ rest => n + rest.count ifm = 1 + samples count ifm.downsampling (steps + 1)
    | _ => n = 1 + samples count ifm.downsampling steps

theorem count_sampled (only : Only intfs nameOf name ifm) {sim : Simulation Real σ H}
    (registered : sim.mInterfaces = intfs) (counted : sim.mTimeStepCount = (· + 1)^[steps] count) :
    samples count ifm.downsampling steps + sim.sampledInterfaces.count ifm =
      samples count ifm.downsampling (steps + 1) := by
  have once : intfs.count ifm = 1 := List.count_eq_one_of_mem only.once only.member
  rw [samples_succ,Simulation.sampledInterfaces,registered,counted]
  by_cases on : onSample ((· + 1)^[steps] count) ifm.downsampling = true
  · rw [List.count_filter (by simpa using on),if_pos on,once]
  · rw [if_neg on,List.count_eq_zero_of_not_mem]
    intro member
    exact on (by simpa using (List.mem_filter.mp member).2)

theorem receive_cases {next : Pc Real} {answer : Option (Queues V × Except Fault H)}
    (received : p.receive next answer = some (q',p')) :
    (∃ h, p' = ⟨{ p.sim with heap := h },next⟩) ∨ ∃ fault, p' = ⟨p.sim,.failed fault⟩ := by
  match answer, received with
  | some (_,.ok h), rfl => exact .inl ⟨h,rfl⟩
  | some (_,.error fault), rfl => exact .inr ⟨fault,rfl⟩

theorem Wrote.advance (only : Only intfs (fun i => (peer.port i.interface.address).mWName) name ifm)
    (wrote : p.Wrote intfs ifm count steps n) (step : p.advance peer q = some (q',p')) :
    p'.Wrote intfs ifm count (steps + p.ends.length) (n + (p.sends peer name).length) := by
  have registered := wrote.registered.advance step
  obtain ⟨⟨interfaces,pending⟩,counted,once,written⟩ := wrote
  obtain ⟨sim,pc⟩ := p
  have all : sim.mInterfaces.Nodup := interfaces ▸ only.once
  have visits : sim.mInterfaces.count ifm = 1 :=
    interfaces ▸ List.count_eq_one_of_mem only.once only.member
  have sampled : samples count ifm.downsampling steps + sim.sampledInterfaces.count ifm =
      samples count ifm.downsampling (steps + 1) := count_sampled only interfaces counted
  have visit (i : InterfaceMapping) (rest : List InterfaceMapping) (member : i ∈ intfs) :
      (if (peer.port i.interface.address).mWName = name then
          [(peer.port i.interface.address).exports sim.heap] else []).length + rest.count ifm =
        (i :: rest).count ifm := by
    by_cases here : i = ifm
    · rw [if_pos ((only.iff i member).mpr here),here,List.count_cons_self,List.length_singleton,Nat.add_comm]
    · rw [if_neg (mt (only.iff i member).mp here),List.count_cons_of_ne here,List.length_nil,Nat.zero_add]
  cases pc with
  | opening =>
    obtain ⟨_,rfl⟩ := Prod.mk.inj (Option.some.inj step)
    rw [Simulation.onInterfaces_open] at registered ⊢
    obtain ⟨rfl,rfl⟩ := written
    exact ⟨registered,counted,all,rfl,by simpa [sends] using visits⟩
  | syncWrite rest =>
    cases rest with
    | nil =>
      obtain ⟨_,rfl⟩ := Prod.mk.inj (Option.some.inj step)
      exact ⟨registered,counted,all,written.1,by simpa [sends] using written.2⟩
    | cons i rest =>
      obtain ⟨_,rfl⟩ := Prod.mk.inj (Option.some.inj step)
      refine ⟨registered,counted,(List.nodup_cons.mp once).2,written.1,?_⟩
      have := visit i rest (pending i List.mem_cons_self)
      have := written.2
      simp only [sends]
      omega
  | syncRead rest =>
    obtain ⟨rfl,rfl⟩ := written
    cases rest with
    | nil =>
      obtain ⟨_,rfl⟩ := Prod.mk.inj (Option.some.inj step)
      exact ⟨registered,counted,List.nodup_nil,by simp [sends,ends,samples]⟩
    | cons i rest =>
      obtain ⟨h,rfl⟩ | ⟨fault,rfl⟩ := receive_cases step
      · exact ⟨registered,counted,(List.nodup_cons.mp once).2,rfl,by simp [sends]⟩
      · exact ⟨registered,counted,List.nodup_nil,by simp [sends,ends,samples]⟩
  | head =>
    simp only [Process.advance] at step
    split at step
    · obtain ⟨_,rfl⟩ := Prod.mk.inj (Option.some.inj step)
      exact ⟨registered,counted,all.filter _,written⟩
    · obtain ⟨_,rfl⟩ := Prod.mk.inj (Option.some.inj step)
      exact ⟨registered,counted,List.nodup_nil,written⟩
  | stepRead rest =>
    cases rest with
    | nil =>
      obtain ⟨_,rfl⟩ := Prod.mk.inj (Option.some.inj step)
      simp only [solve] at registered ⊢
      split
      · rename_i failed
        rw [failed] at registered
        exact ⟨registered,counted,List.nodup_nil,written⟩
      · rename_i solved
        rw [solved] at registered
        refine ⟨registered,counted,all.filter _,?_⟩
        simp only [sends,ends,List.length_nil,Nat.add_zero] at written ⊢
        omega
    | cons i rest =>
      obtain ⟨h,rfl⟩ | ⟨fault,rfl⟩ := receive_cases step
      · exact ⟨registered,counted,(List.nodup_cons.mp once).2,written⟩
      · exact ⟨registered,counted,List.nodup_nil,written⟩
  | stepWrite nextTime rest =>
    cases rest with
    | nil =>
      obtain ⟨_,rfl⟩ := Prod.mk.inj (Option.some.inj step)
      refine ⟨registered,?_,List.nodup_nil,written⟩
      have next : sim.mTimeStepCount + 1 = (· + 1)^[steps + 1] count := by
        rw [Function.iterate_succ_apply']
        exact congrArg (· + 1) counted
      exact next
    | cons i rest =>
      obtain ⟨_,rfl⟩ := Prod.mk.inj (Option.some.inj step)
      refine ⟨registered,counted,(List.nodup_cons.mp once).2,?_⟩
      have := visit i rest (pending i List.mem_cons_self)
      simp only [sends,ends,List.length_nil,Nat.add_zero] at written ⊢
      omega
  | closing =>
    obtain ⟨_,rfl⟩ := Prod.mk.inj (Option.some.inj step)
    rw [Simulation.onInterfaces_close] at registered ⊢
    exact ⟨registered,counted,List.nodup_nil,written⟩
  | finished => contradiction
  | failed fault => contradiction

/-- So many steps and samples received, if the interface always waits for them. -/
structure Took (intfs : List InterfaceMapping) (ifm : InterfaceMapping) (count : Int32)
    (p : Process Real σ H) (steps n : Nat) : Prop where
  registered : p.Registered intfs
  counted : p.sim.mTimeStepCount = (· + 1)^[steps] count
  once : (Process.pending p.pc).Nodup
  taken : match p.pc with
    | .opening | .syncWrite _ => steps = 0 ∧ n = 0
    | .syncRead rest => steps = 0 ∧ n + rest.count ifm = 1
    | .stepRead rest => n + rest.count ifm = 1 + samples count ifm.downsampling (steps + 1)
    | .stepWrite _ _ => n = 1 + samples count ifm.downsampling (steps + 1)
    | .failed _ => True
    | _ => n = 1 + samples count ifm.downsampling steps

omit [LinearOrder Real] in
theorem waited {port : Port V H} {q : Queues V} {h : H} {answer : Queues V × Except Fault H}
    (read : port.readValues true q h = some answer) : ((q port.mRName).take 1).length = 1 := by
  cases queue : q port.mRName with
  | nil => simp [Port.readValues,queue] at read
  | cons sample rest => simp

theorem receive_some {next : Pc Real} {answer : Option (Queues V × Except Fault H)}
    (received : p.receive next answer = some (q',p')) : ∃ read, answer = some read := by
  match answer, received with
  | some read, _ => exact ⟨read,rfl⟩

theorem Took.advance (only : Only intfs (fun i => (peer.port i.interface.address).mRName) name ifm)
    (waits : ifm.sync ∧ ifm.syncStart) (took : p.Took intfs ifm count steps n)
    (step : p.advance peer q = some (q',p')) :
    p'.Took intfs ifm count (steps + p.ends.length) (n + (p.takes peer q name).length) := by
  have registered := took.registered.advance step
  obtain ⟨⟨interfaces,pending⟩,counted,once,taken⟩ := took
  obtain ⟨sim,pc⟩ := p
  have all : sim.mInterfaces.Nodup := interfaces ▸ only.once
  have visits : sim.mInterfaces.count ifm = 1 :=
    interfaces ▸ List.count_eq_one_of_mem only.once only.member
  have sampled : samples count ifm.downsampling steps + sim.sampledInterfaces.count ifm =
      samples count ifm.downsampling (steps + 1) := count_sampled only interfaces counted
  have visit (i : InterfaceMapping) (rest : List InterfaceMapping) {blocking : Bool} (next : Pc Real)
      (member : i ∈ intfs) (blocks : i = ifm → blocking = true)
      (read : (⟨sim,next⟩ : Process Real σ H).receive next
        ((peer.port i.interface.address).readValues blocking q sim.heap) = some (q',p')) :
      (if (peer.port i.interface.address).mRName = name then (q name).take 1 else []).length +
        rest.count ifm = (i :: rest).count ifm := by
    by_cases here : i = ifm
    · have named := (only.iff i member).mpr here
      obtain ⟨answer,returned⟩ := receive_some read
      rw [blocks here] at returned
      have := waited returned
      rw [named] at this
      rw [if_pos named,this,here,List.count_cons_self,Nat.add_comm]
    · rw [if_neg (mt (only.iff i member).mp here),List.count_cons_of_ne here,List.length_nil,Nat.zero_add]
  cases pc with
  | opening =>
    obtain ⟨_,rfl⟩ := Prod.mk.inj (Option.some.inj step)
    rw [Simulation.onInterfaces_open] at registered ⊢
    exact ⟨registered,counted,all,taken⟩
  | syncWrite rest =>
    cases rest with
    | nil =>
      obtain ⟨_,rfl⟩ := Prod.mk.inj (Option.some.inj step)
      obtain ⟨rfl,rfl⟩ := taken
      exact ⟨registered,counted,all,rfl,by simpa [takes] using visits⟩
    | cons i rest =>
      obtain ⟨_,rfl⟩ := Prod.mk.inj (Option.some.inj step)
      exact ⟨registered,counted,(List.nodup_cons.mp once).2,taken⟩
  | syncRead rest =>
    obtain ⟨rfl,taken⟩ := taken
    cases rest with
    | nil =>
      obtain ⟨_,rfl⟩ := Prod.mk.inj (Option.some.inj step)
      exact ⟨registered,counted,List.nodup_nil,by simpa [takes,ends,samples] using taken⟩
    | cons i rest =>
      have visited := visit i rest (.syncRead rest) (pending i List.mem_cons_self)
        (fun same => same ▸ waits.2) step
      obtain ⟨h,rfl⟩ | ⟨fault,rfl⟩ := receive_cases step
      · refine ⟨registered,counted,(List.nodup_cons.mp once).2,rfl,?_⟩
        simp only [takes]
        omega
      · exact ⟨registered,counted,List.nodup_nil,trivial⟩
  | head =>
    simp only [Process.advance] at step
    split at step
    · obtain ⟨_,rfl⟩ := Prod.mk.inj (Option.some.inj step)
      refine ⟨registered,counted,all.filter _,?_⟩
      simp only [takes,ends,List.length_nil,Nat.add_zero] at taken ⊢
      omega
    · obtain ⟨_,rfl⟩ := Prod.mk.inj (Option.some.inj step)
      exact ⟨registered,counted,List.nodup_nil,taken⟩
  | stepRead rest =>
    cases rest with
    | nil =>
      obtain ⟨_,rfl⟩ := Prod.mk.inj (Option.some.inj step)
      simp only [List.count_nil,Nat.add_zero] at taken
      simp only [solve] at registered ⊢
      split
      · rename_i failed
        rw [failed] at registered
        exact ⟨registered,counted,List.nodup_nil,trivial⟩
      · rename_i solved
        rw [solved] at registered
        exact ⟨registered,counted,all.filter _,taken⟩
    | cons i rest =>
      have visited := visit i rest (.stepRead rest) (pending i List.mem_cons_self)
        (fun same => same ▸ waits.1) step
      obtain ⟨h,rfl⟩ | ⟨fault,rfl⟩ := receive_cases step
      · refine ⟨registered,counted,(List.nodup_cons.mp once).2,?_⟩
        simp only [takes,ends,List.length_nil,Nat.add_zero] at taken ⊢
        omega
      · exact ⟨registered,counted,List.nodup_nil,trivial⟩
  | stepWrite nextTime rest =>
    cases rest with
    | nil =>
      obtain ⟨_,rfl⟩ := Prod.mk.inj (Option.some.inj step)
      refine ⟨registered,?_,List.nodup_nil,taken⟩
      have next : sim.mTimeStepCount + 1 = (· + 1)^[steps + 1] count := by
        rw [Function.iterate_succ_apply']
        exact congrArg (· + 1) counted
      exact next
    | cons i rest =>
      obtain ⟨_,rfl⟩ := Prod.mk.inj (Option.some.inj step)
      exact ⟨registered,counted,(List.nodup_cons.mp once).2,taken⟩
  | closing =>
    obtain ⟨_,rfl⟩ := Prod.mk.inj (Option.some.inj step)
    rw [Simulation.onInterfaces_close] at registered ⊢
    exact ⟨registered,counted,List.nodup_nil,taken⟩
  | finished => contradiction
  | failed fault => contradiction

end Process

section Runs
variable (peer : Side → Peer Real σ H V) {α : Type}

/-- What the actions of a run contribute, in their order. -/
def along (g : State Real σ H V → Side → List α) : State Real σ H V → List Side → List α
  | _, [] => []
  | s, a :: order =>
    match move peer s a with
    | none => []
    | some t => g s a ++ along g t order

def sent (name : String) : State Real σ H V → List Side → List V :=
  along peer fun s a => (s.process a).sends (peer a) name

def received (name : String) : State Real σ H V → List Side → List V :=
  along peer fun s a => (s.process a).takes (peer a) s.queues name

def stepped (side : Side) : State Real σ H V → List Side → List Real :=
  along peer fun s a => if a = side then (s.process a).ends else []

variable {peer}

theorem along_cons {g : State Real σ H V → Side → List α} {s t : State Real σ H V} {a : Side}
    (step : move peer s a = some t) (order : List Side) :
    along peer g s (a :: order) = g s a ++ along peer g t order := by
  simp only [along,step]

/-- In every order of the actions, a queue holds what was sent and not yet received, in this order. -/
theorem sent_received {s t : State Real σ H V} {order : List Side}
    (ran : Determinacy.run (move peer) s order = some t) (name : String) :
    s.queues name ++ sent peer name s order = received peer name s order ++ t.queues name := by
  induction order generalizing s with
  | nil =>
    cases ran
    simp [sent,received,along]
  | cons a order ih =>
    obtain ⟨u,step,rest⟩ := Determinacy.run_cons.mp ran
    have later := ih rest
    obtain ⟨q,p,acted,rfl⟩ := move_some.mp step
    have here := Process.advance_queue acted name
    simp only [sent,received] at later ⊢
    rw [along_cons step,along_cons step,← List.append_assoc,here,List.append_assoc,later,List.append_assoc]

theorem along_invariant {intfs : Side → List InterfaceMapping} {s t : State Real σ H V} {order : List Side}
    {side : Side} {g : State Real σ H V → Side → List α}
    {P : Process Real σ H → Nat → Nat → Prop} (quiet : ∀ s, Valid intfs s → g s side.other = [])
    (acts : ∀ s t steps n, move peer s side = some t → P (s.process side) steps n →
      P (t.process side) (steps + (s.process side).ends.length) (n + (g s side).length))
    (valid : Valid intfs s) (ran : Determinacy.run (move peer) s order = some t) {steps n : Nat}
    (initially : P (s.process side) steps n) :
    P (t.process side) (steps + (stepped peer side s order).length) (n + (along peer g s order).length) := by
  induction order generalizing s steps n with
  | nil =>
    cases ran
    exact initially
  | cons a order ih =>
    obtain ⟨u,step,rest⟩ := Determinacy.run_cons.mp ran
    have kept := move_keeps s a u valid step
    simp only [stepped] at ih ⊢
    rw [along_cons step,along_cons step,List.length_append,List.length_append,← Nat.add_assoc,← Nat.add_assoc]
    obtain rfl | rfl := Side.eq_or_other a side
    · rw [if_pos rfl]
      exact ih kept rest (acts s u steps n step initially)
    · rw [if_neg (Side.other_ne side),quiet s valid]
      obtain ⟨q,p,_,rfl⟩ := move_some.mp step
      exact ih kept rest (by simpa [Function.update_of_ne (Ne.symm (Side.other_ne side))] using initially)

/-- The simulation on one side always waits for what the other one sends through a queue, and no
further interface has to do with it. -/
structure Linked (peer : Side → Peer Real σ H V) (intfs : Side → List InterfaceMapping) (side : Side)
    (name : String) (reader writer : InterfaceMapping) : Prop where
  reads : Only (intfs side) (fun i => ((peer side).port i.interface.address).mRName) name reader
  waits : reader.sync ∧ reader.syncStart
  writes : Only (intfs side.other) (fun i => ((peer side.other).port i.interface.address).mWName) name writer
  not_written : ∀ i ∈ intfs side, ((peer side).port i.interface.address).mWName ≠ name
  not_read : ∀ i ∈ intfs side.other, ((peer side.other).port i.interface.address).mRName ≠ name

namespace Linked
variable {intfs : Side → List InterfaceMapping} {side : Side} {name : String} {reader writer : InterfaceMapping}

theorem sends_nothing (linked : Linked peer intfs side name reader writer) {s : State Real σ H V}
    (valid : Valid intfs s) : (s.process side).sends (peer side) name = [] := by
  have pending := (valid side).pending
  unfold Process.sends
  split
  · rename_i ifm rest pc
    exact if_neg (linked.not_written ifm (pending ifm (by simp [pc,Process.pending])))
  · rename_i time ifm rest pc
    exact if_neg (linked.not_written ifm (pending ifm (by simp [pc,Process.pending])))
  · rfl

theorem takes_nothing (linked : Linked peer intfs side name reader writer) {s : State Real σ H V}
    (valid : Valid intfs s) : (s.process side.other).takes (peer side.other) s.queues name = [] := by
  have pending := (valid side.other).pending
  unfold Process.takes
  split
  · rename_i ifm rest pc
    exact if_neg (linked.not_read ifm (pending ifm (by simp [pc,Process.pending])))
  · rename_i ifm rest pc
    exact if_neg (linked.not_read ifm (pending ifm (by simp [pc,Process.pending])))
  · rfl

variable {sims : Side → Simulation Real σ H} {t : State Real σ H V} {order : List Side}

theorem took (linked : Linked peer (fun side => (sims side).mInterfaces) side name reader writer)
    (ran : Determinacy.run (move peer) (start sims) order = some t) :
    (t.process side).Took (sims side).mInterfaces reader (sims side).mTimeStepCount
      (stepped peer side (start sims) order).length (received peer name (start sims) order).length := by
  have initially : ((start sims : State Real σ H V).process side).Took (sims side).mInterfaces reader
      (sims side).mTimeStepCount 0 0 :=
    ⟨valid_start (V := V) sims side,rfl,List.nodup_nil,rfl,rfl⟩
  have run := along_invariant (g := fun s a => (s.process a).takes (peer a) s.queues name)
    (P := fun p steps n => p.Took (sims side).mInterfaces reader (sims side).mTimeStepCount steps n)
    (fun s valid => linked.takes_nothing valid) (fun s t steps n step took => ?_) (valid_start sims) ran initially
  · rw [Nat.zero_add,Nat.zero_add] at run
    exact run
  · obtain ⟨q,p,acted,rfl⟩ := move_some.mp step
    simpa using took.advance linked.reads linked.waits acted

theorem wrote (linked : Linked peer (fun side => (sims side).mInterfaces) side name reader writer)
    (ran : Determinacy.run (move peer) (start sims) order = some t) :
    (t.process side.other).Wrote (sims side.other).mInterfaces writer (sims side.other).mTimeStepCount
      (stepped peer side.other (start sims) order).length (sent peer name (start sims) order).length := by
  have initially : ((start sims : State Real σ H V).process side.other).Wrote (sims side.other).mInterfaces
      writer (sims side.other).mTimeStepCount 0 0 :=
    ⟨valid_start (V := V) sims side.other,rfl,List.nodup_nil,rfl,rfl⟩
  have run := along_invariant (g := fun s a => (s.process a).sends (peer a) name)
    (P := fun p steps n => p.Wrote (sims side.other).mInterfaces writer (sims side.other).mTimeStepCount steps n)
    (fun s valid => by simpa using linked.sends_nothing valid) (fun s t steps n step wrote => ?_)
    (valid_start sims) ran initially
  · rw [Nat.zero_add,Nat.zero_add] at run
    exact run
  · obtain ⟨q,p,acted,rfl⟩ := move_some.mp step
    simpa using wrote.advance linked.writes acted

end Linked

/-- Between two steps, a simulation has received the first samples that the other one sent, one before
its first step and one in each step that reads. So it has not got ahead of the other simulation, which
may only be busy writing the last one of them. -/
theorem samples_arrive {sims : Side → Simulation Real σ H} {side : Side} {name : String}
    {reader writer : InterfaceMapping}
    (linked : Linked peer (fun side => (sims side).mInterfaces) side name reader writer)
    {order : List Side} {t : State Real σ H V}
    (ran : Determinacy.run (move peer) (start sims) order = some t) (between : (t.process side).pc = .head) :
    let read := samples (sims side).mTimeStepCount reader.downsampling
      (stepped peer side (start sims) order).length
    let written := samples (sims side.other).mTimeStepCount writer.downsampling
    let steps := (stepped peer side.other (start sims) order).length
    received peer name (start sims) order = (sent peer name (start sims) order).take (1 + read) ∧
      read ≤ written (steps + 1) ∧ ((t.process side.other).pc = .head → read ≤ written steps) := by
  intro read written steps
  have took : (received peer name (start sims) order).length = 1 + read := by
    simpa only [between] using (linked.took ran).taken
  have order_kept : sent peer name (start sims) order = received peer name (start sims) order ++ t.queues name :=
    sent_received ran name
  have few : (received peer name (start sims) order).length ≤ (sent peer name (start sims) order).length := by
    rw [order_kept,List.length_append]
    exact Nat.le_add_right _ _
  have more : written steps ≤ written (steps + 1) := by
    simp only [written,samples_succ]
    exact Nat.le_add_right _ _
  have wrote := (linked.wrote ran).written
  have sent_few : (sent peer name (start sims) order).length ≤ 1 + written (steps + 1) := by
    simp only [written,steps] at more ⊢
    split at wrote <;> omega
  refine ⟨?_,by omega,fun head => ?_⟩
  · rw [← took]
    exact List.prefix_iff_eq_take.mp ⟨_,order_kept.symm⟩
  · have wrote : (sent peer name (start sims) order).length = 1 + written steps := by
      simpa only [head] using wrote
    omega

theorem samples_arrive_pipeline : ∃ t, Determinacy.run (move pipeline) (start pipelined)
      (List.replicate 12 .left ++ List.replicate 10 .right) = some t ∧
    received pipeline "/dpsim01" (start pipelined) (List.replicate 12 .left ++ List.replicate 10 .right) =
      [5,6] := by
  refine ⟨_,rfl,?_⟩
  have linked : Linked pipeline (fun side => (pipelined side).mInterfaces) .right "/dpsim01"
      ⟨Interface.make 0,true,true,1⟩ ⟨Interface.make 0,false,false,1⟩ :=
    ⟨⟨by decide,by decide,by decide⟩,by decide,⟨by decide,by decide,by decide⟩,by decide,by decide⟩
  rw [(samples_arrive linked rfl rfl).1]
  decide

end Runs
end DPsim.Coupling
