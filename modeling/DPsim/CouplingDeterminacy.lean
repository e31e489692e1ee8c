import DPsim.Coupling
import DPsim.Determinacy

/-! Two coupled simulations whose interfaces wait for every sample that the other one sends: the order
in which the processes run has no influence on the result. -/
namespace DPsim.Coupling

variable {Real σ H V : Type} [LinearOrder Real]

namespace Process

def pending : Pc Real → List InterfaceMapping
  | .syncWrite rest | .syncRead rest | .stepRead rest | .stepWrite _ rest => rest
  | _ => []

/-- The loops of a process visit the interfaces that were registered. -/
structure Registered (intfs : List InterfaceMapping) (p : Process Real σ H) : Prop where
  interfaces : p.sim.mInterfaces = intfs
  pending : ∀ ifm ∈ pending p.pc, ifm ∈ intfs

/-- What an action has to do with the queues, and that it does the same on other queues that look
alike to it. -/
inductive Acted (peer : Peer Real σ H V) (intfs : List InterfaceMapping) (p p' : Process Real σ H)
    (q q' : Queues V) : Prop where
  | silent (queues : q' = q) (always : ∀ q, p.advance peer q = some (q,p'))
  | wrote (ifm : InterfaceMapping) (member : ifm ∈ intfs) (sample : V)
      (queues : q' = Function.update q (peer.port ifm.interface.address).mWName
        (q (peer.port ifm.interface.address).mWName ++ [sample]))
      (always : ∀ q, p.advance peer q = some (Function.update q (peer.port ifm.interface.address).mWName
        (q (peer.port ifm.interface.address).mWName ++ [sample]),p'))
  | took (ifm : InterfaceMapping) (member : ifm ∈ intfs) (sample : V) (rest : List V)
      (full : q (peer.port ifm.interface.address).mRName = sample :: rest)
      (queues : q' = Function.update q (peer.port ifm.interface.address).mRName rest)
      (always : ∀ q rest, q (peer.port ifm.interface.address).mRName = sample :: rest →
        p.advance peer q = some (Function.update q (peer.port ifm.interface.address).mRName rest,p'))
  | passed (ifm : InterfaceMapping) (member : ifm ∈ intfs) (optional : ¬ (ifm.sync ∧ ifm.syncStart))
      (empty : q (peer.port ifm.interface.address).mRName = []) (queues : q' = q)
      (always : ∀ q, q (peer.port ifm.interface.address).mRName = [] → p.advance peer q = some (q,p'))

section Actions
variable {peer : Peer Real σ H V} {intfs : List InterfaceMapping} {p p' : Process Real σ H} {q q' : Queues V}

theorem acted_write {ifm : InterfaceMapping} (member : ifm ∈ intfs)
    (always : ∀ q, p.advance peer q =
      some ((peer.port ifm.interface.address).writeValues q p.sim.heap,p'))
    (step : p.advance peer q = some (q',p')) : Acted peer intfs p p' q q' := by
  have := (always q).symm.trans step
  exact .wrote ifm member _ (congrArg Prod.fst (Option.some.inj this)).symm always

theorem acted_read {ifm : InterfaceMapping} {blocking : Bool} {next : Pc Real} (member : ifm ∈ intfs)
    (waits : blocking = false → ¬ (ifm.sync ∧ ifm.syncStart))
    (reads : ∀ q, p.advance peer q =
      p.receive next ((peer.port ifm.interface.address).readValues blocking q p.sim.heap))
    (step : p.advance peer q = some (q',p')) : Acted peer intfs p p' q q' := by
  have here := reads q
  rw [step] at here
  cases queue : q (peer.port ifm.interface.address).mRName with
  | nil =>
    cases blocking with
    | true =>
      simp [Port.readValues,queue,receive] at here
    | false =>
      simp only [Port.readValues,queue,Bool.false_eq_true,if_false,receive,Option.some.injEq,
        Prod.mk.injEq] at here
      obtain ⟨same,rfl⟩ := here
      refine .passed ifm member (waits rfl) queue same fun q empty => ?_
      rw [reads]
      simp [Port.readValues,empty,receive]
  | cons sample rest =>
    simp only [Port.readValues,queue,receive] at here
    cases imported : (peer.port ifm.interface.address).imports sample p.sim.heap with
    | ok h =>
      simp only [imported,Option.some.injEq,Prod.mk.injEq] at here
      obtain ⟨same,rfl⟩ := here
      refine .took ifm member sample rest queue same fun q rest full => ?_
      rw [reads]
      simp [Port.readValues,full,receive,imported]
    | error fault =>
      simp only [imported,Option.some.injEq,Prod.mk.injEq] at here
      obtain ⟨same,rfl⟩ := here
      refine .took ifm member sample rest queue same fun q rest full => ?_
      rw [reads]
      simp [Port.readValues,full,receive,imported]

theorem acted_silent (always : ∀ q, p.advance peer q = some (q,p''))
    (step : p.advance peer q = some (q',p')) : Acted peer intfs p p' q q' := by
  obtain ⟨rfl,rfl⟩ := Prod.mk.inj (Option.some.inj ((always q).symm.trans step))
  exact .silent rfl always

theorem Registered.acted (registered : p.Registered intfs) (step : p.advance peer q = some (q',p')) :
    Acted peer intfs p p' q q' := by
  obtain ⟨sim,pc⟩ := p
  have pending := registered.pending
  cases pc with
  | opening => exact acted_silent (fun q => rfl) step
  | syncWrite rest =>
    cases rest with
    | nil => exact acted_silent (fun q => rfl) step
    | cons ifm rest =>
      obtain ⟨_,same⟩ := Prod.mk.inj (Option.some.inj step)
      exact acted_write (pending ifm List.mem_cons_self) (fun q => by rw [← same]; rfl) step
  | syncRead rest =>
    cases rest with
    | nil => exact acted_silent (fun q => rfl) step
    | cons ifm rest =>
      refine acted_read (pending ifm List.mem_cons_self)
        (fun optional both => ?_) (fun q => rfl) step
      rw [optional] at both
      exact Bool.false_ne_true both.2
  | head =>
    by_cases running : sim.mTime < sim.mFinalTime
    · exact acted_silent (fun q => if_pos running) step
    · exact acted_silent (fun q => if_neg running) step
  | stepRead rest =>
    cases rest with
    | nil => exact acted_silent (fun q => rfl) step
    | cons ifm rest =>
      refine acted_read (pending ifm List.mem_cons_self)
        (fun optional both => ?_) (fun q => rfl) step
      rw [optional] at both
      exact Bool.false_ne_true both.1
  | stepWrite nextTime rest =>
    cases rest with
    | nil => exact acted_silent (fun q => rfl) step
    | cons ifm rest =>
      obtain ⟨_,same⟩ := Prod.mk.inj (Option.some.inj step)
      exact acted_write (pending ifm List.mem_cons_self) (fun q => by rw [← same]; rfl) step
  | closing => exact acted_silent (fun q => rfl) step
  | finished => contradiction
  | failed fault => contradiction

theorem receive_kept {next : Pc Real} {answer : Option (Queues V × Except Fault H)}
    (received : p.receive next answer = some (q',p')) :
    p'.sim.mInterfaces = p.sim.mInterfaces ∧ (p'.pc = next ∨ ∃ fault, p'.pc = .failed fault) := by
  match answer, received with
  | some (_,.ok h), rfl => exact ⟨rfl,.inl rfl⟩
  | some (_,.error fault), rfl => exact ⟨rfl,.inr ⟨fault,rfl⟩⟩

theorem Registered.received (next : Pc Real) {answer : Option (Queues V × Except Fault H)}
    (interfaces : p.sim.mInterfaces = intfs) (later : ∀ ifm ∈ Process.pending next, ifm ∈ intfs)
    (received : p.receive next answer = some (q',p')) : p'.Registered intfs := by
  obtain ⟨same,here | ⟨fault,here⟩⟩ := receive_kept received
  · exact ⟨same.trans interfaces,by rwa [here]⟩
  · exact ⟨same.trans interfaces,by simp [here,Process.pending]⟩

theorem Registered.advance (registered : p.Registered intfs) (step : p.advance peer q = some (q',p')) :
    p'.Registered intfs := by
  obtain ⟨sim,pc⟩ := p
  have interfaces := registered.interfaces
  have pending := registered.pending
  have sampled : ∀ ifm ∈ sim.sampledInterfaces, ifm ∈ intfs := by
    intro ifm member
    exact interfaces ▸ List.mem_of_mem_filter member
  have none_pending (ifm : InterfaceMapping) (member : ifm ∈ ([] : List InterfaceMapping)) : ifm ∈ intfs :=
    absurd member List.not_mem_nil
  cases pc with
  | opening =>
    obtain ⟨_,rfl⟩ := Prod.mk.inj (Option.some.inj step)
    simp only [Simulation.onInterfaces_open]
    exact ⟨interfaces,fun ifm member => interfaces ▸ member⟩
  | syncWrite rest =>
    cases rest with
    | nil =>
      obtain ⟨_,rfl⟩ := Prod.mk.inj (Option.some.inj step)
      exact ⟨interfaces,fun ifm member => interfaces ▸ member⟩
    | cons ifm rest =>
      obtain ⟨_,rfl⟩ := Prod.mk.inj (Option.some.inj step)
      exact ⟨interfaces,fun i member => pending i (List.mem_cons_of_mem ifm member)⟩
  | syncRead rest =>
    cases rest with
    | nil =>
      obtain ⟨_,rfl⟩ := Prod.mk.inj (Option.some.inj step)
      exact ⟨interfaces,none_pending⟩
    | cons ifm rest =>
      exact .received (.syncRead rest) interfaces
        (fun i member => pending i (List.mem_cons_of_mem ifm member)) step
  | head =>
    simp only [Process.advance] at step
    split at step
    · obtain ⟨_,rfl⟩ := Prod.mk.inj (Option.some.inj step)
      exact ⟨interfaces,sampled⟩
    · obtain ⟨_,rfl⟩ := Prod.mk.inj (Option.some.inj step)
      exact ⟨interfaces,none_pending⟩
  | stepRead rest =>
    cases rest with
    | nil =>
      obtain ⟨_,rfl⟩ := Prod.mk.inj (Option.some.inj step)
      simp only [solve]
      split
      · exact ⟨interfaces,none_pending⟩
      · exact ⟨interfaces,sampled⟩
    | cons ifm rest =>
      exact .received (.stepRead rest) interfaces
        (fun i member => pending i (List.mem_cons_of_mem ifm member)) step
  | stepWrite nextTime rest =>
    cases rest with
    | nil =>
      obtain ⟨_,rfl⟩ := Prod.mk.inj (Option.some.inj step)
      exact ⟨interfaces,none_pending⟩
    | cons ifm rest =>
      obtain ⟨_,rfl⟩ := Prod.mk.inj (Option.some.inj step)
      exact ⟨interfaces,fun i member => pending i (List.mem_cons_of_mem ifm member)⟩
  | closing =>
    obtain ⟨_,rfl⟩ := Prod.mk.inj (Option.some.inj step)
    simp only [Simulation.onInterfaces_close]
    exact ⟨interfaces,none_pending⟩
  | finished => contradiction
  | failed fault => contradiction

end Actions
end Process

/-- Each queue has one process that writes it and one that reads it, and an interface that may read it
when the other process has not written yet waits for the sample. -/
structure Apart (peer : Peer Real σ H V) (intfs : List InterfaceMapping) (peer' : Peer Real σ H V)
    (intfs' : List InterfaceMapping) : Prop where
  reads : ∀ a ∈ intfs, ∀ b ∈ intfs', (peer.port a.interface.address).mRName ≠
    (peer'.port b.interface.address).mRName
  writes : ∀ a ∈ intfs, ∀ b ∈ intfs', (peer.port a.interface.address).mWName ≠
    (peer'.port b.interface.address).mWName
  waits : ∀ a ∈ intfs, (a.sync ∧ a.syncStart) ∨ ∀ b ∈ intfs',
    (peer'.port b.interface.address).mWName ≠ (peer.port a.interface.address).mRName
  waits' : ∀ b ∈ intfs', (b.sync ∧ b.syncStart) ∨ ∀ a ∈ intfs,
    (peer.port a.interface.address).mWName ≠ (peer'.port b.interface.address).mRName

namespace Process
variable {peer peer' : Peer Real σ H V} {intfs intfs' : List InterfaceMapping} {p p' r r' : Process Real σ H}
  {q q₁ q₂ : Queues V}

theorem Acted.step (acted : Acted peer intfs p p' q q₁) : p.advance peer q = some (q₁,p') := by
  cases acted with
  | silent queues always => exact queues ▸ always q
  | wrote ifm member sample queues always => exact queues ▸ always q
  | took ifm member sample rest full queues always => exact queues ▸ always q rest full
  | passed ifm member optional empty queues always => exact queues ▸ always q empty

theorem Acted.after (apart : Apart peer intfs peer' intfs') (first : Acted peer intfs p p' q q₁)
    (second : Acted peer' intfs' r r' q q₂) :
    ∃ q', r.advance peer' q₁ = some (q',r') ∧ p.advance peer q₂ = some (q',p') := by
  cases first with
  | silent queues always => exact ⟨q₂,queues ▸ second.step,always q₂⟩
  | wrote a here v queues always =>
    cases second with
    | silent queues' always' => exact ⟨q₁,always' q₁,queues' ▸ queues ▸ always q⟩
    | wrote b there v' queues' always' =>
      have names := apart.writes a here b there
      refine ⟨_,always' q₁,?_⟩
      rw [always,queues,queues',Function.update_of_ne names,Function.update_of_ne (Ne.symm names),
        Function.update_comm names]
    | took b there v' rest full queues' always' =>
      by_cases same : (peer.port a.interface.address).mWName = (peer'.port b.interface.address).mRName
      · refine ⟨_,always' q₁ (rest ++ [v]) (by rw [queues,same,Function.update_self,full]; rfl),?_⟩
        rw [always,queues,queues',same,Function.update_self,Function.update_idem,Function.update_idem]
      · refine ⟨_,always' q₁ rest (by rw [queues,Function.update_of_ne (Ne.symm same),full]),?_⟩
        rw [always,queues,queues',Function.update_of_ne same,Function.update_comm same]
    | passed b there optional empty queues' always' =>
      have names := (apart.waits' b there).resolve_left optional a here
      refine ⟨q₁,always' q₁ (by rw [queues,Function.update_of_ne (Ne.symm names),empty]),?_⟩
      rw [always,queues,queues']
  | took a here v rest full queues always =>
    cases second with
    | silent queues' always' => exact ⟨q₁,always' q₁,queues' ▸ queues ▸ always q rest full⟩
    | wrote b there v' queues' always' =>
      by_cases same : (peer'.port b.interface.address).mWName = (peer.port a.interface.address).mRName
      · refine ⟨_,always' q₁,?_⟩
        rw [always q₂ (rest ++ [v']) (by rw [queues',same,Function.update_self,full]; rfl),queues,queues',
          same,Function.update_self,Function.update_idem,Function.update_idem]
      · refine ⟨_,always' q₁,?_⟩
        rw [always q₂ rest (by rw [queues',Function.update_of_ne (Ne.symm same),full]),queues,queues',
          Function.update_of_ne same,Function.update_comm same]
    | took b there v' rest' full' queues' always' =>
      have names := apart.reads a here b there
      refine ⟨_,always' q₁ rest' (by rw [queues,Function.update_of_ne (Ne.symm names),full']),?_⟩
      rw [always q₂ rest (by rw [queues',Function.update_of_ne names,full]),queues,queues',
        Function.update_comm names]
    | passed b there optional empty queues' always' =>
      have names := apart.reads a here b there
      refine ⟨q₁,always' q₁ (by rw [queues,Function.update_of_ne (Ne.symm names),empty]),?_⟩
      rw [always q₂ rest (by rw [queues',full]),queues,queues']
  | passed a here optional empty queues always =>
    subst queues
    refine ⟨q₂,second.step,?_⟩
    apply always
    cases second with
    | silent queues' always' => rw [queues',empty]
    | wrote b there v' queues' always' =>
      have names := (apart.waits a here).resolve_left optional b there
      rw [queues',Function.update_of_ne (Ne.symm names),empty]
    | took b there v' rest full queues' always' =>
      rw [queues',Function.update_of_ne (apart.reads a here b there),empty]
    | passed b there optional' empty' queues' always' => rw [queues',empty]

end Process

section System
variable {peer : Side → Peer Real σ H V} {intfs : Side → List InterfaceMapping}

def Valid (intfs : Side → List InterfaceMapping) (s : State Real σ H V) : Prop :=
  ∀ side, (s.process side).Registered (intfs side)

theorem valid_start (sims : Side → Simulation Real σ H) :
    Valid (fun side => (sims side).mInterfaces) (start sims : State Real σ H V) :=
  fun _ => ⟨rfl,fun _ member => absurd member List.not_mem_nil⟩

theorem move_some {s t : State Real σ H V} {side : Side} :
    move peer s side = some t ↔ ∃ q p, (s.process side).advance (peer side) s.queues = some (q,p) ∧
      t = ⟨Function.update s.process side p,q⟩ := by
  simp only [move,Option.map_eq_some_iff,Prod.exists]
  constructor
  · rintro ⟨q,p,step,rfl⟩
    exact ⟨q,p,step,rfl⟩
  · rintro ⟨q,p,step,rfl⟩
    exact ⟨q,p,step,rfl⟩

theorem move_keeps : Determinacy.Keeps (move peer) (Valid intfs) := by
  intro s side t valid step
  obtain ⟨q,p,acted,rfl⟩ := move_some.mp step
  intro a
  by_cases same : a = side
  · subst same
    simpa using (valid a).advance acted
  · simpa [Function.update_of_ne same] using valid a

theorem move_commutes (apart : ∀ side, Apart (peer side) (intfs side) (peer side.other) (intfs side.other)) :
    Determinacy.Commutes (move peer) (Valid intfs) := by
  intro s a b t u valid differ first second
  obtain ⟨q₁,p,acted,rfl⟩ := move_some.mp first
  obtain ⟨q₂,r,acted',rfl⟩ := move_some.mp second
  obtain rfl : b = a.other := (Side.eq_or_other b a).resolve_left (Ne.symm differ)
  obtain ⟨q',later,earlier⟩ := ((valid a).acted acted).after (apart a) ((valid a.other).acted acted')
  refine ⟨⟨Function.update (Function.update s.process a p) a.other r,q'⟩,?_,?_⟩
  · exact move_some.mpr ⟨q',r,by simpa using later,rfl⟩
  · refine move_some.mpr ⟨q',p,by simpa [Function.update_of_ne differ] using earlier,?_⟩
    rw [Function.update_comm differ]

omit [LinearOrder Real] in
theorem readValues_none {port : Port V H} {blocking : Bool} {q : Queues V} {h : H} :
    port.readValues blocking q h = none ↔ blocking = true ∧ q port.mRName = [] := by
  unfold Port.readValues
  split
  · rename_i empty
    cases blocking <;> simp [empty]
  · rename_i full
    simp [full]

theorem receive_none {p : Process Real σ H} {next : Pc Real} {answer : Option (Queues V × Except Fault H)} :
    p.receive next answer = none ↔ answer = none := by
  match answer with
  | none => simp [Process.receive]
  | some (_,.ok _) => simp [Process.receive]
  | some (_,.error _) => simp [Process.receive]

theorem advance_none {peer : Peer Real σ H V} {p : Process Real σ H} {q : Queues V} :
    p.advance peer q = none ↔ p.pc = .finished ∨ (∃ fault, p.pc = .failed fault) ∨ p.Blocked peer q := by
  obtain ⟨sim,pc⟩ := p
  cases pc with
  | syncRead rest =>
    cases rest with
    | nil => simp [Process.advance,Process.Blocked,Process.waitsOn]
    | cons ifm rest =>
      simp only [Process.advance,receive_none,readValues_none,Process.Blocked,Process.waitsOn]
      cases ifm.syncStart <;> simp
  | stepRead rest =>
    cases rest with
    | nil => simp [Process.advance,Process.Blocked,Process.waitsOn]
    | cons ifm rest =>
      simp only [Process.advance,receive_none,readValues_none,Process.Blocked,Process.waitsOn]
      cases ifm.sync <;> simp
  | syncWrite rest => cases rest <;> simp [Process.advance,Process.Blocked,Process.waitsOn]
  | stepWrite nextTime rest => cases rest <;> simp [Process.advance,Process.Blocked,Process.waitsOn]
  | head =>
    simp only [Process.advance,Process.Blocked,Process.waitsOn]
    split <;> simp
  | opening => simp [Process.advance,Process.Blocked,Process.waitsOn]
  | closing => simp [Process.advance,Process.Blocked,Process.waitsOn]
  | finished => simp [Process.advance]
  | failed fault => simp [Process.advance]

def AtRest (peer : Side → Peer Real σ H V) (s : State Real σ H V) : Prop :=
  ∀ side, (s.process side).pc = .finished ∨ (∃ fault, (s.process side).pc = .failed fault) ∨
    (s.process side).Blocked (peer side) s.queues

theorem atRest_iff {s : State Real σ H V} : AtRest peer s ↔ Determinacy.Done (move peer) s := by
  simp only [AtRest,Determinacy.Done,move,Option.map_eq_none_iff,advance_none]

/-- If the coupling comes to rest in one order of the actions, then in every order: each run goes on to
the same state, which is where any other one rests, too. So what the simulations compute, and whether
they wait for each other forever, is not a matter of timing. -/
theorem rests_alike (sims : Side → Simulation Real σ H)
    (apart : ∀ side, Apart (peer side) (sims side).mInterfaces (peer side.other) (sims side.other).mInterfaces)
    {order : List Side} {s : State Real σ H V} (ran : Determinacy.run (move peer) (start sims) order = some s)
    (rests : AtRest peer s) {order' : List Side} {t : State Real σ H V}
    (ran' : Determinacy.run (move peer) (start sims) order' = some t) :
    (∃ more, Determinacy.run (move peer) t more = some s ∧ (order' ++ more).Perm order) ∧
      (AtRest peer t → t = s) := by
  have valid := valid_start (V := V) sims
  have commutes := move_commutes apart
  have done := atRest_iff.mp rests
  refine ⟨Determinacy.run_completes move_keeps commutes valid ran done ran',fun rests' => ?_⟩
  exact (Determinacy.run_unique move_keeps commutes valid ran done ran' (atRest_iff.mp rests')).1

def pipeline : Side → Peer Nat Unit Nat Nat := fun side =>
  { solver := ⟨fun time _ h => .ok (time + 1,(),h + 1)⟩
    port := fun _ => match side with
      | .left => ⟨"/dpsim01","/unused",id,fun sample _ => .ok sample⟩
      | .right => ⟨"/results","/dpsim01",id,fun sample _ => .ok sample⟩ }

def pipelined (side : Side) : Simulation Nat Unit Nat :=
  ⟨0,1,0,(),EventQueue.empty,[⟨Interface.make 0,side = .right,side = .right,1⟩],[],5⟩

/-- The reader may begin, but it comes to rest where it would have after the writer. -/
theorem rests_alike_pipeline : ∃ s t more,
    Determinacy.run (move pipeline) (start pipelined) (List.replicate 12 .left ++ List.replicate 12 .right) = some s ∧
    Determinacy.run (move pipeline) (start pipelined) [.right,.right,.left,.right] = some t ∧
    Determinacy.run (move pipeline) t more = some s := by
  obtain ⟨s,ran⟩ : ∃ s, Determinacy.run (move pipeline) (start pipelined)
      (List.replicate 12 .left ++ List.replicate 12 .right) = some s := ⟨_,rfl⟩
  obtain ⟨t,ran'⟩ : ∃ t, Determinacy.run (move pipeline) (start pipelined)
      [.right,.right,.left,.right] = some t := ⟨_,rfl⟩
  have apart (side : Side) : Apart (pipeline side) (pipelined side).mInterfaces (pipeline side.other)
      (pipelined side.other).mInterfaces := by
    cases side <;> exact ⟨by decide,by decide,by decide,by decide⟩
  have rests : AtRest pipeline s := by
    cases ran
    intro side
    cases side <;> exact .inl rfl
  obtain ⟨⟨more,later,_⟩,_⟩ := rests_alike pipelined apart ran rests ran'
  exact ⟨s,t,more,ran,ran',later⟩

end System
end DPsim.Coupling
