import DPsim.Coupling
import DPsim.SampleOwnership

/-! The interfaces behind the ports of coupled simulations. As long as the library has a sample to hand
out, passes every one on, and gives them to the reader in their order, the calls of `writeValues` and
`readValues` are those of the ports on a queue. -/
namespace DPsim.Coupling
open Interface Transition

variable {S Real V : Type}

/-- The view of a sample is all that the exports decide and the imports depend on. -/
structure Port.Writes (port : Port V (Attributes Real)) (intf : Closures S Real) (view : Sample S → V) :
    Prop where
  exports : ∀ {values smp sample}, intf.runExports values smp = .ok sample → ∀ sequence,
    view { sample with sequence := sequence } = port.exports values

/-- What a call of `readValues` that has run the imports comes to. -/
def outcome : Attributes Real × Option Fault → Except Fault (Attributes Real)
  | (values,none) => .ok values
  | (_,some (.exception _)) => .error (.exception "std::exception")
  | (_,some fault) => .error fault

structure Port.Reads (port : Port V (Attributes Real)) (intf : Closures S Real) (view : Sample S → V) :
    Prop where
  imports : ∀ smp values, port.imports (view smp) values = outcome (runImports smp intf.mImports values)

/-- The end of a `readValues` that has not ended the program. -/
inductive Answered (r : ReadEnd Real) : Except Fault (Attributes Real) → Prop where
  | returned : r.ended = .returned → Answered r (.ok r.values)
  | threw : r.ended = .threw fault → Answered r (.error fault)

inductive Call (Real : Type) where
  | wrote (values : Attributes Real)
  | read (blocking : Bool) (values : Attributes Real) (result : Except Fault (Attributes Real))

/-- The calls of the interface that writes and of the one that reads. An export that throws, a library that
has no sample left, and a sample that is not passed on are left out, as is an exception that keeps the
reader from releasing the sample. -/
inductive Link (reader : Closures S Real) :
    Interface.Writer S Real → Call Real → Interface.Writer S Real → Prop where
  | wrote (allocated : shm.allocated = some smp) (free : w.pool.Free smp)
      (sends : Interface.Writer.Sends w (.write values shm))
      (wrote : w.writeValues values shm = some (ended,u)) : Link reader w (.wrote values) u
  | read (oldest : w.pool.passed.getLast? = some smp)
      (received : receive blocking available reads = some (.sample (w.samples smp)))
      (ran : reader.readValues blocking available reads values = some r) (released : r.released = 1)
      (answered : Answered r result) :
      Link reader w (.read blocking values result) { w with pool := w.pool.drop smp }
  | empty (none_passed : w.pool.passed = []) (received : receive blocking available reads = some .nothing)
      (ran : reader.readValues blocking available reads values = some r) (answered : Answered r result) :
      Link reader w (.read blocking values result) w

inductive Ported (writer reader : Port V (Attributes Real)) : Queues V → Call Real → Queues V → Prop where
  | wrote : Ported writer reader q (.wrote values) (writer.writeValues q values)
  | read : reader.readValues blocking q values = some (q',result) →
      Ported writer reader q (.read blocking values result) q'

/-- The queue holds the samples that the reader has been passed, the oldest first. -/
structure Carries (view : Sample S → V) (intf : Closures S Real) (w : Interface.Writer S Real)
    (queue : List V) : Prop where
  intf : w.intf = intf
  owned : w.Owned
  once : w.pool.passed.Nodup
  queue : queue = (w.pool.passed.map fun smp => view (w.samples smp)).reverse

section Calls
variable {view : Sample S → V} {intf reader : Closures S Real} {w u : Interface.Writer S Real} {q : Queues V}
  {port : Port V (Attributes Real)}

theorem writeValues_sent {shm : Shmem} {values : Attributes Real} {sample : Sample S} {ret : Int32}
    (allocated : shm.allocated = some smp) (ran : w.intf.runExports values (w.samples smp) = .ok sample)
    (found : shm.written.find? (· ≠ 0) = some ret) (positive : 0 < ret)
    (wrote : w.writeValues values shm = some (ended,u)) :
    ended = .returned ∧ u.intf = w.intf ∧ u.mLastSample = w.mLastSample ∧
      u.pool = (w.pool.alloc smp).pass smp ∧
      u.samples = Function.update (Function.update w.samples smp { sample with sequence := w.mSequence })
        w.mLastSample { sample with
          sequence := w.mSequence, capacity := (w.samples w.mLastSample).capacity } := by
  have sent : Interface.Writer.send smp shm.written (w.pool.alloc smp) = some ((w.pool.alloc smp).pass smp) := by
    rw [Interface.Writer.send,found,Option.map_some,if_pos positive]
  simp only [Interface.Writer.writeValues,allocated,ran,sent,Option.map_some,Option.some.injEq,Prod.mk.injEq] at wrote
  obtain ⟨rfl,rfl⟩ := wrote
  exact ⟨rfl,rfl,rfl,rfl,rfl⟩

theorem Carries.wrote (carries : Carries view intf w (q port.mWName)) (writes : port.Writes intf view)
    {shm : Shmem} {values : Attributes Real} (allocated : shm.allocated = some smp) (free : w.pool.Free smp)
    (sends : Interface.Writer.Sends w (.write values shm)) (wrote : w.writeValues values shm = some (ended,u)) :
    Carries view intf u (port.writeValues q values port.mWName) := by
  obtain ⟨exported,ret,found,positive⟩ := sends
  obtain ⟨sample,ran⟩ := exported smp allocated
  obtain ⟨_,same,last,pool,samples⟩ := writeValues_sent allocated ran found positive wrote
  obtain ⟨apart,absent⟩ := carries.owned.free free
  have fresh : smp ∉ w.pool.passed := List.count_eq_zero.mp absent
  have passed : u.pool.passed = smp :: w.pool.passed := by
    rw [pool]
    rfl
  have newest : view (u.samples smp) = port.exports values := by
    rw [samples,Function.update_of_ne apart,Function.update_self]
    exact writes.exports (carries.intf ▸ ran) w.mSequence
  have kept : ∀ other ∈ w.pool.passed, view (u.samples other) = view (w.samples other) := by
    intro other member
    have first : other ≠ w.mLastSample := fun here => carries.owned.last (here ▸ member)
    have second : other ≠ smp := fun here => fresh (here ▸ member)
    rw [samples,Function.update_of_ne first,Function.update_of_ne second]
  refine ⟨same.trans carries.intf,carries.owned.sent free last pool,?_,?_⟩
  · rw [passed]
    exact List.nodup_cons.mpr ⟨fresh,carries.once⟩
  · rw [Port.writeValues,Function.update_self,carries.queue,passed,List.map_cons,List.reverse_cons,newest,
      List.map_congr_left kept]

/-- The oldest sample is the first one of the queue, and dropping it leaves the others. -/
theorem Carries.oldest {samples : List V} (carries : Carries view intf w samples)
    (oldest : w.pool.passed.getLast? = some smp) :
    ∃ rest, samples = view (w.samples smp) :: rest ∧
      Carries view intf { w with pool := w.pool.drop smp } rest := by
  obtain ⟨newer,passed⟩ := List.getLast?_eq_some_iff.mp oldest
  have once := carries.once
  rw [passed] at once
  have absent : smp ∉ newer := by
    intro member
    exact (List.nodup_append.mp once).2.2 smp member smp List.mem_cons_self rfl
  have dropped : (w.pool.drop smp).passed = newer := by
    rw [Pool.drop,passed,List.erase_append_right _ absent,List.erase_cons_head,List.append_nil]
  refine ⟨(newer.map fun smp => view (w.samples smp)).reverse,?_,?_⟩
  · rw [carries.queue,passed,List.map_append,List.reverse_append]
    rfl
  · have held : smp ∈ w.pool.passed := by simp [passed]
    refine ⟨carries.intf,Interface.Writer.drop_owned carries.owned held,?_,?_⟩
    · rw [dropped]
      exact (List.nodup_append.mp once).1
    · rw [dropped]

theorem readValues_answer {blocking : Bool} {available : Int32} {reads : List (Received S)}
    {values : Attributes Real} {smp : Sample S} {r : ReadEnd Real}
    (received : receive blocking available reads = some (.sample smp))
    (ran : reader.readValues blocking available reads values = some r) (answered : Answered r result) :
    result = outcome (runImports smp reader.mImports values) := by
  simp only [Closures.readValues,received,Option.map_some,Option.some.injEq] at ran
  cases ended : runImports smp reader.mImports values with
  | mk values' fault =>
    rw [ended] at ran
    subst ran
    cases fault with
    | none =>
      cases answered with
      | returned => rfl
      | threw ended => contradiction
    | some fault =>
      cases fault with
      | exception what =>
        cases answered with
        | returned ended => contradiction
        | threw ended =>
          cases ended
          rfl
      | _ =>
        cases answered with
        | returned ended => contradiction
        | threw ended =>
          cases ended
          rfl

/-- A blocking call does not return without a sample. -/
theorem receive_nothing {blocking : Bool} {available : Int32} {reads : List (Received S)}
    (received : receive blocking available reads = some .nothing) : blocking = false := by
  cases blocking with
  | false => rfl
  | true =>
    have := List.find?_some received
    contradiction

variable {writerPort readerPort : Port V (Attributes Real)}

theorem Carries.call {call : Call Real} (writes : writerPort.Writes intf view) (reads : readerPort.Reads reader view)
    (linked : writerPort.mWName = readerPort.mRName) (carries : Carries view intf w (q readerPort.mRName))
    (called : Link reader w call u) :
    ∃ q', Ported writerPort readerPort q call q' ∧ Carries view intf u (q' readerPort.mRName) := by
  cases called with
  | wrote allocated free sends wrote =>
    rw [← linked] at carries ⊢
    exact ⟨_,.wrote,carries.wrote writes allocated free sends wrote⟩
  | read oldest received ran released answered =>
    obtain ⟨rest,queue,dropped⟩ := carries.oldest oldest
    refine ⟨Function.update q readerPort.mRName rest,.read ?_,?_⟩
    · rw [Port.readValues,queue,readValues_answer received ran answered,← reads.imports]
    · rwa [Function.update_self]
  | empty none_passed received ran answered =>
    refine ⟨q,.read ?_,carries⟩
    have queue : q readerPort.mRName = [] := by
      rw [carries.queue,none_passed]
      rfl
    have at_once := receive_nothing received
    rw [Closures.readValues,received] at ran
    cases ran
    cases answered with
    | returned =>
      rw [Port.readValues,queue,at_once]
      rfl
    | threw ended => contradiction

end Calls
end DPsim.Coupling
