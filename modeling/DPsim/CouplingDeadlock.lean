import DPsim.Coupling

/-! Two simulations connected directly to each other by one interface each. Every sample of
the initial exchange is consumed by it, and a step reads before it writes, so both wait in
the first read of their first step. -/
namespace DPsim.Coupling
open Transition

variable {Real σ H V : Type} [LinearOrder Real]

/-- A pair of simulations that have no interface yet, and the one each of them registers. -/
structure Pair (Real σ H V : Type) [LinearOrder Real] where
  peer : Side → Peer Real σ H V
  intf : Side → Interface
  before : Side → Simulation Real σ H
  alone : ∀ side, (before side).mInterfaces = []
  unfinished : ∀ side, (before side).mTime < (before side).mFinalTime
  crossed : ∀ side, ((peer side).port (intf side).address).mRName =
    ((peer side.other).port (intf side.other).address).mWName
  distinct : ∀ side, ((peer side).port (intf side).address).mWName ≠
    ((peer side.other).port (intf side.other).address).mWName

namespace Pair
variable (pair : Pair Real σ H V) (side : Side)

def port : Port V H := (pair.peer side).port (pair.intf side).address

def mapping : InterfaceMapping := ⟨pair.intf side, true, true, 1⟩

/-- The simulation after the default `addInterface(intf)`. -/
def sim : Simulation Real σ H := (pair.before side).addInterfaceSync (pair.intf side) true

def initial : State Real σ H V := start pair.sim

/-- What a side writes in its `sync`. -/
def sample : V := (pair.port side).exports (pair.before side).heap

/-- What the import of the partner's first sample makes of the objects. -/
def firstImport : Except Fault H :=
  (pair.port side).imports (pair.sample side.other) (pair.before side).heap

/-- A side after so many of its actions. -/
def stage : Nat → Process Real σ H
  | 0 => ⟨pair.sim side, .opening⟩
  | 1 => ⟨pair.sim side, .syncWrite [pair.mapping side]⟩
  | 2 => ⟨pair.sim side, .syncWrite []⟩
  | 3 => ⟨pair.sim side, .syncRead [pair.mapping side]⟩
  | k + 4 =>
    match pair.firstImport side with
    | .error fault => ⟨pair.sim side, .failed fault⟩
    | .ok h => ⟨{ pair.sim side with heap := h },
        match k with
        | 0 => .syncRead []
        | 1 => .head
        | _ => .stepRead [pair.mapping side]⟩

@[simp] theorem sim_interfaces : (pair.sim side).mInterfaces = [pair.mapping side] := by
  simp [sim,Simulation.addInterfaceSync,Simulation.addInterface,pair.alone,mapping]

@[simp] theorem sim_unfinished : (pair.sim side).mTime < (pair.sim side).mFinalTime :=
  pair.unfinished side

@[simp] theorem sim_sampled (h : H) :
    ({ pair.sim side with heap := h } : Simulation Real σ H).sampledInterfaces = [pair.mapping side] := by
  have every (count : Int32) : onSample count 1 = true := by simp [onSample]
  simp [Simulation.sampledInterfaces,mapping,every]

/-- The state in which each side has taken so many actions: a queue holds the first sample of
its writer from the write in `sync` to the read in `sync`. -/
structure At (k : Side → Nat) (s : State Real σ H V) : Prop where
  process : ∀ side, s.process side = pair.stage side (k side)
  queues : ∀ side, s.queues (pair.port side).mWName =
    if 2 ≤ k side ∧ k side.other ≤ 3 then [pair.sample side] else []
  order : ∀ side, 4 ≤ k side → 2 ≤ k side.other
  bound : ∀ side, k side ≤ 6

section Actions
variable (q : Queues V)

theorem stage_open : (pair.stage side 0).advance (pair.peer side) q = some (q,pair.stage side 1) := by
  simp [stage,Process.advance]

theorem stage_write : (pair.stage side 1).advance (pair.peer side) q =
    some ((pair.port side).writeValues q (pair.before side).heap,pair.stage side 2) := rfl

theorem stage_wait : (pair.stage side 2).advance (pair.peer side) q = some (q,pair.stage side 3) := by
  simp [stage,Process.advance]

theorem stage_sync (full : q (pair.port side).mRName = [pair.sample side.other]) :
    (pair.stage side 3).advance (pair.peer side) q =
      some (Function.update q (pair.port side).mRName [],pair.stage side 4) := by
  have read : (pair.port side).readValues true q (pair.before side).heap =
      some (Function.update q (pair.port side).mRName [],pair.firstImport side) := by
    simp [Port.readValues,full,firstImport]
  have first : (pair.stage side 3).advance (pair.peer side) q =
      (pair.stage side 3).receive (.syncRead [])
        ((pair.port side).readValues true q (pair.before side).heap) := rfl
  rw [first,read]
  cases imported : pair.firstImport side <;> simp [stage,imported,Process.receive]

theorem stage_head (k : Nat) (synced : k = 4 ∨ k = 5) (imported : pair.firstImport side = .ok h) :
    (pair.stage side k).advance (pair.peer side) q = some (q,pair.stage side (k + 1)) := by
  rcases synced with rfl | rfl
  · simp [stage,imported,Process.advance]
  · have unfinished := pair.sim_unfinished side
    simp [stage,imported,Process.advance,unfinished,-sim_interfaces]

theorem stage_failed (k : Nat) (imported : pair.firstImport side = .error fault) :
    (pair.stage side (k + 4)).advance (pair.peer side) q = none := by
  simp [stage,imported,Process.advance]

theorem stage_blocked (synced : k = 3 ∨ k = 6 ∧ pair.firstImport side = .ok h) :
    (pair.stage side k).waitsOn (pair.peer side) = some (pair.port side).mRName := by
  rcases synced with rfl | ⟨rfl,imported⟩
  · rfl
  · simp [stage,imported,Process.waitsOn,mapping,port]

theorem stage_waits (waits : (pair.stage side k).waitsOn (pair.peer side) = some name) :
    k = 3 ∨ 6 ≤ k ∧ ∃ h, pair.firstImport side = .ok h := by
  match k with
  | 0 | 1 | 2 => simp [stage,Process.waitsOn] at waits
  | 3 => exact .inl rfl
  | k + 4 =>
    cases imported : pair.firstImport side with
    | error => simp [stage,imported,Process.waitsOn] at waits
    | ok h =>
      match k with
      | 0 | 1 => simp [stage,imported,Process.waitsOn] at waits
      | k + 2 => exact .inr ⟨by omega,h,rfl⟩

end Actions

theorem initial_at : pair.At (fun _ => 0) pair.initial :=
  ⟨fun _ => rfl,fun _ => rfl,by simp,by simp⟩

variable {pair side} {k : Side → Nat} {s t : State Real σ H V}

theorem At.reads (here : pair.At k s) (side : Side) : s.queues (pair.port side).mRName =
    if 2 ≤ k side.other ∧ k side ≤ 3 then [pair.sample side.other] else [] := by
  have named : (pair.port side).mRName = (pair.port side.other).mWName := pair.crossed side
  rw [named,here.queues]
  simp

/-- The side can act: it has actions left, its partner has written what it waits for, and
no import has thrown. -/
structure Ready (pair : Pair Real σ H V) (k : Side → Nat) (side : Side) : Prop where
  left : k side < 6
  written : k side = 3 → 2 ≤ k side.other
  imported : 4 ≤ k side → ∃ h, pair.firstImport side = .ok h

/-- What one action does to the queues is what the next stage says they hold. -/
theorem At.next (here : pair.At k s) (ready : Ready pair k side)
    (acted : (pair.stage side (k side)).advance (pair.peer side) s.queues =
      some (q,pair.stage side (k side + 1)))
    (own : q (pair.port side).mWName =
      if 2 ≤ k side + 1 ∧ k side.other ≤ 3 then [pair.sample side] else [])
    (others : q (pair.port side.other).mWName =
      if 2 ≤ k side.other ∧ k side + 1 ≤ 3 then [pair.sample side.other] else []) :
    ∃ t, Step pair.peer s side t ∧ pair.At (Function.update k side (k side + 1)) t := by
  refine ⟨⟨Function.update s.process side (pair.stage side (k side + 1)),q⟩,?_,?_,?_,?_,?_⟩
  · simp [Step,move,here.process side,acted]
  all_goals intro a; rcases a.eq_or_other side with rfl | rfl
  · simp
  · simp [here.process]
  · simpa using own
  · simpa using others
  · have := here.order a
    have := ready.written
    simp; omega
  · have := here.order side.other
    simp at this ⊢; omega
  · have := ready.left
    simp; omega
  · simpa using here.bound side.other

theorem At.act (here : pair.At k s) (ready : Ready pair k side) :
    ∃ t, Step pair.peer s side t ∧ pair.At (Function.update k side (k side + 1)) t := by
  have own := here.queues side
  have others := here.queues side.other
  have apart : (pair.port side).mWName ≠ (pair.port side.other).mWName := pair.distinct side
  have named : (pair.port side).mRName = (pair.port side.other).mWName := pair.crossed side
  rw [Side.other_other] at others
  have stages : k side = 0 ∨ k side = 1 ∨ k side = 2 ∨ k side = 3 ∨ k side = 4 ∨ k side = 5 := by
    have := ready.left; omega
  rcases stages with h | h | h | h | h
  · apply here.next ready (q := s.queues)
    · rw [h]; exact pair.stage_open side _
    · simpa [h] using own
    · simpa [h] using others
  · have waiting : k side.other ≤ 3 := by
      have := here.order side.other
      simp at this; omega
    have empty : s.queues (pair.port side).mWName = [] := by simpa [h] using own
    apply here.next ready (q := (pair.port side).writeValues s.queues (pair.before side).heap)
    · rw [h]; exact pair.stage_write side _
    · simp [h,waiting,Port.writeValues,empty,sample]
    · simpa [h,Port.writeValues,Function.update_of_ne apart.symm] using others
  · apply here.next ready (q := s.queues)
    · rw [h]; exact pair.stage_wait side _
    · simpa [h] using own
    · simpa [h] using others
  · have written := ready.written h
    have full : s.queues (pair.port side).mRName = [pair.sample side.other] := by
      simpa [h,written] using here.reads side
    apply here.next ready (q := Function.update s.queues (pair.port side).mRName [])
    · rw [h]; exact pair.stage_sync side _ full
    · rw [named,Function.update_of_ne apart]
      simpa [h] using own
    · simp [named,h]
  · obtain ⟨first,imported⟩ := ready.imported (by omega)
    apply here.next ready (q := s.queues)
    · exact pair.stage_head side _ _ h imported
    · rcases h with h | h <;> simpa [h] using own
    · rcases h with h | h <;> simpa [h] using others

/-- A side that is not ready has no action. -/
theorem At.wait (here : pair.At k s) (waiting : ¬ Ready pair k side) :
    move pair.peer s side = none := by
  have bound := here.bound side
  have stuck : (pair.stage side (k side)).advance (pair.peer side) s.queues = none := by
    by_cases full : k side = 3 ∧ k side.other < 2
    · apply Process.blocked_waits
      refine ⟨_,pair.stage_blocked side (h := (pair.before side).heap) (.inl full.1),?_⟩
      have := full.2
      simp [here.reads side]; omega
    · cases imported : pair.firstImport side with
      | error fault =>
        have late : 4 ≤ k side := by
          by_contra early
          exact waiting ⟨by omega,by omega,by omega⟩
        obtain ⟨j,at_⟩ := Nat.exists_eq_add_of_le' late
        rw [at_]
        exact pair.stage_failed side _ _ imported
      | ok first =>
        have last : k side = 6 := by
          by_contra early
          exact waiting ⟨by omega,by omega,fun _ => ⟨first,imported⟩⟩
        apply Process.blocked_waits
        refine ⟨_,pair.stage_blocked side (.inr ⟨last,imported⟩),?_⟩
        simp [here.reads side,last]
  simp [move,here.process side,stuck]

theorem at_step (s : State Real σ H V) (side : Side) (t : State Real σ H V)
    (here : ∃ k, pair.At k s) (moved : Step pair.peer s side t) : ∃ k, pair.At k t := by
  obtain ⟨k,here⟩ := here
  by_cases ready : Ready pair k side
  · obtain ⟨u,acted,next⟩ := here.act ready
    obtain rfl : u = t := Option.some.inj (acted.symm.trans moved)
    exact ⟨_,next⟩
  · have stuck := here.wait ready
    simp [Step,stuck] at moved

theorem at_run (path : Path (Step pair.peer) pair.initial trace s) : ∃ k, pair.At k s :=
  path.invariant (P := fun s => ∃ k, pair.At k s) at_step ⟨_,pair.initial_at⟩

/-- Both sides wait exactly at the first read of their first step. -/
theorem At.deadlocked_iff (here : pair.At k s) :
    Deadlocked pair.peer s ↔ ∀ side, k side = 6 ∧ ∃ h, pair.firstImport side = .ok h := by
  constructor
  · intro dead
    have waiting (side : Side) : k side = 3 ∨ 6 ≤ k side ∧ ∃ h, pair.firstImport side = .ok h := by
      obtain ⟨name,waits,_⟩ := dead side
      rw [here.process side] at waits
      exact pair.stage_waits side waits
    intro side
    have bound := here.bound side
    rcases waiting side with h | ⟨h,imported⟩
    · -- the partner of a side that waits in `sync` has not written yet
      exfalso
      obtain ⟨name,waits,empty⟩ := dead side
      rw [here.process side,pair.stage_blocked side (h := (pair.before side).heap) (.inl h)] at waits
      cases waits
      rw [here.reads side] at empty
      rcases waiting side.other with h' | ⟨h',_⟩ <;> simp [h] at empty <;> omega
    · exact ⟨by omega,imported⟩
  · intro last side
    obtain ⟨at_,first,imported⟩ := last side
    refine ⟨(pair.port side).mRName,?_,?_⟩
    · rw [here.process side]
      exact pair.stage_blocked side (.inr ⟨at_,imported⟩)
    · simp [here.reads side,at_]

/-- Two sides that have not both reached their first step do not wait for each other. -/
theorem At.ready_or_done (here : pair.At k s) (imported : ∀ side, ∃ h, pair.firstImport side = .ok h) :
    (∃ side, Ready pair k side) ∨ ∀ side, k side = 6 := by
  have left := here.bound .left
  have right := here.bound .right
  by_cases first : k .left < 6 ∧ (k .left = 3 → 2 ≤ k .right)
  · exact .inl ⟨.left,first.1,first.2,fun _ => imported .left⟩
  by_cases second : k .right < 6 ∧ (k .right = 3 → 2 ≤ k .left)
  · exact .inl ⟨.right,second.1,second.2,fun _ => imported .right⟩
  right
  intro side
  cases side <;> omega

theorem At.deadlock_within (imported : ∀ side, ∃ h, pair.firstImport side = .ok h) (n : Nat)
    (here : pair.At k s) (enough : 12 ≤ k .left + k .right + n) :
    ∃ trace t, Path (Step pair.peer) s trace t ∧ Deadlocked pair.peer t := by
  induction n generalizing k s with
  | zero =>
    have left := here.bound .left
    have right := here.bound .right
    refine ⟨[],s,.nil,here.deadlocked_iff.mpr fun side => ⟨?_,imported side⟩⟩
    cases side <;> omega
  | succ n ih =>
    rcases here.ready_or_done imported with ⟨side,ready⟩ | done
    · obtain ⟨t,acted,next⟩ := here.act ready
      have closer : 12 ≤ Function.update k side (k side + 1) .left +
          Function.update k side (k side + 1) .right + n := by
        cases side <;> simp <;> omega
      obtain ⟨trace,u,path,dead⟩ := ih next closer
      exact ⟨_,u,.cons acted path,dead⟩
    · exact ⟨[],s,.nil,here.deadlocked_iff.mpr fun side => ⟨done side,imported side⟩⟩

end Pair

variable (pair : Pair Real σ H V)

/-- Unless an import throws on the first sample, every state of every run leads on to the
deadlock, and no simulation has made a step. -/
theorem deadlock_ahead (imported : ∀ side, ∃ h, pair.firstImport side = .ok h)
    (path : Path (Step pair.peer) pair.initial trace s) :
    (∃ more t, Path (Step pair.peer) s more t ∧ Deadlocked pair.peer t) ∧
      ∀ side, (s.process side).sim.mTime = (pair.before side).mTime := by
  obtain ⟨k,here⟩ := Pair.at_run path
  refine ⟨here.deadlock_within imported 12 (by omega),fun side => ?_⟩
  obtain ⟨h,imported⟩ := imported side
  rw [here.process side]
  unfold Pair.stage
  split
  all_goals simp [imported,Pair.sim,Simulation.addInterfaceSync,Simulation.addInterface]

/-- Two directly coupled simulations never deadlock only if one of them ends in its `sync`,
by an import that throws on the first sample. -/
theorem deadlock_free_iff_import_throws :
    (∀ trace s, Path (Step pair.peer) pair.initial trace s → ¬ Deadlocked pair.peer s) ↔
      ∃ side fault, pair.firstImport side = .error fault := by
  constructor
  · intro free
    by_contra none
    have imported (side : Side) : ∃ h, pair.firstImport side = .ok h := by
      cases result : pair.firstImport side with
      | error fault => exact absurd ⟨side,fault,result⟩ none
      | ok h => exact ⟨h,rfl⟩
    obtain ⟨⟨trace,t,path,dead⟩,_⟩ := deadlock_ahead pair imported .nil
    exact free trace t path dead
  · rintro ⟨side,fault,thrown⟩ trace s path dead
    obtain ⟨k,here⟩ := Pair.at_run path
    obtain ⟨_,h,imported⟩ := here.deadlocked_iff.mp dead side
    rw [thrown] at imported
    contradiction

/-- Two simulations of one step, each importing a number. -/
def direct : Pair Nat Unit Nat Nat where
  peer side :=
    { solver := ⟨fun time _ h => .ok (time + 1,(),h)⟩
      port := fun _ => match side with
        | .left => ⟨"/dpsim01","/dpsim10",id,fun sample _ => .ok sample⟩
        | .right => ⟨"/dpsim10","/dpsim01",id,fun sample _ => .ok sample⟩ }
  intf _ := Interface.make 0
  before _ := ⟨0,1,0,(),EventQueue.empty,[],[],5⟩
  alone _ := rfl
  unfinished _ := by decide
  crossed side := by cases side <;> rfl
  distinct side := by cases side <;> simp [Side.other]

/-- Both open their interface, write, read the partner's first sample, enter the loop and wait. -/
theorem direct_coupling_deadlocks :
    (∃ trace s, Path (Step direct.peer) direct.initial trace s ∧ Deadlocked direct.peer s) ∧
      ¬ ∀ trace s, Path (Step direct.peer) direct.initial trace s → ¬ Deadlocked direct.peer s := by
  have dead := (deadlock_ahead direct (fun side => ⟨5,by cases side <;> rfl⟩) .nil).1
  exact ⟨dead,fun free => by obtain ⟨trace,s,path,stuck⟩ := dead; exact free trace s path stuck⟩

/-- The left side's import finds too little data in the first sample. -/
def rejecting : Pair Nat Unit Nat Nat where
  peer side :=
    { solver := ⟨fun time _ h => .ok (time + 1,(),h)⟩
      port := fun _ => match side with
        | .left => ⟨"/dpsim01","/dpsim10",id,fun _ _ => .error (.exception "incomplete data received from interface")⟩
        | .right => ⟨"/dpsim10","/dpsim01",id,fun sample _ => .ok sample⟩ }
  intf _ := Interface.make 0
  before _ := ⟨0,1,0,(),EventQueue.empty,[],[],5⟩
  alone _ := rfl
  unfinished _ := by decide
  crossed side := by cases side <;> rfl
  distinct side := by cases side <;> simp [Side.other]

theorem deadlock_free_iff_import_throws_rejecting :
    ∀ trace s, Path (Step rejecting.peer) rejecting.initial trace s → ¬ Deadlocked rejecting.peer s :=
  (deadlock_free_iff_import_throws rejecting).mpr ⟨.left,_,rfl⟩

end DPsim.Coupling
