import DPsim.InterfaceReads
import DPsim.Transition
import Mathlib.Data.List.Nodup
import Mathlib.Data.List.Perm.Subperm

/-! Who holds the samples of an interface. The shared memory library hands out samples with one
reference from a finite pool; writing one passes that reference on to the reader. -/
namespace DPsim.Interface
open Transition

variable {S Real : Type}

/-- The references of each sample, and those among them that the reader has been passed and has
not dropped yet. -/
structure Pool where
  size : Nat
  refs : Nat → Nat
  passed : List Nat

namespace Pool

def alloc (smp : Nat) (pool : Pool) : Pool := { pool with refs := Function.update pool.refs smp 1 }

def pass (smp : Nat) (pool : Pool) : Pool := { pool with passed := smp :: pool.passed }

def drop (smp : Nat) (pool : Pool) : Pool :=
  { pool with
    refs := Function.update pool.refs smp (pool.refs smp - 1)
    passed := pool.passed.erase smp }

def Free (smp : Nat) (pool : Pool) : Prop := smp < pool.size ∧ pool.refs smp = 0

instance (smp : Nat) (pool : Pool) : Decidable (pool.Free smp) := by
  unfold Free; infer_instance

end Pool

/-- What the library does in one `writeValues`: the sample it hands out, if it has one, and what
the calls of `shmem_int_write` return. -/
structure Shmem where
  allocated : Option Nat
  written : List Int32
  deriving DecidableEq

/-- The part of an interface that writes; `samples` is the memory of the pool. -/
structure Writer (S Real : Type) where
  intf : Closures S Real
  mLastSample : Nat
  mSequence : Int32
  samples : Nat → Sample S
  pool : Pool

namespace Writer

/-- `open`, where `shmem_int_alloc` has handed out `smp`. -/
def opened (intf : Closures S Real) (size smp : Nat) (samples : Nat → Sample S) : Writer S Real :=
  { intf := intf
    mLastSample := smp
    mSequence := 0
    samples := Function.update samples smp { samples smp with sequence := 0 }
    pool := Pool.alloc smp ⟨size,fun _ => 0,[]⟩ }

/-- `do ret = shmem_int_write(sample); while (ret == 0);` A positive result has passed the sample
on, a negative one is logged. -/
def send (smp : Nat) (written : List Int32) (pool : Pool) : Option Pool :=
  (written.find? (· ≠ 0)).map fun ret => if 0 < ret then pool.pass smp else pool

/-- `none` writes for ever. The handler for `std::exception` finds `done` false, as only an export
throws one: it sends the last sample instead of the one that is allocated. -/
def writeValues (values : Attributes Real) (shm : Shmem) (w : Writer S Real) : Option (Ended × Writer S Real) :=
  match shm.allocated with
  | none => some (.exited,w)
  | some smp =>
    let pool := w.pool.alloc smp
    match w.intf.runExports values (w.samples smp) with
    | .ok sample =>
      let sample := { sample with sequence := w.mSequence }
      (send smp shm.written pool).map fun pool =>
        (.returned,{ w with
          mSequence := w.mSequence + 1
          samples := Function.update (Function.update w.samples smp sample) w.mLastSample
            { sample with capacity := (w.samples w.mLastSample).capacity }
          pool := pool })
    | .error (.exception _) =>
      (send w.mLastSample shm.written pool).map fun pool => (.returned,{ w with pool := pool })
    | .error fault => some (.threw fault,{ w with pool := pool })

inductive Event (Real : Type) where
  | write (values : Attributes Real) (shm : Shmem)
  | dropped (smp : Nat)

/-- The library only hands out samples that are free. -/
inductive Step : Writer S Real → Event Real → Writer S Real → Prop where
  | write (free : ∀ smp, shm.allocated = some smp → w.pool.Free smp)
      (wrote : w.writeValues values shm = some (ended,u)) (goes_on : ended ≠ .exited) :
      Step w (.write values shm) u
  | dropped (held : smp ∈ w.pool.passed) :
      Step w (.dropped smp) { w with pool := w.pool.drop smp }

/-- The interface owns one reference, that of `mLastSample`. -/
structure Owned (w : Writer S Real) : Prop where
  /-- Any other reference has been passed to the reader. -/
  refs : ∀ smp, w.pool.refs smp = w.pool.passed.count smp + if smp = w.mLastSample then 1 else 0
  last : w.mLastSample ∉ w.pool.passed
  /-- A reader that leaves room in the pool finds the next sample written. -/
  room : w.pool.passed.length + 1 < w.pool.size → ∃ smp, w.pool.Free smp

def Sends (w : Writer S Real) : Event Real → Prop
  | .write values shm => (∀ smp, shm.allocated = some smp →
      ∃ sample, w.intf.runExports values (w.samples smp) = .ok sample) ∧
      ∃ ret, shm.written.find? (· ≠ 0) = some ret ∧ 0 < ret
  | .dropped _ => True

theorem exists_free {w : Writer S Real}
    (refs : ∀ smp, w.pool.refs smp = w.pool.passed.count smp + if smp = w.mLastSample then 1 else 0)
    (more : w.pool.passed.length + 1 < w.pool.size) : ∃ smp, w.pool.Free smp := by
  by_contra none
  have held : List.range w.pool.size ⊆ w.mLastSample :: w.pool.passed := by
    intro smp inside
    rw [List.mem_range] at inside
    by_contra absent
    rw [List.mem_cons,not_or] at absent
    refine none ⟨smp,inside,?_⟩
    rw [refs smp,List.count_eq_zero.mpr absent.2,if_neg absent.1]
  have most := (List.subperm_of_subset List.nodup_range held).length_le
  simp only [List.length_range,List.length_cons] at most
  omega

theorem owned_of_refs {w : Writer S Real}
    (refs : ∀ smp, w.pool.refs smp = w.pool.passed.count smp + if smp = w.mLastSample then 1 else 0)
    (last : w.mLastSample ∉ w.pool.passed) : Owned w := ⟨refs,last,exists_free refs⟩

theorem opened_owned (intf : Closures S Real) (size smp : Nat) (samples : Nat → Sample S) :
    Owned (opened intf size smp samples) := by
  apply owned_of_refs
  · intro other
    by_cases same : other = smp <;> simp [opened,Pool.alloc,same]
  · simp [opened,Pool.alloc]

theorem drop_owned {w : Writer S Real} (owned : Owned w) (held : smp ∈ w.pool.passed) :
    Owned { w with pool := w.pool.drop smp } := by
  have apart : smp ≠ w.mLastSample := fun same => owned.last (same ▸ held)
  apply owned_of_refs
  · intro other
    dsimp only [Pool.drop]
    by_cases same : other = smp
    · subst same
      rw [Function.update_self,owned.refs,List.count_erase_self,if_neg apart]
      simp
    · rw [Function.update_of_ne same,owned.refs,List.count_erase_of_ne same]
  · intro still
    exact owned.last (List.mem_of_mem_erase still)

theorem Owned.free {w : Writer S Real} (owned : Owned w) (free : w.pool.Free smp) :
    smp ≠ w.mLastSample ∧ w.pool.passed.count smp = 0 := by
  have none := owned.refs smp
  rw [free.2] at none
  constructor
  · intro same
    rw [if_pos same] at none
    omega
  · omega

theorem Owned.leaked {w u : Writer S Real} (owned : Owned w) (free : w.pool.Free smp)
    (last : u.mLastSample = w.mLastSample) (refs : u.pool.refs = (w.pool.alloc smp).refs)
    (passed : u.pool.passed = w.pool.passed) : ¬ Owned u := by
  intro still
  obtain ⟨apart,absent⟩ := owned.free free
  have one := still.refs smp
  rw [refs,passed,last,absent,if_neg apart] at one
  simp [Pool.alloc] at one

theorem Owned.sent {w u : Writer S Real} (owned : Owned w) (free : w.pool.Free smp)
    (last : u.mLastSample = w.mLastSample) (pool : u.pool = (w.pool.alloc smp).pass smp) : Owned u := by
  obtain ⟨apart,absent⟩ := owned.free free
  apply owned_of_refs
  · intro other
    rw [pool,last]
    dsimp only [Pool.pass,Pool.alloc]
    by_cases same : other = smp
    · subst same
      rw [Function.update_self,List.count_cons_self,absent,if_neg apart]
    · rw [Function.update_of_ne same,List.count_cons_of_ne (Ne.symm same),owned.refs other]
  · rw [pool,last]
    simp only [Pool.pass,Pool.alloc,List.mem_cons,not_or]
    exact ⟨Ne.symm apart,owned.last⟩

theorem send_some {pool pool' : Pool} (sent : send smp written pool = some pool') :
    ∃ ret, written.find? (· ≠ 0) = some ret ∧ pool' = if 0 < ret then pool.pass smp else pool := by
  obtain ⟨ret,found,rfl⟩ := Option.map_eq_some_iff.mp sent
  exact ⟨ret,found,rfl⟩

theorem writeValues_cases {w u : Writer S Real} (wrote : w.writeValues values shm = some (ended,u))
    (goes_on : ended ≠ .exited) : ∃ smp, shm.allocated = some smp ∧ u.mLastSample = w.mLastSample ∧
      u.intf = w.intf ∧
      ((∃ sample ret, w.intf.runExports values (w.samples smp) = .ok sample ∧
          shm.written.find? (· ≠ 0) = some ret ∧
          u.pool = if 0 < ret then (w.pool.alloc smp).pass smp else w.pool.alloc smp) ∨
        ∃ fault, w.intf.runExports values (w.samples smp) = .error fault ∧
          (u.pool = (w.pool.alloc smp).pass w.mLastSample ∨ u.pool = w.pool.alloc smp)) := by
  unfold writeValues at wrote
  split at wrote
  · cases wrote
    contradiction
  · rename_i smp allocated
    refine ⟨smp,allocated,?_⟩
    dsimp only at wrote
    split at wrote
    · rename_i sample ran
      obtain ⟨pool,sent,result⟩ := Option.map_eq_some_iff.mp wrote
      cases result
      obtain ⟨ret,found,rfl⟩ := send_some sent
      exact ⟨rfl,rfl,.inl ⟨sample,ret,ran,found,rfl⟩⟩
    · rename_i what ran
      obtain ⟨pool,sent,result⟩ := Option.map_eq_some_iff.mp wrote
      cases result
      obtain ⟨ret,_,rfl⟩ := send_some sent
      refine ⟨rfl,rfl,.inr ⟨_,ran,?_⟩⟩
      by_cases positive : 0 < ret <;> simp [positive]
    · rename_i fault _ ran
      cases wrote
      exact ⟨rfl,rfl,.inr ⟨_,ran,.inr rfl⟩⟩

/-- One call keeps the ownership exactly if no export throws and the sample is passed on. -/
theorem write_owned_iff {w u : Writer S Real} (owned : Owned w)
    (free : ∀ smp, shm.allocated = some smp → w.pool.Free smp)
    (wrote : w.writeValues values shm = some (ended,u)) (goes_on : ended ≠ .exited) :
    Owned u ↔ Sends w (.write values shm) := by
  obtain ⟨smp,allocated,last,_,done⟩ := writeValues_cases wrote goes_on
  replace free := free smp allocated
  rcases done with ⟨sample,ret,ran,found,pool⟩ | ⟨fault,ran,pool⟩
  · by_cases sent : 0 < ret
    · rw [if_pos sent] at pool
      refine iff_of_true (owned.sent free last pool) ⟨?_,ret,found,sent⟩
      intro other same
      rw [allocated] at same
      cases same
      exact ⟨sample,ran⟩
    · rw [if_neg sent] at pool
      refine iff_of_false (owned.leaked free last (by rw [pool]) (by rw [pool]; rfl)) ?_
      rintro ⟨_,other,same,positive⟩
      rw [found] at same
      cases same
      exact sent positive
  · refine iff_of_false ?_ fun sends => ?_
    · rcases pool with passed | kept
      · intro still
        apply still.last
        rw [last,passed]
        exact List.mem_cons_self
      · exact owned.leaked free last (by rw [kept]) (by rw [kept]; rfl)
    · obtain ⟨sample,fine⟩ := sends.1 smp allocated
      rw [ran] at fine
      contradiction

theorem step_owned_iff {w u : Writer S Real} {e : Event Real} (owned : Owned w) (moved : Step w e u) :
    Owned u ↔ Sends w e := by
  cases moved with
  | write free wrote goes_on => exact write_owned_iff owned free wrote goes_on
  | dropped held => exact iff_of_true (drop_owned owned held) trivial

/-- Between all calls the interface owns the last sample and nothing else, exactly if no export
ever throws and every sample is passed on. -/
theorem ownership_iff {intf : Closures S Real} {size smp : Nat} {samples : Nat → Sample S}
    {trace : List (Writer S Real × Event Real)} {u : Writer S Real}
    (path : Path Step (opened intf size smp samples) trace u) :
    (∀ w ∈ states trace u, Owned w) ↔ ∀ p ∈ trace, Sends p.1 p.2 :=
  Path.good_iff_guarded (P := fun _ => True) (fun _ _ _ _ _ => trivial)
    (fun _ _ _ _ owned moved => step_owned_iff owned moved) path trivial
    (opened_owned intf size smp samples)

def writing (idx : Int32) : Writer (UInt32 × UInt32) Int :=
  opened (registered words .plain [⟨⟨.int,0⟩,idx⟩] []) 3 0 fun _ => ⟨0,0,64,fun _ => (0,0)⟩

def writes (smp : Nat) : Event Int := .write zeros ⟨some smp,[0,1]⟩

def written (smp : Nat) (w : Writer (UInt32 × UInt32) Int) : Writer (UInt32 × UInt32) Int :=
  match w.writeValues zeros ⟨some smp,[0,1]⟩ with
  | some (_,u) => u
  | none => w

theorem writes_step {w u : Writer (UInt32 × UInt32) Int} {smp : Nat} (free : w.pool.Free smp)
    (wrote : w.writeValues zeros ⟨some smp,[0,1]⟩ = some (ended,u)) (goes_on : ended ≠ .exited) :
    Step w (writes smp) u := by
  apply Step.write _ wrote goes_on
  rintro smp ⟨⟩
  exact free

theorem ownership_iff_written : Owned (written 1 (writing 63)) := by
  have moved : Step (writing 63) (writes 1) (written 1 (writing 63)) :=
    writes_step (by decide) rfl (by decide)
  refine (ownership_iff (Path.single moved)).mpr ?_ _ (final_mem_states _ _)
  rintro p member
  obtain rfl := List.mem_singleton.mp member
  refine ⟨?_,1,rfl,by decide⟩
  rintro smp ⟨⟩
  exact ⟨_,rfl⟩

/-- After two calls with an export beyond the capacity, a pool of three samples is used up: the
two that were allocated are lost, and the reader holds the last sample twice. -/
theorem failing_exports_leak : ∃ trace u, Path Step (writing 64) trace u ∧ u.mLastSample = 0 ∧
    u.pool.passed = [0,0] ∧ u.pool.refs 1 = 1 ∧ u.pool.refs 2 = 1 ∧ (∀ smp, ¬ u.pool.Free smp) ∧
    ¬ ∀ w ∈ states trace u, Owned w := by
  have first : Step (writing 64) (writes 1) (written 1 (writing 64)) :=
    writes_step (by decide) rfl (by decide)
  have second : Step (written 1 (writing 64)) (writes 2) (written 2 (written 1 (writing 64))) :=
    writes_step (by decide) rfl (by decide)
  refine ⟨_,_,.cons first (.single second),rfl,rfl,rfl,rfl,?_,?_⟩
  · rintro smp ⟨inside,unused⟩
    have three : smp < 3 := inside
    obtain rfl | rfl | rfl : smp = 0 ∨ smp = 1 ∨ smp = 2 := by omega
    all_goals exact absurd unused (by decide)
  · intro always
    exact (always _ (final_mem_states _ _)).last List.mem_cons_self

end Writer
end DPsim.Interface
