import DPsim.InterfaceRoundTrip

/-! The closures of an `Interface` access by access: which slots of a sample a run of one touches and
what it leaves when it throws. Reading or writing an attribute may throw as well. -/
namespace DPsim.Interface

variable {S Real : Type}

/-- A typed pointer to an attribute, null or not, and the index it is bound to. -/
structure Slot where
  kind : Kind
  attr : Option Nat
  idx : Int32
  deriving DecidableEq, Repr

def Binding.slot (b : Binding) : Slot := ⟨b.attr.kind,some b.attr.address,b.idx⟩

def Slot.get (access : AttributeAccess Real) (values : Attributes Real) (slot : Slot) :
    Except Fault (slot.kind.Value Real) :=
  match slot.attr with
  | none => .error .nullPointer
  | some address => access.get values ⟨slot.kind,address⟩

def Slot.set (access : AttributeAccess Real) (values : Attributes Real) (slot : Slot)
    (value : slot.kind.Value Real) : Except Fault (Attributes Real) :=
  match slot.attr with
  | none => .error .nullPointer
  | some address => access.set values ⟨slot.kind,address⟩ value

/-- How a closure ends: with its own exception, or with what the attribute has thrown. -/
inductive Ran where
  | returned
  | refused (what : String)
  | passedOn (fault : Fault)
  deriving DecidableEq, Repr

/-- A run of a closure: the indices at which it has accessed `data`, what it leaves, how it ended. -/
structure Accessed (S Real : Type) where
  indices : List Int32
  smp : Sample S
  values : Attributes Real
  ended : Ran

section Closures
variable (T : SampleType S Real) (access : AttributeAccess Real)

/-- The closure of an `addExport`. The attribute is read before the slot is accessed. -/
def exportRun (slot : Slot) (values : Attributes Real) (smp : Sample S) : Accessed S Real :=
  if T.beyond slot.idx smp.capacity then ⟨[],smp,values,.refused "not enough space in allocated sample"⟩
  else
    let longer := { smp with
      length := if T.beyond slot.idx smp.length then slot.idx.toInt.toNat + 1 else smp.length }
    match slot.get access values with
    | .error fault => ⟨[],longer,values,.passedOn fault⟩
    | .ok value => ⟨[slot.idx],{ longer with
        data := Function.update smp.data slot.idx (T.store slot.kind value (smp.data slot.idx)) },values,.returned⟩

def importRun (slot : Slot) (smp : Sample S) (values : Attributes Real) : Accessed S Real :=
  if T.beyond slot.idx smp.length then ⟨[],smp,values,.refused "incomplete data received from interface"⟩
  else
    match slot.set access values (T.load slot.kind (smp.data slot.idx)) with
    | .error fault => ⟨[slot.idx],smp,values,.passedOn fault⟩
    | .ok values => ⟨[slot.idx],smp,values,.returned⟩

def Ran.thrown : Ran → Option Fault
  | .returned => none
  | .refused what => some (.exception what)
  | .passedOn fault => some fault

def exportClosure (slot : Slot) (values : Attributes Real) (smp : Sample S) : Except Fault (Sample S) :=
  match (exportRun T access slot values smp).ended.thrown with
  | none => .ok (exportRun T access slot values smp).smp
  | some fault => .error fault

def importClosure (slot : Slot) (smp : Sample S) (values : Attributes Real) : Except Fault (Attributes Real) :=
  match (importRun T access slot smp values).ended.thrown with
  | none => .ok (importRun T access slot smp values).values
  | some fault => .error fault

theorem exportClosure_slot (b : Binding) : exportClosure T access b.slot = exported T access b := by
  funext values smp
  unfold exportClosure exportRun exported
  by_cases past : T.beyond b.idx smp.capacity = true
  · simp [Binding.slot,Ran.thrown,past]
  · cases read : access.get values b.attr <;> simp [Binding.slot,Slot.get,Ran.thrown,past,read,Except.map]

theorem importClosure_slot (b : Binding) : importClosure T access b.slot = imported T access b := by
  funext smp values
  unfold importClosure importRun imported
  by_cases past : T.beyond b.idx smp.length = true
  · simp [Binding.slot,Ran.thrown,past]
  · cases set : access.set values b.attr (T.load b.attr.kind (smp.data b.idx)) <;>
      simp [Binding.slot,Slot.set,Ran.thrown,past,set]

end Closures

/-- The closure has thrown its own exception, or it has accessed its slot, which is one of the
sample's; when it throws, the length and the slots are as before. -/
structure SlotSafe (idx : Int32) (smp : Sample S) (r : Accessed S Real) : Prop where
  inside : ∀ i ∈ r.indices, 0 ≤ i.toInt ∧ i.toInt < smp.capacity
  either : (∃ what, r.ended = .refused what) ∨ idx ∈ r.indices
  kept : r.ended ≠ .returned → r.smp.length = smp.length ∧ r.smp.data = smp.data

section Safe
variable {T : SampleType S Real} {access : AttributeAccess Real}

/-- As ints, a negative index is below every length. -/
theorem beyond_negative (signed : T.signed = true) {idx : Int32} (negative : ¬ 0 ≤ idx.toInt) (n : Nat) :
    T.beyond idx n = false := by
  simp only [SampleType.beyond,signed,if_true,decide_eq_false_iff_not]
  omega

theorem export_safe_iff (signed : T.signed = true) (slot : Slot) (values : Attributes Real) (smp : Sample S) :
    SlotSafe slot.idx smp (exportRun T access slot values smp) ↔ 0 ≤ slot.idx.toInt ∧
      (slot.idx.toInt < smp.capacity → ∃ value, slot.get access values = .ok value) := by
  by_cases positive : 0 ≤ slot.idx.toInt
  · have room := beyond_iff T positive smp.capacity
    by_cases past : T.beyond slot.idx smp.capacity = true
    · have refused : exportRun T access slot values smp =
          ⟨[],smp,values,.refused "not enough space in allocated sample"⟩ := by
        simp [exportRun,past]
      rw [refused]
      have outside := room.mp past
      refine iff_of_true ⟨nofun,.inl ⟨_,rfl⟩,fun _ => ⟨rfl,rfl⟩⟩ ⟨positive,fun inside => ?_⟩
      omega
    · have inside : slot.idx.toInt < smp.capacity := by
        have := mt room.mpr past
        omega
      rw [Bool.not_eq_true] at past
      cases read : slot.get access values with
      | error fault =>
        apply iff_of_false
        · intro safe
          have either := safe.either
          simp [exportRun,past,read] at either
        · rintro ⟨_,readable⟩
          obtain ⟨value,fine⟩ := readable inside
          contradiction
      | ok value =>
        refine iff_of_true ⟨?_,?_,?_⟩ ⟨positive,fun _ => ⟨value,rfl⟩⟩
        all_goals simp [exportRun,past,read]
        exact ⟨positive,inside⟩
  · have past := beyond_negative signed positive smp.capacity
    apply iff_of_false
    · intro safe
      cases read : slot.get access values with
      | error fault =>
        have either := safe.either
        simp [exportRun,past,read] at either
      | ok value =>
        have inside := safe.inside slot.idx (by simp [exportRun,past,read])
        exact positive inside.1
    · exact fun fine => positive fine.1

theorem import_safe_iff (signed : T.signed = true) (slot : Slot) (values : Attributes Real) {smp : Sample S}
    (sized : smp.length ≤ smp.capacity) :
    SlotSafe slot.idx smp (importRun T access slot smp values) ↔ 0 ≤ slot.idx.toInt := by
  by_cases past : T.beyond slot.idx smp.length = true
  · have refused : importRun T access slot smp values =
        ⟨[],smp,values,.refused "incomplete data received from interface"⟩ := by
      simp [importRun,past]
    rw [refused]
    apply iff_of_true ⟨nofun,.inl ⟨_,rfl⟩,fun _ => ⟨rfl,rfl⟩⟩
    by_contra negative
    rw [beyond_negative signed negative] at past
    contradiction
  · have accessed : (importRun T access slot smp values).indices = [slot.idx] ∧
        (importRun T access slot smp values).smp = smp := by
      simp only [importRun,past,Bool.false_eq_true,if_false]
      split <;> exact ⟨rfl,rfl⟩
    constructor
    · intro safe
      exact (safe.inside slot.idx (by simp [accessed.1])).1
    · intro positive
      have room := mt (beyond_iff T positive smp.length).mpr past
      refine ⟨?_,.inr (by simp [accessed.1]),fun _ => by simp [accessed.2]⟩
      rw [accessed.1]
      rintro i member
      obtain rfl := List.mem_singleton.mp member
      exact ⟨positive,by omega⟩

theorem export_sized {slot : Slot} (values : Attributes Real) {smp : Sample S} (positive : 0 ≤ slot.idx.toInt)
    (sized : smp.length ≤ smp.capacity) :
    (exportRun T access slot values smp).smp.length ≤ (exportRun T access slot values smp).smp.capacity ∧
      (exportRun T access slot values smp).smp.capacity = smp.capacity := by
  have room := beyond_iff T positive smp.capacity
  unfold exportRun
  by_cases past : T.beyond slot.idx smp.capacity = true
  · simp [past,sized]
  · have inside := mt room.mpr past
    rw [Bool.not_eq_true] at past
    simp only [past,Bool.false_eq_true,if_false]
    split
    all_goals
      refine ⟨?_,rfl⟩
      dsimp only
      split <;> omega

end Safe
end DPsim.Interface
