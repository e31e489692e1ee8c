import DPsim.InterfaceReads

/-! The imports of one interface undo the exports of another, through one sample. -/
namespace DPsim.Interface
open Updates

variable {S Real : Type}

/-- A value that a slot gives back, whatever was in the slot before. -/
def SampleType.Representable (T : SampleType S Real) {kind : Kind} (value : kind.Value Real) : Prop :=
  ∀ slot, T.load kind (T.store kind value slot) = value

theorem beyond_iff (T : SampleType S Real) {idx : Int32} (positive : 0 ≤ idx.toInt) (n : Nat) :
    T.beyond idx n = true ↔ (n : Int) ≤ idx.toInt := by
  have same : (idx.toUInt32.toNat : Int) = idx.toInt := by
    have split : idx.toInt = if 2 * idx.toUInt32.toNat < 2 ^ 32 then (idx.toUInt32.toNat : Int)
        else idx.toUInt32.toNat - 2 ^ 32 := BitVec.toInt_eq_toNat_cond idx.toBitVec
    have bound := idx.toUInt32.toNat_lt
    split at split <;> omega
  unfold SampleType.beyond
  split
  · rw [decide_eq_true_iff]
  · rw [decide_eq_true_iff]
    omega

def grown (length : Nat) (b : Binding) : Nat := max length (b.idx.toInt.toNat + 1)

def Fits (smp : Sample S) (exports : List Binding) : Prop :=
  ∀ b ∈ exports, 0 ≤ b.idx.toInt ∧ b.idx.toInt < smp.capacity

end DPsim.Interface
