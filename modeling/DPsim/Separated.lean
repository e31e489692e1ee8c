import Mathlib.Data.List.Basic

/-! Text in pieces: the pieces between separators and before terminators, and what splitting gives
back of them. -/
namespace Separated

variable {α : Type}

/-- The first piece, and the others with a separator before each. -/
def joined (sep : α) (first : List α) (rest : List (List α)) : List α := first ++ rest.flatMap (sep :: ·)

def terminated (sep : α) (pieces : List (List α)) : List α := pieces.flatMap (· ++ [sep])

theorem length_pieces [BEq α] (sep : α) (pieces : List (List α)) :
    pieces.length ≤ (pieces.flatMap (·.splitOn sep)).length := by
  induction pieces with
  | nil => exact Nat.zero_le _
  | cons piece pieces ih =>
    have some := List.length_pos_iff.mpr (List.splitOn_ne_nil sep piece)
    simp only [List.flatMap_cons,List.length_append,List.length_cons]
    omega

variable [BEq α] [LawfulBEq α]

theorem splitOn_joined (sep : α) (first : List α) (rest : List (List α)) :
    (joined sep first rest).splitOn sep = first.splitOn sep ++ rest.flatMap (·.splitOn sep) := by
  induction rest generalizing first with
  | nil => simp [joined]
  | cons piece rest ih =>
    have split := List.splitOn_append_cons_self first (piece ++ rest.flatMap (sep :: ·)) (a := sep)
    rw [joined,List.flatMap_cons,List.cons_append,split]
    rw [show piece ++ rest.flatMap (sep :: ·) = joined sep piece rest from rfl,ih,List.flatMap_cons]

theorem splitOn_terminated (sep : α) (pieces : List (List α)) :
    (terminated sep pieces).splitOn sep = pieces.flatMap (·.splitOn sep) ++ [[]] := by
  induction pieces with
  | nil => simp [terminated]
  | cons piece pieces ih =>
    have split := List.splitOn_append_cons_self piece (terminated sep pieces) (a := sep)
    rw [show terminated sep (piece :: pieces) = piece ++ sep :: terminated sep pieces by simp [terminated],
      split,ih,List.flatMap_cons,List.append_assoc]

/-- A text without the separator is one piece. -/
theorem length_splitOn_iff (sep : α) (text : List α) : (text.splitOn sep).length = 1 ↔ sep ∉ text := by
  constructor
  · intro one member
    obtain ⟨before,after,rfl⟩ := List.append_of_mem member
    rw [List.splitOn_append_cons_self,List.length_append] at one
    have first := List.length_pos_iff.mpr (List.splitOn_ne_nil sep before)
    have second := List.length_pos_iff.mpr (List.splitOn_ne_nil sep after)
    omega
  · intro none
    rw [List.splitOn_eq_singleton none]
    rfl

theorem splitOn_pieces {sep : α} {pieces : List (List α)} (plain : ∀ piece ∈ pieces, sep ∉ piece) :
    pieces.flatMap (·.splitOn sep) = pieces := by
  induction pieces with
  | nil => rfl
  | cons piece pieces ih =>
    simp only [List.mem_cons,forall_eq_or_imp] at plain
    rw [List.flatMap_cons,List.splitOn_eq_singleton plain.1,ih plain.2,List.singleton_append]

/-- As many pieces come back as there are exactly if none of them holds the separator. -/
theorem length_pieces_iff (sep : α) (pieces : List (List α)) :
    (pieces.flatMap (·.splitOn sep)).length = pieces.length ↔ ∀ piece ∈ pieces, sep ∉ piece := by
  constructor
  · intro same
    induction pieces with
    | nil => simp
    | cons piece pieces ih =>
      have some := List.length_pos_iff.mpr (List.splitOn_ne_nil sep piece)
      have rest := length_pieces sep pieces
      simp only [List.flatMap_cons,List.length_append,List.length_cons] at same
      simp only [List.mem_cons,forall_eq_or_imp]
      exact ⟨(length_splitOn_iff sep piece).mp (by omega),ih (by omega)⟩
  · intro plain
    rw [splitOn_pieces plain]

end Separated
