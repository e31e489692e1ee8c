import Mathlib.Data.List.Basic

/-! A stream without boundaries between its messages, read in frames of one length. However the stream
is cut into pieces on its way, the frames are those of the whole. -/
namespace Framing

variable {α : Type u} {β : Type v}

/-- The complete frames of the items, behind those that are held of an incomplete one, and what is
left. -/
def cut (k : Nat) : List α → List α → List (List α) × List α
  | held, [] => ([],held)
  | held, item :: items =>
    if held.length = k then
      let later := cut k [] items
      ((held ++ [item]) :: later.1,later.2)
    else cut k (held ++ [item]) items

variable {k : Nat}

theorem cut_short {held items : List α} (short : held.length + items.length ≤ k) :
    cut k held items = ([],held ++ items) := by
  induction items generalizing held with
  | nil => simp [cut]
  | cons item items ih =>
    rw [List.length_cons] at short
    have more : (held ++ [item]).length + items.length ≤ k := by
      rw [List.length_append,List.length_singleton]
      omega
    rw [cut,if_neg (by omega),ih more,List.append_assoc]
    rfl

theorem cut_frame {held frame : List α} (begun : held.length ≤ k) (whole : held.length + frame.length = k + 1)
    (rest : List α) :
    cut k held (frame ++ rest) = ((held ++ frame) :: (cut k [] rest).1,(cut k [] rest).2) := by
  induction frame generalizing held with
  | nil =>
    rw [List.length_nil] at whole
    omega
  | cons item frame ih =>
    rw [List.length_cons] at whole
    rw [List.cons_append,cut]
    split
    · obtain rfl : frame = [] := List.eq_nil_of_length_eq_zero (by omega)
      rfl
    · have longer : (held ++ [item]).length = held.length + 1 := by simp
      rw [ih (by omega) (by omega),List.append_assoc]
      rfl

theorem cut_rest {held : List α} (begun : held.length ≤ k) (items : List α) : (cut k held items).2.length ≤ k := by
  induction items generalizing held with
  | nil => exact begun
  | cons item items ih =>
    rw [cut]
    split
    · exact ih (Nat.zero_le k)
    · apply ih
      rw [List.length_append,List.length_singleton]
      omega

/-- Cutting loses nothing. -/
theorem cut_length (held items : List α) :
    (cut k held items).1.length * (k + 1) + (cut k held items).2.length = held.length + items.length := by
  induction items generalizing held with
  | nil => simp [cut]
  | cons item items ih =>
    rw [cut]
    split
    · have later := ih []
      rw [List.length_nil] at later
      simp only [List.length_cons,Nat.add_mul,Nat.one_mul]
      omega
    · rw [ih,List.length_append,List.length_singleton,List.length_cons]
      omega

theorem cut_cases (items : List α) : items.length ≤ k ∨
    ∃ frame rest, items = frame ++ rest ∧ frame.length = k + 1 := by
  by_cases short : items.length ≤ k
  · exact .inl short
  · refine .inr ⟨items.take (k + 1),items.drop (k + 1),(List.take_append_drop ..).symm,?_⟩
    rw [List.length_take]
    omega

/-- When a part of the encoded messages has arrived, its frames are the first messages, and what is
left of it begins the next ones. -/
theorem cut_arrived {encode : β → List α} (whole : ∀ message, (encode message).length = k + 1)
    (messages : List β) {arrived later : List α} (split : messages.flatMap encode = arrived ++ later) :
    ∃ heard rest, messages = heard ++ rest ∧ (cut k [] arrived).1 = heard.map encode ∧
      (cut k [] arrived).2 ++ later = rest.flatMap encode := by
  have short {items : List α} (few : items.length ≤ k) : cut k [] items = ([],items) :=
    cut_short (by rwa [List.length_nil,Nat.zero_add])
  induction messages generalizing arrived with
  | nil =>
    obtain ⟨rfl,rfl⟩ := List.append_eq_nil_iff.mp split.symm
    exact ⟨[],[],rfl,rfl,rfl⟩
  | cons message messages ih =>
    rcases cut_cases (k := k) arrived with few | ⟨frame,rest,rfl,frame_whole⟩
    · refine ⟨[],message :: messages,rfl,?_,?_⟩ <;> rw [short few]
      · rfl
      · exact split.symm
    · rw [List.flatMap_cons,List.append_assoc] at split
      obtain ⟨same,others⟩ := List.append_inj split ((whole message).trans frame_whole.symm)
      obtain ⟨heard,left,parts,frames,kept⟩ := ih others
      rw [cut_frame (Nat.zero_le k) (by rw [List.length_nil,Nat.zero_add]; exact frame_whole)]
      refine ⟨message :: heard,left,congrArg (message :: ·) parts,?_,kept⟩
      rw [frames,List.nil_append,← same,List.map_cons]

end Framing
