import DPsim.Separated
import Mathlib.Data.List.Nodup

/-! Tables as text: a record on each line, with separated fields that blanks may precede, and the
names of the columns in the first record. -/
namespace Separated

variable {α : Type}

def padded (blank : α) (field : Nat × List α) : List α := List.replicate field.1 blank ++ field.2

/-- A line for a record with at least one field. -/
def line (sep blank : α) (record : (Nat × List α) × List (Nat × List α)) : List α :=
  joined sep (padded blank record.1) (record.2.map (padded blank))

def values (record : (Nat × List α) × List (Nat × List α)) : List (List α) :=
  (record.1 :: record.2).map Prod.snd

variable [BEq α]

def unpadded (blank : α) (piece : List α) : List α := piece.dropWhile (· == blank)

def records (sep term blank : α) (text : List α) : List (List (List α)) :=
  (text.splitOn term).dropLast.map fun line => (line.splitOn sep).map (unpadded blank)

/-- What the records hold below a name; one without a field there makes the column unreadable. -/
def readColumn (table : List (List (List α))) (name : List α) : Option (List (List α)) :=
  match table with
  | [] => none
  | header :: rows => (header.idxOf? name).bind fun i => rows.mapM fun row => row[i]?

variable [LawfulBEq α] {sep term blank : α}

theorem unpadded_padded {field : Nat × List α} (solid : blank ∉ field.2) :
    unpadded blank (padded blank field) = field.2 := by
  obtain ⟨n,text⟩ := field
  change blank ∉ text at solid
  change unpadded blank (padded blank (n,text)) = text
  induction n with
  | zero =>
    cases text with
    | nil => rfl
    | cons a text =>
      have visible : a ≠ blank := Ne.symm (List.ne_of_not_mem_cons solid)
      exact List.dropWhile_cons_of_neg (by simpa using visible)
  | succ n ih =>
    have first : unpadded blank (padded blank (n + 1,text)) = unpadded blank (padded blank (n,text)) :=
      List.dropWhile_cons_of_pos (by simp)
    exact first.trans ih

omit [BEq α] [LawfulBEq α] in
theorem mem_padded {c : α} (visible : c ≠ blank) (field : Nat × List α) :
    c ∈ padded blank field ↔ c ∈ field.2 := by
  simp [padded,visible]

omit [BEq α] [LawfulBEq α] in
theorem line_plain {c : α} {record : (Nat × List α) × List (Nat × List α)} (other : c ≠ sep)
    (visible : c ≠ blank) (plain : ∀ field ∈ values record, c ∉ field) : c ∉ line sep blank record := by
  have clean {field : Nat × List α} (member : field ∈ record.1 :: record.2) : c ∉ padded blank field := by
    simpa [padded,visible] using plain field.2 (List.mem_map_of_mem member)
  intro member
  rcases List.mem_append.mp member with first | rest
  · exact clean List.mem_cons_self first
  · simp only [List.mem_flatMap,List.mem_map,List.mem_cons] at rest
    obtain ⟨_,⟨field,inside,rfl⟩,same | there⟩ := rest
    · exact other same
    · exact clean (List.mem_cons_of_mem _ inside) there

theorem line_fields {record : (Nat × List α) × List (Nat × List α)} (visible : sep ≠ blank)
    (plain : ∀ field ∈ values record, sep ∉ field ∧ blank ∉ field) :
    ((line sep blank record).splitOn sep).map (unpadded blank) = values record := by
  have clean : ∀ piece ∈ (record.1 :: record.2).map (padded blank), sep ∉ piece := by
    simp only [List.forall_mem_map]
    intro field member
    rw [mem_padded visible]
    exact (plain field.2 (List.mem_map_of_mem member)).1
  have pieces : (line sep blank record).splitOn sep = (record.1 :: record.2).map (padded blank) := by
    rw [line,splitOn_joined,← List.flatMap_cons]
    exact splitOn_pieces clean
  rw [pieces,List.map_map,values]
  apply List.map_congr_left
  intro field member
  exact unpadded_padded (plain field.2 (List.mem_map_of_mem member)).2

theorem records_written {table : List ((Nat × List α) × List (Nat × List α))} (other : term ≠ sep)
    (unblank : term ≠ blank) (visible : sep ≠ blank)
    (plain : ∀ record ∈ table, ∀ field ∈ values record, term ∉ field ∧ sep ∉ field ∧ blank ∉ field) :
    records sep term blank (terminated term (table.map (line sep blank))) = table.map values := by
  have lines : ∀ piece ∈ table.map (line sep blank), term ∉ piece := by
    simp only [List.forall_mem_map]
    intro record member
    exact line_plain other unblank fun field inside => (plain record member field inside).1
  rw [records,splitOn_terminated,splitOn_pieces lines,List.dropLast_concat,List.map_map]
  apply List.map_congr_left
  intro record member
  exact line_fields visible fun field inside => (plain record member field inside).2

theorem mapM_some_iff {β γ : Type} {f : β → Option γ} {xs : List β} {ys : List γ} :
    xs.mapM f = some ys ↔ xs.map f = ys.map some := by
  induction xs generalizing ys with
  | nil => cases ys <;> simp
  | cons x xs ih =>
    simp only [List.mapM_cons,List.map_cons,Option.bind_eq_bind,Option.bind_eq_some_iff,Option.pure_def,
      Option.some.injEq]
    constructor
    · rintro ⟨y,value,zs,rest,rfl⟩
      rw [value,ih.mp rest,List.map_cons]
    · intro same
      obtain ⟨y,zs,rfl,value,rest⟩ := List.map_eq_cons_iff.mp same.symm
      exact ⟨y,value.symm,zs,ih.mpr rest.symm,rfl⟩

/-- A column comes back under every name, as long as no two columns have the same. -/
theorem readColumn_iff {header : List (List α)} (single : header.Nodup) {rows : List (List (List α))}
    {name : List α} {column : List (List α)} : readColumn (header :: rows) name = some column ↔
      ∃ i : Nat, header[i]? = some name ∧ rows.map (fun row => row[i]?) = column.map some := by
  rw [readColumn,Option.bind_eq_some_iff]
  constructor
  · rintro ⟨i,found,column⟩
    obtain ⟨inside,rfl,_⟩ := List.idxOf?_eq_some_iff.mp found
    exact ⟨i,List.getElem?_eq_getElem inside,mapM_some_iff.mp column⟩
  · rintro ⟨i,at_,column⟩
    obtain ⟨inside,rfl⟩ := List.getElem?_eq_some_iff.mp at_
    refine ⟨i,List.idxOf?_eq_some_iff.mpr ⟨inside,rfl,fun j before same => ?_⟩,mapM_some_iff.mpr column⟩
    have equal := single.getElem_inj_iff.mp same
    omega

end Separated
