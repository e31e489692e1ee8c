import DPsim.Getopt

/-! Which long option an abbreviation stands for. -/
namespace DPsim.Getopt

inductive Choice where
  | unknown
  | ambiguous
  | found (i : Nat) (o : LongOption)
  deriving DecidableEq, Repr

def pick : List (LongOption × Nat) → Choice
  | [] => .unknown
  | (o,i) :: others =>
    if others.all fun p => identicalInterpretation p.1 o then .found i o else .ambiguous

def candidates (table : List LongOption) (key : CString) : List (LongOption × Nat) :=
  table.zipIdx.filter fun p => key.isPrefixOf p.1.name

/-- The option of that name, else the one among the candidates. -/
def select (table : List LongOption) (key : CString) : Choice :=
  match table.zipIdx.find? fun p => p.1.name = key with
  | some (o,i) => .found i o
  | none => pick (candidates table key)

/-- What the loop makes of the candidates that are left. -/
def resume (found : Option (Nat × LongOption)) (ambiguous : Bool) (rest : List (LongOption × Nat)) :
    Option (Nat × LongOption) × Bool :=
  match found, rest with
  | some first, rest => (some first, ambiguous || !rest.all fun p => identicalInterpretation p.1 first.2)
  | none, [] => (none, ambiguous)
  | none, (o,i) :: others =>
    (some (i,o), ambiguous || !others.all fun p => identicalInterpretation p.1 o)

section Search
variable {key tail : CString}

theorem strncmp_start (name : CString) :
    (key ++ tail).take key.length = name.take key.length ↔ key.isPrefixOf name = true := by
  rw [List.take_left,List.isPrefixOf_iff_prefix,List.prefix_iff_eq_take]

theorem exact_start {name : CString} (prefix_ : key.isPrefixOf name = true) :
    name.length = key.length ↔ name = key := by
  constructor
  · intro same
    exact ((List.isPrefixOf_iff_prefix.mp prefix_).eq_of_length same.symm).symm
  · exact congrArg List.length

theorem findLong_exact {table : List LongOption} {o : LongOption} {j : Nat}
    (hit : (table.zipIdx i).find? (fun p => p.1.name = key) = some (o,j))
    (found : Option (Nat × LongOption)) (ambiguous : Bool) :
    findLong (key ++ tail) key.length false table i found ambiguous = (some (j,o),false) := by
  induction table generalizing i found ambiguous with
  | nil => simp at hit
  | cons first table ih =>
    rw [List.zipIdx_cons,List.find?_cons] at hit
    by_cases here : first.name = key
    · simp only [here,decide_true,Option.some.injEq,Prod.mk.injEq] at hit
      obtain ⟨rfl,rfl⟩ := hit
      simp [findLong,here]
    · simp only [here,decide_false] at hit
      rw [findLong]
      by_cases starts : key.isPrefixOf first.name = true
      · rw [if_neg (not_not_intro ((strncmp_start first.name).mpr starts)),
          if_neg (mt (exact_start starts).mp here)]
        cases found <;> exact ih hit _ _
      · rw [if_pos (mt (strncmp_start first.name).mp starts)]
        exact ih hit _ _

theorem findLong_resume {table : List LongOption}
    (miss : (table.zipIdx i).find? (fun p => p.1.name = key) = none)
    (found : Option (Nat × LongOption)) (ambiguous : Bool) :
    findLong (key ++ tail) key.length false table i found ambiguous =
      resume found ambiguous ((table.zipIdx i).filter fun p => key.isPrefixOf p.1.name) := by
  induction table generalizing i found ambiguous with
  | nil => cases found <;> simp [findLong,resume]
  | cons first table ih =>
    rw [List.zipIdx_cons,List.find?_cons] at miss
    have here : first.name ≠ key := by
      intro same
      simp [same] at miss
    simp only [here,decide_false] at miss
    rw [findLong,List.zipIdx_cons,List.filter_cons]
    by_cases starts : key.isPrefixOf first.name = true
    · rw [if_neg (not_not_intro ((strncmp_start first.name).mpr starts)),
        if_neg (mt (exact_start starts).mp here),if_pos starts]
      cases found with
      | none =>
        have later := ih miss (some (i,first)) ambiguous
        simpa [resume] using later
      | some known =>
        have later := ih miss (some known) (ambiguous || !identicalInterpretation first known.2)
        simpa [resume,Bool.or_assoc] using later
    · rw [if_pos (mt (strncmp_start first.name).mp starts),if_neg starts]
      exact ih miss found ambiguous

theorem findLong_select (table : List LongOption) (key tail : CString) :
    findLong (key ++ tail) key.length false table 0 none false =
      match select table key with
      | .unknown => (none,false)
      | .found i o => (some (i,o),false)
      | .ambiguous => ((candidates table key).head?.map Prod.swap,true) := by
  cases hit : table.zipIdx.find? fun p => p.1.name = key with
  | some p => simp [select,hit,findLong_exact hit]
  | none =>
    rw [findLong_resume hit,← candidates,select,hit]
    cases list : candidates table key with
    | nil => rfl
    | cons p others =>
      simp only [resume,pick,Bool.false_or]
      cases others.all fun q => identicalInterpretation q.1 p.1 <;> rfl

theorem mem_candidates {table : List LongOption} {o : LongOption} {i : Nat} :
    (o,i) ∈ candidates table key ↔ table[i]? = some o ∧ key <+: o.name := by
  rw [candidates,List.mem_filter,List.mem_zipIdx_iff_getElem?,List.isPrefixOf_iff_prefix]

/-- No two options have a name or all of their other fields in common. -/
structure Distinct (table : List LongOption) : Prop where
  names : (table.map LongOption.name).Nodup
  apart : table.Pairwise fun x y => identicalInterpretation x y = false

theorem identicalInterpretation_comm (x y : LongOption) :
    identicalInterpretation x y = identicalInterpretation y x := by
  simp only [identicalInterpretation]
  grind

theorem Distinct.same {table : List LongOption} (distinct : Distinct table) {o p : LongOption} {i j : Nat}
    (here : table[i]? = some o) (there : table[j]? = some p)
    (identical : identicalInterpretation p o = true) : j = i := by
  obtain ⟨hi,rfl⟩ := List.getElem?_eq_some_iff.mp here
  obtain ⟨hj,rfl⟩ := List.getElem?_eq_some_iff.mp there
  have apart := List.pairwise_iff_getElem.mp distinct.apart
  rcases Nat.lt_trichotomy i j with before | same | after
  · have := apart i j hi hj before
    rw [identicalInterpretation_comm,identical] at this
    contradiction
  · exact same.symm
  · have := apart j i hj hi after
    rw [identical] at this
    contradiction

theorem Distinct.named {table : List LongOption} (distinct : Distinct table) {o p : LongOption} {i j : Nat}
    (here : table[i]? = some o) (there : table[j]? = some p) (same : o.name = p.name) : j = i := by
  obtain ⟨hi,rfl⟩ := List.getElem?_eq_some_iff.mp here
  obtain ⟨hj,rfl⟩ := List.getElem?_eq_some_iff.mp there
  have in_names {n : Nat} (h : n < table.length) : n < (table.map LongOption.name).length := by
    rwa [List.length_map]
  have equal : (table.map LongOption.name).get ⟨j,in_names hj⟩ = (table.map LongOption.name).get ⟨i,in_names hi⟩ := by
    simpa using same.symm
  exact (List.Nodup.getElem_inj_iff distinct.names).mp equal

/-- The option that an abbreviation is taken for: the one of that name, or the only one whose name
starts so. -/
theorem select_found_iff {table : List LongOption} (distinct : Distinct table) {i : Nat} {o : LongOption} :
    select table key = .found i o ↔ table[i]? = some o ∧
      (o.name = key ∨ key <+: o.name ∧ ∀ j p, table[j]? = some p → key <+: p.name → j = i) := by
  rw [select]
  cases hit : table.zipIdx.find? fun p => p.1.name = key with
  | some q =>
    obtain ⟨p,j⟩ := q
    have there := List.mem_zipIdx_iff_getElem?.mp (List.mem_of_find?_eq_some hit)
    have exact_ : p.name = key := by simpa using List.find?_some hit
    constructor
    · rintro ⟨⟩
      exact ⟨there,.inl exact_⟩
    · rintro ⟨here,same | ⟨_,only⟩⟩
      · obtain rfl := distinct.named here there (same.trans exact_.symm)
        rw [here] at there
        cases there
        rfl
      · obtain rfl := only j p there (exact_ ▸ List.prefix_rfl)
        rw [here] at there
        cases there
        rfl
  | none =>
    have other (j : Nat) (p : LongOption) (there : table[j]? = some p) : p.name ≠ key := by
      have := List.find?_eq_none.mp hit (p,j) (List.mem_zipIdx_iff_getElem?.mpr there)
      simpa using this
    cases list : candidates table key with
    | nil =>
      constructor
      · intro none
        contradiction
      · rintro ⟨here,same | ⟨starts,_⟩⟩
        · exact absurd same (other i o here)
        · have := mem_candidates.mpr ⟨here,starts⟩
          rw [list] at this
          contradiction
    | cons q others =>
      obtain ⟨p,j⟩ := q
      have first := mem_candidates.mp (list ▸ List.mem_cons_self : (p,j) ∈ candidates table key)
      simp only [pick]
      split
      · rename_i identical
        -- then there is no other one, as the options can be told apart
        have only (k : Nat) (q : LongOption) (there : table[k]? = some q) (starts : key <+: q.name) : k = j := by
          have member := mem_candidates.mpr ⟨there,starts⟩
          rw [list] at member
          rcases List.mem_cons.mp member with same | later
          · exact congrArg Prod.snd same
          · exact distinct.same first.1 there (List.all_eq_true.mp identical _ later)
        constructor
        · rintro ⟨⟩
          exact ⟨first.1,.inr ⟨first.2,only⟩⟩
        · rintro ⟨here,same | ⟨starts,_⟩⟩
          · exact absurd same (other i o here)
          · obtain rfl := only i o here starts
            rw [first.1] at here
            cases here
            rfl
      · rename_i different
        constructor
        · intro none
          contradiction
        · rintro ⟨here,same | ⟨_,only⟩⟩
          · exact absurd same (other i o here)
          · exfalso
            apply different
            apply List.all_eq_true.mpr
            rintro ⟨q,k⟩ later
            have there := mem_candidates.mp (list ▸ List.mem_cons_of_mem (p,j) later)
            have sameFirst := only j p first.1 first.2
            have sameLater := only k q there.1 there.2
            subst sameFirst sameLater
            rw [first.1] at there
            cases there.1
            simp [identicalInterpretation]

theorem findLong_found_iff {table : List LongOption} (distinct : Distinct table) {i : Nat} {o : LongOption} :
    findLong (key ++ tail) key.length false table 0 none false = (some (i,o),false) ↔
      table[i]? = some o ∧
        (o.name = key ∨ key <+: o.name ∧ ∀ j p, table[j]? = some p → key <+: p.name → j = i) := by
  rw [findLong_select,← select_found_iff distinct]
  cases select table key <;> simp

theorem findLong_found_iff_start :
    findLong ("start-a".toList ++ "=0".toList) "start-a".toList.length false
        [⟨"start-at".toList,.required_argument,none,97⟩,⟨"start-in".toList,.required_argument,none,105⟩]
        0 none false = (some (0,⟨"start-at".toList,.required_argument,none,97⟩),false) := by
  refine (findLong_found_iff ⟨by decide,by decide⟩).mpr ⟨rfl,.inr ⟨by decide,?_⟩⟩
  rintro (_ | _ | j) p there starts
  · rfl
  · cases there
    exact absurd starts (by decide)
  · contradiction

end Search
end DPsim.Getopt
