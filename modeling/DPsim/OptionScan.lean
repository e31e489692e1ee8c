import DPsim.LongOptions

/-! The parser against one pass over the arguments: what the calls report one after another, and how
they leave the vector. -/
namespace DPsim.Getopt

/-- The value of a call, the argument of the option, and what was printed. -/
structure Report where
  c : Int
  optarg : Option CString
  printed : List Warning
  deriving DecidableEq, Repr

section Spec
variable (options : CString) (table : List LongOption)

/-- A long option with the arguments behind it, and how many of these it takes. -/
def longReport (text : CString) (rest : List CString) : Report × Nat :=
  let key := text.takeWhile (· ≠ '=')
  let value := (text.dropWhile (· ≠ '=')).tail?
  match select table key with
  | .ambiguous => (⟨BADCH,none,warnx options (.ambig key)⟩,0)
  | .unknown => (⟨BADCH,none,warnx options (.illoptstring text)⟩,0)
  | .found _ o =>
    match o.has_arg, value with
    | .no_argument, some _ => (⟨BADARG options,none,warnx options (.noarg key)⟩,0)
    | .required_argument, none =>
      match rest with
      | [] => (⟨BADARG options,none,warnx options (.recargstring text)⟩,0)
      | next :: _ => (⟨o.optopt,some next,[]⟩,1)
    | _, value => (⟨o.optopt,value,[]⟩,0)

inductive Letter where
  | unknown
  | long
  | plain
  | optional
  | required
  deriving DecidableEq, Repr

/-- What the letters that the caller has passed say about one. -/
def letter (c : Char) : Letter :=
  match options.dropWhile (· ≠ c) with
  | [] => .unknown
  | _ :: oli =>
    if c = ':' then .unknown
    else if c = 'W' ∧ oli[0]? = some ';' then .long
    else if oli[0]? ≠ some ':' then .plain
    else if oli[1]? = some ':' then .optional
    else .required

/-- A group of letters behind a `-`; another `-` starts a long option. -/
def letterReports : CString → List CString → List Report × Nat
  | [], _ => ([],0)
  | c :: text, rest =>
    if c = '-' then
      let (report,taken) := longReport options table text rest
      ([report],taken)
    else
      match letter options c with
      | .unknown =>
        let (reports,taken) := letterReports text rest
        (⟨BADCH,none,warnx options (.illoptchar c)⟩ :: reports,taken)
      | .plain =>
        let (reports,taken) := letterReports text rest
        (⟨c.toNat,none,[]⟩ :: reports,taken)
      | .optional => ([⟨c.toNat,if text = [] then none else some text,[]⟩],0)
      | .required =>
        if text ≠ [] then ([⟨c.toNat,some text,[]⟩],0)
        else
          match rest with
          | [] => ([⟨BADARG options,none,warnx options (.recargchar c)⟩],0)
          | next :: _ => ([⟨c.toNat,some next,[]⟩],1)
      | .long =>
        if text ≠ [] then
          let (report,taken) := longReport options table text rest
          ([report],taken)
        else
          match rest with
          | [] => ([⟨BADARG options,none,warnx options (.recargchar c)⟩],0)
          | next :: rest =>
            let (report,taken) := longReport options table next rest
            ([report],taken+1)

/-- The reports, the arguments that belong to options, and the others. -/
structure Parsed where
  reports : List Report := []
  options : List CString := []
  positional : List CString := []
  deriving DecidableEq, Repr

def parse (permute allargs : Bool) : List CString → Parsed
  | [] => {}
  | arg :: rest =>
    if isNonoption options arg then
      if allargs then
        let later := parse permute allargs rest
        ⟨⟨INORDER,some arg,[]⟩ :: later.reports,arg :: later.options,later.positional⟩
      else if permute then
        let later := parse permute allargs rest
        { later with positional := arg :: later.positional }
      else { positional := arg :: rest }
    else if arg = ['-','-'] then { options := [arg], positional := rest }
    else
      let (reports,taken) := letterReports options table arg.tail rest
      let later := parse permute allargs (rest.drop taken)
      ⟨reports ++ later.reports,arg :: rest.take taken ++ later.options,later.positional⟩
termination_by args => args.length
decreasing_by all_goals simp; try omega

end Spec

/-! What stands where between the calls. -/

structure Layout (nargc : Nat) (before skipped behind rest : List CString) (s : State) : Prop where
  vector : s.nargv = before ++ (skipped ++ (behind ++ rest))
  count : nargc = before.length + skipped.length + behind.length + rest.length
  program : 0 < before.length
  index : s.optind = before.length + skipped.length + behind.length
  reset : s.optreset = false
  first : s.nonopt_start = if skipped = [] then none else some before.length
  joined : skipped = [] → behind = []

structure Between (nargc : Nat) (before skipped behind rest : List CString) (s : State) : Prop extends
    Layout nargc before skipped behind rest s where
  place : s.place = []
  last : s.nonopt_end = if behind = [] then none else some (before.length + skipped.length)

structure Inside (nargc : Nat) (before skipped behind : List CString) (arg : CString)
    (rest : List CString) (s : State) : Prop extends
    Layout nargc before skipped behind (arg :: rest) s where
  last : s.nonopt_end = if skipped = [] then none else some (before.length + skipped.length)

structure Finished (argv : List CString) (index : Nat) (s t : State) : Prop where
  vector : t.nargv = argv
  index : t.optind = index
  place : t.place = []
  reset : t.optreset = false
  first : t.nonopt_start = none
  last : t.nonopt_end = none
  printed : t.stderr = s.stderr

section Start
variable {nargc : Nat} {before skipped behind rest : List CString} {s : State}
  {options : CString} {permute allargs : Bool}

theorem Between.permuted (at_ : Between nargc before skipped behind rest s) (some_behind : behind ≠ []) :
    skipped ≠ [] ∧ s.nonopt_start = some before.length ∧
    s.nonopt_end = some (before.length + skipped.length) ∧
    permute_args before.length (before.length + skipped.length) s.optind s.nargv =
      some (before ++ (behind ++ (skipped ++ rest))) := by
  have some_skipped : skipped ≠ [] := fun none => some_behind (at_.joined none)
  refine ⟨some_skipped,by rw [at_.first,if_neg some_skipped],by rw [at_.last,if_neg some_behind],?_⟩
  rw [at_.vector,at_.index]
  exact permute_args_exchange before skipped behind rest some_skipped some_behind

theorem start_argument (at_ : Between nargc before skipped behind (arg :: rest) s) :
    s.nargv[s.optind]? = some arg ∧ ¬ nargc ≤ s.optind := by
  constructor
  · rw [at_.vector,at_.index]
    grind
  · have := at_.count
    have := at_.index
    simp only [List.length_cons] at *
    omega

variable (options permute allargs) in
theorem start_end (at_ : Between nargc before skipped behind [] s) :
    ∃ t, start nargc options permute allargs s = some (.returned (-1) t) ∧
      Finished (before ++ (behind ++ skipped)) (before.length + behind.length) s t := by
  have past : nargc ≤ s.optind := by
    have := at_.count
    have := at_.index
    simp only [List.length_nil] at *
    omega
  rw [start,if_pos (.inr at_.place),if_pos past,finishVector]
  have reset := at_.reset
  have index := at_.index
  by_cases none_behind : behind = []
  · have last := at_.last
    have vector := at_.vector
    subst none_behind
    by_cases none_skipped : skipped = []
    · have first := at_.first
      subst none_skipped
      simp only [if_true] at first last
      simp only [first,last]
      exact ⟨_,rfl,by simpa using vector,by simpa using index,rfl,rfl,rfl,rfl,rfl⟩
    · have first := at_.first
      rw [if_neg none_skipped] at first
      rw [if_pos rfl] at last
      simp only [first,last]
      exact ⟨_,rfl,by simpa using vector,by simp,rfl,rfl,rfl,rfl,rfl⟩
  · obtain ⟨_,first,last,permuted⟩ := at_.permuted none_behind
    simp only [first,last,permuted]
    exact ⟨_,rfl,by simp,by simp only; omega,rfl,rfl,rfl,rfl,rfl⟩

theorem start_skip (at_ : Between nargc before skipped behind (arg :: rest) s)
    (nonoption : isNonoption options arg = true) :
    ∃ t, start nargc options true false s = start nargc options true false t ∧
      Between nargc (before ++ behind) (skipped ++ [arg]) [] rest t ∧
      t.stderr = s.stderr ∧ t.optarg = s.optarg := by
  obtain ⟨here,inside⟩ := start_argument at_
  have count : nargc = (before ++ behind).length + (skipped ++ [arg]).length + 0 + rest.length := by
    have := at_.count
    simp only [List.length_append,List.length_cons,List.length_nil] at *
    omega
  have index := at_.index
  have program : 0 < (before ++ behind).length := by
    have := at_.program
    simp only [List.length_append]
    omega
  rw [start,if_pos (.inr at_.place),if_neg inside]
  simp only [here,nonoption,if_true,Bool.false_eq_true,if_false,Bool.not_true]
  -- the non-options begin here, go on, or are moved behind the options since
  by_cases none_behind : behind = []
  · have last := at_.last
    have vector := at_.vector
    have first := at_.first
    subst none_behind
    rw [if_pos rfl] at last
    by_cases none_skipped : skipped = []
    · subst none_skipped
      rw [if_pos rfl] at first
      simp only [skipNonoption,first,last]
      refine ⟨_,rfl,⟨⟨?_,count,program,?_,rfl,?_,fun _ => rfl⟩,rfl,rfl⟩,rfl,rfl⟩
      · simpa using vector
      · simp [index]
      · simp [index]
    · rw [if_neg none_skipped] at first
      simp only [skipNonoption,first,last]
      refine ⟨_,rfl,⟨⟨?_,count,program,?_,rfl,?_,fun _ => rfl⟩,rfl,rfl⟩,rfl,rfl⟩
      · simpa using vector
      · simp [index]
        omega
      · simp
  · obtain ⟨_,first,last,permuted⟩ := at_.permuted none_behind
    simp only [skipNonoption,first,last,permuted,Option.map_some]
    refine ⟨_,rfl,⟨⟨?_,count,program,?_,rfl,?_,fun _ => rfl⟩,rfl,rfl⟩,rfl,rfl⟩
    · simp
    · simp [index]
      omega
    · simp only [List.append_eq_nil_iff,List.cons_ne_nil,and_false,if_false,Option.some.injEq,
        List.length_append]
      omega

variable (permute) in
theorem start_inorder (at_ : Between nargc before skipped behind (arg :: rest) s)
    (nonoption : isNonoption options arg = true) (alone : skipped = []) :
    ∃ t, start nargc options permute true s = some (.returned INORDER t) ∧
      Between nargc (before ++ [arg]) skipped behind rest t ∧
      t.optarg = some arg ∧ t.stderr = s.stderr := by
  obtain ⟨here,inside⟩ := start_argument at_
  subst alone
  have none_behind := at_.joined rfl
  subst none_behind
  have count := at_.count
  have last := at_.last
  have first := at_.first
  rw [start,if_pos (.inr at_.place),if_neg inside]
  simp only [here,nonoption,if_true]
  refine ⟨_,rfl,⟨⟨?_,?_,by simp,?_,rfl,first,fun _ => rfl⟩,rfl,last⟩,rfl,rfl⟩
  · simpa using at_.vector
  · simp only [List.length_append,List.length_cons,List.length_nil] at *
    omega
  · simp [at_.index]

theorem start_stop (at_ : Between nargc before [] behind (arg :: rest) s)
    (nonoption : isNonoption options arg = true) :
    ∃ t, start nargc options false false s = some (.returned (-1) t) ∧
      Finished (before ++ arg :: rest) before.length s t := by
  obtain ⟨here,inside⟩ := start_argument at_
  have none_behind := at_.joined rfl
  subst none_behind
  rw [start,if_pos (.inr at_.place),if_neg inside]
  simp only [here,nonoption,if_true,Bool.false_eq_true,if_false,Bool.not_false]
  exact ⟨_,rfl,at_.vector,by simpa using at_.index,rfl,rfl,at_.first,at_.last,rfl⟩

/-- The bound of the non-options is set when the first option behind them is found. -/
theorem Between.bounded (at_ : Between nargc before skipped behind rest s) :
    (if s.nonopt_start ≠ none ∧ s.nonopt_end = none then some s.optind else s.nonopt_end) =
      if skipped = [] then none else some (before.length + skipped.length) := by
  have first := at_.first
  have last := at_.last
  have joined := at_.joined
  have index := at_.index
  by_cases none_skipped : skipped = []
  · simp only [none_skipped,joined none_skipped,if_true] at first last
    simp [none_skipped,first,last]
  · rw [if_neg none_skipped] at first
    by_cases none_behind : behind = []
    · rw [if_pos none_behind] at last
      simp [first,last,none_skipped,index,none_behind]
    · rw [if_neg none_behind] at last
      simp [first,last,none_skipped]

variable (options permute allargs) in
theorem start_dashes (at_ : Between nargc before skipped behind (['-','-'] :: rest) s) :
    ∃ t, start nargc options permute allargs s = some (.returned (-1) t) ∧
      Finished (before ++ (behind ++ (['-','-'] :: (skipped ++ rest))))
        (before.length + behind.length + 1) s t := by
  obtain ⟨here,inside⟩ := start_argument at_
  have option : isNonoption options ['-','-'] = false := by simp [isNonoption]
  have vector := at_.vector
  have index := at_.index
  rw [start,if_pos (.inr at_.place),if_neg inside]
  simp only [here,option,Bool.false_eq_true,if_false,if_true,at_.bounded,finishOptions]
  by_cases none_skipped : skipped = []
  · have none_behind := at_.joined none_skipped
    subst none_skipped none_behind
    simp only [if_true]
    refine ⟨_,rfl,by simpa using vector,by simpa using index,rfl,rfl,?_,?_,rfl⟩ <;>
      cases s.nonopt_start <;> rfl
  · have first := at_.first
    rw [if_neg none_skipped] at first
    have permuted := permute_args_exchange before skipped (behind ++ [['-','-']]) rest none_skipped (by simp)
    simp only [List.length_append,List.length_cons,List.length_nil] at permuted
    have at_index : s.optind + 1 =
        before.length + skipped.length + (behind.length + 0 + 1) := by omega
    have moved : permute_args before.length (before.length + skipped.length) (s.optind+1) s.nargv =
        some (before ++ (behind ++ (['-','-'] :: (skipped ++ rest)))) := by
      rw [at_index,vector]
      simpa using permuted
    simp only [first,none_skipped,if_false,moved,Option.map_some]
    refine ⟨_,rfl,rfl,?_,rfl,rfl,rfl,rfl,rfl⟩
    simp only
    omega

variable (permute allargs) in
theorem start_option (at_ : Between nargc before skipped behind (arg :: rest) s)
    (option : isNonoption options arg = false) (no_dash : '-' ∉ options) (other : arg ≠ ['-','-']) :
    ∃ t, start nargc options permute allargs s = some (.scanning true t) ∧
      Inside nargc before skipped behind arg rest t ∧ t.place = arg.tail ∧ arg.tail ≠ [] ∧
      t.optarg = s.optarg ∧ t.stderr = s.stderr := by
  obtain ⟨here,inside⟩ := start_argument at_
  have longer : arg ≠ ['-'] := by
    rintro rfl
    simp [isNonoption,no_dash] at option
  rw [start,if_pos (.inr at_.place),if_neg inside]
  simp only [here,option,other,longer,Bool.false_eq_true,if_false,at_.bounded]
  refine ⟨_,rfl,⟨⟨at_.vector,at_.count,at_.program,at_.index,rfl,at_.first,at_.joined⟩,rfl⟩,rfl,?_,rfl,rfl⟩
  intro short
  cases arg with
  | nil => simp [isNonoption] at option
  | cons c text =>
    simp only [List.tail_cons] at short
    subst short
    simp only [isNonoption,Bool.or_eq_false_iff] at option
    simp at option
    exact longer (by rw [option.1])

end Start

/-! What a call makes of an option. -/

/-- A call that reports `r` and passes `n` arguments. -/
structure Passed (n : Nat) (r : Report) (s t : State) : Prop where
  vector : t.nargv = s.nargv
  index : t.optind = s.optind + n
  reset : t.optreset = s.optreset
  first : t.nonopt_start = s.nonopt_start
  last : t.nonopt_end = s.nonopt_end
  optarg : t.optarg = r.optarg
  printed : t.stderr = s.stderr ++ r.printed

section Options
variable {options : CString} {table : List LongOption} {s : State} {rest : List CString}

theorem matched_passed (i : Nat) (o : LongOption) (s : State) :
    ∃ t, matched i o s = (o.optopt,t) ∧ t.nargv = s.nargv ∧ t.optind = s.optind ∧
      t.optreset = s.optreset ∧ t.nonopt_start = s.nonopt_start ∧ t.nonopt_end = s.nonopt_end ∧
      t.optarg = s.optarg ∧ t.stderr = s.stderr := by
  cases flag : o.flag <;> simp [matched,LongOption.optopt,flag]

theorem findLong_text (table : List LongOption) (text : CString) :
    findLong text (text.takeWhile (· ≠ '=')).length false table 0 none false =
      match select table (text.takeWhile (· ≠ '=')) with
      | .unknown => (none,false)
      | .found i o => (some (i,o),false)
      | .ambiguous => ((candidates table (text.takeWhile (· ≠ '='))).head?.map Prod.swap,true) := by
  have := findLong_select table (text.takeWhile (· ≠ '=')) (text.dropWhile (· ≠ '='))
  rwa [List.takeWhile_append_dropWhile] at this

variable (options table s) in
theorem parse_long_options_passed (empty : s.optarg = none) (behind : s.nargv.drop (s.optind+1) = rest) :
    ∃ t, parse_long_options options table false s = ((longReport options table s.place rest).1.c,t) ∧
      Passed ((longReport options table s.place rest).2 + 1) (longReport options table s.place rest).1 s t := by
  have key : s.place.take (s.place.takeWhile (· ≠ '=')).length = s.place.takeWhile (· ≠ '=') :=
    List.prefix_iff_eq_take.mp (List.takeWhile_prefix _) |>.symm
  have next : s.nargv[s.optind+1]? = rest.head? := by rw [← behind,List.head?_drop]
  simp only [parse_long_options,longReport,findLong_text,key]
  cases select table (s.place.takeWhile (· ≠ '=')) with
  | unknown =>
    simp only [Bool.false_eq_true,if_false]
    exact ⟨_,rfl,rfl,rfl,rfl,rfl,rfl,empty,rfl⟩
  | ambiguous =>
    simp only [if_true]
    exact ⟨_,rfl,rfl,rfl,rfl,rfl,rfl,empty,rfl⟩
  | found i o =>
    have done (t : State) (arg : Option CString) (n : Nat)
        (same : t = { s with optarg := arg, optind := s.optind + n }) :
        ∃ u, matched i o t = (o.optopt,u) ∧ Passed n ⟨o.optopt,arg,[]⟩ s u := by
      obtain ⟨u,reported,vector,index,reset,first,last,optarg,printed⟩ := matched_passed i o t
      subst same
      exact ⟨u,reported,vector,index,reset,first,last,optarg,by simpa using printed⟩
    cases arg : o.has_arg <;> cases value : (s.place.dropWhile (· ≠ '=')).tail? <;>
      simp only [arg,Option.isSome,Bool.false_eq_true,if_false,and_true,and_false,if_true,
        reduceCtorEq,false_and,true_and]
    case no_argument.some =>
      exact ⟨_,rfl,rfl,rfl,rfl,rfl,rfl,empty,rfl⟩
    case required_argument.none =>
      cases rest with
      | nil =>
        simp only [next,List.head?_nil,if_true]
        exact ⟨_,rfl,rfl,by simp,rfl,rfl,rfl,rfl,rfl⟩
      | cons following rest =>
        simp only [next,List.head?_cons,reduceCtorEq,if_false]
        exact done _ (some following) 2 rfl
    all_goals exact done _ _ 1 (by simp [empty])

theorem BADCH_ne : BADCH ≠ -1 := by decide

theorem BADARG_ne : BADARG options ≠ -1 := by
  unfold BADARG
  split <;> decide

theorem select_mem {key : CString} (found : select table key = .found i o) : o ∈ table := by
  have listed {p : LongOption × Nat} (member : p ∈ table.zipIdx) : p.1 ∈ table := by
    have := List.mem_map_of_mem (f := Prod.fst) member
    rwa [List.zipIdx_map_fst] at this
  rw [select] at found
  cases hit : table.zipIdx.find? fun p => p.1.name = key with
  | some p =>
    rw [hit] at found
    cases found
    exact listed (List.mem_of_find?_eq_some hit)
  | none =>
    rw [hit] at found
    cases list : candidates table key with
    | nil => simp [list,pick] at found
    | cons p others =>
      simp only [list,pick] at found
      split at found
      · cases found
        exact listed (List.mem_of_mem_filter (list ▸ List.mem_cons_self : p ∈ candidates table key))
      · contradiction

variable (options rest) in
theorem longReport_ne (values : ∀ o ∈ table, o.optopt ≠ -1) (text : CString) :
    (longReport options table text rest).1.c ≠ -1 := by
  simp only [longReport]
  cases choice : select table (text.takeWhile (· ≠ '=')) with
  | unknown => exact BADCH_ne
  | ambiguous => exact BADCH_ne
  | found i o =>
    have value := values o (select_mem choice)
    simp only
    split
    · exact BADARG_ne
    · split
      · exact BADARG_ne
      · exact value
    · exact value

theorem longReport_taken (text : CString) : (longReport options table text rest).2 ≤ rest.length := by
  simp only [longReport]
  split <;> try exact Nat.zero_le _
  split <;> try exact Nat.zero_le _
  split
  · exact Nat.zero_le _
  · exact Nat.succ_le_succ (Nat.zero_le _)

variable (options table) in
theorem long_passed (text : CString) (n : Nat) (empty : s.optarg = none)
    (behind : s.nargv.drop (s.optind+n+1) = rest) :
    ∃ t, parse_long_options options table false { s with place := text, optind := s.optind + n } =
        ((longReport options table text rest).1.c,t) ∧
      Passed ((longReport options table text rest).2 + n + 1) (longReport options table text rest).1 s
        { t with place := [] } := by
  obtain ⟨t,reported,passed⟩ := parse_long_options_passed options table
    { s with place := text, optind := s.optind + n } empty behind
  refine ⟨t,reported,passed.vector,?_,passed.reset,passed.first,passed.last,passed.optarg,passed.printed⟩
  have := passed.index
  simp only at this ⊢
  omega

variable (options) in
theorem readOption_long (nargc : Nat) (values : ∀ o ∈ table, o.optopt ≠ -1)
    (place : s.place = '-' :: text) (empty : s.optarg = none)
    (behind : s.nargv.drop (s.optind+1) = rest) :
    ∃ t, readOption nargc options (some table) false true s =
        some ((longReport options table text rest).1.c,t) ∧
      t.place = [] ∧
      Passed ((longReport options table text rest).2 + 1) (longReport options table text rest).1 s t := by
  obtain ⟨t,reported,passed⟩ := long_passed options table text 0 empty behind
  have value := longReport_ne options rest values text
  refine ⟨_,?_,rfl,passed⟩
  simp only [readOption,place,List.head?_cons,List.tail_cons,decide_true,Bool.not_true,Bool.false_and,
    true_or,and_true,if_true]
  simp only [Nat.add_zero] at reported
  rw [reported]
  simp [value]

variable (options) in
theorem shortOption_reports {nargc : Nat} (values : ∀ o ∈ table, o.optopt ≠ -1)
    (place : s.place = c :: text) (letter_ : c ≠ '-') (empty : s.optarg = none)
    (count : nargc = s.optind + 1 + rest.length) (behind : s.nargv.drop (s.optind+1) = rest) :
    ∃ r t, shortOption nargc options (some table) s = some (r.c,t) ∧ r.c ≠ -1 ∧
      ((letterReports options table (c :: text) rest =
          (r :: (letterReports options table text rest).1,(letterReports options table text rest).2) ∧
        t.place = text ∧ Passed (if text = [] then 1 else 0) r s t) ∨
      ∃ n, letterReports options table (c :: text) rest = ([r],n) ∧ n ≤ rest.length ∧
        t.place = [] ∧ Passed (n+1) r s t) := by
  have next : s.nargv[s.optind+1]? = rest.head? := by rw [← behind,List.head?_drop]
  have value : (c.toNat : Int) ≠ -1 := by omega
  have onward : (if text = [] then s.optind + 1 else s.optind) =
      s.optind + if text = [] then 1 else 0 := by split <;> rfl
  have unknown (report : Int × State)
      (same : report = (BADCH,{ s.warn options (.illoptchar c) with
        place := text, optind := s.optind + if text = [] then 1 else 0, optopt := c.toNat })) :
      ∃ t, some report = some (BADCH,t) ∧ t.place = text ∧
        Passed (if text = [] then 1 else 0) ⟨BADCH,none,warnx options (.illoptchar c)⟩ s t := by
    subst same
    exact ⟨_,rfl,rfl,rfl,rfl,rfl,rfl,rfl,empty,rfl⟩
  simp only [shortOption,place,letterReports,letter,letter_,false_and,false_or,if_false,onward]
  cases here : options.dropWhile (· ≠ c) with
  | nil =>
    simp only [or_true,if_true]
    obtain ⟨t,called,after,passed⟩ := unknown _ rfl
    exact ⟨_,t,called,BADCH_ne,.inl ⟨rfl,after,passed⟩⟩
  | cons d oli =>
    simp only [reduceCtorEq,or_false,List.getElem?_cons_succ,ne_eq,not_false_eq_true,true_and]
    by_cases colon : c = ':'
    · simp only [colon,if_true]
      subst colon
      obtain ⟨t,called,after,passed⟩ := unknown _ rfl
      exact ⟨_,t,called,BADCH_ne,.inl ⟨rfl,after,passed⟩⟩
    simp only [colon,if_false]
    by_cases W : c = 'W' ∧ oli[0]? = some ';'
    · rw [if_pos W,if_pos W]
      have reads (text : CString) (n : Nat) {rest : List CString} (behind : s.nargv.drop (s.optind+n+1) = rest) :=
        long_passed options table text n empty behind
      have values (text : CString) {rest : List CString} :=
        longReport_ne options rest values text
      by_cases attached : text = []
      · simp only [attached,not_true_eq_false,if_false,if_true,true_and,next]
        cases rest with
        | nil =>
          rw [if_pos (by simp [count])]
          exact ⟨⟨BADARG options,none,warnx options (.recargchar c)⟩,_,rfl,BADARG_ne,
            .inr ⟨0,rfl,Nat.zero_le _,rfl,rfl,rfl,rfl,rfl,rfl,empty,rfl⟩⟩
        | cons following rest =>
          have later : s.nargv.drop (s.optind+1+1) = rest := by
            rw [← List.tail_drop,behind,List.tail_cons]
          obtain ⟨t,called,passed⟩ := reads following 1 later
          rw [if_neg (by simp [count]),List.head?_cons,Option.map_some,Option.getD_some,called]
          exact ⟨_,_,rfl,values following,.inr ⟨_,rfl,Nat.succ_le_succ (longReport_taken following),rfl,passed⟩⟩
      · obtain ⟨t,called,passed⟩ := reads text 0 behind
        simp only [attached,not_false_eq_true,if_true,if_false,false_and,Option.map_some,Option.getD_some]
        rw [called]
        refine ⟨_,_,rfl,values text,.inr ⟨_,rfl,longReport_taken text,rfl,passed⟩⟩
    rw [if_neg W,if_neg W]
    by_cases takes : oli[0]? = some ':'
    · rw [if_neg (not_not_intro takes),if_neg (not_not_intro takes)]
      by_cases attached : text = []
      · simp only [attached,not_true_eq_false,if_false,if_true]
        by_cases optional : oli[1]? = some ':'
        · simp only [optional,if_true]
          exact ⟨⟨c.toNat,none,[]⟩,_,rfl,value,
            .inr ⟨0,rfl,Nat.zero_le _,rfl,rfl,rfl,rfl,rfl,rfl,rfl,by simp⟩⟩
        · simp only [optional,if_false]
          cases rest with
          | nil =>
            rw [if_pos (by simp [count])]
            exact ⟨⟨BADARG options,none,warnx options (.recargchar c)⟩,_,rfl,BADARG_ne,
              .inr ⟨0,rfl,Nat.zero_le _,rfl,rfl,rfl,rfl,rfl,rfl,rfl,rfl⟩⟩
          | cons following rest =>
            rw [if_neg (by simp [count]),next]
            exact ⟨⟨c.toNat,some following,[]⟩,_,rfl,value,
              .inr ⟨1,rfl,by simp,rfl,rfl,rfl,rfl,rfl,rfl,rfl,by simp⟩⟩
      · simp only [attached,not_false_eq_true,if_true]
        refine ⟨⟨c.toNat,some text,[]⟩,_,rfl,value,.inr ⟨0,?_,Nat.zero_le _,rfl,rfl,rfl,rfl,rfl,rfl,rfl,by simp⟩⟩
        by_cases optional : oli[1]? = some ':' <;> simp [optional]
    · rw [if_pos takes,if_pos takes]
      exact ⟨⟨c.toNat,none,[]⟩,_,rfl,value,.inl ⟨rfl,rfl,rfl,rfl,rfl,rfl,rfl,empty,by simp⟩⟩

end Options

/-! The calls one after another. -/

/-- A loop that calls the parser until it returns -1, with what each call has reported. -/
def calls (call : State → Option (Int × State)) : Nat → State → Option (List Report × State)
  | 0, _ => none
  | fuel + 1, s =>
    match call s with
    | none => none
    | some (c, t) =>
      if c = -1 then some ([],t)
      else
        (calls call fuel t).map fun (reports,u) =>
          (⟨c,t.optarg,t.stderr.drop s.stderr.length⟩ :: reports,u)

inductive Reports (call : State → Option (Int × State)) : State → List Report → State → Prop where
  | done : call s = some (-1,t) → t.stderr = s.stderr → Reports call s [] t
  | cons : call s = some (r.c,t) → r.c ≠ -1 → t.optarg = r.optarg →
      t.stderr = s.stderr ++ r.printed → Reports call t rs u → Reports call s (r :: rs) u

theorem Reports.congr {call : State → Option (Int × State)} (same : call s = call t)
    (printed : t.stderr = s.stderr) (reports : Reports call t rs u) : Reports call s rs u := by
  cases reports with
  | done ends quiet => exact .done (same.trans ends) (quiet.trans printed)
  | cons step go optarg more rest => exact .cons (same.trans step) go optarg (printed ▸ more) rest

theorem Reports.calls {call : State → Option (Int × State)} (reports : Reports call s rs t)
    (enough : rs.length < fuel) : calls call fuel s = some (rs,t) := by
  induction reports generalizing fuel with
  | done ends _ =>
    cases fuel with
    | zero => contradiction
    | succ fuel => simp [Getopt.calls,ends]
  | @cons s t rs u r step go optarg printed _ ih =>
    cases fuel with
    | zero => contradiction
    | succ fuel =>
      have later := ih (Nat.lt_of_succ_lt_succ enough)
      simp [Getopt.calls,step,go,later,optarg,printed]

section Run
variable {raw : CString} {table : List LongOption} {posixly_correct : Bool} {nargc : Nat}
  {before skipped behind rest : List CString} {s : State}

/-- The rest of a call, once the scan has found where it stands. -/
def scanned (nargc : Nat) (raw : CString) (table : List LongOption) :
    Option Scan → Option (Int × State)
  | none => none
  | some (.returned c s) => some (c,s)
  | some (.scanning moved s) => readOption nargc (lettersOf raw) (some table) false moved s

variable (raw table posixly_correct) in
theorem getopt_long_scanned (layout : Layout nargc before skipped behind rest s) :
    getopt_long posixly_correct nargc raw table s =
      scanned nargc raw table (start nargc (lettersOf raw) (permuting raw true posixly_correct)
        (raw.head? = some '-') { s with optarg := none }) := by
  have positive : s.optind ≠ 0 := by
    have := layout.index
    have := layout.program
    omega
  simp only [getopt_long,getopt_internal,positive,if_false,layout.reset,Bool.false_eq_true]
  rfl

theorem Between.without (at_ : Between nargc before skipped behind rest s) :
    Between nargc before skipped behind rest { s with optarg := none } :=
  ⟨⟨at_.vector,at_.count,at_.program,at_.index,at_.reset,at_.first,at_.joined⟩,at_.place,at_.last⟩

/-- An argument that is passed joins the options, before or behind the ones that were skipped. -/
theorem Inside.settled (at_ : Inside nargc before skipped behind arg rest s) (bound : n ≤ rest.length)
    (place : t.place = []) (passed : Passed (n+1) r s t) :
    ∃ before' behind', before' ++ behind' = before ++ behind ++ (arg :: rest.take n) ∧
      Between nargc before' skipped behind' (rest.drop n) t := by
  have whole : arg :: rest = (arg :: rest.take n) ++ rest.drop n := by simp
  have index := at_.index
  have count := at_.count
  have vector := at_.vector
  have joined := at_.joined
  have first := at_.first
  have last := at_.last
  have program := at_.program
  by_cases none_skipped : skipped = []
  · have none_behind := joined none_skipped
    subst none_skipped none_behind
    refine ⟨before ++ (arg :: rest.take n),[],by simp,⟨⟨?_,?_,?_,?_,?_,?_,fun _ => rfl⟩,place,?_⟩⟩
    · rw [passed.vector,vector,whole]
      simp
    · simp only [List.length_append,List.length_cons,List.length_take,List.length_drop,List.length_nil] at *
      omega
    · exact Nat.lt_of_lt_of_le program (by simp)
    · rw [passed.index,index]
      simp only [List.length_append,List.length_cons,List.length_take,List.length_nil]
      omega
    · rw [passed.reset,at_.reset]
    · rw [passed.first,first,if_pos rfl,if_pos rfl]
    · rw [passed.last,last,if_pos rfl,if_pos rfl]
  · refine ⟨before,behind ++ (arg :: rest.take n),by simp,
      ⟨⟨?_,?_,program,?_,?_,?_,fun none => absurd none none_skipped⟩,place,?_⟩⟩
    · rw [passed.vector,vector,whole]
      simp
    · simp only [List.length_append,List.length_cons,List.length_take,List.length_drop] at *
      omega
    · rw [passed.index,index]
      simp only [List.length_append,List.length_cons,List.length_take]
      omega
    · rw [passed.reset,at_.reset]
    · rw [passed.first,first]
    · rw [passed.last,last,if_neg none_skipped,if_neg (by simp)]

theorem Inside.onward (at_ : Inside nargc before skipped behind arg rest s) (passed : Passed 0 r s t) :
    Inside nargc before skipped behind arg rest t :=
  ⟨⟨passed.vector ▸ at_.vector,at_.count,at_.program,passed.index ▸ at_.index,
    passed.reset ▸ at_.reset,passed.first ▸ at_.first,at_.joined⟩,passed.last ▸ at_.last⟩

theorem Inside.call (at_ : Inside nargc before skipped behind arg rest s)
    (values : ∀ o ∈ table, o.optopt ≠ -1) (place : s.place = c :: text) :
    ∃ r t, getopt_long posixly_correct nargc raw table s = some (r.c,t) ∧ r.c ≠ -1 ∧
      (letterReports (lettersOf raw) table (c :: text) rest =
          (r :: (letterReports (lettersOf raw) table text rest).1,
            (letterReports (lettersOf raw) table text rest).2) ∧
        t.place = text ∧ Passed (if text = [] then 1 else 0) r s t ∨
      ∃ n, letterReports (lettersOf raw) table (c :: text) rest = ([r],n) ∧ n ≤ rest.length ∧
        t.place = [] ∧ Passed (n+1) r s t) := by
  have quiet {n : Nat} {r : Report} {t : State} (passed : Passed n r { s with optarg := none } t) :
      Passed n r s t :=
    ⟨passed.vector,passed.index,passed.reset,passed.first,passed.last,passed.optarg,passed.printed⟩
  have scan : start nargc (lettersOf raw) (permuting raw true posixly_correct) (raw.head? = some '-')
      { s with optarg := none } = some (.scanning true { s with optarg := none }) := by
    rw [start,if_neg]
    simp [at_.reset,place]
  have behind : s.nargv.drop (s.optind+1) = rest := by
    rw [at_.vector,at_.index,show before ++ (skipped ++ (behind ++ arg :: rest)) =
      (before ++ skipped ++ behind ++ [arg]) ++ rest by simp]
    exact List.drop_left' (by simp [Nat.add_assoc])
  have count : nargc = s.optind + 1 + rest.length := by
    rw [at_.count,at_.index,List.length_cons]
    omega
  rw [getopt_long_scanned raw table posixly_correct at_.toLayout,scan,scanned]
  by_cases dash : c = '-'
  · subst dash
    obtain ⟨t,called,after,passed⟩ := readOption_long (lettersOf raw) nargc values
      (s := { s with optarg := none }) place rfl behind
    refine ⟨_,t,called,longReport_ne _ _ values text,.inr ⟨_,?_,longReport_taken text,after,quiet passed⟩⟩
    simp [letterReports]
  · obtain ⟨r,t,called,go,outcome⟩ := shortOption_reports (lettersOf raw) values
      (s := { s with optarg := none }) place dash rfl count behind
    refine ⟨r,t,?_,go,?_⟩
    · rw [readOption,← called]
      simp [place,dash]
    · rcases outcome with ⟨reports,after,passed⟩ | ⟨n,reports,bound,after,passed⟩
      · exact .inl ⟨reports,after,quiet passed⟩
      · exact .inr ⟨n,reports,bound,after,quiet passed⟩

theorem Inside.reports (at_ : Inside nargc before skipped behind arg rest s)
    (values : ∀ o ∈ table, o.optopt ≠ -1) (place : s.place = text) (some_text : text ≠ []) :
    ∃ t before' behind',
      before' ++ behind' = before ++ behind ++
        (arg :: rest.take (letterReports (lettersOf raw) table text rest).2) ∧
      Between nargc before' skipped behind'
        (rest.drop (letterReports (lettersOf raw) table text rest).2) t ∧
      ∀ rs u, Reports (getopt_long posixly_correct nargc raw table) t rs u →
        Reports (getopt_long posixly_correct nargc raw table) s
          ((letterReports (lettersOf raw) table text rest).1 ++ rs) u := by
  induction text generalizing s with
  | nil => contradiction
  | cons c text ih =>
    obtain ⟨r,t,called,go,outcome⟩ := at_.call values place
    rcases outcome with ⟨reports,after,passed⟩ | ⟨n,reports,bound,after,passed⟩
    · rw [reports]
      have step (rs : List Report) (u : State)
          (later : Reports (getopt_long posixly_correct nargc raw table) t rs u) :
          Reports (getopt_long posixly_correct nargc raw table) s (r :: rs) u :=
        .cons called go passed.optarg passed.printed later
      by_cases last : text = []
      · subst last
        obtain ⟨before',behind',joined,between⟩ := at_.settled (Nat.zero_le _) after passed
        exact ⟨t,before',behind',joined,between,step⟩
      · rw [if_neg last] at passed
        obtain ⟨v,before',behind',joined,between,later⟩ := ih (at_.onward passed) after last
        exact ⟨v,before',behind',joined,between,fun rs u end_ => step _ u (later rs u end_)⟩
    · rw [reports]
      obtain ⟨before',behind',joined,between⟩ := at_.settled bound after passed
      exact ⟨t,before',behind',joined,between,
        fun rs u later => .cons called go passed.optarg passed.printed later⟩

/-- What is left to report, and the vector in the end. -/
structure Parses (call : State → Option (Int × State)) (done skipped : List CString) (p : Parsed)
    (s t : State) : Prop where
  reports : Reports call s p.reports t
  vector : t.nargv = done ++ p.options ++ (skipped ++ p.positional)
  index : t.optind = (done ++ p.options).length
  place : t.place = []
  reset : t.optreset = false
  first : t.nonopt_start = none
  last : t.nonopt_end = none

theorem Parses.of_finished {call : State → Option (Int × State)} {done skipped : List CString} {p : Parsed}
    (ends : call s = some (-1,t)) (finished : Finished argv pos s' t) (quiet : s'.stderr = s.stderr)
    (none_reported : p.reports = [])
    (argv_eq : argv = done ++ p.options ++ (skipped ++ p.positional))
    (pos_eq : pos = (done ++ p.options).length) : Parses call done skipped p s t :=
  ⟨none_reported ▸ .done ends (finished.printed.trans quiet),finished.vector.trans argv_eq,
    finished.index.trans pos_eq,finished.place,finished.reset,finished.first,finished.last⟩

variable (posixly_correct) in
theorem Between.parses (values : ∀ o ∈ table, o.optopt ≠ -1) (no_dash : '-' ∉ lettersOf raw)
    (at_ : Between nargc before skipped behind rest s)
    (alone : permuting raw true posixly_correct = false ∨ raw.head? = some '-' → skipped = []) :
    ∃ t, Parses (getopt_long posixly_correct nargc raw table) (before ++ behind) skipped
      (parse (lettersOf raw) table (permuting raw true posixly_correct) (raw.head? = some '-') rest) s t := by
  have scan {before skipped behind rest : List CString} {s : State}
      (at_ : Between nargc before skipped behind rest s) :=
    getopt_long_scanned raw table posixly_correct at_.toLayout
  induction rest using parse.induct (lettersOf raw) table (permuting raw true posixly_correct)
    (raw.head? = some '-') generalizing before skipped behind s with
  | case1 =>
    obtain ⟨t,ends,finished⟩ := start_end (lettersOf raw)
      (permuting raw true posixly_correct) (raw.head? = some '-') at_.without
    exact ⟨t,.of_finished (by rw [scan at_,ends,scanned]) finished rfl (by rw [parse]) (by simp [parse])
      (by simp [parse])⟩
  | case2 arg rest nonoption allargs ih =>
    have none_skipped := alone (.inr (of_decide_eq_true allargs))
    obtain ⟨t,ends,between,optarg,printed⟩ := start_inorder
      (permuting raw true posixly_correct) at_.without nonoption none_skipped
    have none_behind := at_.joined none_skipped
    obtain ⟨u,later⟩ := ih between alone
    have called : getopt_long posixly_correct nargc raw table s = some (INORDER,t) := by
      rw [scan at_,allargs,ends,scanned]
    subst none_behind
    refine ⟨u,?_,?_,?_,later.place,later.reset,later.first,later.last⟩
    · rw [parse,if_pos nonoption,if_pos allargs]
      exact .cons called (show INORDER ≠ -1 by decide) optarg (by simpa using printed) later.reports
    · rw [later.vector,parse,if_pos nonoption,if_pos allargs]
      simp
    · rw [later.index,parse,if_pos nonoption,if_pos allargs]
      simp
  | case3 arg rest nonoption inorder permute ih =>
    have ordinary : decide (raw.head? = some '-') = false := Bool.eq_false_iff.mpr inorder
    have mode (skipped : List CString) :
        permuting raw true posixly_correct = false ∨ raw.head? = some '-' → skipped = [] := by
      rintro (off | first)
      · rw [permute] at off
        contradiction
      · exact absurd (decide_eq_true first) inorder
    obtain ⟨t,same,between,printed,optarg⟩ := start_skip at_.without nonoption
    obtain ⟨u,later⟩ := ih between (mode _)
    have called : getopt_long posixly_correct nargc raw table s =
        getopt_long posixly_correct nargc raw table t := by
      have already : { t with optarg := none } = t := by
        cases t
        exact congrArg (State.mk _ _ _ · _ _ _ _ _ _ _) optarg.symm
      rw [scan at_,scan between,permute,ordinary,same,already]
    refine ⟨u,?_,?_,?_,later.place,later.reset,later.first,later.last⟩
    · rw [parse,if_pos nonoption,if_neg inorder,if_pos permute]
      exact later.reports.congr called printed
    · rw [later.vector,parse,if_pos nonoption,if_neg inorder,if_pos permute]
      simp
    · rw [later.index,parse,if_pos nonoption,if_neg inorder,if_pos permute]
      simp
  | case4 arg rest nonoption inorder stop =>
    have ordinary : decide (raw.head? = some '-') = false := Bool.eq_false_iff.mpr inorder
    have off : permuting raw true posixly_correct = false := Bool.eq_false_iff.mpr stop
    have none_skipped := alone (.inl off)
    have none_behind := at_.joined none_skipped
    subst none_skipped none_behind
    obtain ⟨t,ends,finished⟩ := start_stop at_.without nonoption
    refine ⟨t,.of_finished (by rw [scan at_,ordinary,off,ends,scanned]) finished rfl ?_ ?_ ?_⟩ <;>
      rw [parse,if_pos nonoption,if_neg inorder,if_neg stop]
    · simp
    · simp
  | case5 rest option =>
    obtain ⟨t,ends,finished⟩ := start_dashes (lettersOf raw)
      (permuting raw true posixly_correct) (raw.head? = some '-') at_.without
    refine ⟨t,.of_finished (by rw [scan at_,ends,scanned]) finished rfl ?_ ?_ ?_⟩ <;>
      rw [parse,if_neg option,if_pos rfl]
    · simp
    · simp [Nat.add_assoc]
  | case6 arg rest option other reports taken listed ih =>
    have option := Bool.eq_false_iff.mpr option
    obtain ⟨t,ends,inside,place,some_text,optarg,printed⟩ := start_option
      (permuting raw true posixly_correct) (raw.head? = some '-') at_.without option
      no_dash other
    -- the scan of the next call finds the same place
    have called : getopt_long posixly_correct nargc raw table s =
        getopt_long posixly_correct nargc raw table t := by
      have already : { t with optarg := none } = t := by
        cases t
        exact congrArg (State.mk _ _ _ · _ _ _ _ _ _ _) optarg.symm
      have again : start nargc (lettersOf raw) (permuting raw true posixly_correct) (raw.head? = some '-') t =
          some (.scanning true t) := by
        rw [start,if_neg]
        simp [inside.reset,place,some_text]
      rw [scan at_,ends,getopt_long_scanned raw table posixly_correct inside.toLayout,already,again]
    obtain ⟨u,before',behind',joined,between,prepend⟩ := inside.reports values place some_text
    rw [listed] at joined between prepend
    obtain ⟨v,later⟩ := ih between alone
    refine ⟨v,?_,?_,?_,later.place,later.reset,later.first,later.last⟩
    · rw [parse,if_neg (by simp [option]),if_neg other,listed]
      exact (prepend _ _ later.reports).congr called printed
    · rw [later.vector,parse,if_neg (by simp [option]),if_neg other,listed,joined]
      simp
    · rw [later.index,parse,if_neg (by simp [option]),if_neg other,listed,joined]
      simp

end Run

/-! A whole command line. -/

section CommandLine
variable (posixly_correct : Bool) (raw : CString) (table : List LongOption)

def parsed (args : List CString) : Parsed :=
  parse (lettersOf raw) table (permuting raw true posixly_correct) (raw.head? = some '-') args

variable {posixly_correct raw table}

theorem Between.initial (program : CString) (args : List CString) :
    Between (args.length + 1) [program] [] [] args { nargv := program :: args } :=
  ⟨⟨rfl,by simp; omega,Nat.one_pos,rfl,rfl,rfl,fun _ => rfl⟩,rfl,rfl⟩

theorem letterReports_length (options : CString) (table : List LongOption) (text : CString)
    (rest : List CString) : (letterReports options table text rest).1.length ≤ text.length := by
  induction text with
  | nil => simp [letterReports]
  | cons c text ih =>
    simp only [letterReports,List.length_cons]
    split
    · simp
    · split
      · simpa using ih
      · simpa using ih
      · simp
      · split
        · simp
        · split <;> simp
      · split
        · simp
        · split <;> simp

/-- Where a report comes from. An option that requires an argument has one. -/
inductive Origin (options : CString) (table : List LongOption) (r : Report) : Prop where
  | refused (value : r.c = BADCH ∨ r.c = BADARG options)
  | inorder (value : r.c = INORDER)
  | long (o : LongOption) (member : o ∈ table) (value : r.c = o.optopt)
      (carries : o.has_arg = .required_argument → r.optarg ≠ none)
  | letter (c : Char) (value : r.c = c.toNat) (carries : letter options c = .required → r.optarg ≠ none)

theorem longReport_origin (options : CString) (table : List LongOption) (text : CString)
    (rest : List CString) : Origin options table (longReport options table text rest).1 := by
  simp only [longReport]
  cases choice : select table (text.takeWhile (· ≠ '=')) with
  | unknown => exact .refused (.inl rfl)
  | ambiguous => exact .refused (.inl rfl)
  | found i o =>
    simp only
    cases arg : o.has_arg with
    | no_argument =>
      cases (text.dropWhile (· ≠ '=')).tail? with
      | none => exact .long o (select_mem choice) rfl (by simp [arg])
      | some value => exact .refused (.inr rfl)
    | optional_argument => exact .long o (select_mem choice) rfl (by simp [arg])
    | required_argument =>
      cases (text.dropWhile (· ≠ '=')).tail? with
      | none =>
        cases rest with
        | nil => exact .refused (.inr rfl)
        | cons next rest => exact .long o (select_mem choice) rfl fun _ => Option.some_ne_none next
      | some value => exact .long o (select_mem choice) rfl fun _ => Option.some_ne_none value

theorem letterReports_origin (options : CString) (table : List LongOption) (text : CString)
    (rest : List CString) : ∀ r ∈ (letterReports options table text rest).1, Origin options table r := by
  induction text with
  | nil => simp [letterReports]
  | cons c text ih =>
    simp only [letterReports]
    by_cases dash : c = '-'
    · simp only [dash,if_true,List.mem_singleton,forall_eq]
      exact longReport_origin options table text rest
    simp only [dash,if_false]
    cases which : letter options c with
    | unknown =>
      simp only [List.mem_cons,forall_eq_or_imp]
      exact ⟨.refused (.inl rfl),ih⟩
    | plain =>
      simp only [List.mem_cons,forall_eq_or_imp]
      exact ⟨.letter c rfl (by simp [which]),ih⟩
    | optional =>
      simp only [List.mem_singleton,forall_eq]
      exact .letter c rfl (by simp [which])
    | required =>
      by_cases attached : text ≠ []
      · simp only [attached,not_false_eq_true,if_true,List.mem_singleton,forall_eq,ne_eq]
        exact .letter c rfl fun _ => Option.some_ne_none text
      · simp only [attached,if_false]
        cases rest with
        | nil =>
          simp only [List.mem_singleton,forall_eq]
          exact .refused (.inr rfl)
        | cons next rest =>
          simp only [List.mem_singleton,forall_eq]
          exact .letter c rfl fun _ => Option.some_ne_none next
    | long =>
      by_cases attached : text ≠ []
      · simp only [attached,not_false_eq_true,if_true,List.mem_singleton,forall_eq,ne_eq]
        exact longReport_origin options table text rest
      · simp only [attached,if_false]
        cases rest with
        | nil =>
          simp only [List.mem_singleton,forall_eq]
          exact .refused (.inr rfl)
        | cons next rest =>
          simp only [List.mem_singleton,forall_eq]
          exact longReport_origin options table next rest

theorem parse_origin (options : CString) (table : List LongOption) (permute allargs : Bool)
    (args : List CString) :
    ∀ r ∈ (parse options table permute allargs args).reports, Origin options table r := by
  induction args using parse.induct options table permute allargs with
  | case1 => simp [parse]
  | case2 arg rest nonoption inorder ih =>
    rw [parse,if_pos nonoption,if_pos inorder]
    simp only [List.mem_cons,forall_eq_or_imp]
    exact ⟨.inorder rfl,ih⟩
  | case3 arg rest nonoption inorder permute ih =>
    rw [parse,if_pos nonoption,if_neg inorder,if_pos permute]
    exact ih
  | case4 arg rest nonoption inorder stop =>
    rw [parse,if_pos nonoption,if_neg inorder,if_neg stop]
    exact List.forall_mem_nil _
  | case5 rest option =>
    rw [parse,if_neg option,if_pos rfl]
    exact List.forall_mem_nil _
  | case6 arg rest option other reports taken listed ih =>
    have group := letterReports_origin options table arg.tail rest
    rw [listed] at group
    rw [parse,if_neg option,if_neg other,listed]
    simp only [List.mem_append]
    rintro r (early | late)
    · exact group r early
    · exact ih r late

theorem parse_reports_length (options : CString) (table : List LongOption) (permute allargs : Bool)
    (args : List CString) : (parse options table permute allargs args).reports.length ≤
      (args.map fun arg => arg.length + 1).sum := by
  induction args using parse.induct options table permute allargs with
  | case1 => simp [parse]
  | case2 arg rest nonoption inorder ih =>
    rw [parse,if_pos nonoption,if_pos inorder,List.map_cons,List.sum_cons]
    simp only [List.length_cons]
    omega
  | case3 arg rest nonoption inorder permute ih =>
    rw [parse,if_pos nonoption,if_neg inorder,if_pos permute,List.map_cons,List.sum_cons]
    exact Nat.le_add_left_of_le ih
  | case4 arg rest nonoption inorder stop =>
    rw [parse,if_pos nonoption,if_neg inorder,if_neg stop]
    exact Nat.zero_le _
  | case5 rest option =>
    rw [parse,if_neg option,if_pos rfl]
    exact Nat.zero_le _
  | case6 arg rest option other reports taken listed ih =>
    have group := letterReports_length options table arg.tail rest
    have dropped : ((rest.drop taken).map fun arg => arg.length + 1).sum ≤
        (rest.map fun arg => arg.length + 1).sum := by
      have whole := congrArg (fun l => (l.map fun arg => arg.length + 1).sum)
        (List.take_append_drop taken rest)
      simp only [List.map_append,List.sum_append] at whole
      omega
    simp only [listed,List.length_tail] at group
    rw [parse,if_neg option,if_neg other,listed,List.length_append,List.map_cons,List.sum_cons]
    omega

/-- Nothing is lost: the options and the other arguments are the arguments. -/
theorem parse_perm (options : CString) (table : List LongOption) (permute allargs : Bool)
    (args : List CString) :
    ((parse options table permute allargs args).options ++
      (parse options table permute allargs args).positional).Perm args := by
  induction args using parse.induct options table permute allargs with
  | case1 => simp [parse]
  | case2 arg rest nonoption inorder ih =>
    rw [parse,if_pos nonoption,if_pos inorder]
    exact ih.cons arg
  | case3 arg rest nonoption inorder permute ih =>
    rw [parse,if_pos nonoption,if_neg inorder,if_pos permute]
    exact List.perm_middle.trans (ih.cons arg)
  | case4 arg rest nonoption inorder stop =>
    rw [parse,if_pos nonoption,if_neg inorder,if_neg stop]
    simp
  | case5 rest option =>
    rw [parse,if_neg option,if_pos rfl]
    simp
  | case6 arg rest option other reports taken listed ih =>
    rw [parse,if_neg option,if_neg other,listed]
    have joined := ih.append_left (rest.take taken)
    rw [List.take_append_drop] at joined
    simpa using joined.cons arg

end CommandLine
end DPsim.Getopt
