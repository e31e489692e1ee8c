import DPsim.CycleLeader

/-! The option parser of `Compat/getopt.h`, which is compiled in where the system has none. It keeps
its place between the calls in static variables and moves the arguments that are no options behind
those that are. -/
namespace DPsim.Getopt

abbrev CString := List Char

inductive HasArg where
  | no_argument
  | required_argument
  | optional_argument
  deriving DecidableEq, Repr

/-- `flag` is the address of an `int`. -/
structure LongOption where
  name : CString
  has_arg : HasArg
  flag : Option Nat
  val : Int
  deriving DecidableEq, Repr

inductive Warning where
  | recargchar (c : Char)
  | recargstring (s : CString)
  | ambig (s : CString)
  | noarg (s : CString)
  | illoptchar (c : Char)
  | illoptstring (s : CString)
  deriving DecidableEq, Repr

/-- The static variables, the vector they index, and what is written through the pointers that the
caller passes. The vector ends with a null pointer, which is what an index at its length reads. -/
structure State where
  nargv : List CString
  optind : Nat := 1
  optopt : Int := '?'.toNat
  optarg : Option CString := none
  optreset : Bool := false
  place : CString := []
  nonopt_start : Option Nat := none
  nonopt_end : Option Nat := none
  idx : Option Nat := none
  flags : List (Nat × Int) := []
  stderr : List Warning := []
  deriving DecidableEq, Repr

def BADCH : Int := '?'.toNat
def BADARG (options : CString) : Int := if options.head? = some ':' then ':'.toNat else '?'.toNat
def INORDER : Int := 1

/-- What `PRINT_ERROR` lets through; nobody clears `opterr`. -/
def warnx (options : CString) (w : Warning) : List Warning :=
  if options.head? = some ':' then [] else [w]

def State.warn (options : CString) (w : Warning) (s : State) : State :=
  { s with stderr := s.stderr ++ warnx options w }

section Permute
variable {α : Type u}

def gcd (a b : Nat) : Option Nat :=
  if _ : b = 0 then none
  else
    let c := a % b
    if c = 0 then some b else gcd b c
termination_by b
decreasing_by exact Nat.mod_lt a (by omega)

def nextPos (panonopt_end nnonopts nopts pos : Nat) : Nat :=
  if panonopt_end ≤ pos then pos - nnonopts else pos + nopts

/-- `none` is an exchange outside of the vector. -/
def permuteCycle (panonopt_end nnonopts nopts cstart : Nat) : Nat → Nat → List α → Option (List α)
  | 0, _, nargv => some nargv
  | j + 1, pos, nargv =>
    let pos := nextPos panonopt_end nnonopts nopts pos
    if pos < nargv.length ∧ cstart < nargv.length then
      permuteCycle panonopt_end nnonopts nopts cstart j pos (nargv.swap pos cstart)
    else none

def permute_args (panonopt_start panonopt_end opt_end : Nat) (nargv : List α) : Option (List α) :=
  let nnonopts := panonopt_end - panonopt_start
  let nopts := opt_end - panonopt_end
  (gcd nnonopts nopts).bind fun ncycle =>
    let cyclelen := (opt_end - panonopt_start) / ncycle
    (List.range ncycle).foldlM (fun nargv i =>
      let cstart := panonopt_end + i
      permuteCycle panonopt_end nnonopts nopts cstart cyclelen cstart nargv) nargv

theorem gcd_eq (hb : 0 < b) : gcd a b = some (Nat.gcd a b) := by
  induction a, b using gcd.induct with
  | case1 => omega
  | case2 a b hb' c zero =>
    rw [gcd,dif_neg hb',if_pos zero]
    have divides : b ∣ a := Nat.dvd_of_mod_eq_zero zero
    rw [Nat.gcd_eq_right divides]
  | case3 a b hb' c nonzero ih =>
    rw [gcd,dif_neg hb',if_neg nonzero,ih (by omega),Nat.gcd_comm b c,← Nat.gcd_rec,Nat.gcd_comm b a]

section Cycles
variable {start front back leader : Nat} {nargv : List α}

theorem exchanged_nextPos : CycleLeader.exchanged start front back = nextPos (start + front) front back := rfl

theorem permuteCycle_eq (inside : leader < nargv.length)
    (within : ∀ m, (CycleLeader.exchanged start front back)^[m] pos < nargv.length) (steps : Nat) :
    permuteCycle (start + front) front back leader steps pos nargv =
      some (CycleLeader.walk (CycleLeader.exchanged start front back) leader steps pos nargv) := by
  induction steps generalizing pos nargv with
  | zero => rfl
  | succ steps ih =>
    have here : nextPos (start + front) front back pos < nargv.length := within 1
    rw [permuteCycle,if_pos ⟨here,inside⟩]
    exact ih (by simpa using inside) fun m => by rw [List.length_swap]; exact within (m+1)

theorem permuteCycles_eq {is : List Nat} (steps : Nat)
    (within : ∀ i ∈ is, ∀ m, (CycleLeader.exchanged start front back)^[m] (start + front + i) < nargv.length) :
    is.foldlM (fun nargv i =>
        permuteCycle (start + front) front back (start + front + i) steps (start + front + i) nargv) nargv =
      some (CycleLeader.walks (CycleLeader.exchanged start front back) steps (is.map (start + front + ·))
        nargv) := by
  induction is generalizing nargv with
  | nil => rfl
  | cons i is ih =>
    have first := within i List.mem_cons_self
    have cycle := permuteCycle_eq (first 0) first steps
    rw [Function.iterate_zero_apply] at cycle
    rw [List.foldlM_cons,cycle]
    exact ih fun j member m => by simpa using within j (List.mem_cons_of_mem i member) m

end Cycles

theorem permute_args_exchange (before nonopts opts after : List α) (some_nonopts : nonopts ≠ [])
    (some_opts : opts ≠ []) :
    permute_args before.length (before.length + nonopts.length)
        (before.length + nonopts.length + opts.length) (before ++ (nonopts ++ (opts ++ after))) =
      some (before ++ (opts ++ (nonopts ++ after))) := by
  have positive := List.length_pos_iff.mpr some_opts
  have moved := CycleLeader.walks_blocks before nonopts opts after some_nonopts some_opts
  have whole : before.length + nonopts.length + opts.length - before.length =
      nonopts.length + opts.length := by omega
  simp only [permute_args,Nat.add_sub_cancel_left,gcd_eq positive,Option.bind_some,whole]
  rw [permuteCycles_eq,← CycleLeader.leadersOf,moved]
  intro i member m
  have fits : before.length + (nonopts.length + opts.length) ≤
      (before ++ (nonopts ++ (opts ++ after))).length := by simp
  exact Nat.lt_of_lt_of_le (CycleLeader.iterate_leader_bound positive (List.mem_range.mp member) m) fits

theorem permute_args_cut (nargv : List α) (some_nonopts : panonopt_start < panonopt_end)
    (order : panonopt_end ≤ opt_end) (bound : opt_end ≤ nargv.length) :
    permute_args panonopt_start panonopt_end opt_end nargv =
      if panonopt_end = opt_end then none
      else
        some (nargv.take panonopt_start ++ ((nargv.drop panonopt_end).take (opt_end - panonopt_end) ++
          ((nargv.drop panonopt_start).take (panonopt_end - panonopt_start) ++ nargv.drop opt_end))) := by
  by_cases none_opts : panonopt_end = opt_end
  · subst none_opts
    rw [if_pos rfl]
    simp [permute_args,gcd]
  · have first : panonopt_start + (panonopt_end - panonopt_start) = panonopt_end := by omega
    have second : panonopt_end + (opt_end - panonopt_end) = opt_end := by omega
    have cut : nargv = nargv.take panonopt_start ++ ((nargv.drop panonopt_start).take (panonopt_end - panonopt_start) ++
        ((nargv.drop panonopt_end).take (opt_end - panonopt_end) ++ nargv.drop opt_end)) := by
      have later := List.take_append_drop (opt_end - panonopt_end) (nargv.drop panonopt_end)
      have inner := List.take_append_drop (panonopt_end - panonopt_start) (nargv.drop panonopt_start)
      rw [List.drop_drop,second] at later
      rw [List.drop_drop,first] at inner
      rw [later,inner,List.take_append_drop]
    have exchanged := permute_args_exchange (nargv.take panonopt_start)
      ((nargv.drop panonopt_start).take (panonopt_end - panonopt_start))
      ((nargv.drop panonopt_end).take (opt_end - panonopt_end)) (nargv.drop opt_end)
      (List.ne_nil_of_length_pos (by simp; omega)) (List.ne_nil_of_length_pos (by simp; omega))
    have lengths : (nargv.take panonopt_start).length = panonopt_start ∧
        ((nargv.drop panonopt_start).take (panonopt_end - panonopt_start)).length = panonopt_end - panonopt_start ∧
        ((nargv.drop panonopt_end).take (opt_end - panonopt_end)).length = opt_end - panonopt_end := by
      simp only [List.length_take,List.length_drop]
      omega
    rw [← cut,lengths.1,lengths.2.1,lengths.2.2,first,second] at exchanged
    rw [if_neg none_opts,exchanged]

/-- The vector may be cut at any three places; without options behind the non-options the length of a
cycle is divided by zero. Otherwise the cycles have each position between the outer cuts once. -/
theorem permute_args_vector (nargv : List α) (some_nonopts : panonopt_start < panonopt_end)
    (order : panonopt_end ≤ opt_end) (bound : opt_end ≤ nargv.length) :
    (permute_args panonopt_start panonopt_end opt_end nargv =
      if panonopt_end = opt_end then none
      else
        some (nargv.take panonopt_start ++ ((nargv.drop panonopt_end).take (opt_end - panonopt_end) ++
          ((nargv.drop panonopt_start).take (panonopt_end - panonopt_start) ++ nargv.drop opt_end)))) ∧
    (panonopt_end ≠ opt_end → ∀ ncycle,
      gcd (panonopt_end - panonopt_start) (opt_end - panonopt_end) = some ncycle →
      ∀ pos, panonopt_start ≤ pos → pos < opt_end →
        ∃! p : Nat × Nat, p.1 < ncycle ∧ p.2 < (opt_end - panonopt_start) / ncycle ∧
          (nextPos panonopt_end (panonopt_end - panonopt_start) (opt_end - panonopt_end))^[p.2]
            (panonopt_end + p.1) = pos) := by
  constructor
  · exact permute_args_cut nargv some_nonopts order bound
  · intro some_opts ncycle counted pos from_ until_
    rw [gcd_eq (by omega)] at counted
    obtain rfl := Option.some.inj counted
    have visited := @CycleLeader.visited_once panonopt_start (panonopt_end - panonopt_start)
      (opt_end - panonopt_end) (pos - panonopt_start) (by omega) (by omega) (by omega)
    rwa [exchanged_nextPos,show panonopt_start + (panonopt_end - panonopt_start) = panonopt_end by omega,
      show panonopt_end - panonopt_start + (opt_end - panonopt_end) = opt_end - panonopt_start by omega,
      show panonopt_start + (pos - panonopt_start) = pos by omega] at visited

theorem permute_args_vector_files : permute_args 1 3 5 ["prog","a","b","-t","1","c"] =
    some ["prog","-t","1","a","b","c"] ∧
    ∃! p : Nat × Nat, p.1 < 2 ∧ p.2 < 2 ∧ (nextPos 3 2 2)^[p.2] (3 + p.1) = 4 :=
  have moved := permute_args_vector ["prog","a","b","-t","1","c"] (by decide : 1 < 3) (by decide : 3 ≤ 5)
    (by decide)
  ⟨moved.1,moved.2 (by decide) 2 (gcd_eq (by decide)) 4 (by decide) (by decide)⟩

end Permute

/-! The long options. -/

def identicalInterpretation (x y : LongOption) : Bool :=
  x.has_arg = y.has_arg && x.flag = y.flag && x.val = y.val

/-- The loop over the table: `match` and `ambiguous` at its end. Two strings agree in `strncmp` if
they have the same first characters. -/
def findLong (current_argv : CString) (current_argv_len : Nat) (short_too : Bool) :
    List LongOption → Nat → Option (Nat × LongOption) → Bool → Option (Nat × LongOption) × Bool
  | [], _, found, ambiguous => (found, ambiguous)
  | o :: os, i, found, ambiguous =>
    if current_argv.take current_argv_len ≠ o.name.take current_argv_len then
      findLong current_argv current_argv_len short_too os (i+1) found ambiguous
    else if o.name.length = current_argv_len then (some (i,o), false)
    else if short_too && current_argv_len = 1 then
      findLong current_argv current_argv_len short_too os (i+1) found ambiguous
    else
      -- the first one stays the match
      findLong current_argv current_argv_len short_too os (i+1) (found.or (some (i,o)))
        (ambiguous || found.any fun first => !identicalInterpretation o first.2)

def LongOption.optopt (o : LongOption) : Int := if o.flag = none then o.val else 0

/-- The status is stored, or it is the value of the call. -/
def matched (i : Nat) (o : LongOption) (s : State) : Int × State :=
  let s := { s with idx := some i }
  match o.flag with
  | some address => (0, { s with flags := s.flags ++ [(address, o.val)] })
  | none => (o.val, s)

def parse_long_options (options : CString) (long_options : List LongOption) (short_too : Bool)
    (s : State) : Int × State :=
  let current_argv := s.place
  let s := { s with optind := s.optind + 1 }
  let current_argv_len := (current_argv.takeWhile (· ≠ '=')).length
  let has_equal := (current_argv.dropWhile (· ≠ '=')).tail?
  let (found, ambiguous) := findLong current_argv current_argv_len short_too long_options 0 none false
  if ambiguous then
    (BADCH, { s.warn options (.ambig (current_argv.take current_argv_len)) with optopt := 0 })
  else
    match found with
    | none =>
      if short_too then (-1, { s with optind := s.optind - 1 })
      else (BADCH, { s.warn options (.illoptstring current_argv) with optopt := 0 })
    | some (i, o) =>
      if o.has_arg = .no_argument ∧ has_equal.isSome then
        (BADARG options,
          { s.warn options (.noarg (current_argv.take current_argv_len)) with optopt := o.optopt })
      else
        let s :=
          match o.has_arg, has_equal with
          | .no_argument, _ => s
          | _, some arg => { s with optarg := some arg }
          | .required_argument, none => { s with optarg := s.nargv[s.optind]?, optind := s.optind + 1 }
          | .optional_argument, none => s
        if o.has_arg = .required_argument ∧ s.optarg = none then
          (BADARG options, { s.warn options (.recargstring current_argv) with
            optopt := o.optopt, optind := s.optind - 1 })
        else
          matched i o s

/-! One call. -/

inductive Scan where
  | returned (c : Int) (s : State)
  /-- `moved` if `place` is no longer the start of its argument. -/
  | scanning (moved : Bool) (s : State)
  deriving DecidableEq, Repr

/-- At the end of the vector. Without a `nonopt_start` there is nothing to permute. -/
def finishVector (s : State) : Option State :=
  match s.nonopt_start, s.nonopt_end with
  | some first, some last =>
    (permute_args first last s.optind s.nargv).map fun nargv =>
      { s with nargv := nargv, optind := s.optind - (last - first), nonopt_start := none, nonopt_end := none }
  | none, some _ => none
  | some first, none => some { s with optind := first, nonopt_start := none, nonopt_end := none }
  | none, none => some s

def finishOptions (s : State) : Option State :=
  match s.nonopt_start, s.nonopt_end with
  | some first, some last =>
    (permute_args first last s.optind s.nargv).map fun nargv =>
      { s with nargv := nargv, optind := s.optind - (last - first), nonopt_start := none, nonopt_end := none }
  | none, some _ => none
  | _, none => some { s with nonopt_start := none, nonopt_end := none }

/-- The vector and the bounds of the non-options when one more is found. -/
def skipNonoption (s : State) : Option (List CString × Option Nat × Option Nat) :=
  match s.nonopt_start, s.nonopt_end with
  | none, last => some (s.nargv, some s.optind, last)
  | some first, none => some (s.nargv, some first, none)
  | some first, some last =>
    (permute_args first last s.optind s.nargv).map fun nargv =>
      (nargv, some (s.optind - (last - first)), none)

def isNonoption (options arg : CString) : Bool :=
  arg.head? ≠ some '-' || (arg = ['-'] && '-' ∉ options)

/-- From the label `start` up to the long options. -/
def start (nargc : Nat) (options : CString) (permute allargs : Bool) (s : State) : Option Scan :=
  if s.optreset ∨ s.place = [] then
    if nargc ≤ s.optind then
      (finishVector { s with optreset := false, place := [] }).map (.returned (-1))
    else
      match s.nargv[s.optind]? with
      | none => none
      | some arg =>
        if isNonoption options arg then
          if allargs then
            some (.returned INORDER
              { s with optreset := false, place := [], optarg := some arg, optind := s.optind + 1 })
          else if !permute then some (.returned (-1) { s with optreset := false, place := [] })
          else
            match skipNonoption s with
            | none => none
            | some (nargv, first, last) =>
              start nargc options permute allargs { s with
                optreset := false, place := [], nargv := nargv, nonopt_start := first,
                nonopt_end := last, optind := s.optind + 1 }
        else
          let last := if s.nonopt_start ≠ none ∧ s.nonopt_end = none then some s.optind else s.nonopt_end
          let s := { s with optreset := false, nonopt_end := last }
          if arg = ['-','-'] then
            (finishOptions { s with optind := s.optind + 1, place := [] }).map (.returned (-1))
          else if arg = ['-'] then some (.scanning false { s with place := arg })
          else some (.scanning true { s with place := arg.tail })
  else some (.scanning true s)
termination_by nargc - s.optind

/-- The part about the letters. Reading behind the end of `place` is `none`. -/
def shortOption (nargc : Nat) (options : CString) (long_options : Option (List LongOption)) (s : State) :
    Option (Int × State) :=
  match s.place with
  | [] => none
  | optchar :: place =>
    let oli := options.dropWhile (· ≠ optchar)
    let next := if place = [] then s.optind + 1 else s.optind
    if optchar = ':' ∨ (optchar = '-' ∧ place ≠ []) ∨ oli = [] then
      if optchar = '-' ∧ place = [] then some (-1, { s with place := place })
      else
        some (BADCH, { s.warn options (.illoptchar optchar) with
          place := place, optind := next, optopt := optchar.toNat })
    else if long_options ≠ none ∧ optchar = 'W' ∧ oli[1]? = some ';' then
      if place = [] ∧ nargc ≤ next then
        some (BADARG options, { s.warn options (.recargchar optchar) with
          place := [], optind := next, optopt := optchar.toNat })
      else
        let text := if place = [] then s.nargv[next]? else some place
        text.map fun text =>
          let (c, s) := parse_long_options options (long_options.getD []) false
            { s with place := text, optind := next }
          (c, { s with place := [] })
    else if oli[1]? ≠ some ':' then some (optchar.toNat, { s with place := place, optind := next })
    else if place ≠ [] then
      some (optchar.toNat, { s with place := [], optarg := some place, optind := s.optind + 1 })
    else if oli[2]? = some ':' then
      some (optchar.toNat, { s with place := [], optarg := none, optind := next })
    else if nargc ≤ next then
      some (BADARG options, { s.warn options (.recargchar optchar) with
        place := [], optarg := none, optind := next, optopt := optchar.toNat })
    else
      some (optchar.toNat, { s with place := [], optarg := s.nargv[next]?, optind := next + 1 })

/-- From behind the label's part to the end of the call. -/
def readOption (nargc : Nat) (options : CString) (long_options : Option (List LongOption))
    (longonly moved : Bool) (s : State) : Option (Int × State) :=
  match long_options with
  | none => shortOption nargc options none s
  | some table =>
    let long := s.place.head? = some '-'
    if moved ∧ (long ∨ longonly) then
      let short_too := !long && s.place.head? ≠ some ':' && s.place.head?.all (· ∈ options)
      let (c, t) :=
        parse_long_options options table short_too (if long then { s with place := s.place.tail } else s)
      if c ≠ -1 then some (c, { t with place := [] }) else shortOption nargc options long_options t
    else shortOption nargc options long_options s

/-- The flags that are left of `FLAG_PERMUTE`. -/
def permuting (options : CString) (permute posixly_correct : Bool) : Bool :=
  permute && (options.head? = some '-' || !(posixly_correct || options.head? = some '+'))

/-- The letters without the sign in front of them that sets a flag. -/
def lettersOf (options : CString) : CString :=
  if options.head? = some '+' ∨ options.head? = some '-' then options.tail else options

def getopt_internal (nargc : Nat) (options : CString) (long_options : Option (List LongOption))
    (permute longonly posixly_correct : Bool) (s : State) : Option (Int × State) :=
  let s := if s.optind = 0 then { s with optind := 1, optreset := true } else s
  let s := { s with optarg := none }
  let s := if s.optreset then { s with nonopt_start := none, nonopt_end := none } else s
  match start nargc (lettersOf options) (permuting options permute posixly_correct)
      (options.head? = some '-') s with
  | none => none
  | some (.returned c s) => some (c, s)
  | some (.scanning moved s) => readOption nargc (lettersOf options) long_options longonly moved s

/-- `getenv("POSIXLY_CORRECT") != NULL` is `posixly_correct`. -/
def getopt_long (posixly_correct : Bool) (nargc : Nat) (options : CString)
    (long_options : List LongOption) (s : State) : Option (Int × State) :=
  getopt_internal nargc options (some long_options) true false posixly_correct s

end DPsim.Getopt
