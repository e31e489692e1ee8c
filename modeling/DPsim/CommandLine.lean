import DPsim.OptionScan
import DPsim.OrderedMap
import DPsim.SolverDomains
import Mathlib.Data.Char
import Mathlib.Data.List.Lex

/-! `CommandLineArgs`: the settings of a simulation from the arguments of the program. The parser is the
one of `Compat/getopt.h`, with which the class is built where the system has none. -/
namespace DPsim

open Getopt

inductive LogLevel where
  | NONE
  | INFO
  | DEBUG
  | WARN
  | ERROR
  deriving DecidableEq, Repr

/-- `CommandLineArgs::Argument`; a null `name` ends the table. -/
structure Argument where
  name : Option CString
  has_arg : HasArg
  val : Int
  valdesc : Option CString
  desc : Option CString
  deriving DecidableEq, Repr

/-- `name` and `startTime` of the header; the latter is not set by the constructor's parameters. -/
structure CommandLineArgs (Real Time : Type) where
  timeStep : Real
  duration : Real
  sysFreq : Real
  scenario : Int32
  logLevel : LogLevel
  name : CString
  startSynch : Bool
  blocking : Bool
  solverDomain : Domain
  solverType : SolverType
  startTime : Option Time := none
  positional : List CString := []
  options : OrderedMap CString Real := .empty

/-- The conversions of the standard library. `start_at` reads a date, `start_in` adds seconds to the
time of the call. -/
structure Conversions (Real Time : Type) where
  stod : CString → Except String Real
  stoi : CString → Except String Int32
  start_at : CString → Option Time
  start_in : Real → Time

inductive Ended where
  | thrown (fault : Fault)
  /-- `exit`, after the usage was printed -/
  | exited (status : Int) (usage : List CString)
  deriving DecidableEq, Repr

namespace CommandLineArgs

def flag (name : String) (val : Char) : Argument :=
  ⟨some name.toList,.no_argument,val.toNat,none,some []⟩

def option (name : String) (val : Char) (valdesc desc : String) : Argument :=
  ⟨some name.toList,.required_argument,val.toNat,some valdesc.toList,some desc.toList⟩

def mArguments : List Argument := [
  flag "start-synch" 'S',
  flag "blocking" 'b',
  flag "help" 'h',
  option "timestep" 't' "SECS" "Simulation time-step",
  option "duration" 'd' "SECS" "Simulation duration",
  option "system-freq" 'f' "HZ" "System Frequency",
  option "scenario" 's' "NUM" "Scenario selection",
  option "log-level" 'l' "(NONE|INFO|DEBUG|WARN|ERROR)" "Logging level",
  option "start-at" 'a' "ISO8601" "Start time of real-time simulation",
  option "start-in" 'i' "SECS" "",
  option "solver-domain" 'D' "(DP|EMT)" "Domain of solver",
  option "solver-type" 'T' "(MNA)" "Type of solver",
  option "option" 'o' "KEY=VALUE" "User-definable options",
  option "name" 'n' "NAME" "Name of log files",
  ⟨none,.no_argument,0,none,none⟩]

def longOptions : List Argument → List LongOption
  | [] => []
  | a :: rest =>
    match a.name with
    | none => []
    | some name => ⟨name,a.has_arg,none,a.val⟩ :: longOptions rest

def long_options : List LongOption := longOptions mArguments

def shortOptions : CString := "ht:d:s:l:a:i:f:D:T:o:Sbn:".toList

/-- A line for each entry that has a letter; the lines of `showCopyright` are not kept. -/
def showUsage (mProgramName : CString) : List CString :=
  ["Usage: ".toList ++ mProgramName ++ " [OPTIONS] [FILES]".toList,[]," Available options:".toList] ++
    (mArguments.filterMap fun a =>
      if a.val = 0 then none
      else
        some ("  -".toList ++ [Char.ofNat a.val.toNat] ++ ", --".toList ++ a.name.getD [] ++
          (a.valdesc.elim [] fun text => ' ' :: text) ++ (a.desc.elim [] fun text => ' ' :: text))) ++
    [[]]

section Settings
variable {Real Time : Type} (std : Conversions Real Time) (mProgramName : CString)

/-- A `std::string` or a number from `optarg`, which must not be null. -/
def argument : Option CString → Except Ended CString
  | none => .error (.thrown .nullPointer)
  | some arg => .ok arg

def converted (convert : CString → Except String α) (optarg : Option CString) : Except Ended α :=
  argument optarg >>= fun arg => (convert arg).mapError fun what => .thrown (.exception what)

def oneOf (choices : List (String × α)) (what : String) (arg : CString) : Except String α :=
  match choices.find? fun p => p.1.toList = arg with
  | some p => .ok p.2
  | none => .error what

def logLevels : List (String × LogLevel) :=
  [("DEBUG",.DEBUG),("INFO",.INFO),("ERROR",.ERROR),("WARN",.WARN),("NONE",.NONE)]

def domains : List (String × Domain) := [("DP",.DP),("EMT",.EMT)]

def types : List (String × SolverType) := [("MNA",.MNA)]

/-- `KEY=VALUE`; without a `=` nothing is stored. -/
def keyValue (arg : CString) : Option (CString × CString) :=
  (arg.dropWhile (· ≠ '=')).tail?.map fun value => (arg.takeWhile (· ≠ '='),value)

def storeOption (arg : CString) (a : CommandLineArgs Real Time) :
    Except String (CommandLineArgs Real Time) :=
  match keyValue arg with
  | none => .ok a
  | some (key,value) => (std.stod value).map fun x => { a with options := a.options.insert key x }

def handle (c : Int) (optarg : Option CString) (a : CommandLineArgs Real Time) :
    Except Ended (CommandLineArgs Real Time) :=
  if c = 'S'.toNat then .ok { a with startSynch := true }
  else if c = 'b'.toNat then .ok { a with blocking := true }
  else if c = 't'.toNat then (converted std.stod optarg).map fun x => { a with timeStep := x }
  else if c = 'd'.toNat then (converted std.stod optarg).map fun x => { a with duration := x }
  else if c = 'f'.toNat then (converted std.stod optarg).map fun x => { a with sysFreq := x }
  else if c = 's'.toNat then (converted std.stoi optarg).map fun n => { a with scenario := n }
  else if c = 'o'.toNat then converted (fun arg => storeOption std arg a) optarg
  else if c = 'l'.toNat then
    (converted (oneOf logLevels
      "Invalid value for --log-level: must be a string of DEBUG, INFO, ERROR, WARN or NONE") optarg).map
      fun level => { a with logLevel := level }
  else if c = 'D'.toNat then
    (converted (oneOf domains "Invalid value for --solver-domain: must be a string of DP, EMT") optarg).map
      fun domain => { a with solverDomain := domain }
  else if c = 'T'.toNat then
    (converted (oneOf types "Invalid value for --solver-type: must be a string of MNA") optarg).map
      fun type => { a with solverType := type }
  else if c = 'i'.toNat then
    (converted std.stod optarg).map fun deltaT => { a with startTime := some (std.start_in deltaT) }
  else if c = 'a'.toNat then
    (converted (fun arg => match std.start_at arg with
      | some time => .ok time
      | none => .error "Invalid value for --start-at: must be a ISO8601 date") optarg).map
      fun time => { a with startTime := some time }
  else if c = 'n'.toNat then (converted .ok optarg).map fun text => { a with name := text }
  else if c = 'h'.toNat then .error (.exited 0 (showUsage mProgramName))
  else .error (.exited (-1) (showUsage mProgramName))

/-- `while (1)`, with a bound on the passes. -/
def optionLoop (posixly_correct : Bool) (argc : Nat) :
    Nat → State → CommandLineArgs Real Time → Except Ended (State × CommandLineArgs Real Time)
  | 0, _, _ => .error (.thrown .outOfFuel)
  | passes + 1, s, a =>
    match getopt_long posixly_correct argc shortOptions long_options s with
    | none => .error (.thrown .outOfRange)
    | some (c, s) =>
      if c = -1 then .ok (s,a)
      else
        match handle std mProgramName c s.optarg a with
        | .error ended => .error ended
        | .ok a => optionLoop posixly_correct argc passes s a

/-- No call passes less than a letter or an argument. -/
def passes (args : List CString) : Nat := (args.map fun arg => arg.length + 1).sum

/-- The constructor on `argv`, with the static variables of the parser before and after it. -/
def construct (posixly_correct : Bool) (s : State) (args : List CString) (a : CommandLineArgs Real Time) :
    Except Ended (State × CommandLineArgs Real Time) :=
  (optionLoop std mProgramName posixly_correct (args.length + 1) (passes args + 1)
    { s with nargv := mProgramName :: args } a).map fun (s,a) =>
      ({ s with optind := max s.optind (args.length + 1) },
        { a with positional := a.positional ++ s.nargv.drop s.optind })

/-- The settings that the reports of the parser lead to. -/
def apply (reports : List Report) (a : CommandLineArgs Real Time) :
    Except Ended (CommandLineArgs Real Time) :=
  reports.foldlM (fun a r => handle std mProgramName r.c r.optarg a) a

variable {std mProgramName}

variable (std mProgramName) in
theorem optionLoop_eq {posixly_correct : Bool} {argc : Nat} {s t : State} {reports : List Report}
    (reported : Reports (getopt_long posixly_correct argc shortOptions long_options) s reports t)
    (enough : reports.length < bound) (a : CommandLineArgs Real Time) :
    optionLoop std mProgramName posixly_correct argc bound s a =
      (apply std mProgramName reports a).map fun a => (t,a) := by
  induction reported generalizing bound a with
  | done ends _ =>
    cases bound with
    | zero => contradiction
    | succ bound =>
      rw [optionLoop,ends]
      rfl
  | @cons s t rs u r step go optarg printed _ ih =>
    cases bound with
    | zero => contradiction
    | succ bound =>
      have later := ih (Nat.lt_of_succ_lt_succ enough)
      rw [optionLoop,step]
      simp only [go,if_false,optarg,apply,List.foldlM_cons]
      cases handle std mProgramName r.c r.optarg a with
      | error ended => rfl
      | ok b => exact later b

structure Exhausted (n : Nat) (s : State) : Prop where
  index : s.optind = n + 1
  place : s.place = []
  reset : s.optreset = false
  first : s.nonopt_start = none
  last : s.nonopt_end = none

variable (std mProgramName) in
/-- The constructor takes over what one pass over the arguments reports, in this order, and keeps the
other arguments as the positional ones. -/
theorem construct_eq (posixly_correct : Bool) (args : List CString) (a : CommandLineArgs Real Time) :
    ∃ t : State, Exhausted args.length t ∧
      construct std mProgramName posixly_correct { nargv := [] } args a =
        (apply std mProgramName (parsed posixly_correct shortOptions long_options args).reports a).map
          fun b => (t,{ b with positional :=
            b.positional ++ (parsed posixly_correct shortOptions long_options args).positional }) := by
  have at_ : Between (args.length + 1) [mProgramName] [] [] args { nargv := mProgramName :: args } :=
    ⟨⟨rfl,by simp; omega,by simp,rfl,rfl,rfl,fun _ => rfl⟩,rfl,rfl⟩
  have values : ∀ o ∈ long_options, o.optopt ≠ -1 := by decide
  have no_dash : '-' ∉ lettersOf shortOptions := by decide
  obtain ⟨t,parses⟩ := at_.parses posixly_correct values no_dash fun _ => rfl
  have enough := parse_reports_length (lettersOf shortOptions) long_options
    (permuting shortOptions true posixly_correct) (shortOptions.head? = some '-') args
  have looped := optionLoop_eq std mProgramName parses.reports (Nat.lt_succ_of_le enough) a
  have index := parses.index
  have vector := parses.vector
  have bound : t.optind ≤ args.length + 1 := by
    have := (parse_perm (lettersOf shortOptions) long_options (permuting shortOptions true posixly_correct)
      (shortOptions.head? = some '-') args).length_eq
    simp only [List.length_append,List.length_cons,List.length_nil] at this index
    omega
  refine ⟨{ t with optind := args.length + 1 },
    ⟨rfl,parses.place,parses.reset,parses.first,parses.last⟩,?_⟩
  have files : t.nargv.drop t.optind = (parsed posixly_correct shortOptions long_options args).positional := by
    rw [vector,index,List.append_nil,List.drop_left' rfl]
    rfl
  have settings : optionLoop std mProgramName posixly_correct (args.length + 1) (passes args + 1)
      { nargv := mProgramName :: args } a = (apply std mProgramName
        (parsed posixly_correct shortOptions long_options args).reports a).map fun b => (t,b) := looped
  rw [construct,settings]
  cases apply std mProgramName (parsed posixly_correct shortOptions long_options args).reports a with
  | error ended => rfl
  | ok b => simp [Except.map,files,Nat.max_eq_right bound]

/-- The parser keeps its place: once a vector is read, no option and no file is taken from another one
that is not longer. -/
theorem construct_again {t : State} {args later : List CString} {posixly_correct posixly_later : Bool}
    {a b c : CommandLineArgs Real Time} {program : CString}
    (constructed : construct std mProgramName posixly_correct { nargv := [] } args a = .ok (t,b))
    (shorter : later.length ≤ args.length) :
    ∃ u, construct std program posixly_later t later c = .ok (u,c) := by
  obtain ⟨t',⟨index,place,reset,first,last⟩,equation⟩ := construct_eq std mProgramName posixly_correct args a
  have same : t = t' := by
    rw [constructed] at equation
    cases settings : apply std mProgramName
      (parsed posixly_correct shortOptions long_options args).reports a with
    | error ended =>
      rw [settings] at equation
      contradiction
    | ok d =>
      rw [settings] at equation
      exact congrArg Prod.fst (Except.ok.inj equation)
  subst same
  have ends : getopt_long posixly_later (later.length + 1) shortOptions long_options
      { t with nargv := program :: later } =
      some (-1,{ t with nargv := program :: later, optarg := none }) := by
    have past : later.length + 1 ≤ t.optind := by omega
    have positive : t.optind ≠ 0 := by omega
    simp only [getopt_long,getopt_internal,positive,if_false,reset,Bool.false_eq_true]
    rw [start,if_pos (.inr place),if_pos past,finishVector]
    simp only [first,last,place]
    rfl
  rw [construct,optionLoop,ends]
  have none_left : (program :: later).drop t.optind = [] :=
    List.drop_eq_nil_of_le (by simp only [List.length_cons]; omega)
  simp only [if_true,Except.map,none_left,List.append_nil]
  exact ⟨_,rfl⟩

def refusing : Conversions Nat Nat := ⟨fun _ => .error "stod",fun _ => .error "stoi",fun _ => none,id⟩

def plain : CommandLineArgs Nat Nat := ⟨1,1,50,-1,.INFO,['d'],false,false,.DP,.MNA,none,[],.empty⟩

theorem construct_again_file :
    ∃ t b u, construct refusing ['p'] false { nargv := [] } [['a']] plain = .ok (t,b) ∧
      construct refusing ['q'] true t [['-','S']] plain = .ok (u,plain) := by
  obtain ⟨t,_,constructed⟩ := construct_eq refusing ['p'] false [['a']] plain
  have read : parsed false shortOptions long_options [['a']] = ⟨[],[],[['a']]⟩ := by
    rw [parsed,parse,if_pos (by decide),if_neg (by decide),if_pos (by decide),parse]
  rw [read] at constructed
  obtain ⟨u,again⟩ := @construct_again _ _ _ _ _ _ [['-','S']] _ true _ _ plain ['q'] constructed
    (Nat.le_refl 1)
  exact ⟨t,_,u,constructed,again⟩

def needing : List Char := ['t','d','f','s','o','l','D','T','i','a','n']

theorem needing_forall (P : Char → Prop) [DecidablePred P] (checked : needing.all fun c => decide (P c)) :
    ∀ c ∈ needing, P c := by
  simpa only [List.all_eq_true,decide_eq_true_eq] using checked

theorem needing_required (o : LongOption) (member : o ∈ long_options) :
    ∀ c ∈ needing, o.optopt = c.toNat → o.has_arg = .required_argument := by
  have checked : ∀ o ∈ long_options,
      needing.all fun c => decide (o.optopt = c.toNat → o.has_arg = .required_argument) := by decide
  exact needing_forall _ (checked o member)

theorem needing_letter : ∀ c ∈ needing, letter (lettersOf shortOptions) c = .required :=
  needing_forall _ (by decide)

theorem converted_ends {convert : CString → Except String α} {optarg : Option CString} {e : Ended}
    (some_arg : optarg ≠ none) (failed : converted convert optarg = .error e) :
    ∃ what, e = .thrown (.exception what) := by
  cases optarg with
  | none => contradiction
  | some arg =>
    rw [converted] at failed
    cases result : convert arg with
    | error what =>
      simp [argument,bind,Except.bind,Except.mapError,result] at failed
      exact ⟨what,failed.symm⟩
    | ok value => simp [argument,bind,Except.bind,Except.mapError,result] at failed

theorem map_failed {x : Except Ended α} {f : α → β} (failed : x.map f = .error e) : x = .error e := by
  cases x with
  | error d => exact congrArg Except.error (Except.error.inj failed)
  | ok value => contradiction

theorem branch_failed {p Q : Prop} [Decidable p] {x y : Except Ended α}
    (failed : (if p then x else y) = .error e) (here : p → x = .error e → Q) (other : y = .error e → Q) : Q := by
  by_cases case_ : p
  · rw [if_pos case_] at failed
    exact here case_ failed
  · rw [if_neg case_] at failed
    exact other failed

theorem handle_ends {c : Int} {optarg : Option CString} {a : CommandLineArgs Real Time} {e : Ended}
    (carried : ∀ l ∈ needing, c = l.toNat → optarg ≠ none)
    (failed : handle std mProgramName c optarg a = .error e) :
    (∃ what, e = .thrown (.exception what)) ∨
      ∃ status, (status = 0 ∨ status = -1) ∧ e = .exited status (showUsage mProgramName) := by
  have converts (l : Char) (needs : l ∈ needing) (here : c = l.toNat) {α : Type}
      {convert : CString → Except String α} (failed : converted convert optarg = .error e) :=
    converted_ends (carried l needs here) failed
  have maps (l : Char) (needs : l ∈ needing) (here : c = l.toNat) {α β : Type}
      {convert : CString → Except String α} {f : α → β}
      (failed : (converted convert optarg).map f = .error e) := converts l needs here (map_failed failed)
  unfold handle at failed
  refine branch_failed failed (fun _ ok => nomatch ok) fun failed => ?_
  refine branch_failed failed (fun _ ok => nomatch ok) fun failed => ?_
  refine branch_failed failed (fun here failed => .inl (maps 't' (by decide) here failed)) fun failed => ?_
  refine branch_failed failed (fun here failed => .inl (maps 'd' (by decide) here failed)) fun failed => ?_
  refine branch_failed failed (fun here failed => .inl (maps 'f' (by decide) here failed)) fun failed => ?_
  refine branch_failed failed (fun here failed => .inl (maps 's' (by decide) here failed)) fun failed => ?_
  refine branch_failed failed (fun here failed => .inl (converts 'o' (by decide) here failed)) fun failed => ?_
  refine branch_failed failed (fun here failed => .inl (maps 'l' (by decide) here failed)) fun failed => ?_
  refine branch_failed failed (fun here failed => .inl (maps 'D' (by decide) here failed)) fun failed => ?_
  refine branch_failed failed (fun here failed => .inl (maps 'T' (by decide) here failed)) fun failed => ?_
  refine branch_failed failed (fun here failed => .inl (maps 'i' (by decide) here failed)) fun failed => ?_
  refine branch_failed failed (fun here failed => .inl (maps 'a' (by decide) here failed)) fun failed => ?_
  refine branch_failed failed (fun here failed => .inl (maps 'n' (by decide) here failed)) fun failed => ?_
  refine branch_failed failed (fun _ ends => ?_) fun ends => ?_
  · exact .inr ⟨0,.inl rfl,(Except.error.inj ends).symm⟩
  · exact .inr ⟨-1,.inr rfl,(Except.error.inj ends).symm⟩

theorem carried_of_origin {r : Report} (origin : Origin (lettersOf shortOptions) long_options r) :
    ∀ l ∈ needing, r.c = l.toNat → r.optarg ≠ none := by
  intro l needs here
  cases origin with
  | refused value =>
    exfalso
    have other : ∀ l ∈ needing, (l.toNat : Int) ≠ BADCH ∧ (l.toNat : Int) ≠ BADARG (lettersOf shortOptions) :=
      needing_forall _ (by decide)
    rcases value with value | value
    · exact (other l needs).1 (here.symm.trans value)
    · exact (other l needs).2 (here.symm.trans value)
  | inorder value =>
    exfalso
    have other : ∀ l ∈ needing, (l.toNat : Int) ≠ INORDER := needing_forall _ (by decide)
    exact other l needs (here.symm.trans value)
  | long o member value carries =>
    exact carries (needing_required o member l needs (value.symm.trans here))
  | letter c value carries =>
    have same : c = l := by
      have : (c.toNat : Int) = l.toNat := value.symm.trans here
      exact Char.toNat_inj.mp (by omega)
    exact carries (same ▸ needing_letter l needs)

/-- The constructor finds every argument it reads. It returns, a conversion or a check of a value
throws, or the program exits with its usage. -/
theorem construct_ends {posixly_correct : Bool} {args : List CString} {a : CommandLineArgs Real Time}
    {e : Ended} (failed : construct std mProgramName posixly_correct { nargv := [] } args a = .error e) :
    (∃ what, e = .thrown (.exception what)) ∨
      ∃ status, (status = 0 ∨ status = -1) ∧ e = .exited status (showUsage mProgramName) := by
  obtain ⟨t,_,equation⟩ := construct_eq std mProgramName posixly_correct args a
  replace failed := map_failed (equation.symm.trans failed)
  clear equation
  have origins := parse_origin (lettersOf shortOptions) long_options
    (permuting shortOptions true posixly_correct) (shortOptions.head? = some '-') args
  rw [parsed] at failed
  generalize (parse _ _ _ _ args).reports = reports at failed origins
  induction reports generalizing a with
  | nil => contradiction
  | cons r reports ih =>
    rw [apply,List.foldlM_cons] at failed
    cases handled : handle std mProgramName r.c r.optarg a with
    | error d =>
      rw [handled] at failed
      obtain rfl : d = e := Except.error.inj failed
      exact handle_ends (carried_of_origin (origins r List.mem_cons_self)) handled
    | ok b =>
      rw [handled] at failed
      exact ih failed fun q member => origins q (List.mem_cons_of_mem r member)

theorem construct_ends_help : (∃ what, Ended.exited 0 (showUsage ['p']) = .thrown (.exception what)) ∨
    ∃ status, (status = 0 ∨ status = -1) ∧
      Ended.exited 0 (showUsage ['p']) = .exited status (showUsage ['p']) := by
  obtain ⟨t,_,constructed⟩ := construct_eq refusing ['p'] false [['-','h']] plain
  have read : parsed false shortOptions long_options [['-','h']] = ⟨[⟨104,none,[]⟩],[['-','h']],[]⟩ := by
    have help : letterReports (lettersOf shortOptions) long_options ['h'] [] = ([⟨104,none,[]⟩],0) := by decide
    rw [parsed,parse,if_neg (by decide),if_neg (by decide),List.tail_cons,help]
    simp only [List.drop_nil,parse]
    rfl
  rw [read] at constructed
  exact construct_ends constructed

end Settings
end CommandLineArgs
end DPsim
