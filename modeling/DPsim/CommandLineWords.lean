import DPsim.CommandLine

/-! Command lines that are written out from options and files, and what the constructor reads back with
the parser of `Compat/getopt.h`. -/
namespace DPsim.Getopt

def LongOption.letter (o : LongOption) : Char := Char.ofNat o.val.toNat

/-- The ways to write options. A group ends with the letter that takes an argument, if there is one;
the argument is attached to it, or is the next argument of the program. -/
inductive Word where
  | flags (group : List LongOption)
  | letter (group : List LongOption) (o : LongOption) (arg : CString) (attached : Bool)
  | longFlag (o : LongOption) (key : CString)
  | long (o : LongOption) (key arg : CString) (attached : Bool)
  | file (name : CString)
  deriving DecidableEq, Repr

namespace Word

def render : Word → List CString
  | flags group => ['-' :: group.map LongOption.letter]
  | letter group o arg attached =>
    if attached then ['-' :: (group.map LongOption.letter ++ o.letter :: arg)]
    else ['-' :: (group.map LongOption.letter ++ [o.letter]),arg]
  | longFlag _ key => ['-' :: '-' :: key]
  | long _ key arg attached =>
    if attached then ['-' :: '-' :: (key ++ '=' :: arg)] else ['-' :: '-' :: key,arg]
  | file name => [name]

def given (o : LongOption) (arg : Option CString) : Report := ⟨o.val,arg,[]⟩

def reports : Word → List Report
  | flags group => group.map (given · none)
  | letter group o arg _ => group.map (given · none) ++ [given o (some arg)]
  | longFlag o _ => [given o none]
  | long o _ arg _ => [given o (some arg)]
  | file _ => []

def files : Word → List CString
  | file name => [name]
  | _ => []

section Valid
variable (options : CString) (table : List LongOption)

structure Lettered (kind : Letter) (o : LongOption) : Prop where
  val : o.val = o.letter.toNat
  dash : o.letter ≠ '-'
  kind : Getopt.letter options o.letter = kind

/-- `key` stands for the option, whose value is returned. -/
structure Named (kind : HasArg) (o : LongOption) (key : CString) : Prop where
  found : ∃ i, select table key = .found i o
  equal : '=' ∉ key
  kind : o.has_arg = kind
  flag : o.flag = none

inductive Valid : Word → Prop where
  | flags (some_flags : group ≠ []) (all : ∀ o ∈ group, Lettered options .plain o) : Valid (.flags group)
  | letter (all : ∀ f ∈ group, Lettered options .plain f) (last : Lettered options .required o)
      (some_arg : attached = true → arg ≠ []) : Valid (.letter group o arg attached)
  | longFlag (some_key : key ≠ []) (named : Named table .no_argument o key) : Valid (.longFlag o key)
  | long (some_key : key ≠ []) (named : Named table .required_argument o key) :
      Valid (.long o key arg attached)
  | file (nonoption : isNonoption options name = true) : Valid (.file name)

end Valid

section Read
variable {options : CString} {table : List LongOption}

theorem Named.other {kind : HasArg} {o : LongOption} {key : CString} (named : Named table kind o key) :
    ∀ c ∈ key, decide (c ≠ '=') = true :=
  fun _ member => decide_eq_true fun same => named.equal (same ▸ member)

theorem Named.whole {kind : HasArg} {o : LongOption} {key : CString} (named : Named table kind o key) :
    key.takeWhile (· ≠ '=') = key ∧ key.dropWhile (· ≠ '=') = [] :=
  ⟨List.takeWhile_eq_self_iff.mpr named.other,List.dropWhile_eq_nil_iff.mpr named.other⟩

variable (table) in
theorem letterReports_flags {flags : List LongOption} (all : ∀ o ∈ flags, Lettered options .plain o)
    (text : CString) (rest : List CString) :
    letterReports options table (flags.map LongOption.letter ++ text) rest =
      (flags.map (given · none) ++ (letterReports options table text rest).1,
        (letterReports options table text rest).2) := by
  induction flags with
  | nil => rfl
  | cons o flags ih =>
    have first := all o List.mem_cons_self
    have later := ih fun f member => all f (List.mem_cons_of_mem o member)
    simp only [List.map_cons,List.cons_append,letterReports,first.dash,if_false,first.kind,later]
    simp [given,first.val]

theorem longReport_named {o : LongOption} {key : CString} (named : Named table .no_argument o key)
    (rest : List CString) : longReport options table key rest = (given o none,0) := by
  obtain ⟨i,found⟩ := named.found
  obtain ⟨whole,none_left⟩ := named.whole
  simp only [longReport,whole,found,none_left]
  rw [named.kind]
  simp [given,LongOption.optopt,named.flag]

theorem longReport_attached {o : LongOption} {key : CString} (named : Named table .required_argument o key)
    (arg : CString) (rest : List CString) :
    longReport options table (key ++ '=' :: arg) rest = (given o (some arg),0) := by
  obtain ⟨i,found⟩ := named.found
  have whole : (key ++ '=' :: arg).takeWhile (· ≠ '=') = key := by
    rw [List.takeWhile_append_of_pos named.other]
    simp
  have left : (key ++ '=' :: arg).dropWhile (· ≠ '=') = '=' :: arg := by
    rw [List.dropWhile_append_of_pos named.other]
    simp
  simp only [longReport,whole,found,left]
  rw [named.kind]
  simp [given,LongOption.optopt,named.flag]

theorem longReport_separate {o : LongOption} {key : CString} (named : Named table .required_argument o key)
    (arg : CString) (rest : List CString) :
    longReport options table key (arg :: rest) = (given o (some arg),1) := by
  obtain ⟨i,found⟩ := named.found
  obtain ⟨whole,none_left⟩ := named.whole
  simp only [longReport,whole,found,none_left]
  rw [named.kind]
  simp [given,LongOption.optopt,named.flag]

theorem parse_option {text : CString} {rest : List CString} (some_text : text ≠ []) (dashes : text ≠ ['-'])
    {reports : List Report} {taken : Nat} (read : letterReports options table text rest = (reports,taken)) :
    parse options table true false (('-' :: text) :: rest) =
      { reports := reports ++ (parse options table true false (rest.drop taken)).reports
        options := ('-' :: text) :: rest.take taken ++ (parse options table true false (rest.drop taken)).options
        positional := (parse options table true false (rest.drop taken)).positional } := by
  have option : ¬ isNonoption options ('-' :: text) = true := by simp [isNonoption,some_text]
  rw [parse,if_neg option,if_neg (by simpa using dashes),List.tail_cons,read]

variable (options table) in
theorem letterReports_long (text : CString) (rest : List CString) :
    letterReports options table ('-' :: text) rest =
      ([(longReport options table text rest).1],(longReport options table text rest).2) := by
  simp [letterReports]

/-- What is read of a word is what it was written from, whatever follows. -/
theorem parse_word {word : Word} (valid : Valid options table word) (rest : List CString) :
    (parse options table true false (word.render ++ rest)).reports =
        word.reports ++ (parse options table true false rest).reports ∧
      (parse options table true false (word.render ++ rest)).positional =
        word.files ++ (parse options table true false rest).positional := by
  cases valid with
  | @flags group some_flags all =>
    have read := letterReports_flags table all [] rest
    simp only [List.append_nil,letterReports] at read
    have some_text : group.map LongOption.letter ≠ [] := by simpa using some_flags
    have dashes : group.map LongOption.letter ≠ ['-'] := by
      intro same
      obtain ⟨o,member⟩ := List.exists_mem_of_ne_nil group some_flags
      have : o.letter ∈ ['-'] := same ▸ List.mem_map_of_mem member
      exact (all o member).dash (List.mem_singleton.mp this)
    simp only [render,List.singleton_append,parse_option some_text dashes read]
    exact ⟨rfl,rfl⟩
  | @letter group o attached arg all last some_arg =>
    have group_read (text : CString) (rest : List CString) :=
      letterReports_flags table all (o.letter :: text) rest
    have dashes (text : CString) : group.map LongOption.letter ++ o.letter :: text ≠ ['-'] := by
      intro same
      have : o.letter ∈ ['-'] := same ▸ by simp
      exact last.dash (List.mem_singleton.mp this)
    cases attached with
    | true =>
      have read : letterReports options table (o.letter :: arg) rest = ([given o (some arg)],0) := by
        simp [letterReports,last.dash,last.kind,some_arg rfl,given,last.val]
      have whole := group_read arg rest
      rw [read] at whole
      simp only [render,if_true,List.singleton_append,parse_option (by simp) (dashes arg) whole]
      exact ⟨rfl,rfl⟩
    | false =>
      have read : letterReports options table [o.letter] (arg :: rest) = ([given o (some arg)],1) := by
        simp [letterReports,last.dash,last.kind,given,last.val]
      have whole := group_read [] (arg :: rest)
      rw [read] at whole
      simp only [render,Bool.false_eq_true,if_false,List.cons_append,List.nil_append,
        parse_option (by simp) (dashes []) whole]
      exact ⟨rfl,rfl⟩
  | @longFlag key o some_key named =>
    have read := letterReports_long options table key rest
    rw [longReport_named named] at read
    simp only [render,List.singleton_append,parse_option (by simp) (by simpa using some_key) read]
    exact ⟨rfl,rfl⟩
  | @long key o arg attached some_key named =>
    cases attached with
    | true =>
      have read := letterReports_long options table (key ++ '=' :: arg) rest
      rw [longReport_attached named] at read
      simp only [render,if_true,List.singleton_append,parse_option (by simp) (by simp) read]
      exact ⟨rfl,rfl⟩
    | false =>
      have read := letterReports_long options table key (arg :: rest)
      rw [longReport_separate named] at read
      simp only [render,Bool.false_eq_true,if_false,List.cons_append,List.nil_append,
        parse_option (by simp) (by simpa using some_key) read]
      exact ⟨rfl,rfl⟩
  | @file name nonoption =>
    simp only [render,List.singleton_append]
    rw [parse,if_pos nonoption]
    exact ⟨rfl,rfl⟩

theorem parse_words {words : List Word} (valid : ∀ word ∈ words, Valid options table word)
    (rest : List CString) :
    (parse options table true false (words.flatMap render ++ rest)).reports =
        words.flatMap reports ++ (parse options table true false rest).reports ∧
      (parse options table true false (words.flatMap render ++ rest)).positional =
        words.flatMap files ++ (parse options table true false rest).positional := by
  induction words with
  | nil => exact ⟨rfl,rfl⟩
  | cons word words ih =>
    obtain ⟨reported,kept⟩ := ih fun w member => valid w (List.mem_cons_of_mem word member)
    obtain ⟨first,own⟩ := parse_word (valid word List.mem_cons_self) (words.flatMap render ++ rest)
    simp only [List.flatMap_cons,List.append_assoc]
    exact ⟨first.trans (by rw [reported]),own.trans (by rw [kept])⟩

theorem parse_dashes (rest : List CString) :
    parse options table true false (['-','-'] :: rest) =
      { reports := [], options := [['-','-']], positional := rest } := by
  rw [parse,if_neg (by simp [isNonoption]),if_pos rfl]

end Read
end Word
end DPsim.Getopt

namespace DPsim.CommandLineArgs

open Getopt

variable {Real Time : Type} {std : Conversions Real Time} {mProgramName : CString}

theorem long_options_lettered :
    ∀ o ∈ long_options, Word.Lettered (lettersOf shortOptions)
      (if o.has_arg = .required_argument then .required else .plain) o := by
  have val : ∀ o ∈ long_options, o.val = o.letter.toNat := by decide
  have dash : ∀ o ∈ long_options, o.letter ≠ '-' := by decide
  have kind : ∀ o ∈ long_options, letter (lettersOf shortOptions) o.letter =
      if o.has_arg = .required_argument then .required else .plain := by decide
  exact fun o member => ⟨val o member,dash o member,kind o member⟩

theorem long_options_named : ∀ o ∈ long_options, Word.Named long_options o.has_arg o o.name := by
  have found : ∀ o ∈ long_options, ∃ i < long_options.length,
      select long_options o.name = .found i o := by decide
  have equal : ∀ o ∈ long_options, '=' ∉ o.name := by decide
  have flag : ∀ o ∈ long_options, o.flag = none := by decide
  intro o member
  obtain ⟨i,_,selected⟩ := found o member
  exact ⟨⟨i,selected⟩,equal o member,rfl,flag o member⟩

/-- A command line may end with `--` and what is not to be read as an option. -/
def closed : Option (List CString) → List CString
  | none => []
  | some more => ['-','-'] :: more

/-- The settings and the files that a command line is written from are those that the constructor reads,
whichever way the options are written and wherever the files stand. -/
theorem construct_words {words : List Word}
    (valid : ∀ word ∈ words, Word.Valid (lettersOf shortOptions) long_options word)
    (closing : Option (List CString)) (a : CommandLineArgs Real Time) :
    ∃ t : State, construct std mProgramName false { nargv := [] }
        (words.flatMap Word.render ++ closed closing) a =
      (apply std mProgramName (words.flatMap Word.reports) a).map fun b =>
        (t,{ b with positional := b.positional ++ (words.flatMap Word.files ++ closing.getD []) }) := by
  obtain ⟨t,_,equation⟩ := construct_eq std mProgramName false (words.flatMap Word.render ++ closed closing) a
  have permutes : permuting shortOptions true false = true := by decide
  have ordinary : decide (shortOptions.head? = some '-') = false := by decide
  have tail : (parse (lettersOf shortOptions) long_options true false (closed closing)).reports = [] ∧
      (parse (lettersOf shortOptions) long_options true false (closed closing)).positional =
        closing.getD [] := by
    cases closing with
    | none => simp [closed,parse]
    | some more => simp [closed,Word.parse_dashes]
  obtain ⟨reported,kept⟩ := Word.parse_words valid (closed closing)
  rw [tail.1] at reported
  rw [tail.2] at kept
  refine ⟨t,?_⟩
  rw [equation,parsed,permutes,ordinary,reported,kept,List.append_nil]

theorem construct_words_files :
    (∃ t : State, construct refusing ['p'] false { nargv := [] }
        [['x'],['-','S'],"--log-level=WARN".toList] plain =
      .ok (t,{ plain with logLevel := .WARN, startSynch := true, positional := [['x']] })) ∧
    ∃ t : State, construct refusing ['p'] false { nargv := [] }
        [['x'],['-','S'],"--log-level=WARN".toList,['-','-'],['-','b']] plain =
      .ok (t,{ plain with logLevel := .WARN, startSynch := true, positional := [['x'],['-','b']] }) := by
  have start_synch := long_options_lettered ⟨"start-synch".toList,.no_argument,none,'S'.toNat⟩ (by decide)
  have log_level := long_options_named ⟨"log-level".toList,.required_argument,none,'l'.toNat⟩ (by decide)
  have constructed (closing : Option (List CString)) := @construct_words _ _ refusing ['p']
    [.file ['x'],.flags [⟨"start-synch".toList,.no_argument,none,'S'.toNat⟩],
      .long ⟨"log-level".toList,.required_argument,none,'l'.toNat⟩ "log-level".toList "WARN".toList true]
    (by
      simp only [List.mem_cons,List.not_mem_nil,or_false,forall_eq_or_imp,forall_eq]
      exact ⟨.file (by decide),.flags (by decide) (by simpa using start_synch),.long (by decide) log_level⟩)
    closing plain
  exact ⟨constructed none,constructed (some [['-','b']])⟩

end DPsim.CommandLineArgs
