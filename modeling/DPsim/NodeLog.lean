import DPsim.DataLogger
import DPsim.MatrixRenumbering
import DPsim.SeparatedTables
import DPsim.SimulationSteps
import DPsim.SteadyState

/-! The files with the vectors of the solver: `log` prints them after each step, and the values of
a node are read back by its name. -/
namespace DPsim
namespace DataLogger
open Separated

variable {A Real : Type}

/-- `std::setfill('0') << std::setw(5)`. -/
def zeros (i : Nat) : Text := List.replicate (5 - (to_string i).length) '0' ++ to_string i

def emtName (i : Nat) : Text := ['n','o','d','e'] ++ zeros i

/-- The first half of the rows are real parts. -/
def phasorName (rows i : Nat) : Text :=
  if i < rows / 2 then ['n','o','d','e'] ++ zeros i ++ ['_','r','e']
  else ['n','o','d','e'] ++ zeros (i - rows / 2) ++ ['_','i','m']

def timeName : Text := ['t','i','m','e']

/-- A line of names or of values. -/
def printed (first : Text) (rest : List Text) : Text :=
  setw 14 first ++ rest.flatMap fun text => [',',' '] ++ setw 13 text

def setColumnNames (names : List Text) (lg : DataLogger A) : DataLogger A :=
  if lg.mLogFile = some [] then { lg with mLogFile := some (printed timeName names ++ ['\n']) } else lg

variable [Field Real]

/-- The first column of `data`. -/
def row (print : Real → Formatted) (data : Matrix Real) : List Text :=
  (List.range data.rows).map fun i => (print (data.entry i 0)).1

/-- `mEnabled` is set exactly where the file is open. -/
def logDataLine (print : Real → Formatted) (time : Real) (data : Matrix Real) (lg : DataLogger A) :
    DataLogger A :=
  { lg with mLogFile := lg.mLogFile.map fun text => text ++ printed (print time).1 (row print data) ++ ['\n'] }

/-- The two functions for node values differ in the names. -/
def logNodeValues (name : Nat → Nat → Text) (print : Real → Formatted) (time : Real) (data : Matrix Real)
    (lg : DataLogger A) : DataLogger A :=
  let lg := if lg.mLogFile = some [] then lg.setColumnNames ((List.range data.rows).map (name data.rows)) else lg
  lg.logDataLine print time data

def logPhasorNodeValues (print : Real → Formatted) (time : Real) (data : Matrix Real) (lg : DataLogger A) :
    DataLogger A := lg.logNodeValues phasorName print time data

def logEMTNodeValues (print : Real → Formatted) (time : Real) (data : Matrix Real) (lg : DataLogger A) :
    DataLogger A := lg.logNodeValues (fun _ => emtName) print time data

section Names

theorem zeros_injective : Function.Injective zeros := by
  have value (i : Nat) : Nat.ofDigitChars 10 (zeros i) 0 = i := by
    rw [zeros,Nat.ofDigitChars_append,Nat.ofDigitChars_replicate_zero]
    exact Nat.ofDigitChars_ten_toDigits
  intro i j same
  rw [← value i,same,value]

theorem zeros_digit {c : Char} (member : c ∈ zeros i) : c.isDigit = true := by
  rcases List.mem_append.mp member with filled | digit
  · rw [(List.mem_replicate.mp filled).2]
    decide
  · exact Nat.isDigit_of_mem_toDigits (by decide) (by decide) digit

theorem emtName_injective : Function.Injective emtName := by
  intro i j same
  exact zeros_injective (List.append_cancel_left same)

theorem phasorName_injective (rows : Nat) : Function.Injective (phasorName rows) := by
  intro i j same
  unfold phasorName at same
  split at same <;> split at same
  · exact zeros_injective (List.append_cancel_left (List.append_cancel_right same))
  · exact absurd (List.append_inj' same rfl).2 (by decide)
  · exact absurd (List.append_inj' same rfl).2 (by decide)
  · have numbers := zeros_injective (List.append_cancel_left (List.append_cancel_right same))
    omega

/-- A name splits no line, and nothing in it is left out as padding. -/
def Plain (text : Text) : Prop := '\n' ∉ text ∧ ',' ∉ text ∧ ' ' ∉ text

theorem zeros_plain (i : Nat) : Plain (zeros i) := by
  refine ⟨fun member => ?_,fun member => ?_,fun member => ?_⟩ <;>
    exact absurd (zeros_digit member) (by decide)

theorem Plain.append {first second : Text} (left : Plain first) (right : Plain second) :
    Plain (first ++ second) := by
  simp only [Plain,List.mem_append,not_or]
  exact ⟨⟨left.1,right.1⟩,⟨left.2.1,right.2.1⟩,⟨left.2.2,right.2.2⟩⟩

instance (text : Text) : Decidable (Plain text) := inferInstanceAs (Decidable (_ ∧ _))

theorem emtName_plain (i : Nat) : Plain (emtName i) := Plain.append (by decide) (zeros_plain i)

theorem phasorName_plain (rows i : Nat) : Plain (phasorName rows i) := by
  unfold phasorName
  split
  · exact (Plain.append (by decide) (zeros_plain _)).append (by decide)
  · exact (Plain.append (by decide) (zeros_plain _)).append (by decide)

end Names

section Files
variable {name : Nat → Nat → Text} {print : Real → Formatted} {r : Nat} {entries : List (Real × Matrix Real)}
  {lg : DataLogger A}

/-- A line as a record with its padding. -/
def padding (first : Text) (rest : List Text) : (Nat × Text) × List (Nat × Text) :=
  ((14 - first.length,first),rest.map fun text => (13 - text.length + 1,text))

theorem printed_line (first : Text) (rest : List Text) :
    printed first rest = line ',' ' ' (padding first rest) := by
  simp [printed,line,joined,padding,padded,setw,List.flatMap_map,List.replicate_succ]

theorem values_padding (first : Text) (rest : List Text) : values (padding first rest) = first :: rest := by
  simp [values,padding,Function.comp_def]

/-- The names, and below them the entries. -/
def table (names : List Text) (print : Real → Formatted) (entries : List (Real × Matrix Real)) :
    List ((Nat × Text) × List (Nat × Text)) :=
  if entries = [] then [] else
    padding timeName names :: entries.map fun entry => padding (print entry.1).1 (row print entry.2)

/-- What the file holds after these entries. -/
def Holds (name : Nat → Nat → Text) (print : Real → Formatted) (r : Nat) (entries : List (Real × Matrix Real))
    (lg : DataLogger A) : Prop :=
  lg.mLogFile = some (terminated '\n' ((table ((List.range r).map (name r)) print entries).map (line ',' ' ')))

/-- The names come before the first entry only. -/
theorem Holds.logged (holds : Holds name print r entries lg) {time : Real} {data : Matrix Real}
    (rows : data.rows = r) :
    Holds name print r (entries ++ [(time,data)]) (lg.logNodeValues name print time data) := by
  subst rows
  unfold Holds at holds ⊢
  by_cases none : entries = []
  · subst none
    have empty : lg.mLogFile = some [] := holds
    simp [logNodeValues,setColumnNames,logDataLine,empty,table,terminated,printed_line]
  · simp [logNodeValues,logDataLine,holds,table,none,terminated,printed_line]

/-- Reading gives the times, and the values of every name. -/
def ReadsBack (name : Nat → Text) (print : Real → Formatted) (r : Nat) (times : List Real)
    (vectors : List (Matrix Real)) (lg : DataLogger A) : Prop :=
  ∃ text, lg.mLogFile = some text ∧ ∀ key column,
    readColumn (records ',' '\n' ' ' text) key = some column ↔ times ≠ [] ∧
      (key = timeName ∧ column = times.map (fun time => (print time).1) ∨
        ∃ i < r, key = name i ∧ column = vectors.map fun data => (print (data.entry i 0)).1)

theorem table_plain (solid : ∀ x, ' ' ∉ (print x).1) {names : List Text} (plain : ∀ name ∈ names, Plain name) :
    ∀ record ∈ table names print entries, ∀ field ∈ values record, Plain field := by
  have number (x : Real) : Plain (print x).1 := ⟨(print x).2.2,(print x).2.1,solid x⟩
  unfold table
  split
  · simp
  · simp only [List.forall_mem_cons,List.forall_mem_map,values_padding,row,List.mem_range]
    exact ⟨⟨by decide,plain⟩,fun entry _ => ⟨number entry.1,fun i _ => number _⟩⟩

/-- A column without gaps. -/
theorem column_iff {β : Type} {xs : List β} {f : β → Option Text} {g : β → Text}
    (given : ∀ x ∈ xs, f x = some (g x)) {column : List Text} :
    xs.map f = column.map some ↔ column = xs.map g := by
  rw [List.map_congr_left given,← Function.comp_def,← List.map_map,eq_comm]
  exact (Option.some_injective Text).list_map.eq_iff

/-- Every column comes back, under its own name. -/
theorem Holds.read (holds : Holds name print r entries lg) (solid : ∀ x, ' ' ∉ (print x).1)
    (sized : ∀ entry ∈ entries, entry.2.rows = r) (own : Function.Injective (name r))
    (plain : ∀ i, Plain (name r i)) (other : ∀ i, name r i ≠ timeName) :
    ReadsBack (name r) print r (entries.map Prod.fst) (entries.map Prod.snd) lg := by
  refine ⟨_,holds,fun key column => ?_⟩
  have names : ∀ text ∈ (List.range r).map (name r), Plain text := by
    simpa using fun i _ => plain i
  rw [records_written (by decide) (by decide) (by decide) (table_plain solid names)]
  by_cases none : entries = []
  · simp [none,table,readColumn]
  have single : (timeName :: (List.range r).map (name r)).Nodup := by
    refine List.nodup_cons.mpr ⟨?_,List.nodup_range.map own⟩
    simpa using fun i _ => other i
  have read : (table ((List.range r).map (name r)) print entries).map values =
      (timeName :: (List.range r).map (name r)) ::
        entries.map fun entry => (print entry.1).1 :: row print entry.2 := by
    simp [table,none,values_padding]
  have value {i : Nat} (inside : i < r) : ∀ entry ∈ entries,
      ((print entry.1).1 :: row print entry.2)[i + 1]? = some (print (entry.2.entry i 0)).1 := by
    intro entry member
    simp [row,sized entry member,inside]
  rw [read,readColumn_iff single]
  simp only [ne_eq,List.map_eq_nil_iff,none,not_false_eq_true,true_and,List.map_map]
  constructor
  · rintro ⟨i,at_,same⟩
    rcases i with _ | i
    · exact .inl ⟨(Option.some.inj at_).symm,(column_iff fun _ _ => rfl).mp same⟩
    · obtain ⟨inside,rfl⟩ := List.getElem?_eq_some_iff.mp (List.getElem?_cons_succ.symm.trans at_)
      rw [List.length_map,List.length_range] at inside
      exact .inr ⟨i,inside,by simp,(column_iff (value inside)).mp same⟩
  · rintro (⟨rfl,same⟩ | ⟨i,inside,rfl,same⟩)
    · exact ⟨0,rfl,(column_iff fun _ _ => rfl).mpr same⟩
    · exact ⟨i + 1,by simp [inside],(column_iff (value inside)).mpr same⟩

end Files
end DataLogger

/-- Both files are open, or neither is: it depends on the log level. -/
structure VectorLogs where
  mLeftVectorLog : DataLogger Empty
  mRightVectorLog : DataLogger Empty

def VectorLogs.make (opened : Bool) : VectorLogs := ⟨.make opened,.make opened⟩

namespace MnaSolver
open Transition DataLogger Separated

variable {V : VarType} {Real W : Type} [Field Real]

def log (print : Real → Formatted) (time : Real) (s : MnaSolver V Real W) (logs : VectorLogs) : VectorLogs :=
  if s.mDomain = .EMT then
    ⟨logs.mLeftVectorLog.logEMTNodeValues print time s.mLeftSideVector,
      logs.mRightVectorLog.logEMTNodeValues print time s.mRightSideVector⟩
  else
    ⟨logs.mLeftVectorLog.logPhasorNodeValues print time s.mLeftSideVector,
      logs.mRightVectorLog.logPhasorNodeValues print time s.mRightSideVector⟩

/-- `step` and then `log`, as `Simulation::step` calls them. -/
def stepLogged (lib : Library Real W) (print : Real → Formatted) (time : Real)
    (p : MnaSolver V Real W × VectorLogs) (h : Heap W) : Except Fault (Real × (MnaSolver V Real W × VectorLogs) × Heap W) := do
  let (nextTime, s, h) ← p.1.step lib time h
  return (nextTime, (s, s.log print time p.2), h)

/-- The solver with its logs as `Simulation` drives it. -/
def loggedSolver (lib : Library Real W) (print : Real → Formatted) :
    Solver Real (MnaSolver V Real W × VectorLogs) (Heap W) := ⟨stepLogged lib print⟩

/-- A step with its entries in the logs; between two steps the heap may change. -/
def Logs (lib : Library Real W) (print : Real → Formatted) (p : MnaSolver V Real W × VectorLogs)
    (call : Real × Heap W) (q : MnaSolver V Real W × VectorLogs) : Prop :=
  ∃ nextTime h', stepLogged lib print call.1 p call.2 = .ok (nextTime, q, h')

def nodeName (domain : Domain) : Nat → Nat → Text :=
  if domain = .EMT then fun _ => emtName else phasorName

/-- The times of the calls. -/
def times (trace : List ((MnaSolver V Real W × VectorLogs) × (Real × Heap W))) : List Real :=
  trace.map (·.2.1)

/-- The solver after each of the calls. -/
def solved (trace : List ((MnaSolver V Real W × VectorLogs) × (Real × Heap W)))
    (final : MnaSolver V Real W × VectorLogs) : List (MnaSolver V Real W) :=
  (states trace final).tail.map Prod.fst

section Runs
variable {lib : Library Real W} {print : Real → Formatted} {system : SystemTopology Real W} {r n : Nat}
  {trace : List ((MnaSolver V Real W × VectorLogs) × (Real × Heap W))} {p q : MnaSolver V Real W × VectorLogs}
  {call : Real × Heap W} {vector : MnaSolver V Real W → Matrix Real} {log : VectorLogs → DataLogger Empty}
  {name : Nat → Nat → Text}

omit [Field Real] in
theorem solved_snoc : solved (trace ++ [(p,call)]) q = solved trace p ++ [q.1] := by
  cases trace <;> simp [solved,states]

omit [Field Real] in
theorem length_solved : (solved trace p).length = trace.length := by simp [solved,states]

/-- What one of the files holds in a run. -/
structure Written (vector : MnaSolver V Real W → Matrix Real) (log : VectorLogs → DataLogger Empty)
    (name : Nat → Nat → Text) (print : Real → Formatted) (r : Nat)
    (trace : List ((MnaSolver V Real W × VectorLogs) × (Real × Heap W)))
    (p : MnaSolver V Real W × VectorLogs) : Prop where
  sized : ∀ s ∈ solved trace p, (vector s).rows = r
  holds : Holds name print r ((times trace).zip ((solved trace p).map vector)) (log p.2)

theorem Written.snoc (recorded : Written vector log name print r trace p) (rows : (vector q.1).rows = r)
    (logged : log q.2 = (log p.2).logNodeValues name print call.1 (vector q.1)) :
    Written vector log name print r (trace ++ [(p,call)]) q := by
  refine ⟨?_,?_⟩
  · rw [solved_snoc]
    simpa [or_imp,forall_and] using ⟨recorded.sized,rows⟩
  · have length : (times trace).length = ((solved trace p).map vector).length := by
      simp [times,length_solved]
    have entries : (times (trace ++ [(p,call)])).zip ((solved (trace ++ [(p,call)]) q).map vector) =
        (times trace).zip ((solved trace p).map vector) ++ [(call.1,vector q.1)] := by
      rw [solved_snoc,List.map_append,times,List.map_append,← times,List.zip_append length]
      rfl
    rw [entries,logged]
    exact recorded.holds.logged rows

theorem nodeName_injective (domain : Domain) (r : Nat) : Function.Injective (nodeName domain r) := by
  unfold nodeName
  split
  · exact emtName_injective
  · exact phasorName_injective r

theorem nodeName_plain (domain : Domain) (r i : Nat) : Plain (nodeName domain r i) := by
  unfold nodeName
  split
  · exact emtName_plain i
  · exact phasorName_plain r i

theorem nodeName_ne (domain : Domain) (r i : Nat) : nodeName domain r i ≠ timeName := by
  unfold nodeName
  split
  · simp [emtName,timeName]
  · unfold phasorName
    split <;> simp [timeName]

theorem Written.read (recorded : Written vector log (nodeName domain) print r trace p)
    (solid : ∀ x, ' ' ∉ (print x).1) : ReadsBack (nodeName domain r) print r (times trace)
      ((solved trace p).map vector) (log p.2) := by
  have length : (times trace).length = ((solved trace p).map vector).length := by
    simp [times,length_solved]
  have sized : ∀ entry ∈ (times trace).zip ((solved trace p).map vector), entry.2.rows = r := by
    rintro ⟨time,data⟩ member
    obtain ⟨s,after,rfl⟩ := List.mem_map.mp (List.of_mem_zip member).2
    exact recorded.sized s after
  have read := recorded.holds.read solid sized (nodeName_injective domain r) (nodeName_plain domain r)
    (nodeName_ne domain r)
  rwa [List.map_fst_zip length.le,List.map_snd_zip length.ge] at read

/-- A step of the solver, and an entry in each file. -/
theorem logs_iff : Logs lib print p call q ↔
    Advances lib p.1 call q.1 ∧ q.2 = q.1.log print call.1 p.2 := by
  constructor
  · rintro ⟨nextTime,h',ran⟩
    obtain ⟨⟨_,s,k⟩,stepped,result⟩ := bind_ok.mp ran
    cases result
    exact ⟨⟨_,_,stepped⟩,rfl⟩
  · obtain ⟨s,logs⟩ := q
    rintro ⟨⟨nextTime,h',stepped⟩,written⟩
    obtain rfl : logs = s.log print call.1 p.2 := written
    exact ⟨nextTime,h',bind_ok.mpr ⟨_,stepped,rfl⟩⟩

theorem log_eq (time : Real) (s : MnaSolver V Real W) (logs : VectorLogs) : s.log print time logs =
    ⟨logs.mLeftVectorLog.logNodeValues (nodeName s.mDomain) print time s.mLeftSideVector,
      logs.mRightVectorLog.logNodeValues (nodeName s.mDomain) print time s.mRightSideVector⟩ := by
  unfold MnaSolver.log nodeName
  split <;> rfl

/-- What holds of the solver and its files in every state of a run. -/
structure Logging (system : SystemTopology Real W) (domain : Domain) (print : Real → Formatted) (r n : Nat)
    (trace : List ((MnaSolver V Real W × VectorLogs) × (Real × Heap W)))
    (p : MnaSolver V Real W × VectorLogs) : Prop where
  running : Running system r n p.1
  same : p.1.mDomain = domain
  left : Written (·.mLeftSideVector) (·.mLeftVectorLog) (nodeName domain) print r trace p
  right : Written (·.mRightSideVector) (·.mRightVectorLog) (nodeName domain) print r trace p

theorem Logging.step {domain : Domain} (keep : KeepSizes system)
    (logging : Logging system domain print r n trace p) (logs : Logs lib print p call q) :
    Logging system domain print r n (trace ++ [(p,call)]) q := by
  obtain ⟨advances,written⟩ := logs_iff.mp logs
  have running := logging.running.step keep advances
  have same : q.1.mDomain = domain := by
    obtain ⟨_,_,stepped⟩ := advances
    obtain ⟨_,_,_,_,frame,_⟩ := step_frame stepped
    rw [frame]
    exact logging.same
  rw [log_eq,same] at written
  refine ⟨running,same,logging.left.snoc running.shaped.left.1 ?_,logging.right.snoc running.shaped.right.1 ?_⟩
  · rw [written]
  · rw [written]

end Runs

section Simulations
variable [LinearOrder Real] {lib : Library Real W} {print : Real → Formatted}
  {sim sim' : Simulation Real (MnaSolver V Real W × VectorLogs) (Heap W)}

/-- A simulation makes such steps, each at its time. -/
theorem simulation_step_logs (stepped : sim.step (loggedSolver lib print) input = .ok (sim', effects)) :
    ∃ h, Logs lib print sim.mSolver (sim.mTime,h) sim'.mSolver ∧ solvedTimes effects = [sim.mTime] := by
  obtain ⟨h,nextTime,p,h',_,ran,rfl,rfl⟩ := Simulation.step_ok.mp stepped
  exact ⟨_,⟨nextTime,h',ran⟩,Simulation.solvedTimes_step sim _⟩

/-- A path of logged steps at the times that the simulation has solved. -/
def LoggedRun (lib : Library Real W) (print : Real → Formatted)
    (sim sim' : Simulation Real (MnaSolver V Real W × VectorLogs) (Heap W))
    (effects : List (Effect Real (Heap W))) : Prop :=
  ∃ trace, Path (Logs lib print) sim.mSolver trace sim'.mSolver ∧ times trace = solvedTimes effects

theorem LoggedRun.cons {sim₁ : Simulation Real (MnaSolver V Real W × VectorLogs) (Heap W)}
    (stepped : sim.step (loggedSolver lib print) input = .ok (sim₁, first))
    (later : LoggedRun lib print sim₁ sim' rest) : LoggedRun lib print sim sim' (first ++ rest) := by
  obtain ⟨h,logs,one⟩ := simulation_step_logs stepped
  obtain ⟨trace,path,same⟩ := later
  exact ⟨_,.cons logs path,by rw [solvedTimes_append,one,← same]; rfl⟩

theorem runLoop_logs (ran : sim.runLoop (loggedSolver lib print) fuel inputs = .ok (sim', effects)) :
    LoggedRun lib print sim sim' effects := by
  induction fuel generalizing sim inputs effects with
  | zero => cases ran
  | succ fuel ih =>
    unfold Simulation.runLoop at ran
    split at ran
    · obtain ⟨⟨x,first⟩,stepped,ran⟩ := bind_ok.mp ran
      obtain ⟨⟨y,later⟩,looped,result⟩ := bind_ok.mp ran
      cases result
      exact .cons stepped (ih looped)
    · cases ran
      exact ⟨[],.nil,rfl⟩

theorem realTimeLoop_logs (ran : sim.realTimeLoop (loggedSolver lib print) fuel inputs = .ok (sim', effects)) :
    LoggedRun lib print sim sim' effects := by
  induction fuel generalizing sim inputs effects with
  | zero => cases ran
  | succ fuel ih =>
    obtain ⟨⟨x,first⟩,stepped,ran⟩ := bind_ok.mp ran
    dsimp only at ran
    split at ran
    · obtain ⟨⟨y,later⟩,looped,result⟩ := bind_ok.mp ran
      cases result
      exact .cons stepped (ih looped)
    · cases ran
      rw [← List.append_nil effects]
      exact .cons stepped ⟨[],.nil,rfl⟩

/-- What the loop logs, the run logs. -/
theorem runWith_logs {loop} (logs : ∀ {inputs sim sim' effects}, loop inputs sim = .ok (sim', effects) →
      LoggedRun lib print sim sim' effects)
    (ran : sim.runWith loop inputs = .ok (sim', effects)) : LoggedRun lib print sim sim' effects := by
  obtain ⟨x,synced,steps,sync,looped,rfl⟩ := Simulation.runWith_ok.mp ran
  obtain ⟨silent,h,rfl⟩ := Simulation.sync_solved sync
  obtain ⟨trace,path,same⟩ := logs looped
  exact ⟨trace,path,by simp [silent,same]⟩

theorem run_logs (ran : sim.run (loggedSolver lib print) fuel inputs = .ok (sim', effects)) :
    LoggedRun lib print sim sim' effects := runWith_logs runLoop_logs ran

theorem realTimeRun_logs
    (ran : RealTimeSimulation.run (loggedSolver lib print) fuel inputs sim = .ok (sim', effects)) :
    LoggedRun lib print sim sim' effects := runWith_logs realTimeLoop_logs ran

end Simulations

/-- In every run of an initialized solver that logs, both files can be read: below `time` stand the
times of the steps, below the name of a node what the entry of the vector was printed as after each
step, and nothing else is found. -/
theorem log_read_back [LinearOrder Real] [IsStrictOrderedRing Real] (lib : Library Real W) (fuel : Nat)
    (timeStep : Real) (domain : Domain) (steadyStateInit : Bool) (system : SystemTopology Real W)
    (h g : Heap W) (s : MnaSolver V Real W) (print : Real → Formatted) (solid : ∀ x, ' ' ∉ (print x).1)
    (initialized : (make timeStep domain steadyStateInit system : MnaSolver V Real W).initializeSystem
      lib (fuel + 1) h = .ok (s, g))
    (keep : KeepSizes system) (path : Path (Logs lib print) (s,.make true) trace t) :
    ReadsBack (nodeName domain (systemRows lib V system)) print (systemRows lib V system) (times trace)
        ((solved trace t).map (·.mLeftSideVector)) t.2.mLeftVectorLog ∧
      ReadsBack (nodeName domain (systemRows lib V system)) print (systemRows lib V system) (times trace)
        ((solved trace t).map (·.mRightSideVector)) t.2.mRightVectorLog := by
  have same : s.mDomain = domain := by
    obtain ⟨⟨p,k⟩,prepared,factorized⟩ := bind_ok.mp initialized
    obtain ⟨_,_,_,_,_,frame,_⟩ := factorize_ok factorized
    rw [frame]
    exact (initializeNetwork_ok prepared).domain
  have start : Logging system domain print (systemRows lib V system)
      (system.mComponents.filterMap (·.mnaSwitch)).length [] (s,.make true) :=
    ⟨(initialized_running keep initialized).1,same,⟨by simp [solved],rfl⟩,⟨by simp [solved],rfl⟩⟩
  have logging := path.history (P := Logging system domain print (systemRows lib V system)
    (system.mComponents.filterMap (·.mnaSwitch)).length)
    (fun _ _ _ _ logging logs => logging.step keep logs) [] start
  exact ⟨logging.left.read solid,logging.right.read solid⟩

/-- Zero and one as `std::scientific` prints them. -/
def scientific (x : ℚ) : Formatted :=
  if x = 0 then ⟨['0','.','0','0','0','0','0','0','e','+','0','0'],by decide⟩
  else ⟨['1','.','0','0','0','0','0','0','e','+','0','0'],by decide⟩

/-- The solver of a source of one beside a conductance of one, after so many steps. -/
def shuntRun : Nat → (MnaSolver .complex ℚ Unit × VectorLogs) × Heap Unit
  | 0 =>
    match (make 1 .DP false (shuntGrid 1)).initializeSystem identityLibrary (0 + 1) noNodes with
    | .ok (s,h) => ((s,.make true),h)
    | .error _ => ((make 1 .DP false (shuntGrid 1),.make true),noNodes)
  | n + 1 =>
    match stepLogged identityLibrary scientific n (shuntRun n).1 (shuntRun n).2 with
    | .ok (_,p,h) => (p,h)
    | .error _ => shuntRun n

theorem log_read_back_shunt : ∃ text, (shuntRun 2).1.2.mLeftVectorLog.mLogFile = some text ∧
    readColumn (records ',' '\n' ' ' text) ['n','o','d','e','0','0','0','0','0','_','r','e'] =
      some [(scientific 1).1,(scientific 1).1] ∧
    readColumn (records ',' '\n' ' ' text) ['n','o','d','e','0','0','0','0','0','_','i','m'] =
      some [(scientific 0).1,(scientific 0).1] := by
  have solid (x : ℚ) : ' ' ∉ (scientific x).1 := by
    by_cases zero : x = 0 <;> simp [scientific,zero]
  have path : Path (Logs identityLibrary scientific) (shuntRun 0).1
      [((shuntRun 0).1,0,(shuntRun 0).2),((shuntRun 1).1,1,(shuntRun 1).2)] (shuntRun 2).1 :=
    .cons ⟨_,_,rfl⟩ (.cons ⟨_,_,rfl⟩ .nil)
  obtain ⟨⟨text,file,read⟩,_⟩ := log_read_back identityLibrary 0 1 .DP false (shuntGrid 1) noNodes _ _ scientific
    solid rfl (shuntGrid_keepSizes 1) path
  refine ⟨text,file,(read _ _).mpr ⟨by simp [times],.inr ⟨0,by decide,by decide,?_⟩⟩,
    (read _ _).mpr ⟨by simp [times],.inr ⟨1,by decide,by decide,?_⟩⟩⟩
  · decide +kernel
  · decide +kernel

end MnaSolver
end DPsim
